import BufferedFiles.Handle.Transfer

/-!
# Requests

What can be asked of something open: one of the seven calls, a query that changes nothing, a transfer
made of several calls, or one of two things that only a bare stream can do. A bare stream knows the
calls and its descriptor; a bound it is not given has no default there.
-/
namespace BufferedFiles

inductive Call where
  | read (max : Option Nat)
  | readLine (max : Option Nat)
  | write (bytes : Bytes)
  | flush
  | seek (target : Target)
  | tell
  | close
  deriving DecidableEq, Repr

/-- A description writes the descriptor of something open as `number`. -/
inductive Query where
  | path | mode | closed | descriptor
  | description (number : String)
  deriving DecidableEq, Repr

inductive Transfer where
  | readSome (n : Nat)
  | readExact (n : Nat)
  | readToEnd
  | readText
  | writeSome (bytes : Bytes)
  | writeAll (bytes : Bytes)
  | flush
  | seek (target : Target)
  | rewind
  | position
  deriving DecidableEq, Repr

inductive Request where
  | call (c : Call)
  | query (q : Query)
  | transfer (t : Transfer)
  | fillBuffer (buffer : Bytes)
  | setDiscipline (discipline : Discipline)
  deriving DecidableEq, Repr

inductive Answer where
  | done
  | bytes (bytes : Bytes)
  | count (n : Nat)
  | number (n : Int)
  | descriptor (n : Int) (adopted : Option String)
  | text (text : String)
  | flag (value : Bool)
  | buffer (n : Nat) (content : Bytes)
  | contents (bytes : Option Bytes)
  deriving DecidableEq, Repr

/-- What comes back: an answer, a failure of either kind, or nothing where the request makes no
sense for what it was made of. -/
inductive Reply where
  | answer (a : Answer)
  | refused (e : HandleError)
  | failed (e : TransferError)
  | senseless
  deriving DecidableEq, Repr

namespace Reply

def ofHandle {α : Type} (f : α → Answer) : Except HandleError α → Reply
  | .ok a => .answer (f a)
  | .error e => .refused e

def ofTransfer {α : Type} (f : α → Answer) : Except TransferError α → Reply
  | .ok a => .answer (f a)
  | .error e => .failed e

def ofStream {α : Type} (f : α → Answer) : Except StreamError α → Reply
  | .ok a => .answer (f a)
  | .error e => .refused (.stream e)

end Reply

namespace Outcome

def reply {α : Type} (r : Outcome HandleError α) (f : α → Answer) : Handle × System × Reply :=
  (r.handle, r.system, .ofHandle f r.result)

def replyTransfer {α : Type} (r : Outcome TransferError α) (f : α → Answer) : Handle × System × Reply :=
  (r.handle, r.system, .ofTransfer f r.result)

end Outcome

namespace Handle

def call (h : Handle) (sys : System) : Call → Handle × System × Reply
  | .read max => (h.read sys max).reply .bytes
  | .readLine max => (h.readLine sys max).reply .bytes
  | .write bytes => (h.write sys bytes).reply .count
  | .flush => (h.flush sys).reply fun _ => .done
  | .seek target => (h.seek sys target).reply .count
  | .tell => (h.tell sys).reply .count
  | .close => (h.close sys).reply fun _ => .done

def query (h : Handle) (adopted : Option String) : Query → Answer
  | .path => .text h.path
  | .mode => .text h.mode
  | .closed => .flag h.isClosed
  | .descriptor => .descriptor h.descriptor adopted
  | .description number => .text (h.describe number)

def transfer (h : Handle) (sys : System) : Transfer → Handle × System × Reply
  | .readSome n => (h.readSome sys n).replyTransfer .bytes
  | .readExact n => (readExact callLimit h sys n).replyTransfer .bytes
  | .readToEnd => (readToEnd callLimit h sys 0).replyTransfer .bytes
  | .readText => (h.readText sys).replyTransfer .text
  | .writeSome bytes => (h.writeSome sys bytes).replyTransfer .count
  | .writeAll bytes => (writeAll callLimit h sys bytes).replyTransfer fun _ => .done
  | .flush => (h.flush sys).toTransfer.replyTransfer fun _ => .done
  | .seek target => (h.seek sys target).toTransfer.replyTransfer .count
  | .rewind => (h.seek sys (.start 0)).toTransfer.replyTransfer fun _ => .done
  | .position => (h.seek sys (.current 0)).toTransfer.replyTransfer .count

/-- Answers a request. `adopted` is the name of the descriptor the handle was made from. -/
def respond (h : Handle) (sys : System) (adopted : Option String) :
    Request → Handle × System × Reply
  | .call c => h.call sys c
  | .query q => (h, sys, .answer (h.query adopted q))
  | .transfer t => h.transfer sys t
  | .fillBuffer _ | .setDiscipline _ => (h, sys, .senseless)

end Handle

namespace Stream

/-- The fields of a stream on one line; its place in memory is never shown. -/
def describe (number : String) : String :=
  "NativeStream \x7b ptr: PTR, fd: " ++ number ++ " \x7d"

end Stream

namespace Connection

/-- A connection that is still there, with a reply. -/
def keep {α : Type} (f : α → Answer) :
    Connection × Except StreamError α → Option Stream × System × Reply
  | (c, result) => (some c.stream, c.system, .ofStream f result)

def call (c : Connection) : Call → Option Stream × System × Reply
  | .read (some n) => keep .bytes (c.read n)
  | .readLine (some n) => keep .bytes (c.readLine n)
  | .read none | .readLine none => (some c.stream, c.system, .senseless)
  | .write bytes => keep .count (c.write bytes)
  | .flush => keep (fun _ => .done) c.flush
  | .seek target => keep .count (c.seek target)
  | .tell => keep .count c.tell
  | .close =>
    let (sys, result) := c.close
    (none, sys, .ofStream (fun _ => .done) result)

/-- Answers a request to a bare stream; closing it leaves nothing behind. -/
def respond (c : Connection) (adopted : Option String) :
    Request → Option Stream × System × Reply
  | .call request => c.call request
  | .query .descriptor =>
    (some c.stream, c.system, .answer (.descriptor c.stream.fd adopted))
  | .query (.description number) =>
    (some c.stream, c.system, .answer (.text (Stream.describe number)))
  | .query _ | .transfer _ => (some c.stream, c.system, .senseless)
  | .fillBuffer buffer =>
    keep (fun bytes => .buffer bytes.length (overwrite buffer 0 bytes)) (c.read buffer.length)
  | .setDiscipline discipline => keep (fun _ => .done) (c.setDiscipline discipline)

end Connection

end BufferedFiles
