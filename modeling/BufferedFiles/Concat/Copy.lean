import BufferedFiles.Concat.Event
import BufferedFiles.Handle.Transfer

/-!
# Copying one input

A copy reads a chunk or a line, writes all of it, and goes on until a read gets nothing. It stops at
the first failure, and says whether reading or writing failed.
-/
namespace BufferedFiles.Concat

/-- Why a run ends early. -/
inductive Failure where
  | settings (cause : SettingsError)
  | openOutput (path : String) (cause : HandleError)
  | openInput (path : String) (cause : HandleError)
  | read (path : String) (cause : HandleError)
  | write (path : String) (cause : HandleError)
  | nothingAccepted (path : String)
  | closeInput (path : String) (cause : HandleError)
  | closeOutput (path : String) (cause : HandleError)
  | flush (path : String) (cause : HandleError)
  deriving DecidableEq, Repr

/-- What a copy works on. `events` are the events so far, the latest first. -/
structure Work where
  source : Handle
  sink : Handle
  system : System
  events : List Event
  deriving DecidableEq, Repr

/-- The events of one read that went well. `h` is the handle after it. -/
def readEvents (s : Settings) (h : Handle) (got : Nat) : List Event :=
  let max := boundFor (s.bound.map Int.ofNat)
  if s.lines then
    (if got = 0 then [] else [.lineFetched (LineBuffer.sizeFor max) got]) ++
      [.lineRead h.path max got]
  else
    (match h.stream.bind Stream.held with
    | some cause => [.heldBack got cause]
    | none => []) ++ [.fetched max got, .read h.path max got]

namespace Work

def tell (w : Work) (events : List Event) : Work :=
  { w with events := events.reverse ++ w.events }

/-- One read; none at the end. -/
def next (s : Settings) (w : Work) : Work × Except Failure Bytes :=
  let r := if s.lines then w.source.readLine w.system s.bound
    else w.source.read w.system s.bound
  let w := { w with source := r.handle, system := r.system }
  match r.result with
  | .error e => (w, .error (.read w.source.path e))
  | .ok chunk => (w.tell (readEvents s w.source chunk.length), .ok chunk)

/-- Writes all of a chunk. Every write takes a byte at least, so as many writes as there are bytes
are enough. -/
def deliver : Nat → Work → Bytes → Work × Except Failure Unit
  | 0, w, _ => (w, .ok ())
  | writes + 1, w, chunk =>
    if chunk.isEmpty then (w, .ok ()) else
    let r := w.sink.write w.system chunk
    let w := { w with sink := r.handle, system := r.system }
    match r.result with
    | .error e => (w, .error (.write w.sink.path e))
    | .ok n =>
      let w := w.tell [.stored chunk.length n, .written w.sink.path chunk.length n]
      if n = 0 then (w, .error (.nothingAccepted w.sink.path))
      else deliver writes w (chunk.drop n)

/-- One round: a read, and the write of what it got. The count is what was moved, 0 at the end. -/
def round (s : Settings) (w : Work) : Work × Except Failure Nat :=
  match w.next s with
  | (w, .error e) => (w, .error e)
  | (w, .ok chunk) =>
    match w.deliver chunk.length chunk with
    | (w, .error e) => (w, .error e)
    | (w, .ok ()) => (w, .ok chunk.length)

/-- Rounds until one moves nothing, and the count of all bytes moved. `none` where every round moves
something, so that they never end. -/
def rounds (s : Settings) (w : Work) (copied : Nat) : Option (Work × Except Failure Nat) :=
  match w.round s with
  | (w, .error e) => some (w, .error e)
  | (w, .ok 0) => some (w.tell [.drained w.source.path copied], .ok copied)
  -- `rounds s w (copied + n)`, built by tactics: the fixpoint would keep the source position of a written call
  | (w, .ok n) => by
    apply rounds
    · exact s
    · exact w
    · exact copied + n
partial_fixpoint

section Rounds

variable {s : Settings} {w w' : Work} {e : Failure} {copied n : Nat}

theorem rounds_of_failure (h : w.round s = (w', .error e)) : w.rounds s copied = some (w', .error e) := by
  rw [rounds, h]

theorem rounds_of_end (h : w.round s = (w', .ok 0)) :
    w.rounds s copied = some (w'.tell [.drained w'.source.path copied], .ok copied) := by
  rw [rounds, h]
  rfl

theorem rounds_of_more (h : w.round s = (w', .ok (n + 1))) : w.rounds s copied = w'.rounds s (copied + (n + 1)) := by
  rw [rounds, h]
  rfl

end Rounds

def copy (s : Settings) (w : Work) : Work × Except Failure Nat :=
  (w.rounds s 0).getD (w, .ok 0)

end Work

end BufferedFiles.Concat
