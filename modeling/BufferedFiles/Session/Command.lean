import BufferedFiles.Session.Basic

/-!
# Commands

A command makes something, asks something that is open, or looks at the system. A command that names
something that is not there makes no sense and changes nothing.
-/
namespace BufferedFiles

inductive Command where
  | openHandle (name : String) (path : Bytes) (mode : String) (buffering : Option Int)
  | adoptHandle (name : String) (descriptor : DescriptorRef) (mode label : String)
      (buffering : Option Int)
  | openStream (name : String) (path : Bytes) (mode : String)
  | adoptStream (name : String) (descriptor : DescriptorRef) (mode : String)
  | wrap (name stream label mode : String) (buffering : Option Int)
  | openShared (name : String) (path : Bytes) (mode : String) (buffering : Option Int)
  | share (name : String) (path : Bytes) (mode : String) (buffering : Option Int)
  | clone (name source : String)
  | ask (name : String) (request : Request)
  | askConsole (name : ConsoleName) (request : Request)
  | prepareConsole
  | copy (source sink : String)
  | drop (name : String)
  | openDescriptor (name : String) (path : Bytes) (reads writes : Bool)
  | makePipe (reader writer : String)
  | writeDescriptor (descriptor : DescriptorRef) (bytes : Bytes)
  | closeDescriptor (descriptor : DescriptorRef)
  | isOpen (descriptor : DescriptorRef)
  | peek (path : Bytes)
  | peekConsole (name : ConsoleName)
  | count
  deriving DecidableEq, Repr

namespace Session

def reject (s : Session) : Session × Reply := (s, .senseless)

/-- Names what was made, or reports why it was not. -/
def register {ε α : Type} (s : Session) (name : String) (adopted : Option String)
    (wrapped : α → Resource) (refusal : ε → HandleError) :
    System × Except ε α → Session × Reply
  | (sys, .error e) => ({ s with system := sys }, .refused (refusal e))
  | (sys, .ok a) => ({ s with system := sys }.put ⟨name, wrapped a, adopted⟩, .answer .done)

/-- Puts a handle into the pool and names its first share. -/
def registerShared (s : Session) (name : String) :
    System × Except HandleError Handle → Session × Reply
  | (sys, .error e) => ({ s with system := sys }, .refused e)
  | (sys, .ok h) =>
    ({ s with system := sys, pool := s.pool ++ [h] }.put ⟨name, .share s.pool.length, none⟩,
      .answer .done)

/-- The system as the next call on another thread finds it. -/
def worker (s : Session) : System := { s.system with lastError := s.workers.next }

/-- Makes a call on another thread. The last error it leaves is that thread's; the caller's stays as it was. -/
def offload {α : Type} (s : Session) (call : System → System × α) : Session × α :=
  let (sys, a) := call s.worker
  ({ s with
      system := { sys with lastError := s.system.lastError }
      workers := s.workers.advance sys.lastError }, a)

/-- Asks a handle through a share, which tells no position and makes no transfer. A query is answered where it
is made. -/
def askShared (s : Session) (entry : Nat) (h : Handle) : Request → Session × Reply
  | .call .tell | .query (.description _) | .transfer _ | .fillBuffer _ | .setDiscipline _ => s.reject
  | .query q => (s, .answer (h.query none q))
  | .call c =>
    let (s, h, reply) := s.offload fun sys =>
      let (h, sys, reply) := h.call sys c
      (sys, h, reply)
    ({ s with pool := s.pool.set entry h }, reply)

/-- Asks what a name stands for. A closed bare stream takes its name along. -/
def ask (s : Session) (name : String) (request : Request) : Session × Reply :=
  match s.slot? name with
  | none => s.reject
  | some slot =>
    match slot.resource with
    | .handle h =>
      let (h, sys, reply) := h.respond s.system slot.adopted request
      ({ s with system := sys }.setResource name (.handle h), reply)
    | .stream stream =>
      match Connection.respond ⟨stream, s.system⟩ slot.adopted request with
      | (some stream, sys, reply) =>
        ({ s with system := sys }.setResource name (.stream stream), reply)
      | (none, sys, reply) => ({ s with system := sys }.forget name, reply)
    | .share entry =>
      match s.pool[entry]? with
      | none => s.reject
      | some h => s.askShared entry h request

def askConsole (s : Session) (name : ConsoleName) (request : Request) : Session × Reply :=
  let (h, sys, reply) := (s.console.get name).respond s.system none request
  ({ s with system := sys, console := s.console.set name h }, reply)

/-- Copies between two handles of different names. -/
def copy (s : Session) (source sink : String) : Session × Reply :=
  if source = sink then s.reject else
  match s.handle? source, s.handle? sink with
  | some reader, some writer =>
    let (reader, writer, sys, result) := Handle.copy callLimit reader writer s.system
    (({ s with system := sys }.setResource source (.handle reader)).setResource sink
        (.handle writer),
      .ofTransfer .count result)
  | _, _ => s.reject

/-- Puts a bare stream under a label; the stream is used up whether or not that succeeds. -/
def wrap (s : Session) (name stream label mode : String) (buffering : Option Int) :
    Session × Reply :=
  match s.slot? stream with
  | some ⟨_, .stream bare, adopted⟩ =>
    let s := s.forget stream
    s.register name adopted .handle id (Handle.ofStream label mode bare buffering s.system)
  | _ => s.reject

def plainMode (reads writes : Bool) : OpenMode :=
  ⟨reads, writes, false, false, false, false⟩

def onDescriptor {α : Type} (s : Session) (descriptor : DescriptorRef) (op : String)
    (answer : α → Answer) (f : System → Nat → System × Except Errno α) : Session × Reply :=
  match s.number? descriptor with
  | none => s.reject
  | some n =>
    if n < 0 then (s, .refused (.stream (.ofErrno op .badDescriptor))) else
    let (sys, result) := f s.system n.toNat
    ({ s with system := sys }, .ofStream answer (result.mapError (.ofErrno op)))

def step (s : Session) : Command → Session × Reply
  | .openHandle name path mode buffering =>
    s.register name none .handle id (Handle.openPath s.system path mode buffering)
  | .adoptHandle name descriptor mode label buffering =>
    match s.number? descriptor with
    | none => s.reject
    | some n =>
      s.register name descriptor.name? .handle id (Handle.adopt s.system n mode label buffering)
  | .openStream name path mode =>
    s.register name none .stream .stream (s.system.openStream path (toBytes mode))
  | .adoptStream name descriptor mode =>
    match s.number? descriptor with
    | none => s.reject
    | some n =>
      s.register name descriptor.name? .stream .stream (s.system.adoptStream n (toBytes mode))
  | .wrap name stream label mode buffering => s.wrap name stream label mode buffering
  | .openShared name path mode buffering =>
    let (s, made) := s.offload (Handle.openPath · path mode buffering)
    s.registerShared name (s.system, made)
  | .share name path mode buffering =>
    s.registerShared name (Handle.openPath s.system path mode buffering)
  | .clone name source =>
    match s.slot? source with
    | some ⟨_, .share entry, _⟩ => (s.put ⟨name, .share entry, none⟩, .answer .done)
    | _ => s.reject
  | .ask name request => s.ask name request
  | .askConsole name request => s.askConsole name request
  | .prepareConsole => ({ s with console := s.console.prepare }, .answer .done)
  | .copy source sink => s.copy source sink
  | .drop name => if (s.slot? name).isSome then (s.drop name, .answer .done) else s.reject
  | .openDescriptor name path reads writes =>
    match s.system.openPath path (plainMode reads writes) with
    | (sys, .error e) => ({ s with system := sys }, .refused (.stream (.ofErrno "open" e)))
    | (sys, .ok fd) => ({ s with system := sys }.nameDescriptor name fd, .answer .done)
  | .makePipe reader writer =>
    let (sys, r, w) := s.system.makePipe
    (({ s with system := sys }.nameDescriptor reader r).nameDescriptor writer w, .answer .done)
  | .writeDescriptor descriptor bytes =>
    s.onDescriptor descriptor "write" .count (·.write · bytes)
  | .closeDescriptor descriptor =>
    s.onDescriptor descriptor "close" (fun _ => .done) System.close
  | .isOpen descriptor =>
    match s.number? descriptor with
    | none => s.reject
    | some n => (s, .answer (.flag (s.system.numbered? n).isSome))
  | .peek path =>
    let (sys, bytes) := s.system.contents path
    ({ s with system := sys }, .answer (.contents bytes))
  | .peekConsole name => (s, .answer (.contents (s.system.written name)))
  | .count => (s, .answer (.number s.system.openStreams))

def run (s : Session) : List Command → Session × List Reply
  | [] => (s, [])
  | command :: rest =>
    let (s, reply) := s.step command
    let (s, replies) := s.run rest
    (s, reply :: replies)

end Session

end BufferedFiles
