import BufferedFiles.Session.Request
import BufferedFiles.Console

/-!
# Sessions

A session is a system with a console, and with names for descriptors and for open things.
A name stands for a handle, for a bare stream, or for a share of a handle. Shares of one handle all
stand for the same entry of the pool; the handle is let go when its last share is gone.

A call through a share is made on another thread, and each thread has a last error of its own.
-/
namespace BufferedFiles

inductive Resource where
  | handle (h : Handle)
  | stream (s : Stream)
  | share (entry : Nat)
  deriving DecidableEq, Repr

/-- A named resource, and the name of the descriptor it was made from. -/
structure Slot where
  name : String
  resource : Resource
  adopted : Option String := none
  deriving DecidableEq, Repr

/-- The last errors of the threads that calls through shares are made on. `met` is what the next calls find
on theirs, in turn; who left it there, an earlier call or what else the thread was used for, is not told. A
call after these is made where the call before it was, which left `left`. -/
structure Workers where
  met : List Errno := []
  left : Errno := .success
  deriving DecidableEq, Repr

namespace Workers

/-- The last error the next call finds. -/
def next (w : Workers) : Errno := w.met.headD w.left

/-- The next call was made, and left the error `e`. -/
def advance (w : Workers) (e : Errno) : Workers := ⟨w.met.tail, e⟩

end Workers

structure Session where
  system : System
  console : Console := {}
  slots : List Slot := []
  pool : List Handle := []
  descriptors : List (String × Nat) := []
  workers : Workers := {}
  deriving DecidableEq, Repr

/-- A descriptor given by its name or by its number. -/
inductive DescriptorRef where
  | named (name : String)
  | number (n : Int)
  deriving DecidableEq, Repr

namespace DescriptorRef

def name? : DescriptorRef → Option String
  | .named name => some name
  | .number _ => none

end DescriptorRef

namespace Session

def slot? (s : Session) (name : String) : Option Slot :=
  s.slots.find? (·.name == name)

def handle? (s : Session) (name : String) : Option Handle :=
  match s.slot? name with
  | some ⟨_, .handle h, _⟩ => some h
  | _ => none

/-- The number a reference stands for. -/
def number? (s : Session) : DescriptorRef → Option Int
  | .named name => (s.descriptors.lookup name).map Int.ofNat
  | .number n => some n

def nameDescriptor (s : Session) (name : String) (fd : Nat) : Session :=
  { s with descriptors := (name, fd) :: s.descriptors.filter (·.1 != name) }

def forget (s : Session) (name : String) : Session :=
  { s with slots := s.slots.filter (·.name != name) }

/-- Whether any name stands for an entry of the pool. -/
def isShared (s : Session) (entry : Nat) : Bool :=
  s.slots.any (·.resource == .share entry)

/-- Lets go of a resource no name stands for any more. -/
def release (s : Session) : Resource → Session
  | .handle h => { s with system := h.release s.system }
  | .stream stream => { s with system := Connection.release ⟨stream, s.system⟩ }
  | .share entry =>
    if s.isShared entry then s else
    match s.pool[entry]? with
    | none => s
    | some h =>
      { s with
        system := h.release s.system
        pool := s.pool.set entry { h with stream := none } }

/-- Forgets a name and lets go of what it stood for. -/
def drop (s : Session) (name : String) : Session :=
  match s.slot? name with
  | none => s
  | some slot => (s.forget name).release slot.resource

/-- Gives a name to a resource; what the name stood for before is let go. -/
def put (s : Session) (slot : Slot) : Session :=
  match s.slot? slot.name with
  | none => { s with slots := s.slots ++ [slot] }
  | some old =>
    let s := s.forget slot.name
    { s with slots := s.slots ++ [slot] }.release old.resource

/-- Changes what a name stands for, and lets nothing go. -/
def setResource (s : Session) (name : String) (resource : Resource) : Session :=
  { s with slots := s.slots.map fun slot =>
      if slot.name = name then { slot with resource } else slot }

/-- The names of all open things, in order. -/
def names (s : Session) : List String :=
  (s.slots.map Slot.name).mergeSort fun a b => decide (a ≤ b)

/-- Lets go of everything, in the order of the names. -/
def dropAll (s : Session) : Session :=
  s.names.foldl Session.drop s

/-- What the end of the program leaves. -/
def finish (s : Session) : Session :=
  let s := s.dropAll
  { s with system := s.console.settle s.system }

end Session

end BufferedFiles
