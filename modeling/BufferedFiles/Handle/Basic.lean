import BufferedFiles.Stream.Operations

/-!
# Handles

A handle is a stream under a displayed path and mode, until it is closed. Closing is for good: every
operation on a closed handle is refused with the same failure, whatever its arguments, and closing
it again does nothing.
-/
namespace BufferedFiles

structure Handle where
  path : String
  mode : String
  stream : Option Stream
  deriving DecidableEq, Repr

/-- What an operation on a handle leaves behind, and its result. -/
structure Outcome (ε α : Type) where
  handle : Handle
  system : System
  result : Except ε α

/-- The read bound for a request that names none. -/
def defaultBound : Nat := 4096

/-- The read bound for a request: absent, zero, negative and oversized requests get the default. -/
def boundFor (requested : Option Int) : Nat :=
  match requested with
  | some n => if 0 < n ∧ n < 0x100000000 then n.toNat else defaultBound
  | none => defaultBound

namespace Handle

def isClosed (h : Handle) : Bool := h.stream.isNone

/-- The number of the descriptor, -1 once closed. -/
def descriptor (h : Handle) : Int :=
  match h.stream with
  | some s => s.fd
  | none => -1

def onStream {α : Type} (h : Handle) (sys : System)
    (f : Connection → Connection × Except StreamError α) : Outcome HandleError α :=
  match h.stream with
  | none => ⟨h, sys, .error .closed⟩
  | some s =>
    let (c, result) := f ⟨s, sys⟩
    ⟨{ h with stream := some c.stream }, c.system, result.mapError .stream⟩

def read (h : Handle) (sys : System) (max : Option Nat) : Outcome HandleError Bytes :=
  h.onStream sys (·.read (boundFor (max.map Int.ofNat)))

def readLine (h : Handle) (sys : System) (max : Option Nat) : Outcome HandleError Bytes :=
  h.onStream sys (·.readLine (boundFor (max.map Int.ofNat)))

def write (h : Handle) (sys : System) (bytes : Bytes) : Outcome HandleError Nat :=
  h.onStream sys (·.write bytes)

def flush (h : Handle) (sys : System) : Outcome HandleError Unit :=
  h.onStream sys Connection.flush

def seek (h : Handle) (sys : System) (target : Target) : Outcome HandleError Nat :=
  h.onStream sys (·.seek target)

def tell (h : Handle) (sys : System) : Outcome HandleError Nat :=
  h.onStream sys Connection.tell

/-- Closes the handle; it counts as closed whatever the result. -/
def close (h : Handle) (sys : System) : Outcome HandleError Unit :=
  match h.stream with
  | none => ⟨h, sys, .ok ()⟩
  | some s =>
    let (sys, result) := Connection.close ⟨s, sys⟩
    ⟨{ h with stream := none }, sys, result.mapError .stream⟩

/-- Lets go of the handle; a stream that is still open is closed, and a failure of that is lost. -/
def release (h : Handle) (sys : System) : System := (h.close sys).system

/-- Puts a stream under a path and a mode with a buffering value. A value without meaning and a
discipline that cannot be set release the stream. -/
def ofStream (path mode : String) (stream : Stream) (buffering : Option Int) (sys : System) :
    System × Except HandleError Handle :=
  let h : Handle := ⟨path, mode, some stream⟩
  match buffering with
  | none => (sys, .ok h)
  | some value =>
    match Buffering.ofInt value with
    | .error e => (h.release sys, .error e)
    | .ok buffering =>
      match buffering.discipline? with
      | none => (sys, .ok h)
      | some discipline =>
        let r := h.onStream sys (·.setDiscipline discipline)
        match r.result with
        | .ok () => (r.system, .ok r.handle)
        | .error e => (r.handle.release r.system, .error e)

/-- Opens a path. The displayed path is the path read as text. -/
def openPath (sys : System) (path : Bytes) (mode : String) (buffering : Option Int) :
    System × Except HandleError Handle :=
  match sys.openStream path (toBytes mode) with
  | (sys, .error e) => (sys, .error (.stream e))
  | (sys, .ok stream) => ofStream (Text.lossy path) mode stream buffering sys

/-- Adopts a descriptor under a label. -/
def adopt (sys : System) (number : Int) (mode label : String) (buffering : Option Int) :
    System × Except HandleError Handle :=
  match sys.adoptStream number (toBytes mode) with
  | (sys, .error e) => (sys, .error (.stream e))
  | (sys, .ok stream) => ofStream label mode stream buffering sys

/-- The fields of the handle on one line, its descriptor written as `number`. -/
def describe (h : Handle) (number : String) : String :=
  "File \x7b path: " ++ Text.quote h.path ++ ", mode: " ++ Text.quote h.mode ++ ", fd: " ++
    (if h.isClosed then "-1" else number) ++ ", closed: " ++ toString h.isClosed ++ " \x7d"

end Handle

end BufferedFiles
