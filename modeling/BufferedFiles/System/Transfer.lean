import BufferedFiles.System.Basic

/-!
# Reading, writing and moving a descriptor

One call transfers once: it may get fewer bytes than asked for, and it either fails or not. Every
failure is kept as the last error. A pipe that would make a reader or a writer wait answers as a
pipe that never waits does; a channel does wait.
-/
namespace BufferedFiles

/-- `data` with `bytes` laid over it from `position` on; a gap before them is filled with zeros. -/
def overwrite (data : Bytes) (position : Nat) (bytes : Bytes) : Bytes :=
  data.take position ++ List.replicate (position - data.length) 0 ++ bytes ++
    data.drop (position + bytes.length)

theorem length_overwrite (data : Bytes) (position : Nat) (bytes : Bytes) :
    (overwrite data position bytes).length = max data.length (position + bytes.length) := by
  simp only [overwrite, List.length_append, List.length_take, List.length_replicate,
    List.length_drop]
  omega

/-- Bytes laid at the end are appended. -/
theorem overwrite_length (data bytes : Bytes) : overwrite data data.length bytes = data ++ bytes := by
  simp [overwrite]

def pipeCapacity : Nat := 65536

/-- Writes of at most this size are not taken in part by a pipe. -/
def pipeAtom : Nat := 4096

namespace Content

/-- What a read of at most `n` bytes gets, and the content after it. `fed` tells whether a pipe
still has a writer. -/
def fetch (content : Content) (position n : Nat) (fed : Bool) : Except Errno (Bytes × Content) :=
  match content with
  | .regular data => .ok ((data.drop position).take n, content)
  | .directory => .error .isDirectory
  | .pipe queue =>
    if queue.isEmpty && fed then .error .wouldBlock
    else .ok (queue.take n, .pipe (queue.drop n))
  | .channel coming arrivals =>
    let there := match arrivals with
      | [] => coming
      | more :: _ => coming.take (more + 1)
    .ok (there.take n, .channel (coming.drop (there.take n).length) arrivals.tail)
  | .null => .ok ([], content)
  | .zero | .full => .ok (List.replicate n 0, content)

/-- How many bytes a write puts down, and the content after it. `drained` tells whether a pipe
still has a reader. -/
def store (content : Content) (position : Nat) (bytes : Bytes) (largest : Nat) (drained : Bool) :
    Except Errno (Nat × Content) :=
  match content with
  | .regular data =>
    if position + bytes.length ≤ largest then
      .ok (bytes.length, .regular (overwrite data position bytes))
    else if position < largest then
      .ok (largest - position, .regular (overwrite data position (bytes.take (largest - position))))
    else .error .fileTooLarge
  | .directory => .error .isDirectory
  | .pipe queue =>
    let free := pipeCapacity - queue.length
    if !drained then .error .brokenPipe
    else if free = 0 || (free < bytes.length && bytes.length ≤ pipeAtom) then .error .wouldBlock
    else .ok ((bytes.take free).length, .pipe (queue ++ bytes.take free))
  | .channel _ _ | .null | .zero => .ok (bytes.length, content)
  | .full => .error .noSpace

/-- Whether a transfer of `n` bytes at a position ends at a number that is an offset. Pipes, channels
and the endless devices have no positions. -/
def addresses (content : Content) (position n : Nat) : Bool :=
  match content with
  | .regular _ | .directory => position + n ≤ largestPosition
  | _ => true

def size : Content → Nat
  | .regular data => data.length
  | _ => 0

def isRegular : Content → Bool
  | .regular _ => true
  | _ => false

end Content

/-- What a move is relative to. -/
inductive Origin where
  | start | current | finish
  deriving DecidableEq, Repr

namespace System

/-- One read of at most `n` bytes. The device is not asked where the bytes could not be numbered. -/
def read (sys : System) (fd n : Nat) : System × Except Errno Bytes :=
  match sys.opened? fd with
  | none => sys.fail .badDescriptor
  | some (d, dev) =>
    if !d.readable then sys.fail .badDescriptor
    else if !dev.content.addresses d.position n then sys.fail .invalidArgument
    else match dev.faults with
    | some e :: later => (sys.setDevice d.device { dev with faults := later }).fail e
    | faults =>
      match dev.content.fetch d.position n (sys.anyDescriptor d.device (·.writable)) with
      | .error e => (sys.setDevice d.device { dev with faults := faults.tail }).fail e
      | .ok (bytes, content) =>
        ((sys.setDevice d.device { dev with content, faults := faults.tail }).setDescriptor fd
          (some { d with position := d.position + bytes.length }), .ok bytes)

/-- One write. An appending descriptor writes at the end of the device, wherever it stands; still the
bytes have to be numbered from where it stands. -/
def write (sys : System) (fd : Nat) (bytes : Bytes) : System × Except Errno Nat :=
  match sys.opened? fd with
  | none => sys.fail .badDescriptor
  | some (d, dev) =>
    if !d.writable then sys.fail .badDescriptor
    else if !dev.content.addresses d.position bytes.length then sys.fail .invalidArgument
    else match dev.faults with
    | some e :: later => (sys.setDevice d.device { dev with faults := later }).fail e
    | faults =>
      let position := if d.appending then dev.content.size else d.position
      match dev.content.store position bytes sys.largestOffset
          (sys.anyDescriptor d.device (·.readable)) with
      | .error e => (sys.setDevice d.device { dev with faults := faults.tail }).fail e
      | .ok (n, content) =>
        ((sys.setDevice d.device ⟨content, faults.tail, dev.received ++ bytes.take n⟩).setDescriptor fd
          (some { d with position := position + n }), .ok n)

/-- Moves the position of a descriptor. The endless devices stay at their start, pipes and channels
cannot be moved, and a target that is negative or beyond the largest offset is refused. -/
def seek (sys : System) (fd : Nat) (origin : Origin) (offset : Int) : System × Except Errno Nat :=
  match sys.opened? fd with
  | none => sys.fail .badDescriptor
  | some (d, dev) =>
    match dev.content with
    | .pipe _ | .channel _ _ => sys.fail .notSeekable
    | .null | .zero | .full => (sys.setDescriptor fd (some { d with position := 0 }), .ok 0)
    | content =>
      let base : Nat := match origin with
        | .start => 0
        | .current => d.position
        | .finish => content.size
      let target := (base : Int) + offset
      if 0 ≤ target ∧ target ≤ sys.largestOffset then
        (sys.setDescriptor fd (some { d with position := target.toNat }), .ok target.toNat)
      else sys.fail .invalidArgument

def inspect (sys : System) (fd : Nat) : System × Except Errno Device :=
  match sys.opened? fd with
  | none => sys.fail .badDescriptor
  | some (_, dev) => (sys, .ok dev)

/-- Writes again and again until all is accepted or a write fails, and counts what was accepted. -/
def writeAll (fd : Nat) : Nat → System → Bytes → System × Nat
  | 0, sys, _ => (sys, 0)
  | fuel + 1, sys, bytes =>
    if bytes.isEmpty then (sys, 0) else
    match sys.write fd bytes with
    | (sys, .error _) => (sys, 0)
    | (sys, .ok n) =>
      let (sys, m) := writeAll fd fuel sys (bytes.drop n)
      (sys, n + m)

def makePipe (sys : System) : System × Nat × Nat :=
  let (sys, device) := sys.addDevice { content := .pipe [] }
  let (sys, reader) := sys.addDescriptor { device, readable := true, writable := false }
  let (sys, writer) := sys.addDescriptor { device, readable := false, writable := true }
  (sys, reader, writer)

end System

end BufferedFiles
