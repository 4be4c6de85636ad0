import BufferedFiles.Stream.LineBuffer
import BufferedFiles.Stream.Position

/-!
# Stream operations

Each operation runs one primitive and looks at its count, at the error indicator and at the last
error to tell whether it failed. A failed read, write or flush leaves both indicators clear. A read
that fails after it got some bytes returns them, and its failure is held for the next read.
-/
namespace BufferedFiles

namespace Connection

/-- The failure of `op`, and the connection with the indicators cleared. -/
def fault {α : Type} (c : Connection) (op : String) : Connection × Except StreamError α :=
  (c.update Stream.settled, .error (c.failure op))

/-- Reads up to `n` bytes; none at the end of the device. -/
def read (c : Connection) (n : Nat) : Connection × Except StreamError Bytes :=
  if n = 0 then (c, .ok [])
  else match c.stream.held with
  | some e => (c.update ({ · with held := none }), .error e)
  | none =>
    let (c, bytes) := c.take n
    if bytes.length < n && c.stream.failed then
      if bytes.isEmpty then c.fault "fread"
      else (c.update fun s => { s.settled with held := some (c.failure "fread") }, .ok bytes)
    else (c, .ok bytes)

/-- Reads a line of at most `max` bytes, its end included; none at the end of the device. -/
def readLine (c : Connection) (max : Nat) : Connection × Except StreamError Bytes :=
  if max = 0 then (c, .ok [])
  else match c.stream.held with
  | some e => (c.update ({ · with held := none }), .error e)
  | none =>
    let size := LineBuffer.sizeFor max
    match c.takeLine (size - 1) with
    | (c, some line) => (c, .ok (LineBuffer.line (LineBuffer.store (LineBuffer.blank size) line)))
    | (c, none) => if c.stream.failed then c.fault "fgets" else (c, .ok [])

def write (c : Connection) (bytes : Bytes) : Connection × Except StreamError Nat :=
  if bytes.isEmpty then (c, .ok 0)
  else
    let (c, n) := c.accept bytes
    if n < bytes.length && c.stream.failed then c.fault "fwrite" else (c, .ok n)

def flush (c : Connection) : Connection × Except StreamError Unit :=
  match c.sync with
  | (c, true) => (c, .ok ())
  | (c, false) => c.fault "fflush"

def tell (c : Connection) : Connection × Except StreamError Nat :=
  match c.position with
  | (c, some position) => (c, .ok position)
  | (c, none) => (c, .error (c.failure "ftello"))

def seek (c : Connection) (target : Target) : Connection × Except StreamError Nat :=
  match target.parts? with
  | none => (c, .error (.ofErrno "fseeko" .invalidArgument))
  | some (origin, offset) =>
    match c.move origin offset with
    | (c, false) => (c, .error (c.failure "fseeko"))
    | (c, true) => c.tell

/-- Changes the discipline; meant for a stream that was not used yet. -/
def setDiscipline (c : Connection) (discipline : Discipline) :
    Connection × Except StreamError Unit :=
  let c := c.update ({ · with discipline })
  match discipline with
  | .full => (c.allocate, .ok ())
  | .line => (c, .ok ())
  | .unbuffered =>
    match c.sync with
    | (c, false) => (c, .error (c.failure "setvbuf"))
    | (c, true) => (c.update ({ ·.emptied with capacity := 1 }), .ok ())

/-- Hands pending output to the device and closes the descriptor; `false` where either failed. -/
def finish (c : Connection) : System × Bool :=
  let (c, drained) := if c.stream.writing then c.drain else (c, true)
  match c.system.close c.stream.fd with
  | (sys, .error _) => (sys, false)
  | (sys, .ok ()) => (sys, drained)

/-- Releases the stream, whether or not that fails. A held failure is forgotten. -/
def close (c : Connection) : System × Except StreamError Unit :=
  let (sys, done) := c.finish
  ({ sys with openStreams := if c.stream.counted then sys.openStreams - 1 else sys.openStreams },
    if done then .ok () else .error (Connection.failure ⟨c.stream, sys⟩ "fclose"))

def release (c : Connection) : System := c.close.1

end Connection

namespace System

def lacks (sys : System) (charset : Option Bytes) : Bool := charset.any fun name => !sys.charsets.contains name

/-- Opens a path as a stream. A stream for output that only appends starts at the end. The conversion that
the text of the mode asks for is loaded once the path is open, and where that fails the descriptor is closed.
A stream with a conversion is one of wide characters, and what bytes do on such a stream is undefined in C. -/
def openStream (sys : System) (path text : Bytes) : System × Except StreamError Stream :=
  if path.contains 0 || text.contains 0 then (sys, .error (.interiorNul "fopen"))
  else match OpenMode.parse? OpenMode.pathReach text with
  | none =>
    ({ sys with lastError := .invalidArgument }, .error (.ofErrno "fopen" .invalidArgument))
  | some mode =>
    match sys.openPath path mode with
    | (sys, .error e) => (sys, .error (.ofErrno "fopen" e))
    | (sys, .ok fd) =>
      if sys.lacks (OpenMode.charset? text) then
        ({ (sys.close fd).1 with lastError := .invalidArgument }, .error (.ofErrno "fopen" .invalidArgument))
      else
        let sys := if mode.appends && !mode.reads then (sys.seek fd .finish 0).1 else sys
        ({ sys with openStreams := sys.openStreams + 1 },
          .ok { fd, reads := mode.reads, writes := mode.writes, appends := mode.appends })

/-- The open descriptor an arbitrary number stands for. -/
def numbered? (sys : System) (number : Int) : Option (Nat × Descriptor) :=
  if number < 0 then none else (sys.descriptor? number.toNat).map (number.toNat, ·)

/-- Makes an open descriptor a stream. The descriptor has to allow what the mode asks for; it is
left alone where this fails. -/
def adoptStream (sys : System) (number : Int) (mode : Bytes) :
    System × Except StreamError Stream :=
  if mode.contains 0 then (sys, .error (.interiorNul "fdopen"))
  else match OpenMode.parse? OpenMode.descriptorReach mode with
  | none =>
    ({ sys with lastError := .invalidArgument }, .error (.ofErrno "fdopen" .invalidArgument))
  | some mode =>
    match sys.numbered? number with
    | none =>
      ({ sys with lastError := .badDescriptor }, .error (.ofErrno "fdopen" .badDescriptor))
    | some (fd, d) =>
      if (mode.reads && !d.readable) || (mode.writes && !d.writable) then
        ({ sys with lastError := .invalidArgument }, .error (.ofErrno "fdopen" .invalidArgument))
      else
        let turns := mode.appends && !d.appending
        let sys := if turns then sys.setDescriptor fd (some { d with appending := true }) else sys
        let sys := if turns && !mode.reads then (sys.seek fd .finish 0).1 else sys
        ({ sys with openStreams := sys.openStreams + 1 },
          .ok { fd, reads := mode.reads, writes := mode.writes, appends := mode.appends })

end System

end BufferedFiles
