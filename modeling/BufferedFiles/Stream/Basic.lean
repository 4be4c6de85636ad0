import BufferedFiles.Discipline
import BufferedFiles.System.Path
import BufferedFiles.System.Transfer

/-!
# Streams

A stream is a buffer in front of a descriptor. While it is used for input, the buffer holds a window
of bytes that were read from the device, and a cursor into it; the bytes behind the cursor are read
ahead. While it is used for output, the buffer holds bytes that are still to be written; they start
at the cursor, and the device stands where the window ends.

A `Connection` is a stream together with the system it lives in. Every operation takes a connection
and returns the connection after it.
-/
namespace BufferedFiles

/-- `capacity` is 0 until a buffer is needed. `limit` is how far into the buffer output may grow
before the device has to be asked. `offset` is the position of the device where the stream knows it.
`held` is a read failure that waits for the next read. -/
structure Stream where
  fd : Nat
  reads : Bool
  writes : Bool
  appends : Bool
  discipline : Discipline := .full
  capacity : Nat := 0
  window : Bytes := []
  cursor : Nat := 0
  writing : Bool := false
  pending : Bytes := []
  limit : Nat := 0
  atEnd : Bool := false
  failed : Bool := false
  offset : Option Nat := none
  held : Option StreamError := none
  counted : Bool := true
  deriving DecidableEq, Repr

structure Connection where
  stream : Stream
  system : System
  deriving DecidableEq, Repr

def newline : UInt8 := 10

def blockSize : Nat := 4096

/-- The size of a buffer for a descriptor that is not open. -/
def unknownBlockSize : Nat := 8192

/-- Buffers of at least this size are passed over in whole multiples. -/
def smallestBlock : Nat := 128

namespace Stream

/-- The bytes that were read and not yet taken. -/
def ahead (s : Stream) : Bytes :=
  if s.writing then [] else s.window.drop s.cursor

/-- How far the buffer is filled with output. -/
def filled (s : Stream) : Nat := s.cursor + s.pending.length

def emptied (s : Stream) : Stream :=
  { s with window := [], cursor := 0, pending := [], limit := 0 }

def settled (s : Stream) : Stream := { s with atEnd := false, failed := false }

/-- The part of `n` bytes that is passed to or from the device without the buffer. -/
def direct (s : Stream) (n : Nat) : Nat :=
  if smallestBlock ≤ s.capacity then n - n % s.capacity else n

end Stream

namespace Connection

def update (c : Connection) (f : Stream → Stream) : Connection := { c with stream := f c.stream }

/-- Gets the stream a buffer if it has none. -/
def allocate (c : Connection) : Connection :=
  if c.stream.capacity ≠ 0 then c
  else if c.stream.discipline = .unbuffered then c.update ({ · with capacity := 1 })
  else match c.system.inspect c.stream.fd with
    | (_, .ok _) => c.update ({ · with capacity := blockSize })
    | (sys, .error _) => { c.update ({ · with capacity := unknownBlockSize }) with system := sys }

/-- Refuses an operation in the direction the stream was not opened for. -/
def refuse (c : Connection) : Connection :=
  ⟨{ c.stream with failed := true }, { c.system with lastError := .badDescriptor }⟩

/-- The failure of the primitive `op`, from the last error. -/
def failure (c : Connection) (op : String) : StreamError :=
  .ofErrno op (if c.system.lastError = .success then .inputOutput else c.system.lastError)

end Connection

end BufferedFiles
