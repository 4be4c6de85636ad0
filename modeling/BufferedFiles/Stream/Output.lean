import BufferedFiles.Stream.Basic

/-!
# Output

Bytes gather in the buffer. When they no longer fit, the buffer is filled up and handed to the
device, whole blocks of what remains follow directly, and the tail is gathered again. A line
discipline also hands everything up to the last line end to the device, and an unbuffered stream
everything. Bytes the device did not take are lost.
-/
namespace BufferedFiles

namespace Stream

/-- The stream with its buffer handed on, ready to gather output. -/
def handedOn (s : Stream) : Stream :=
  { s.emptied with limit := if s.discipline = .full then s.capacity else 0 }

/-- The stream turned to output, where it was used for input or not at all. -/
def turned (s : Stream) : Stream :=
  let s := if s.cursor = s.capacity then { s with window := [], cursor := 0 } else s
  { s with writing := true, limit := if s.discipline = .full then s.capacity else s.cursor }

/-- How many of `bytes` the buffer takes at once, and whether it has to be handed on after that. -/
def room (s : Stream) (bytes : Bytes) : Nat × Bool :=
  if !s.writing then (0, false)
  else if s.discipline = .line then
    let free := s.capacity - s.filled
    if bytes.length ≤ free && bytes.contains newline then
      (bytes.length - bytes.reverse.idxOf newline, true)
    else (free, false)
  else (s.limit - s.filled, false)

end Stream

namespace Connection

/-- Moves the device to where the pending output starts; `none` where that fails. -/
def align (c : Connection) : Connection × Bool :=
  if c.stream.appends then (c.update ({ · with offset := none }), true)
  else if c.stream.window.length = c.stream.cursor then (c, true)
  else
    match c.system.seek c.stream.fd .current (c.stream.cursor - c.stream.window.length) with
    | (sys, .error _) => ({ c with system := sys }, false)
    | (sys, .ok position) => (⟨{ c.stream with offset := some position }, sys⟩, true)

/-- Hands `bytes` to the device and empties the buffer. The count is what the device took. -/
def send (c : Connection) (bytes : Bytes) : Connection × Nat :=
  match c.align with
  | (c, false) => (c, 0)
  | (c, true) =>
    let (sys, n) := c.system.writeAll c.stream.fd bytes.length bytes
    let s := c.stream
    (⟨{ s with failed := s.failed || n < bytes.length, offset := s.offset.map (· + n) }.handedOn,
      sys⟩, n)

def drain (c : Connection) : Connection × Bool :=
  if c.stream.pending.isEmpty then (c, true)
  else
    let (c', n) := c.send c.stream.pending
    (c', n == c.stream.pending.length)

def makeRoom (c : Connection) : Connection × Bool :=
  if !c.stream.writes then (c.refuse, false)
  else
    let c := c.allocate
    (if c.stream.writing then c else c.update Stream.turned).drain

/-- Gathers one byte, handing the buffer on before it when the buffer is full, and after it when
the discipline says so. -/
def put (c : Connection) (b : UInt8) : Connection × Bool :=
  match (if c.stream.filled = c.stream.capacity then c.drain else (c, true)) with
  | (c, false) => (c, false)
  | (c, true) =>
    let c := c.update fun s => { s with pending := s.pending ++ [b] }
    if c.stream.discipline = .unbuffered || (c.stream.discipline = .line && b = newline) then
      c.drain
    else (c, true)

def putAll (c : Connection) : Bytes → Connection × Nat
  | [] => (c, 0)
  | b :: rest =>
    match c.put b with
    | (c, false) => (c, 0)
    | (c, true) =>
      let (c, n) := c.putAll rest
      (c, n + 1)

/-- Gathers a tail: as much as fits at once, and then byte by byte. -/
def gather (c : Connection) (bytes : Bytes) : Connection × Nat :=
  let n := min (c.stream.limit - c.stream.filled) bytes.length
  let (c, m) := (c.update fun s => { s with pending := s.pending ++ bytes.take n }).putAll
    (bytes.drop n)
  (c, n + m)

def passOver (c : Connection) (bytes : Bytes) : Connection × Nat :=
  let n := c.stream.direct bytes.length
  if n = 0 then c.gather bytes
  else
    let (c, m) := c.send (bytes.take n)
    if m < n then (c, m)
    else
      let (c, k) := c.gather (bytes.drop n)
      (c, n + k)

/-- Takes bytes for output, and counts those that were taken or given up on. -/
def accept (c : Connection) (bytes : Bytes) : Connection × Nat :=
  let (free, handOn) := c.stream.room bytes
  let n := min free bytes.length
  let c := c.update fun s => { s with pending := s.pending ++ bytes.take n }
  if n = bytes.length && !handOn then (c, n)
  else
    match c.makeRoom with
    | (c, false) => (c, n)
    | (c, true) =>
      let (c, m) := c.passOver (bytes.drop n)
      (c, n + m)

def endOutput (c : Connection) : Connection × Bool :=
  if !c.stream.writing then (c, true)
  else
    match c.drain with
    | (c, false) => (c, false)
    | (c, true) => (c.update ({ · with writing := false }), true)

end Connection

end BufferedFiles
