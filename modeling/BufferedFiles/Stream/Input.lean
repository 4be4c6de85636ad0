import BufferedFiles.Stream.Output

/-!
# Input

Bytes are taken from what was read ahead. When that is used up, the window is filled again with one
read of the device; a request for at least a whole buffer reads the device directly. The end of the
device is remembered: no window is filled after it until the stream is moved or settled.
-/
namespace BufferedFiles

/-- The shortest start of `bytes` that ends a line; all of them when no line ends. -/
def firstLine : Bytes → Bytes
  | [] => []
  | b :: rest => if b = newline then [b] else b :: firstLine rest

theorem firstLine_isPrefix (bytes : Bytes) : firstLine bytes <+: bytes := by
  induction bytes with
  | nil => exact List.prefix_refl _
  | cons b rest ih =>
    simp only [firstLine]
    split
    · exact ⟨rest, rfl⟩
    · exact (List.prefix_cons_inj b).2 ih

/-- A line end stands nowhere but at the end of a line. -/
theorem newline_notMem_dropLast_firstLine (bytes : Bytes) :
    newline ∉ (firstLine bytes).dropLast := by
  induction bytes with
  | nil => simp [firstLine]
  | cons b rest ih =>
    simp only [firstLine]
    split
    · simp
    · rename_i h
      cases hline : firstLine rest with
      | nil => simp
      | cons c line =>
        rw [hline] at ih
        simp only [List.dropLast_cons_cons, List.mem_cons, not_or]
        exact ⟨fun e => h e.symm, ih⟩

namespace Stream

/-- The stream after `n` bytes were taken from what was read ahead. -/
def skip (s : Stream) (n : Nat) : Stream := { s with cursor := s.cursor + n }

end Stream

namespace Connection

/-- Fills the window; `false` where the device is at its end or fails. -/
def fill (c : Connection) : Connection × Bool :=
  match c.endOutput with
  | (c, false) => (c, false)
  | (c, true) =>
    if c.stream.atEnd then (c, false)
    else if !c.stream.reads then (c.refuse, false)
    else
      let c := c.allocate
      match c.system.read c.stream.fd c.stream.capacity with
      | (sys, .error _) =>
        (⟨{ c.stream.emptied with failed := true, offset := none }, sys⟩, false)
      | (sys, .ok []) => (⟨{ c.stream.emptied with atEnd := true, offset := none }, sys⟩, false)
      | (sys, .ok bytes) =>
        (⟨{ c.stream.emptied with
            window := bytes, offset := c.stream.offset.map (· + bytes.length) }, sys⟩, true)

/-- Reads past the buffer. Whatever the buffer held is given up. -/
def readPast (c : Connection) (n : Nat) : Connection × Bytes :=
  let s := c.stream.emptied
  match c.system.read s.fd n with
  | (sys, .error _) => (⟨{ s with failed := true }, sys⟩, [])
  | (sys, .ok []) => (⟨{ s with atEnd := true }, sys⟩, [])
  | (sys, .ok bytes) => (⟨{ s with offset := s.offset.map (· + bytes.length) }, sys⟩, bytes)

/-- Takes up to `n` bytes, until the device is at its end or fails. Every round but the first takes
a byte at least, so `n + 1` rounds are enough. -/
def takeRounds : Nat → Connection → Nat → Connection × Bytes
  | 0, c, _ => (c, [])
  | rounds + 1, c, n =>
    let found := c.stream.ahead.take n
    let c := c.update (·.skip found.length)
    let missing := n - found.length
    if missing = 0 then (c, found)
    else if missing < c.stream.capacity then
      match c.fill with
      | (c, false) => (c, found)
      | (c, true) =>
        let (c, more) := takeRounds rounds c missing
        (c, found ++ more)
    else
      match c.readPast (c.stream.direct missing) with
      | (c, []) => (c, found)
      | (c, bytes) =>
        let (c, more) := takeRounds rounds c (missing - bytes.length)
        (c, found ++ bytes ++ more)

def take (c : Connection) (n : Nat) : Connection × Bytes :=
  takeRounds (n + 1) c.allocate n

def takeLineRounds : Nat → Connection → Nat → Connection × Bytes
  | 0, c, _ => (c, [])
  | rounds + 1, c, n =>
    if n = 0 then (c, []) else
    match (if c.stream.ahead.isEmpty then c.fill else (c, true)) with
    | (c, false) => (c, [])
    | (c, true) =>
      let found := firstLine (c.stream.ahead.take n)
      let c := c.update (·.skip found.length)
      if found.getLast? = some newline then (c, found)
      else
        let (c, more) := takeLineRounds rounds c (n - found.length)
        (c, found ++ more)

/-- Takes bytes up to the end of a line, at most `n`. `none` where there are none, or where the
device failed other than by having nothing yet; the bytes taken before such a failure are gone. The
error indicator stays as it was or is set. -/
def takeLine (c : Connection) (n : Nat) : Connection × Option Bytes :=
  let (q, line) := takeLineRounds n (c.update ({ · with failed := false })) n
  let refused := q.stream.failed && q.system.lastError ≠ .wouldBlock
  (q.update fun s => { s with failed := s.failed || c.stream.failed },
    if line.isEmpty || refused then none else some line)

end Connection

end BufferedFiles
