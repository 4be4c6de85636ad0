import BufferedFiles.Stream.Input

/-!
# Positions

The position of a stream is where its next byte is read from or written to. It differs from the
position of the device by what was read ahead and by what is still pending. A move inside the window
leaves the device where it is; any other move puts the device at a block boundary and reads up to
the target, unless the stream is for output only.
-/
namespace BufferedFiles

/-- What a caller asks to move to. -/
inductive Target where
  | start (offset : Nat)
  | current (offset : Int)
  | finish (offset : Int)
  deriving DecidableEq, Repr

namespace Target

/-- The origin and the offset from it; `none` for an offset that cannot be passed on. -/
def parts? : Target → Option (Origin × Int)
  | .start offset => if offset ≤ largestPosition then some (.start, offset) else none
  | .current offset => some (.current, offset)
  | .finish offset => some (.finish, offset)

end Target

/-- Offsets are kept in 64 bits. -/
def wrapOffset (offset : Int) : Int := offset.bmod 0x10000000000000000

namespace Connection

/-- Hands pending output to the device and moves the device back to the position of the stream. A
device that cannot be moved stays where it is. -/
def sync (c : Connection) : Connection × Bool :=
  match c.drain with
  | (c, false) => (c, false)
  | (c, true) =>
    if c.stream.ahead.isEmpty then (c.update ({ · with offset := none }), true)
    else
      match c.system.seek c.stream.fd .current (-c.stream.ahead.length) with
      | (sys, .ok _) =>
        (⟨{ c.stream with window := c.stream.window.take c.stream.cursor, offset := none }, sys⟩,
          true)
      | (sys, .error e) =>
        if e = .notSeekable then (⟨{ c.stream with offset := none }, sys⟩, true)
        else ({ c with system := sys }, false)

def moveDevice (c : Connection) (origin : Origin) (offset : Int) : Connection × Bool :=
  match c.system.seek c.stream.fd origin offset with
  | (sys, .error _) => ({ c with system := sys }, false)
  | (sys, .ok position) =>
    (⟨{ c.stream.emptied with atEnd := false, offset := some position }, sys⟩, true)

/-- Where the device has to go: from the start where that is known, or else from another origin. -/
def resolve (c : Connection) (origin : Origin) (offset : Int) :
    Connection × Option (Origin × Int) :=
  match origin with
  | .start => (c, some (.start, offset))
  | .current =>
    let offset := wrapOffset (offset - c.stream.ahead.length)
    match c.stream.offset with
    | none => (c, some (.current, offset))
    | some position =>
      let target := wrapOffset (offset + position)
      if target < 0 then
        ({ c with system := { c.system with lastError := .invalidArgument } }, none)
      else (c, some (.start, target))
  | .finish =>
    match c.system.inspect c.stream.fd with
    | (sys, .error _) => ({ c with system := sys }, some (.finish, offset))
    | (sys, .ok dev) =>
      if dev.content.isRegular then
        ({ c with system := sys }, some (.start, wrapOffset (offset + dev.content.size)))
      else ({ c with system := sys }, some (.finish, offset))

def inWindow? (c : Connection) (target : Int) : Option Nat :=
  match c.stream.offset with
  | none => none
  | some position =>
    let index := target - (position - c.stream.window.length)
    if 0 ≤ index ∧ target < position then some index.toNat else none

/-- Puts the device at the block boundary before the target and reads up to the target; `exact`
asks for no byte more. Where too little can be read, the device is moved instead. -/
def approach (c : Connection) (target : Int) (exact : Bool) : Connection × Bool :=
  let distance := (target % c.stream.capacity).toNat
  match c.system.seek c.stream.fd .start (target - distance) with
  | (sys, .error _) => ({ c with system := sys }, false)
  | (sys, .ok boundary) =>
    let c := { c with system := sys }
    if distance = 0 then
      (c.update ({ ·.emptied with offset := some boundary, atEnd := false }), true)
    else
      match c.system.read c.stream.fd (if exact then distance else c.stream.capacity) with
      | (sys, .error _) => moveDevice { c with system := sys } .current distance
      | (sys, .ok bytes) =>
        if bytes.length < distance then
          moveDevice { c with system := sys } .current (distance - bytes.length)
        else
          (⟨{ c.stream.emptied with
              window := bytes, cursor := distance, offset := some (boundary + bytes.length),
              atEnd := false }, sys⟩, true)

/-- Goes where a move comes to: inside the window, through the device, or by a move of the device. -/
def arrive (c : Connection) (origin : Origin) (offset : Int) (exact : Bool) : Connection × Bool :=
  if origin = .start then
    match c.inWindow? offset with
    | some index =>
      let c := c.update ({ · with cursor := index, atEnd := false })
      let (sys, _) := c.system.seek c.stream.fd .start (c.stream.offset.getD 0)
      ({ c with system := sys }, true)
    | none => if c.stream.reads then c.approach offset exact else c.moveDevice .start offset
  else c.moveDevice origin offset

def move (c : Connection) (origin : Origin) (offset : Int) : Connection × Bool :=
  let exact := c.stream.pending.isEmpty && (c.stream.writing || c.stream.window.isEmpty)
  match c.endOutput with
  | (c, false) => (c, false)
  | (c, true) =>
    match c.allocate.resolve origin offset with
    | (c, none) => (c, false)
    | (c, some (origin, offset)) => c.arrive origin offset exact

/-- Where the device stands, as far as the stream knows or else as the device says. -/
def devicePosition (c : Connection) : Connection × Option Nat :=
  match c.stream.offset with
  | some position => (c, some position)
  | none =>
    match c.system.seek c.stream.fd .current 0 with
    | (sys, .error _) => ({ c with system := sys }, none)
    | (sys, .ok position) => ({ c with system := sys }, some position)

/-- Where pending output of an appending stream will start. -/
def appendPosition (c : Connection) : Connection × Option Nat :=
  match c.system.seek c.stream.fd .finish 0 with
  | (sys, .error _) => ({ c with system := sys }, none)
  | (sys, .ok position) => (⟨{ c.stream with offset := some position }, sys⟩, some position)

def displacement (c : Connection) : Int :=
  if c.stream.pending.isEmpty then -c.stream.ahead.length
  else if c.stream.appends then c.stream.pending.length
  else c.stream.filled - c.stream.window.length

def position (c : Connection) : Connection × Option Nat :=
  match (if c.stream.appends && !c.stream.pending.isEmpty then c.appendPosition
    else c.devicePosition) with
  | (q, none) => (q, none)
  | (q, some base) =>
    let position := base + c.displacement
    if position < 0 then
      ({ q with system := { q.system with lastError := .invalidArgument } }, none)
    else (q, some position.toNat)

end Connection

end BufferedFiles
