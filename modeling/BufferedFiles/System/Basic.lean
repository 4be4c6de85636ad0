import BufferedFiles.Errno
import BufferedFiles.Text.Utf8

/-!
# Devices, descriptors and the system that holds them

A device is what a name or a pipe leads to: a regular file with its bytes, a directory, a pipe with
the bytes on their way, a channel to another program, or one of the three endless devices. A
descriptor is an open way into a
device, with a position of its own. The system numbers both; closing a descriptor frees its number,
and the lowest free number is given out next.

A device may come with a plan of failures. Each transfer takes the next entry of the plan, and
fails where the entry names an error. An empty plan is a device that does what its content allows.
What a device received is every byte it took in a write, in the order it took them.
-/
namespace BufferedFiles

/-- Both ends of a pipe are in the hands of one program, and no end waits for the other. Behind a
channel is a program of its own: a write waits until all is taken, and a read until something has come.
`coming` is what comes before the end, and `arrivals` is by how much it comes: each number is one less
than what the next read finds. Behind the last of them the rest is there at once. -/
inductive Content where
  | regular (data : Bytes)
  | directory
  | pipe (queue : Bytes)
  | channel (coming : Bytes) (arrivals : List Nat)
  | null | zero | full
  deriving DecidableEq, Repr

structure Device where
  content : Content
  faults : List (Option Errno) := []
  received : Bytes := []
  deriving DecidableEq, Repr

structure Descriptor where
  device : Nat
  readable : Bool
  writable : Bool
  appending : Bool := false
  position : Nat := 0
  deriving DecidableEq, Repr

/-- A path component. -/
abbrev Name := Bytes

/-- The largest number an offset can be: 64 bits, one of them the sign. -/
def largestPosition : Nat := 0x7FFFFFFFFFFFFFFF

/-- `names` maps a path from the root to a device, `home` is the directory relative paths start
from, and `lastError` is the number of the most recent failure of any call. `largestOffset` is how
far a file can reach; a file system may stay far below what an offset can be. `charsets` are the conversions
of characters that can be loaded, under the names they are listed by. -/
structure System where
  devices : List Device
  names : List (List Name × Nat)
  home : List Name
  descriptors : List (Option Descriptor)
  lastError : Errno
  largestOffset : Nat
  charsets : List Bytes
  openStreams : Int
  addressable : largestOffset ≤ largestPosition := by decide
  deriving DecidableEq, Repr

namespace System

def descriptor? (sys : System) (fd : Nat) : Option Descriptor := sys.descriptors[fd]?.join

def device? (sys : System) (i : Nat) : Option Device := sys.devices[i]?

def setDescriptor (sys : System) (fd : Nat) (d : Option Descriptor) : System :=
  { sys with descriptors := sys.descriptors.set fd d }

def setDevice (sys : System) (i : Nat) (dev : Device) : System :=
  { sys with devices := sys.devices.set i dev }

def addDevice (sys : System) (dev : Device) : System × Nat :=
  ({ sys with devices := sys.devices ++ [dev] }, sys.devices.length)

theorem descriptor?_setDescriptor (sys : System) (fd i : Nat) (d : Option Descriptor) :
    (sys.setDescriptor fd d).descriptor? i =
      if fd = i ∧ fd < sys.descriptors.length then d else sys.descriptor? i := by
  simp only [descriptor?, setDescriptor, List.getElem?_set]
  by_cases h : fd = i
  · subst h
    by_cases hlt : fd < sys.descriptors.length <;> simp [hlt]
  · simp [h]

theorem device?_setDevice (sys : System) (i j : Nat) (dev : Device) :
    (sys.setDevice i dev).device? j =
      if i = j ∧ i < sys.devices.length then some dev else sys.device? j := by
  simp only [device?, setDevice, List.getElem?_set]
  by_cases h : i = j
  · subst h
    by_cases hlt : i < sys.devices.length <;> simp [hlt]
  · simp [h]

theorem device?_addDevice (sys : System) (dev : Device) :
    (sys.addDevice dev).1.device? (sys.addDevice dev).2 = some dev := by
  simp [addDevice, device?]

def fail {α : Type} (sys : System) (e : Errno) : System × Except Errno α :=
  ({ sys with lastError := e }, .error e)

/-- An open descriptor together with its device. -/
def opened? (sys : System) (fd : Nat) : Option (Descriptor × Device) :=
  match sys.descriptor? fd with
  | none => none
  | some d => (sys.device? d.device).map (d, ·)

/-- Whether any open descriptor of the device satisfies `p`. -/
def anyDescriptor (sys : System) (device : Nat) (p : Descriptor → Bool) : Bool :=
  sys.descriptors.any fun
    | some d => d.device == device && p d
    | none => false

/-- The lowest number no open descriptor has. -/
def freeNumber (sys : System) : Nat :=
  sys.descriptors.findIdx Option.isNone

def addDescriptor (sys : System) (d : Descriptor) : System × Nat :=
  let fd := sys.freeNumber
  if fd < sys.descriptors.length then (sys.setDescriptor fd (some d), fd)
  else ({ sys with descriptors := sys.descriptors ++ [some d] }, fd)

/-- Closes a descriptor. -/
def close (sys : System) (fd : Nat) : System × Except Errno Unit :=
  match sys.descriptor? fd with
  | none => sys.fail .badDescriptor
  | some _ => (sys.setDescriptor fd none, .ok ())

end System

end BufferedFiles
