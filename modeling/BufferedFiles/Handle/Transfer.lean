import BufferedFiles.Handle.Basic

/-!
# Transfers

Reading an exact number of bytes, reading to the end, writing everything and copying are loops over
single reads and writes. An interrupted call is made again. A transfer makes a limited number of
calls; the limit is far beyond what any transfer that ends can need.
-/
namespace BufferedFiles

def callLimit : Nat := 0x4000000000000000

/-- The outcome with its failure told as a kind and a text. -/
def Outcome.toTransfer {α : Type} (r : Outcome HandleError α) : Outcome TransferError α :=
  ⟨r.handle, r.system, r.result.mapError .ofHandleError⟩

namespace Handle

/-- One read into a buffer of `n` bytes. An empty buffer gets nothing, and no default applies. -/
def readSome (h : Handle) (sys : System) (n : Nat) : Outcome TransferError Bytes :=
  (h.onStream sys (·.read n)).toTransfer

def writeSome (h : Handle) (sys : System) (bytes : Bytes) : Outcome TransferError Nat :=
  (h.write sys bytes).toTransfer

/-- Reads until `n` bytes are there; none are returned where the data ends before. -/
def readExact : Nat → Handle → System → Nat → Outcome TransferError Bytes
  | 0, h, sys, _ => ⟨h, sys, .error .endOfData⟩
  | calls + 1, h, sys, n =>
    if n = 0 then ⟨h, sys, .ok []⟩ else
    let r := h.readSome sys n
    match r.result with
    | .error e =>
      if e.kind = .interrupted then readExact calls r.handle r.system n
      else ⟨r.handle, r.system, .error e⟩
    | .ok [] => ⟨r.handle, r.system, .error .endOfData⟩
    | .ok bytes =>
      let r := readExact calls r.handle r.system (n - bytes.length)
      { r with result := r.result.map (bytes ++ ·) }

def probeSize : Nat := 32

/-- Reads until a read gets nothing. The first read is a small one; every later one asks for as many
bytes as are there already. -/
def readToEnd : Nat → Handle → System → Nat → Outcome TransferError Bytes
  | 0, h, sys, _ => ⟨h, sys, .ok []⟩
  | calls + 1, h, sys, got =>
    let r := h.readSome sys (max probeSize got)
    match r.result with
    | .error e =>
      if e.kind = .interrupted then readToEnd calls r.handle r.system got
      else ⟨r.handle, r.system, .error e⟩
    | .ok [] => ⟨r.handle, r.system, .ok []⟩
    | .ok bytes =>
      let r := readToEnd calls r.handle r.system (got + bytes.length)
      { r with result := r.result.map (bytes ++ ·) }

/-- Reads to the end and takes what was read as text. -/
def readText (h : Handle) (sys : System) : Outcome TransferError String :=
  let r := readToEnd callLimit h sys 0
  { r with result := r.result.bind fun bytes =>
      if Text.isUtf8 bytes then .ok (Text.lossy bytes) else .error .notText }

def writeAll : Nat → Handle → System → Bytes → Outcome TransferError Unit
  | 0, h, sys, _ => ⟨h, sys, .error .nothingWritten⟩
  | calls + 1, h, sys, bytes =>
    if bytes.isEmpty then ⟨h, sys, .ok ()⟩ else
    let r := h.writeSome sys bytes
    match r.result with
    | .error e =>
      if e.kind = .interrupted then writeAll calls r.handle r.system bytes
      else ⟨r.handle, r.system, .error e⟩
    | .ok 0 => ⟨r.handle, r.system, .error .nothingWritten⟩
    | .ok n => writeAll calls r.handle r.system (bytes.drop n)

def copySize : Nat := 8192

/-- Copies from one handle to another until a read gets nothing, and counts the bytes. -/
def copy : Nat → Handle → Handle → System → Handle × Handle × System × Except TransferError Nat
  | 0, source, sink, sys => (source, sink, sys, .ok 0)
  | calls + 1, source, sink, sys =>
    let r := source.readSome sys copySize
    match r.result with
    | .error e =>
      if e.kind = .interrupted then copy calls r.handle sink r.system
      else (r.handle, sink, r.system, .error e)
    | .ok [] => (r.handle, sink, r.system, .ok 0)
    | .ok bytes =>
      let w := writeAll callLimit sink r.system bytes
      match w.result with
      | .error e => (r.handle, w.handle, w.system, .error e)
      | .ok () =>
        let (source, sink, sys, result) := copy calls r.handle w.handle w.system
        (source, sink, sys, result.map (bytes.length + ·))

end Handle

end BufferedFiles
