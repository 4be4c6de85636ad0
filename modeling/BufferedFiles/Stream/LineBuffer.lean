import BufferedFiles.Text.Utf8

/-!
# Line buffers

A line is stored at the front of a buffer that was filled with 0xFF, and a zero byte after it. Since
nothing behind that zero byte is zero, the last zero of the buffer marks the end of the line, also
where the line itself holds zeros.
-/
namespace BufferedFiles.LineBuffer

def filler : UInt8 := 0xFF

def blank (size : Nat) : Bytes := List.replicate size filler

/-- The buffer after `line` and a zero byte were stored at its front. -/
def store (buffer line : Bytes) : Bytes :=
  line ++ 0 :: buffer.drop (line.length + 1)

def lastZero? (buffer : Bytes) : Option Nat :=
  (buffer.reverse.findIdx? (· = 0)).map (buffer.length - 1 - ·)

/-- The bytes before the last zero; all but the last byte where there is no zero. -/
def line (buffer : Bytes) : Bytes :=
  buffer.take ((lastZero? buffer).getD (buffer.length - 1))

/-- The size of the buffer for a line of at most `max` bytes. -/
def sizeFor (max : Nat) : Nat := min (max + 1) 0x7FFFFFFF

end BufferedFiles.LineBuffer
