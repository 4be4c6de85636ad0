/-!
# Bytes read as text

UTF-8 read from the left. Bytes that begin no character are gathered into the longest start of a
sequence that is still well formed, and each such piece counts as one unreadable character.
-/
namespace BufferedFiles

abbrev Bytes := List UInt8

namespace Text

/-- Whether a byte may follow inside a sequence. -/
def isContinuation (b : UInt8) : Bool := 0x80 ≤ b && b ≤ 0xBF

/-- The bytes that may follow a first byte: the range of the second one, and how many further
continuation bytes come after it. -/
def follow (b : UInt8) : Option (UInt8 × UInt8 × Nat) :=
  if 0xC2 ≤ b && b ≤ 0xDF then some (0x80, 0xBF, 0)
  else if b = 0xE0 then some (0xA0, 0xBF, 1)
  else if b = 0xED then some (0x80, 0x9F, 1)
  else if 0xE1 ≤ b && b ≤ 0xEF then some (0x80, 0xBF, 1)
  else if b = 0xF0 then some (0x90, 0xBF, 2)
  else if 0xF1 ≤ b && b ≤ 0xF3 then some (0x80, 0xBF, 2)
  else if b = 0xF4 then some (0x80, 0x8F, 2)
  else none

/-- The payload of a first byte that `n + 1` continuation bytes follow. -/
def leadingBits (b : UInt8) (n : Nat) : Nat :=
  b.toNat % Nat.pow 2 (5 - n)

/-- Reads `n` continuation bytes onto the value so far; `none` where one is missing. -/
def continueChar : Nat → Nat → Bytes → Option Char × Bytes
  | 0, value, rest => (some (Char.ofNat value), rest)
  | _ + 1, _, [] => (none, [])
  | n + 1, value, b :: rest =>
    if isContinuation b then continueChar n (value * 64 + b.toNat % 64) rest
    else (none, b :: rest)

/-- Reads the character that starts with `b`; `none` for a piece that is no character. -/
def nextChar (b : UInt8) (rest : Bytes) : Option Char × Bytes :=
  if b < 0x80 then (some (Char.ofNat b.toNat), rest) else
  match follow b, rest with
  | some (low, high, n), second :: rest =>
    if low ≤ second && second ≤ high then
      continueChar n (leadingBits b n * 64 + second.toNat % 64) rest
    else (none, second :: rest)
  | _, _ => (none, rest)

theorem length_continueChar_le (n value : Nat) (rest : Bytes) :
    (continueChar n value rest).2.length ≤ rest.length := by
  induction n generalizing value rest with
  | zero => simp [continueChar]
  | succ n ih =>
    cases rest with
    | nil => simp [continueChar]
    | cons b rest =>
      simp only [continueChar]
      split
      · exact Nat.le_trans (ih _ _) (Nat.le_succ _)
      · simp

theorem length_nextChar_le (b : UInt8) (rest : Bytes) :
    (nextChar b rest).2.length ≤ rest.length := by
  unfold nextChar
  split
  · simp
  · split
    · split
      · exact Nat.le_trans (length_continueChar_le _ _ _) (Nat.le_succ _)
      · simp
    · simp

/-- The characters of a byte string, `none` for each unreadable piece. -/
def decode : Bytes → List (Option Char)
  | [] => []
  | b :: rest => (nextChar b rest).1 :: decode (nextChar b rest).2
termination_by bytes => bytes.length
decreasing_by exact Nat.lt_succ_of_le (length_nextChar_le b rest)

def isUtf8 (bytes : Bytes) : Bool :=
  (decode bytes).all Option.isSome

/-- The text of a byte string, with U+FFFD for each unreadable piece. -/
def lossy (bytes : Bytes) : String :=
  String.ofList ((decode bytes).map (·.getD '\uFFFD'))

end Text

def toBytes (s : String) : Bytes := s.toUTF8.data.toList

end BufferedFiles
