import BufferedFiles.Text.Utf8

/-!
# Mode texts

A mode text starts with `r`, `w` or `a`. Of the characters after it only a few are looked at, and
among those only `+` and `x` mean something. Which are looked at differs between opening a path and
adopting a descriptor. A text for a path can go on with the name of the conversion that the
characters of the file go through.
-/
namespace BufferedFiles

structure OpenMode where
  reads : Bool
  writes : Bool
  appends : Bool
  creates : Bool
  truncates : Bool
  exclusive : Bool
  deriving DecidableEq, Repr

namespace OpenMode

def update : UInt8 := 43
def exclusively : UInt8 := 120
def binary : UInt8 := 98
def comma : UInt8 := 44

/-- The characters after the first that count when a path is opened. -/
def pathReach (rest : Bytes) : Bytes := (rest.take 6).takeWhile (· ≠ comma)

/-- The characters after the first that count when a descriptor is adopted. -/
def descriptorReach (rest : Bytes) : Bytes := rest.take 4

/-- The mode a text asks for, when `reach` of the characters after the first are looked at. -/
def parse? (reach : Bytes → Bytes) : Bytes → Option OpenMode
  | [] => none
  | first :: rest =>
    let both := (reach rest).contains update
    let exclusive := (reach rest).contains exclusively
    if first = 114 then some ⟨true, both, false, false, false, exclusive⟩
    else if first = 119 then some ⟨both, true, false, true, true, exclusive⟩
    else if first = 97 then some ⟨both, true, true, true, false, exclusive⟩
    else none

def isRecognised (b : UInt8) : Bool := b = update || b = exclusively || b = binary

/-- What stands behind the last character of a text for a path that is recognised. -/
def remainder : Bytes → Bytes
  | [] => []
  | _ :: rest => rest.drop ((pathReach rest).reverse.dropWhile (!isRecognised ·)).length

/-- What stands behind the first `mark` in a text. -/
def behind? (mark : Bytes) : Bytes → Option Bytes
  | [] => none
  | b :: rest =>
    if mark.isPrefixOf (b :: rest) then some ((b :: rest).drop mark.length) else behind? mark rest

def charsetMark : Bytes := toBytes ",ccs="

/-- Whether a character other than a slash can stand in the name of a conversion. -/
def isNamed (b : UInt8) : Bool :=
  48 ≤ b && b ≤ 58 || 65 ≤ b && b ≤ 90 || 97 ≤ b && b ≤ 122 || b = 45 || b = 46 || b = 95

def capital (b : UInt8) : UInt8 := if 97 ≤ b && b ≤ 122 then b - 32 else b

/-- The name of a conversion as it is listed: in capitals, without what stands in no name, and with two
slashes in it, of which `slashes` are there already. -/
def listed (slashes : Nat) : Bytes → Bytes
  | [] => List.replicate (2 - slashes) 47
  | b :: rest =>
    if b = 47 then if slashes < 2 then b :: listed (slashes + 1) rest else []
    else if isNamed b then capital b :: listed slashes rest
    else listed slashes rest

/-- The conversion that a text for a path asks for. -/
def charset? (text : Bytes) : Option Bytes :=
  (behind? charsetMark (remainder text)).map fun name => listed 0 (name.takeWhile (· ≠ comma))

end OpenMode

end BufferedFiles
