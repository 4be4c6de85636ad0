import BufferedFiles.Error

/-!
# Buffering values

A handle is opened with one of three buffering values, written -1, 0 and 1. Every other number is
refused. The last two change the discipline of the stream; the first leaves it as it is.
-/
namespace BufferedFiles

/-- How a stream gathers output: in whole buffers, up to each line end, or not at all. -/
inductive Discipline where
  | full | line | unbuffered
  deriving DecidableEq, Repr

inductive Buffering where
  | unchanged | unbuffered | lineBuffered
  deriving DecidableEq, Repr

namespace Buffering

def toInt : Buffering → Int
  | .unchanged => -1
  | .unbuffered => 0
  | .lineBuffered => 1

def ofInt (value : Int) : Except HandleError Buffering :=
  if value = -1 then .ok .unchanged
  else if value = 0 then .ok .unbuffered
  else if value = 1 then .ok .lineBuffered
  else .error (.invalidBuffering value)

def discipline? : Buffering → Option Discipline
  | .unchanged => none
  | .unbuffered => some .unbuffered
  | .lineBuffered => some .line

theorem ofInt_toInt (b : Buffering) : ofInt b.toInt = .ok b := by
  cases b <;> rfl

theorem ofInt_eq_ok_iff {value : Int} {b : Buffering} : ofInt value = .ok b ↔ value = b.toInt := by
  constructor
  · intro h
    unfold ofInt at h
    split at h
    · cases h; assumption
    · split at h
      · cases h; assumption
      · split at h
        · cases h; assumption
        · cases h
  · rintro rfl
    exact ofInt_toInt b

end Buffering

end BufferedFiles
