import BufferedFiles.Stream.Basic

/-!
# Files and sources without a buffer

A plain file is what a handle on a regular file stands for: the bytes of the file and the place of the
next transfer. A supply is what a device still has to give. Both say nothing of windows, of pending
output or of descriptors.
-/
namespace BufferedFiles

theorem take_overwrite (data : Bytes) (p : Nat) (bytes : Bytes) :
    (overwrite data p bytes).take (p + bytes.length) =
      data.take p ++ List.replicate (p - data.length) 0 ++ bytes := by
  have hlen : (data.take p ++ List.replicate (p - data.length) 0 ++ bytes).length = p + bytes.length := by
    simp only [List.length_append, List.length_take, List.length_replicate]
    omega
  rw [overwrite, ← hlen, List.take_left]

theorem drop_overwrite (data : Bytes) (p : Nat) (bytes : Bytes) (k : Nat) :
    (overwrite data p bytes).drop (p + bytes.length + k) = data.drop (p + bytes.length + k) := by
  have hlen : (data.take p ++ List.replicate (p - data.length) 0 ++ bytes).length = p + bytes.length := by
    simp only [List.length_append, List.length_take, List.length_replicate]
    omega
  rw [overwrite, ← hlen, List.drop_length_add_append, List.drop_drop]

/-- Bytes laid down in two steps, the second behind the first. -/
theorem overwrite_append (data : Bytes) (p : Nat) (xs ys : Bytes) :
    overwrite (overwrite data p xs) (p + xs.length) ys = overwrite data p (xs ++ ys) := by
  have hlen := length_overwrite data p xs
  have hgap : p + xs.length - (overwrite data p xs).length = 0 := by omega
  rw [overwrite, take_overwrite, drop_overwrite, hgap]
  simp only [overwrite, List.replicate_zero, List.append_nil, List.append_assoc, List.length_append,
    Nat.add_assoc]

/-- A file with nothing in front of it: its bytes, and where the next transfer starts. -/
structure PlainFile where
  contents : Bytes
  position : Nat
  deriving DecidableEq, Repr

namespace PlainFile

/-- Where a write starts: at the position, or at the end where writes append. -/
def start (f : PlainFile) (appending : Bool) : Nat :=
  if appending then f.contents.length else f.position

/-- Bytes stored where a write starts; a gap before them is filled with zeros. -/
def write (f : PlainFile) (appending : Bool) (bytes : Bytes) : PlainFile :=
  if bytes = [] then f
  else ⟨overwrite f.contents (f.start appending) bytes, f.start appending + bytes.length⟩

/-- What an offset is counted from. -/
def base (f : PlainFile) : Origin → Nat
  | .start => 0
  | .current => f.position
  | .finish => f.contents.length

/-- The bytes from the position on. -/
def rest (f : PlainFile) : Bytes := f.contents.drop f.position

def advance (f : PlainFile) (n : Nat) : PlainFile := { f with position := f.position + n }

@[simp] theorem write_nil (f : PlainFile) (appending : Bool) : f.write appending [] = f := if_pos rfl

@[simp] theorem advance_zero (f : PlainFile) : f.advance 0 = f := rfl

theorem advance_advance (f : PlainFile) (n m : Nat) : (f.advance n).advance m = f.advance (n + m) := by
  simp only [advance, Nat.add_assoc]

theorem write_of_ne_nil (f : PlainFile) (appending : Bool) {bytes : Bytes} (h : bytes ≠ []) :
    f.write appending bytes =
      ⟨overwrite f.contents (f.start appending) bytes, f.start appending + bytes.length⟩ := if_neg h

theorem start_write (f : PlainFile) (appending : Bool) (bytes : Bytes) :
    (f.write appending bytes).start appending = f.start appending + bytes.length := by
  by_cases h : bytes = []
  · simp [h]
  · rw [write_of_ne_nil f appending h]
    cases appending with
    | false => rfl
    | true => simp [start, length_overwrite]

/-- Two writes one after the other are one write. -/
theorem write_append (f : PlainFile) (appending : Bool) (xs ys : Bytes) :
    (f.write appending xs).write appending ys = f.write appending (xs ++ ys) := by
  by_cases hx : xs = []
  · simp [hx]
  by_cases hy : ys = []
  · simp [hy]
  have hxy : xs ++ ys ≠ [] := by simp [hx]
  rw [write_of_ne_nil _ _ hy, start_write, write_of_ne_nil _ _ hxy, write_of_ne_nil _ _ hx,
    overwrite_append, List.length_append, Nat.add_assoc]

/-- Bytes written at the end come behind what is there. -/
theorem contents_write_length (data : Bytes) (appending : Bool) (bytes : Bytes) :
    (write ⟨data, data.length⟩ appending bytes).contents = data ++ bytes := by
  have hstart : start ⟨data, data.length⟩ appending = data.length := ite_self _
  by_cases h : bytes = []
  · rw [h, write_nil, List.append_nil]
  · rw [write_of_ne_nil _ _ h, hstart]
    exact overwrite_length data bytes

theorem length_write (f : PlainFile) (appending : Bool) (bytes : Bytes) :
    (f.write appending bytes).contents.length ≤
      max f.contents.length (f.start appending + bytes.length) := by
  by_cases h : bytes = []
  · simp only [h, write_nil]
    omega
  · simp only [write_of_ne_nil f appending h, length_overwrite]
    omega

/-- Bytes that are written take the end of the file and the position no further than they are long. -/
theorem max_write (f : PlainFile) (appending : Bool) (bytes : Bytes) :
    max (f.write appending bytes).position (f.write appending bytes).contents.length ≤
      max f.position f.contents.length + bytes.length := by
  have hlen := f.length_write appending bytes
  have hstart : f.start appending ≤ max f.position f.contents.length := by
    unfold start
    split <;> omega
  by_cases h : bytes = []
  · simp only [h, write_nil]
    omega
  · rw [write_of_ne_nil _ _ h] at hlen ⊢
    simp only at hlen ⊢
    omega

end PlainFile

/-- How long a line may be that is asked for at once. -/
def lineLimit : Nat := 0x7FFFFFFE

/-- What a device still has to give: some bytes, or zeros without end. -/
inductive Supply where
  | bytes (rest : Bytes)
  | zeros
  deriving DecidableEq, Repr

namespace Supply

def take : Supply → Nat → Bytes
  | .bytes rest, n => rest.take n
  | .zeros, n => List.replicate n 0

def drop : Supply → Nat → Supply
  | .bytes rest, n => .bytes (rest.drop n)
  | .zeros, _ => .zeros

/-- The supply behind bytes that were taken from its device already. -/
def behind : Supply → Bytes → Supply
  | .bytes rest, front => .bytes (front ++ rest)
  | .zeros, _ => .zeros

/-- The bytes up to the first line end, as far as a bound goes. -/
def line (s : Supply) (bound : Nat) : Bytes :=
  (s.take bound).take ((s.take bound).idxOf newline + 1)

def IsEmpty (s : Supply) : Prop := s = .bytes []

@[simp] theorem drop_zero (s : Supply) : s.drop 0 = s := by cases s <;> rfl

theorem drop_drop (s : Supply) (n m : Nat) : (s.drop n).drop m = s.drop (n + m) := by
  cases s <;> simp [drop, List.drop_drop]

@[simp] theorem take_zero (s : Supply) : s.take 0 = [] := by cases s <;> simp [take]

theorem length_take_le (s : Supply) (n : Nat) : (s.take n).length ≤ n := by
  cases s with
  | bytes rest => exact List.length_take_le _ _
  | zeros => simp [take]

theorem take_take (s : Supply) {n k : Nat} (hk : k ≤ n) : (s.take n).take k = s.take k := by
  cases s with
  | bytes rest => rw [take, take, List.take_take, Nat.min_eq_left hk]
  | zeros => rw [take, take, List.take_replicate, Nat.min_eq_left hk]

theorem take_append_take (s : Supply) (n m : Nat) :
    s.take n ++ (s.drop n).take m = s.take (n + m) := by
  cases s with
  | bytes rest => simp [take, drop, List.take_add]
  | zeros => simp [take, drop]

theorem take_eq_nil_iff {s : Supply} {n : Nat} : s.take n = [] ↔ n = 0 ∨ s.IsEmpty := by
  cases s with
  | bytes rest => simp [take, IsEmpty]
  | zeros => simp [take, IsEmpty]

/-- The bytes in front of a supply come first; zeros come before zeros. -/
theorem take_behind {s : Supply} {front : Bytes} {n : Nat}
    (hzeros : s = .zeros → front = List.replicate front.length 0) (hn : n ≤ front.length) :
    (s.behind front).take n = front.take n := by
  cases s with
  | bytes rest => exact List.take_append_of_le_length hn
  | zeros =>
    rw [hzeros rfl, List.take_replicate, Nat.min_eq_left hn]
    rfl

theorem drop_behind (s : Supply) {front : Bytes} {n : Nat} (hn : n ≤ front.length) :
    (s.behind front).drop n = s.behind (front.drop n) := by
  cases s with
  | bytes rest => exact congrArg Supply.bytes (List.drop_append_of_le_length hn)
  | zeros => rfl

@[simp] theorem behind_nil (s : Supply) : s.behind [] = s := by cases s <;> rfl

theorem behind_take (s : Supply) (n : Nat) : (s.drop n).behind (s.take n) = s := by
  cases s with
  | bytes rest => exact congrArg Supply.bytes (List.take_append_drop n rest)
  | zeros => rfl

theorem IsEmpty.drop {s : Supply} (h : s.IsEmpty) (n : Nat) : (s.drop n).IsEmpty := by
  unfold IsEmpty at h
  subst h
  exact congrArg Supply.bytes List.drop_nil

end Supply

end BufferedFiles
