import BufferedFiles.Proofs.Reading

/-!
# The length of a line

The primitive that stores a line reports no length. It stores at most one byte less than the buffer
holds, and a line end nowhere but at the end; with those bounds the last zero of the buffer is the
one behind the line, for every bound a caller can pass. What a read of a line returns is therefore
what was taken for it, on every connection.
-/
namespace BufferedFiles

namespace LineBuffer

/-- `sizeFor` as it is computed in words: the bound of the caller plus one, or the bound itself where
that does not fit, and at most what the primitive can be told. -/
def sizeForWord (max : UInt64) : UInt64 :=
  min (if max + 1 = 0 then max else max + 1) 0x7FFFFFFF

theorem toNat_sizeForWord (max : UInt64) : (sizeForWord max).toNat = sizeFor max.toNat := by
  have hlt := max.toNat_lt
  have hmin (x y : UInt64) : (min x y).toNat = min x.toNat y.toNat := by
    show (if x ≤ y then x else y).toNat = _
    simp only [UInt64.le_iff_toNat_le, Nat.min_def]
    split <;> rfl
  rw [sizeForWord, sizeFor, hmin]
  split
  · rename_i hzero
    have := congrArg UInt64.toNat hzero
    rw [UInt64.toNat_add] at this
    simp at this ⊢
    omega
  · rename_i hpos
    have := mt UInt64.toNat_inj.1 hpos
    rw [UInt64.toNat_add] at this ⊢
    simp at this ⊢
    omega

theorem sizeFor_pos (max : Nat) : 0 < sizeFor max := by
  unfold sizeFor
  omega

theorem length_store {size : Nat} {bytes : Bytes} (h : bytes.length < size) :
    (store (blank size) bytes).length = size := by
  simp only [store, blank, List.length_append, List.length_cons, List.length_drop,
    List.length_replicate]
  omega

/-- There is no last zero where there is no zero at all. -/
theorem lastZero?_eq_none {buffer : Bytes} : lastZero? buffer = none ↔ 0 ∉ buffer := by
  simp only [lastZero?, Option.map_eq_none_iff, List.findIdx?_eq_none_iff, List.mem_reverse,
    decide_eq_false_iff_not]
  exact ⟨fun h hmem => h 0 hmem rfl, fun h b hmem hb => h (hb ▸ hmem)⟩

theorem lastZero?_eq_some {buffer : Bytes} {i : Nat} :
    lastZero? buffer = some i ↔ buffer[i]? = some 0 ∧ ∀ j, i < j → buffer[j]? ≠ some 0 := by
  simp only [lastZero?, Option.map_eq_some_iff, List.findIdx?_eq_some_iff_getElem,
    List.length_reverse, List.getElem_reverse, decide_eq_true_iff]
  constructor
  · rintro ⟨k, ⟨hk, hzero, hbefore⟩, rfl⟩
    refine ⟨by rw [List.getElem?_eq_getElem (by omega), hzero], fun j hj hj' => ?_⟩
    obtain ⟨hlt, hzero'⟩ := List.getElem?_eq_some_iff.1 hj'
    have := hbefore (buffer.length - 1 - j) (by omega)
    simp only [show buffer.length - 1 - (buffer.length - 1 - j) = j by omega] at this
    exact this hzero'
  · rintro ⟨hzero, hbehind⟩
    obtain ⟨hlt, hzero⟩ := List.getElem?_eq_some_iff.1 hzero
    refine ⟨buffer.length - 1 - i, ⟨by omega, ?_, fun j hj hj' => ?_⟩, by omega⟩
    · simp only [show buffer.length - 1 - (buffer.length - 1 - i) = i by omega, hzero]
    · refine hbehind (buffer.length - 1 - j) (by omega) ?_
      rw [List.getElem?_eq_getElem (by omega), hj']

/-- For every bound a caller can pass, the size is computed without overflow, a line that fits stays
inside the buffer, its length is found and not fallen back on, and the line comes out unchanged,
whatever its bytes are. -/
theorem stored_line_recovered (max : UInt64) {bytes : Bytes}
    (h : bytes.length < (sizeForWord max).toNat) :
    (sizeForWord max).toNat = min (max.toNat + 1) 0x7FFFFFFF ∧
      (store (blank (sizeForWord max).toNat) bytes).length = (sizeForWord max).toNat ∧
      lastZero? (store (blank (sizeForWord max).toNat) bytes) = some bytes.length ∧
      line (store (blank (sizeForWord max).toNat) bytes) = bytes :=
  ⟨toNat_sizeForWord max, length_store h, lastZero?_store h, line_store h⟩

/-- Zeros inside and at the end, and a byte like the filler, under the largest bound of all. -/
theorem zeros_recovered_at_largest_bound :
    ([0, 0xFF, 0] : Bytes).length < (sizeForWord 0xFFFFFFFFFFFFFFFF).toNat ∧
      line (store (blank (sizeForWord 0xFFFFFFFFFFFFFFFF).toNat) [0, 0xFF, 0]) = [0, 0xFF, 0] := by
  have hfits : ([0, 0xFF, 0] : Bytes).length < (sizeForWord 0xFFFFFFFFFFFFFFFF).toNat := by decide
  exact ⟨hfits, (stored_line_recovered _ hfits).2.2.2⟩

end LineBuffer

namespace Connection

/-- The primitive stores at most what it is asked for, and a line end nowhere but at the end. -/
theorem takeLineRounds_fits (rounds : Nat) (c : Connection) (n : Nat) :
    (takeLineRounds rounds c n).2.length ≤ n ∧
      newline ∉ (takeLineRounds rounds c n).2.dropLast := by
  induction rounds generalizing c n with
  | zero => exact ⟨Nat.zero_le _, List.not_mem_nil⟩
  | succ rounds ih =>
    simp only [takeLineRounds]
    split
    · exact ⟨Nat.zero_le _, List.not_mem_nil⟩
    split
    · exact ⟨Nat.zero_le _, List.not_mem_nil⟩
    rename_i c₁ _
    have hfound : (firstLine (c₁.stream.ahead.take n)).length ≤ n :=
      Nat.le_trans (firstLine_isPrefix _).length_le (List.length_take_le _ _)
    split
    · exact ⟨hfound, newline_notMem_dropLast_firstLine _⟩
    · rename_i hopen
      -- The line goes on, so no line end is among the bytes found so far.
      have hnone : newline ∉ firstLine (c₁.stream.ahead.take n) := fun hmem =>
        hopen (getLast?_firstLine.2 ((firstLine_isPrefix _).subset hmem))
      obtain ⟨hlen, hlast⟩ := ih (c₁.update (·.skip (firstLine (c₁.stream.ahead.take n)).length))
        (n - (firstLine (c₁.stream.ahead.take n)).length)
      refine ⟨by rw [List.length_append]; omega, fun hmem => ?_⟩
      rw [List.dropLast_append] at hmem
      split at hmem
      · exact hnone (List.dropLast_subset _ hmem)
      · exact (List.mem_append.1 hmem).elim hnone hlast

theorem takeLine_fits {c c' : Connection} {n : Nat} {line : Bytes}
    (e : c.takeLine n = (c', some line)) : line.length ≤ n ∧ newline ∉ line.dropLast := by
  simp only [takeLine, Prod.mk.injEq] at e
  have hline := e.2
  split at hline
  · cases hline
  · cases hline
    exact takeLineRounds_fits n _ n

/-- A read of a line returns the line that was taken, byte for byte. -/
theorem readLine_taken {c c' : Connection} {max : Nat} {line : Bytes} (hmax : max ≠ 0)
    (hheld : c.stream.held = none)
    (e : c.takeLine (LineBuffer.sizeFor max - 1) = (c', some line)) :
    c.readLine max = (c', .ok line) := by
  have hfits : line.length < LineBuffer.sizeFor max := by
    have := (takeLine_fits e).1
    have := LineBuffer.sizeFor_pos max
    omega
  simp only [readLine, if_neg hmax, hheld, e, LineBuffer.line_store hfits]

end Connection

end BufferedFiles
