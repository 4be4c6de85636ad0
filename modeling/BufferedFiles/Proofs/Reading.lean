import BufferedFiles.Proofs.InputSupply

/-!
# Reading

A read takes a start of the supply, and a line is the part of a start up to its first line end. The
bytes of a line come back out of its buffer whatever they are.
-/
namespace BufferedFiles

theorem firstLine_eq_take (bytes : Bytes) :
    firstLine bytes = bytes.take (bytes.idxOf newline + 1) := by
  induction bytes with
  | nil => rfl
  | cons b rest ih =>
    rw [firstLine, List.idxOf_cons]
    by_cases hb : b = newline
    · rw [if_pos hb, beq_iff_eq.2 hb]
      rfl
    · rw [if_neg hb, beq_eq_false_iff_ne.2 hb, ih]
      rfl

theorem firstLine_append_of_mem {xs : Bytes} (h : newline ∈ xs) (ys : Bytes) :
    firstLine (xs ++ ys) = firstLine xs := by
  induction xs with
  | nil => cases h
  | cons b rest ih =>
    rw [List.cons_append, firstLine, firstLine]
    by_cases hb : b = newline
    · rw [if_pos hb, if_pos hb]
    · rw [if_neg hb, if_neg hb, ih (List.mem_of_ne_of_mem (Ne.symm hb) h)]

theorem firstLine_append_of_notMem {xs : Bytes} (h : newline ∉ xs) (ys : Bytes) :
    firstLine (xs ++ ys) = xs ++ firstLine ys := by
  induction xs with
  | nil => rfl
  | cons b rest ih =>
    rw [List.mem_cons, not_or] at h
    rw [List.cons_append, firstLine, if_neg (Ne.symm h.1), ih h.2, List.cons_append]

theorem firstLine_of_notMem {bytes : Bytes} (h : newline ∉ bytes) : firstLine bytes = bytes := by
  have := firstLine_append_of_notMem h []
  rwa [List.append_nil, firstLine, List.append_nil] at this

theorem getLast?_firstLine {bytes : Bytes} :
    (firstLine bytes).getLast? = some newline ↔ newline ∈ bytes := by
  induction bytes with
  | nil => simp [firstLine]
  | cons b rest ih =>
    rw [firstLine]
    by_cases hb : b = newline
    · simp [hb]
    · rw [if_neg hb, List.mem_cons, or_iff_right (Ne.symm hb), ← ih, List.getLast?_cons]
      cases hline : (firstLine rest).getLast? with
      | none => simp [hb]
      | some last => simp

theorem firstLine_ne_nil {bytes : Bytes} (h : bytes ≠ []) : firstLine bytes ≠ [] := by
  cases bytes with
  | nil => exact absurd rfl h
  | cons b rest =>
    rw [firstLine]
    split <;> exact List.cons_ne_nil _ _

theorem Supply.line_eq (s : Supply) (n : Nat) : s.line n = firstLine (s.take n) :=
  (firstLine_eq_take _).symm

namespace LineBuffer

theorem lastZero?_store {size : Nat} {bytes : Bytes} (h : bytes.length < size) :
    lastZero? (store (blank size) bytes) = some bytes.length := by
  have hfound : ∀ (m : Nat) (behind : Bytes),
      (List.replicate m filler ++ 0 :: behind).findIdx? (· = 0) = some m := by
    intro m behind
    induction m with
    | zero => rfl
    | succ m ih =>
      rw [List.replicate_succ, List.cons_append, List.findIdx?_cons, ih]
      rfl
  have hlen : (store (blank size) bytes).length = size := by
    simp only [store, blank, List.length_append, List.length_cons, List.length_drop,
      List.length_replicate]
    omega
  rw [lastZero?, hlen]
  simp only [store, blank, List.drop_replicate, List.reverse_append, List.reverse_cons,
    List.reverse_replicate, List.append_assoc, List.singleton_append, hfound, Option.map_some]
  congr 1
  omega

/-- A line comes back out of its buffer, whatever its bytes are. -/
theorem line_store {size : Nat} {bytes : Bytes} (h : bytes.length < size) :
    line (store (blank size) bytes) = bytes := by
  rw [line, lastZero?_store h, Option.getD_some, store, List.take_left]

end LineBuffer

namespace Connection

variable {c c' : Connection} {n : Nat} {out : Bytes}

theorem take_spec (h : c.Gives) (hr : c.Reaches n) (e : c.take n = (c', out)) :
    c.Draws c' out ∧ out = c.supply.take n := by
  obtain ⟨h₁, hcap, -⟩ := draws_allocate h
  obtain ⟨h₂, hout⟩ :=
    takeRounds_spec h₁.gives hcap (h₁.reaches (Nat.zero_le n) hr) (.inl (Nat.lt_succ_self n)) e
  rw [h₁.supply, List.length_nil, Supply.drop_zero] at hout
  exact ⟨h₁.trans h₂, hout⟩

/-- A read takes a start of the supply, and fails never. -/
theorem read_gives (h : c.Gives) (hr : c.Reaches n) :
    ∃ c', c.read n = (c', .ok (c.supply.take n)) ∧ c.Draws c' (c.supply.take n) := by
  unfold read
  by_cases hn : n = 0
  · rw [if_pos hn, hn, Supply.take_zero]
    exact ⟨c, rfl, .refl h⟩
  rw [if_neg hn, h.quiet.2]
  rcases htake : c.take n with ⟨c', bytes⟩
  obtain ⟨hdraws, rfl⟩ := take_spec h hr htake
  refine ⟨c', ?_, hdraws⟩
  simp only [hdraws.gives.quiet.1, Bool.and_false, Bool.false_eq_true, if_false]

/-- The window holds something, or there is nothing left. -/
private theorem refill_spec {more : Bool} (h : c.Gives) (hr : c.Reaches n)
    (e : (if c.stream.ahead.isEmpty then c.fill else (c, true)) = (c', more)) :
    c.Draws c' [] ∧ (more = true → c'.stream.left ≠ []) ∧ (more = false → c.supply.IsEmpty) := by
  rw [h.ahead] at e
  split at e
  · rename_i hnil
    exact fill_spec h (List.isEmpty_iff.1 hnil) hr e
  · rename_i hne
    cases e
    exact ⟨.refl h, fun _ hnil => hne (List.isEmpty_iff.2 hnil), nofun⟩

/-- Rounds of taking a line give the first line of a start of the supply. -/
theorem takeLineRounds_spec {rounds : Nat} (h : c.Gives) (hr : c.Reaches n) (hn : n ≤ rounds)
    (e : takeLineRounds rounds c n = (c', out)) : c.Draws c' out ∧ out = c.supply.line n := by
  rw [Supply.line_eq]
  induction rounds generalizing c n out with
  | zero =>
    have hzero : n = 0 := by omega
    cases e
    exact ⟨.refl h, by rw [hzero, Supply.take_zero, firstLine]⟩
  | succ rounds ih =>
    simp only [takeLineRounds] at e
    split at e
    · rename_i hzero
      cases e
      exact ⟨.refl h, by rw [hzero, Supply.take_zero, firstLine]⟩
    rename_i hpos
    rcases hfill : (if c.stream.ahead.isEmpty then c.fill else (c, true)) with ⟨c₁, more⟩
    obtain ⟨h₁, hwindow, hnone⟩ := refill_spec h hr hfill
    rw [hfill] at e
    cases more with
    | false =>
      cases e
      rw [Supply.take_eq_nil_iff.2 (.inr (hnone rfl)), firstLine]
      exact ⟨h₁, rfl⟩
    | true =>
      have hsupply : c.supply = c₁.supply := by
        rw [h₁.supply]
        exact (Supply.drop_zero _).symm
      rw [hsupply]
      suffices hrest : c₁.Draws c' out ∧ out = firstLine (c₁.supply.take n) from
        ⟨h₁.trans hrest.1, hrest.2⟩
      have hne := hwindow rfl
      simp only [h₁.gives.ahead] at e
      obtain ⟨h₂, hle, -, hsome⟩ := skip_front h₁.gives n
      have hlong := hsome hne hpos
      rw [h₂.take hle]
      by_cases hline : newline ∈ c₁.stream.left.take n
      · rw [if_pos (getLast?_firstLine.2 hline)] at e
        cases e
        rw [firstLine_append_of_mem hline]
        have hprefix : firstLine (c₁.stream.left.take n) <+: c₁.stream.left :=
          (firstLine_isPrefix _).trans (List.take_prefix _ _)
        have h₃ := skip_spec h₁.gives hprefix.length_le
        rw [← List.prefix_iff_eq_take.1 hprefix] at h₃
        exact ⟨h₃, rfl⟩
      · rw [if_neg fun hend => hline (getLast?_firstLine.1 hend), firstLine_of_notMem hline] at e
        rcases hrest : takeLineRounds rounds
          (c₁.update (·.skip (c₁.stream.left.take n).length)) (n - (c₁.stream.left.take n).length) with ⟨c₃, last⟩
        rw [hrest] at e
        cases e
        obtain ⟨h₃, hlast⟩ := ih h₂.gives (h₂.reaches hle (h₁.reaches (Nat.zero_le n) hr)) (by omega) hrest
        rw [firstLine_append_of_notMem hline, ← hlast]
        exact ⟨h₂.trans h₃, rfl⟩

theorem takeLine_spec {line : Option Bytes} (h : c.Gives) (hr : c.Reaches n) (e : c.takeLine n = (c', line)) :
    c.Draws c' (c.supply.line n) ∧
      line = if (c.supply.line n).isEmpty then none else some (c.supply.line n) := by
  have hset : ∀ {c : Connection} {failed}, c.stream.failed = false → failed = false →
      c.update ({ · with failed }) = c := by
    intro c failed hc hf
    rcases c with ⟨s, sys⟩
    cases s
    cases hc
    cases hf
    rfl
  rcases hrounds : takeLineRounds n c n with ⟨q, bytes⟩
  obtain ⟨hdraws, rfl⟩ := takeLineRounds_spec h hr (Nat.le_refl n) hrounds
  have hquiet := hdraws.gives.quiet.1
  have hkept : q.update (fun s => { s with failed := s.failed || c.stream.failed }) = q := by
    have := @hset q (q.stream.failed || c.stream.failed) hquiet (by rw [hquiet, h.quiet.1]; rfl)
    exact this
  rw [takeLine, hset h.quiet.1 rfl, hrounds] at e
  simp only [hquiet, Bool.false_and, Bool.or_false] at e
  rw [hkept] at e
  cases e
  exact ⟨hdraws, rfl⟩

/-- A read of a line takes the first line of a start of the supply, and fails never. -/
theorem readLine_gives (h : c.Gives) (hr : c.Reaches (min n lineLimit)) :
    ∃ c', c.readLine n = (c', .ok (c.supply.line (min n lineLimit))) ∧
      c.Draws c' (c.supply.line (min n lineLimit)) := by
  unfold readLine
  by_cases hn : n = 0
  · rw [if_pos hn, hn, Nat.zero_min, Supply.line_eq, Supply.take_zero, firstLine]
    exact ⟨c, rfl, .refl h⟩
  rw [if_neg hn, h.quiet.2]
  have hsize : LineBuffer.sizeFor n - 1 = min n lineLimit := by
    simp only [LineBuffer.sizeFor, lineLimit]
    omega
  simp only [hsize]
  rcases htake : c.takeLine (min n lineLimit) with ⟨c', line⟩
  obtain ⟨hdraws, rfl⟩ := takeLine_spec h hr htake
  have hlimit : min n lineLimit < LineBuffer.sizeFor n := by
    simp only [LineBuffer.sizeFor, lineLimit]
    omega
  have hlen : (c.supply.line (min n lineLimit)).length < LineBuffer.sizeFor n := by
    rw [Supply.line_eq]
    exact Nat.lt_of_le_of_lt
      (Nat.le_trans (firstLine_isPrefix _).length_le (Supply.length_take_le _ _)) hlimit
  refine ⟨c', ?_, hdraws⟩
  by_cases hnil : c.supply.line (min n lineLimit) = []
  · simp only [hnil, List.isEmpty_nil, if_true, hdraws.gives.quiet.1, Bool.false_eq_true, if_false]
  · simp only [List.isEmpty_iff, if_neg hnil, LineBuffer.line_store hlen]

end Connection

end BufferedFiles
