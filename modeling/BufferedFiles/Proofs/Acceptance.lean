import BufferedFiles.Proofs.OutputLedger

/-!
# Bytes taken for output

A request for output is a buffer filled up, whole blocks and a tail. Whatever way its bytes take, they
are laid down in the account of the stream, or the count is short and the error indicator is set. One
case is neither: a line that fills no buffer is counted in full before it is handed on, so a failure
of that shows nowhere but in the indicator.
-/
namespace BufferedFiles

namespace Connection

variable {c c' : Connection} {d : Descriptor} {dev : Device} {bytes : Bytes} {n : Nat}

/-- Bytes put behind what is pending. -/
theorem gathered_spec (h : c.Ready) (hw : c.stream.writing = true) (bytes : Bytes) :
    c.Gathers (c.update fun s => { s with pending := s.pending ++ bytes }) bytes := by
  obtain ⟨⟨d, dev, hon⟩, halign⟩ := h
  refine ⟨⟨through_gathered c bytes, ⟨⟨d, dev, hon.toOver.work rfl rfl, ?_⟩, halign⟩, ?_, rfl,
    extent_update rfl rfl⟩, hw, ?_⟩
  · refine ⟨hon.fits.cursor, hon.fits.window, fun hno => ?_, ?_, hon.fits.offset⟩
    · rw [show c.stream.writing = false from hno] at hw
      cases hw
    · refine hon.fits.covers.imp_left fun ⟨happ, hne⟩ => ⟨happ, ?_⟩
      simp only [update, ne_eq, List.append_eq_nil_iff, not_and]
      exact fun hnil => absurd hnil hne
  · simp only [account, Account.lay_lay]
    rfl
  · intro hcalm hwriting hpending
    simp only [update, List.append_eq_nil_iff] at hpending
    obtain ⟨hnil, hbytes⟩ := hpending
    exact (hcalm.resolve_left (· hbytes)) hwriting hnil

/-- A drain in the middle of output. -/
theorem gathers_of_drain (h : c.Ready) (hw : c.stream.writing = true) (e : c.drain = (c', true)) :
    c.Gathers c' [] := by
  obtain ⟨hlays, hpend, hwriting, hleft⟩ := drain_ok h e
  refine ⟨hlays, by rw [hwriting, hw], ?_⟩
  intro hcalm _ _
  by_cases hnil : c.stream.pending = []
  · rw [drain_of_drained hnil, Prod.mk.injEq] at e
    rw [← e.1]
    exact (hcalm.resolve_left (· rfl)) hw hnil
  · exact hleft hnil

/-- A byte is put behind what is pending once there is room for it. -/
private theorem gathers_of_full (h : c.Ready) (hw : c.stream.writing = true)
    (e : (if c.stream.filled = c.stream.capacity then c.drain else (c, true)) = (c', true)) :
    c.Gathers c' [] := by
  split at e
  · exact gathers_of_drain h hw e
  · cases e
    exact ⟨.refl h, hw, fun hcalm => hcalm.resolve_left (· rfl)⟩

theorem put_ok (h : c.Ready) (hw : c.stream.writing = true) {x : UInt8} (e : c.put x = (c', true)) :
    c.Gathers c' [x] := by
  unfold put at e
  split at e
  · cases e
  · rename_i c₁ e₁
    have h₁ := gathers_of_full h hw e₁
    have h₂ := gathered_spec h₁.ready h₁.writing [x]
    dsimp only at e
    split at e
    · exact h₁.trans (h₂.trans (gathers_of_drain h₂.ready h₂.writing e))
    · cases e
      exact h₁.trans h₂

theorem put_fails (h : c.Ready) (hw : c.stream.writing = true) {x : UInt8} (e : c.put x = (c', false)) :
    c.Fails c' 1 := by
  unfold put at e
  split at e
  · rename_i c₁ e₁
    cases e
    split at e₁
    · exact (Lays.refl h).fails (drain_fails h e₁).1 (Nat.zero_le _)
    · cases e₁
  · rename_i c₁ e₁
    have h₁ := gathers_of_full h hw e₁
    have h₂ := gathered_spec h₁.ready h₁.writing [x]
    dsimp only at e
    split at e
    · exact (h₁.trans h₂).toLays.fails (drain_fails h₂.ready e).1 (Nat.le_refl _)
    · cases e

/-- What became of bytes that were to be gathered, told by the count of those that were. -/
structure Counts (a b : Connection) (bytes : Bytes) (n : Nat) : Prop where
  le : n ≤ bytes.length
  all : n = bytes.length → a.Gathers b bytes
  short : n < bytes.length → a.Fails b bytes.length

/-- What was gathered before is counted in front. -/
theorem Gathers.counts {c₁ c₂ : Connection} {xs ys : Bytes} {m : Nat} (h : c.Gathers c₁ xs)
    (h' : c₁.Counts c₂ ys m) : c.Counts c₂ (xs ++ ys) (xs.length + m) where
  le := by
    rw [List.length_append]
    exact Nat.add_le_add_left h'.le _
  all hn := by
    rw [List.length_append] at hn
    exact h.trans (h'.all (by omega))
  short hn := by
    rw [List.length_append] at hn ⊢
    exact h.toLays.fails (h'.short (by omega)) (Nat.le_refl _)

theorem putAll_spec (h : c.Ready) (hw : c.stream.writing = true) (e : c.putAll bytes = (c', n)) :
    c.Counts c' bytes n := by
  induction bytes generalizing c n with
  | nil =>
    cases e
    exact ⟨Nat.le_refl _, fun _ => ⟨.refl h, hw, fun hcalm => hcalm.resolve_left (· rfl)⟩,
      fun hlt => absurd hlt (Nat.lt_irrefl 0)⟩
  | cons x rest ih =>
    simp only [putAll] at e
    split at e
    · rename_i c₁ hput
      cases e
      exact ⟨Nat.zero_le _, fun hzero => (by cases hzero), fun _ => (Lays.refl h).fails (put_fails h hw hput) (by simp)⟩
    · rename_i c₁ hput
      have h₁ := put_ok h hw hput
      rcases hrest : c₁.putAll rest with ⟨c₂, m⟩
      simp only [hrest, Prod.mk.injEq] at e
      obtain ⟨rfl, rfl⟩ := e
      rw [Nat.add_comm]
      exact h₁.counts (ih h₁.ready h₁.writing hrest)

theorem gather_spec (h : c.Ready) (hw : c.stream.writing = true) (e : c.gather bytes = (c', n)) :
    c.Counts c' bytes n := by
  unfold gather at e
  dsimp only at e
  generalize hfits : min (c.stream.limit - c.stream.filled) bytes.length = k at e
  have hlen : (bytes.take k).length = k := by
    rw [List.length_take]
    omega
  have h₁ := gathered_spec h hw (bytes.take k)
  generalize hc₁ : (c.update fun s => { s with pending := s.pending ++ bytes.take k }) = c₁ at e h₁
  rcases hput : c₁.putAll (bytes.drop k) with ⟨c₂, m⟩
  simp only [hput, Prod.mk.injEq] at e
  obtain ⟨rfl, rfl⟩ := e
  have h₂ := h₁.counts (putAll_spec h₁.ready h₁.writing hput)
  rwa [List.take_append_drop, hlen] at h₂

theorem direct_le (s : Stream) (n : Nat) : s.direct n ≤ n := by
  unfold Stream.direct
  split
  · exact Nat.sub_le _ _
  · exact Nat.le_refl n

/-- Whole blocks handed on, with nothing pending before them. -/
private theorem gathers_of_send (h : c.Ready) (hw : c.stream.writing = true)
    (hp : c.stream.pending = []) (hb : bytes ≠ []) (e : c.send bytes = (c', bytes.length)) :
    c.Gathers c' bytes := by
  have hthrough := (through_send c bytes).of_eq e
  obtain ⟨⟨d, dev, hon⟩, halign⟩ := h
  obtain ⟨-, hon', hwin, hpend, hwriting, hsigns, -, hstanding⟩ := send_spec hon halign hb e
  have hleft := left_of_empty hwin
  have haccount : c'.account = c.account.lay bytes := by
    rw [account_of_drained hpend, account_of_drained hp, hstanding rfl]
  obtain ⟨d', dev', hon'⟩ := hon'
  refine ⟨⟨hthrough, ⟨⟨d', dev', hon'⟩, .inl hwin⟩, haccount, ?_, hon'.extent_lay hpend hon.opened haccount⟩,
    by rw [hwriting, hw], fun _ _ _ => hleft⟩
  rw [hsigns]
  simp [Stream.signs]

private theorem fails_of_send (h : c.Ready) (hp : c.stream.pending = []) (hb : bytes ≠ [])
    (e : c.send bytes = (c', n)) (hn : n < bytes.length) : c.Fails c' bytes.length := by
  have hthrough := (through_send c bytes).of_eq e
  obtain ⟨⟨d, dev, hon⟩, halign⟩ := h
  obtain ⟨-, hon', hwin, hpend, -, hsigns, -, -⟩ := send_spec hon halign hb e
  refine ⟨hthrough, ⟨hon', .inl hwin⟩, ?_, fun hw => ?_⟩
  · have hfailed := congrArg Prod.fst hsigns
    simpa [Stream.signs, hn] using hfailed
  · have htakes : c.Takes bytes.length := by
      rw [Willing, hp] at hw
      simpa using hw
    have := send_reliable hon halign htakes e
    omega

theorem passOver_spec (h : c.Ready) (hw : c.stream.writing = true) (hp : c.stream.pending = [])
    (e : c.passOver bytes = (c', n)) : c.Counts c' bytes n := by
  have hdirect := direct_le c.stream bytes.length
  unfold passOver at e
  dsimp only at e
  generalize c.stream.direct bytes.length = k at e hdirect
  split at e
  · exact gather_spec h hw e
  rename_i hk
  have hlen : (bytes.take k).length = k := by
    rw [List.length_take]
    omega
  have hne : bytes.take k ≠ [] := List.length_pos_iff.1 (by omega)
  rcases hsend : c.send (bytes.take k) with ⟨c₁, m⟩
  simp only [hsend] at e
  obtain ⟨⟨d, dev, hon⟩, halign⟩ := id h
  obtain ⟨hm, -⟩ := send_spec hon halign hne hsend
  split at e
  · rename_i hshort
    cases e
    have hfails := fails_of_send h hp hne hsend (by omega)
    refine ⟨by omega, fun hn => by omega, fun _ => (Lays.refl h).fails hfails ?_⟩
    rw [List.length_nil, Nat.zero_add, hlen]
    exact hdirect
  · rename_i hlong
    have hall : m = (bytes.take k).length := by omega
    subst hall
    have h₁ := gathers_of_send h hw hp hne hsend
    rcases hgather : c₁.gather (bytes.drop k) with ⟨c₂, j⟩
    simp only [hgather, Prod.mk.injEq] at e
    obtain ⟨rfl, rfl⟩ := e
    have h₂ := h₁.counts (gather_spec h₁.ready h₁.writing hgather)
    rwa [List.take_append_drop, hlen] at h₂

theorem lays_allocate (h : c.Ready) :
    c.Lays c.allocate [] ∧ c.allocate.stream.writing = c.stream.writing := by
  obtain ⟨⟨d, dev, hon⟩, halign⟩ := h
  have hon' := hon.allocate
  have hthrough := through_allocate c
  obtain ⟨k, -, -, e⟩ := allocate_spec hon.opened
  rw [e] at hon' hthrough ⊢
  exact ⟨⟨hthrough, ⟨⟨d, dev, hon'⟩, halign⟩, (Account.lay_nil _).symm, rfl,
    extent_update rfl (List.append_nil _).symm⟩, rfl⟩

/-- A stream that turns to output has lost nothing of its window that was not taken. -/
private theorem lays_turned (h : c.Ready) (hw : c.stream.writing = false) :
    c.Lays (c.update Stream.turned) [] := by
  have hthrough := through_turned c
  obtain ⟨⟨d, dev, hon⟩, halign⟩ := h
  have hnil := hon.fits.input hw
  by_cases hfull : c.stream.cursor = c.stream.capacity
  · have hleft : c.stream.left = [] := by
      have hcursor := hon.fits.cursor
      have hwindow := hon.fits.window
      rw [← List.length_eq_zero_iff, Stream.length_left]
      omega
    have hturned : c.stream.turned = { c.stream with
        window := [], cursor := 0, writing := true,
        limit := if c.stream.discipline = .full then c.stream.capacity else 0 } := by
      simp only [Stream.turned, if_pos hfull]
    have hon' : (c.update Stream.turned).On d dev := by
      simp only [update, hturned]
      exact Over.on_of_empty (hon.toOver.work rfl rfl) rfl rfl hnil
        fun p hp hreg hd => hon.fits.offset p hp hreg (.inr hd)
    refine ⟨hthrough, ⟨⟨d, dev, hon'⟩, .inl ?_⟩, ?_, ?_, extent_update ?_ ?_⟩
    · simp only [update, hturned]
    · have hstanding : (c.update Stream.turned).standing = c.standing := by
        rw [standing_eq hon'.opened, standing_eq hon.opened, hleft]
        simp only [update, hturned, Stream.left, List.drop_nil]
      rw [Account.lay_nil, account, account, hstanding]
      simp only [update, hturned]
    · simp only [update, hturned, Stream.signs]
    · simp only [hturned]
    · simp only [hturned, List.append_nil]
  · have hturned : c.stream.turned = { c.stream with
        writing := true,
        limit := if c.stream.discipline = .full then c.stream.capacity else c.stream.cursor } := by
      simp only [Stream.turned, if_neg hfull]
    have hon' : (c.update Stream.turned).On d dev := by
      simp only [update, hturned]
      exact ⟨hon.toOver.work rfl rfl, { hon.fits with input := fun hno => by cases hno }⟩
    refine ⟨hthrough, ⟨⟨d, dev, hon'⟩, ?_⟩, ?_, ?_, extent_update ?_ ?_⟩
    · simp only [update, hturned]
      exact halign
    · rw [Account.lay_nil]
      simp only [update, hturned]
      rfl
    · simp only [update, hturned, Stream.signs]
    · simp only [hturned]
    · simp only [hturned, List.append_nil]

/-- A stream about to make room: it has a buffer and is used for output. -/
private theorem lays_prepared (h : c.Ready) :
    c.Lays (if c.allocate.stream.writing then c.allocate else c.allocate.update Stream.turned) [] ∧
      (if c.allocate.stream.writing then c.allocate
        else c.allocate.update Stream.turned).stream.writing = true := by
  have h₁ := (lays_allocate h).1
  split
  · rename_i hw
    exact ⟨h₁, hw⟩
  · rename_i hw
    refine ⟨h₁.trans (lays_turned h₁.ready (by simpa using hw)), ?_⟩
    simp only [update, Stream.turned]

theorem makeRoom_ok (h : c.Ready) (hwrites : c.stream.writes = true) (e : c.makeRoom = (c', true)) :
    c.Lays c' [] ∧ c'.stream.pending = [] ∧ c'.stream.writing = true ∧
      (c.stream.pending ≠ [] → c'.stream.left = []) := by
  simp only [makeRoom, hwrites, Bool.not_true, Bool.false_eq_true, if_false] at e
  obtain ⟨h₁, hw⟩ := lays_prepared h
  obtain ⟨h₂, hpend, hwriting, hleft⟩ := drain_ok h₁.ready e
  refine ⟨h₁.trans h₂, hpend, by rw [hwriting, hw], fun hne => hleft ?_⟩
  obtain ⟨⟨d, dev, hon⟩, -⟩ := h
  obtain ⟨k, -, -, ea⟩ := allocate_spec hon.opened
  have hyes : c.stream.writing = true := by
    cases hno : c.stream.writing with
    | true => rfl
    | false => exact absurd (hon.fits.input hno) hne
  rw [ea]
  simp only [update, hyes, if_true]
  exact hne

theorem makeRoom_fails (h : c.Ready) (hwrites : c.stream.writes = true) (e : c.makeRoom = (c', false)) :
    c.Fails c' 0 ∧ c'.account.received.length < c.account.received.length := by
  simp only [makeRoom, hwrites, Bool.not_true, Bool.false_eq_true, if_false] at e
  obtain ⟨h₁, -⟩ := lays_prepared h
  obtain ⟨h₂, -, hlost⟩ := drain_fails h₁.ready e
  rw [h₁.account, Account.lay_nil] at hlost
  exact ⟨h₁.fails h₂ (Nat.le_refl _), hlost⟩

/-- A line stream takes bytes that fit its buffer and end a line, and hands the buffer to a device
that does not take all of it. Nothing is left to be taken after that, so the count is full. -/
def Swallows (c : Connection) (bytes : Bytes) : Prop :=
  c.stream.discipline = .line ∧ c.stream.writing = true ∧
    bytes.length ≤ c.stream.capacity - c.stream.filled ∧ bytes.getLast? = some newline ∧
    (c.update fun s => { s with pending := s.pending ++ bytes }).drain.2 = false

instance (c : Connection) (bytes : Bytes) : Decidable (c.Swallows bytes) := by
  unfold Swallows
  infer_instance

/-- The bytes behind the last line end, counted from the end. -/
theorem idxOf_reverse_eq_zero_iff (hb : bytes ≠ []) :
    bytes.reverse.idxOf newline = 0 ↔ bytes.getLast? = some newline := by
  rw [← List.head?_reverse]
  have hne : bytes.reverse ≠ [] := by simpa using hb
  cases hr : bytes.reverse with
  | nil => exact absurd hr hne
  | cons x rest =>
    by_cases hx : x = newline
    · simp [hx]
    · have hbeq : (x == newline) = false := by simpa using hx
      simp only [List.idxOf_cons, hbeq, cond_false, List.head?_cons, Option.some.injEq, hx, iff_false]
      exact Nat.succ_ne_zero _

/-- What is taken at once, and when all of it is and the buffer is handed on nevertheless. -/
theorem room_spec (s : Stream) (hb : bytes ≠ []) :
    (s.writing = false → (s.room bytes).1 = 0) ∧
      ((s.discipline = .line ∧ s.writing = true ∧ bytes.length ≤ s.capacity - s.filled ∧
        bytes.getLast? = some newline) ↔
        min (s.room bytes).1 bytes.length = bytes.length ∧ (s.room bytes).2 = true) := by
  have hpos : 0 < bytes.length := List.length_pos_iff.2 hb
  have hidx := idxOf_reverse_eq_zero_iff hb
  unfold Stream.room
  cases hw : s.writing with
  | false => simp
  | true =>
    refine ⟨nofun, ?_⟩
    by_cases hl : s.discipline = .line
    · simp only [Bool.not_true, Bool.false_eq_true, if_false, hl, if_true, true_and]
      by_cases hfree : bytes.length ≤ s.capacity - s.filled
      · by_cases hmem : newline ∈ bytes
        · have hlt : bytes.reverse.idxOf newline < bytes.length := by
            have := List.idxOf_lt_length_of_mem (List.mem_reverse.2 hmem)
            simpa using this
          have hcond : (decide (bytes.length ≤ s.capacity - s.filled) && bytes.contains newline) = true := by
            simp [hfree, hmem]
          rw [if_pos hcond]
          dsimp only
          rw [← hidx]
          constructor
          · rintro ⟨-, hzero⟩
            exact ⟨by omega, rfl⟩
          · rintro ⟨hmin, -⟩
            exact ⟨hfree, by omega⟩
        · have hcond : ¬ (decide (bytes.length ≤ s.capacity - s.filled) && bytes.contains newline) = true := by
            simp [hmem]
          simp only [if_neg hcond, Bool.false_eq_true, and_false, iff_false, not_and]
          intro _ hlast
          exact hmem (List.mem_of_getLast? hlast)
      · have hcond : ¬ (decide (bytes.length ≤ s.capacity - s.filled) && bytes.contains newline) = true := by
          simp [hfree]
        simp only [if_neg hcond, Bool.false_eq_true, and_false, iff_false, not_and]
        exact fun hle => absurd hle hfree
    · simp [hl]

/-- What is taken of the bytes before the buffer is handed on. -/
private theorem lays_first (h : c.Ready) (bytes : Bytes) (k : Nat)
    (hk : c.stream.writing = false → k = 0) :
    c.Lays (c.update fun s => { s with pending := s.pending ++ bytes.take k }) (bytes.take k) := by
  cases hw : c.stream.writing with
  | true => exact (gathered_spec h hw _).toLays
  | false =>
    have hc : (c.update fun s => { s with pending := s.pending ++ bytes.take k }) = c := by
      simp only [hk hw, List.take_zero, List.append_nil, update]
    rw [hc, hk hw, List.take_zero]
    exact .refl h

/-- A stream with a buffer that is used for output makes room by handing on what is pending. -/
theorem makeRoom_eq_drain (hwrites : c.stream.writes = true) (hw : c.stream.writing = true)
    (hcap : c.stream.capacity ≠ 0) : c.makeRoom = c.drain := by
  have ha : c.allocate = c := by rw [allocate, if_pos hcap]
  have hno : ¬ (!c.stream.writes) = true := by simp [hwrites]
  rw [makeRoom, if_neg hno, ha]
  dsimp only
  rw [if_pos hw]

/-- Bytes are swallowed when all of them are taken at once, are handed on, and do not arrive. -/
private theorem swallows_iff (hwrites : c.stream.writes = true) (hb : bytes ≠ []) {free : Nat}
    {handOn : Bool} (hr : c.stream.room bytes = (free, handOn)) :
    c.Swallows bytes ↔ min free bytes.length = bytes.length ∧ handOn = true ∧
      (c.update fun s => { s with pending := s.pending ++ bytes.take (min free bytes.length) }).makeRoom.2 =
        false := by
  obtain ⟨-, hroom⟩ := room_spec c.stream hb
  rw [hr] at hroom
  -- A line that ends and fits needs no more room than there is, so the hand-over is a plain drain.
  have hhand : c.stream.writing = true → bytes.length ≤ c.stream.capacity - c.stream.filled →
      (c.update fun s => { s with pending := s.pending ++ bytes }).makeRoom =
        (c.update fun s => { s with pending := s.pending ++ bytes }).drain := by
    intro hwriting hfree
    have hpos : 0 < bytes.length := List.length_pos_iff.2 hb
    have hcap : c.stream.capacity ≠ 0 := by omega
    exact makeRoom_eq_drain hwrites hwriting hcap
  constructor
  · rintro ⟨hline, hwriting, hfree, hlast, hlost⟩
    obtain ⟨hall, hon⟩ := hroom.1 ⟨hline, hwriting, hfree, hlast⟩
    refine ⟨hall, hon, ?_⟩
    rw [hall, List.take_length, hhand hwriting hfree]
    exact hlost
  · rintro ⟨hall, hon, hlost⟩
    obtain ⟨hline, hwriting, hfree, hlast⟩ := hroom.2 ⟨hall, hon⟩
    rw [hall, List.take_length, hhand hwriting hfree] at hlost
    exact ⟨hline, hwriting, hfree, hlast, hlost⟩

/-- Room that was made for bytes: what was taken of them before, and nothing left of the window. -/
private theorem makeRoom_taken {c₁ : Connection} {k : Nat} (h : c.Ready) (hwrites : c.stream.writes = true)
    (hk : c.stream.writing = false → k = 0)
    (e : (c.update fun s => { s with pending := s.pending ++ bytes.take k }).makeRoom = (c₁, true)) :
    c.Lays c₁ (bytes.take k) ∧ c₁.stream.pending = [] ∧ c₁.stream.writing = true ∧
      (bytes.take k ≠ [] → c₁.stream.left = []) := by
  have h₁ := lays_first h bytes k hk
  obtain ⟨h₂, hpend, hwriting, hleft⟩ := makeRoom_ok h₁.ready hwrites e
  have h₁₂ := h₁.trans h₂
  rw [List.append_nil] at h₁₂
  refine ⟨h₁₂, hpend, hwriting, fun hne => hleft ?_⟩
  simp only [update, ne_eq, List.append_eq_nil_iff, not_and]
  exact fun _ => hne

/-- What remains of the bytes passes over the room that was made: all of it is laid down, or the count is short and
the failure shows. -/
private theorem passOver_taken {c₁ : Connection} {k m : Nat} (h : c.Ready) (hwrites : c.stream.writes = true)
    (hb : bytes ≠ []) (hk : k ≤ bytes.length) (hidle : c.stream.writing = false → k = 0)
    (hroom : (c.update fun s => { s with pending := s.pending ++ bytes.take k }).makeRoom = (c₁, true))
    (hpass : c₁.passOver (bytes.drop k) = (c', m)) :
    (k + m = bytes.length ∧ c.Lays c' bytes ∧ c'.Calm) ∨ (k + m < bytes.length ∧ c.Fails c' bytes.length) := by
  obtain ⟨h₁, hpend, hwriting, hleft⟩ := makeRoom_taken h hwrites hidle hroom
  have h₂ := passOver_spec h₁.ready hwriting hpend hpass
  have hm := h₂.le
  rw [List.length_drop] at hm
  by_cases hall : m = (bytes.drop k).length
  · have hlays := h₁.trans (h₂.all hall).toLays
    have hcalm := (h₂.all hall).calm
    rw [List.take_append_drop] at hlays
    rw [List.length_drop] at hall
    refine .inl ⟨by omega, hlays, hcalm ?_⟩
    by_cases hrest : bytes.drop k = []
    · refine .inr fun _ _ => hleft fun hnone => hb ?_
      rw [← List.take_append_drop k bytes, hnone, hrest]
      rfl
    · exact .inl hrest
  · have hshort : m < (bytes.drop k).length := by
      rw [List.length_drop] at hall ⊢
      omega
    have hfails := h₁.fails (k := bytes.length) (h₂.short hshort)
      (by rw [List.length_take, List.length_drop]; omega)
    rw [List.length_drop] at hshort
    exact .inr ⟨by omega, hfails⟩

/-- Bytes taken for output are laid down, or the count is short and the failure shows, or they are
swallowed. -/
theorem accept_spec (h : c.Ready) (hwrites : c.stream.writes = true) (hb : bytes ≠ [])
    (e : c.accept bytes = (c', n)) :
    (¬ c.Swallows bytes ∧ n = bytes.length ∧ c.Lays c' bytes ∧ c'.Calm) ∨
      (¬ c.Swallows bytes ∧ n < bytes.length ∧ c.Fails c' bytes.length) ∨
      (c.Swallows bytes ∧ n = bytes.length ∧ c.Fails c' bytes.length ∧
        c'.account.received.length < c.account.received.length + bytes.length) := by
  unfold accept at e
  rcases hr : c.stream.room bytes with ⟨free, handOn⟩
  have hswallow := swallows_iff hwrites hb hr
  have hidle := (room_spec c.stream hb).1
  simp only [hr] at e hidle
  have hk : min free bytes.length ≤ bytes.length := Nat.min_le_right _ _
  have hidle : c.stream.writing = false → min free bytes.length = 0 := fun hw => by rw [hidle hw, Nat.zero_min]
  generalize min free bytes.length = k at e hswallow hk hidle
  have h₁ := lays_first h bytes k hidle
  split at e
  · -- All bytes are gathered and wait for more.
    rename_i hall
    cases e
    simp only [Bool.and_eq_true, Bool.not_eq_true', decide_eq_true_eq] at hall
    obtain ⟨rfl, hoff⟩ := hall
    rw [List.take_length] at h₁ ⊢
    refine .inl ⟨fun hs => ?_, rfl, h₁, fun _ hp => ?_⟩
    · rw [(hswallow.1 hs).2.1] at hoff
      cases hoff
    · simp only [update, List.append_eq_nil_iff] at hp
      exact absurd hp.2 hb
  rename_i hmore
  split at e
  · -- The hand-over fails: the count tells, unless all bytes were taken before it.
    rename_i c₁ hroom
    obtain ⟨h₂, hlost⟩ := makeRoom_fails h₁.ready hwrites hroom
    have hfails := h₁.fails (k := bytes.length) h₂ (by rw [List.length_take]; omega)
    simp only [Prod.mk.injEq] at e
    obtain ⟨rfl, rfl⟩ := e
    by_cases hall : k = bytes.length
    · refine .inr (.inr ⟨hswallow.2 ⟨hall, by simpa [hall] using hmore, by rw [hroom]⟩, hall, hfails, ?_⟩)
      rw [h₁.account, Account.lay, List.length_append, List.length_take] at hlost
      omega
    · exact .inr (.inl ⟨fun hs => hall (hswallow.1 hs).1, by omega, hfails⟩)
  · -- There is room again, and what remains passes over.
    rename_i c₁ hroom
    have hquiet : ¬ c.Swallows bytes := fun hs => by
      have hlost := (hswallow.1 hs).2.2
      rw [hroom] at hlost
      cases hlost
    rcases hpass : c₁.passOver (bytes.drop k) with ⟨c₂, m⟩
    simp only [hpass, Prod.mk.injEq] at e
    obtain ⟨rfl, rfl⟩ := e
    rcases passOver_taken h hwrites hb hk hidle hroom hpass with ⟨hn, hlays, hcalm⟩ | ⟨hn, hfails⟩
    · exact .inl ⟨hquiet, hn, hlays, hcalm⟩
    · exact .inr (.inl ⟨hquiet, hn, hfails⟩)

theorem endOutput_ok (h : c.Ready) (e : c.endOutput = (c', true)) :
    c.Lays c' [] ∧ c'.stream.pending = [] ∧ c'.stream.writing = false ∧
      (c.Calm → c.stream.writing = true → c'.stream.left = []) ∧
      (c.stream.writing = false → c' = c) := by
  unfold endOutput at e
  split at e
  · rename_i hw
    have hw : c.stream.writing = false := by simpa using hw
    cases e
    obtain ⟨⟨d, dev, hon⟩, -⟩ := id h
    refine ⟨.refl h, hon.fits.input hw, hw, fun _ hyes => ?_, fun _ => rfl⟩
    rw [hw] at hyes
    cases hyes
  · rename_i hw
    have hw : c.stream.writing = true := by simpa using hw
    split at e
    · cases e
    · rename_i c₁ hdrain
      cases e
      obtain ⟨h₁, hpend, hwriting, hleft⟩ := drain_ok h hdrain
      have hcalm := (gathers_of_drain h hw hdrain).calm
      obtain ⟨⟨d, dev, hon⟩, halign⟩ := h₁.ready
      have hon' : (c₁.update ({ · with writing := false })).On d dev :=
        ⟨hon.toOver.work rfl rfl, { hon.fits with input := fun _ => hpend }⟩
      refine ⟨⟨?_, ⟨⟨d, dev, hon'⟩, halign⟩, h₁.account, h₁.signs, h₁.extent⟩, hpend, rfl, ?_, ?_⟩
      · exact h₁.through.trans (through_work _ .working)
      · exact fun hc _ => hcalm (.inr hc) (by rw [hwriting, hw]) hpend
      · intro hno
        rw [hw] at hno
        cases hno

theorem endOutput_fails (h : c.Ready) (e : c.endOutput = (c', false)) :
    c.Fails c' 0 ∧ c.stream.pending ≠ [] := by
  unfold endOutput at e
  split at e
  · cases e
  · split at e
    · rename_i c₁ hdrain
      cases e
      obtain ⟨hfails, hne, -⟩ := drain_fails h hdrain
      exact ⟨hfails, hne⟩
    · cases e

end Connection

end BufferedFiles
