import BufferedFiles.Proofs.Acceptance
import BufferedFiles.Proofs.LastError

/-!
# The error indicator

The indicator of a stream is set by a transfer of the device that fails. A read, a write or a flush that
reports such a failure clears it again. Where it stays, an operation looked elsewhere: a line was counted
or given out before the failure was looked at, or a move or a change of discipline could not hand on what
was pending.
-/
namespace BufferedFiles

namespace Connection

variable {c c' : Connection} {bytes : Bytes} {n : Nat}

/-- The device stands where the pending output goes, and does not take all of it. -/
def Balks (c : Connection) : Prop := c.align.2 = true ∧ c.drain.2 = false

theorem failed_allocate (c : Connection) : c.allocate.stream.failed = c.stream.failed :=
  (allocate_blamed c .success).1

theorem failed_align (c : Connection) : c.align.1.stream.failed = c.stream.failed := by
  unfold align
  split
  · rfl
  · split
    · rfl
    · split <;> rfl

theorem send_le (c : Connection) (bytes : Bytes) : (c.send bytes).2 ≤ bytes.length := by
  unfold send
  split
  · exact Nat.zero_le _
  · exact System.writeAll_le _ _ _ _

/-- Bytes that are handed on in part set the indicator, unless the device could not be moved first. -/
theorem failed_send (c : Connection) (bytes : Bytes) :
    (c.send bytes).1.stream.failed = true ↔
      c.stream.failed = true ∨ c.align.2 = true ∧ (c.send bytes).2 < bytes.length := by
  have hkeep := failed_align c
  unfold send
  rcases halign : c.align with ⟨c₁, _ | _⟩ <;> rw [halign] at hkeep
  · simp [← hkeep]
  · simp [Stream.handedOn, Stream.emptied, ← hkeep]

theorem failed_drain (c : Connection) :
    c.drain.1.stream.failed = true ↔ c.stream.failed = true ∨ c.Balks := by
  have hle := send_le c c.stream.pending
  unfold Balks drain
  split
  · simp
  · rw [failed_send]
    simp only [beq_eq_false_iff_ne]
    refine or_congr_right (and_congr_right fun _ => ?_)
    omega

theorem failed_drain_ok (e : c.drain = (c', true)) : c'.stream.failed = c.stream.failed := by
  have h := failed_drain c
  simp only [Balks, e, Bool.true_eq_false, and_false, or_false] at h
  exact Bool.eq_iff_iff.2 h

theorem failed_endOutput (c : Connection) :
    c.endOutput.1.stream.failed = true ↔
      c.stream.failed = true ∨ c.stream.writing = true ∧ c.Balks := by
  have h := failed_drain c
  unfold endOutput
  cases hw : c.stream.writing with
  | false => simp
  | true =>
    simp only [Bool.not_true, Bool.false_eq_true, if_false, true_and]
    rw [← h]
    rcases c.drain with ⟨c₁, _ | _⟩ <;> rfl

theorem endOutput_of_balks (hw : c.stream.writing = true) (h : c.Balks) : c.endOutput.2 = false := by
  obtain ⟨-, hdrain⟩ := h
  unfold endOutput
  rcases hd : c.drain with ⟨c₁, _ | _⟩ <;> rw [hd] at hdrain
  · simp [hw]
  · cases hdrain

theorem failed_endOutput_ok (e : c.endOutput = (c', true)) : c'.stream.failed = c.stream.failed := by
  have h := failed_endOutput c
  rw [e] at h
  refine Bool.eq_iff_iff.2 (h.trans (or_iff_left fun ⟨hw, hb⟩ => ?_))
  have hfalse := endOutput_of_balks hw hb
  rw [e] at hfalse
  cases hfalse

theorem failed_fill_ok (e : c.fill = (c', true)) : c'.stream.failed = c.stream.failed := by
  unfold fill at e
  split at e
  · cases e
  rename_i c₁ hend
  split at e
  · cases e
  split at e
  · cases e
  dsimp only at e
  split at e <;> cases e
  exact (failed_allocate c₁).trans (failed_endOutput_ok hend)

theorem failed_readPast_ok {got : Bytes} (e : c.readPast n = (c', got)) (hgot : got ≠ []) :
    c'.stream.failed = c.stream.failed := by
  unfold readPast at e
  dsimp only at e
  split at e <;> cases e
  · exact absurd rfl hgot
  · exact absurd rfl hgot
  · rfl

/-- Input that comes in full leaves the indicator as it was. -/
theorem failed_takeRounds_full {rounds : Nat} {got : Bytes} (e : takeRounds rounds c n = (c', got))
    (hall : n ≤ got.length) : c'.stream.failed = c.stream.failed := by
  induction rounds generalizing c n got with
  | zero =>
    cases e
    rfl
  | succ rounds ih =>
    simp only [takeRounds] at e
    generalize hfound : c.stream.ahead.take n = found at e
    have hle : found.length ≤ n := by rw [← hfound]; exact List.length_take_le _ _
    split at e
    · cases e
      rfl
    rename_i hmissing
    split at e
    · split at e
      · cases e
        omega
      rename_i c₂ hfill
      rcases hrest : takeRounds rounds c₂ (n - found.length) with ⟨c₃, more⟩
      simp only [hrest, Prod.mk.injEq] at e
      obtain ⟨rfl, rfl⟩ := e
      rw [List.length_append] at hall
      exact (ih hrest (by omega)).trans ((failed_fill_ok hfill).trans rfl)
    · split at e
      · cases e
        omega
      rename_i c₂ bytes hne hread
      rcases hrest : takeRounds rounds c₂ (n - found.length - bytes.length) with ⟨c₃, more⟩
      simp only [hrest, Prod.mk.injEq] at e
      obtain ⟨rfl, rfl⟩ := e
      simp only [List.length_append] at hall
      exact (ih hrest (by omega)).trans ((failed_readPast_ok hread hne).trans rfl)

/-- A read reports the failure it meets, now or with the next read, and clears it. -/
theorem failed_read (n : Nat) (h : c.stream.failed = false) :
    (c.read n).1.stream.failed = false := by
  unfold read
  split
  · exact h
  split
  · exact h
  rcases htake : c.take n with ⟨c₁, bytes⟩
  dsimp only
  split
  · split <;> rfl
  · rename_i hquiet
    simp only [Bool.and_eq_true, decide_eq_true_eq, not_and, Bool.not_eq_true] at hquiet
    by_cases hlt : bytes.length < n
    · exact hquiet hlt
    · rw [failed_takeRounds_full htake (by omega), failed_allocate, h]

/-- A line of which some bytes came before the device had nothing more yet. -/
def CutsShort (c : Connection) (n : Nat) : Prop :=
  (takeLineRounds n c n).2 ≠ [] ∧ (takeLineRounds n c n).1.stream.failed = true ∧
    (takeLineRounds n c n).1.system.lastError = .wouldBlock

theorem failed_readLine (max : Nat) (h : c.stream.failed = false) :
    (c.readLine max).1.stream.failed = true ↔
      max ≠ 0 ∧ c.stream.held = none ∧ c.CutsShort (LineBuffer.sizeFor max - 1) := by
  have hclear : c.update ({ · with failed := false }) = c := by
    rcases c with ⟨s, sys⟩
    cases s
    cases h
    rfl
  unfold readLine CutsShort
  split
  · rename_i hmax
    simp [h, hmax]
  rename_i hmax
  split
  · rename_i e hheld
    simp [update, h, hheld]
  rename_i hheld
  simp only [takeLine, hclear]
  rcases takeLineRounds (LineBuffer.sizeFor max - 1) c (LineBuffer.sizeFor max - 1) with ⟨q, line⟩
  dsimp only [update]
  by_cases hline : line = [] <;> cases hfailed : q.stream.failed <;>
    by_cases herror : q.system.lastError = .wouldBlock <;>
    simp [hmax, hheld, hline, herror, h, fault, update, Stream.settled]

theorem failed_put_ok {b : UInt8} (e : c.put b = (c', true)) : c'.stream.failed = c.stream.failed := by
  unfold put at e
  split at e
  · cases e
  rename_i c₁ hfull
  have hfirst : c₁.stream.failed = c.stream.failed := by
    split at hfull
    · exact failed_drain_ok hfull
    · cases hfull
      rfl
  dsimp only at e
  split at e
  · exact (failed_drain_ok e).trans hfirst
  · cases e
    exact hfirst

/-- Bytes that are all gathered leave the indicator as it was. -/
theorem failed_putAll (c : Connection) (bytes : Bytes) :
    (c.putAll bytes).2 ≤ bytes.length ∧
      ((c.putAll bytes).2 = bytes.length → (c.putAll bytes).1.stream.failed = c.stream.failed) := by
  induction bytes generalizing c with
  | nil => exact ⟨Nat.le_refl _, fun _ => rfl⟩
  | cons b rest ih =>
    simp only [putAll]
    split
    · exact ⟨Nat.zero_le _, fun h => by cases h⟩
    · rename_i c₁ hput
      obtain ⟨hle, hall⟩ := ih c₁
      refine ⟨Nat.succ_le_succ hle, fun hn => ?_⟩
      exact (hall (Nat.succ.inj hn)).trans (failed_put_ok hput)

theorem failed_gather (c : Connection) (bytes : Bytes) :
    (c.gather bytes).2 ≤ bytes.length ∧
      ((c.gather bytes).2 = bytes.length → (c.gather bytes).1.stream.failed = c.stream.failed) := by
  unfold gather
  dsimp only
  generalize hk : min (c.stream.limit - c.stream.filled) bytes.length = k
  obtain ⟨hle, hall⟩ :=
    failed_putAll (c.update fun s => { s with pending := s.pending ++ bytes.take k }) (bytes.drop k)
  rw [List.length_drop] at hle hall
  exact ⟨by omega, fun hn => (hall (by omega)).trans rfl⟩

theorem failed_passOver (c : Connection) (bytes : Bytes) :
    (c.passOver bytes).2 ≤ bytes.length ∧
      ((c.passOver bytes).2 = bytes.length → (c.passOver bytes).1.stream.failed = c.stream.failed) := by
  have hdirect := direct_le c.stream bytes.length
  unfold passOver
  dsimp only
  generalize c.stream.direct bytes.length = k at hdirect
  split
  · exact failed_gather c bytes
  have hlen : (bytes.take k).length = k := by
    rw [List.length_take]
    omega
  have hle := send_le c (bytes.take k)
  have hsend := failed_send c (bytes.take k)
  rw [hlen] at hle hsend
  split
  · exact ⟨by omega, fun hn => by omega⟩
  · rename_i hk
    obtain ⟨hgather, hall⟩ := failed_gather (c.send (bytes.take k)).1 (bytes.drop k)
    rw [List.length_drop] at hgather hall
    refine ⟨by omega, fun hn => (hall (by omega)).trans (Bool.eq_iff_iff.2 (hsend.trans ?_))⟩
    exact or_iff_left fun ⟨_, hlt⟩ => hk hlt

theorem failed_makeRoom_ok (e : c.makeRoom = (c', true)) : c'.stream.failed = c.stream.failed := by
  unfold makeRoom at e
  split at e
  · cases e
  · refine (failed_drain_ok e).trans (Eq.trans ?_ (failed_allocate c))
    split
    · rfl
    · simp only [update, Stream.turned]
      split <;> rfl

/-- A line that fits the buffer is counted in full and then handed to a device that balks, or to none
where the stream is for input only. -/
def Withholds (c : Connection) (bytes : Bytes) : Prop :=
  c.stream.discipline = .line ∧ c.stream.writing = true ∧
    bytes.length ≤ c.stream.capacity - c.stream.filled ∧ bytes.getLast? = some newline ∧
    (c.stream.writes = true → (c.update fun s => { s with pending := s.pending ++ bytes }).Balks)

/-- Bytes that no room could be made for behind those taken at once. -/
private theorem failed_makeRoom_fails (hb : bytes ≠ []) (h : c.stream.failed = false)
    (hfits : c.stream.writing = true ∧ bytes.length ≤ c.stream.capacity - c.stream.filled)
    (e : (c.update fun s => { s with pending := s.pending ++ bytes }).makeRoom = (c', false)) :
    c'.stream.failed = true ↔
      (c.stream.writes = true → (c.update fun s => { s with pending := s.pending ++ bytes }).Balks) := by
  have hpos : 0 < bytes.length := List.length_pos_iff.2 hb
  cases hw : c.stream.writes with
  | false =>
    simp only [makeRoom, update, hw, Bool.not_false, if_true, Prod.mk.injEq, and_true] at e
    simp [← e, refuse]
  | true =>
    have hcap : c.stream.capacity ≠ 0 := by omega
    rw [makeRoom_eq_drain (c := c.update fun s => { s with pending := s.pending ++ bytes }) hw
      hfits.1 hcap] at e
    have hdrain := failed_drain (c.update fun s => { s with pending := s.pending ++ bytes })
    rw [e] at hdrain
    simpa [update, h] using hdrain

/-- What is counted, and when the indicator is set although everything is. -/
theorem failed_accept (hb : bytes ≠ []) (h : c.stream.failed = false) (e : c.accept bytes = (c', n)) :
    n ≤ bytes.length ∧ (n = bytes.length → (c'.stream.failed = true ↔ c.Withholds bytes)) ∧
      (n < bytes.length → ¬ c.Withholds bytes) := by
  obtain ⟨-, hroom⟩ := room_spec c.stream hb
  unfold accept at e
  rcases hr : c.stream.room bytes with ⟨free, handOn⟩
  rw [hr] at hroom e
  dsimp only at hroom e
  generalize hk : min free bytes.length = k at hroom e
  have hkle : k ≤ bytes.length := by omega
  -- Only bytes that are all taken at once and then handed on can be withheld.
  have hwithheld : c.Withholds bytes → k = bytes.length ∧ handOn = true :=
    fun ⟨hline, hw, hfits, hlast, _⟩ => hroom.1 ⟨hline, hw, hfits, hlast⟩
  split at e
  · rename_i hall
    simp only [Bool.and_eq_true, decide_eq_true_eq, Bool.not_eq_true'] at hall
    cases e
    refine ⟨hkle, fun _ => ?_, fun hlt => by omega⟩
    refine iff_of_false (by simp [update, h]) fun hwh => ?_
    rw [(hwithheld hwh).2] at hall
    cases hall.2
  split at e
  · rename_i c₁ hmake
    cases e
    refine ⟨hkle, fun hall => ?_, fun hlt hwh => by have := (hwithheld hwh).1; omega⟩
    rename_i hmore
    have hon : handOn = true := by simpa [hall] using hmore
    obtain ⟨hline, hw, hfits, hlast⟩ := hroom.2 ⟨hall, hon⟩
    rw [hall, List.take_length] at hmake
    rw [failed_makeRoom_fails hb h ⟨hw, hfits⟩ hmake]
    exact ⟨fun hbalks => ⟨hline, hw, hfits, hlast, hbalks⟩, fun hwh => hwh.2.2.2.2⟩
  · rename_i c₁ hmake
    have hfailed := failed_makeRoom_ok hmake
    obtain ⟨hle, hfull⟩ := failed_passOver c₁ (bytes.drop k)
    rcases hpass : c₁.passOver (bytes.drop k) with ⟨c₂, m⟩
    rw [hpass, List.length_drop] at hle hfull
    simp only [hpass, Prod.mk.injEq] at e
    obtain ⟨rfl, rfl⟩ := e
    have hquiet : ¬ c.Withholds bytes := fun hwh => by
      obtain ⟨hall, -⟩ := hwithheld hwh
      obtain ⟨-, hw, hfits, -, hbalks⟩ := hwh
      have hpos : 0 < bytes.length := List.length_pos_iff.2 hb
      have hcap : c.stream.capacity ≠ 0 := by omega
      rw [hall, List.take_length] at hmake
      cases hwr : c.stream.writes with
      | false => simp [makeRoom, update, hwr] at hmake
      | true =>
        rw [makeRoom_eq_drain (c := c.update fun s => { s with pending := s.pending ++ bytes }) hwr hw
          hcap] at hmake
        have hno := (hbalks hwr).2
        rw [hmake] at hno
        cases hno
    refine ⟨by dsimp only at hle; omega, fun hn => ?_, fun _ => hquiet⟩
    refine iff_of_false ?_ hquiet
    rw [hfull (by dsimp only; omega), hfailed]
    simp [update, h]

/-- A write looks at the indicator only where its count is short. -/
theorem failed_write (bytes : Bytes) (h : c.stream.failed = false) :
    (c.write bytes).1.stream.failed = true ↔ c.Withholds bytes := by
  unfold write
  split
  · rename_i hnil
    rw [List.isEmpty_iff] at hnil
    simp [h, hnil, Withholds]
  rename_i hne
  rcases haccept : c.accept bytes with ⟨c₁, n⟩
  obtain ⟨hle, hall, hshort⟩ := failed_accept (by simpa using hne) h haccept
  dsimp only
  by_cases hn : n < bytes.length
  · refine iff_of_false ?_ (hshort hn)
    cases hfailed : c₁.stream.failed <;> simp [hn, hfailed, fault, update, Stream.settled]
  · simp only [hn, decide_false, Bool.false_and, Bool.false_eq_true, if_false]
    exact hall (by omega)

theorem failed_sync (c : Connection) :
    c.sync.1.stream.failed = true ↔ c.stream.failed = true ∨ c.Balks := by
  rw [← failed_drain]
  unfold sync
  split <;> rename_i hdrain <;> rw [hdrain]
  split
  · rfl
  · split
    · rfl
    · split <;> rfl

theorem sync_of_balks (h : c.Balks) : c.sync.2 = false := by
  obtain ⟨-, hdrain⟩ := h
  unfold sync
  split <;> rename_i hd <;> rw [hd] at hdrain
  cases hdrain

theorem failed_flush (h : c.stream.failed = false) : c.flush.1.stream.failed = false := by
  have hiff := failed_sync c
  unfold flush
  rcases hsync : c.sync with ⟨c₁, _ | _⟩
  · rfl
  · rw [hsync] at hiff
    dsimp only
    rw [← Bool.not_eq_true, hiff, h]
    rintro (hno | hbalks)
    · cases hno
    · have hfalse := sync_of_balks hbalks
      rw [hsync] at hfalse
      cases hfalse

theorem failed_moveDevice (c : Connection) (origin : Origin) (offset : Int) :
    (c.moveDevice origin offset).1.stream.failed = c.stream.failed := by
  unfold moveDevice
  split <;> rfl

theorem failed_resolve (c : Connection) (origin : Origin) (offset : Int) :
    (c.resolve origin offset).1.stream.failed = c.stream.failed :=
  congrArg Stream.failed (resolve_stream c origin offset)

theorem failed_approach (c : Connection) (target : Int) (exact : Bool) :
    (c.approach target exact).1.stream.failed = c.stream.failed := by
  unfold approach
  dsimp only
  split
  · rfl
  split
  · rfl
  split
  · exact failed_moveDevice _ _ _
  · split
    · exact failed_moveDevice _ _ _
    · rfl

theorem failed_arrive (c : Connection) (origin : Origin) (offset : Int) (exact : Bool) :
    (c.arrive origin offset exact).1.stream.failed = c.stream.failed := by
  unfold arrive
  split
  · split
    · rfl
    · split
      · exact failed_approach _ _ _
      · exact failed_moveDevice _ _ _
  · exact failed_moveDevice _ _ _

theorem failed_move (c : Connection) (origin : Origin) (offset : Int) :
    (c.move origin offset).1.stream.failed = true ↔
      c.stream.failed = true ∨ c.stream.writing = true ∧ c.Balks := by
  rw [← failed_endOutput]
  unfold move
  dsimp only
  split <;> rename_i c₁ hend <;> rw [hend]
  have hresolve := failed_resolve c₁.allocate origin offset
  rw [failed_allocate] at hresolve
  split <;> rename_i hr <;> rw [hr] at hresolve
  · rw [hresolve]
  · rw [failed_arrive, hresolve]

theorem failed_tell (c : Connection) : c.tell.1.stream.failed = c.stream.failed := by
  have hbase : (if c.stream.appends && !c.stream.pending.isEmpty then c.appendPosition
      else c.devicePosition).1.stream.failed = c.stream.failed := by
    split
    · unfold appendPosition
      split <;> rfl
    · unfold devicePosition
      split
      · rfl
      · split <;> rfl
  have hposition : c.position.1.stream.failed = c.stream.failed := by
    unfold position
    split <;> rename_i hq <;> rw [hq] at hbase
    · exact hbase
    · dsimp only
      split <;> exact hbase
  unfold tell
  split <;> rename_i hp <;> rw [hp] at hposition <;> exact hposition

/-- A move that cannot hand on what is pending leaves the indicator set. -/
theorem failed_seek (target : Target) (h : c.stream.failed = false) :
    (c.seek target).1.stream.failed = true ↔
      target.parts? ≠ none ∧ c.stream.writing = true ∧ c.Balks := by
  unfold seek
  cases target.parts? with
  | none => simp [h]
  | some parts =>
    obtain ⟨origin, offset⟩ := parts
    have hmove := failed_move c origin offset
    dsimp only
    simp only [h, Bool.false_eq_true, false_or] at hmove
    simp only [ne_eq, reduceCtorEq, not_false_eq_true, true_and]
    rw [← hmove]
    rcases c.move origin offset with ⟨c₁, _ | _⟩
    · rfl
    · rw [failed_tell]

theorem failed_setDiscipline (discipline : Discipline) (h : c.stream.failed = false) :
    (c.setDiscipline discipline).1.stream.failed = true ↔
      discipline = .unbuffered ∧ (c.update ({ · with discipline })).Balks := by
  unfold setDiscipline
  cases discipline with
  | full => simp [failed_allocate, update, h]
  | line => simp [update, h]
  | unbuffered =>
    have hsync := failed_sync (c.update ({ · with discipline := .unbuffered }))
    have hbalks := @sync_of_balks (c.update ({ · with discipline := .unbuffered }))
    simp only [true_and]
    rcases he : (c.update ({ · with discipline := .unbuffered })).sync with ⟨c₁, _ | _⟩ <;>
      rw [he] at hsync hbalks
    · simpa [update, h] using hsync
    · have hquiet : ¬ (c.update ({ · with discipline := .unbuffered })).Balks := fun hb =>
        Bool.noConfusion (hbalks hb)
      refine iff_of_false (fun hfailed => ?_) hquiet
      exact (hsync.1 hfailed).elim (fun hset => Bool.noConfusion (h.symm.trans hset)) hquiet

end Connection

end BufferedFiles
