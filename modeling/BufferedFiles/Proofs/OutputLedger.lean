import BufferedFiles.Proofs.StreamInvariant

/-!
# The ledger of output

Every byte taken for output is in exactly one place: it is pending, or the device received it, or it
is lost and the error indicator is set. What becomes of bytes that are handed to the device is followed
here from the single write to the drain of a buffer, once for the case that all of them arrive and
once for the case that some do not.
-/
namespace BufferedFiles

namespace System

variable {sys sys' : System} {fd fuel n : Nat} {d : Descriptor} {dev : Device} {bytes : Bytes}

/-- One write lays down what the device took of it. -/
private theorem lay_write (d : Descriptor) (dev : Device) {n : Nat} {bytes : Bytes}
    (faults : List (Option Errno)) (hle : n ≤ bytes.length) (hn : 0 < n) :
    Account.ofPort { d with position := start d dev.content + n }
        ⟨dev.content.laid (start d dev.content) (bytes.take n), faults, dev.received ++ bytes.take n⟩ 0 =
      (Account.ofPort d dev 0).lay (bytes.take n) := by
  have hlen : (bytes.take n).length = n := by
    rw [List.length_take]
    omega
  have hne : bytes.take n ≠ [] := List.length_pos_iff.1 (by omega)
  cases hc : dev.content with
  | regular data =>
    have hstart : PlainFile.start ⟨data, d.position⟩ d.appending = start d (.regular data) := rfl
    simp only [Account.ofPort, Account.lay, hc, Content.laid, Content.file?, Option.map_some,
      PlainFile.write_of_ne_nil _ _ hne, hstart, hlen, Nat.sub_zero]
  | _ => simp only [Account.ofPort, Account.lay, hc, Content.laid, Content.file?, Option.map_none]

private theorem within_write (hin : dev.content.Within d.position sys.largestOffset)
    (hle : n ≤ bytes.length)
    (hend : dev.content.isRegular = true → start d dev.content + n ≤ sys.largestOffset) :
    (dev.content.laid (start d dev.content) (bytes.take n)).Within (start d dev.content + n)
      sys.largestOffset := by
  intro hreg
  rw [(dev.content.sameKind_laid _ _).isRegular] at hreg
  obtain ⟨data, hc⟩ := Content.isRegular_iff.1 hreg
  rw [hc] at hin hend ⊢
  have hsize : data.length ≤ sys.largestOffset := (hin rfl).1
  have hlast := hend rfl
  have hlen : (bytes.take n).length = n := by
    rw [List.length_take]
    omega
  refine ⟨?_, hlast⟩
  simp only [Content.laid, Content.size, length_overwrite, hlen]
  omega

/-- A series of writes lays down what the device took of it. -/
theorem writeAll_spec (ho : sys.opened? fd = some (d, dev))
    (hin : dev.content.Within d.position sys.largestOffset)
    (e : writeAll fd fuel sys bytes = (sys', n)) :
    n ≤ bytes.length ∧ ∃ p dev', sys'.opened? fd = some ({ d with position := p }, dev') ∧
      dev'.content.Within p sys.largestOffset ∧ (d.appending = false → p = d.position + n) ∧
      Account.ofPort { d with position := p } dev' 0 =
        (Account.ofPort d dev 0).lay (bytes.take n) := by
  induction fuel generalizing sys d dev bytes n with
  | zero =>
    cases e
    refine ⟨Nat.zero_le _, d.position, dev, ho, hin, fun _ => rfl, ?_⟩
    rw [List.take_zero, Account.lay_nil]
  | succ fuel ih =>
    simp only [writeAll] at e
    split at e
    · cases e
      refine ⟨Nat.zero_le _, d.position, dev, ho, hin, fun _ => rfl, ?_⟩
      rw [List.take_zero, Account.lay_nil]
    rename_i hne
    split at e
    · rename_i sys₁ er hw
      cases e
      obtain ⟨-, dev', ho', hc, hr⟩ := write_error ho hw
      refine ⟨Nat.zero_le _, d.position, dev', ho', hc ▸ hin, fun _ => rfl, ?_⟩
      rw [List.take_zero, Account.lay_nil]
      simp only [Account.ofPort, hc, hr]
    · rename_i sys₁ k hw
      obtain ⟨hthrough, hle, hpos, hend, ho₁⟩ := write_ok ho hw
      have hk : 0 < k := hpos (by simpa using hne)
      have hin₁ := within_write hin hle hend
      rw [← hthrough.largestOffset] at hin₁
      rcases hrest : writeAll fd fuel sys₁ (bytes.drop k) with ⟨sys₂, m⟩
      rw [hrest] at e
      cases e
      obtain ⟨hm, p, dev', ho', hin', hp, ha⟩ := ih ho₁ hin₁ hrest
      rw [List.length_drop] at hm
      refine ⟨by omega, p, dev', ho', hthrough.largestOffset ▸ hin', ?_, ?_⟩
      · intro hd
        have hstart : start d dev.content = d.position := by simp [start, hd]
        rw [hp hd, hstart, Nat.add_assoc]
      · rw [ha, lay_write d dev _ hle hk, Account.lay_lay, List.take_add]

/-- A device that never fails takes everything it has room for. -/
theorem writeAll_reliable (ho : sys.opened? fd = some (d, dev)) (hfuel : bytes.length ≤ fuel)
    (hd : d.writable = true) (hr : dev.Reliable)
    (haddr : dev.content.addresses d.position bytes.length = true)
    (hroom : dev.content.HasRoom (start d dev.content) bytes.length sys.largestOffset
      (sys.anyDescriptor d.device (·.readable))) :
    ∃ sys', writeAll fd fuel sys bytes = (sys', bytes.length) := by
  cases fuel with
  | zero =>
    have hnil : bytes = [] := List.eq_nil_of_length_eq_zero (by omega)
    exact ⟨sys, by rw [hnil]; rfl⟩
  | succ fuel =>
    by_cases hnil : bytes = []
    · exact ⟨sys, by rw [hnil]; rfl⟩
    obtain ⟨sys', hw⟩ := write_reliable ho hd hr haddr hroom hnil
    refine ⟨sys', ?_⟩
    have hdone : writeAll fd fuel sys' [] = (sys', 0) := by cases fuel <;> rfl
    simp only [writeAll, List.isEmpty_iff, if_neg hnil, hw, List.drop_length, hdone, Nat.add_zero]

end System

namespace Connection

variable {a b c c' : Connection} {d : Descriptor} {dev : Device} {bytes : Bytes} {n : Nat}

/-- The device can be moved back over what is left of the window. -/
theorem seek_back (h : c.On d dev) (ha : c.Alignable)
    (hcovers : dev.content.Covers c.stream.window d.position) (hleft : c.stream.left ≠ [])
    (offset : Int) (hoffset : offset = -c.stream.left.length) :
    ∃ sys p, c.system.seek c.stream.fd .current offset = (sys, .ok p) ∧
      (dev.content.isRegular = true → p + c.stream.left.length = d.position) := by
  have hlen := Stream.length_left c.stream
  have hmobile : dev.content.isMobile = true :=
    (ha.resolve_left fun hnil => hleft (left_of_empty hnil)) d dev h.opened
  cases hc : dev.content with
  | pipe queue => rw [hc] at hmobile; cases hmobile
  | channel coming arrivals => rw [hc] at hmobile; cases hmobile
  | regular data =>
    have hin := h.within
    rw [hc] at hcovers hin
    have hwin : c.stream.window.length ≤ d.position := hcovers.1
    have hle : d.position ≤ c.system.largestOffset := (hin rfl).2
    obtain ⟨sys, hs⟩ := System.seek_regular .current offset (d.position - c.stream.left.length)
      h.opened hc (by simp only [System.base]; omega) (by omega)
    exact ⟨sys, _, hs, fun _ => by omega⟩
  | directory =>
    rw [hc] at hcovers
    have hnil : c.stream.window = [] := hcovers
    exact absurd (by rw [Stream.left, hnil, List.drop_nil]) hleft
  | null => exact ⟨_, 0, System.seek_endless h.opened (.inl hc), fun hreg => (by cases hreg)⟩
  | zero => exact ⟨_, 0, System.seek_endless h.opened (.inr (.inl hc)), fun hreg => (by cases hreg)⟩
  | full => exact ⟨_, 0, System.seek_endless h.opened (.inr (.inr hc)), fun hreg => (by cases hreg)⟩

/-- Where the device stands once the stream is aligned for output: at the cursor, or anywhere when
output is appended. -/
theorem align_spec (h : c.On d dev) (ha : c.Alignable) :
    ∃ offset sys p, c.align = (⟨{ c.stream with offset }, sys⟩, true) ∧
      sys.largestOffset = c.system.largestOffset ∧
      sys.opened? c.stream.fd = some ({ d with position := p }, dev) ∧
      (dev.content.isRegular = true → p ≤ d.position ∧
        (c.stream.appends = false → p = d.position - c.stream.left.length)) ∧
      (c.stream.appends = true → offset = none) ∧
      (c.stream.appends = false → d.appending = false → dev.content.isRegular = true →
        ∀ q, offset = some q → q = p) := by
  have hp := h.within
  have hlen := Stream.length_left c.stream
  by_cases happ : c.stream.appends = true
  · refine ⟨none, c.system, d.position, ?_, rfl, h.opened, ?_, fun _ => rfl, ?_⟩
    · simp only [align, happ, if_true, update]
    · exact fun _ => ⟨Nat.le_refl _, fun hno => by rw [happ] at hno; cases hno⟩
    · intro hno
      rw [happ] at hno
      cases hno
  have hno : c.stream.appends = false := by simpa using happ
  by_cases hend : c.stream.window.length = c.stream.cursor
  · refine ⟨c.stream.offset, c.system, d.position, ?_, rfl, h.opened, ?_, ?_, ?_⟩
    · rw [align, if_neg happ, if_pos hend]
    · intro hreg
      refine ⟨Nat.le_refl _, fun _ => ?_⟩
      omega
    · exact fun hyes => absurd hyes happ
    · exact fun _ hd hreg q hq => h.fits.offset q hq hreg (.inr (by rw [hd, hno]))
  have hcovers : dev.content.Covers c.stream.window d.position := by
    rcases h.fits.covers with ⟨hyes, -⟩ | hcovers
    · exact absurd hyes happ
    · exact hcovers
  have hcursor := h.fits.cursor
  have hleft : c.stream.left ≠ [] := by
    intro hnil
    rw [hnil, List.length_nil] at hlen
    omega
  obtain ⟨sys, p, hs, hreg⟩ := seek_back h ha hcovers hleft
    (c.stream.cursor - c.stream.window.length) (by omega)
  obtain ⟨hthrough, ho, -, -⟩ := System.seek_ok h.opened hs
  refine ⟨some p, sys, p, ?_, hthrough.largestOffset, ho, ?_, ?_, ?_⟩
  · rw [align, if_neg happ, if_neg hend, hs]
  · intro hr
    have hsum := hreg hr
    exact ⟨by omega, fun _ => by omega⟩
  · exact fun hyes => absurd hyes happ
  · intro _ _ _ q hq
    cases hq
    rfl

/-- The account the device stands for once it is aligned. -/
private theorem lay_aligned (h : c.On d dev) {p : Nat} (hb : bytes ≠ [])
    (hp : dev.content.isRegular = true → c.stream.appends = false →
      p = d.position - c.stream.left.length) :
    (Account.ofPort { d with position := p } dev 0).lay bytes = c.standing.lay bytes := by
  rw [standing_eq h.opened]
  cases hc : dev.content with
  | regular data =>
    simp only [Account.ofPort, hc, Account.lay, Content.file?, Option.map_some,
      PlainFile.write_of_ne_nil _ _ hb, Account.mk.injEq, true_and, and_true, Option.some.injEq]
    cases happ : c.stream.appends with
    | true => rw [h.appending happ]; rfl
    | false => rw [hp (by rw [hc]; rfl) happ]; rfl
  | _ => simp only [Account.ofPort, hc, Account.lay, Content.file?, Option.map_none]

/-- Bytes handed to the device: how many it took, and that they are in its account. -/
theorem send_spec (h : c.On d dev) (ha : c.Alignable) (hb : bytes ≠ [])
    (e : c.send bytes = (c', n)) :
    n ≤ bytes.length ∧ (∃ d' dev', c'.On d' dev') ∧
      c'.stream.window = [] ∧ c'.stream.pending = [] ∧ c'.stream.writing = c.stream.writing ∧
      c'.stream.signs = (c.stream.failed || decide (n < bytes.length), c.stream.atEnd, c.stream.held) ∧
      c'.standing.received = c.standing.received ++ bytes.take n ∧
      (n = bytes.length → c'.standing = c.standing.lay bytes) := by
  obtain ⟨offset, sys, p, halign, hlargest, ho, hreg, hnone, hsome⟩ := align_spec h ha
  have hin : dev.content.Within p sys.largestOffset := by
    intro hr
    rw [hlargest]
    exact ⟨(h.within hr).1, Nat.le_trans (hreg hr).1 (h.within hr).2⟩
  rcases hw : sys.writeAll c.stream.fd bytes.length bytes with ⟨sys', m⟩
  obtain ⟨hle, p', dev', ho', hin', hp', hacc⟩ := System.writeAll_spec ho hin hw
  have hthrough : System.Through c.stream.fd sys sys' := (System.through_writeAll _ _ _ _).of_eq hw
  simp only [send, halign, hw, Prod.mk.injEq] at e
  obtain ⟨rfl, rfl⟩ := e
  refine ⟨hle, ⟨{ d with position := p' }, dev', ?_⟩, rfl, rfl, rfl, rfl, ?_, ?_⟩
  · refine Over.on_of_empty ⟨ho', h.appending, by rw [hthrough.largestOffset]; exact hin'⟩ rfl rfl rfl ?_
    intro q hq hr hd
    have hq : offset.map (· + m) = some q := hq
    have hd : d.appending = c.stream.appends := hd
    obtain ⟨q₀, hq₀, rfl⟩ := Option.map_eq_some_iff.1 hq
    have hr₀ : dev.content.isRegular = true := by
      obtain ⟨dev'', hdev'', hb⟩ := hthrough.device d.device dev (System.opened?_eq_some.1 ho).2
      rw [(System.opened?_eq_some.1 ho').2] at hdev''
      cases hdev''
      rw [← hr, hb.kind.isRegular]
    cases happ : c.stream.appends with
    | true =>
      rw [hnone happ] at hq₀
      cases hq₀
    | false =>
      rw [happ] at hd
      rw [hsome happ hd hr₀ q₀ hq₀, hp' hd]
  · rw [standing_of_empty ho' rfl, hacc, standing_eq h.opened]
    rfl
  · intro hall
    rw [standing_of_empty ho' rfl, hacc, hall, List.take_length]
    exact lay_aligned h hb fun hr happ => (hreg hr).2 happ

/-- A device that takes the bytes is handed all of them. -/
theorem send_reliable (h : c.On d dev) (ha : c.Alignable) (ht : c.Takes bytes.length)
    (e : c.send bytes = (c', n)) : n = bytes.length := by
  obtain ⟨offset, sys, p, halign, hlargest, ho, hreg, -, -⟩ := align_spec h ha
  obtain ⟨d₀, dev₀, ho₀, hw, hr, hroom, happ⟩ := ht
  rw [h.opened] at ho₀
  cases ho₀
  have hthrough : System.Through c.stream.fd c.system sys := by
    have := (through_align c).system
    rwa [halign] at this
  have hplain : d.appending = false → dev.content.isRegular = true → p = d.position - c.stream.left.length := by
    intro hd hkind
    refine (hreg hkind).2 (Bool.eq_false_iff.2 fun happ => ?_)
    rw [h.appending happ] at hd
    cases hd
  have hroom' : dev.content.HasRoom (System.start { d with position := p } dev.content) bytes.length
      sys.largestOffset (sys.anyDescriptor d.device (·.readable)) := by
    rw [hthrough.anyDescriptor fun _ _ => rfl, hlargest]
    cases hkind : dev.content.isRegular with
    | false => exact hroom.change (.refl _) hkind (Nat.le_refl _)
    | true =>
      have hstart : System.start { d with position := p } dev.content =
          System.start { d with position := d.position - c.stream.left.length } dev.content := by
        unfold System.start
        cases hd : d.appending with
        | true => rfl
        | false => exact hplain hd hkind
      rw [hstart]
      exact hroom
  have haddr : dev.content.addresses p bytes.length = true := by
    cases hkind : dev.content.isRegular with
    | false => exact hroom.addresses (.refl _) hkind
    | true =>
      have hle := (hreg hkind).1
      refine Content.addresses_of_le fun _ => ?_
      cases hd : d.appending with
      | true =>
        have hfrom := Content.le_of_addresses (happ hd) hkind
        omega
      | false =>
        obtain ⟨data, hc⟩ := Content.isRegular_iff.1 hkind
        rw [hc] at hroom
        have hroom : System.start { d with position := d.position - c.stream.left.length } (.regular data) +
          bytes.length ≤ c.system.largestOffset := hroom
        have haddressable := c.system.addressable
        have hp := hplain hd hkind
        simp only [System.start, hd, Bool.false_eq_true, if_false] at hroom
        omega
  obtain ⟨sys', hall⟩ := System.writeAll_reliable ho (Nat.le_refl _) hw hr haddr hroom'
  simp only [send, halign, hall, Prod.mk.injEq] at e
  exact e.2.symm

/-- `b` is `a` after `bytes` were laid down in its account. -/
structure Lays (a b : Connection) (bytes : Bytes) : Prop where
  through : a.Through b
  ready : b.Ready
  account : b.account = a.account.lay bytes
  signs : b.stream.signs = a.stream.signs
  extent : b.extent ≤ a.extent + bytes.length

/-- `b` is `a` after a failure to lay down `n` bytes more. -/
structure Fails (a b : Connection) (n : Nat) : Prop where
  through : a.Through b
  ready : b.Ready
  failed : b.stream.failed = true
  unwilling : ¬ a.Willing n

/-- Bytes laid down by a stream in the middle of output. -/
structure Gathers (a b : Connection) (bytes : Bytes) : Prop extends Lays a b bytes where
  writing : b.stream.writing = true
  calm : bytes ≠ [] ∨ a.Calm → b.Calm

theorem Lays.refl (h : a.Ready) : a.Lays a [] := ⟨.refl a, h, (Account.lay_nil _).symm, rfl, Nat.le_refl _⟩

theorem Lays.trans {xs ys : Bytes} (h : a.Lays b xs) (h' : b.Lays c ys) : a.Lays c (xs ++ ys) where
  through := h.through.trans h'.through
  ready := h'.ready
  account := by rw [h'.account, h.account, Account.lay_lay]
  signs := h'.signs.trans h.signs
  extent := by
    have h₁ := h.extent
    have h₂ := h'.extent
    rw [List.length_append]
    omega

theorem Gathers.trans {xs ys : Bytes} (h : a.Gathers b xs) (h' : b.Gathers c ys) :
    a.Gathers c (xs ++ ys) where
  toLays := h.toLays.trans h'.toLays
  writing := h'.writing
  calm := by
    intro hcalm
    by_cases hy : ys = []
    · refine h'.calm (.inr (h.calm ?_))
      rcases hcalm with hne | hcalm
      · exact .inl (by simpa [hy] using hne)
      · exact .inr hcalm
    · exact h'.calm (.inl hy)

theorem Lays.fails {m k : Nat} (h : a.Lays b bytes) (h' : b.Fails c m) (hk : bytes.length + m ≤ k) :
    a.Fails c k where
  through := h.through.trans h'.through
  ready := h'.ready
  failed := h'.failed
  unwilling hw := h'.unwilling ((hw.mono hk).through h.through h.account h.extent)

theorem drain_of_drained (h : c.stream.pending = []) : c.drain = (c, true) := by
  rw [drain, h]
  rfl

theorem drain_ok (h : c.Ready) (e : c.drain = (c', true)) :
    c.Lays c' [] ∧ c'.stream.pending = [] ∧ c'.stream.writing = c.stream.writing ∧
      (c.stream.pending ≠ [] → c'.stream.left = []) := by
  have hthrough := (through_drain c).of_eq e
  obtain ⟨⟨d, dev, hon⟩, halign⟩ := h
  unfold drain at e
  split at e
  · rename_i hnil
    rw [List.isEmpty_iff] at hnil
    cases e
    exact ⟨.refl ⟨⟨d, dev, hon⟩, halign⟩, hnil, rfl, fun hne => absurd hnil hne⟩
  · rename_i hne
    rw [List.isEmpty_iff] at hne
    rcases hsend : c.send c.stream.pending with ⟨c₁, n⟩
    simp only [hsend, Prod.mk.injEq, beq_iff_eq] at e
    obtain ⟨rfl, hall⟩ := e
    obtain ⟨-, hon', hwin, hpend, hwriting, hsigns, -, hstanding⟩ := send_spec hon halign hne hsend
    have hleft := left_of_empty hwin
    have haccount : c₁.account = c.account.lay [] := by
      rw [account_of_drained hpend, hstanding hall, Account.lay_nil]
      rfl
    obtain ⟨d', dev', hon'⟩ := hon'
    refine ⟨⟨hthrough, ⟨⟨d', dev', hon'⟩, .inl hwin⟩, haccount, ?_, hon'.extent_lay hpend hon.opened haccount⟩,
      hpend, hwriting, fun _ => hleft⟩
    rw [hsigns, hall]
    simp [Stream.signs]

theorem drain_fails (h : c.Ready) (e : c.drain = (c', false)) :
    c.Fails c' 0 ∧ c.stream.pending ≠ [] ∧
      c'.account.received.length < c.account.received.length := by
  have hthrough := (through_drain c).of_eq e
  obtain ⟨⟨d, dev, hon⟩, halign⟩ := h
  unfold drain at e
  split at e
  · cases e
  · rename_i hne
    rw [List.isEmpty_iff] at hne
    rcases hsend : c.send c.stream.pending with ⟨c₁, n⟩
    simp only [hsend, Prod.mk.injEq, beq_eq_false_iff_ne] at e
    obtain ⟨rfl, hshort⟩ := e
    obtain ⟨hle, hon', hwin, hpend, -, hsigns, hreceived, -⟩ := send_spec hon halign hne hsend
    have hlt : n < c.stream.pending.length := by omega
    refine ⟨⟨hthrough, ⟨hon', .inl hwin⟩, ?_, ?_⟩, hne, ?_⟩
    · have hfailed := congrArg Prod.fst hsigns
      simpa [Stream.signs, hlt] using hfailed
    · exact fun hw => hshort (send_reliable hon halign hw hsend)
    · rw [account_of_drained hpend, hreceived]
      simp only [account, Account.lay, List.length_append, List.length_take]
      omega

end Connection

end BufferedFiles
