import BufferedFiles.Proofs.StreamMoves

/-!
# The position of a stream

A question for the position changes nothing in the account, and for a file it is answered with the
position in the account: behind what is pending, and before what is read ahead.
-/
namespace BufferedFiles

namespace Connection

variable {c c' : Connection} {d : Descriptor} {dev : Device}

/-- Where appended bytes start does not depend on the position. -/
private theorem lay_of_appending {bytes : Bytes} (hd : d.appending = true) (hb : bytes ≠ [])
    (p back : Nat) :
    (Account.ofPort { d with position := p } dev back).lay bytes = (Account.ofPort d dev back).lay bytes := by
  cases hc : dev.content with
  | regular data =>
    simp only [Account.ofPort, hc, Account.lay, Content.file?, Option.map_some,
      PlainFile.write_of_ne_nil _ _ hb, PlainFile.start, hd, if_true]
  | _ => simp only [Account.ofPort, hc, Account.lay, Content.file?, Option.map_none]

/-- A device that goes no further than its end or where it stood reaches no further. -/
private theorem extent_relocated {s : Stream} {sys : System} {p : Nat} (hon : c.On d dev)
    (hfd : s.fd = c.stream.fd) (hpend : s.pending = c.stream.pending)
    (ho : sys.opened? c.stream.fd = some ({ d with position := p }, dev))
    (hp : dev.content.isRegular = true → p ≤ max d.position dev.content.size) :
    (⟨s, sys⟩ : Connection).extent ≤ c.extent := by
  have ho' : sys.opened? s.fd = some ({ d with position := p }, dev) := by rw [hfd, ho]
  cases hr : dev.content.isRegular with
  | false =>
    rw [extent_eq_zero (c := ⟨s, sys⟩) ho' hr]
    exact Nat.zero_le _
  | true =>
    have := hp hr
    rw [extent_eq (c := ⟨s, sys⟩) ho' hr, extent_eq hon.opened hr, hpend]
    simp only
    omega

/-- The device of a stream that asks for its position stays where it is, as far as that matters. -/
private theorem relocated_lays {sys : System} {p : Nat} (h : c.Ready) (hon : c.On d dev)
    (hsys : System.Through c.stream.fd c.system sys)
    (ho : sys.opened? c.stream.fd = some ({ d with position := p }, dev))
    (hp : dev.content.isRegular = true → p = d.position) : c.Lays ⟨c.stream, sys⟩ [] := by
  have hon' := hon.relocate ho hsys.largestOffset hp
  have hthrough : c.Through ⟨c.stream, sys⟩ := ⟨.refl _, hsys, fun _ _ _ => rfl⟩
  refine ⟨hthrough, ⟨⟨_, dev, hon'⟩, h.alignable.through hthrough hon.opened rfl⟩, ?_, rfl,
    extent_relocated hon rfl rfl ho fun hr => by have := hp hr; omega⟩
  have hstanding : (⟨c.stream, sys⟩ : Connection).standing = c.standing := by
    rw [standing_eq hon'.opened, standing_eq hon.opened]
    exact Account.ofPort_congr fun hr => congrArg (· - _) (hp hr)
  rw [Account.lay_nil, account, hstanding]
  rfl

private theorem devicePosition_spec {r : Option Nat} (h : c.Ready) (e : c.devicePosition = (c', r)) :
    c.Lays c' [] ∧ c'.stream = c.stream ∧
      ∀ d dev, c.system.opened? c.stream.fd = some (d, dev) → dev.content.isRegular = true →
        d.appending = c.stream.appends → r = some d.position := by
  obtain ⟨⟨d, dev, hon⟩, halign⟩ := id h
  unfold devicePosition at e
  split at e
  · rename_i position hoffset
    cases e
    refine ⟨.refl h, rfl, fun d₀ dev₀ ho hr hknown => ?_⟩
    rw [hon.opened] at ho
    cases ho
    rw [hon.fits.offset position hoffset hr (.inr hknown)]
  · split at e
    · rename_i sys er hseek
      cases e
      refine ⟨(hon.toOver.stalls hseek).lays h, rfl, fun d₀ dev₀ ho hr _ => ?_⟩
      rw [hon.opened] at ho
      cases ho
      obtain ⟨data, hc⟩ := Content.isRegular_iff.1 hr
      obtain ⟨sys', hok⟩ := System.seek_regular .current 0 d.position
        hon.opened hc (by simp only [System.base]; omega) (hon.within hr).2
      rw [hseek] at hok
      cases hok
    · rename_i sys p hseek
      cases e
      obtain ⟨hsys, ho, -, hreg⟩ := System.seek_ok hon.opened hseek
      have hp : dev.content.isRegular = true → p = d.position := fun hr => by
        have := (hreg hr).1
        simp only [System.base] at this
        omega
      refine ⟨relocated_lays h hon hsys ho hp, rfl, fun d₀ dev₀ ho₀ hr _ => ?_⟩
      rw [hon.opened] at ho₀
      cases ho₀
      rw [hp hr]

private theorem appendPosition_spec {r : Option Nat} (h : c.Ready) (happ : c.stream.appends = true)
    (hne : c.stream.pending ≠ []) (e : c.appendPosition = (c', r)) :
    c.Lays c' [] ∧ (∃ offset, c'.stream = { c.stream with offset }) ∧
      ∀ d dev, c.system.opened? c.stream.fd = some (d, dev) → dev.content.isRegular = true →
        r = some dev.content.size := by
  obtain ⟨⟨d, dev, hon⟩, halign⟩ := id h
  unfold appendPosition at e
  split at e
  · rename_i sys er hseek
    cases e
    refine ⟨(hon.toOver.stalls hseek).lays h, ⟨c.stream.offset, rfl⟩, fun d₀ dev₀ ho hr => ?_⟩
    rw [hon.opened] at ho
    cases ho
    have hsize := (hon.within hr).1
    obtain ⟨data, hc⟩ := Content.isRegular_iff.1 hr
    obtain ⟨sys', hok⟩ := System.seek_regular .finish 0 dev.content.size
      hon.opened hc (by simp only [System.base]; omega) hsize
    rw [hseek] at hok
    cases hok
  · rename_i sys p hseek
    cases e
    obtain ⟨hsys, ho, -, hreg⟩ := System.seek_ok hon.opened hseek
    have hthrough : c.Through ⟨{ c.stream with offset := some p }, sys⟩ :=
      ⟨.working, hsys, fun _ _ _ => rfl⟩
    have hp : dev.content.isRegular = true → p = dev.content.size := fun hr => by
      have := (hreg hr).1
      simp only [System.base] at this
      omega
    have hover : (⟨{ c.stream with offset := some p }, sys⟩ : Connection).Over { d with position := p } dev :=
      (hon.toOver.seek hseek).work rfl rfl
    refine ⟨⟨hthrough, ⟨⟨{ d with position := p }, dev, hover,
      ⟨hon.fits.cursor, hon.fits.window, hon.fits.input, .inl ⟨happ, hne⟩, ?_⟩⟩,
      halign.through hthrough hon.opened rfl⟩, ?_, rfl,
      extent_relocated hon rfl rfl ho fun hr => by have := hp hr; omega⟩, ⟨some p, rfl⟩, fun d₀ dev₀ ho₀ hr => ?_⟩
    · intro q hq _ _
      cases hq
      rfl
    · rw [Account.lay_nil, account, account, standing_eq hon.opened, standing_eq ho]
      exact lay_of_appending (hon.appending happ) hne p _
    · rw [hon.opened] at ho₀
      cases ho₀
      rw [hp hr]

/-- The position of a file is the one in its account. -/
private theorem place_of_displacement {f : PlainFile} (hon : c.On d dev) (hcalm : c.Calm)
    (hknown : d.appending = c.stream.appends) (hf : c.account.file = some f) :
    ((if c.stream.appends = true ∧ c.stream.pending ≠ [] then dev.content.size else d.position : Nat) :
      Int) + c.displacement = f.position := by
  have hlen := Stream.length_left c.stream
  have hcursor := hon.fits.cursor
  have hfile : c.standing.file.map (·.write d.appending c.stream.pending) = some f := by
    rw [← hf, account, Account.lay, standing_appending hon.opened]
  rw [standing_eq hon.opened, Option.map_eq_some_iff] at hfile
  obtain ⟨f₀, hf₀, rfl⟩ := hfile
  obtain ⟨hc, hplace⟩ := Content.file?_eq_some hf₀
  unfold displacement
  by_cases hpend : c.stream.pending = []
  · have hahead : c.stream.ahead = c.stream.left := Stream.ahead_of_calm fun hw => hcalm hw hpend
    have hcovers := hon.fits.covers_of_drained hpend
    rw [hc] at hcovers
    have hle := hcovers.1
    rw [hpend, PlainFile.write_nil]
    simp only [hahead, List.isEmpty_nil, if_true, ne_eq, not_true_eq_false, and_false, if_false]
    omega
  · have hno : c.stream.pending.isEmpty = false := by simpa using hpend
    rw [PlainFile.write_of_ne_nil _ _ hpend]
    cases happ : c.stream.appends with
    | true =>
      rw [happ] at hknown
      simp only [hno, PlainFile.start, hknown, hc, Content.size, hpend, ne_eq, not_false_eq_true, and_true,
        Bool.false_eq_true, if_false, if_true]
      omega
    | false =>
      rw [happ] at hknown
      have hcovers : dev.content.Covers c.stream.window d.position :=
        hon.fits.covers.resolve_left fun hboth => by rw [happ] at hboth; cases hboth.1
      rw [hc] at hcovers
      have hle := hcovers.1
      simp only [hno, PlainFile.start, hknown, Stream.filled, Bool.false_eq_true, false_and, if_false]
      omega

private theorem base_spec {base : Option Nat} (h : c.Ready) (hon : c.On d dev)
    (e : (if c.stream.appends && !c.stream.pending.isEmpty then c.appendPosition
      else c.devicePosition) = (c', base)) :
    c.Lays c' [] ∧ (c'.stream.pending = c.stream.pending ∧ c'.stream.writing = c.stream.writing ∧
        (c.Calm → c'.Calm)) ∧
      (dev.content.isRegular = true → d.appending = c.stream.appends →
        base = some (if c.stream.appends = true ∧ c.stream.pending ≠ [] then dev.content.size
          else d.position)) := by
  have hkeep : ∀ offset, c'.stream = { c.stream with offset } →
      c'.stream.pending = c.stream.pending ∧ c'.stream.writing = c.stream.writing ∧
        (c.Calm → c'.Calm) := by
    intro offset hstream
    refine ⟨by rw [hstream], by rw [hstream], ?_⟩
    unfold Calm
    rw [hstream]
    exact id
  split at e
  · rename_i hyes
    have hboth : c.stream.appends = true ∧ c.stream.pending ≠ [] := by simpa using hyes
    obtain ⟨hlays, ⟨offset, hstream⟩, hsize⟩ := appendPosition_spec h hboth.1 hboth.2 e
    rw [if_pos hboth]
    exact ⟨hlays, hkeep offset hstream, fun hr _ => hsize d dev hon.opened hr⟩
  · rename_i hno
    have hnot : ¬ (c.stream.appends = true ∧ c.stream.pending ≠ []) := by simpa using hno
    obtain ⟨hlays, hstream, hpos⟩ := devicePosition_spec h e
    rw [if_neg hnot]
    exact ⟨hlays, hkeep c.stream.offset hstream, fun hr hknown => hpos d dev hon.opened hr hknown⟩

/-- A question for the position leaves the account as it is, and is answered from it for a file. -/
theorem position_spec {r : Option Nat} (h : c.Ready) (e : c.position = (c', r)) :
    c.Lays c' [] ∧ (c'.stream.pending = c.stream.pending ∧ c'.stream.writing = c.stream.writing ∧
        (c.Calm → c'.Calm)) ∧
      ∀ f, c.Calm → c.account.file = some f → c.account.appending = c.stream.appends →
        r = some f.position := by
  obtain ⟨⟨d, dev, hon⟩, -⟩ := id h
  have hplace : ∀ {f base}, c.Calm → c.account.file = some f →
      c.account.appending = c.stream.appends →
      (dev.content.isRegular = true → d.appending = c.stream.appends →
        base = some (if c.stream.appends = true ∧ c.stream.pending ≠ [] then dev.content.size
          else d.position)) →
      ∃ b : Nat, base = some b ∧ b + c.displacement = f.position := by
    intro f base hcalm hf hknown hvalue
    rw [account_appending hon.opened] at hknown
    have hr : dev.content.isRegular = true := by
      rw [account, Account.lay, standing_eq hon.opened, Option.map_eq_some_iff] at hf
      obtain ⟨f₀, hf₀, -⟩ := hf
      rw [(Content.file?_eq_some hf₀).1]
      rfl
    exact ⟨_, hvalue hr hknown, place_of_displacement hon hcalm hknown hf⟩
  unfold position at e
  split at e
  · rename_i q eb
    cases e
    obtain ⟨hlays, hkeep, hvalue⟩ := base_spec h hon eb
    refine ⟨hlays, hkeep, fun f hcalm hf hknown => ?_⟩
    obtain ⟨b, hb, -⟩ := hplace hcalm hf hknown hvalue
    cases hb
  · rename_i q base eb
    obtain ⟨hlays, hkeep, hvalue⟩ := base_spec h hon eb
    dsimp only at e
    split at e
    · rename_i hneg
      cases e
      have hq : q.Lays { q with system := { q.system with lastError := .invalidArgument } } [] :=
        Stalls.lays ⟨rfl, ⟨.refl _, .withError _ _ _, fun _ _ _ => rfl⟩, rfl⟩ hlays.ready
      refine ⟨hlays.trans hq, hkeep, fun f hcalm hf hknown => ?_⟩
      obtain ⟨b, hb, hsum⟩ := hplace hcalm hf hknown hvalue
      cases hb
      omega
    · rename_i hneg
      cases e
      refine ⟨hlays, hkeep, fun f hcalm hf hknown => ?_⟩
      obtain ⟨b, hb, hsum⟩ := hplace hcalm hf hknown hvalue
      cases hb
      rw [hsum]
      rfl

end Connection

end BufferedFiles
