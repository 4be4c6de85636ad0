import BufferedFiles.Proofs.Acceptance

/-!
# Moving the device

A stream moves its device back over what it read ahead, to a target, or to a block boundary before it and
reads on from there. What is read on the way to a target is a copy of what lies there. A move of the
device that fails leaves the stream where it stands.
-/
namespace BufferedFiles

namespace Content

variable {content content' : Content} {window bytes : Bytes} {position n p : Nat} {fed : Bool}

theorem covers_take (h : content.Covers window position) (hn : n ≤ window.length)
    (hp : content.isRegular = true → p + (window.length - n) = position) :
    content.Covers (window.take n) p := by
  have hlen : (window.take n).length = n := by
    rw [List.length_take]
    omega
  cases content with
  | regular data =>
    obtain ⟨hle, hwin⟩ := h
    have hp := hp rfl
    refine ⟨by omega, ?_⟩
    rw [hlen, show p - n = position - window.length by omega]
    conv => lhs; rw [hwin]
    rw [List.take_take, Nat.min_eq_left hn]
  | pipe queue => trivial
  | channel coming arrivals => trivial
  | directory => exact (congrArg (List.take n) h).trans List.take_nil
  | null => exact (congrArg (List.take n) h).trans List.take_nil
  | zero =>
    have h : window = List.replicate window.length 0 := h
    change window.take n = List.replicate (window.take n).length 0
    rw [hlen, h, List.take_replicate, Nat.min_eq_left hn]
  | full =>
    have h : window = List.replicate window.length 0 := h
    change window.take n = List.replicate (window.take n).length 0
    rw [hlen, h, List.take_replicate, Nat.min_eq_left hn]

/-- What was read covers what lies before the position after it. -/
theorem covers_fetch (h : content.fetch position n fed = .ok (bytes, content')) :
    content'.Covers bytes (position + bytes.length) := by
  cases content with
  | regular data =>
    cases h
    refine ⟨by omega, ?_⟩
    rw [Nat.add_sub_cancel, List.length_take, ← List.take_eq_take_min]
  | directory => cases h
  | pipe queue =>
    obtain ⟨rfl, rfl⟩ := fetch_pipe h
    trivial
  | channel coming arrivals =>
    obtain ⟨-, -, -, rfl⟩ := fetch_channel h
    trivial
  | null =>
    cases h
    rfl
  | zero =>
    cases h
    simp only [Covers, List.length_replicate]
  | full =>
    cases h
    simp only [Covers, List.length_replicate]

theorem fetch_regular {data : Bytes} (h : (regular data).fetch position n fed = .ok (bytes, content')) :
    content' = .regular data ∧ bytes = (data.drop position).take n := by
  cases h
  exact ⟨rfl, rfl⟩

theorem within_fetch {largest : Nat} (h : content.fetch position n fed = .ok (bytes, content'))
    (hin : content.Within position largest) : content'.Within (position + bytes.length) largest := by
  cases content with
  | regular data =>
    obtain ⟨rfl, rfl⟩ := fetch_regular h
    intro hreg
    obtain ⟨hsize, hpos⟩ := hin hreg
    have hsize : data.length ≤ largest := hsize
    refine ⟨hsize, ?_⟩
    rw [List.length_take, List.length_drop]
    omega
  | _ =>
    intro hreg
    rw [(fetch_ok h).2.isRegular] at hreg
    cases hreg

end Content

namespace Connection

variable {c c' : Connection} {d : Descriptor} {dev : Device}

/-- `b` is `a` but for what is kept of failures. -/
structure Stalls (a b : Connection) : Prop where
  stream : b.stream = a.stream
  through : a.Through b
  opened : b.system.opened? a.stream.fd = a.system.opened? a.stream.fd

theorem Stalls.refl (c : Connection) : c.Stalls c := ⟨rfl, .refl c, rfl⟩

/-- A move of the device that fails leaves the stream where it is. -/
theorem Over.stalls {origin : Origin} {offset : Int} {sys : System} {er : Errno} (h : c.Over d dev)
    (hseek : c.system.seek c.stream.fd origin offset = (sys, .error er)) :
    c.Stalls { c with system := sys } := by
  obtain ⟨hsys, ho, -⟩ := System.seek_error h.opened hseek
  exact ⟨rfl, ⟨.refl _, hsys, fun _ _ _ => rfl⟩, ho.trans h.opened.symm⟩

theorem Over.later {sys : System} {p : Nat} {dev' : Device} (h : c.Over d dev)
    (hsys : System.Through c.stream.fd c.system sys)
    (ho : sys.opened? c.stream.fd = some ({ d with position := p }, dev'))
    (hin : dev'.content.Within p c.system.largestOffset) :
    (⟨c.stream, sys⟩ : Connection).Over { d with position := p } dev' where
  opened := ho
  appending := h.appending
  within := by
    rw [hsys.largestOffset]
    exact hin

/-- A move of the device that succeeds puts it at an offset. -/
theorem Over.seek {origin : Origin} {offset : Int} {sys : System} {n : Nat} (h : c.Over d dev)
    (hseek : c.system.seek c.stream.fd origin offset = (sys, .ok n)) :
    (⟨c.stream, sys⟩ : Connection).Over { d with position := n } dev := by
  obtain ⟨hsys, ho, -, hreg⟩ := System.seek_ok h.opened hseek
  exact h.later hsys ho fun hr => ⟨(h.within hr).1, (hreg hr).2⟩

theorem Stalls.over (h : c.Stalls c') (ho : c.Over d dev) : c'.Over d dev where
  opened := by rw [h.stream, h.opened, ho.opened]
  appending := by rw [h.stream]; exact ho.appending
  within := by
    rw [h.through.system.largestOffset]
    exact ho.within

theorem Stalls.on (h : c.Stalls c') (ho : c.On d dev) : c'.On d dev where
  toOver := h.over ho.toOver
  fits := h.stream ▸ ho.fits

theorem Stalls.lays (h : c.Stalls c') (hr : c.Ready) : c.Lays c' [] := by
  obtain ⟨⟨d, dev, hon⟩, halign⟩ := hr
  have hon' := h.on hon
  refine ⟨h.through, ⟨⟨d, dev, hon'⟩, ?_⟩, ?_, by rw [h.stream], ?_⟩
  · rw [Alignable, h.stream]
    refine halign.imp_right fun hmobile d₀ dev₀ ho => ?_
    rw [h.opened] at ho
    exact hmobile d₀ dev₀ ho
  · rw [Account.lay_nil, account, account, standing_eq hon'.opened, standing_eq hon.opened, h.stream]
  · simp only [extent, h.stream, h.opened]
    exact Nat.le_refl _

/-- A stream with nothing pending goes back to where it stands. -/
private theorem sync_of_drained (h : c.Ready) (hpend : c.stream.pending = []) :
    ∃ c', c.sync = (c', true) ∧ c.Lays c' [] ∧ c'.stream.pending = [] ∧ (c.Calm → c'.Calm) := by
  have hdrain := drain_of_drained hpend
  obtain ⟨⟨d, dev, hon⟩, halign⟩ := id h
  have hcovers := hon.fits.covers_of_drained hpend
  unfold sync
  simp only [hdrain]
  split
  · refine ⟨_, rfl, ⟨?_, ⟨⟨d, dev, hon.toOver.work rfl rfl, { hon.fits with offset := nofun }⟩, halign⟩,
      (Account.lay_nil _).symm, rfl, extent_update rfl (List.append_nil _).symm⟩, hpend, id⟩
    exact through_work _ .working
  rename_i hahead
  rw [List.isEmpty_iff] at hahead
  have hsame : c.stream.ahead = c.stream.left :=
    Stream.ahead_of_calm fun hw => absurd (if_pos hw) hahead
  rw [hsame] at hahead ⊢
  obtain ⟨sys, p, hseek, hreg⟩ := seek_back hon halign hcovers hahead _ rfl
  obtain ⟨hthrough, ho, hmobile, -⟩ := System.seek_ok hon.opened hseek
  rw [hseek]
  have hlen := Stream.length_left c.stream
  have hcursor := hon.fits.cursor
  have hwindow := hon.fits.window
  have hcut : (c.stream.window.take c.stream.cursor).length = c.stream.cursor := by
    rw [List.length_take]
    omega
  have hempty : (c.stream.window.take c.stream.cursor).drop c.stream.cursor = [] := by
    rw [List.drop_eq_nil_iff]
    omega
  have hover := hon.toOver.seek hseek
  have hon' : (⟨{ c.stream with window := c.stream.window.take c.stream.cursor, offset := none },
      sys⟩ : Connection).On { d with position := p } dev := by
    refine ⟨hover.work rfl rfl, ?_⟩
    refine ⟨Nat.le_of_eq hcut.symm, ?_, hon.fits.input, .inr ?_, nofun⟩
    · change (c.stream.window.take c.stream.cursor).length ≤ c.stream.capacity
      omega
    · refine Content.covers_take hcovers hcursor fun hr => ?_
      have := hreg hr
      change p + (c.stream.window.length - c.stream.cursor) = d.position
      omega
  have haccount : (⟨{ c.stream with window := c.stream.window.take c.stream.cursor, offset := none },
      sys⟩ : Connection).account = c.account.lay [] := by
    have hstanding : (⟨{ c.stream with window := c.stream.window.take c.stream.cursor, offset := none },
        sys⟩ : Connection).standing = c.standing := by
      rw [standing_eq hon.opened, standing_eq ho]
      change Account.ofPort _ dev ((c.stream.window.take c.stream.cursor).drop c.stream.cursor).length = _
      rw [hempty]
      refine Account.ofPort_congr fun hr => ?_
      have := hreg hr
      rw [List.length_nil]
      omega
    rw [Account.lay_nil, account, hstanding]
    rfl
  refine ⟨_, rfl, ⟨⟨.working, hthrough, fun _ _ _ => rfl⟩, ⟨⟨_, dev, hon'⟩, .inr ?_⟩, haccount, rfl,
    hon'.extent_lay hpend hon.opened haccount⟩, hpend, fun _ _ _ => hempty⟩
  intro d₀ dev₀ ho₀
  have ho₀ : sys.opened? c.stream.fd = some (d₀, dev₀) := ho₀
  rw [ho] at ho₀
  cases ho₀
  exact hmobile

/-- A flush leaves the account as it is, and fails only where pending output does not arrive. -/
theorem sync_spec (h : c.Ready) {ok : Bool} (e : c.sync = (c', ok)) :
    (ok = true → c.Lays c' [] ∧ c'.stream.pending = [] ∧ (c.Calm → c'.Calm)) ∧
      (ok = false → c.Fails c' 0 ∧ c.stream.pending ≠ []) := by
  rcases hdrain : c.drain with ⟨c₁, drained⟩
  cases drained with
  | false =>
    have hsync : c.sync = (c₁, false) := by simp only [sync, hdrain]
    rw [hsync, Prod.mk.injEq] at e
    obtain ⟨rfl, rfl⟩ := e
    obtain ⟨hfails, hne, -⟩ := drain_fails h hdrain
    exact ⟨nofun, fun _ => ⟨hfails, hne⟩⟩
  | true =>
    obtain ⟨h₁, hpend, hwriting, -⟩ := drain_ok h hdrain
    have hagain := drain_of_drained hpend
    have hsync : c.sync = c₁.sync := by simp only [sync, hdrain, hagain]
    obtain ⟨c₂, hdone, h₂, hpend', hcalm⟩ := sync_of_drained h₁.ready hpend
    rw [hsync, hdone, Prod.mk.injEq] at e
    obtain ⟨rfl, rfl⟩ := e
    refine ⟨fun _ => ⟨h₁.trans h₂, hpend', fun hc => hcalm ?_⟩, nofun⟩
    cases hw : c.stream.writing with
    | true => exact (gathers_of_drain h hw hdrain).calm (.inr hc)
    | false =>
      intro hyes
      rw [hwriting, hw] at hyes
      cases hyes

/-- `b` is `a` moved to a target, with nothing pending. -/
structure Moves (a b : Connection) (target : Int) : Prop where
  through : a.Through b
  ready : b.Ready
  received : b.account.received = a.account.received
  file : ∀ f, a.account.file = some f →
    ∃ n : Nat, (n : Int) = target ∧ b.account.file = some ⟨f.contents, n⟩
  pending : b.stream.pending = []
  writing : b.stream.writing = false
  signs : b.stream.signs = (a.stream.failed, false, a.stream.held)

/-- A device keeps its bytes where the stream in front of it is moved. -/
theorem moves_of_on {d' : Descriptor} {dev' : Device} {target : Int} (h : c.Over d dev)
    (hpend : c.stream.pending = []) (hthrough : c.Through c') (hon : c'.On d' dev')
    (halign : c'.Alignable) (hreceived : dev'.received = dev.received)
    (hplace : ∀ data, dev.content = .regular data → dev'.content = .regular data ∧
      ((d'.position - c'.stream.left.length : Nat) : Int) = target)
    (hpend' : c'.stream.pending = []) (hw' : c'.stream.writing = false)
    (hsigns : c'.stream.signs = (c.stream.failed, false, c.stream.held)) : c.Moves c' target := by
  refine ⟨hthrough, ⟨⟨d', dev', hon⟩, halign⟩, ?_, ?_, hpend', hw', hsigns⟩
  · rw [account_of_drained hpend, account_of_drained hpend', standing_eq h.opened, standing_eq hon.opened]
    exact hreceived
  · intro f hf
    rw [account_of_drained hpend, standing_eq h.opened] at hf
    obtain ⟨hc, -⟩ := Content.file?_eq_some hf
    obtain ⟨hc', htarget⟩ := hplace f.contents hc
    refine ⟨_, htarget, ?_⟩
    rw [account_of_drained hpend', standing_eq hon.opened]
    simp only [Account.ofPort, hc', Content.file?]

/-- The descriptor after a move of the device, and a stream in front of it with an empty buffer. -/
private theorem on_of_seek {origin : Origin} {offset : Int} {sys : System} {s : Stream} {n : Nat}
    (h : c.Over d dev) (hseek : c.system.seek c.stream.fd origin offset = (sys, .ok n))
    (hs : s = { c.stream.emptied with atEnd := false, offset := some n }) :
    (⟨s, sys⟩ : Connection).On { d with position := n } dev := by
  subst hs
  refine Over.on_of_empty ((h.seek hseek).work rfl rfl) rfl rfl rfl fun p hp _ _ => ?_
  cases hp
  rfl

/-- Moving the device forgets the buffer, whatever it held. -/
theorem moveDevice_spec {origin : Origin} {offset : Int} {ok : Bool} (h : c.Over d dev)
    (hpend : c.stream.pending = []) (hw : c.stream.writing = false)
    (e : c.moveDevice origin offset = (c', ok)) :
    (ok = true → c.Moves c' (System.base d dev.content origin + offset)) ∧
      (ok = false → c.Stalls c') := by
  have hthrough := (through_moveDevice c origin offset).of_eq e
  unfold moveDevice at e
  split at e
  · rename_i sys er hseek
    cases e
    exact ⟨nofun, fun _ => h.stalls hseek⟩
  · rename_i sys n hseek
    cases e
    obtain ⟨-, -, -, hreg⟩ := System.seek_ok h.opened hseek
    have hon := on_of_seek h hseek rfl
    refine ⟨fun _ => moves_of_on h hpend hthrough hon (.inl rfl) rfl ?_ rfl hw rfl, nofun⟩
    intro data hc
    exact ⟨hc, (hreg (by rw [hc]; rfl)).1⟩

/-- A target a file can be moved to. -/
def InReach (limit : Nat) (target : Int) : Prop := 0 ≤ target ∧ target ≤ limit

instance (limit : Nat) (target : Int) : Decidable (InReach limit target) := inferInstanceAs (Decidable (_ ∧ _))

/-- A regular file is moved to every target within its reach, and to no other. -/
theorem moveDevice_regular {origin : Origin} {offset : Int} {data : Bytes} {ok : Bool} (h : c.Over d dev)
    (hreg : dev.content = .regular data) (e : c.moveDevice origin offset = (c', ok)) :
    (InReach c.system.largestOffset (System.base d dev.content origin + offset) → ok = true) ∧
      (¬ InReach c.system.largestOffset (System.base d dev.content origin + offset) →
        ok = false ∧ c.Stalls c' ∧ c'.system.lastError = .invalidArgument) := by
  refine ⟨fun hin => ?_, fun hout => ?_⟩
  · obtain ⟨sys, hseek⟩ := System.seek_regular origin offset
      ((System.base d dev.content origin : Int) + offset).toNat h.opened hreg (by have := hin.1; omega)
      (by have := hin.2; omega)
    simp only [moveDevice, hseek, Prod.mk.injEq] at e
    exact e.2.symm
  · obtain ⟨sys, hseek⟩ := System.seek_regular_error origin offset h.opened hreg hout
    obtain ⟨-, -, herror⟩ := System.seek_error h.opened hseek
    simp only [moveDevice, hseek, Prod.mk.injEq] at e
    obtain ⟨rfl, rfl⟩ := e
    exact ⟨rfl, h.stalls hseek, herror⟩

/-- A move that starts with the device somewhere else. -/
private theorem Moves.of_over {sys : System} {d₁ : Descriptor} {dev₁ : Device} {t target : Int}
    (h : c.Over d dev) (h₁ : (⟨c.stream, sys⟩ : Connection).Over d₁ dev₁)
    (hpend : c.stream.pending = []) (hsys : System.Through c.stream.fd c.system sys)
    (hreceived : dev₁.received = dev.received)
    (hplace : ∀ data, dev.content = .regular data → dev₁.content = .regular data ∧ t = target)
    (hm : (⟨c.stream, sys⟩ : Connection).Moves c' t) : c.Moves c' target := by
  have hthrough : c.Through ⟨c.stream, sys⟩ := ⟨.refl _, hsys, fun _ _ _ => rfl⟩
  refine ⟨hthrough.trans hm.through, hm.ready, ?_, ?_, hm.pending, hm.writing, hm.signs⟩
  · rw [hm.received, account_of_drained hpend, account_of_drained (c := ⟨c.stream, sys⟩) hpend,
      standing_eq h.opened, standing_eq h₁.opened]
    exact hreceived
  · intro f hf
    rw [account_of_drained hpend, standing_eq h.opened] at hf
    obtain ⟨hc, -⟩ := Content.file?_eq_some hf
    obtain ⟨hc₁, rfl⟩ := hplace f.contents hc
    have hf₁ : (⟨c.stream, sys⟩ : Connection).account.file =
        some ⟨f.contents, d₁.position - c.stream.left.length⟩ := by
      rw [account_of_drained (c := ⟨c.stream, sys⟩) hpend, standing_eq h₁.opened]
      simp only [Account.ofPort, hc₁, Content.file?]
    have hmoved := hm.file _ hf₁
    exact hmoved

/-- How far a target is behind its block boundary. -/
private theorem distance_spec {target : Int} {capacity : Nat} (hcap : capacity ≠ 0) :
    ((target % (capacity : Int)).toNat : Int) = target % capacity ∧
      (target % (capacity : Int)).toNat < capacity := by
  have hnonneg : 0 ≤ target % (capacity : Int) := Int.emod_nonneg _ (by omega)
  have hlt := Int.emod_lt_of_pos target (b := capacity) (by omega)
  omega

/-- Reading up to a target from the block boundary before it, or moving the device there. -/
theorem approach_spec {target : Int} {exact : Bool} (h : c.Over d dev) (hpend : c.stream.pending = [])
    (hw : c.stream.writing = false) (hcap : c.stream.capacity ≠ 0)
    (e : c.approach target exact = (c', true)) : c.Moves c' target := by
  have hthrough := (through_approach c target exact).of_eq e
  obtain ⟨hdistance, hbelow⟩ := @distance_spec target _ hcap
  unfold approach at e
  generalize (target % (c.stream.capacity : Int)).toNat = distance at e hdistance hbelow
  dsimp only at e
  split at e
  · cases e
  rename_i sys boundary hseek
  obtain ⟨hsys, ho, hmobile, hreg⟩ := System.seek_ok h.opened hseek
  have hinside : dev.content.Within boundary c.system.largestOffset := hsys.largestOffset ▸ (h.seek hseek).within
  have hboundary : dev.content.isRegular = true → (boundary : Int) = target - distance := fun hr =>
    (hreg hr).1.trans (System.base_start_add _ _ _)
  split at e
  · rename_i hzero
    cases e
    have hon := on_of_seek h hseek rfl
    refine moves_of_on h hpend hthrough hon (.inl rfl) rfl (fun data hc => ⟨hc, ?_⟩) rfl hw rfl
    have := hboundary (by rw [hc]; rfl)
    change ((boundary - 0 : Nat) : Int) = target
    omega
  split at e
  · rename_i sys₁ er hread
    obtain ⟨hsys₁, dev₁, ho₁, hcontent, hreceived⟩ := System.read_error ho hread
    have hover₁ := h.later (hsys.trans hsys₁) ho₁ (hcontent ▸ hinside)
    have hmoves := (moveDevice_spec hover₁ hpend hw e).1 rfl
    refine Moves.of_over h hover₁ hpend (hsys.trans hsys₁) hreceived (fun data hc => ?_) hmoves
    have := hboundary (by rw [hc]; rfl)
    exact ⟨hcontent.trans hc, by simp only [System.base]; omega⟩
  · rename_i sys₁ bytes hread
    obtain ⟨hsys₁, -, content, hfetch, ho₁⟩ := System.read_ok ho hread
    have hover₁ := h.later (hsys.trans hsys₁) ho₁ (Content.within_fetch hfetch hinside)
    have hsame : ∀ data, dev.content = .regular data → content = .regular data := by
      intro data hc
      rw [hc] at hfetch
      exact (Content.fetch_regular hfetch).1
    split at e
    · have hmoves := (moveDevice_spec hover₁ hpend hw e).1 rfl
      refine Moves.of_over h hover₁ hpend (hsys.trans hsys₁) rfl (fun data hc => ?_) hmoves
      have := hboundary (by rw [hc]; rfl)
      exact ⟨hsame data hc, by simp only [System.base]; omega⟩
    · rename_i hlong
      cases e
      have hlen : bytes.length ≤ c.stream.capacity := by
        have := (Content.fetch_ok hfetch).1
        split at this <;> omega
      have hcovers := Content.covers_fetch hfetch
      have hfits : ({ c.stream.emptied with
          window := bytes, cursor := distance, offset := some (boundary + bytes.length),
          atEnd := false } : Stream).Fits { d with position := boundary + bytes.length } content := by
        refine ⟨by change distance ≤ bytes.length; omega, hlen, fun _ => rfl, .inr hcovers, ?_⟩
        intro p hp _ _
        cases hp
        rfl
      refine moves_of_on h hpend hthrough ⟨hover₁.work rfl rfl, hfits⟩
        (hthrough.seekable h.opened hmobile) rfl ?_ rfl hw rfl
      intro data hc
      have := hboundary (by rw [hc]; rfl)
      refine ⟨hsame data hc, ?_⟩
      change ((boundary + bytes.length - (bytes.drop distance).length : Nat) : Int) = target
      rw [List.length_drop]
      omega

/-- The block boundary before a target. -/
def blockStart (capacity : Nat) (target : Int) : Int := target - target % capacity

private theorem rest_le (capacity : Nat) {target : Int} (h : 0 ≤ target) :
    target % (capacity : Int) ≤ target := by
  have hdiv : 0 ≤ target / (capacity : Int) := Int.ediv_nonneg h (by omega)
  have hsum := Int.mul_ediv_add_emod target capacity
  have hmul : 0 ≤ (capacity : Int) * (target / capacity) := Int.mul_nonneg (by omega) hdiv
  omega

/-- A target within reach has its block boundary within reach. -/
private theorem InReach.blockStart {limit capacity : Nat} {target : Int} (hcap : capacity ≠ 0)
    (h : InReach limit target) : InReach limit (blockStart capacity target) := by
  obtain ⟨hlow, hhigh⟩ := h
  have hle := rest_le capacity hlow
  have hrest := Int.emod_nonneg target (b := capacity) (by omega)
  unfold InReach Connection.blockStart
  omega

/-- The boundaries of larger blocks are further back. -/
theorem InReach.blockStart_of_dvd {limit size capacity : Nat} {target : Int} (hsize : size ∣ capacity)
    (hcap : capacity ≠ 0) (h : InReach limit (Connection.blockStart size target)) :
    InReach limit (Connection.blockStart capacity target) := by
  have hpos : size ≠ 0 := fun hzero => hcap (Nat.eq_zero_of_zero_dvd (hzero ▸ hsize))
  obtain ⟨hlow, hhigh⟩ := h
  have hrest := Int.emod_nonneg target (b := size) (by omega)
  have htarget : 0 ≤ target := by
    unfold Connection.blockStart at hlow
    omega
  have hle := rest_le capacity htarget
  have hmod := rest_le size (Int.emod_nonneg target (b := capacity) (by omega))
  rw [Int.emod_emod_of_dvd target (Int.natCast_dvd_natCast.2 hsize)] at hmod
  unfold InReach Connection.blockStart at *
  omega

private theorem boundary_refused {sys : System} {start : Int} {er : Errno} {data : Bytes} (h : c.Over d dev)
    (hreg : dev.content = .regular data) (e : c.system.seek c.stream.fd .start start = (sys, .error er)) :
    ¬ InReach c.system.largestOffset start ∧ sys.lastError = .invalidArgument := by
  have hfar : ¬ InReach c.system.largestOffset start := by
    intro hin
    obtain ⟨sys', hok⟩ := System.seek_regular .start start start.toNat h.opened hreg
      (by rw [System.base_start_add]; have := hin.1; omega) (by have := hin.2; omega)
    rw [e] at hok
    cases hok
  obtain ⟨sys', hrefused⟩ := System.seek_regular_error .start start h.opened hreg
    (by rw [System.base_start_add]; exact hfar)
  have hlast := (System.seek_error h.opened e).2.2
  rw [e] at hrefused
  cases hrefused
  exact ⟨hfar, hlast⟩

/-- A file is approached at every target within its reach and at no other. Where even the block boundary
is out of reach, nothing is moved. -/
theorem approach_regular {target : Int} {exact ok : Bool} {data : Bytes} (h : c.Over d dev)
    (hcap : c.stream.capacity ≠ 0) (hreg : dev.content = .regular data)
    (e : c.approach target exact = (c', ok)) :
    (InReach c.system.largestOffset target → ok = true) ∧
      (¬ InReach c.system.largestOffset target → ok = false ∧ c'.system.lastError = .invalidArgument ∧
        (¬ InReach c.system.largestOffset (blockStart c.stream.capacity target) → c.Stalls c')) := by
  obtain ⟨hdistance, -⟩ := @distance_spec target _ hcap
  have hreach := @InReach.blockStart c.system.largestOffset _ target hcap
  have hblock : blockStart c.stream.capacity target =
      target - ((target % (c.stream.capacity : Int)).toNat : Int) := by
    rw [blockStart, hdistance]
  rw [hblock] at hreach ⊢
  unfold approach at e
  generalize (target % (c.stream.capacity : Int)).toNat = distance at e hreach
  dsimp only at e
  split at e
  · rename_i sys er hseek
    cases e
    obtain ⟨hfar, hlast⟩ := boundary_refused h hreg hseek
    exact ⟨fun hin => absurd (hreach hin) hfar, fun _ => ⟨rfl, hlast, fun _ => h.stalls hseek⟩⟩
  rename_i sys boundary hseek
  obtain ⟨hsys, ho, -, hplace⟩ := System.seek_ok h.opened hseek
  obtain ⟨hboundary, hle⟩ := hplace (by rw [hreg]; rfl)
  rw [System.base_start_add] at hboundary
  have hnear : InReach c.system.largestOffset (target - distance) := ⟨by omega, by omega⟩
  have hinside : dev.content.Within boundary c.system.largestOffset := hsys.largestOffset ▸ (h.seek hseek).within
  split at e
  · rename_i hzero
    cases e
    refine ⟨fun _ => rfl, fun hout => absurd ?_ hout⟩
    rwa [hzero, Int.natCast_zero, Int.sub_zero] at hnear
  -- From the boundary on, a target is reached by reading, or by a move from where reading stopped.
  have hmove : ∀ {sys₁ : System} {p : Nat} {dev₁ : Device} {offset : Int},
      (⟨c.stream, sys₁⟩ : Connection).Over { d with position := p } dev₁ →
      sys₁.largestOffset = c.system.largestOffset → dev₁.content = .regular data → p + offset = target →
      moveDevice { c with system := sys₁ } .current offset = (c', ok) →
      (InReach c.system.largestOffset target → ok = true) ∧
        (¬ InReach c.system.largestOffset target → ok = false ∧ c'.system.lastError = .invalidArgument ∧
          (¬ InReach c.system.largestOffset (target - distance) → c.Stalls c')) := by
    intro sys₁ p dev₁ offset hover₁ hlargest hreg₁ htarget e
    obtain ⟨hin, hout⟩ := moveDevice_regular hover₁ hreg₁ e
    rw [show (⟨c.stream, sys₁⟩ : Connection).system.largestOffset = _ from hlargest, System.base, htarget] at hin hout
    exact ⟨hin, fun hfar => ⟨(hout hfar).1, (hout hfar).2.2, fun hno => absurd hnear hno⟩⟩
  split at e
  · rename_i sys₁ er hread
    obtain ⟨hsys₁, dev₁, ho₁, hcontent, -⟩ := System.read_error ho hread
    exact hmove (h.later (hsys.trans hsys₁) ho₁ (hcontent ▸ hinside)) (hsys.trans hsys₁).largestOffset
      (hcontent.trans hreg) (by omega) e
  · rename_i sys₁ bytes hread
    obtain ⟨hsys₁, -, content, hfetch, ho₁⟩ := System.read_ok ho hread
    have hin := Content.within_fetch hfetch hinside
    have hover₁ := h.later (hsys.trans hsys₁) ho₁ hin
    rw [hreg] at hfetch
    obtain ⟨rfl, hbytes⟩ := Content.fetch_regular hfetch
    split at e
    · exact hmove hover₁ (hsys.trans hsys₁).largestOffset rfl (by simp only; omega) e
    · rename_i hlong
      cases e
      refine ⟨fun _ => rfl, fun hout => absurd ?_ hout⟩
      have hend : boundary + bytes.length ≤ c.system.largestOffset := (hin rfl).2
      exact ⟨by omega, by omega⟩

end Connection

end BufferedFiles
