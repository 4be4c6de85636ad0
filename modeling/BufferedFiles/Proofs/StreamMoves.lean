import BufferedFiles.Proofs.DeviceMoves

/-!
# Moving a stream

A move leaves the account of a stream as it is, but for the position it asks for. Where it goes is
resolved against the position or the end, within the offsets; inside the window it does not even get to
the device.
-/
namespace BufferedFiles.Connection

variable {c c' : Connection} {d : Descriptor} {dev : Device}

/-- An offset that fits 64 bits. -/
def IsOffset (offset : Int) : Prop := -0x8000000000000000 ≤ offset ∧ offset < 0x8000000000000000

/-- An offset that was wrapped is a multiple of the word away from what it was. -/
theorem wrapOffset_spec {x : Int} (h₀ : -0x10000000000000000 ≤ x) (h₁ : x < 0x10000000000000000) :
    IsOffset (wrapOffset x) ∧
      (wrapOffset x = x ∨ wrapOffset x = x + 0x10000000000000000 ∨ wrapOffset x = x - 0x10000000000000000) := by
  unfold IsOffset wrapOffset Int.bmod
  dsimp only
  split <;> omega

theorem Lays.moves {a b : Connection} {target : Int} (h : a.Lays b []) (h' : b.Moves c target) :
    a.Moves c target where
  through := h.through.trans h'.through
  ready := h'.ready
  received := by rw [h'.received, h.account, Account.lay_nil]
  file f hf := h'.file f (by rw [h.account, Account.lay_nil, hf])
  pending := h'.pending
  writing := h'.writing
  signs := by
    have hs := h.signs
    simp only [Stream.signs, Prod.mk.injEq] at hs
    rw [h'.signs, hs.1, hs.2.2]

theorem inWindow?_eq_some {target : Int} {index : Nat} (h : c.inWindow? target = some index) :
    ∃ position, c.stream.offset = some position ∧ target < position ∧
      (index : Int) = target - (position - c.stream.window.length) := by
  unfold inWindow? at h
  split at h
  · cases h
  · rename_i position hoffset
    dsimp only at h
    split at h
    · cases h
      exact ⟨position, hoffset, by omega, by omega⟩
    · cases h

/-- A move inside the window moves the cursor. -/
private theorem moves_inWindow {target : Int} {index : Nat} (h : c.Ready)
    (hpend : c.stream.pending = []) (hw : c.stream.writing = false)
    (e : c.inWindow? target = some index) :
    c.Moves ⟨{ c.stream with cursor := index, atEnd := false },
      (c.system.seek c.stream.fd .start (c.stream.offset.getD 0)).1⟩ target := by
  obtain ⟨⟨d, dev, hon⟩, halign⟩ := h
  obtain ⟨position, hoffset, hlt, hindex⟩ := inWindow?_eq_some e
  have hne : c.stream.window ≠ [] := by
    intro hnil
    rw [hnil, List.length_nil] at hindex
    omega
  have hmobile := halign.resolve_left hne d dev hon.opened
  have hcovers := hon.fits.covers_of_drained hpend
  have hknown : dev.content.isRegular = true → position = d.position := fun hr =>
    hon.fits.offset position hoffset hr (.inl hne)
  have hthrough : c.Through ⟨{ c.stream with cursor := index, atEnd := false },
      (c.system.seek c.stream.fd .start (c.stream.offset.getD 0)).1⟩ :=
    ⟨.working, System.through_seek _ _ _ _, fun _ _ _ => rfl⟩
  have hseek : ∃ p, (c.system.seek c.stream.fd .start (c.stream.offset.getD 0)).1.opened?
      c.stream.fd = some ({ d with position := p }, dev) ∧
      (dev.content.isRegular = true → p = d.position) := by
    rcases hs : c.system.seek c.stream.fd .start (c.stream.offset.getD 0) with ⟨sys, er | n⟩
    · exact ⟨d.position, (System.seek_error hon.opened hs).2.1, fun _ => rfl⟩
    · obtain ⟨-, ho, -, hreg⟩ := System.seek_ok hon.opened hs
      refine ⟨n, ho, fun hr => ?_⟩
      have := (hreg hr).1
      rw [hoffset, Option.getD_some, hknown hr] at this
      simp only [System.base] at this
      omega
  obtain ⟨p, ho, hp⟩ := hseek
  have hcursor : index ≤ c.stream.window.length := by omega
  refine moves_of_on hon.toOver hpend hthrough
    ⟨⟨ho, hon.appending, ?_⟩, ⟨hcursor, hon.fits.window, fun _ => hpend, .inr ?_, ?_⟩⟩
    (hthrough.seekable hon.opened hmobile) rfl ?_ hpend hw rfl
  · rw [hthrough.system.largestOffset]
    exact fun hr => ⟨(hon.within hr).1, hp hr ▸ (hon.within hr).2⟩
  · exact hcovers.elsewhere hp
  · intro q hq hr _
    rw [hp hr, ← hknown hr]
    have hq : c.stream.offset = some q := hq
    rw [hoffset] at hq
    exact (Option.some.inj hq).symm
  · intro data hc
    refine ⟨hc, ?_⟩
    have hr : dev.content.isRegular = true := by rw [hc]; rfl
    have hd := hp hr
    have hk := hknown hr
    have hle : c.stream.window.length ≤ d.position := by
      rw [hc] at hcovers
      exact hcovers.1
    change ((p - (c.stream.window.drop index).length : Nat) : Int) = target
    rw [List.length_drop]
    omega

theorem resolve_stalls {origin : Origin} {offset : Int} {r : Option (Origin × Int)}
    (ho : c.system.opened? c.stream.fd = some (d, dev)) (e : c.resolve origin offset = (c', r)) :
    c.Stalls c' := by
  unfold resolve at e
  split at e
  · cases e
    exact .refl c
  · dsimp only at e
    split at e
    · cases e
      exact .refl c
    · split at e
      · cases e
        exact ⟨rfl, ⟨.refl _, .withError _ _ _, fun _ _ _ => rfl⟩, rfl⟩
      · cases e
        exact .refl c
  · simp only [System.inspect_ok ho] at e
    split at e <;>
    · cases e
      exact .refl c

theorem resolve_none {origin : Origin} {offset : Int}
    (ho : c.system.opened? c.stream.fd = some (d, dev)) (e : c.resolve origin offset = (c', none)) :
    c'.system.lastError = .invalidArgument := by
  unfold resolve at e
  split at e
  · cases e
  · dsimp only at e
    split at e
    · cases e
    · split at e
      · cases e
        rfl
      · cases e
  · simp only [System.inspect_ok ho] at e
    split at e <;> cases e

/-- An offset from an origin leads to a target, or is as far out of reach as the target; where it counts
from the start it is negative then. -/
def Resolves (limit base : Nat) (origin : Origin) (offset target : Int) : Prop :=
  base + offset = target ∨
    ¬ InReach limit target ∧ ¬ InReach limit (base + offset) ∧ (origin = .start → offset < 0)

/-- A move from the position of a file: offsets are added in 64 bits, and wrap out of reach. -/
private theorem resolve_current {offset : Int} {r : Option (Origin × Int)} {position : Nat} {data : Bytes}
    (h : c.On d dev) (hreg : dev.content = .regular data) (hknown : d.appending = c.stream.appends)
    (hahead : c.stream.ahead = c.stream.left) (hplace : position + c.stream.left.length = d.position)
    (hoffset : IsOffset offset) (e : c.resolve .current offset = (c', r)) :
    (r = none → ¬ InReach c.system.largestOffset (position + offset)) ∧
      ∀ o x, r = some (o, x) →
        Resolves c.system.largestOffset (System.base d dev.content o) o x (position + offset) := by
  have hr : dev.content.isRegular = true := by rw [hreg]; rfl
  have hwithin := (h.within hr).2
  have hlimit := c.system.addressable
  unfold largestPosition at hlimit
  obtain ⟨hlow, hhigh⟩ := hoffset
  simp only [resolve, hahead] at e
  obtain ⟨hw₁, hcase₁⟩ := wrapOffset_spec (x := offset - c.stream.left.length) (by omega) (by omega)
  generalize wrapOffset (offset - c.stream.left.length) = w at e hw₁ hcase₁
  unfold IsOffset at hw₁
  unfold Resolves InReach
  split at e
  · cases e
    refine ⟨fun hnone => (by cases hnone), fun o x hox => ?_⟩
    cases hox
    simp only [System.base, reduceCtorEq, false_implies, and_true]
    omega
  · rename_i known hoff
    have hpos : known = d.position := h.fits.offset known hoff hr (.inr hknown)
    obtain ⟨hw₂, hcase₂⟩ := wrapOffset_spec (x := w + known) (by omega) (by omega)
    generalize wrapOffset (w + known) = w' at e hw₂ hcase₂
    unfold IsOffset at hw₂
    split at e
    · cases e
      exact ⟨fun _ => by omega, fun o x hox => by cases hox⟩
    · cases e
      refine ⟨fun hnone => (by cases hnone), fun o x hox => ?_⟩
      cases hox
      simp only [System.base, true_implies]
      omega

/-- A move from the end of a file. -/
private theorem resolve_finish {offset : Int} {r : Option (Origin × Int)} {data : Bytes} (h : c.On d dev)
    (hreg : dev.content = .regular data) (hoffset : IsOffset offset)
    (e : c.resolve .finish offset = (c', r)) :
    (r = none → ¬ InReach c.system.largestOffset (data.length + offset)) ∧
      ∀ o x, r = some (o, x) →
        Resolves c.system.largestOffset (System.base d dev.content o) o x (data.length + offset) := by
  have hr : dev.content.isRegular = true := by rw [hreg]; rfl
  have hsize : dev.content.size = data.length := by rw [hreg]; rfl
  have hwithin := (h.within hr).1
  have hlimit := c.system.addressable
  unfold largestPosition at hlimit
  obtain ⟨hlow, hhigh⟩ := hoffset
  simp only [resolve, System.inspect_ok h.opened, hr, if_true] at e
  cases e
  refine ⟨nofun, fun o x hox => ?_⟩
  cases hox
  obtain ⟨hw₁, hcase₁⟩ := wrapOffset_spec (x := offset + dev.content.size) (by omega) (by omega)
  generalize wrapOffset (offset + dev.content.size) = w at hw₁ hcase₁
  unfold IsOffset at hw₁
  simp only [Resolves, InReach, System.base, true_implies]
  omega

/-- What a move comes to for a file: the target counted from the start or from the device, unless
both it and the target are out of reach. -/
theorem resolve_regular {origin : Origin} {offset : Int} {r : Option (Origin × Int)} {f : PlainFile}
    (h : c.On d dev) (hpend : c.stream.pending = []) (hw : c.stream.writing = false)
    (hfile : c.account.file = some f) (hknown : d.appending = c.stream.appends)
    (hoffset : IsOffset offset) (e : c.resolve origin offset = (c', r)) :
    (r = none → ¬ InReach c.system.largestOffset (f.base origin + offset)) ∧
      ∀ o x, r = some (o, x) →
        Resolves c.system.largestOffset (System.base d dev.content o) o x (f.base origin + offset) := by
  rw [account_of_drained hpend, standing_eq h.opened] at hfile
  obtain ⟨hc, hplace⟩ := Content.file?_eq_some hfile
  cases origin with
  | start =>
    cases e
    refine ⟨nofun, fun o x hox => ?_⟩
    cases hox
    exact .inl rfl
  | current =>
    have hahead : c.stream.ahead = c.stream.left :=
      Stream.ahead_of_calm fun hyes => by rw [hw] at hyes; cases hyes
    have hcovers := h.fits.covers_of_drained hpend
    have hlen := Stream.length_left c.stream
    rw [hc] at hcovers
    have hle := hcovers.1
    exact resolve_current h hc hknown hahead (by simp only [PlainFile.base]; omega) hoffset e
  | finish => exact resolve_finish h hc hoffset e

private theorem lays_idle {c₁ : Connection} (h : c.Ready) (hend : c.endOutput = (c₁, true)) :
    c.Lays c₁.allocate [] ∧ c₁.allocate.stream.pending = [] ∧ c₁.allocate.stream.writing = false ∧
      c₁.allocate.stream.capacity = c.stream.bufferSize := by
  obtain ⟨h₁, hpend, hw, -, -⟩ := endOutput_ok h hend
  obtain ⟨h₂, hw₂⟩ := lays_allocate h₁.ready
  obtain ⟨⟨d₀, dev₀, hon₀⟩, -⟩ := h
  obtain ⟨⟨d, dev, hon⟩, -⟩ := h₁.ready
  have e := allocate_eq hon.opened
  refine ⟨h₁.trans h₂, ?_, by rw [hw₂, hw], ?_⟩ <;> rw [e]
  · exact hpend
  · exact h₁.through.buffer d₀ dev₀ hon₀.opened

theorem arrive_ok {o : Origin} {x : Int} {exact : Bool} (h : c.Ready) (hon : c.On d dev)
    (hpend : c.stream.pending = []) (hw : c.stream.writing = false) (hcap : c.stream.capacity ≠ 0)
    (e : c.arrive o x exact = (c', true)) : c.Moves c' (System.base d dev.content o + x) := by
  unfold arrive at e
  split at e
  · rename_i hstart
    subst hstart
    rw [System.base_start_add]
    split at e
    · rename_i index hin
      cases e
      exact moves_inWindow h hpend hw hin
    · split at e
      · exact approach_spec hon.toOver hpend hw hcap e
      · have hm := (moveDevice_spec hon.toOver hpend hw e).1 rfl
        rwa [System.base_start_add] at hm
  · exact (moveDevice_spec hon.toOver hpend hw e).1 rfl

/-- A file is moved exactly to the targets within reach. -/
theorem arrive_regular {o : Origin} {x : Int} {exact ok : Bool} {data : Bytes} (hon : c.On d dev)
    (hpend : c.stream.pending = []) (hcap : c.stream.capacity ≠ 0) (hreg : dev.content = .regular data)
    (e : c.arrive o x exact = (c', ok)) :
    (InReach c.system.largestOffset (System.base d dev.content o + x) → ok = true) ∧
      (¬ InReach c.system.largestOffset (System.base d dev.content o + x) →
        ok = false ∧ c'.system.lastError = .invalidArgument ∧
        ((c.stream.reads = true → o = .start →
          ¬ InReach c.system.largestOffset (blockStart c.stream.capacity x)) → c.Stalls c')) := by
  have hmove : ∀ {o : Origin}, c.moveDevice o x = (c', ok) →
      (InReach c.system.largestOffset (System.base d dev.content o + x) → ok = true) ∧
        (¬ InReach c.system.largestOffset (System.base d dev.content o + x) →
          ok = false ∧ c'.system.lastError = .invalidArgument ∧ c.Stalls c') := by
    intro o e
    obtain ⟨hin, hout⟩ := moveDevice_regular hon.toOver hreg e
    exact ⟨hin, fun hno => ⟨(hout hno).1, (hout hno).2.2, (hout hno).2.1⟩⟩
  unfold arrive at e
  split at e
  · rename_i hstart
    subst hstart
    split at e
    · rename_i index hin
      cases e
      refine ⟨fun _ => rfl, fun hout => absurd ?_ hout⟩
      obtain ⟨position, hoffset, hbefore, hindex⟩ := inWindow?_eq_some hin
      have hcovers := hon.fits.covers_of_drained hpend
      have hlt : index < c.stream.window.length := by omega
      have hr : dev.content.isRegular = true := by rw [hreg]; rfl
      have hpos : position = d.position :=
        hon.fits.offset position hoffset hr (.inl (List.length_pos_iff.1 (by omega)))
      have hwithin := (hon.within hr).2
      rw [hreg] at hcovers
      have hwin := hcovers.1
      rw [System.base_start_add]
      exact ⟨by omega, by omega⟩
    · split at e
      · rename_i hyes
        rw [System.base_start_add]
        obtain ⟨hin, hout⟩ := approach_regular hon.toOver hcap hreg e
        exact ⟨hin, fun hno => ⟨(hout hno).1, (hout hno).2.1, fun hfar => (hout hno).2.2 (hfar hyes rfl)⟩⟩
      · exact ⟨(hmove e).1, fun hno => ⟨((hmove e).2 hno).1, ((hmove e).2 hno).2.1,
          fun _ => ((hmove e).2 hno).2.2⟩⟩
  · exact ⟨(hmove e).1, fun hno => ⟨((hmove e).2 hno).1, ((hmove e).2 hno).2.1,
      fun _ => ((hmove e).2 hno).2.2⟩⟩

theorem Ready.within {f : PlainFile} (h : c.Ready) (hpend : c.stream.pending = [])
    (hf : c.account.file = some f) :
    f.contents.length ≤ c.system.largestOffset ∧ f.position ≤ c.system.largestOffset := by
  obtain ⟨⟨d, dev, hon⟩, -⟩ := h
  rw [account_of_drained hpend, standing_eq hon.opened] at hf
  obtain ⟨hc, hplace⟩ := Content.file?_eq_some hf
  have hin := hon.within (by rw [hc]; rfl)
  rw [hc] at hin
  exact ⟨hin.1, by omega⟩

/-- What a move starts from, resolves to and goes to. -/
private theorem move_cases {origin : Origin} {offset : Int} {ok : Bool} (h : c.Ready)
    (e : c.move origin offset = (c', ok)) :
    (ok = false ∧ c.Fails c' 0 ∧ c.stream.pending ≠ []) ∨
      ∃ c₁ c₂ r d dev exact, c.Lays c₁ [] ∧ c₁.On d dev ∧ c₁.stream.pending = [] ∧
        c₁.stream.writing = false ∧ c₁.stream.capacity = c.stream.bufferSize ∧
        c₁.resolve origin offset = (c₂, r) ∧
        ((r = none ∧ ok = false ∧ c' = c₂) ∨
          ∃ o x, r = some (o, x) ∧ c₂.arrive o x exact = (c', ok)) := by
  unfold move at e
  generalize (c.stream.pending.isEmpty && (c.stream.writing || c.stream.window.isEmpty)) = exact at e
  dsimp only at e
  split at e
  · rename_i c₁ hend
    cases e
    exact .inl ⟨rfl, endOutput_fails h hend⟩
  · rename_i c₁ hend
    obtain ⟨h₁, hpend, hw, hcap⟩ := lays_idle h hend
    obtain ⟨⟨d, dev, hon⟩, -⟩ := h₁.ready
    refine .inr ?_
    split at e
    · rename_i c₂ hres
      cases e
      exact ⟨_, c', none, d, dev, exact, h₁, hon, hpend, hw, hcap, hres, .inl ⟨rfl, rfl, rfl⟩⟩
    · rename_i c₂ o x hres
      exact ⟨_, c₂, some (o, x), d, dev, exact, h₁, hon, hpend, hw, hcap, hres, .inr ⟨o, x, rfl, e⟩⟩

/-- The file and the descriptor a move starts from are those of the stream. -/
private theorem Lays.resumes {c₁ : Connection} {f : PlainFile} (h : c.Lays c₁ []) (hon : c₁.On d dev)
    (hf : c.account.file = some f) (hknown : c.account.appending = c.stream.appends) :
    c₁.account.file = some f ∧ d.appending = c₁.stream.appends := by
  refine ⟨by rw [h.account, Account.lay_nil, hf], ?_⟩
  rw [← account_appending hon.opened, h.account, Account.lay_nil, hknown, h.through.stream.appends]

/-- A move that succeeds has moved the stream; a file to the target. -/
theorem move_ok {origin : Origin} {offset : Int} (h : c.Ready) (e : c.move origin offset = (c', true)) :
    ∃ target, c.Moves c' target ∧ ∀ f, c.account.file = some f → c.account.appending = c.stream.appends →
      IsOffset offset → target = f.base origin + offset := by
  rcases move_cases h e with ⟨hno, -⟩ |
    ⟨c₁, c₂, r, d, dev, exact, h₁, hon, hpend, hw, hcap, hres, ⟨-, hno, -⟩ | ⟨o, x, rfl, harrive⟩⟩
  · cases hno
  · cases hno
  have hstalls := resolve_stalls hon.opened hres
  have h₂ := hstalls.lays h₁.ready
  have hm := arrive_ok h₂.ready (hstalls.on hon) (by rw [hstalls.stream, hpend])
    (by rw [hstalls.stream, hw]) (by rw [hstalls.stream, hcap]; exact c.stream.bufferSize_ne_zero) harrive
  have hmoves := (h₁.trans h₂).moves hm
  refine ⟨_, hmoves, fun f hf hknown hoff => ?_⟩
  obtain ⟨hf₁, hknown₁⟩ := h₁.resumes hon hf hknown
  obtain ⟨-, htarget⟩ := resolve_regular hon hpend hw hf₁ hknown₁ hoff hres
  obtain ⟨n, hn, hfile⟩ := hmoves.file f hf
  have hin := (hmoves.ready.within hmoves.pending hfile).2
  rw [hmoves.through.system.largestOffset, ← h₁.through.system.largestOffset] at hin
  rcases htarget o x rfl with heq | ⟨-, hout, -⟩
  · exact heq
  · exact absurd ⟨by omega, by rw [← hn]; exact Int.ofNat_le.2 hin⟩ hout

/-- A target is out of reach, but not the block boundary before it, where a stream for input would start
to read up to it. -/
def Overreaches (c : Connection) (target : Int) : Prop :=
  c.stream.reads = true ∧ ¬ InReach c.system.largestOffset target ∧
    InReach c.system.largestOffset (blockStart c.stream.bufferSize target)

private theorem not_inReach_blockStart {limit capacity : Nat} {target : Int} (hcap : capacity ≠ 0)
    (h : target < 0) : ¬ InReach limit (blockStart capacity target) := by
  have hrest := Int.emod_nonneg target (b := capacity) (by omega)
  rintro ⟨hlow, -⟩
  unfold blockStart at hlow
  omega

/-- A file is moved to every target within reach and to no other. Where it is not moved it stays as it
is, unless the target overreaches. -/
theorem move_regular {origin : Origin} {offset : Int} {f : PlainFile} {ok : Bool} (h : c.Ready)
    (hf : c.account.file = some f) (hknown : c.account.appending = c.stream.appends)
    (hoff : IsOffset offset) (hwilling : c.stream.pending = [] ∨ c.Willing 0)
    (e : c.move origin offset = (c', ok)) :
    (InReach c.system.largestOffset (f.base origin + offset) → ok = true) ∧
      (¬ InReach c.system.largestOffset (f.base origin + offset) →
        ok = false ∧ c'.system.lastError = .invalidArgument ∧
        (¬ c.Overreaches (f.base origin + offset) →
          c.Lays c' [] ∧ c'.stream.pending = [] ∧ c'.stream.writing = false)) := by
  rcases move_cases h e with ⟨-, hfails, hne⟩ |
    ⟨c₁, c₂, r, d, dev, exact, h₁, hon, hpend, hw, hcap, hres, hcase⟩
  · exact absurd (hwilling.resolve_left hne) hfails.unwilling
  obtain ⟨hf₁, hknown₁⟩ := h₁.resumes hon hf hknown
  obtain ⟨hnone, htarget⟩ := resolve_regular hon hpend hw hf₁ hknown₁ hoff hres
  have hstalls := resolve_stalls hon.opened hres
  have h₂ := h₁.trans (hstalls.lays h₁.ready)
  have hlimit : c₁.system.largestOffset = c.system.largestOffset := h₁.through.system.largestOffset
  have hlimit₂ : c₂.system.largestOffset = c.system.largestOffset := h₂.through.system.largestOffset
  have hpend₂ : c₂.stream.pending = [] := by rw [hstalls.stream, hpend]
  have hw₂ : c₂.stream.writing = false := by rw [hstalls.stream, hw]
  have hcap₂ : c₂.stream.capacity = c.stream.bufferSize := by rw [hstalls.stream, hcap]
  rw [hlimit] at hnone htarget
  rcases hcase with ⟨hr, hok, rfl⟩ | ⟨o, x, hr, harrive⟩
  · subst hr
    exact ⟨fun hin => absurd hin (hnone rfl),
      fun _ => ⟨hok, resolve_none hon.opened hres, fun _ => ⟨h₂, hpend₂, hw₂⟩⟩⟩
  have hreg : dev.content = .regular f.contents := by
    rw [account_of_drained hpend, standing_eq hon.opened] at hf₁
    exact (Content.file?_eq_some hf₁).1
  obtain ⟨hin, hout⟩ := arrive_regular (hstalls.on hon) hpend₂
    (by rw [hcap₂]; exact c.stream.bufferSize_ne_zero) hreg harrive
  rw [hlimit₂, hcap₂] at hout
  rw [hlimit₂] at hin
  have hfail : ¬ InReach c.system.largestOffset (System.base d dev.content o + x) →
      ((c.stream.reads = true → o = .start →
        ¬ InReach c.system.largestOffset (blockStart c.stream.bufferSize x)) →
      c.Lays c' [] ∧ c'.stream.pending = [] ∧ c'.stream.writing = false) := by
    intro hno hfar
    have hs := (hout hno).2.2 (by rw [hstalls.stream, h₁.through.stream.reads]; exact hfar)
    exact ⟨h₂.trans (hs.lays h₂.ready), by rw [hs.stream, hpend₂], by rw [hs.stream, hw₂]⟩
  rcases htarget o x hr with heq | ⟨hno, hno', hneg⟩
  · rw [← heq]
    refine ⟨hin, fun hno => ⟨(hout hno).1, (hout hno).2.1, fun hover => hfail hno fun hreads hstart hnear => ?_⟩⟩
    subst hstart
    rw [System.base_start_add] at hno hover
    exact hover ⟨hreads, hno, hnear⟩
  · exact ⟨fun hyes => absurd hyes hno, fun _ => ⟨(hout hno').1, (hout hno').2.1, fun _ => hfail hno'
      fun _ hstart => not_inReach_blockStart c.stream.bufferSize_ne_zero (hneg hstart)⟩⟩

end BufferedFiles.Connection
