import BufferedFiles.Proofs.Port

/-!
# Transfers and moves of a device

What a read, a write or a move does at an open descriptor, case by case: what it returns, what becomes
of the content and of the position, and when it cannot fail.
-/
namespace BufferedFiles

namespace Content

/-- The content after bytes were put down at a position. -/
def laid (content : Content) (position : Nat) (bytes : Bytes) : Content :=
  match content with
  | .regular data => .regular (overwrite data position bytes)
  | .pipe queue => .pipe (queue ++ bytes)
  | content => content

theorem sameKind_laid (content : Content) (position : Nat) (bytes : Bytes) :
    content.SameKind (content.laid position bytes) := by
  cases content <;> trivial

theorem waiting_laid (content : Content) (position : Nat) (bytes : Bytes) :
    (content.laid position bytes).waiting ≤ content.waiting + bytes.length := by
  cases content with
  | pipe queue => exact Nat.le_of_eq List.length_append
  | _ => exact Nat.zero_le _

theorem coming_laid (content : Content) (position : Nat) (bytes : Bytes) :
    (content.laid position bytes).coming = content.coming := by
  cases content <;> rfl

/-- The content takes `n` bytes from a position on. `drained` tells whether a pipe still has a reader. -/
def HasRoom (content : Content) (position n largest : Nat) (drained : Bool) : Prop :=
  match content with
  | .regular _ => position + n ≤ largest
  | .pipe queue => drained = true ∧ queue.length + n ≤ pipeCapacity
  | .channel _ _ | .null | .zero => True
  | .directory | .full => False

theorem HasRoom.mono {content : Content} {position n m largest : Nat} {drained : Bool}
    (h : content.HasRoom position n largest drained) (hm : m ≤ n) :
    content.HasRoom position m largest drained := by
  cases content with
  | regular data => exact Nat.le_trans (Nat.add_le_add_left hm position) h
  | pipe queue => exact ⟨h.1, Nat.le_trans (Nat.add_le_add_left hm queue.length) h.2⟩
  | _ => exact h

/-- Room away from a file is nothing but room in a pipe. -/
theorem HasRoom.change {content content' : Content} {p q n k largest largest' : Nat} {drained : Bool}
    (h : content.HasRoom p n largest drained) (hkind : content.SameKind content')
    (hreg : content.isRegular = false) (hw : content'.waiting + k ≤ content.waiting + n) :
    content'.HasRoom q k largest' drained := by
  cases content with
  | regular data => cases hreg
  | pipe queue =>
    cases content' with
    | pipe queue' => exact ⟨h.1, Nat.le_trans hw h.2⟩
    | _ => cases hkind
  | directory => exact h.elim
  | full => exact h.elim
  | _ => cases content' <;> first | exact h | cases hkind

theorem addresses_of_le {content : Content} {position n : Nat}
    (h : content.isRegular = true ∨ content = .directory → position + n ≤ largestPosition) :
    content.addresses position n = true := by
  cases content with
  | regular data => exact decide_eq_true (h (.inl rfl))
  | directory => exact decide_eq_true (h (.inr rfl))
  | _ => rfl

theorem le_of_addresses {content : Content} {position n : Nat} (h : content.addresses position n = true)
    (hreg : content.isRegular = true) : position + n ≤ largestPosition := by
  cases content with
  | regular data => exact of_decide_eq_true h
  | _ => cases hreg

theorem addresses_mono {content : Content} {position n m : Nat}
    (h : content.addresses position n = true) (hm : m ≤ n) : content.addresses position m = true := by
  cases content with
  | regular data => exact decide_eq_true (Nat.le_trans (Nat.add_le_add_left hm _) (of_decide_eq_true h))
  | directory => exact decide_eq_true (Nat.le_trans (Nat.add_le_add_left hm _) (of_decide_eq_true h))
  | _ => rfl

/-- Room away from a file asks for no position. -/
theorem HasRoom.addresses {content content' : Content} {p n q k largest : Nat} {drained : Bool}
    (h : content.HasRoom p n largest drained) (hkind : content.SameKind content')
    (hreg : content.isRegular = false) : content'.addresses q k = true := by
  refine addresses_of_le fun hplaces => ?_
  rcases hplaces with hyes | rfl
  · exact Bool.noConfusion (hreg.symm.trans (hkind.isRegular.symm.trans hyes))
  · rw [hkind.symm.eq_directory] at h
    exact h.elim

/-- Where there is room, everything is put down at once. -/
theorem store_of_room {content : Content} {position largest : Nat} {bytes : Bytes} {drained : Bool}
    (h : content.HasRoom position bytes.length largest drained) (hb : bytes ≠ []) :
    content.store position bytes largest drained = .ok (bytes.length, content.laid position bytes) := by
  cases content with
  | regular data =>
    have hfits : position + bytes.length ≤ largest := h
    simp only [store, if_pos hfits, laid]
  | pipe queue =>
    obtain ⟨rfl, hfits⟩ := h
    have hpos := List.length_pos_iff.2 hb
    have hall : bytes.take (pipeCapacity - queue.length) = bytes := List.take_of_length_le (by omega)
    have hfree : (decide (pipeCapacity - queue.length = 0) || (decide (pipeCapacity - queue.length < bytes.length) &&
        decide (bytes.length ≤ pipeAtom))) = false := by
      simp only [Bool.or_eq_false_iff, Bool.and_eq_false_iff, decide_eq_false_iff_not]
      omega
    simp only [store, Bool.not_true, Bool.false_eq_true, if_false, hfree, hall, laid]
  | directory => exact h.elim
  | full => exact h.elim
  | _ => rfl

/-- A write puts down a start of what it is given, and not nothing. -/
theorem store_ok {content content' : Content} {position n largest : Nat} {bytes : Bytes}
    {drained : Bool} (h : content.store position bytes largest drained = .ok (n, content')) :
    n ≤ bytes.length ∧ (bytes ≠ [] → 0 < n) ∧ content' = content.laid position (bytes.take n) := by
  have hpos : bytes ≠ [] → 0 < bytes.length := List.length_pos_iff.2
  cases content with
  | regular data =>
    simp only [store] at h
    split at h
    · cases h
      exact ⟨Nat.le_refl _, hpos, by simp [laid]⟩
    · split at h
      · rename_i hle hlt
        cases h
        exact ⟨by omega, fun _ => by omega, rfl⟩
      · cases h
  | directory => cases h
  | pipe queue =>
    simp only [store] at h
    split at h
    · cases h
    · split at h
      · cases h
      · rename_i hfree
        simp only [Bool.or_eq_true, decide_eq_true_iff, not_or] at hfree
        cases h
        refine ⟨List.length_take_le' _ _, fun hne => ?_, ?_⟩
        · have := hpos hne
          simp only [List.length_take]
          omega
        · rw [laid, List.length_take, ← List.take_eq_take_min]
  | full => cases h
  | _ =>
    cases h
    exact ⟨Nat.le_refl _, hpos, rfl⟩

/-- A write to a file ends at an offset. -/
theorem store_within {content content' : Content} {position n largest : Nat} {bytes : Bytes}
    {drained : Bool} (h : content.store position bytes largest drained = .ok (n, content'))
    (hreg : content.isRegular = true) : position + n ≤ largest := by
  cases content with
  | regular data =>
    simp only [store] at h
    split at h
    · cases h
      assumption
    · split at h
      · cases h
        omega
      · cases h
  | _ => cases hreg

/-- A pipe gives what was put into it first, and gives it once. -/
theorem fetch_pipe {content' : Content} {queue bytes : Bytes} {position n : Nat} {fed : Bool}
    (h : (pipe queue).fetch position n fed = .ok (bytes, content')) :
    bytes = queue.take n ∧ content' = .pipe (queue.drop n) := by
  simp only [fetch] at h
  split at h
  · cases h
  · cases h
    exact ⟨rfl, rfl⟩

/-- A channel gives a start of what is coming, and gives it once. A read waits until something has come,
so it gets something unless nothing comes any more. -/
theorem fetch_channel {content' : Content} {coming bytes : Bytes} {arrivals : List Nat} {position n : Nat}
    {fed : Bool} (h : (channel coming arrivals).fetch position n fed = .ok (bytes, content')) :
    bytes.length ≤ n ∧ bytes = coming.take bytes.length ∧ (bytes = [] → n = 0 ∨ coming = []) ∧
      content' = .channel (coming.drop bytes.length) arrivals.tail := by
  simp only [fetch, Except.ok.injEq, Prod.mk.injEq] at h
  obtain ⟨rfl, rfl⟩ := h
  cases arrivals with
  | nil =>
    refine ⟨List.length_take_le _ _, ?_, fun hnil => List.take_eq_nil_iff.1 hnil, rfl⟩
    rw [List.length_take, ← List.take_eq_take_min]
  | cons more later =>
    simp only [List.take_take]
    refine ⟨by rw [List.length_take]; omega, by rw [List.length_take, ← List.take_eq_take_min], fun hnil => ?_, trivial⟩
    exact (List.take_eq_nil_iff.1 hnil).imp_left fun hzero => by omega

/-- A read gets at most what it asks for. -/
theorem fetch_ok {content content' : Content} {position n : Nat} {fed : Bool} {bytes : Bytes}
    (h : content.fetch position n fed = .ok (bytes, content')) :
    bytes.length ≤ n ∧ content.SameKind content' := by
  cases content with
  | regular data =>
    cases h
    exact ⟨List.length_take_le _ _, trivial⟩
  | directory => cases h
  | pipe queue =>
    obtain ⟨rfl, rfl⟩ := fetch_pipe h
    exact ⟨List.length_take_le _ _, trivial⟩
  | channel coming arrivals =>
    obtain ⟨hle, -, -, rfl⟩ := fetch_channel h
    exact ⟨hle, trivial⟩
  | _ =>
    cases h
    exact ⟨by simp, trivial⟩

theorem fetch_waiting {content content' : Content} {position n : Nat} {fed : Bool} {bytes : Bytes}
    (h : content.fetch position n fed = .ok (bytes, content')) : content'.waiting ≤ content.waiting := by
  cases content with
  | directory => cases h
  | pipe queue =>
    obtain ⟨rfl, rfl⟩ := fetch_pipe h
    exact (List.drop_sublist n queue).length_le
  | _ =>
    cases h
    exact Nat.le_refl _

theorem fetch_coming {content content' : Content} {position n : Nat} {fed : Bool} {bytes : Bytes}
    (h : content.fetch position n fed = .ok (bytes, content')) : content'.coming ≤ content.coming := by
  cases content with
  | directory => cases h
  | pipe queue =>
    obtain ⟨-, rfl⟩ := fetch_pipe h
    exact Nat.le_refl _
  | channel coming arrivals =>
    obtain ⟨-, -, -, rfl⟩ := fetch_channel h
    exact (List.drop_sublist _ coming).length_le
  | _ =>
    cases h
    exact Nat.le_refl _

end Content

namespace System

variable {sys sys' : System} {fd n : Nat} {d : Descriptor} {dev : Device} {bytes : Bytes} {e : Errno}
  {origin : Origin} {offset : Int}

/-- A device after a write used up an entry of its plan. -/
private theorem becomes_laid (dev : Device) (position : Nat) (more : Bytes) :
    dev.Becomes ⟨dev.content.laid position more, dev.faults.tail, dev.received ++ more⟩ := by
  refine ⟨dev.content.sameKind_laid _ _, List.tail_suffix _, List.prefix_append _ _, ?_,
    Nat.le_of_eq (dev.content.coming_laid position more)⟩
  have := dev.content.waiting_laid position more
  simp only [List.length_append]
  omega

/-- A device after a read used up an entry of its plan. -/
theorem becomes_fetch {content : Content} {fed : Bool}
    (h : dev.content.fetch d.position n fed = .ok (bytes, content)) :
    dev.Becomes { dev with content, faults := dev.faults.tail } :=
  ⟨(Content.fetch_ok h).2, List.tail_suffix _, List.prefix_refl _,
    Nat.add_le_add_right (Content.fetch_waiting h) _, Content.fetch_coming h⟩

private theorem becomes_fault (dev : Device) :
    dev.Becomes { dev with faults := dev.faults.tail } :=
  ⟨.refl _, List.tail_suffix _, List.prefix_refl _, Nat.le_refl _, Nat.le_refl _⟩

private theorem tail_of_fault {later : List (Option Errno)} (h : dev.faults = some e :: later) :
    later = dev.faults.tail := by rw [h]; rfl

private theorem fault (h : sys.opened? fd = some (d, dev)) (e : Errno) :
    Through fd sys
      { sys.setDevice d.device { dev with faults := dev.faults.tail } with lastError := e } ∧
      ∃ dev', ({ sys.setDevice d.device { dev with faults := dev.faults.tail } with
        lastError := e } : System).opened? fd = some (d, dev') ∧ dev'.content = dev.content ∧
        dev'.received = dev.received :=
  ⟨.ofFault h (becomes_fault dev) e, _, opened?_withDevice h _, rfl, rfl⟩

/-- Where a write at a descriptor starts. -/
def start (d : Descriptor) (content : Content) : Nat :=
  if d.appending then content.size else d.position

theorem write_error (h : sys.opened? fd = some (d, dev)) (hw : sys.write fd bytes = (sys', .error e)) :
    Through fd sys sys' ∧ ∃ dev', sys'.opened? fd = some (d, dev') ∧ dev'.content = dev.content ∧
      dev'.received = dev.received := by
  simp only [write, h] at hw
  split at hw
  · cases hw
    exact ⟨.withError fd sys _, dev, h, rfl, rfl⟩
  split at hw
  · cases hw
    exact ⟨.withError fd sys _, dev, h, rfl, rfl⟩
  split at hw
  · rename_i e' later hplan
    cases hw
    rw [tail_of_fault hplan]
    exact fault h _
  · split at hw
    · cases hw
      exact fault h _
    · cases hw

theorem write_ok (h : sys.opened? fd = some (d, dev)) (hw : sys.write fd bytes = (sys', .ok n)) :
    Through fd sys sys' ∧ n ≤ bytes.length ∧ (bytes ≠ [] → 0 < n) ∧
      (dev.content.isRegular = true → start d dev.content + n ≤ sys.largestOffset) ∧
      sys'.opened? fd = some ({ d with position := start d dev.content + n },
        ⟨dev.content.laid (start d dev.content) (bytes.take n), dev.faults.tail,
          dev.received ++ bytes.take n⟩) := by
  simp only [write, h] at hw
  split at hw
  · cases hw
  split at hw
  · cases hw
  split at hw
  · cases hw
  · split at hw
    · cases hw
    · rename_i m content hstore
      cases hw
      obtain ⟨hle, hpos, rfl⟩ := Content.store_ok hstore
      exact ⟨.ofPort h (becomes_laid dev _ _) _, hle, hpos,
        Content.store_within hstore, opened?_ofPort h _ _⟩

theorem through_write (sys : System) (fd : Nat) (bytes : Bytes) :
    Through fd sys (sys.write fd bytes).1 := by
  cases h : sys.opened? fd with
  | none =>
    simp only [write, h]
    exact .withError fd sys _
  | some port =>
    obtain ⟨d, dev⟩ := port
    rcases hw : sys.write fd bytes with ⟨sys', e | n⟩
    · exact (write_error h hw).1
    · exact (write_ok h hw).1

/-- A device that never fails takes all it has room for, where the bytes can be numbered. -/
theorem write_reliable (h : sys.opened? fd = some (d, dev)) (hd : d.writable = true)
    (hr : dev.Reliable) (haddr : dev.content.addresses d.position bytes.length = true)
    (hroom : dev.content.HasRoom (start d dev.content) bytes.length sys.largestOffset
      (sys.anyDescriptor d.device (·.readable))) (hb : bytes ≠ []) :
    ∃ sys', sys.write fd bytes = (sys', .ok bytes.length) := by
  have hstore := Content.store_of_room hroom hb
  simp only [start] at hstore
  simp only [write, h, hd, haddr, Bool.not_true, Bool.false_eq_true, if_false]
  split
  · rename_i e later hplan
    have := hr (some e) (by rw [hplan]; exact List.mem_cons_self)
    cases this
  · rw [hstore]
    exact ⟨_, rfl⟩

theorem read_error (h : sys.opened? fd = some (d, dev)) (hr : sys.read fd n = (sys', .error e)) :
    Through fd sys sys' ∧ ∃ dev', sys'.opened? fd = some (d, dev') ∧ dev'.content = dev.content ∧
      dev'.received = dev.received := by
  simp only [read, h] at hr
  split at hr
  · cases hr
    exact ⟨.withError fd sys _, dev, h, rfl, rfl⟩
  split at hr
  · cases hr
    exact ⟨.withError fd sys _, dev, h, rfl, rfl⟩
  split at hr
  · rename_i e' later hplan
    cases hr
    rw [tail_of_fault hplan]
    exact fault h _
  · split at hr
    · cases hr
      exact fault h _
    · cases hr

theorem read_ok (h : sys.opened? fd = some (d, dev)) (hr : sys.read fd n = (sys', .ok bytes)) :
    Through fd sys sys' ∧ d.readable = true ∧ ∃ content,
      dev.content.fetch d.position n (sys.anyDescriptor d.device (·.writable)) = .ok (bytes, content) ∧
      sys'.opened? fd = some ({ d with position := d.position + bytes.length },
        { dev with content, faults := dev.faults.tail }) := by
  simp only [read, h] at hr
  split at hr
  · cases hr
  rename_i hread
  split at hr
  · cases hr
  split at hr
  · cases hr
  · split at hr
    · cases hr
    · rename_i got content hfetch
      cases hr
      exact ⟨.ofPort h (becomes_fetch hfetch) _, by simpa using hread, content, hfetch,
        opened?_ofPort h _ _⟩

theorem through_read (sys : System) (fd n : Nat) : Through fd sys (sys.read fd n).1 := by
  cases h : sys.opened? fd with
  | none =>
    simp only [read, h]
    exact .withError fd sys _
  | some port =>
    obtain ⟨d, dev⟩ := port
    rcases hr : sys.read fd n with ⟨sys', e | bytes⟩
    · exact (read_error h hr).1
    · exact (read_ok h hr).1

/-- A device that never fails gives what its content has, where the bytes can be numbered. -/
theorem read_reliable (h : sys.opened? fd = some (d, dev)) (hd : d.readable = true)
    (hr : dev.Reliable) (haddr : dev.content.addresses d.position n = true) {content : Content}
    (hfetch : dev.content.fetch d.position n (sys.anyDescriptor d.device (·.writable)) =
      .ok (bytes, content)) :
    ∃ sys', sys.read fd n = (sys', .ok bytes) := by
  simp only [read, h, hd, haddr, Bool.not_true, Bool.false_eq_true, if_false]
  split
  · rename_i e later hplan
    have := hr (some e) (by rw [hplan]; exact List.mem_cons_self)
    cases this
  · rw [hfetch]
    exact ⟨_, rfl⟩

/-- What an offset is counted from. -/
def base (d : Descriptor) (content : Content) : Origin → Nat
  | .start => 0
  | .current => d.position
  | .finish => content.size

theorem base_start_add (d : Descriptor) (content : Content) (offset : Int) :
    (base d content .start : Int) + offset = offset := Int.zero_add offset

private theorem setDevice_self (h : sys.opened? fd = some (d, dev)) :
    sys.setDevice d.device dev = sys := by
  obtain ⟨hlt, hval⟩ := List.getElem?_eq_some_iff.1 (opened?_eq_some.1 h).2
  simp only [setDevice]
  rw [← hval, List.set_getElem_self]

theorem opened?_ofMove (h : sys.opened? fd = some (d, dev)) (p : Nat) :
    (sys.setDescriptor fd (some { d with position := p })).opened? fd =
      some ({ d with position := p }, dev) := by
  simpa only [setDevice_self h] using opened?_ofPort h dev p

theorem Through.ofMove (h : sys.opened? fd = some (d, dev)) (p : Nat) :
    Through fd sys (sys.setDescriptor fd (some { d with position := p })) := by
  simpa only [setDevice_self h] using Through.ofPort h (.refl dev) p

private theorem seek_positions (h : sys.opened? fd = some (d, dev))
    (hp : dev.content = .directory ∨ ∃ data, dev.content = .regular data) :
    sys.seek fd origin offset =
      if 0 ≤ (base d dev.content origin : Int) + offset ∧
          (base d dev.content origin : Int) + offset ≤ sys.largestOffset then
        (sys.setDescriptor fd
          (some { d with position := ((base d dev.content origin : Int) + offset).toNat }),
          .ok ((base d dev.content origin : Int) + offset).toNat)
      else sys.fail .invalidArgument := by
  rcases hp with hp | ⟨data, hp⟩ <;> cases origin <;>
  · simp only [seek, h, hp]
    rfl

theorem seek_endless (h : sys.opened? fd = some (d, dev))
    (hp : dev.content = .null ∨ dev.content = .zero ∨ dev.content = .full) :
    sys.seek fd origin offset = (sys.setDescriptor fd (some { d with position := 0 }), .ok 0) := by
  rcases hp with hp | hp | hp <;> simp only [seek, h, hp]

theorem seek_immobile (h : sys.opened? fd = some (d, dev)) (hp : dev.content.isMobile = false) :
    sys.seek fd origin offset = sys.fail .notSeekable := by
  cases hc : dev.content with
  | pipe queue => simp only [seek, h, hc]
  | channel coming arrivals => simp only [seek, h, hc]
  | _ =>
    rw [hc] at hp
    cases hp

theorem seek_error (h : sys.opened? fd = some (d, dev))
    (hs : sys.seek fd origin offset = (sys', .error e)) :
    Through fd sys sys' ∧ sys'.opened? fd = some (d, dev) ∧ sys'.lastError = e := by
  cases hp : dev.content with
  | pipe queue =>
    rw [seek_immobile h (by rw [hp]; rfl)] at hs
    cases hs
    exact ⟨.withError fd sys _, h, rfl⟩
  | channel coming arrivals =>
    rw [seek_immobile h (by rw [hp]; rfl)] at hs
    cases hs
    exact ⟨.withError fd sys _, h, rfl⟩
  | null => rw [seek_endless h (.inl hp)] at hs; cases hs
  | zero => rw [seek_endless h (.inr (.inl hp))] at hs; cases hs
  | full => rw [seek_endless h (.inr (.inr hp))] at hs; cases hs
  | _ =>
    rw [seek_positions h (by simp [hp])] at hs
    split at hs
    · cases hs
    · cases hs
      exact ⟨.withError fd sys _, h, rfl⟩

theorem seek_ok (h : sys.opened? fd = some (d, dev))
    (hs : sys.seek fd origin offset = (sys', .ok n)) :
    Through fd sys sys' ∧ sys'.opened? fd = some ({ d with position := n }, dev) ∧
      dev.content.isMobile = true ∧
      (dev.content.isRegular = true →
        (n : Int) = base d dev.content origin + offset ∧ n ≤ sys.largestOffset) := by
  have hendless : (dev.content = .null ∨ dev.content = .zero ∨ dev.content = .full) →
      Through fd sys sys' ∧ sys'.opened? fd = some ({ d with position := n }, dev) := by
    intro hp
    rw [seek_endless h hp] at hs
    cases hs
    exact ⟨.ofMove h 0, opened?_ofMove h 0⟩
  have hpositions : (dev.content = .directory ∨ ∃ data, dev.content = .regular data) →
      Through fd sys sys' ∧ sys'.opened? fd = some ({ d with position := n }, dev) ∧
        (n : Int) = base d dev.content origin + offset ∧ n ≤ sys.largestOffset := by
    intro hp
    rw [seek_positions h hp] at hs
    split at hs
    · cases hs
      exact ⟨.ofMove h _, opened?_ofMove h _, by omega, by omega⟩
    · cases hs
  cases hp : dev.content with
  | pipe queue => rw [seek_immobile h (by rw [hp]; rfl)] at hs; cases hs
  | channel coming arrivals => rw [seek_immobile h (by rw [hp]; rfl)] at hs; cases hs
  | regular data =>
    obtain ⟨ht, ho, hn⟩ := hpositions (.inr ⟨data, hp⟩)
    rw [hp] at hn
    exact ⟨ht, ho, rfl, fun _ => hn⟩
  | directory =>
    obtain ⟨ht, ho, -⟩ := hpositions (.inl hp)
    exact ⟨ht, ho, rfl, nofun⟩
  | null => exact ⟨(hendless (.inl hp)).1, (hendless (.inl hp)).2, rfl, nofun⟩
  | zero => exact ⟨(hendless (.inr (.inl hp))).1, (hendless (.inr (.inl hp))).2, rfl, nofun⟩
  | full => exact ⟨(hendless (.inr (.inr hp))).1, (hendless (.inr (.inr hp))).2, rfl, nofun⟩

theorem through_seek (sys : System) (fd : Nat) (origin : Origin) (offset : Int) :
    Through fd sys (sys.seek fd origin offset).1 := by
  cases h : sys.opened? fd with
  | none =>
    simp only [seek, h]
    exact .withError fd sys _
  | some port =>
    obtain ⟨d, dev⟩ := port
    rcases hs : sys.seek fd origin offset with ⟨sys', e | n⟩
    · exact (seek_error h hs).1
    · exact (seek_ok h hs).1

/-- A regular file is moved in as long as the target is an offset. -/
theorem seek_regular (origin : Origin) (offset : Int) (n : Nat)
    (h : sys.opened? fd = some (d, dev)) {data : Bytes} (hreg : dev.content = .regular data)
    (hn : (n : Int) = base d dev.content origin + offset) (hle : n ≤ sys.largestOffset) :
    ∃ sys', sys.seek fd origin offset = (sys', .ok n) := by
  rw [seek_positions h (.inr ⟨data, hreg⟩), if_pos (by omega), ← hn]
  exact ⟨_, rfl⟩

theorem seek_regular_error (origin : Origin) (offset : Int)
    (h : sys.opened? fd = some (d, dev)) {data : Bytes} (hreg : dev.content = .regular data)
    (hout : ¬ (0 ≤ (base d dev.content origin : Int) + offset ∧
      (base d dev.content origin : Int) + offset ≤ sys.largestOffset)) :
    ∃ sys', sys.seek fd origin offset = (sys', .error .invalidArgument) := by
  rw [seek_positions h (.inr ⟨data, hreg⟩), if_neg hout]
  exact ⟨_, rfl⟩

theorem through_inspect (sys : System) (fd : Nat) : Through fd sys (sys.inspect fd).1 := by
  cases h : sys.opened? fd with
  | none =>
    simp only [inspect, h]
    exact .withError fd sys _
  | some port =>
    simp only [inspect, h]
    exact .refl fd sys

theorem inspect_ok (h : sys.opened? fd = some (d, dev)) : sys.inspect fd = (sys, .ok dev) := by
  simp only [inspect, h]

end System

end BufferedFiles
