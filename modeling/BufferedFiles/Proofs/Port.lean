import BufferedFiles.System.Path
import BufferedFiles.System.Transfer

/-!
# Calls on one descriptor

What calls on one descriptor leave alone: the names, the other descriptors, the other devices, and all
of its own descriptor but the position. Its device keeps its kind and forgets nothing it received.
-/
namespace BufferedFiles

/-- Two contents of one kind. -/
def Content.SameKind : Content → Content → Prop
  | .regular _, .regular _ | .directory, .directory | .pipe _, .pipe _ | .channel _ _, .channel _ _
  | .null, .null | .zero, .zero | .full, .full => True
  | _, _ => False

theorem Content.SameKind.refl (a : Content) : a.SameKind a := by cases a <;> trivial

theorem Content.SameKind.trans {a b c : Content} (h : a.SameKind b) (h' : b.SameKind c) :
    a.SameKind c := by
  cases a <;> cases b <;> cases c <;> trivial

theorem Content.isRegular_iff {content : Content} :
    content.isRegular = true ↔ ∃ data, content = .regular data := by
  cases content with
  | regular data => exact ⟨fun _ => ⟨data, rfl⟩, fun _ => rfl⟩
  | _ => exact ⟨nofun, nofun⟩

theorem Content.SameKind.isRegular {a b : Content} (h : a.SameKind b) :
    b.isRegular = a.isRegular := by
  cases a <;> cases b <;> first | rfl | cases h

theorem Content.SameKind.symm {a b : Content} (h : a.SameKind b) : b.SameKind a := by
  cases a <;> cases b <;> trivial

theorem Content.SameKind.eq_pipe {content : Content} {queue : Bytes}
    (h : (Content.pipe queue).SameKind content) : ∃ queue', content = .pipe queue' := by
  cases content with
  | pipe queue' => exact ⟨queue', rfl⟩
  | _ => cases h

theorem Content.SameKind.eq_directory {content : Content} (h : Content.directory.SameKind content) :
    content = .directory := by
  cases content with
  | directory => rfl
  | _ => cases h

/-- Whether a device can be moved. -/
def Content.isMobile : Content → Bool
  | .pipe _ | .channel _ _ => false
  | _ => true

theorem Content.SameKind.isMobile {a b : Content} (h : a.SameKind b) : b.isMobile = a.isMobile := by
  cases a <;> cases b <;> first | rfl | cases h

theorem Content.isRegular_of_immobile {content : Content} (h : content.isMobile = false) :
    content.isRegular = false := by
  cases content <;> first | rfl | cases h

/-- How many bytes a pipe has on their way. -/
def Content.waiting : Content → Nat
  | .pipe queue => queue.length
  | _ => 0

/-- How many bytes are still to come through a channel. -/
def Content.coming : Content → Nat
  | .channel coming _ => coming.length
  | _ => 0

/-- What becomes of a device in use: it keeps its kind, works off its plan, forgets nothing, and has no
more bytes on their way than it received. A channel gives what it was to give. -/
structure Device.Becomes (a b : Device) : Prop where
  kind : a.content.SameKind b.content
  faults : b.faults <:+ a.faults
  received : a.received <+: b.received
  waiting : b.content.waiting + a.received.length ≤ a.content.waiting + b.received.length
  coming : b.content.coming ≤ a.content.coming

theorem Device.Becomes.refl (a : Device) : a.Becomes a :=
  ⟨.refl _, List.suffix_refl _, List.prefix_refl _, Nat.le_refl _, Nat.le_refl _⟩

theorem Device.Becomes.trans {a b c : Device} (h : a.Becomes b) (h' : b.Becomes c) : a.Becomes c :=
  ⟨h.kind.trans h'.kind, h'.faults.trans h.faults, h.received.trans h'.received, by
    have := h.waiting
    have := h'.waiting
    omega, Nat.le_trans h'.coming h.coming⟩

/-- A device that never fails. -/
def Device.Reliable (dev : Device) : Prop := ∀ f ∈ dev.faults, f = none

theorem Device.Becomes.reliable {a b : Device} (h : a.Becomes b) (ha : a.Reliable) : b.Reliable :=
  fun f hf => ha f (h.faults.subset hf)

namespace System

variable {sys a b c : System} {fd i : Nat} {d : Descriptor} {dev : Device}

@[simp] theorem descriptor?_setDevice (sys : System) (i : Nat) (dev : Device) (j : Nat) :
    (sys.setDevice i dev).descriptor? j = sys.descriptor? j := rfl

@[simp] theorem device?_setDescriptor (sys : System) (fd : Nat) (d : Option Descriptor) (j : Nat) :
    (sys.setDescriptor fd d).device? j = sys.device? j := rfl

theorem opened?_eq_some :
    sys.opened? fd = some (d, dev) ↔ sys.descriptor? fd = some d ∧ sys.device? d.device = some dev := by
  unfold opened?
  cases h : sys.descriptor? fd with
  | none => simp
  | some e =>
    simp only [Option.map_eq_some_iff, Prod.mk.injEq, Option.some.injEq]
    constructor
    · rintro ⟨_, hd, rfl, rfl⟩
      exact ⟨rfl, hd⟩
    · rintro ⟨rfl, hd⟩
      exact ⟨_, hd, rfl, rfl⟩

theorem lt_of_descriptor? (h : sys.descriptor? fd = some d) : fd < sys.descriptors.length := by
  simp only [descriptor?, Option.join_eq_some_iff] at h
  exact (List.getElem?_eq_some_iff.1 h).1

theorem lt_of_device? (h : sys.device? i = some dev) : i < sys.devices.length :=
  (List.getElem?_eq_some_iff.1 h).1

/-- `b` is `a` after calls on the descriptor `fd`. -/
structure Through (fd : Nat) (a b : System) : Prop where
  names : b.names = a.names
  home : b.home = a.home
  largestOffset : b.largestOffset = a.largestOffset
  charsets : b.charsets = a.charsets
  openStreams : b.openStreams = a.openStreams
  width : b.descriptors.length = a.descriptors.length
  others : ∀ j, j ≠ fd → b.descriptor? j = a.descriptor? j
  own : ∀ d, a.descriptor? fd = some d → ∃ p, b.descriptor? fd = some { d with position := p }
  absent : a.descriptor? fd = none → b.descriptor? fd = none
  device : ∀ i dev, a.device? i = some dev → ∃ dev', b.device? i = some dev' ∧ dev.Becomes dev'
  missing : ∀ i, a.device? i = none → b.device? i = none
  foreign : ∀ i, (∀ d, a.descriptor? fd = some d → d.device ≠ i) → b.device? i = a.device? i

theorem Through.refl (fd : Nat) (a : System) : Through fd a a where
  names := rfl
  home := rfl
  largestOffset := rfl
  charsets := rfl
  openStreams := rfl
  width := rfl
  others _ _ := rfl
  own d h := ⟨d.position, h⟩
  absent h := h
  device _ dev h := ⟨dev, h, .refl dev⟩
  missing _ h := h
  foreign _ _ := rfl

theorem Through.trans (h : Through fd a b) (h' : Through fd b c) : Through fd a c where
  names := h'.names.trans h.names
  home := h'.home.trans h.home
  largestOffset := h'.largestOffset.trans h.largestOffset
  charsets := h'.charsets.trans h.charsets
  openStreams := h'.openStreams.trans h.openStreams
  width := h'.width.trans h.width
  others j hj := (h'.others j hj).trans (h.others j hj)
  own d hd := by
    obtain ⟨_, hp⟩ := h.own d hd
    obtain ⟨q, hq⟩ := h'.own _ hp
    exact ⟨q, hq⟩
  absent hd := h'.absent (h.absent hd)
  device i dev hi := by
    obtain ⟨dev', hi', hb⟩ := h.device i dev hi
    obtain ⟨dev'', hi'', hb'⟩ := h'.device i dev' hi'
    exact ⟨dev'', hi'', hb.trans hb'⟩
  missing i hi := h'.missing i (h.missing i hi)
  foreign i hi := by
    refine (h'.foreign i ?_).trans (h.foreign i hi)
    intro d hd
    cases hd₀ : a.descriptor? fd with
    | none => rw [h.absent hd₀] at hd; cases hd
    | some d₀ =>
      obtain ⟨p, hp⟩ := h.own d₀ hd₀
      rw [hp] at hd
      cases hd
      exact hi d₀ hd₀

theorem anyDescriptor_iff {p : Descriptor → Bool} :
    sys.anyDescriptor i p = true ↔
      ∃ fd d, sys.descriptor? fd = some d ∧ d.device = i ∧ p d = true := by
  unfold anyDescriptor
  rw [List.any_eq_true]
  constructor
  · rintro ⟨entry, hmem, hentry⟩
    obtain ⟨fd, hlt, rfl⟩ := List.getElem_of_mem hmem
    cases hd : sys.descriptors[fd] with
    | none =>
      rw [hd] at hentry
      cases hentry
    | some d =>
      rw [hd] at hentry
      refine ⟨fd, d, ?_, by simpa using hentry⟩
      rw [descriptor?, List.getElem?_eq_getElem hlt, hd, Option.join_some]
  · rintro ⟨fd, d, hd, hi, hp⟩
    rw [descriptor?, Option.join_eq_some_iff] at hd
    exact ⟨some d, List.mem_of_getElem? hd, by simp [hi, hp]⟩

theorem anyDescriptor_congr {p : Descriptor → Bool}
    (h : ∀ fd d, d.device = i → (b.descriptor? fd = some d ↔ a.descriptor? fd = some d)) :
    b.anyDescriptor i p = a.anyDescriptor i p := by
  rw [Bool.eq_iff_iff, anyDescriptor_iff, anyDescriptor_iff]
  refine exists_congr fun fd => exists_congr fun d => ?_
  constructor
  · rintro ⟨hd, hi, hp⟩
    exact ⟨(h fd d hi).1 hd, hi, hp⟩
  · rintro ⟨hd, hi, hp⟩
    exact ⟨(h fd d hi).2 hd, hi, hp⟩

/-- Calls on a descriptor change nothing about what descriptors there are. -/
theorem Through.anyDescriptor {p : Descriptor → Bool} (h : Through fd a b)
    (hp : ∀ d q, p { d with position := q } = p d) : b.anyDescriptor i p = a.anyDescriptor i p := by
  rw [Bool.eq_iff_iff, anyDescriptor_iff, anyDescriptor_iff]
  constructor
  · rintro ⟨j, d, hd, hi, hpd⟩
    by_cases hj : j = fd
    · subst hj
      cases hd₀ : a.descriptor? j with
      | none =>
        rw [h.absent hd₀] at hd
        cases hd
      | some d₀ =>
        obtain ⟨q, hq⟩ := h.own d₀ hd₀
        rw [hd] at hq
        cases hq
        exact ⟨j, d₀, hd₀, hi, by rw [← hp d₀ q, hpd]⟩
    · exact ⟨j, d, by rw [← h.others j hj, hd], hi, hpd⟩
  · rintro ⟨j, d, hd, hi, hpd⟩
    by_cases hj : j = fd
    · subst hj
      obtain ⟨q, hq⟩ := h.own d hd
      exact ⟨j, _, hq, hi, by rw [hp, hpd]⟩
    · exact ⟨j, d, by rw [h.others j hj, hd], hi, hpd⟩

/-- The last error belongs to no descriptor. -/
theorem Through.withError (fd : Nat) (a : System) (e : Errno) :
    Through fd a { a with lastError := e } :=
  { Through.refl fd a with }

/-- One transfer or move at an open descriptor. -/
theorem Through.ofPort (h : sys.opened? fd = some (d, dev)) {dev' : Device} (hb : dev.Becomes dev')
    (p : Nat) :
    Through fd sys ((sys.setDevice d.device dev').setDescriptor fd (some { d with position := p })) := by
  obtain ⟨hd, hdev⟩ := opened?_eq_some.1 h
  have hfd := lt_of_descriptor? hd
  have hi := lt_of_device? hdev
  have hs : ∀ j, ((sys.setDevice d.device dev').setDescriptor fd (some { d with position := p })).device? j =
      if d.device = j then some dev' else sys.device? j := by
    intro j
    rw [device?_setDescriptor, device?_setDevice]
    simp [hi]
  refine ⟨rfl, rfl, rfl, rfl, rfl, List.length_set, ?_, ?_, ?_, ?_, ?_, ?_⟩
  · intro j hj
    rw [descriptor?_setDescriptor]
    simp [Ne.symm hj]
  · intro d' hd'
    rw [hd] at hd'
    cases hd'
    refine ⟨p, ?_⟩
    rw [descriptor?_setDescriptor]
    simp [setDevice, hfd]
  · intro hn
    rw [hd] at hn
    cases hn
  · intro j dev₀ hj
    rw [hs]
    by_cases hij : d.device = j
    · subst hij
      rw [hdev] at hj
      cases hj
      exact ⟨dev', by simp, hb⟩
    · exact ⟨dev₀, by simpa [hij] using hj, .refl _⟩
  · intro j hj
    rw [hs]
    by_cases hij : d.device = j
    · subst hij
      rw [hdev] at hj
      cases hj
    · simpa [hij] using hj
  · intro j hj
    rw [hs]
    simp [hj d hd]

theorem opened?_ofPort (h : sys.opened? fd = some (d, dev)) (dev' : Device) (p : Nat) :
    ((sys.setDevice d.device dev').setDescriptor fd (some { d with position := p })).opened? fd =
      some ({ d with position := p }, dev') := by
  obtain ⟨hd, hdev⟩ := opened?_eq_some.1 h
  have hfd := lt_of_descriptor? hd
  have hi := lt_of_device? hdev
  refine opened?_eq_some.2 ⟨?_, ?_⟩
  · rw [descriptor?_setDescriptor]
    simp [setDevice, hfd]
  · rw [device?_setDescriptor, device?_setDevice]
    simp [hi]

theorem opened?_withDevice (h : sys.opened? fd = some (d, dev)) (dev' : Device) :
    (sys.setDevice d.device dev').opened? fd = some (d, dev') := by
  obtain ⟨hd, hdev⟩ := opened?_eq_some.1 h
  have hi := lt_of_device? hdev
  refine opened?_eq_some.2 ⟨hd, ?_⟩
  rw [device?_setDevice]
  simp [hi]

/-- A transfer that failed at an open descriptor moves nothing and uses up an entry of the plan. -/
theorem Through.ofFault (h : sys.opened? fd = some (d, dev)) {dev' : Device} (hb : dev.Becomes dev')
    (e : Errno) : Through fd sys { sys.setDevice d.device dev' with lastError := e } := by
  obtain ⟨hd, hdev⟩ := opened?_eq_some.1 h
  have hport := Through.ofPort h hb d.position
  have hsame : ({ d with position := d.position } : Descriptor) = d := rfl
  rw [hsame] at hport
  have hset : (sys.setDevice d.device dev').setDescriptor fd (some d) = sys.setDevice d.device dev' := by
    have hget : sys.descriptors[fd]? = some (some d) := by
      simpa only [descriptor?, Option.join_eq_some_iff] using hd
    have hfd := (List.getElem?_eq_some_iff.1 hget)
    obtain ⟨hlt, hval⟩ := hfd
    simp only [setDescriptor, setDevice]
    rw [← hval, List.set_getElem_self]
  rw [hset] at hport
  exact hport.trans (.withError fd _ e)

end System

end BufferedFiles
