import BufferedFiles.Proofs.HandleRun
import BufferedFiles.Proofs.InputSupply

/-!
# Streams that share a system

What is done through one descriptor spares every other one, and a stream behind a descriptor that was
spared, in front of a device that was spared, stands and gives what it stood for and gave before.
-/
namespace BufferedFiles

/-- The device holds what it held. -/
structure Device.Keeps (a b : Device) : Prop where
  content : b.content = a.content
  received : b.received = a.received
  faults : b.faults <:+ a.faults

namespace Device.Keeps

variable {a b c : Device}

theorem refl (a : Device) : a.Keeps a := ⟨rfl, rfl, List.suffix_refl _⟩

theorem trans (h : a.Keeps b) (h' : b.Keeps c) : a.Keeps c :=
  ⟨h'.content.trans h.content, h'.received.trans h.received, h'.faults.trans h.faults⟩

theorem reliable (h : a.Keeps b) (ha : a.Reliable) : b.Reliable := fun f hf => ha f (h.faults.subset hf)

end Device.Keeps

namespace System

variable {a b c sys : System} {fds devices fds' devices' : Nat → Prop} {fd : Nat} {d : Descriptor}
  {dev : Device}

/-- `b` is `a` after calls that did without the open descriptors that are not in `fds`, and left what
the devices that are not in `devices` hold. No end of a pipe was opened or closed. -/
structure Spares (fds devices : Nat → Prop) (a b : System) : Prop where
  grows : a.Grows b
  largestOffset : b.largestOffset = a.largestOffset
  descriptor : ∀ fd d, ¬ fds fd → a.descriptor? fd = some d → b.descriptor? fd = some d
  device : ∀ i dev, ¬ devices i → a.device? i = some dev → ∃ dev', b.device? i = some dev' ∧ dev.Keeps dev'
  ends : ∀ i dev (p : Descriptor → Bool), a.device? i = some dev → dev.content.isRegular = false →
    (∀ d q, p { d with position := q } = p d) → b.anyDescriptor i p = a.anyDescriptor i p

theorem Spares.refl (fds devices : Nat → Prop) (a : System) : Spares fds devices a a where
  grows := .refl a
  largestOffset := rfl
  descriptor _ _ _ h := h
  device _ dev _ h := ⟨dev, h, .refl dev⟩
  ends _ _ _ _ _ _ := rfl

theorem Spares.trans (h : Spares fds devices a b) (h' : Spares fds devices b c) :
    Spares fds devices a c where
  grows := h.grows.trans h'.grows
  largestOffset := h'.largestOffset.trans h.largestOffset
  descriptor fd d hfd hd := h'.descriptor fd d hfd (h.descriptor fd d hfd hd)
  device i dev hi hdev := by
    obtain ⟨dev', hdev', hk⟩ := h.device i dev hi hdev
    obtain ⟨dev'', hdev'', hk'⟩ := h'.device i dev' hi hdev'
    exact ⟨dev'', hdev'', hk.trans hk'⟩
  ends i dev p hdev hreg hp := by
    obtain ⟨dev', hdev', hkind⟩ := h.grows.device i dev hdev
    rw [h'.ends i dev' p hdev' (hkind.isRegular.trans hreg) hp, h.ends i dev p hdev hreg hp]

theorem Spares.mono (h : Spares fds devices a b) (hfds : ∀ fd, fds fd → fds' fd)
    (hdevices : ∀ i, devices i → devices' i) : Spares fds' devices' a b where
  grows := h.grows
  largestOffset := h.largestOffset
  descriptor fd d hfd := h.descriptor fd d (hfd ∘ hfds fd)
  device i dev hi := h.device i dev (hi ∘ hdevices i)
  ends := h.ends

/-- Calls on a descriptor spare the others and all devices but its own. -/
theorem Through.spares (h : Through fd a b) (hfd : fds fd)
    (hdevice : ∀ i, ¬ devices i → (∃ d, a.descriptor? fd = some d ∧ d.device = i) →
      ∀ dev, a.device? i = some dev → ∃ dev', b.device? i = some dev' ∧ dev.Keeps dev') :
    Spares fds devices a b where
  grows := h.grows
  largestOffset := h.largestOffset
  descriptor j d hj hd := (h.others j fun hjfd => hj (hjfd ▸ hfd)).trans hd
  device i dev hi hdev := by
    by_cases hown : ∃ d, a.descriptor? fd = some d ∧ d.device = i
    · exact hdevice i hi hown dev hdev
    · exact ⟨dev, (h.foreign i fun d hd hdi => hown ⟨d, hd, hdi⟩).trans hdev, .refl dev⟩
  ends _ _ _ _ _ hp := h.anyDescriptor hp

theorem Through.spares_own {i : Nat} (h : Through fd a b) (hd : ∃ d, a.descriptor? fd = some d ∧ d.device = i) :
    Spares (· = fd) (· = i) a b := by
  obtain ⟨d, hdesc, rfl⟩ := hd
  refine h.spares rfl fun i hi ⟨d', hdesc', hdi⟩ => ?_
  rw [hdesc] at hdesc'
  cases hdesc'
  exact absurd hdi.symm hi

/-- Opening a file spares all devices but the file that is emptied by it. -/
theorem Provides.spares {mode : OpenMode} {place : List Name} {data : Bytes} {i : Nat}
    (h : a.Provides b mode place data i dev) (ho : b.opened? fd = some (d, dev)) (hd : d.device = i)
    (hfree : a.descriptor? fd = none) (hothers : ∀ j, j ≠ fd → b.descriptor? j = a.descriptor? j)
    (hdevice : mode.truncates = true → devices i) : Spares fds devices a b where
  grows := h.grows
  largestOffset := h.largest
  descriptor j d₀ _ hd₀ := by
    have hj : j ≠ fd := by
      rintro rfl
      rw [hfree] at hd₀
      cases hd₀
    exact (hothers j hj).trans hd₀
  device j dev₀ hj hdev₀ := by
    by_cases hji : j = i
    · subst hji
      have hkeeps : mode.truncates = false := by
        cases htrunc : mode.truncates with
        | true => exact absurd (hdevice htrunc) hj
        | false => rfl
      rw [h.same hkeeps dev₀ hdev₀]
      exact ⟨dev, h.device, .refl dev⟩
    · exact ⟨dev₀, h.foreign j dev₀ hji hdev₀, .refl dev₀⟩
  ends j dev₀ p hdev₀ hreg _ := by
    refine anyDescriptor_congr fun k d₀ hdj => ?_
    by_cases hk : k = fd
    · subst hk
      refine iff_of_false (fun hd₀ => ?_) (by rw [hfree]; exact nofun)
      rw [(opened?_eq_some.1 ho).1] at hd₀
      cases hd₀
      obtain ⟨dev', hdev', hkind⟩ := h.grows.device j dev₀ hdev₀
      rw [← hdj, hd, h.device] at hdev'
      cases hdev'
      have hsame := hkind.isRegular
      rw [h.content, hreg] at hsame
      cases hsame
    · rw [hothers k hk]

/-- Closing a file spares all devices. -/
theorem Drops.spares (h : Drops fd a b) (hfd : fds fd)
    (hreg : ∀ d dev, a.opened? fd = some (d, dev) → dev.content.isRegular = true) :
    Spares fds devices a b where
  grows := .of_same h.device h.names h.home
  largestOffset := h.largestOffset
  descriptor j d hj hd := (h.others j fun hjfd => hj (hjfd ▸ hfd)).trans hd
  device i dev _ hdev := ⟨dev, (h.device i).trans hdev, .refl dev⟩
  ends i dev p hdev hno _ := by
    refine anyDescriptor_congr fun k d hdi => ?_
    by_cases hk : k = fd
    · subst hk
      refine iff_of_false (by rw [h.gone]; exact nofun) fun hd => ?_
      have hyes := hreg d dev (opened?_eq_some.2 ⟨hd, hdi ▸ hdev⟩)
      rw [hno] at hyes
      cases hyes
    · rw [h.others k hk]

end System

namespace Connection

variable {c : Connection} {sys : System} {fds devices : Nat → Prop} {d : Descriptor} {dev : Device} {n : Nat}

/-- A stream that was spared is where it was. -/
theorem opened_spared (hs : System.Spares fds devices c.system sys)
    (ho : c.system.opened? c.stream.fd = some (d, dev)) (hfd : ¬ fds c.stream.fd) (hdev : ¬ devices d.device) :
    ∃ dev', sys.opened? c.stream.fd = some (d, dev') ∧ dev.Keeps dev' := by
  obtain ⟨hd, hdevice⟩ := System.opened?_eq_some.1 ho
  obtain ⟨dev', hdev', hk⟩ := hs.device _ dev hdev hdevice
  exact ⟨dev', System.opened?_eq_some.2 ⟨hs.descriptor _ d hfd hd, hdev'⟩, hk⟩

theorem On.spared (h : c.On d dev) (hs : System.Spares fds devices c.system sys)
    (hfd : ¬ fds c.stream.fd) (hdev : ¬ devices d.device) :
    ∃ dev', (⟨c.stream, sys⟩ : Connection).On d dev' ∧ dev.Keeps dev' := by
  obtain ⟨dev', ho, hk⟩ := opened_spared hs h.opened hfd hdev
  refine ⟨dev', ⟨⟨ho, h.appending, ?_⟩, ?_⟩, hk⟩
  · rw [hk.content, hs.largestOffset]
    exact h.within
  · rw [hk.content]
    exact h.fits

theorem account_spared (hs : System.Spares fds devices c.system sys)
    (ho : c.system.opened? c.stream.fd = some (d, dev)) (hfd : ¬ fds c.stream.fd) (hdev : ¬ devices d.device) :
    (⟨c.stream, sys⟩ : Connection).account = c.account := by
  obtain ⟨dev', ho', hk⟩ := opened_spared hs ho hfd hdev
  have ho' : (⟨c.stream, sys⟩ : Connection).system.opened? (⟨c.stream, sys⟩ : Connection).stream.fd =
    some (d, dev') := ho'
  simp only [account, standing_eq ho, standing_eq ho', Account.ofPort, hk.content, hk.received]

theorem Ready.spared (h : c.Ready) (hs : System.Spares fds devices c.system sys) (hfd : ¬ fds c.stream.fd)
    (hdev : ∀ d, c.system.descriptor? c.stream.fd = some d → ¬ devices d.device) :
    (⟨c.stream, sys⟩ : Connection).Ready := by
  obtain ⟨⟨d, dev, hon⟩, halign⟩ := h
  obtain ⟨dev', hon', hk⟩ := hon.spared hs hfd (hdev d (System.opened?_eq_some.1 hon.opened).1)
  refine ⟨⟨d, dev', hon'⟩, halign.imp_right fun hmobile d₀ dev₀ ho₀ => ?_⟩
  rw [hon'.opened] at ho₀
  cases ho₀
  rw [hk.content]
  exact hmobile d dev hon.opened

theorem Willing.spared (h : c.Willing n) (hs : System.Spares fds devices c.system sys)
    (hfd : ¬ fds c.stream.fd)
    (hdev : ∀ d, c.system.descriptor? c.stream.fd = some d → ¬ devices d.device) :
    (⟨c.stream, sys⟩ : Connection).Willing n := by
  obtain ⟨d, dev, ho, hw, hr, hroom, haddr⟩ := h
  obtain ⟨hd, hdevice⟩ := System.opened?_eq_some.1 ho
  obtain ⟨dev', ho', hk⟩ := opened_spared hs ho hfd (hdev d hd)
  refine ⟨d, dev', ho', hw, hk.reliable hr, ?_, by rw [hk.content]; exact haddr⟩
  rw [hk.content, hs.largestOffset]
  cases hreg : dev.content.isRegular with
  | false =>
    rw [hs.ends d.device dev _ hdevice hreg fun _ _ => rfl]
    exact hroom
  | true =>
    obtain ⟨data, hc⟩ := Content.isRegular_iff.1 hreg
    rw [hc] at hroom ⊢
    exact hroom

theorem Gives.spared (h : c.Gives) (hs : System.Spares fds devices c.system sys) (hfd : ¬ fds c.stream.fd)
    (hdev : ∀ d, c.system.descriptor? c.stream.fd = some d → ¬ devices d.device) :
    (⟨c.stream, sys⟩ : Connection).Gives ∧ (⟨c.stream, sys⟩ : Connection).supply = c.supply := by
  obtain ⟨d, dev, hon, hsource, hknown⟩ := h.on
  obtain ⟨hd, hdevice⟩ := System.opened?_eq_some.1 hon.opened
  obtain ⟨dev', hon', hk⟩ := hon.spared hs hfd (hdev d hd)
  have hsupply : (⟨c.stream, sys⟩ : Connection).supply = c.supply := by
    rw [supply_eq hon'.opened, supply_eq hon.opened, hk.content]
  refine ⟨⟨⟨d, dev', hon', ⟨hsource.readable, hk.reliable hsource.reliable, ?_, fun queue hpipe => ?_⟩, hknown⟩,
    h.reads, h.drained, h.calm, h.quiet, fun hend => ?_, h.buffer⟩, hsupply⟩
  · rw [hk.content]
    exact hsource.file
  · rw [hk.content] at hpipe
    rw [hs.ends d.device dev _ hdevice (by rw [hpipe]; rfl) fun _ _ => rfl]
    exact hsource.unfed queue hpipe
  · rw [hsupply]
    exact h.ended hend

theorem Affords.spared (h : c.Affords n) (hg : c.Gives) (hs : System.Spares fds devices c.system sys)
    (hfd : ¬ fds c.stream.fd) (hdev : ∀ d, c.system.descriptor? c.stream.fd = some d → ¬ devices d.device) :
    (⟨c.stream, sys⟩ : Connection).Affords n := by
  obtain ⟨d, dev, hon, -, -⟩ := hg.on
  intro f hf
  rw [account_spared hs hon.opened hfd (hdev d (System.opened?_eq_some.1 hon.opened).1)] at hf
  exact h f hf

/-- Input spares all devices but a pipe it is taken from. -/
theorem Draws.spares {c' : Connection} {out : Bytes} (h : c.Gives) (hd : c.Draws c' out)
    (hfd : fds c.stream.fd)
    (hdevice : ∀ d dev, c.system.opened? c.stream.fd = some (d, dev) →
      dev.content.isRegular = true ∨ devices d.device) :
    System.Spares fds devices c.system c'.system := by
  refine hd.through.system.spares hfd fun i hi ⟨d, hdesc, hdi⟩ dev hdev => ?_
  have ho : c.system.opened? c.stream.fd = some (d, dev) :=
    System.opened?_eq_some.2 ⟨hdesc, hdi ▸ hdev⟩
  have hreg := (hdevice d dev ho).resolve_right (hdi ▸ hi)
  obtain ⟨p, dev', ho', hb⟩ := hd.through.opened ho
  obtain ⟨-, hdev'⟩ := System.opened?_eq_some.1 ho'
  refine ⟨dev', hdi ▸ hdev', ?_, ?_, hb.faults⟩
  · obtain ⟨data, hc⟩ := Content.isRegular_iff.1 hreg
    have hfile := congrArg Account.file hd.account
    simp only [Account.advance, account_of_drained h.drained, account_of_drained hd.gives.drained,
      standing_eq ho, standing_eq ho', Account.ofPort, hc, Content.file?, Option.map_some] at hfile
    rw [hc]
    exact (Content.file?_eq_some hfile).1
  · have hreceived := congrArg Account.received hd.account
    simpa only [Account.advance, account_of_drained h.drained, account_of_drained hd.gives.drained,
      standing_eq ho, standing_eq ho', Account.ofPort] using hreceived

end Connection

end BufferedFiles
