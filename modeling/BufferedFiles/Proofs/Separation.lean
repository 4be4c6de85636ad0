import BufferedFiles.Proofs.Places
import BufferedFiles.Proofs.Sharing

/-!
# What stands behind a descriptor

Calls on one descriptor, and its opening and closing, leave what stands behind another one on another
device: the descriptor, the device with what it holds and what it will fail at, and the ends of a pipe. A
stream over a descriptor that was left so is in the state it was in.
-/
namespace BufferedFiles

namespace System

variable {a b c sys sys' : System} {fd j i : Nat}

/-- Behind the descriptor `fd` is the same in both systems. -/
structure SameAt (fd : Nat) (a b : System) : Prop where
  opened : b.opened? fd = a.opened? fd
  largestOffset : b.largestOffset = a.largestOffset
  ends : ∀ d dev (p : Descriptor → Bool), a.opened? fd = some (d, dev) →
    (∀ d q, p { d with position := q } = p d) → b.anyDescriptor d.device p = a.anyDescriptor d.device p

theorem SameAt.refl (fd : Nat) (a : System) : SameAt fd a a := ⟨rfl, rfl, fun _ _ _ _ _ => rfl⟩

theorem SameAt.trans (h : SameAt fd a b) (h' : SameAt fd b c) : SameAt fd a c where
  opened := h'.opened.trans h.opened
  largestOffset := h'.largestOffset.trans h.largestOffset
  ends d dev p ho hp := (h'.ends d dev p (h.opened.trans ho) hp).trans (h.ends d dev p ho hp)

/-- Two descriptors that are not the same and not on the same device. -/
structure Apart (sys : System) (fd j : Nat) : Prop where
  fds : fd ≠ j
  devices : ∀ d e, sys.descriptor? fd = some d → sys.descriptor? j = some e → e.device ≠ d.device

/-- The same at an open descriptor, once that and its device are the same. -/
private theorem SameAt.of_same (hlargest : b.largestOffset = a.largestOffset)
    (hd : b.descriptor? fd = a.descriptor? fd)
    (hdevice : ∀ d, a.descriptor? fd = some d → b.device? d.device = a.device? d.device)
    (hends : ∀ d dev (p : Descriptor → Bool), a.opened? fd = some (d, dev) →
      (∀ d q, p { d with position := q } = p d) → b.anyDescriptor d.device p = a.anyDescriptor d.device p) :
    SameAt fd a b := by
  refine ⟨?_, hlargest, hends⟩
  unfold opened?
  rw [hd]
  cases hdesc : a.descriptor? fd with
  | none => rfl
  | some d => simp only [hdevice d hdesc]

theorem Through.sameAt (h : Through j a b) (hapart : a.Apart fd j) : SameAt fd a b :=
  .of_same h.largestOffset (h.others fd hapart.fds)
    (fun d hd => h.foreign d.device fun e he => hapart.devices d e hd he) fun _ _ _ _ hp => h.anyDescriptor hp

theorem Drops.sameAt (h : Drops j a b) (hapart : a.Apart fd j) : SameAt fd a b := by
  refine .of_same h.largestOffset (h.others fd hapart.fds) (fun d _ => h.device d.device) fun d dev p ho _ => ?_
  refine anyDescriptor_congr fun k e he => ?_
  by_cases hk : k = j
  · subst hk
    refine iff_of_false (by rw [h.gone]; exact nofun) fun hdesc => ?_
    exact hapart.devices d e (opened?_eq_some.1 ho).1 hdesc he
  · rw [h.others k hk]

theorem Attaches.sameAt (h : Attaches j i a b) {d : Descriptor} (hd : a.descriptor? fd = some d) (hi : i ≠ d.device) :
    SameAt fd a b := by
  have hne : ∀ {k e}, a.descriptor? k = some e → k ≠ j := by
    rintro k e he rfl
    rw [h.free] at he
    cases he
  refine .of_same h.largestOffset (h.others fd (hne hd)) (fun e _ => h.device e.device) fun e dev p ho _ => ?_
  have ho := (opened?_eq_some.1 ho).1
  rw [hd] at ho
  cases ho
  refine anyDescriptor_congr fun k e he => ?_
  by_cases hk : k = j
  · subst hk
    refine iff_of_false (fun hdesc => ?_) (by rw [h.free]; exact nofun)
    obtain ⟨f, hf, hfi⟩ := h.own
    rw [hf] at hdesc
    cases hdesc
    exact hi (hfi.symm.trans he)
  · rw [h.others k hk]

/-- Descriptors stay apart while one of them is used. -/
theorem Apart.through {k : Nat} (h : a.Apart fd j) (ht : Through k a b) : b.Apart fd j := by
  have hback : ∀ {m d}, b.descriptor? m = some d → ∃ d₀, a.descriptor? m = some d₀ ∧ d.device = d₀.device := by
    intro m d hd
    by_cases hm : m = k
    · subst hm
      cases hd₀ : a.descriptor? m with
      | none =>
        rw [ht.absent hd₀] at hd
        cases hd
      | some d₀ =>
        obtain ⟨p, hp⟩ := ht.own d₀ hd₀
        rw [hd] at hp
        cases hp
        exact ⟨d₀, rfl, rfl⟩
    · exact ⟨d, (ht.others m hm).symm.trans hd, rfl⟩
  refine ⟨h.fds, fun d e hd he => ?_⟩
  obtain ⟨d₀, hd₀, hdev⟩ := hback hd
  obtain ⟨e₀, he₀, hdev'⟩ := hback he
  rw [hdev, hdev']
  exact h.devices d₀ e₀ hd₀ he₀

end System

namespace Connection

variable {t : Stream} {a b : System} {n : Nat}

theorem Ready.sameAt (h : (⟨t, a⟩ : Connection).Ready) (hs : System.SameAt t.fd a b) :
    (⟨t, b⟩ : Connection).Ready := by
  obtain ⟨⟨d, dev, hon⟩, halign⟩ := h
  have ho : b.opened? t.fd = some (d, dev) := hs.opened.trans hon.opened
  have hin : dev.content.Within d.position b.largestOffset := hs.largestOffset ▸ hon.within
  refine ⟨⟨d, dev, ⟨⟨ho, hon.appending, hin⟩, hon.fits⟩⟩, halign.imp_right fun hmobile d₀ dev₀ ho₀ => ?_⟩
  exact hmobile d₀ dev₀ (hs.opened.symm.trans ho₀)

theorem Willing.sameAt (h : (⟨t, a⟩ : Connection).Willing n) (hs : System.SameAt t.fd a b) :
    (⟨t, b⟩ : Connection).Willing n := by
  obtain ⟨d, dev, ho, hw, hr, hroom, haddr⟩ := h
  refine ⟨d, dev, hs.opened.trans ho, hw, hr, ?_, haddr⟩
  rw [hs.largestOffset, hs.ends d dev _ ho fun _ _ => rfl]
  exact hroom

theorem account_sameAt (hs : System.SameAt t.fd a b) :
    (⟨t, b⟩ : Connection).account = (⟨t, a⟩ : Connection).account := by
  simp only [account, standing, hs.opened]

end Connection

end BufferedFiles
