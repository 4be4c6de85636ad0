import BufferedFiles.Proofs.LastError

/-!
# What every call keeps

Whatever single reads, writes and moves keep, and an error that is put down, is kept by everything that
a stream does. So it is kept that no file is longer than the offsets reach, or than it was before.
-/
namespace BufferedFiles

namespace System

/-- A property of systems that no call makes false. -/
structure Lasting (P : System → Prop) : Prop where
  blamed : ∀ sys e, P sys → P (sys.blamed e)
  read : ∀ sys fd n, P sys → P (sys.read fd n).1
  write : ∀ sys fd bytes, P sys → P (sys.write fd bytes).1
  seek : ∀ sys fd origin offset, P sys → P (sys.seek fd origin offset).1

variable {P : System → Prop}

/-- A call is known by what it returns. -/
private theorem of_call {α : Type} {p : System × α} {sys : System} {r : α} (h : P p.1) (e : p = (sys, r)) :
    P sys := by
  rwa [e] at h

theorem Lasting.of_read (h : Lasting P) {sys sys' : System} {fd n : Nat} {r : Except Errno Bytes}
    (hp : P sys) (e : sys.read fd n = (sys', r)) : P sys' := of_call (h.read sys fd n hp) e

theorem Lasting.of_seek (h : Lasting P) {sys sys' : System} {fd : Nat} {origin : Origin} {offset : Int}
    {r : Except Errno Nat} (hp : P sys) (e : sys.seek fd origin offset = (sys', r)) : P sys' :=
  of_call (h.seek sys fd origin offset hp) e

theorem Lasting.of_inspect (h : Lasting P) {sys sys' : System} {fd : Nat} {r : Except Errno Device}
    (hp : P sys) (e : sys.inspect fd = (sys', r)) : P sys' := by
  refine of_call (p := sys.inspect fd) ?_ e
  unfold System.inspect
  split
  · exact h.blamed sys _ hp
  · exact hp

theorem Lasting.of_writeAll (h : Lasting P) {sys sys' : System} {fd fuel n : Nat} {bytes : Bytes}
    (hp : P sys) (e : sys.writeAll fd fuel bytes = (sys', n)) : P sys' := by
  refine of_call (p := sys.writeAll fd fuel bytes) ?_ e
  clear e
  induction fuel generalizing sys bytes with
  | zero => exact hp
  | succ fuel ih =>
    have hw := h.write sys fd bytes hp
    simp only [System.writeAll]
    split
    · exact hp
    · split <;> rename_i heq
      · exact of_call hw heq
      · exact ih (of_call hw heq)

/-- No file is longer than `limit`, and none can grow beyond it. -/
structure Bounded (limit : Nat) (sys : System) : Prop where
  largest : sys.largestOffset ≤ limit
  size : ∀ i dev, sys.device? i = some dev → dev.content.size ≤ limit

/-- There are finitely many files, so some length bounds them all. -/
theorem exists_bounded (sys : System) : ∃ limit, sys.Bounded limit := by
  have hsizes : ∀ devices : List Device, ∃ limit, ∀ dev ∈ devices, dev.content.size ≤ limit := by
    intro devices
    induction devices with
    | nil => exact ⟨0, nofun⟩
    | cons dev rest ih =>
      obtain ⟨limit, hrest⟩ := ih
      refine ⟨max dev.content.size limit, fun dev' hmem => ?_⟩
      rcases List.mem_cons.1 hmem with rfl | hmem
      · exact Nat.le_max_left _ _
      · exact Nat.le_trans (hrest dev' hmem) (Nat.le_max_right _ _)
  obtain ⟨limit, hlimit⟩ := hsizes sys.devices
  exact ⟨max sys.largestOffset limit, Nat.le_max_left _ _, fun i dev hdev =>
    Nat.le_trans (hlimit dev (List.mem_of_getElem? hdev)) (Nat.le_max_right _ _)⟩

variable {sys sys' : System} {fd limit : Nat} {d d' : Descriptor} {dev dev' : Device}

/-- Calls on a descriptor change the size of no device but its own. -/
theorem Bounded.through (h : sys.Bounded limit) (ht : Through fd sys sys')
    (ho : sys.opened? fd = some (d, dev)) (ho' : sys'.opened? fd = some (d', dev'))
    (hd : d'.device = d.device) (hsize : dev'.content.size ≤ limit) : sys'.Bounded limit where
  largest := ht.largestOffset ▸ h.largest
  size i dev₀ hdev₀ := by
    by_cases hi : d.device = i
    · rw [← hi, ← hd, (opened?_eq_some.1 ho').2] at hdev₀
      cases hdev₀
      exact hsize
    · refine h.size i dev₀ ((ht.foreign i fun d₀ hd₀ => ?_).symm.trans hdev₀)
      rw [(opened?_eq_some.1 ho).1] at hd₀
      cases hd₀
      exact hi

theorem Bounded.blamed (h : sys.Bounded limit) (e : Errno) : (sys.blamed e).Bounded limit :=
  ⟨h.largest, h.size⟩

/-- The size of a file after bytes were put down in it. -/
theorem size_laid (content : Content) (position : Nat) (bytes : Bytes) :
    (content.laid position bytes).size ≤ max content.size (position + bytes.length) := by
  cases content with
  | regular data => exact Nat.le_of_eq (length_overwrite data position bytes)
  | _ => exact Nat.zero_le _

/-- Nothing but a file has a size. -/
theorem size_laid_of_not_regular {content : Content} (h : content.isRegular = false) (position : Nat)
    (bytes : Bytes) : (content.laid position bytes).size = 0 := by
  cases content with
  | regular data => cases h
  | _ => rfl

/-- A read takes nothing from a file. -/
theorem size_fetch {content content' : Content} {position n : Nat} {fed : Bool} {bytes : Bytes}
    (h : content.fetch position n fed = .ok (bytes, content')) : content'.size ≤ content.size := by
  cases content with
  | pipe queue =>
    obtain ⟨-, rfl⟩ := Content.fetch_pipe h
    exact Nat.zero_le _
  | directory => cases h
  | _ =>
    cases h
    exact Nat.le_refl _

/-- No call makes a file longer than the offsets reach. -/
theorem lasting_bounded (limit : Nat) : Lasting (Bounded limit) where
  blamed _ e h := h.blamed e
  read sys fd n h := by
    cases ho : sys.opened? fd with
    | none =>
      simp only [System.read, ho]
      exact h.blamed _
    | some port =>
      obtain ⟨d, dev⟩ := port
      have hsize := h.size _ dev (opened?_eq_some.1 ho).2
      rcases hr : sys.read fd n with ⟨sys', e | bytes⟩
      · obtain ⟨ht, dev', ho', hc, -⟩ := read_error ho hr
        exact h.through ht ho ho' rfl (hc ▸ hsize)
      · obtain ⟨ht, -, content, hfetch, ho'⟩ := read_ok ho hr
        exact h.through ht ho ho' rfl (Nat.le_trans (size_fetch hfetch) hsize)
  write sys fd bytes h := by
    cases ho : sys.opened? fd with
    | none =>
      simp only [System.write, ho]
      exact h.blamed _
    | some port =>
      obtain ⟨d, dev⟩ := port
      have hsize := h.size _ dev (opened?_eq_some.1 ho).2
      rcases hw : sys.write fd bytes with ⟨sys', e | n⟩
      · obtain ⟨ht, dev', ho', hc, -⟩ := write_error ho hw
        exact h.through ht ho ho' rfl (hc ▸ hsize)
      · obtain ⟨ht, hle, -, hend, ho'⟩ := write_ok ho hw
        refine h.through ht ho ho' rfl ?_
        have hlaid := size_laid dev.content (start d dev.content) (bytes.take n)
        have hlargest := h.largest
        rw [List.length_take, Nat.min_eq_left hle] at hlaid
        cases hreg : dev.content.isRegular with
        | true =>
          have := hend hreg
          exact Nat.le_trans hlaid (by omega)
        | false => exact Nat.le_trans (Nat.le_of_eq (size_laid_of_not_regular hreg _ _)) (Nat.zero_le limit)
  seek sys fd origin offset h := by
    cases ho : sys.opened? fd with
    | none =>
      simp only [System.seek, ho]
      exact h.blamed _
    | some port =>
      obtain ⟨d, dev⟩ := port
      have hsize := h.size _ dev (opened?_eq_some.1 ho).2
      rcases hs : sys.seek fd origin offset with ⟨sys', e | n⟩
      · obtain ⟨ht, ho', -⟩ := seek_error ho hs
        exact h.through ht ho ho' rfl hsize
      · obtain ⟨ht, ho', -, -⟩ := seek_ok ho hs
        exact h.through ht ho ho' rfl hsize

end System

namespace Connection

variable {P : System → Prop} {past : Prop} {c c' : Connection}

theorem Step.lasting (hs : Step past c c') (h : System.Lasting P) (hp : P c.system) : P c'.system := by
  cases hs with
  | ease => exact hp
  | guess => exact hp
  | turn => exact hp
  | refill => exact hp
  | reachEnd => exact hp
  | blame e => exact h.blamed _ e hp
  | inspect e => exact h.of_inspect hp e
  | read e => exact h.of_read hp e
  | write e => exact h.of_writeAll hp e
  | seek e => exact h.of_seek hp e
  | place e => exact h.of_seek hp e

theorem Steps.lasting (hs : c.Steps True c') (h : System.Lasting P) (hp : P c.system) : P c'.system := by
  induction hs with
  | refl => exact hp
  | tail _ hstep ih => exact hstep.lasting h ih

end Connection

end BufferedFiles
