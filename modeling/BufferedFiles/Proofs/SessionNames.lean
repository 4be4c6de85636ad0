import BufferedFiles.Proofs.SessionAccounts

/-!
# Names of a session

A step changes what it names, and leaves what has another name. No two things have the same name, at the
start because nothing is named, and later because a name that is given again is taken away first.
-/
namespace BufferedFiles

namespace Session

variable {s s' : Session} {slot : Slot} {name other : String} {r : Resource}

theorem slot?_congr (h : s'.slots = s.slots) : s'.slot? = s.slot? := by
  funext name
  rw [slot?, slot?, h]

theorem handle?_congr (h : s'.slot? name = s.slot? name) : s'.handle? name = s.handle? name := by
  rw [handle?, handle?, h]

theorem handle?_eq_some {h : Handle} : s.handle? name = some h ↔
    ∃ slot, s.slot? name = some slot ∧ slot.resource = .handle h := by
  refine ⟨slot?_of_handle?, fun ⟨slot, hslot, hresource⟩ => ?_⟩
  obtain ⟨_, resource, _⟩ := slot
  cases hresource
  rw [handle?, hslot]

theorem slot?_forget (h : name ≠ other) : (s.forget name).slot? other = s.slot? other := by
  have hkept : (fun x : Slot => decide ((x.name != name) = true ∧ (x.name == other) = true)) = (·.name == other) := by
    funext x
    by_cases hx : x.name = other
    · simp [hx, Ne.symm h]
    · simp [hx]
  rw [slot?, slot?, forget, List.find?_filter, hkept]

theorem slot?_append (s : Session) (slot : Slot) (other : String) :
    ({ s with slots := s.slots ++ [slot] } : Session).slot? other =
      (s.slot? other).or (if slot.name = other then some slot else none) := by
  simp only [slot?, List.find?_append, List.find?_cons, List.find?_nil]
  split <;> simp_all

theorem slot?_release (s : Session) (r : Resource) : (s.release r).slot? = s.slot? :=
  slot?_congr (release_slots s r)

theorem put_of_none (h : s.slot? slot.name = none) : s.put slot = { s with slots := s.slots ++ [slot] } := by
  rw [put, h]

/-- The session with a name given again, before what it stood for is let go. -/
theorem put_of_some {old : Slot} (h : s.slot? slot.name = some old) :
    s.put slot = ({ s with slots := (s.forget slot.name).slots ++ [slot] } : Session).release old.resource := by
  rw [put, h]
  rfl

theorem slot?_put_self (s : Session) (slot : Slot) : (s.put slot).slot? slot.name = some slot := by
  cases h : s.slot? slot.name with
  | none => rw [put_of_none h, slot?_append, h, if_pos rfl, Option.none_or]
  | some old =>
    have hgone := slot?_forget_self s slot.name
    rw [put_of_some h, slot?_release]
    exact (slot?_append (s.forget slot.name) slot slot.name).trans (by rw [hgone, if_pos rfl, Option.none_or])

theorem slot?_put (h : slot.name ≠ other) : (s.put slot).slot? other = s.slot? other := by
  cases hslot : s.slot? slot.name with
  | none => rw [put_of_none hslot, slot?_append, if_neg h, Option.or_none]
  | some old =>
    rw [put_of_some hslot, slot?_release]
    exact (slot?_append (s.forget slot.name) slot other).trans (by rw [if_neg h, Option.or_none, slot?_forget h])

theorem slot?_drop_self (s : Session) (name : String) : (s.drop name).slot? name = none := by
  cases h : s.slot? name with
  | none => rw [Session.drop, h, h]
  | some slot => rw [drop_of_slot? h, slot?_release, slot?_forget_self]

theorem slot?_drop (h : name ≠ other) : (s.drop name).slot? other = s.slot? other := by
  cases hslot : s.slot? name with
  | none => rw [Session.drop, hslot]
  | some slot => rw [drop_of_slot? hslot, slot?_release, slot?_forget h]

/-- No two things have the same name. -/
def NamesDiffer (s : Session) : Prop := (s.slots.map Slot.name).Nodup

theorem NamesDiffer.congr (hs : s.NamesDiffer) (h : s'.slots = s.slots) : s'.NamesDiffer := by
  rw [NamesDiffer, h]
  exact hs

theorem NamesDiffer.forget (hs : s.NamesDiffer) (name : String) : (s.forget name).NamesDiffer :=
  List.Nodup.sublist (List.Sublist.map _ (List.filter_sublist (l := s.slots))) hs

theorem NamesDiffer.append (hs : s.NamesDiffer) (h : s.slot? slot.name = none) :
    ({ s with slots := s.slots ++ [slot] } : Session).NamesDiffer := by
  show ((s.slots ++ [slot]).map Slot.name).Nodup
  rw [List.map_append, List.nodup_append]
  refine ⟨hs, List.nodup_singleton _, fun x hx y hy => ?_⟩
  obtain ⟨old, hold, rfl⟩ := List.mem_map.1 hx
  rw [List.mem_singleton.1 hy]
  simpa using List.find?_eq_none.1 h old hold

theorem NamesDiffer.release (hs : s.NamesDiffer) (r : Resource) : (s.release r).NamesDiffer :=
  hs.congr (release_slots s r)

theorem NamesDiffer.setResource (hs : s.NamesDiffer) (name : String) (r : Resource) :
    (s.setResource name r).NamesDiffer := by
  have hnames : (s.setResource name r).slots.map Slot.name = s.slots.map Slot.name := by
    rw [Session.setResource, List.map_map]
    refine List.map_congr_left fun x _ => ?_
    rw [Function.comp_apply]
    split <;> rfl
  rw [NamesDiffer, hnames]
  exact hs

theorem NamesDiffer.put (hs : s.NamesDiffer) (slot : Slot) : (s.put slot).NamesDiffer := by
  cases h : s.slot? slot.name with
  | none =>
    rw [put_of_none h]
    exact hs.append h
  | some old =>
    rw [put_of_some h]
    exact ((hs.forget slot.name).append (slot?_forget_self s slot.name)).release _

theorem NamesDiffer.drop (hs : s.NamesDiffer) (name : String) : (s.drop name).NamesDiffer := by
  cases h : s.slot? name with
  | none =>
    rw [Session.drop, h]
    exact hs
  | some slot =>
    rw [drop_of_slot? h]
    exact (hs.forget name).release _

theorem NamesDiffer.register {ε α : Type} (hs : s.NamesDiffer) (name : String) (adopted : Option String)
    (wrapped : α → Resource) (refusal : ε → HandleError) (made : System × Except ε α) :
    (s.register name adopted wrapped refusal made).1.NamesDiffer := by
  obtain ⟨sys, e | a⟩ := made
  · exact hs
  · exact NamesDiffer.put (s := { s with system := sys }) hs _

theorem NamesDiffer.registerShared (hs : s.NamesDiffer) (name : String) (made : System × Except HandleError Handle) :
    (s.registerShared name made).1.NamesDiffer := by
  obtain ⟨sys, e | h⟩ := made
  · exact hs
  · exact NamesDiffer.put (s := { s with system := sys, pool := s.pool ++ [h] }) hs _

theorem NamesDiffer.ask (hs : s.NamesDiffer) (name : String) (request : Request) :
    (s.ask name request).1.NamesDiffer := by
  unfold Session.ask
  split
  · exact hs
  split
  · exact NamesDiffer.setResource (s := { s with system := _ }) hs name _
  · split
    · exact NamesDiffer.setResource (s := { s with system := _ }) hs name _
    · exact NamesDiffer.forget (s := { s with system := _ }) hs name
  · split
    · exact hs
    · obtain ⟨system, workers, pool, heq⟩ := askShared_eq s _ _ request
      rw [heq]
      exact hs

theorem NamesDiffer.copy (hs : s.NamesDiffer) (source sink : String) : (s.copy source sink).1.NamesDiffer := by
  unfold Session.copy
  split
  · exact hs
  split
  · exact NamesDiffer.setResource (NamesDiffer.setResource (s := { s with system := _ }) hs source _) sink _
  · exact hs

theorem NamesDiffer.wrap (hs : s.NamesDiffer) (name stream label mode : String) (buffering : Option Int) :
    (s.wrap name stream label mode buffering).1.NamesDiffer := by
  unfold Session.wrap
  split
  · exact (hs.forget stream).register _ _ _ _ _
  · exact hs

theorem onDescriptor_slots {α : Type} (s : Session) (descriptor : DescriptorRef) (op : String) (answer : α → Answer)
    (f : System → Nat → System × Except Errno α) : (s.onDescriptor descriptor op answer f).1.slots = s.slots := by
  unfold onDescriptor
  split
  · rfl
  · split <;> rfl

theorem NamesDiffer.step (hs : s.NamesDiffer) (command : Command) : (s.step command).1.NamesDiffer := by
  cases command with
  | openHandle name path mode buffering => exact hs.register _ _ _ _ _
  | adoptHandle name descriptor mode label buffering =>
    simp only [Session.step]
    split
    · exact hs
    · exact hs.register _ _ _ _ _
  | openStream name path mode => exact hs.register _ _ _ _ _
  | adoptStream name descriptor mode =>
    simp only [Session.step]
    split
    · exact hs
    · exact hs.register _ _ _ _ _
  | wrap name stream label mode buffering => exact hs.wrap name stream label mode buffering
  | openShared name path mode buffering =>
    exact NamesDiffer.registerShared (s := (s.offload (Handle.openPath · path mode buffering)).1) hs _ _
  | share name path mode buffering => exact hs.registerShared _ _
  | clone name source =>
    simp only [Session.step]
    split
    · exact hs.put _
    · exact hs
  | ask name request => exact hs.ask name request
  | copy source sink => exact hs.copy source sink
  | drop name =>
    simp only [Session.step]
    split
    · exact hs.drop name
    · exact hs
  | openDescriptor name path reads writes =>
    simp only [Session.step]
    split <;> exact hs
  | writeDescriptor descriptor bytes => exact hs.congr (onDescriptor_slots ..)
  | closeDescriptor descriptor => exact hs.congr (onDescriptor_slots ..)
  | isOpen descriptor =>
    simp only [Session.step]
    split <;> exact hs
  | _ => exact hs

theorem NamesDiffer.run (hs : s.NamesDiffer) (commands : List Command) : (s.run commands).1.NamesDiffer := by
  induction commands generalizing s with
  | nil => exact hs
  | cons command rest ih => exact ih (hs.step command)

end Session

end BufferedFiles
