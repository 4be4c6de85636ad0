import BufferedFiles.Proofs.StreamSteps
import BufferedFiles.Proofs.Transfers

/-!
# What stream operations leave alone

Every primitive and every operation of a stream is a series of calls on its own descriptor, and keeps
what the stream was opened with. A buffer, once there, keeps its size.
-/
namespace BufferedFiles

theorem System.Through.of_eq {α : Type} {fd : Nat} {sys sys' : System} {p : System × α} {x : α}
    (h : System.Through fd sys p.1) (e : p = (sys', x)) : System.Through fd sys sys' := by
  rwa [e] at h

theorem System.through_writeAll (fd fuel : Nat) (sys : System) (bytes : Bytes) :
    System.Through fd sys (System.writeAll fd fuel sys bytes).1 := by
  induction fuel generalizing sys bytes with
  | zero => exact .refl _ _
  | succ fuel ih =>
    simp only [System.writeAll]
    split
    · exact .refl _ _
    · split <;> rename_i heq
      · exact (System.through_write _ _ _).of_eq heq
      · exact ((System.through_write _ _ _).of_eq heq).trans (ih _ _)

namespace Connection

/-- `b` is `a` after operations of its stream. In front of an open descriptor a buffer has the same size
whenever it is got. -/
structure Through (a b : Connection) : Prop where
  stream : a.stream.Kin b.stream
  system : System.Through a.stream.fd a.system b.system
  buffer : ∀ d dev, a.system.opened? a.stream.fd = some (d, dev) → b.stream.bufferSize = a.stream.bufferSize

variable {past : Prop} {a b c c' : Connection} {d : Descriptor} {dev : Device}

theorem Through.refl (c : Connection) : c.Through c := ⟨.refl _, .refl _ _, fun _ _ _ => rfl⟩

theorem Through.opened (h : c.Through c') (ho : c.system.opened? c.stream.fd = some (d, dev)) :
    ∃ p dev', c'.system.opened? c'.stream.fd = some ({ d with position := p }, dev') ∧
      dev.Becomes dev' := by
  obtain ⟨hd, hdev⟩ := System.opened?_eq_some.1 ho
  obtain ⟨p, hp⟩ := h.system.own d hd
  obtain ⟨dev', hdev', hb⟩ := h.system.device _ dev hdev
  refine ⟨p, dev', ?_, hb⟩
  rw [h.stream.fd]
  exact System.opened?_eq_some.2 ⟨hp, hdev'⟩

theorem Through.trans (h : a.Through b) (h' : b.Through c) : a.Through c where
  stream := h.stream.trans h'.stream
  system := h.system.trans (h.stream.fd ▸ h'.system)
  buffer d dev ho := by
    obtain ⟨p, dev', ho', -⟩ := h.opened ho
    rw [h'.buffer _ dev' ho', h.buffer d dev ho]

theorem Through.of_eq {α : Type} {p : Connection × α} {x : α} (h : a.Through p.1)
    (e : p = (b, x)) : a.Through b := by
  rwa [e] at h

/-- A change of what the stream works with. -/
theorem through_work (c : Connection) {s : Stream} (h : c.stream.Kin s)
    (hb : s.bufferSize = c.stream.bufferSize := by rfl) : c.Through ⟨s, c.system⟩ :=
  ⟨h, .refl _ _, fun _ _ _ => hb⟩

/-- A step is a call on the stream's own descriptor, or none. -/
theorem Step.through (h : Step past a b) : a.Through b := by
  refine ⟨h.kin, ?_, fun d dev ho => ?_⟩
  rotate_left
  · cases h with
    | ease h => exact h.buffer
    | guess hno =>
      rw [hno] at ho
      cases ho
    | _ => rfl
  cases h with
  | ease => exact .refl _ _
  | guess => exact .refl _ _
  | turn => exact .refl _ _
  | refill => exact .refl _ _
  | reachEnd => exact .refl _ _
  | blame => exact .withError _ _ _
  | inspect h => exact (System.through_inspect _ _).of_eq h
  | read h => exact (System.through_read _ _ _).of_eq h
  | write h => exact (System.through_writeAll _ _ _ _).of_eq h
  | seek h => exact (System.through_seek _ _ _ _).of_eq h
  | place h => exact (System.through_seek _ _ _ _).of_eq h

theorem Steps.through (h : a.Steps True b) : a.Through b := by
  induction h with
  | refl => exact .refl a
  | tail _ hstep ih => exact ih.trans hstep.through

theorem through_allocate (c : Connection) : c.Through c.allocate := (steps_allocate c).through

theorem through_refuse (c : Connection) : c.Through c.refuse := (steps_refuse c).through

theorem through_align (c : Connection) : c.Through c.align.1 := (steps_align c).through

theorem through_send (c : Connection) (bytes : Bytes) : c.Through (c.send bytes).1 := (steps_send c bytes).through

theorem through_drain (c : Connection) : c.Through c.drain.1 := (steps_drain c).through

theorem through_turned (c : Connection) : c.Through (c.update Stream.turned) := by
  have hsame : c.stream.Kin c.stream.turned ∧ c.stream.turned.bufferSize = c.stream.bufferSize := by
    unfold Stream.turned
    split <;> exact ⟨.working, rfl⟩
  exact through_work c hsame.1 hsame.2

theorem through_gathered (c : Connection) (bytes : Bytes) :
    c.Through (c.update fun s => { s with pending := s.pending ++ bytes }) := through_work c .working

theorem through_endOutput (c : Connection) : c.Through c.endOutput.1 := (steps_endOutput c).through

theorem through_skip (c : Connection) (n : Nat) : c.Through (c.update (·.skip n)) := through_work c .working

theorem through_take (c : Connection) (n : Nat) : c.Through (c.take n).1 := (steps_take trivial c n).through

theorem through_takeLine (c : Connection) (n : Nat) : c.Through (c.takeLine n).1 := (steps_takeLine c n).through

theorem through_sync (c : Connection) : c.Through c.sync.1 := (steps_sync c).through

theorem through_moveDevice (c : Connection) (origin : Origin) (offset : Int) :
    c.Through (c.moveDevice origin offset).1 := (steps_moveDevice c origin offset).through

theorem through_resolve (c : Connection) (origin : Origin) (offset : Int) :
    c.Through (c.resolve origin offset).1 := (steps_resolve c origin offset).through

/-- To say where a device has to go asks the device at most. -/
theorem resolve_stream (c : Connection) (origin : Origin) (offset : Int) :
    (c.resolve origin offset).1.stream = c.stream := by
  unfold resolve
  split
  · rfl
  · dsimp only
    split
    · rfl
    · split <;> rfl
  · split
    · rfl
    · split <;> rfl

theorem through_approach (c : Connection) (target : Int) (exact : Bool) :
    c.Through (c.approach target exact).1 := (steps_approach c (.inr trivial) target exact).through

theorem through_settled (c : Connection) : c.Through (c.update Stream.settled) := through_work c .working

theorem through_read (c : Connection) (n : Nat) : c.Through (c.read n).1 := (steps_read trivial c n).through

theorem through_readLine (c : Connection) (max : Nat) : c.Through (c.readLine max).1 :=
  (steps_readLine c max).through

theorem through_write (c : Connection) (bytes : Bytes) : c.Through (c.write bytes).1 :=
  (steps_write c bytes).through

theorem through_flush (c : Connection) : c.Through c.flush.1 := (steps_flush c).through

theorem through_tell (c : Connection) : c.Through c.tell.1 := (steps_tell c).through

theorem through_seek (c : Connection) (target : Target) : c.Through (c.seek target).1 :=
  (steps_seek c target).through

end Connection

end BufferedFiles
