import BufferedFiles.Proofs.OneWay
import BufferedFiles.Proofs.StreamInvariant

/-!
# Streams on pipes

A pipe has no positions, and neither has a channel. A stream in front of one learns none from it, whatever it
is used for, and so every move and every question for the position is put to the pipe, which refuses it.
-/
namespace BufferedFiles.Connection

variable {past : Prop} {c c' : Connection}

/-- The stream is in front of a pipe, and knows of no position there. -/
structure Placeless (c : Connection) : Prop where
  offset : c.stream.offset = none
  pipe : ∃ d dev, c.system.opened? c.stream.fd = some (d, dev) ∧ dev.content.isMobile = false

/-- A pipe stays a pipe, whatever its stream does. -/
theorem Placeless.through (h : c.Placeless) (ht : c.Through c') (ho : c'.stream.offset = none) :
    c'.Placeless := by
  obtain ⟨d, dev, hopened, hpipe⟩ := h.pipe
  obtain ⟨p, dev', hopened', hb⟩ := ht.opened hopened
  exact ⟨ho, _, dev', hopened', hb.kind.isMobile.trans hpipe⟩

theorem Placeless.seek (h : c.Placeless) (origin : Origin) (offset : Int) :
    c.system.seek c.stream.fd origin offset =
      ({ c.system with lastError := .notSeekable }, .error .notSeekable) := by
  obtain ⟨d, dev, hopened, hpipe⟩ := h.pipe
  exact System.seek_immobile hopened hpipe

/-- Only a move finds a position, and a pipe refuses to be moved. -/
theorem Step.placeless (h : Step past c c') (hc : c.Placeless) : c'.Placeless := by
  refine hc.through h.through ?_
  cases h with
  | ease h => exact h.offset hc.offset
  | place h =>
    rw [hc.seek] at h
    cases h
  | _ => exact hc.offset

theorem Steps.placeless (h : c.Steps True c') (hc : c.Placeless) : c'.Placeless := by
  induction h with
  | refl => exact hc
  | tail _ hstep ih => exact hstep.placeless ih

theorem placeless_allocate (h : c.Placeless) : c.allocate.Placeless := (steps_allocate c).placeless h

theorem placeless_endOutput (h : c.Placeless) : c.endOutput.1.Placeless := (steps_endOutput c).placeless h

theorem placeless_read (h : c.Placeless) (n : Nat) : (c.read n).1.Placeless := (steps_read trivial c n).placeless h

theorem placeless_readLine (h : c.Placeless) (max : Nat) : (c.readLine max).1.Placeless :=
  (steps_readLine c max).placeless h

theorem placeless_write (h : c.Placeless) (bytes : Bytes) : (c.write bytes).1.Placeless :=
  (steps_write c bytes).placeless h

theorem placeless_flush (h : c.Placeless) : c.flush.1.Placeless := (steps_flush c).placeless h

/-- The connection after a pipe has refused to be moved. -/
def unmoved (c : Connection) : Connection := { c with system := { c.system with lastError := .notSeekable } }

theorem Placeless.moveDevice (h : c.Placeless) (origin : Origin) (offset : Int) :
    c.moveDevice origin offset = (c.unmoved, false) := by
  simp only [Connection.moveDevice, h.seek]
  rfl

theorem Placeless.arrive (h : c.Placeless) (origin : Origin) (offset : Int) (exact : Bool) :
    c.arrive origin offset exact = (c.unmoved, false) := by
  have happroach : ∀ target, c.approach target exact = (c.unmoved, false) := fun target => by
    simp only [approach, h.seek]
    rfl
  have hin : c.inWindow? offset = none := by simp only [inWindow?, h.offset]
  simp only [Connection.arrive, hin, happroach, h.moveDevice, ite_self]

theorem Placeless.resolve (h : c.Placeless) (origin : Origin) (offset : Int) :
    ∃ o x, c.resolve origin offset = (c, some (o, x)) := by
  obtain ⟨d, dev, hopened, hpipe⟩ := h.pipe
  cases origin with
  | start => exact ⟨_, _, rfl⟩
  | current =>
    refine ⟨.current, wrapOffset (offset - c.stream.ahead.length), ?_⟩
    simp only [Connection.resolve, h.offset]
  | finish =>
    refine ⟨.finish, offset, ?_⟩
    simp only [Connection.resolve, System.inspect_ok hopened, Content.isRegular_of_immobile hpipe,
      Bool.false_eq_true, if_false]

/-- A move on a pipe ends output, gets a buffer, and is refused. -/
theorem Placeless.seek_refused (h : c.Placeless) {target : Target} (hend : c.endOutput = (c', true))
    (hparts : target.parts? ≠ none) :
    c.seek target = (c'.allocate.unmoved, .error (.ofErrno "fseeko" .notSeekable)) := by
  have hend' : c'.allocate.Placeless := by
    have := placeless_endOutput h
    rw [hend] at this
    exact placeless_allocate this
  obtain ⟨⟨origin, offset⟩, hparts⟩ := Option.ne_none_iff_exists'.1 hparts
  obtain ⟨o, x, hresolve⟩ := hend'.resolve origin offset
  simp only [Connection.seek, hparts, move, hend, hresolve, hend'.arrive]
  rfl

/-- The position on a pipe is not known. -/
theorem Placeless.tell (h : c.Placeless) :
    c.tell = (c.unmoved, .error (.ofErrno "ftello" .notSeekable)) := by
  simp only [Connection.tell, position, appendPosition, devicePosition, h.offset, h.seek, ite_self]
  rfl

end BufferedFiles.Connection
