import BufferedFiles.Proofs.StreamFrame

/-!
# What a stream is never used for

A stream that was not opened for input has no window and remembers no end, and one that was not opened for
output is never turned to output. Every operation leaves it so, but for a read a device is asked for directly.
-/
namespace BufferedFiles

/-- The stream was used for nothing it was not opened for. -/
structure Stream.Sided (s : Stream) : Prop where
  input : s.reads = false → s.window = []
  unended : s.reads = false → s.atEnd = false
  output : s.writes = false → s.writing = false

namespace Connection

variable {past : Prop} {a b c : Connection}

/-- A step uses a stream for what it was opened for, as long as it does not read past the buffer of a stream
for output only. -/
theorem Step.sided (h : Step past a b) (hs : a.stream.Sided) (hpast : past → a.stream.reads = true) :
    b.stream.Sided := by
  have hinput : a.stream.reads = true ∨ past → a.stream.reads ≠ false := fun hr hno =>
    Bool.noConfusion ((hr.elim id hpast).symm.trans hno)
  cases h with
  | ease h =>
    exact ⟨fun hr => h.window (hs.input (h.kin.reads.symm.trans hr)),
      fun hr => h.atEnd (hs.unended (h.kin.reads.symm.trans hr)),
      fun hw => h.writing (hs.output (h.kin.writes.symm.trans hw))⟩
  | turn hw => exact ⟨hs.input, hs.unended, fun hno => Bool.noConfusion (hw.symm.trans hno)⟩
  | refill hr => exact ⟨fun hno => absurd hno (hinput hr), hs.unended, hs.output⟩
  | reachEnd hr => exact ⟨hs.input, fun hno => absurd hno (hinput hr), hs.output⟩
  | _ => exact ⟨hs.input, hs.unended, hs.output⟩

theorem Steps.sided (h : a.Steps past b) (hs : a.stream.Sided) (hpast : past → a.stream.reads = true) :
    b.stream.Sided := by
  induction h with
  | refl => exact hs
  | tail hsteps hstep ih => exact hstep.sided ih fun hp => (Steps.kin hsteps).reads.trans (hpast hp)

theorem sided_allocate (h : c.stream.Sided) : c.allocate.stream.Sided := (steps_allocate c).sided h False.elim

theorem sided_endOutput (h : c.stream.Sided) : c.endOutput.1.stream.Sided :=
  (steps_endOutput c).sided h False.elim

theorem sided_read (h : c.stream.Sided) (hr : c.stream.reads = true) (n : Nat) : (c.read n).1.stream.Sided :=
  (steps_read trivial c n).sided h fun _ => hr

theorem sided_readLine (h : c.stream.Sided) (max : Nat) : (c.readLine max).1.stream.Sided :=
  (steps_readLine c max).sided h False.elim

theorem sided_write (h : c.stream.Sided) (bytes : Bytes) : (c.write bytes).1.stream.Sided :=
  (steps_write c bytes).sided h False.elim

theorem sided_flush (h : c.stream.Sided) : c.flush.1.stream.Sided := (steps_flush c).sided h False.elim

theorem sided_tell (h : c.stream.Sided) : c.tell.1.stream.Sided := (steps_tell c).sided h False.elim

theorem sided_seek (h : c.stream.Sided) (target : Target) : (c.seek target).1.stream.Sided :=
  (steps_seek c target).sided h False.elim

theorem sided_setDiscipline (h : c.stream.Sided) (discipline : Discipline) :
    (c.setDiscipline discipline).1.stream.Sided := by
  have hset : (c.update ({ · with discipline })).stream.Sided := ⟨h.input, h.unended, h.output⟩
  unfold setDiscipline
  dsimp only
  cases discipline with
  | full => exact sided_allocate hset
  | line => exact hset
  | unbuffered =>
    have hs := (steps_sync _).sided hset False.elim
    dsimp only
    split <;> rename_i heq <;> rw [heq] at hs
    · exact hs
    · exact ⟨fun _ => rfl, hs.unended, hs.output⟩

end Connection

end BufferedFiles
