import BufferedFiles.Proofs.StreamFrame

/-!
# What the last error has no say in

There is one last error for all calls. A call that fails puts its own there, and a call that does not
fail leaves it alone; none looks at what was there before. So what a stream takes in is the same
whatever failed earlier, and a failure it shows is one of that very call.
-/
namespace BufferedFiles

namespace System

/-- The system with another error left by what came before. -/
def blamed (sys : System) (e : Errno) : System := { sys with lastError := e }

/-- What a call leaves when it comes after the error `e`: its own failure, or `e` again. -/
def carried {α : Type} (e : Errno) : System × Except Errno α → System × Except Errno α
  | (sys, .error x) => (sys, .error x)
  | (sys, .ok a) => (sys.blamed e, .ok a)

theorem inspect_blamed (sys : System) (e : Errno) (fd : Nat) :
    (sys.blamed e).inspect fd = carried e (sys.inspect fd) := by
  unfold inspect
  rw [show (sys.blamed e).opened? fd = sys.opened? fd from rfl]
  cases sys.opened? fd <;> rfl

theorem read_blamed (sys : System) (e : Errno) (fd n : Nat) :
    (sys.blamed e).read fd n = carried e (sys.read fd n) := by
  unfold read
  rw [show (sys.blamed e).opened? fd = sys.opened? fd from rfl]
  split
  · rfl
  split
  · rfl
  split
  · rfl
  split
  · rfl
  · rw [show (sys.blamed e).anyDescriptor = sys.anyDescriptor from rfl]
    split <;> rfl

theorem write_blamed (sys : System) (e : Errno) (fd : Nat) (bytes : Bytes) :
    (sys.blamed e).write fd bytes = carried e (sys.write fd bytes) := by
  unfold write
  rw [show (sys.blamed e).opened? fd = sys.opened? fd from rfl]
  split
  · rfl
  split
  · rfl
  split
  · rfl
  split
  · rfl
  · rw [show (sys.blamed e).anyDescriptor = sys.anyDescriptor from rfl,
      show (sys.blamed e).largestOffset = sys.largestOffset from rfl]
    dsimp only
    split <;> rfl

theorem seek_blamed (sys : System) (e : Errno) (fd : Nat) (origin : Origin) (offset : Int) :
    (sys.blamed e).seek fd origin offset = carried e (sys.seek fd origin offset) := by
  unfold seek
  rw [show (sys.blamed e).opened? fd = sys.opened? fd from rfl]
  split
  · rfl
  · split
    · rfl
    · rfl
    · rfl
    · rfl
    · rfl
    · rw [show (sys.blamed e).largestOffset = sys.largestOffset from rfl]
      cases origin <;>
      · dsimp only
        split <;> rfl

theorem close_blamed (sys : System) (e : Errno) (fd : Nat) : (sys.blamed e).close fd = carried e (sys.close fd) := by
  unfold close
  rw [show (sys.blamed e).descriptor? fd = sys.descriptor? fd from rfl]
  split <;> rfl

theorem addDescriptor_blamed (sys : System) (e : Errno) (d : Descriptor) :
    (sys.blamed e).addDescriptor d = ((sys.addDescriptor d).1.blamed e, (sys.addDescriptor d).2) := by
  unfold addDescriptor
  rw [show (sys.blamed e).freeNumber = sys.freeNumber from rfl]
  dsimp only
  split <;> rename_i hlt
  · rw [if_pos (show sys.freeNumber < sys.descriptors.length from hlt)]
    rfl
  · rw [if_neg (show ¬ sys.freeNumber < sys.descriptors.length from hlt)]
    rfl

theorem openDevice_blamed (sys : System) (e : Errno) (path : Bytes) (mode : OpenMode) :
    (sys.blamed e).openDevice path mode = carried e (sys.openDevice path mode) := by
  unfold openDevice
  rw [show (sys.blamed e).findOrMake path = sys.findOrMake path from rfl,
    show (sys.blamed e).find path = sys.find path from rfl]
  dsimp only
  split
  · rfl
  · rfl
  rename_i place _
  rw [show (sys.blamed e).lookup place = sys.lookup place from rfl]
  split
  · rfl
  rename_i i _
  rw [show (sys.blamed e).device? i = sys.device? i from rfl]
  split
  · rfl
  split
  · rfl
  split
  · split <;> rfl
  · split <;> rfl
  · rfl

theorem openPath_blamed (sys : System) (e : Errno) (path : Bytes) (mode : OpenMode) :
    (sys.blamed e).openPath path mode = carried e (sys.openPath path mode) := by
  unfold openPath
  rw [openDevice_blamed]
  rcases sys.openDevice path mode with ⟨sys', x | i⟩
  · rfl
  · simp only [carried, addDescriptor_blamed]

/-- A path is opened as a stream in the same way whatever failed before. -/
theorem openStream_blamed (sys : System) (e : Errno) (path text : Bytes) :
    ∃ e', (sys.blamed e).openStream path text =
      ((sys.openStream path text).1.blamed e', (sys.openStream path text).2) := by
  unfold openStream
  split
  · exact ⟨e, rfl⟩
  split
  · exact ⟨.invalidArgument, rfl⟩
  rename_i mode _
  rw [openPath_blamed]
  rcases sys.openPath path mode with ⟨sys', x | fd⟩
  · exact ⟨_, rfl⟩
  dsimp only [carried]
  rw [show (sys'.blamed e).lacks (OpenMode.charset? text) = sys'.lacks (OpenMode.charset? text) from rfl]
  split
  · rw [close_blamed]
    exact ⟨.invalidArgument, by rcases sys'.close fd with ⟨closed, _ | _⟩ <;> rfl⟩
  split
  · rw [seek_blamed]
    rcases sys'.seek fd .finish 0 with ⟨moved, x | position⟩ <;> exact ⟨_, rfl⟩
  · exact ⟨e, rfl⟩

/-- A write at a descriptor takes something of what it is given, and no more. -/
theorem write_count {sys sys' : System} {fd n : Nat} {bytes : Bytes}
    (h : sys.write fd bytes = (sys', .ok n)) : n ≤ bytes.length ∧ (bytes ≠ [] → 0 < n) := by
  cases ho : sys.opened? fd with
  | none =>
    simp only [write, ho] at h
    cases h
  | some port =>
    obtain ⟨d, dev⟩ := port
    obtain ⟨-, hle, hpos, -⟩ := write_ok ho h
    exact ⟨hle, hpos⟩

theorem writeAll_le (fd fuel : Nat) (sys : System) (bytes : Bytes) :
    (writeAll fd fuel sys bytes).2 ≤ bytes.length := by
  induction fuel generalizing sys bytes with
  | zero => exact Nat.zero_le _
  | succ fuel ih =>
    simp only [writeAll]
    split
    · exact Nat.zero_le _
    · split
      · exact Nat.zero_le _
      · rename_i sys' n hw
        have hn := (write_count hw).1
        have hrest := ih sys' (bytes.drop n)
        rw [List.length_drop] at hrest
        dsimp only
        omega

/-- Writes that are counted in full leave the last error alone, and others end with a failure. -/
theorem writeAll_blamed (e : Errno) (fd : Nat) {fuel : Nat} (sys : System) (bytes : Bytes)
    (hfuel : bytes.length ≤ fuel) :
    writeAll fd fuel (sys.blamed e) bytes = writeAll fd fuel sys bytes ∨
      writeAll fd fuel (sys.blamed e) bytes =
        ((writeAll fd fuel sys bytes).1.blamed e, (writeAll fd fuel sys bytes).2) ∧
      (writeAll fd fuel sys bytes).2 = bytes.length := by
  induction fuel generalizing sys bytes with
  | zero =>
    have hnil : bytes = [] := List.eq_nil_of_length_eq_zero (by omega)
    exact .inr ⟨rfl, by rw [hnil]; rfl⟩
  | succ fuel ih =>
    simp only [writeAll, write_blamed]
    split
    · rename_i hnil
      rw [List.isEmpty_iff] at hnil
      exact .inr ⟨rfl, by rw [hnil]; rfl⟩
    rename_i hne
    rcases hw : sys.write fd bytes with ⟨sys', x | n⟩
    · exact .inl rfl
    · obtain ⟨hle, hpos⟩ := write_count hw
      have hn := hpos (by simpa using hne)
      have hlen : (bytes.drop n).length = bytes.length - n := List.length_drop
      simp only [carried]
      rcases ih sys' (bytes.drop n) (by omega) with hsame | ⟨hcarried, hall⟩
      · exact .inl (by rw [hsame])
      · exact .inr ⟨by rw [hcarried], by omega⟩

end System

namespace Connection

variable {α : Type} {c : Connection}

def blamed (c : Connection) (e : Errno) : Connection := { c with system := c.system.blamed e }

@[simp] theorem blamed_stream (c : Connection) (e : Errno) : (c.blamed e).stream = c.stream := rfl

@[simp] theorem blamed_system (c : Connection) (e : Errno) :
    (c.blamed e).system = c.system.blamed e := rfl

@[simp] theorem blamed_update (c : Connection) (e : Errno) (f : Stream → Stream) :
    (c.blamed e).update f = (c.update f).blamed e := rfl

/-- `q` is what comes of a connection after the error `e` where `p` comes of it otherwise: a failure
has put its own error there, or there was none, and the indicator stays as it was. -/
def Carries (e : Errno) (failed : Bool) (p q : Connection × α) : Prop :=
  q = p ∨ q = (p.1.blamed e, p.2) ∧ p.1.stream.failed = failed

theorem allocate_blamed (c : Connection) (e : Errno) :
    c.allocate.stream.failed = c.stream.failed ∧
      ((c.blamed e).allocate = c.allocate ∨ (c.blamed e).allocate = c.allocate.blamed e) := by
  simp only [allocate, blamed_stream, blamed_system, System.inspect_blamed]
  split
  · exact ⟨rfl, .inr rfl⟩
  · split
    · exact ⟨rfl, .inr rfl⟩
    · rcases c.system.inspect c.stream.fd with ⟨sys, x | dev⟩
      · exact ⟨rfl, .inl rfl⟩
      · exact ⟨rfl, .inr rfl⟩

theorem carries_align (c : Connection) (e : Errno) :
    Carries e c.stream.failed c.align (c.blamed e).align := by
  unfold align
  rw [blamed_stream, blamed_system, System.seek_blamed]
  split
  · exact .inr ⟨rfl, rfl⟩
  · split
    · exact .inr ⟨rfl, rfl⟩
    · rcases c.system.seek c.stream.fd .current (c.stream.cursor - c.stream.window.length) with
        ⟨sys, x | position⟩
      · exact .inl rfl
      · exact .inr ⟨rfl, rfl⟩

theorem carries_send (c : Connection) (bytes : Bytes) (e : Errno) :
    Carries e c.stream.failed (c.send bytes) ((c.blamed e).send bytes) := by
  unfold send
  rcases carries_align c e with h | ⟨h, hfailed⟩
  · exact .inl (by rw [h])
  rw [h]
  rcases halign : c.align with ⟨c₁, _ | _⟩ <;> rw [halign] at hfailed
  · exact .inr ⟨rfl, hfailed⟩
  · dsimp only [blamed_stream, blamed_system]
    rcases System.writeAll_blamed e c₁.stream.fd c₁.system bytes (Nat.le_refl _) with hw | ⟨hw, hall⟩
    · exact .inl (by simp only [hw])
    · refine .inr ⟨by simp only [hw]; rfl, ?_⟩
      have hfailed : c₁.stream.failed = c.stream.failed := hfailed
      simp only [hall, Nat.lt_irrefl, decide_false, Bool.or_false, Stream.handedOn, Stream.emptied, hfailed]

theorem carries_drain (c : Connection) (e : Errno) :
    Carries e c.stream.failed c.drain (c.blamed e).drain := by
  unfold drain
  rw [blamed_stream]
  split
  · exact .inr ⟨rfl, rfl⟩
  · rcases carries_send c c.stream.pending e with h | ⟨h, hfailed⟩
    · exact .inl (by rw [h])
    · exact .inr ⟨by rw [h], hfailed⟩

theorem carries_endOutput (c : Connection) (e : Errno) :
    Carries e c.stream.failed c.endOutput (c.blamed e).endOutput := by
  unfold endOutput
  rw [blamed_stream]
  split
  · exact .inr ⟨rfl, rfl⟩
  · rcases carries_drain c e with h | ⟨h, hfailed⟩
    · exact .inl (by rw [h])
    · rw [h]
      rcases hdrain : c.drain with ⟨c₁, _ | _⟩ <;> rw [hdrain] at hfailed
      · exact .inr ⟨rfl, hfailed⟩
      · exact .inr ⟨rfl, hfailed⟩

theorem carries_fill (c : Connection) (e : Errno) :
    Carries e c.stream.failed c.fill (c.blamed e).fill := by
  unfold fill
  rcases carries_endOutput c e with h | ⟨h, hfailed⟩
  · exact .inl (by rw [h])
  rw [h]
  rcases hend : c.endOutput with ⟨c₁, _ | _⟩ <;> rw [hend] at hfailed
  · exact .inr ⟨rfl, hfailed⟩
  dsimp only
  rw [blamed_stream]
  split
  · exact .inr ⟨rfl, hfailed⟩
  split
  · exact .inl rfl
  obtain ⟨hkeep, ha | ha⟩ := allocate_blamed c₁ e <;> rw [ha]
  · exact .inl rfl
  · rw [blamed_stream, blamed_system, System.read_blamed]
    rcases c₁.allocate.system.read c₁.allocate.stream.fd c₁.allocate.stream.capacity with
      ⟨sys, x | _ | ⟨b, bytes⟩⟩
    · exact .inl rfl
    · exact .inr ⟨rfl, hkeep.trans hfailed⟩
    · exact .inr ⟨rfl, hkeep.trans hfailed⟩

theorem carries_readPast (c : Connection) (n : Nat) (e : Errno) :
    Carries e c.stream.failed (c.readPast n) ((c.blamed e).readPast n) := by
  unfold readPast
  rw [blamed_stream, blamed_system]
  dsimp only
  rw [System.read_blamed]
  rcases c.system.read c.stream.emptied.fd n with ⟨sys, x | _ | ⟨b, bytes⟩⟩
  · exact .inl rfl
  · exact .inr ⟨rfl, rfl⟩
  · exact .inr ⟨rfl, rfl⟩

theorem carries_takeRounds (rounds : Nat) (c : Connection) (n : Nat) (e : Errno) :
    Carries e c.stream.failed (takeRounds rounds c n) (takeRounds rounds (c.blamed e) n) := by
  induction rounds generalizing c n with
  | zero => exact .inr ⟨rfl, rfl⟩
  | succ rounds ih =>
    unfold takeRounds
    dsimp only
    rw [blamed_stream, blamed_update]
    generalize hfound : c.stream.ahead.take n = found
    generalize hc : c.update (·.skip found.length) = c₁
    have hfailed : c₁.stream.failed = c.stream.failed := by rw [← hc]; rfl
    rw [← hfailed, blamed_stream]
    split
    · exact .inr ⟨rfl, rfl⟩
    split
    · -- The window is filled, and the rounds after it take up what the fill left.
      rcases carries_fill c₁ e with h | ⟨h, hfill⟩
      · exact .inl (by rw [h])
      rw [h]
      rcases hf : c₁.fill with ⟨c₂, _ | _⟩ <;> rw [hf] at hfill
      · exact .inr ⟨rfl, hfill⟩
      rcases ih c₂ (n - found.length) with h' | ⟨h', hrest⟩
      · exact .inl (by simp only [h'])
      · exact .inr ⟨by simp only [h'], hrest.trans hfill⟩
    · rcases carries_readPast c₁ (c₁.stream.direct (n - found.length)) e with h | ⟨h, hread⟩
      · exact .inl (by rw [h])
      rw [h]
      rcases hr : c₁.readPast (c₁.stream.direct (n - found.length)) with ⟨c₂, _ | ⟨b, bytes⟩⟩ <;>
        rw [hr] at hread
      · exact .inr ⟨rfl, hread⟩
      rcases ih c₂ (n - found.length - (b :: bytes).length) with h' | ⟨h', hrest⟩
      · exact .inl (by simp only [h'])
      · exact .inr ⟨by simp only [h'], hrest.trans hread⟩

theorem carries_takeLineRounds (rounds : Nat) (c : Connection) (n : Nat) (e : Errno) :
    Carries e c.stream.failed (takeLineRounds rounds c n) (takeLineRounds rounds (c.blamed e) n) := by
  induction rounds generalizing c n with
  | zero => exact .inr ⟨rfl, rfl⟩
  | succ rounds ih =>
    have hfirst : Carries e c.stream.failed (if c.stream.ahead.isEmpty then c.fill else (c, true))
        (if c.stream.ahead.isEmpty then (c.blamed e).fill else (c.blamed e, true)) := by
      split
      · exact carries_fill c e
      · exact .inr ⟨rfl, rfl⟩
    unfold takeLineRounds
    rw [blamed_stream]
    split
    · exact .inr ⟨rfl, rfl⟩
    rcases hfirst with h | ⟨h, hfill⟩
    · exact .inl (by rw [h])
    rw [h]
    rcases hf : (if c.stream.ahead.isEmpty then c.fill else (c, true)) with ⟨c₁, _ | _⟩ <;>
      rw [hf] at hfill
    · exact .inr ⟨rfl, hfill⟩
    dsimp only
    rw [blamed_stream, blamed_update]
    generalize hfound : firstLine (c₁.stream.ahead.take n) = found
    split
    · exact .inr ⟨rfl, hfill⟩
    · rcases ih (c₁.update (·.skip found.length)) (n - found.length) with h' | ⟨h', hrest⟩
      · exact .inl (by simp only [h'])
      · exact .inr ⟨by simp only [h'], hrest.trans hfill⟩

theorem carries_take (c : Connection) (n : Nat) (e : Errno) :
    Carries e c.stream.failed (c.take n) ((c.blamed e).take n) := by
  unfold take
  obtain ⟨hkeep, ha | ha⟩ := allocate_blamed c e
  · exact .inl (by rw [ha])
  · rw [ha, ← hkeep]
    exact carries_takeRounds (n + 1) c.allocate n e

/-- A line is looked at together with the last error only where the indicator is set. -/
theorem carries_takeLine (n : Nat) (e : Errno) (h : c.stream.failed = false) :
    Carries e false (c.takeLine n) ((c.blamed e).takeLine n) := by
  unfold takeLine
  rw [blamed_stream, blamed_update, h]
  have hclear : (c.update ({ · with failed := false })).stream.failed = false := rfl
  generalize c.update ({ · with failed := false }) = q at hclear
  rcases carries_takeLineRounds n q n e with hsame | ⟨hsame, hfailed⟩
  · exact .inl (by rw [hsame])
  · rw [hclear] at hfailed
    rw [hsame]
    refine .inr ⟨?_, ?_⟩
    · simp only [blamed_stream, hfailed, Bool.false_and, Bool.or_false]
      rfl
    · simp only [update, hfailed, Bool.or_false]

/-- A stream is let go in the same way whatever failed before. -/
theorem release_blamed (c : Connection) (e : Errno) : ∃ e', (c.blamed e).release = c.release.blamed e' := by
  have hdrain : Carries e c.stream.failed (if c.stream.writing then c.drain else (c, true))
      (if c.stream.writing then (c.blamed e).drain else (c.blamed e, true)) := by
    split
    · exact carries_drain c e
    · exact .inr ⟨rfl, rfl⟩
  unfold release close finish
  rw [blamed_stream]
  rcases hdrain with h | ⟨h, -⟩ <;> rw [h]
  · exact ⟨_, rfl⟩
  · generalize (if c.stream.writing then c.drain else (c, true)) = r
    obtain ⟨c₁, drained⟩ := r
    dsimp only [blamed_stream, blamed_system]
    rw [System.close_blamed]
    rcases c₁.system.close c₁.stream.fd with ⟨sys, x | _⟩
    · exact ⟨_, rfl⟩
    · exact ⟨e, rfl⟩

end Connection

end BufferedFiles
