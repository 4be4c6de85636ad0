import BufferedFiles.Proofs.FileOperations
import BufferedFiles.Proofs.HeldFailures
import BufferedFiles.Proofs.PipeStreams

/-!
# Every operation on a pipe

A stream that puts bytes into a pipe answers an operation by what it is asked alone, and what the pipe was given
grows by what was written. A stream that takes bytes from a pipe answers by its buffer and by what comes out of
the pipe; whether it has its buffer already makes no difference to it.
-/
namespace BufferedFiles

namespace Operation

theorem Fits.ordinary {op : Operation} (h : op.Fits) : op.Ordinary := by
  cases op with
  | setDiscipline discipline => exact h
  | _ => trivial

/-- How a pipe refuses to be moved. -/
def immovable (target : Target) : StreamError :=
  .ofErrno "fseeko" (if target.parts? = none then .invalidArgument else .notSeekable)

/-- The reply of a stream that puts bytes into a pipe. -/
def pipedReply : Operation → Reply
  | .read n => if n = 0 then .answer (.bytes []) else PlainFile.turnedDown "fread"
  | .readLine max => if max = 0 then .answer (.bytes []) else PlainFile.turnedDown "fgets"
  | .write bytes => .answer (.count bytes.length)
  | .flush => .answer .done
  | .seek target => .refused (.stream (immovable target))
  | .tell => .refused (.stream (.ofErrno "ftello" .notSeekable))
  | .setDiscipline _ => .senseless

end Operation

namespace Connection

variable {c c' : Connection} {out bytes : Bytes} {n : Nat} {op : Operation}

/-- The stream puts bytes into a pipe, which was given `out` so far with what is pending, and takes that. -/
structure PipesOut (c : Connection) (out : Bytes) : Prop where
  ready : c.Ready
  placeless : c.Placeless
  direction : c.stream.reads = false ∧ c.stream.writes = true
  sided : c.stream.Sided
  quiet : c.stream.failed = false ∧ c.stream.held = none
  drains : c.stream.pending = [] ∨ c.Willing 0
  received : c.account.received = out

/-- Bytes laid down are given to the pipe. -/
theorem PipesOut.lays (h : c.PipesOut out) (hl : c.Lays c' bytes) (hoffset : c'.stream.offset = none)
    (hsided : c'.stream.Sided) (hdrains : c'.stream.pending = [] ∨ c'.Willing 0) :
    c'.PipesOut (out ++ bytes) := by
  have hsigns := hl.signs
  simp only [Stream.signs, Prod.mk.injEq] at hsigns
  obtain ⟨hfailed, -, hheld⟩ := hsigns
  refine ⟨hl.ready, h.placeless.through hl.through hoffset, ?_, hsided, ?_, hdrains, ?_⟩
  · rw [hl.through.stream.reads, hl.through.stream.writes]
    exact h.direction
  · rw [hfailed, hheld]
    exact h.quiet
  · rw [hl.account, Account.lay, h.received]

/-- What is pending is as willingly taken as it was. -/
theorem PipesOut.still (h : c.PipesOut out) (hl : c.Lays c' []) (hoffset : c'.stream.offset = none)
    (hsided : c'.stream.Sided) (hpend : c'.stream.pending = [] ∨ c'.stream.pending = c.stream.pending) :
    c'.PipesOut out := by
  rw [← List.append_nil out]
  exact h.lays hl hoffset hsided (hpend.elim .inl fun hsame => drains_lays h.drains hl hsame)

theorem PipesOut.unmoved (h : c.PipesOut out) : c.unmoved.PipesOut out :=
  h.still (Stalls.lays ⟨rfl, ⟨.refl _, .withError _ _ _, fun _ _ _ => rfl⟩, rfl⟩ h.ready) h.placeless.offset
    h.sided (.inr rfl)

theorem PipesOut.turnedAway (h : c.PipesOut out) : c.turnedAway.PipesOut out := by
  obtain ⟨⟨d, dev, hon⟩, halign⟩ := h.ready
  have hon' : c.turnedAway.On d dev :=
    ⟨⟨hon.opened, hon.appending, hon.within⟩, hon.fits.cursor, hon.fits.window, hon.fits.input,
      hon.fits.covers, hon.fits.offset⟩
  have hsigns : c.turnedAway.stream.signs = c.stream.signs := by
    simp only [Stream.signs, h.quiet.1, h.sided.unended h.direction.1]
    rfl
  exact h.still
    ⟨through_turnedAway c, ⟨⟨d, dev, hon'⟩, halign⟩, (Account.lay_nil _).symm, hsigns, Nat.le_refl c.extent⟩
    h.placeless.offset (sided_turnedAway h.sided) (.inr rfl)

theorem PipesOut.allocate (h : c.PipesOut out) : c.allocate.PipesOut out := by
  obtain ⟨hl, -⟩ := lays_allocate h.ready
  exact h.still hl (placeless_allocate h.placeless).offset (sided_allocate h.sided) (.inr h.ready.kept.1)

theorem PipesOut.endOutput (h : c.PipesOut out) :
    ∃ c₁, c.endOutput = (c₁, true) ∧ c₁.PipesOut out ∧ c₁.stream.pending = [] := by
  have hplace := placeless_endOutput h.placeless
  have hsided := sided_endOutput h.sided
  rcases e : c.endOutput with ⟨c₁, ended⟩
  rw [e] at hplace hsided
  cases ended with
  | true =>
    obtain ⟨hl, hpend, -⟩ := endOutput_ok h.ready e
    exact ⟨c₁, rfl, h.still hl hplace.offset hsided (.inl hpend), hpend⟩
  | false =>
    obtain ⟨hfails, hne⟩ := endOutput_fails h.ready e
    exact absurd (h.drains.resolve_left hne) hfails.unwilling

/-- A buffer that is given up takes what was pending with it. -/
theorem PipesOut.emptied (h : c.PipesOut out) :
    ∃ out', (c.update Stream.emptied).PipesOut out' ∧ out = out' ++ c.stream.pending := by
  obtain ⟨⟨d, dev, hon⟩, -⟩ := h.ready
  have hon' : (c.update Stream.emptied).On d dev := Over.on_of_empty
    ⟨hon.opened, hon.appending, hon.within⟩ rfl rfl rfl
    fun p hp hreg hd => hon.fits.offset p hp hreg (.inr hd)
  have haccount : (c.update Stream.emptied).account = c.standing := by
    rw [account_of_drained rfl, standing_of_empty hon'.opened rfl,
      standing_of_empty hon.opened (h.sided.input h.direction.1)]
  refine ⟨_, ⟨⟨⟨d, dev, hon'⟩, .inl rfl⟩, ⟨h.placeless.offset, h.placeless.pipe⟩, h.direction,
    ⟨fun _ => rfl, h.sided.unended, h.sided.output⟩, h.quiet, .inl rfl, rfl⟩, ?_⟩
  rw [haccount, ← h.received, account, Account.lay]

/-- A buffer with nothing in it can be given up. -/
theorem PipesOut.givenUp (h : c.PipesOut out) (hpend : c.stream.pending = []) : c.givenUp.PipesOut out := by
  obtain ⟨out', hempty, rfl⟩ := h.emptied
  rw [hpend, List.append_nil]
  exact hempty.turnedAway

theorem PipesOut.ahead (h : c.PipesOut out) : c.stream.ahead = [] :=
  Stream.ahead_of_window (h.sided.input h.direction.1)

theorem PipesOut.read_refused (h : c.PipesOut out) (hn : n ≠ 0) (hkeep : ¬ c.Bypasses n) :
    ∃ c', c.read n = (c', .error (.ofErrno "fread" .badDescriptor)) ∧ c'.PipesOut out := by
  obtain ⟨⟨d, dev, hon⟩, -⟩ := h.ready
  obtain ⟨hkept, -, hopened⟩ := h.ready.kept
  have ha := h.allocate
  by_cases hcap : c.allocate.stream.capacity ≤ n
  · have hpend : c.allocate.stream.pending = [] :=
      hkept.trans (Classical.byContradiction fun hne => hkeep ⟨hcap, .inl hne⟩)
    have hd : d.readable = false := Bool.eq_false_iff.2 fun hyes =>
      hkeep ⟨hcap, .inr ⟨h.direction.1, d, dev, hon.opened, hyes⟩⟩
    exact ⟨_, read_givenUp hn h.quiet.2 ha.ahead hcap (hopened.trans hon.opened) hd, ha.givenUp hpend⟩
  · obtain ⟨q, hend, hq, -⟩ := ha.endOutput
    exact ⟨_, read_turnedAway hn h.quiet.2 ha.ahead (Nat.lt_of_not_le hcap) hq.direction.1
      (hq.sided.unended hq.direction.1) hend, hq.turnedAway⟩

theorem PipesOut.write (h : c.PipesOut out) (hwilling : c.Willing bytes.length) :
    ∃ c', c.write bytes = (c', .ok bytes.length) ∧ c'.PipesOut (out ++ bytes) := by
  by_cases hb : bytes = []
  · subst hb
    exact ⟨c, rfl, by rwa [List.append_nil]⟩
  have hplace := placeless_write h.placeless bytes
  have hsided := sided_write h.sided bytes
  rcases e : c.write bytes with ⟨c', r⟩
  rw [e] at hplace hsided
  rcases write_spec h.ready h.direction.2 hb e with ⟨-, rfl, hl, -⟩ | ⟨-, -, hno⟩ | ⟨-, -, hfails, -⟩
  · exact ⟨c', rfl, h.lays hl hplace.offset hsided (.inr (Willing.through hwilling hl.through hl.account hl.extent))⟩
  · exact absurd hwilling hno
  · exact absurd hwilling hfails.unwilling

theorem PipesOut.flush (h : c.PipesOut out) : ∃ c', c.flush = (c', .ok ()) ∧ c'.PipesOut out := by
  have hplace := placeless_flush h.placeless
  have hsided := sided_flush h.sided
  rcases e : c.flush with ⟨c', r⟩
  rw [e] at hplace hsided
  rcases flush_spec h.ready e with ⟨rfl, hl, hpend, -⟩ | ⟨-, hne, hno⟩
  · exact ⟨c', rfl, h.still hl hplace.offset hsided (.inl hpend)⟩
  · exact absurd (h.drains.resolve_left hne) hno

theorem PipesOut.seek (h : c.PipesOut out) (target : Target) :
    ∃ c', c.seek target = (c', .error (Operation.immovable target)) ∧ c'.PipesOut out := by
  cases hparts : target.parts? with
  | none => exact ⟨c, by simp only [Connection.seek, Operation.immovable, hparts, if_true], h⟩
  | some parts =>
    have hsome : target.parts? ≠ none := by simp [hparts]
    obtain ⟨c₁, hend, h₁, -⟩ := h.endOutput
    exact ⟨_, by rw [h.placeless.seek_refused hend hsome, Operation.immovable, if_neg hsome],
      h₁.allocate.unmoved⟩

/-- One operation on a stream that puts bytes into a pipe. -/
theorem PipesOut.operate (h : c.PipesOut out) (hop : op.Fits) (hkeep : ¬ c.Wastes op) :
    ∃ c', c.operate op = (c', op.pipedReply) ∧ c'.PipesOut (out ++ op.given) := by
  cases op with
  | read n =>
    simp only [Operation.given, List.append_nil]
    by_cases hn : n = 0
    · subst hn
      exact ⟨c, rfl, h⟩
    obtain ⟨c', e, hc'⟩ := h.read_refused hn hkeep
    exact ⟨c', by rw [Connection.operate, e, Operation.pipedReply, if_neg hn]; rfl, hc'⟩
  | readLine max =>
    simp only [Operation.given, List.append_nil]
    by_cases hmax : max = 0
    · subst hmax
      exact ⟨c, rfl, h⟩
    obtain ⟨q, hend, hq, -⟩ := h.endOutput
    have e := readLine_turnedAway hmax h.quiet.2 h.quiet.1 h.ahead hq.direction.1 (hq.sided.unended hq.direction.1) hend
    exact ⟨_, by rw [Connection.operate, e, Operation.pipedReply, if_neg hmax]; rfl, hq.turnedAway⟩
  | write bytes =>
    have hwilling : c.Willing bytes.length := Classical.byContradiction fun hno => hkeep ⟨h.direction.2, hno⟩
    obtain ⟨c', e, hc'⟩ := h.write hwilling
    exact ⟨c', by rw [Connection.operate, e]; rfl, hc'⟩
  | flush =>
    simp only [Operation.given, List.append_nil]
    obtain ⟨c', e, hc'⟩ := h.flush
    exact ⟨c', by rw [Connection.operate, e]; rfl, hc'⟩
  | seek target =>
    simp only [Operation.given, List.append_nil]
    obtain ⟨c', e, hc'⟩ := h.seek target
    exact ⟨c', by rw [Connection.operate, e]; rfl, hc'⟩
  | tell =>
    simp only [Operation.given, List.append_nil]
    exact ⟨_, by rw [Connection.operate, h.placeless.tell]; rfl, h.unmoved⟩
  | setDiscipline discipline => exact hop.elim

/-- After an operation the stream still puts bytes into the pipe, also where pending output is lost. -/
theorem PipesOut.remains (h : c.PipesOut out) (hop : op.Fits) (hkeep : ¬ c.Strays op) :
    ∃ out', (c.operate op).1.PipesOut out' := by
  obtain hkeep | ⟨n, rfl, hcap, -, -, -, hshut⟩ := lost_or_kept hkeep
  · obtain ⟨c', e, h'⟩ := h.operate hop hkeep
    rw [e]
    exact ⟨_, h'⟩
  by_cases hn : n = 0
  · subst hn
    exact ⟨out, h⟩
  have ha := h.allocate
  obtain ⟨hsame, hkeep'⟩ := read_emptied h.ready hn hcap ha.ahead h.quiet.2 hshut
  obtain ⟨out', hempty, -⟩ := ha.emptied
  obtain ⟨c', e, h'⟩ := hempty.operate hop hkeep'
  rw [hsame, e]
  exact ⟨_, h'⟩

/-- The stream takes bytes from a pipe. It was not used before it got a buffer. -/
structure PipesIn (c : Connection) : Prop where
  placeless : c.Placeless
  direction : c.stream.reads = true ∧ c.stream.writes = false
  sided : c.stream.Sided
  untouched : c.stream.capacity = 0 → c.stream.Fresh

theorem Placeless.allocate (h : c.Placeless) :
    c.allocate = c.update ({ · with capacity := c.stream.bufferSize }) := by
  obtain ⟨d, dev, hopened, -⟩ := h.pipe
  exact allocate_eq hopened

theorem Placeless.capacity_allocate (h : c.Placeless) : c.allocate.stream.capacity ≠ 0 := by
  rw [h.allocate]
  exact c.stream.bufferSize_ne_zero

theorem Placeless.file (h : c.Placeless) : c.account.file = none := by
  obtain ⟨d, dev, hopened, hpipe⟩ := h.pipe
  simp only [account, standing_eq hopened, Account.lay, Account.ofPort,
    Content.file?_eq_none (Content.isRegular_of_immobile hpipe), Option.map_none]

/-- There is no output to end. -/
theorem PipesIn.idle (h : c.PipesIn) :
    c.endOutput = (c, true) ∧ c.allocate.endOutput = (c.allocate, true) := by
  have hw := h.sided.output h.direction.2
  refine ⟨endOutput_of_idle hw, endOutput_of_idle ?_⟩
  rw [h.placeless.allocate]
  exact hw

/-- A window is filled as well where the buffer is there already. -/
private theorem PipesIn.fill_allocate (h : c.PipesIn) (hcap : c.stream.capacity = 0) :
    c.allocate.fill = c.fill := by
  have hs := h.untouched hcap
  have hend : c.stream.atEnd = false := congrArg (·.2.1) hs.signs
  obtain ⟨hidle, hidle'⟩ := h.idle
  have hkeep : c.allocate.stream.atEnd = c.stream.atEnd ∧ c.allocate.stream.reads = c.stream.reads := by
    rw [h.placeless.allocate]
    exact ⟨rfl, rfl⟩
  simp only [fill, hidle, hidle', hkeep, hend, h.direction.1, allocate_of_capacity h.placeless.capacity_allocate,
    Bool.not_true, Bool.false_eq_true, if_false]

private theorem PipesIn.takeLine_allocate (h : c.PipesIn) (hcap : c.stream.capacity = 0) (hn : n ≠ 0) :
    c.allocate.takeLine n = c.takeLine n := by
  have hs := h.untouched hcap
  have hfailed : c.stream.failed = false := congrArg (·.1) hs.signs
  have hahead := Stream.ahead_of_window hs.window
  have hkeep : c.allocate.stream.failed = c.stream.failed ∧ c.allocate.stream.ahead = c.stream.ahead := by
    rw [h.placeless.allocate]
    exact ⟨rfl, rfl⟩
  obtain ⟨rounds, rfl⟩ := Nat.exists_eq_succ_of_ne_zero hn
  have hrounds : takeLineRounds (rounds + 1) c.allocate (rounds + 1) =
      takeLineRounds (rounds + 1) c (rounds + 1) := by
    simp only [takeLineRounds, if_neg hn, hkeep.2, hahead, List.isEmpty_nil, if_true, h.fill_allocate hcap]
  rw [takeLine, takeLine, update_quiet hfailed, update_quiet (hkeep.1.trans hfailed), hkeep.1, hrounds]

theorem flush_of_idle (hwin : c.stream.window = []) (hpend : c.stream.pending = [])
    (hoffset : c.stream.offset = none) : c.flush = (c, .ok ()) := by
  have hahead := Stream.ahead_of_window hwin
  have hsame : c.update ({ · with offset := none }) = c := by
    obtain ⟨⟨⟩, sys⟩ := c
    cases hoffset
    rfl
  rw [flush, sync, drain_of_drained hpend]
  simp only [hahead, List.isEmpty_nil, if_true, hsame]

theorem through_operate (c : Connection) (hop : op.Fits) : c.Through (c.operate op).1 :=
  (hands_operate c hop.ordinary).through

/-- The operation does the same where the buffer is there already. After it the stream either has one, or it still
was not used. -/
def Indifferent (c : Connection) (op : Operation) : Prop :=
  (c.operate op).1.stream.capacity ≠ 0 ∧ c.allocate.operate op = c.operate op ∨
    (c.operate op).1.stream.Fresh ∧ c.allocate.operate op = ((c.operate op).1.allocate, (c.operate op).2)

/-- An operation that gets the stream its buffer first. -/
theorem PipesIn.indifferent_of_eq (h : c.PipesIn) (hop : op.Fits) (hsame : c.allocate.operate op = c.operate op) :
    c.Indifferent op := by
  have hcap := h.placeless.capacity_allocate
  refine .inl ⟨?_, hsame⟩
  rw [← hsame, (through_operate c.allocate hop).stream.capacity hcap]
  exact hcap

/-- An operation that does nothing. -/
theorem indifferent_of_fresh {r : Reply} (hs : c.stream.Fresh) (e : c.operate op = (c, r))
    (e' : c.allocate.operate op = (c.allocate, r)) : c.Indifferent op := by
  rw [Indifferent, e, e']
  exact .inr ⟨hs, rfl⟩

/-- A stream on a pipe that was not used yet does the same whether it has its buffer already or not. -/
theorem PipesIn.operate_allocate (h : c.PipesIn) (hop : op.Fits) (hcap : c.stream.capacity = 0) :
    c.Indifferent op := by
  have hs := h.untouched hcap
  have hheld : c.stream.held = none := congrArg (·.2.2) hs.signs
  have ha := h.placeless.allocate
  have hcap' := h.placeless.capacity_allocate
  have hplace' := placeless_allocate h.placeless
  have hheld' : c.allocate.stream.held = none := by
    rw [ha]
    exact hheld
  cases op with
  | read n =>
    by_cases hn : n = 0
    · subst hn
      exact indifferent_of_fresh hs rfl rfl
    have htake : c.allocate.take n = c.take n := by
      rw [take, take, allocate_of_capacity hcap']
    exact h.indifferent_of_eq hop (by simp only [operate, read, if_neg hn, hheld, hheld', htake])
  | readLine max =>
    by_cases hmax : max = 0
    · subst hmax
      exact indifferent_of_fresh hs rfl rfl
    have hsize : LineBuffer.sizeFor max - 1 ≠ 0 := by
      unfold LineBuffer.sizeFor
      omega
    exact h.indifferent_of_eq hop
      (by simp only [operate, readLine, if_neg hmax, hheld, hheld', h.takeLine_allocate hcap hsize])
  | write bytes =>
    by_cases hb : bytes = []
    · subst hb
      exact indifferent_of_fresh hs rfl rfl
    have hplace : c.turnedAway.Placeless := h.placeless.through (through_turnedAway c) h.placeless.offset
    have hidle' : c.allocate.stream.writes = false ∧ c.allocate.stream.writing = false := by
      rw [ha]
      exact ⟨h.direction.2, hs.writing⟩
    rw [Indifferent, operate, operate, write_turnedAway h.direction.2 hs.writing hb,
      write_turnedAway hidle'.1 hidle'.2 hb]
    refine .inr ⟨⟨hs.window, hs.cursor, hs.pending, hs.writing, hs.offset, ?_, hs.capacity⟩, ?_⟩
    · exact congrArg (fun held => (false, false, held)) hheld
    · rw [answered, answered, hplace.allocate, ha]
      rfl
  | flush =>
    have hflush := flush_of_idle hs.window hs.pending hs.offset
    have hflush' : c.allocate.flush = (c.allocate, .ok ()) := by
      rw [ha]
      exact flush_of_idle hs.window hs.pending hs.offset
    exact indifferent_of_fresh hs (congrArg (answered _) hflush) (congrArg (answered _) hflush')
  | seek target =>
    by_cases hparts : target.parts? = none
    · exact indifferent_of_fresh (r := .refused (.stream (.ofErrno "fseeko" .invalidArgument))) hs
        (by simp only [operate, seek, hparts]; rfl) (by simp only [operate, seek, hparts]; rfl)
    obtain ⟨hidle, hidle'⟩ := h.idle
    refine h.indifferent_of_eq hop ?_
    rw [operate, operate, h.placeless.seek_refused hidle hparts, hplace'.seek_refused hidle' hparts,
      allocate_of_capacity hcap']
  | tell =>
    have hplace : c.unmoved.Placeless :=
      h.placeless.through ⟨.refl _, .withError _ _ _, fun _ _ _ => rfl⟩ h.placeless.offset
    rw [Indifferent, operate, operate, h.placeless.tell, hplace'.tell]
    refine .inr ⟨hs, ?_⟩
    rw [answered, answered, hplace.allocate, ha]
    rfl
  | setDiscipline discipline => exact hop.elim

/-- A pipe is moved by nothing a stream does to take bytes from it. -/
theorem PipesIn.placeless_operate (h : c.PipesIn) (hop : op.Fits) : (c.operate op).1.Placeless := by
  cases op with
  | read n => exact placeless_read h.placeless n
  | readLine max => exact placeless_readLine h.placeless max
  | write bytes => exact placeless_write h.placeless bytes
  | flush => exact placeless_flush h.placeless
  | seek target =>
    rw [Connection.operate]
    by_cases hparts : target.parts? = none
    · simp only [Connection.seek, hparts]
      exact h.placeless
    · rw [h.placeless.seek_refused h.idle.1 hparts]
      have hplace := placeless_allocate h.placeless
      exact hplace.through ⟨.refl _, .withError _ _ _, fun _ _ _ => rfl⟩ hplace.offset
  | tell =>
    rw [Connection.operate, h.placeless.tell]
    exact h.placeless.through ⟨.refl _, .withError _ _ _, fun _ _ _ => rfl⟩ h.placeless.offset
  | setDiscipline discipline => exact hop.elim

theorem PipesIn.operate (h : c.PipesIn) (hop : op.Fits) : (c.operate op).1.PipesIn := by
  have hthrough := through_operate c hop
  refine ⟨h.placeless_operate hop, ?_, (sided_operate h.sided h.direction.1 op).1, fun hcap => ?_⟩
  · rw [hthrough.stream.reads, hthrough.stream.writes]
    exact h.direction
  · have hbefore : c.stream.capacity = 0 := Classical.byContradiction fun hne =>
      hne ((hthrough.stream.capacity hne).symm.trans hcap)
    exact (h.operate_allocate hop hbefore).elim (fun hleft => absurd hcap hleft.1) And.left

/-- An operation does the same in two systems that its stream cannot tell apart, but for one that borrows. -/
theorem operate_same {b : System} (h : System.SameFor c.stream.fd c.system b) (hop : op.Fits)
    (hown : ¬ c.BorrowsBy op) :
    (Connection.operate ⟨c.stream, b⟩ op).1.stream = (c.operate op).1.stream ∧
      (Connection.operate ⟨c.stream, b⟩ op).2 = (c.operate op).2 ∧
      System.SameFor c.stream.fd (c.operate op).1.system (Connection.operate ⟨c.stream, b⟩ op).1.system := by
  have hconcurs : ∀ {α : Type} {f : α → Answer} {p q : Connection × Except StreamError α},
      c.Concurs b (fun _ => True) p q → c.Through p.1 →
      (answered f q).1.stream = (answered f p).1.stream ∧ (answered f q).2 = (answered f p).2 ∧
        System.SameFor c.stream.fd (answered f p).1.system (answered f q).1.system :=
    fun hc hthrough => ⟨hc.same.1, congrArg (Reply.ofStream _) hc.same.2, hc.sameFor hthrough⟩
  cases op with
  | read n =>
    obtain ⟨hstream, hresult⟩ := (read_same_iff h n).2 fun hb => absurd hb hown
    exact ⟨hstream, congrArg (Reply.ofStream .bytes) hresult, read_sameFor h n⟩
  | readLine max =>
    obtain ⟨hstream, hresult⟩ := (readLine_same_iff h max).2 fun hb => absurd hb hown
    exact ⟨hstream, congrArg (Reply.ofStream .bytes) hresult, readLine_sameFor h max⟩
  | write bytes => exact hconcurs (concurs_write h bytes) (through_write c bytes)
  | flush => exact hconcurs (concurs_flush h) (through_flush c)
  | seek target => exact hconcurs (concurs_seek h target) (through_seek c target)
  | tell => exact hconcurs (concurs_tell h) (through_tell c)
  | setDiscipline discipline => exact hop.elim

/-- `c'` is `c` with its buffer or without, in a system its stream cannot tell apart. -/
structure Shadows (c c' : Connection) : Prop where
  same : System.SameFor c.stream.fd c.system c'.system
  stream : c'.stream = c.stream ∨ c'.stream = c.allocate.stream

/-- What takes bytes from a pipe is not told from its shadow by an operation that does not borrow. -/
theorem Shadows.operate (h : c.Shadows c') (hc : c.PipesIn) (hop : op.Fits) (hown : ¬ c'.BorrowsBy op) :
    (c'.operate op).2 = (c.operate op).2 ∧ (c.operate op).1.Shadows (c'.operate op).1 := by
  have hplain : ∀ {q : Connection}, c'.stream = q.stream → q.system = c.system → q.stream.fd = c.stream.fd →
      (q.operate op).2 = (c'.operate op).2 ∧ (q.operate op).1.stream = (c'.operate op).1.stream ∧
        System.SameFor c.stream.fd (q.operate op).1.system (c'.operate op).1.system := by
    intro q hstream hsystem hfd
    have hq : (⟨c'.stream, c.system⟩ : Connection) = q := by
      rw [hstream, ← hsystem]
    have hfd' : c'.stream.fd = c.stream.fd := by rw [hstream, hfd]
    obtain ⟨h₁, h₂, h₃⟩ := operate_same (c := c') (b := c.system) (hfd' ▸ h.same.symm) hop hown
    rw [hq] at h₁ h₂ h₃
    exact ⟨h₂, h₁, hfd' ▸ h₃.symm⟩
  have hfd := (through_operate c hop).stream.fd
  by_cases hsame : c'.stream = c.stream
  · obtain ⟨hreply, hstream, hsystem⟩ := hplain hsame rfl rfl
    exact ⟨hreply.symm, hfd ▸ hsystem, .inl hstream.symm⟩
  have halloc := h.stream.resolve_left hsame
  have hcap : c.stream.capacity = 0 := Classical.byContradiction fun hne =>
    hsame (by rw [halloc, allocate_of_capacity hne])
  have hsystem : ∀ {q : Connection}, q.Placeless → q.allocate.system = q.system := fun hq => by
    rw [hq.allocate]
    rfl
  obtain ⟨hreply, hstream, hafter⟩ :=
    hplain halloc (hsystem hc.placeless) (through_allocate c).stream.fd
  obtain ⟨-, hop'⟩ | ⟨-, hop'⟩ := hc.operate_allocate hop hcap
  · rw [hop'] at hreply hstream hafter
    exact ⟨hreply.symm, hfd ▸ hafter, .inl hstream.symm⟩
  · rw [hop'] at hreply hstream hafter
    refine ⟨hreply.symm, ?_, .inr hstream.symm⟩
    rw [hfd, ← hsystem (hc.placeless_operate hop)]
    exact hafter

/-- A move is refused, and leaves a shadow of what takes bytes from the pipe. -/
theorem PipesIn.seek (h : c.PipesIn) (target : Target) :
    ∃ c', c.seek target = (c', .error (Operation.immovable target)) ∧ c.Shadows c' := by
  by_cases hparts : target.parts? = none
  · exact ⟨c, by simp only [Connection.seek, Operation.immovable, hparts, if_true], .refl _ _, .inl rfl⟩
  · refine ⟨c.allocate.unmoved, ?_, ?_, .inr rfl⟩
    · rw [h.placeless.seek_refused h.idle.1 hparts, Operation.immovable, if_neg hparts]
    have hsystem : c.allocate.system = c.system := by
      rw [h.placeless.allocate]
      rfl
    have hsame : System.SameFor c.stream.fd c.system c.allocate.unmoved.system := by
      rw [unmoved, hsystem]
      exact (System.SameFor.refl c.stream.fd c.system).withErrors c.system.lastError .notSeekable
    exact hsame

end Connection

end BufferedFiles
