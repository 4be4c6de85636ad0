import BufferedFiles.Proofs.DeviceReads
import BufferedFiles.Proofs.Holding

/-!
# Every read failure is told once

A read that comes upon a failure behind some bytes returns the bytes, and the stream holds the failure
until bytes are asked for again; a read that comes upon it before any byte returns it at once. So the
failures reads came upon are those that were returned, in order, and at most one that is still held.
-/
namespace BufferedFiles

/-- The failure of a read whose device failed with `e`. -/
def readFailure (e : Errno) : StreamError :=
  .ofErrno "fread" (if e = .success then .inputOutput else e)

/-- The failure of a read that a reply tells, as a list of at most one. -/
def readFailures : Reply → List StreamError
  | .refused (.stream e) => if e.op = "fread" then [e] else []
  | _ => []

theorem readFailures_read {e : StreamError} (h : e.op = "fread") :
    readFailures (.refused (.stream e)) = [e] := if_pos h

theorem readFailures_other (op : String) (e : Errno) (h : op ≠ "fread") :
    readFailures (.refused (.stream (.ofErrno op e))) = [] := if_neg h

namespace Connection

variable {c : Connection} {n : Nat} {e : StreamError}

/-- A read of `n` bytes gets fewer and finds the indicator set. -/
def Falters (c : Connection) (n : Nat) : Prop :=
  (c.take n).2.length < n ∧ (c.take n).1.stream.failed = true

instance (c : Connection) (n : Nat) : Decidable (c.Falters n) := inferInstanceAs (Decidable (_ ∧ _))

/-- The failure a read of `n` bytes falters with. -/
def faltersWith (c : Connection) (n : Nat) : StreamError := readFailure (c.take n).1.system.lastError

/-- A held failure is returned, and nothing else happens. -/
theorem read_told (hn : n ≠ 0) (hheld : c.stream.held = some e) : c.read n = (c.holding none, .error e) := by
  unfold read
  rw [if_neg hn, hheld]
  rfl

theorem readLine_told (hn : n ≠ 0) (hheld : c.stream.held = some e) :
    c.readLine n = (c.holding none, .error e) := by
  unfold readLine
  rw [if_neg hn, hheld]
  rfl

/-- Whatever asks for bytes is told what is held. -/
theorem operate_told {op : Operation} (hheld : c.stream.held = some e) (h : op.asks = true) :
    c.operate op = (c.holding none, .refused (.stream e)) := by
  cases op with
  | read n => exact congrArg (answered .bytes) (read_told (by simpa [Operation.asks] using h) hheld)
  | readLine max => exact congrArg (answered .bytes) (readLine_told (by simpa [Operation.asks] using h) hheld)
  | _ => cases h

theorem read_steady (hn : n ≠ 0) (hheld : c.stream.held = none) (hf : ¬ c.Falters n) :
    c.read n = ((c.take n).1, .ok (c.take n).2) := by
  have hno : ¬ (decide ((c.take n).2.length < n) && (c.take n).1.stream.failed) = true := by
    simpa [Falters] using hf
  simp only [read, if_neg hn, hheld, if_neg hno]

/-- Nothing was got, and the failure is returned. -/
theorem read_fails (hn : n ≠ 0) (hheld : c.stream.held = none) (hf : c.Falters n)
    (hgot : (c.take n).2 = []) :
    c.read n = ((c.take n).1.update Stream.settled, .error (c.faltersWith n)) := by
  have hyes : (decide ((c.take n).2.length < n) && (c.take n).1.stream.failed) = true := by
    simpa [Falters] using hf
  have hnil : (c.take n).2.isEmpty = true := List.isEmpty_iff.2 hgot
  simp only [read, if_neg hn, hheld, if_pos hyes, if_pos hnil]
  rfl

/-- Some bytes were got; they are returned, and the failure is held. -/
theorem read_defers (hn : n ≠ 0) (hheld : c.stream.held = none) (hf : c.Falters n)
    (hgot : (c.take n).2 ≠ []) :
    c.read n = (((c.take n).1.update Stream.settled).holding (some (c.faltersWith n)), .ok (c.take n).2) := by
  have hyes : (decide ((c.take n).2.length < n) && (c.take n).1.stream.failed) = true := by
    simpa [Falters] using hf
  have hne : ¬ (c.take n).2.isEmpty = true := by simpa using hgot
  simp only [read, if_neg hn, hheld, if_pos hyes, if_neg hne]
  rfl

theorem held_take (c : Connection) (n : Nat) : (c.take n).1.stream.held = c.stream.held :=
  held_of_holding (f := (·.take n)) (fun held c => take_holding held c n) c

theorem held_takeLine (c : Connection) (n : Nat) : (c.takeLine n).1.stream.held = c.stream.held :=
  held_of_holding (f := (·.takeLine n)) (fun held c => takeLine_holding held c n) c

/-- A device that fails makes the read falter, with that failure. -/
theorem falters_of_failures (hn : n ≠ 0) (hheld : c.stream.held = none)
    (hf : failures (c.answers (.read n)) ≠ []) :
    c.Falters n ∧ (failures (c.answers (.read n))).map readFailure = [c.faltersWith n] := by
  have hask : ¬ (n = 0 ∨ c.stream.held.isSome = true) := by simp [hn, hheld]
  simp only [answers, if_neg hask] at hf ⊢
  obtain ⟨hlt, hset, hlast⟩ := takeRounds_failure (n + 1) c.allocate n hf
  exact ⟨⟨hlt, hset⟩, by rw [hlast]; rfl⟩

/-- What a read got when it falters is all there was. -/
theorem taken_of_falters (hn : n ≠ 0) (hheld : c.stream.held = none) (hcalm : c.Calm) (hf : c.Falters n) :
    (c.take n).2 = c.stream.ahead ++ gained (c.answers (.read n)) ∧ (c.take n).1.stream.ahead = [] := by
  have hask : ¬ (n = 0 ∨ c.stream.held.isSome = true) := by simp [hn, hheld]
  obtain ⟨htake, hshort⟩ := conveys_take hcalm n
  have hkept := htake.kept
  rw [hshort hf.1, List.append_nil] at hkept
  simp only [answers, if_neg hask]
  exact ⟨hkept.symm, hshort hf.1⟩

/-- The failure an operation comes upon when it reads, as a list of at most one. -/
def upon (c : Connection) : Operation → List StreamError
  | .read n => if n ≠ 0 ∧ c.stream.held = none ∧ c.Falters n then [c.faltersWith n] else []
  | _ => []

/-- The failures of the device that an operation meets when it reads. -/
def met (c : Connection) : Operation → List StreamError
  | .read n => (failures (c.answers (.read n))).map readFailure
  | _ => []

/-- The read failure an operation returns, as a list of at most one. -/
def told (c : Connection) (op : Operation) : List StreamError := readFailures (c.operate op).2

/-- What is held is the failure of a read. -/
def HoldsRead (c : Connection) : Prop := ∀ e, c.stream.held = some e → e.op = "fread"

theorem HoldsRead.of_none (h : c.stream.held = none) : c.HoldsRead := fun e he => by
  rw [h] at he
  cases he

theorem met_sublist (c : Connection) (op : Operation) : (c.met op).Sublist (c.upon op) := by
  cases op with
  | read n =>
    by_cases hf : failures (c.answers (.read n)) = []
    · simp only [met, hf, List.map_nil]
      exact List.nil_sublist _
    by_cases hask : n = 0 ∨ c.stream.held.isSome = true
    · simp [answers, if_pos hask, failures] at hf
    · obtain ⟨hn, hheld⟩ := not_or.1 hask
      have hheld : c.stream.held = none := by simpa using hheld
      obtain ⟨hfalters, hsame⟩ := falters_of_failures hn hheld hf
      simp only [met, hsame, upon, if_pos (And.intro hn (And.intro hheld hfalters))]
      exact List.Sublist.refl _
  | _ => exact List.Sublist.refl _

private theorem told_tell (c : Connection) : readFailures (answered .count c.tell).2 = [] := by
  unfold tell
  split
  · rfl
  · exact readFailures_other "ftello" _ (by decide)

/-- An operation that asks for no bytes returns no failure of a read. -/
theorem told_of_quiet {op : Operation} (h : op.asks = false) : c.told op = [] := by
  unfold told
  cases op with
  | read n =>
    have hn : n = 0 := by simpa [Operation.asks] using h
    rw [hn]
    rfl
  | readLine max =>
    have hmax : max = 0 := by simpa [Operation.asks] using h
    rw [hmax]
    rfl
  | write bytes =>
    simp only [operate, write]
    split
    · rfl
    · split
      · exact readFailures_other "fwrite" _ (by decide)
      · rfl
  | flush =>
    simp only [operate, flush]
    split
    · rfl
    · exact readFailures_other "fflush" _ (by decide)
  | seek target =>
    simp only [operate, seek]
    split
    · exact readFailures_other "fseeko" _ (by decide)
    · split
      · exact readFailures_other "fseeko" _ (by decide)
      · exact told_tell _
  | tell => exact told_tell c
  | setDiscipline discipline =>
    simp only [operate, setDiscipline]
    cases discipline with
    | full => rfl
    | line => rfl
    | unbuffered =>
      dsimp only
      split
      · exact readFailures_other "setvbuf" _ (by decide)
      · rfl

/-- A read with nothing held: it tells the failure it comes upon, or holds it. -/
private theorem ledger_read (hn : n ≠ 0) (hheld : c.stream.held = none) :
    c.upon (.read n) = c.told (.read n) ++ (c.operate (.read n)).1.stream.held.toList ∧
      (c.operate (.read n)).1.HoldsRead := by
  have hkeep : (c.take n).1.stream.held = none := (held_take c n).trans hheld
  simp only [told, operate]
  by_cases hf : c.Falters n
  · rw [upon, if_pos ⟨hn, hheld, hf⟩]
    by_cases hgot : (c.take n).2 = []
    · rw [read_fails hn hheld hf hgot]
      refine ⟨?_, .of_none hkeep⟩
      simp only [answered, Reply.ofStream, update, Stream.settled, hkeep]
      rw [readFailures_read rfl]
      rfl
    · rw [read_defers hn hheld hf hgot]
      refine ⟨rfl, fun e he => ?_⟩
      cases he
      rfl
  · rw [upon, if_neg fun hno => hf hno.2.2, read_steady hn hheld hf]
    exact ⟨by simp [answered, Reply.ofStream, readFailures, hkeep], .of_none hkeep⟩

/-- A line with nothing held: its own failure is none of a read. -/
theorem ledger_readLine (hheld : c.stream.held = none) :
    c.told (.readLine n) = [] ∧ (c.operate (.readLine n)).1.stream.held = none := by
  have hkeep := (held_takeLine c (LineBuffer.sizeFor n - 1)).trans hheld
  simp only [told, operate, readLine, hheld]
  split
  · exact ⟨rfl, hheld⟩
  generalize c.takeLine (LineBuffer.sizeFor n - 1) = r at hkeep
  rcases r with ⟨q, _ | line⟩
  · dsimp only
    split
    · exact ⟨readFailures_other "fgets" _ (by decide), hkeep⟩
    · exact ⟨rfl, hkeep⟩
  · exact ⟨rfl, hkeep⟩

/-- The failure that is held before an operation and those it comes upon are those it returns and the one
that is held after it. -/
theorem ledger_step (h : c.HoldsRead) (op : Operation) :
    c.stream.held.toList ++ c.upon op = c.told op ++ (c.operate op).1.stream.held.toList ∧
      (c.operate op).1.HoldsRead := by
  cases hasks : op.asks with
  | false =>
    have hkeep : (c.operate op).1.stream.held = c.stream.held :=
      held_of_holding (f := (·.operate op)) (fun held c => operate_holding hasks held c) c
    have hupon : c.upon op = [] := by
      cases op with
      | read n => simp_all [upon, Operation.asks]
      | _ => rfl
    exact ⟨by rw [hupon, told_of_quiet hasks, hkeep, List.append_nil, List.nil_append],
      fun e he => h e (hkeep ▸ he)⟩
  | true =>
    cases hheld : c.stream.held with
    | some e =>
      have hupon : c.upon op = [] := by
        cases op with
        | read n => simp [upon, hheld]
        | _ => rfl
      rw [hupon, told, operate_told hheld hasks, readFailures_read (h e hheld)]
      exact ⟨rfl, .of_none rfl⟩
    | none =>
      cases op with
      | read n => exact ledger_read (by simpa [Operation.asks] using hasks) hheld
      | readLine max =>
        obtain ⟨htold, hnone⟩ := ledger_readLine (c := c) (n := max) hheld
        rw [htold, hnone]
        exact ⟨rfl, .of_none hnone⟩
      | _ => cases hasks

/-- A stream for input alone is never turned to output. -/
theorem sided_operate (h : c.stream.Sided) (hr : c.stream.reads = true) (op : Operation) :
    (c.operate op).1.stream.Sided ∧ (c.operate op).1.stream.reads = c.stream.reads ∧
      (c.operate op).1.stream.writes = c.stream.writes := by
  have hkin : ∀ {a b : Connection}, a.Through b →
      b.stream.reads = a.stream.reads ∧ b.stream.writes = a.stream.writes :=
    fun h => ⟨h.stream.reads, h.stream.writes⟩
  cases op with
  | read n => exact ⟨sided_read h hr n, hkin (through_read c n)⟩
  | readLine max => exact ⟨sided_readLine h max, hkin (through_readLine c max)⟩
  | write bytes => exact ⟨sided_write h bytes, hkin (through_write c bytes)⟩
  | flush => exact ⟨sided_flush h, hkin (through_flush c)⟩
  | seek target => exact ⟨sided_seek h target, hkin (through_seek c target)⟩
  | tell => exact ⟨sided_tell h, hkin (through_tell c)⟩
  | setDiscipline discipline =>
    refine ⟨sided_setDiscipline h discipline, ?_⟩
    simp only [operate, setDiscipline]
    cases discipline with
    | full =>
      have hmade := hkin (through_allocate (c.update ({ · with discipline := .full })))
      exact hmade
    | line => exact ⟨rfl, rfl⟩
    | unbuffered =>
      have hsync := hkin (through_sync (c.update ({ · with discipline := .unbuffered })))
      dsimp only
      split <;> rename_i heq <;> rw [heq] at hsync <;> exact hsync

/-- How failures of reads are told from a state on. -/
structure TellsOnce (c : Connection) : Prop where
  /-- Before any byte, the failure is returned. -/
  fails : ∀ n, n ≠ 0 → c.stream.held = none → c.Falters n → (c.take n).2 = [] →
    (c.read n).2 = .error (c.faltersWith n) ∧ (c.read n).1.stream.held = none
  /-- Behind some bytes, the bytes are returned and the failure is held. -/
  defers : ∀ n, n ≠ 0 → c.stream.held = none → c.Falters n → (c.take n).2 ≠ [] →
    (c.read n).2 = .ok (c.take n).2 ∧ (c.read n).1.stream.held = some (c.faltersWith n)
  steady : ∀ n, n ≠ 0 → c.stream.held = none → ¬ c.Falters n →
    (c.read n).2 = .ok (c.take n).2 ∧ (c.read n).1.stream.held = none
  /-- A device that fails makes a read falter with its failure. -/
  device : ∀ n, n ≠ 0 → c.stream.held = none → failures (c.answers (.read n)) ≠ [] →
    c.Falters n ∧ (failures (c.answers (.read n))).map readFailure = [c.faltersWith n]
  /-- The bytes a faltering read got are all there were. -/
  taken : c.Calm → ∀ n, n ≠ 0 → c.stream.held = none → c.Falters n →
    (c.take n).2 = c.stream.ahead ++ gained (c.answers (.read n)) ∧ (c.read n).1.stream.ahead = []
  /-- What is held is returned, and no byte is taken. -/
  told : ∀ e, c.stream.held = some e → ∀ op, op.asks = true →
    c.operate op = (c.holding none, .refused (.stream e))
  kept : ∀ op, op.asks = false → ∀ held, (c.holding held).operate op = underHeld held (c.operate op)
  /-- Reads give out what was ahead and what the device answers, in order. -/
  resumes : c.Calm → ∀ n,
    c.Conveys (c.operate (.read n)).1 (c.answers (.read n)) (handedOver (c.operate (.read n)).2)
  released : ∀ held, (c.holding held).close = c.close

theorem tellsOnce (c : Connection) : c.TellsOnce where
  fails n hn hheld hf hgot := by
    rw [read_fails hn hheld hf hgot]
    exact ⟨rfl, (held_take c n).trans hheld⟩
  defers n hn hheld hf hgot := by
    rw [read_defers hn hheld hf hgot]
    exact ⟨rfl, rfl⟩
  steady n hn hheld hf := by
    rw [read_steady hn hheld hf]
    exact ⟨rfl, (held_take c n).trans hheld⟩
  device _ hn hheld hf := falters_of_failures hn hheld hf
  taken hcalm n hn hheld hf := by
    obtain ⟨hall, hnone⟩ := taken_of_falters hn hheld hcalm hf
    refine ⟨hall, ?_⟩
    by_cases hgot : (c.take n).2 = []
    · rw [read_fails hn hheld hf hgot]
      exact hnone
    · rw [read_defers hn hheld hf hgot]
      exact hnone
  told _ hheld _ hasks := operate_told hheld hasks
  kept _ hasks held := operate_holding hasks held c
  resumes hcalm n := conveys_read hcalm n
  released held := close_holding held c

end Connection

/-- A system with a device behind the descriptor 0 that gives six bytes in one read and then fails. -/
def System.sixBytes : System :=
  ((System.fresh.addDevice
    ⟨.regular [97, 98, 99, 100, 101, 102], [none, some .inputOutput], []⟩).1.addDescriptor
    ⟨6, true, false, false, 0⟩).1

namespace Stream

open Connection (upon met told)

variable {s : Stream}

theorem ledger_run (h : ∀ e, s.held = some e → e.op = "fread") (steps : List (System × Operation)) :
    s.held.toList ++ s.overRun upon steps = s.overRun told steps ++ (s.after steps).held.toList := by
  induction steps generalizing s with
  | nil => exact List.append_nil _
  | cons step rest ih =>
    obtain ⟨sys, op⟩ := step
    obtain ⟨hfirst, hholds⟩ := Connection.ledger_step (c := ⟨s, sys⟩) h op
    simp only [overRun, after]
    rw [← List.append_assoc, hfirst, List.append_assoc, ih hholds, List.append_assoc]

theorem met_run (s : Stream) (steps : List (System × Operation)) :
    (s.overRun met steps).Sublist (s.overRun upon steps) := by
  induction steps generalizing s with
  | nil => exact List.Sublist.refl _
  | cons step rest ih => exact (Connection.met_sublist ⟨s, step.1⟩ step.2).append (ih _)

theorem sided_run (h : s.Sided) (hr : s.reads = true) (steps : List (System × Operation)) :
    (s.after steps).Sided ∧ (s.after steps).writes = s.writes := by
  induction steps generalizing s with
  | nil => exact ⟨h, rfl⟩
  | cons step rest ih =>
    obtain ⟨hsided, hreads, hwrites⟩ := Connection.sided_operate (c := ⟨s, step.1⟩) h hr step.2
    obtain ⟨hrest, hsame⟩ := ih hsided (hreads.trans hr)
    exact ⟨hrest, hsame.trans hwrites⟩

/-- The failures that the reads of a run came upon, those of the device among them, are those that were
returned, each by one call, and the one that is still held, if any. This holds for every device, and
whatever others do to the system between the operations. -/
theorem failures_told_once (hs : s.Fresh) (steps : List (System × Operation)) :
    s.overRun upon steps = s.overRun told steps ++ (s.after steps).held.toList ∧
      (s.overRun met steps).Sublist (s.overRun upon steps) ∧
      (s.reads = true → s.writes = false → ∀ sys, Connection.Calm ⟨s.after steps, sys⟩) ∧
      ∀ sys, Connection.TellsOnce ⟨s.after steps, sys⟩ := by
  have hnone : s.held = none := congrArg (·.2.2) hs.signs
  refine ⟨?_, met_run s steps, fun hr hw sys => ?_, fun sys => Connection.tellsOnce _⟩
  · have hledger := ledger_run (s := s) (fun e he => by rw [hnone] at he; cases he) steps
    rwa [hnone] at hledger
  · have hsided : s.Sided :=
      ⟨fun _ => hs.window, fun _ => congrArg (·.2.1) hs.signs, fun _ => hs.writing⟩
    obtain ⟨hafter, hwrites⟩ := sided_run hsided hr steps
    exact fun hno => Bool.noConfusion ((hafter.output (hwrites.trans hw)).symm.trans hno)

/-- The read returns the six bytes, the failure outlasts a question for the position, and the next line
returns it. -/
theorem failure_behind_six_bytes :
    ∃ s : Stream, ∃ steps : List (System × Operation), s.Fresh ∧ s.reads = true ∧ s.writes = false ∧
      steps = [(.sixBytes, .read 10), (.sixBytes, .tell), (.sixBytes, .readLine 5)] ∧
      (Connection.operate ⟨s, .sixBytes⟩ (.read 10)).2 = .answer (.bytes [97, 98, 99, 100, 101, 102]) ∧
      (s.after (steps.take 2)).held = some (readFailure .inputOutput) ∧
      s.overRun met steps = [readFailure .inputOutput] ∧ s.overRun told steps = [readFailure .inputOutput] ∧
      s.overRun upon steps = s.overRun told steps ++ (s.after steps).held.toList := by
  have hfresh := Stream.Fresh.ofMode 0 true false false
  exact ⟨_, _, hfresh, rfl, rfl, rfl, by decide, by decide, by decide, by decide,
    (failures_told_once hfresh _).1⟩

end Stream

end BufferedFiles
