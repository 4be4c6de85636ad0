import BufferedFiles.Proofs.HeldFailures

/-!
# Lines that a failure costs

A run of reads and lines returns what was ahead and what the device gave, in order, but for the lines that
a failure cuts short: a line does not return the bytes it found before the device failed, unless the device
only had nothing yet. So nothing is lost if and only if no line is cut short. A failure is reported only
where nothing is ahead.
-/
namespace BufferedFiles

namespace Connection

variable {c : Connection}

/-- What the device gives an operation. -/
def gains (c : Connection) (op : Operation) : Bytes := gained (c.answers op)

/-- What an operation returns. -/
def returns (c : Connection) (op : Operation) : Bytes := handedOver (c.operate op).2

/-- The operations for input convey what they return, and behind it what they lose. -/
theorem conveys_input {op : Operation} (h : c.Calm) (hin : op.source?.isSome = true) :
    c.Conveys (c.operate op).1 (c.answers op) (c.returns op ++ c.lost op) := by
  cases op with
  | read n =>
    have hnone : c.lost (.read n) = [] := rfl
    rw [hnone, List.append_nil]
    exact conveys_read h n
  | readLine max => exact conveys_readLine h max
  | _ => cases hin

/-- Only a line loses bytes, and then it reports the failure that cut it short. -/
theorem reported_of_lost {op : Operation} (h : c.lost op ≠ []) :
    ∃ max e, op = .readLine max ∧ e ≠ .wouldBlock ∧
      (c.operate op).2 = .refused (.stream (.ofErrno "fgets" e)) := by
  cases op with
  | readLine max =>
    simp only [lost] at h
    split at h
    · exact absurd rfl h
    rename_i hask
    obtain ⟨hmax, hheld⟩ := not_or.1 hask
    have hheld : c.stream.held = none := by simpa using hheld
    simp only [operate, readLine, if_neg hmax, hheld, takeLine]
    generalize takeLineRounds (LineBuffer.sizeFor max - 1) (c.update ({ · with failed := false }))
      (LineBuffer.sizeFor max - 1) = r at h ⊢
    obtain ⟨q, line⟩ := r
    dsimp only at h ⊢
    split at h
    · rename_i hcut
      obtain ⟨hset, herror⟩ := Bool.and_eq_true_iff.1 hcut
      have hother : (if q.system.lastError = .success then .inputOutput else q.system.lastError) ≠
          Errno.wouldBlock := by
        split
        · decide
        · exact of_decide_eq_true herror
      simp only [hcut, Bool.or_true, if_true]
      simp only [update, hset, Bool.true_or, if_true]
      exact ⟨max, _, rfl, hother, rfl⟩
    · exact absurd rfl h
  | _ => exact absurd rfl h

private theorem readLine_last {max : Nat} {e : HandleError} (h : c.Calm) (hmax : max ≠ 0)
    (hheld : c.stream.held = none) (hr : (c.operate (.readLine max)).2 = .refused e) :
    (c.operate (.readLine max)).1.stream.ahead = [] := by
  have hsize : LineBuffer.sizeFor max - 1 ≠ 0 := by
    simp only [LineBuffer.sizeFor]
    omega
  have hclear : (c.update ({ · with failed := false })).Calm := h
  obtain ⟨-, -, hset, hempty⟩ := conveys_takeLineRounds hclear (LineBuffer.sizeFor max - 1)
    (LineBuffer.sizeFor max - 1)
  simp only [operate, readLine, if_neg hmax, hheld, takeLine] at hr ⊢
  generalize takeLineRounds (LineBuffer.sizeFor max - 1) (c.update ({ · with failed := false }))
    (LineBuffer.sizeFor max - 1) = r at hr hset hempty ⊢
  obtain ⟨q, line⟩ := r
  dsimp only at hr hset hempty ⊢
  cases hnone : line.isEmpty || (q.stream.failed && decide (q.system.lastError ≠ .wouldBlock)) with
  | false =>
    rw [hnone, if_neg Bool.false_ne_true] at hr
    cases hr
  | true =>
    have hahead : q.stream.ahead = [] := by
      rcases Bool.or_eq_true_iff.1 hnone with hnil | hcut
      · exact hempty hsize hsize (List.isEmpty_iff.1 hnil)
      · exact hset rfl (Bool.and_eq_true_iff.1 hcut).1
    rw [if_pos rfl]
    dsimp only
    split <;> exact hahead

/-- A failure is held or reported only where nothing is ahead. -/
theorem reported_last {op : Operation} (h : c.Calm) (hheld : c.stream.held ≠ none → c.stream.ahead = [])
    (hin : op.source?.isSome = true) :
    ((c.operate op).1.stream.held ≠ none → (c.operate op).1.stream.ahead = []) ∧
      ∀ e, (c.operate op).2 = .refused e → (c.operate op).1.stream.ahead = [] := by
  cases hasks : op.asks with
  | false =>
    have hsame : c.operate op = (c, .answer (.bytes [])) := by
      cases op with
      | read n =>
        have hn : n = 0 := by simpa [Operation.asks] using hasks
        rw [hn]
        rfl
      | readLine max =>
        have hmax : max = 0 := by simpa [Operation.asks] using hasks
        rw [hmax]
        rfl
      | _ => cases hin
    rw [hsame]
    exact ⟨hheld, fun _ hno => by cases hno⟩
  | true =>
    cases hheld' : c.stream.held with
    | some e =>
      have hnone : c.stream.ahead = [] := hheld (by rw [hheld']; exact Option.some_ne_none e)
      rw [operate_told hheld' hasks]
      exact ⟨fun _ => hnone, fun _ _ => hnone⟩
    | none =>
      cases op with
      | read n =>
        have hn : n ≠ 0 := by simpa [Operation.asks] using hasks
        by_cases hf : c.Falters n
        · have hnone := ((tellsOnce c).taken h n hn hheld' hf).2
          exact ⟨fun _ => hnone, fun _ _ => hnone⟩
        · obtain ⟨hok, hkept⟩ := (tellsOnce c).steady n hn hheld' hf
          refine ⟨fun hno => absurd hkept hno, fun e hno => ?_⟩
          simp only [operate, answered, hok, Reply.ofStream] at hno
          cases hno
      | readLine max =>
        obtain ⟨-, hkept⟩ := ledger_readLine (c := c) (n := max) hheld'
        exact ⟨fun hno => absurd hkept hno,
          fun _ => readLine_last h (by simpa [Operation.asks] using hasks) hheld'⟩
      | _ => cases hin

end Connection

namespace Stream

open Connection (gains returns lost)

variable {s : Stream}

theorem conveys_run (h : ∀ sys, Connection.Calm ⟨s, sys⟩) {steps : List (System × Operation)}
    (hin : ∀ step ∈ steps, step.2.source?.isSome = true) :
    s.ahead ++ s.overRun gains steps =
      s.overRun (fun c op => c.returns op ++ c.lost op) steps ++ (s.after steps).ahead := by
  induction steps generalizing s with
  | nil => exact List.append_nil _
  | cons step rest ih =>
    obtain ⟨sys, op⟩ := step
    have hfirst := Connection.conveys_input (c := ⟨s, sys⟩) (h sys) (hin _ List.mem_cons_self)
    have hrest := ih (s := (Connection.operate ⟨s, sys⟩ op).1.stream) (fun _ => hfirst.calm)
      fun step hstep => hin step (List.mem_cons_of_mem _ hstep)
    simp only [overRun, after]
    rw [List.append_assoc _ _ (after _ rest).ahead, ← hrest, ← List.append_assoc, ← List.append_assoc]
    exact congrArg (· ++ overRun gains _ rest) hfirst.kept

theorem last_run (h : ∀ sys, Connection.Calm ⟨s, sys⟩) (hheld : s.held ≠ none → s.ahead = [])
    {steps : List (System × Operation)} (hin : ∀ step ∈ steps, step.2.source?.isSome = true) :
    (∀ sys, Connection.Calm ⟨s.after steps, sys⟩) ∧
      ((s.after steps).held ≠ none → (s.after steps).ahead = []) := by
  induction steps generalizing s with
  | nil => exact ⟨h, hheld⟩
  | cons step rest ih =>
    have hop := hin step List.mem_cons_self
    obtain ⟨hnext, -⟩ := Connection.reported_last (c := ⟨s, step.1⟩) (h step.1) hheld hop
    exact ih (fun _ => (Connection.conveys_input (c := ⟨s, step.1⟩) (h step.1) hop).calm) hnext
      fun step hstep => hin step (List.mem_cons_of_mem _ hstep)

/-- A run of reads and lines returns all that was ahead and all that the device gave it, in order, if and
only if no line is cut short by a failure; only lines are, and they report the failure. Every failure is
reported only where nothing is ahead. This holds for every device, and whatever others do to the system
between the calls. -/
theorem returned_iff_no_line_lost (h : ∀ sys, Connection.Calm ⟨s, sys⟩)
    (hheld : s.held ≠ none → s.ahead = []) (steps : List (System × Operation))
    (hin : ∀ step ∈ steps, step.2.source?.isSome = true) :
    (s.ahead ++ s.overRun gains steps = s.overRun returns steps ++ (s.after steps).ahead ↔
        s.overRun lost steps = []) ∧
      ∀ sys op, op.source?.isSome = true →
        (∀ e, (Connection.operate ⟨s.after steps, sys⟩ op).2 = .refused e →
          (Connection.operate ⟨s.after steps, sys⟩ op).1.stream.ahead = []) ∧
        (Connection.lost ⟨s.after steps, sys⟩ op ≠ [] → ∃ max e, op = .readLine max ∧ e ≠ .wouldBlock ∧
          (Connection.operate ⟨s.after steps, sys⟩ op).2 = .refused (.stream (.ofErrno "fgets" e))) := by
  obtain ⟨hcalm, hafter⟩ := last_run h hheld hin
  refine ⟨⟨fun hall => ?_, fun hnone => ?_⟩, fun sys op hop => ⟨?_, Connection.reported_of_lost⟩⟩
  · have hrun := conveys_run h hin
    rw [hall] at hrun
    have hlen := congrArg List.length hrun
    rw [List.length_append, List.length_append, (overRun_append returns lost s steps).1] at hlen
    exact List.length_eq_zero_iff.1 (by omega)
  · rw [conveys_run h hin, (overRun_append returns lost s steps).2 hnone]
  · exact (Connection.reported_last (hcalm sys) hafter hop).2

/-- The first three of six bytes were read when the descriptor is closed by another stream that adopted it.
The other three are ahead; a line reports the failure, and they are gone. -/
theorem line_lost_behind_closed_descriptor :
    ∃ s : Stream, ∃ c : Connection, ∃ closed : System,
      c = (Connection.operate ⟨{ fd := 0, reads := true, writes := false, appends := false }, .sixBytes⟩
        (.read 3)).1 ∧
      s = c.stream ∧ closed = (c.system.close 0).1 ∧ s.ahead = [100, 101, 102] ∧
      (Connection.operate ⟨s, closed⟩ (.readLine 10)).2 =
        .refused (.stream (.ofErrno "fgets" .badDescriptor)) ∧
      s.overRun lost [(closed, .readLine 10)] = [100, 101, 102] ∧
      s.ahead ++ s.overRun gains [(closed, .readLine 10)] ≠
        s.overRun returns [(closed, .readLine 10)] ++ (s.after [(closed, .readLine 10)]).ahead := by
  refine ⟨_, _, _, rfl, rfl, rfl, by decide, by decide, by decide, fun hall => ?_⟩
  have hnone := (returned_iff_no_line_lost (fun _ hw => by cases hw) (fun hno => absurd rfl hno) _
    (by decide)).1.1 hall
  exact absurd hnone (by decide)

end Stream

end BufferedFiles
