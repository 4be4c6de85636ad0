import BufferedFiles.Proofs.HandleRun
import BufferedFiles.Proofs.Indicator
import BufferedFiles.Proofs.InputSupply

/-!
# Runs under the error indicator

As long as the indicator of a stream is clear, a failure that a read reports is a failure of that very
read, and a read at the end reports none. A run keeps the indicator clear up to the first operation that
leaves it set, and those operations are few.
-/
namespace BufferedFiles

namespace Connection

variable {c c' : Connection} {n : Nat}

/-- A read that fails does so for a failure of its own: it does the same, and leaves the same error,
whatever failed before it. -/
theorem read_owns {cause : StreamError} (h : c.stream.failed = false) (hheld : c.stream.held = none)
    (e : (c.read n).2 = .error cause) :
    (∀ x, (c.blamed x).read n = c.read n) ∧ (c.read n).1.failure "fread" = cause := by
  unfold read at e ⊢
  simp only [blamed_stream, hheld] at e ⊢
  split at e
  · cases e
  rename_i hn
  rcases htake : c.take n with ⟨c₁, bytes⟩
  have hcarry := fun x => carries_take c n x
  rw [htake] at e
  simp only [htake, if_neg hn] at hcarry ⊢
  dsimp only at e
  have hfailed : c₁.stream.failed = true ∧ bytes.length < n ∧ bytes = [] ∧ c₁.failure "fread" = cause := by
    split at e
    · rename_i hshort
      simp only [Bool.and_eq_true, decide_eq_true_eq] at hshort
      split at e
      · rename_i hnil
        rw [List.isEmpty_iff] at hnil
        cases e
        exact ⟨hshort.2, hshort.1, hnil, rfl⟩
      · cases e
    · cases e
  obtain ⟨hset, hlt, rfl, rfl⟩ := hfailed
  refine ⟨fun x => ?_, by simp only [hset, hlt, decide_true, Bool.and_self, if_true, List.isEmpty_nil]; rfl⟩
  rcases hcarry x with hsame | ⟨-, hkeep⟩
  · rw [hsame]
  · rw [hset, h] at hkeep
    cases hkeep

theorem readLine_owns {max : Nat} {cause : StreamError} (h : c.stream.failed = false)
    (hheld : c.stream.held = none) (e : (c.readLine max).2 = .error cause) :
    (∀ x, (c.blamed x).readLine max = c.readLine max) ∧ (c.readLine max).1.failure "fgets" = cause := by
  unfold readLine at e ⊢
  simp only [blamed_stream, hheld] at e ⊢
  split at e
  · cases e
  rename_i hmax
  have hcarry := fun x => carries_takeLine (c := c) (LineBuffer.sizeFor max - 1) x h
  rcases htake : c.takeLine (LineBuffer.sizeFor max - 1) with ⟨c₁, line⟩
  rw [htake] at e
  simp only [htake, if_neg hmax] at hcarry ⊢
  cases line with
  | some line => cases e
  | none =>
    cases hset : c₁.stream.failed with
    | false =>
      simp only [hset, Bool.false_eq_true, if_false] at e
      cases e
    | true =>
      simp only [hset, if_true] at e ⊢
      cases e
      refine ⟨fun x => ?_, rfl⟩
      rcases hcarry x with hsame | ⟨-, hkeep⟩
      · rw [hsame]
        simp only [hset, if_true]
      · rw [hset] at hkeep
        cases hkeep

/-- A stream for input that stands at the end: nothing was read ahead, nothing is pending, and reads of
the device get nothing. -/
structure Ended (c : Connection) : Prop where
  reads : c.stream.reads = true
  ahead : c.stream.ahead = []
  pending : c.stream.pending = []
  device : ∀ n, ∃ sys, c.system.read c.stream.fd n = (sys, .ok [])

/-- A buffer for a device that answers reads is found without a failure. -/
theorem allocate_of_read {sys : System} {got : Bytes} (h : c.system.read c.stream.fd n = (sys, .ok got)) :
    ∃ k, c.allocate = c.update ({ · with capacity := k }) := by
  cases ho : c.system.opened? c.stream.fd with
  | none =>
    simp only [System.read, ho] at h
    cases h
  | some port =>
    obtain ⟨k, -, -, e⟩ := allocate_spec ho
    exact ⟨k, e⟩

theorem Ended.fill (h : c.Ended) : ∃ c', c.fill = (c', false) ∧ c'.stream.failed = c.stream.failed := by
  unfold Connection.fill
  rw [endOutput_of_drained h.pending]
  dsimp only
  generalize hc : c.update ({ · with writing := false }) = c₁
  have hreads : c₁.stream.reads = true := by rw [← hc]; exact h.reads
  have hfailed : c₁.stream.failed = c.stream.failed := by rw [← hc]; rfl
  have hdevice : ∀ n, ∃ sys, c₁.system.read c₁.stream.fd n = (sys, .ok []) := by rw [← hc]; exact h.device
  split
  · exact ⟨_, rfl, hfailed⟩
  rw [hreads, Bool.not_true, if_neg Bool.false_ne_true]
  obtain ⟨_, hfirst⟩ := hdevice 0
  obtain ⟨k, e⟩ := allocate_of_read hfirst
  obtain ⟨sys, hread⟩ := hdevice k
  rw [e]
  simp only [update, hread]
  exact ⟨_, rfl, hfailed⟩

theorem Ended.readPast (h : c.Ended) (n : Nat) :
    ∃ c', c.readPast n = (c', []) ∧ c'.stream.failed = c.stream.failed := by
  obtain ⟨sys, hread⟩ := h.device n
  unfold Connection.readPast
  simp only [Stream.emptied, hread]
  exact ⟨_, rfl, rfl⟩

/-- At the end a read is empty and no failure, whatever failed before. -/
theorem Ended.read (h : c.Ended) (hclear : c.stream.failed = false) (hheld : c.stream.held = none)
    (n : Nat) : (c.read n).2 = .ok [] := by
  obtain ⟨_, hfirst⟩ := h.device 0
  obtain ⟨k, e⟩ := allocate_of_read hfirst
  have hend : (c.update ({ · with capacity := k })).Ended := ⟨h.reads, h.ahead, h.pending, h.device⟩
  have hskip : (c.update ({ · with capacity := k })).update (·.skip 0) =
      c.update ({ · with capacity := k }) := rfl
  have htake : ∃ c', c.take n = (c', []) ∧ c'.stream.failed = false := by
    simp only [take, takeRounds, e, hend.ahead, List.take_nil, List.length_nil, hskip, Nat.sub_zero]
    split
    · exact ⟨_, rfl, hclear⟩
    split
    · obtain ⟨c', hfill, hfailed⟩ := hend.fill
      rw [hfill]
      exact ⟨c', rfl, hfailed.trans hclear⟩
    · obtain ⟨c', hread, hfailed⟩ := hend.readPast ((c.update ({ · with capacity := k })).stream.direct n)
      rw [hread]
      exact ⟨c', rfl, hfailed.trans hclear⟩
  obtain ⟨c', htake, hfailed⟩ := htake
  unfold Connection.read
  split
  · rfl
  · rw [hheld]
    simp only [htake, hfailed, Bool.and_false, Bool.false_eq_true, if_false]

theorem Ended.readLine (h : c.Ended) (hclear : c.stream.failed = false) (hheld : c.stream.held = none)
    (max : Nat) : (c.readLine max).2 = .ok [] := by
  have hend : (c.update ({ · with failed := false })).Ended := ⟨h.reads, h.ahead, h.pending, h.device⟩
  have hrounds : ∀ rounds n, ∃ c', takeLineRounds rounds (c.update ({ · with failed := false })) n = (c', []) ∧
      c'.stream.failed = false := by
    intro rounds n
    cases rounds with
    | zero => exact ⟨_, rfl, rfl⟩
    | succ rounds =>
      simp only [takeLineRounds, hend.ahead, List.isEmpty_nil, if_true]
      split
      · exact ⟨_, rfl, rfl⟩
      · obtain ⟨c', hfill, hfailed⟩ := hend.fill
        rw [hfill]
        exact ⟨c', rfl, hfailed⟩
  obtain ⟨c', htake, hfailed⟩ := hrounds (LineBuffer.sizeFor max - 1) (LineBuffer.sizeFor max - 1)
  have hnone : ∃ c', c.takeLine (LineBuffer.sizeFor max - 1) = (c', none) ∧ c'.stream.failed = false := by
    unfold takeLine
    rw [htake]
    exact ⟨_, rfl, by simp only [update, hfailed, hclear, Bool.or_self]⟩
  obtain ⟨c', hnone, hfailed⟩ := hnone
  unfold Connection.readLine
  split
  · rfl
  · rw [hheld]
    simp only [hnone, hfailed, Bool.false_eq_true, if_false]

end Connection

/-- What can be asked of an open stream. -/
inductive Operation where
  | read (n : Nat)
  | readLine (max : Nat)
  | write (bytes : Bytes)
  | flush
  | seek (target : Target)
  | tell
  | setDiscipline (discipline : Discipline)
  deriving DecidableEq, Repr

namespace Operation

/-- The primitive an operation for input runs; `none` for the others. -/
def source? : Operation → Option String
  | .read _ => some "fread"
  | .readLine _ => some "fgets"
  | _ => none

end Operation

namespace Connection

variable {c : Connection}

def operate (c : Connection) : Operation → Connection × Reply
  | .read n => answered .bytes (c.read n)
  | .readLine max => answered .bytes (c.readLine max)
  | .write bytes => answered .count (c.write bytes)
  | .flush => answered (fun _ => .done) c.flush
  | .seek target => answered .count (c.seek target)
  | .tell => answered .count c.tell
  | .setDiscipline discipline => answered (fun _ => .done) (c.setDiscipline discipline)

/-- A bare stream that is still there after a request did one operation, or nothing. -/
theorem respond_operates {adopted : Option String} {request : Request} {s : Stream} {sys : System}
    {reply : Reply} (h : c.respond adopted request = (some s, sys, reply)) :
    ⟨s, sys⟩ = c ∨ ∃ op, (c.operate op).1 = ⟨s, sys⟩ := by
  cases request with
  | call call =>
    cases call with
    | read max =>
      cases max <;> cases h
      · exact .inl rfl
      · rename_i n
        exact .inr ⟨.read n, rfl⟩
    | readLine max =>
      cases max <;> cases h
      · exact .inl rfl
      · rename_i n
        exact .inr ⟨.readLine n, rfl⟩
    | write bytes => cases h; exact .inr ⟨.write bytes, rfl⟩
    | flush => cases h; exact .inr ⟨.flush, rfl⟩
    | seek target => cases h; exact .inr ⟨.seek target, rfl⟩
    | tell => cases h; exact .inr ⟨.tell, rfl⟩
    | close => cases h
  | query query => cases query <;> cases h <;> exact .inl rfl
  | transfer transfer => cases h; exact .inl rfl
  | fillBuffer buffer => cases h; exact .inr ⟨.read buffer.length, rfl⟩
  | setDiscipline discipline => cases h; exact .inr ⟨.setDiscipline discipline, rfl⟩

/-- The operations that leave the indicator set where it was clear. -/
def Leaves (c : Connection) : Operation → Prop
  | .readLine max => max ≠ 0 ∧ c.stream.held = none ∧ c.CutsShort (LineBuffer.sizeFor max - 1)
  | .write bytes => c.Withholds bytes
  | .seek target => target.parts? ≠ none ∧ c.stream.writing = true ∧ c.Balks
  | .setDiscipline discipline => discipline = .unbuffered ∧ (c.update ({ · with discipline })).Balks
  | .read _ | .flush | .tell => False

theorem failed_operate (op : Operation) (h : c.stream.failed = false) :
    (c.operate op).1.stream.failed = true ↔ c.Leaves op := by
  cases op with
  | read n => exact iff_of_false (by simp [operate, answered, failed_read n h]) id
  | readLine max => exact failed_readLine max h
  | write bytes => exact failed_write bytes h
  | flush => exact iff_of_false (by simp [operate, answered, failed_flush h]) id
  | seek target => exact failed_seek target h
  | tell => exact iff_of_false (by simp [operate, answered, failed_tell, h]) id
  | setDiscipline discipline => exact failed_setDiscipline discipline h

/-- What an operation for input reports is a failure of its own or the one that was held for it, whatever
failed before, and at the end it reports none. -/
structure TellsItsOwn (c : Connection) : Prop where
  failure : ∀ op primitive cause, op.source? = some primitive →
    (c.operate op).2 = .refused (.stream cause) → c.stream.held = some cause ∨
      (∀ x, (c.blamed x).operate op = c.operate op) ∧ (c.operate op).1.failure primitive = cause
  ended : c.Ended → c.stream.held = none → ∀ op primitive, op.source? = some primitive →
    (c.operate op).2 = .answer (.bytes [])

theorem held_read {n : Nat} {e cause : StreamError} (hheld : c.stream.held = some e)
    (h : (c.read n).2 = .error cause) : c.stream.held = some cause := by
  unfold read at h
  split at h
  · cases h
  · rw [hheld] at h
    cases h
    exact hheld

theorem held_readLine {max : Nat} {e cause : StreamError} (hheld : c.stream.held = some e)
    (h : (c.readLine max).2 = .error cause) : c.stream.held = some cause := by
  unfold readLine at h
  split at h
  · cases h
  · rw [hheld] at h
    cases h
    exact hheld

theorem refused_of_answered {α : Type} {f : α → Answer} {r : Connection × Except StreamError α}
    {cause : StreamError} (h : (answered f r).2 = .refused (.stream cause)) : r.2 = .error cause := by
  rcases r with ⟨q, result⟩
  cases result with
  | error e =>
    cases h
    rfl
  | ok a => cases h

/-- Where the indicator is clear, no old failure is reported. -/
theorem tellsItsOwn (hclear : c.stream.failed = false) : c.TellsItsOwn where
  failure op primitive cause hop h := by
    cases op with
    | read n =>
      cases hop
      have hresult := refused_of_answered h
      cases hheld : c.stream.held with
      | some e => exact .inl (hheld.symm.trans (held_read hheld hresult))
      | none =>
        obtain ⟨hsame, hcause⟩ := read_owns hclear hheld hresult
        exact .inr ⟨fun x => congrArg (answered .bytes) (hsame x), hcause⟩
    | readLine max =>
      cases hop
      have hresult := refused_of_answered h
      cases hheld : c.stream.held with
      | some e => exact .inl (hheld.symm.trans (held_readLine hheld hresult))
      | none =>
        obtain ⟨hsame, hcause⟩ := readLine_owns hclear hheld hresult
        exact .inr ⟨fun x => congrArg (answered .bytes) (hsame x), hcause⟩
    | _ => cases hop
  ended hend hheld op primitive hop := by
    cases op with
    | read n => exact congrArg (Reply.ofStream .bytes) (hend.read hclear hheld n)
    | readLine max => exact congrArg (Reply.ofStream .bytes) (hend.readLine hclear hheld max)
    | _ => cases hop

end Connection

namespace Stream

variable {s : Stream}

/-- The stream after operations. Between them anything may happen to the system, so each comes with the
system it is made in. -/
def after (s : Stream) : List (System × Operation) → Stream
  | [] => s
  | (sys, op) :: rest => (Connection.operate ⟨s, sys⟩ op).1.stream.after rest

def LeavesIn (s : Stream) : List (System × Operation) → Prop
  | [] => False
  | (sys, op) :: rest =>
    Connection.Leaves ⟨s, sys⟩ op ∨ (Connection.operate ⟨s, sys⟩ op).1.stream.LeavesIn rest

/-- Up to the first operation that leaves it set the indicator is clear, and it is set then. -/
theorem clear_run (h : s.failed = false) (steps : List (System × Operation)) :
    (∀ k, (s.after (steps.take k)).failed = false) ↔ ¬ s.LeavesIn steps := by
  induction steps generalizing s with
  | nil => simp [after, LeavesIn, h]
  | cons step rest ih =>
    obtain ⟨sys, op⟩ := step
    have hstep := Connection.failed_operate (c := ⟨s, sys⟩) op h
    simp only [LeavesIn, not_or]
    constructor
    · intro hclear
      have hfirst := hclear 1
      have hnext : (Connection.operate ⟨s, sys⟩ op).1.stream.failed = false := hfirst
      refine ⟨fun hleaves => ?_, (ih hnext).1 fun k => hclear (k + 1)⟩
      rw [hstep.2 hleaves] at hnext
      cases hnext
    · rintro ⟨hquiet, hrest⟩ k
      have hnext : (Connection.operate ⟨s, sys⟩ op).1.stream.failed = false := by
        simpa using mt hstep.1 hquiet
      cases k with
      | zero => exact h
      | succ k => exact (ih hnext).2 hrest k

/-- From its making on, the indicator of a stream is clear after every operation if and only if no
operation leaves it set, and as long as it is clear, input reports no failure but its own. This holds for
every device, and whatever others do to the system between the operations. -/
theorem indicator_clear_iff (hs : s.Fresh) (steps : List (System × Operation)) :
    ((∀ k, (s.after (steps.take k)).failed = false) ↔ ¬ s.LeavesIn steps) ∧
      ∀ k, (s.after (steps.take k)).failed = false →
        ∀ sys, Connection.TellsItsOwn ⟨s.after (steps.take k), sys⟩ :=
  ⟨clear_run (congrArg Prod.fst hs.signs) steps, fun _ hclear _ => Connection.tellsItsOwn hclear⟩

/-- Three bytes of a line are there and the rest is not yet: they are given out as a line, and the
indicator stays. When the writer is gone, a read at the end reports what kept the line back. -/
theorem line_cut_short_leaves_indicator :
    ∃ s early late, s.Fresh ∧ early = (System.fresh.makePipe.1.write 1 [97, 98, 99]).1 ∧
      late = ((Connection.operate ⟨s, early⟩ (.readLine 5)).1.system.close 1).1 ∧
      (Connection.operate ⟨s, early⟩ (.readLine 5)).2 = .answer (.bytes [97, 98, 99]) ∧
      ¬ (∀ k, (s.after ([(early, .readLine 5)].take k)).failed = false) ∧
      Connection.Ended ⟨s.after [(early, .readLine 5)], late⟩ ∧
      (Connection.operate ⟨s.after [(early, .readLine 5)], late⟩ (.read 10)).2 =
        .refused (.stream (.ofErrno "fread" .wouldBlock)) := by
  have hfresh := Stream.Fresh.ofMode 0 true false false
  refine ⟨_, _, _, hfresh, rfl, rfl, rfl, fun hclear => ?_, ⟨rfl, rfl, rfl, ?_⟩, rfl⟩
  · exact (indicator_clear_iff hfresh _).1.1 hclear (.inl ⟨by decide, rfl, by decide, rfl, rfl⟩)
  · rintro (_ | n) <;> exact ⟨_, rfl⟩

end Stream

end BufferedFiles
