import BufferedFiles.Proofs.HandleRun
import BufferedFiles.Proofs.Locality

/-!
# Handles that do not interfere

Two handles over descriptors that are not the same and not on the same device share the last error and the
count of the streams, and nothing else. Calls on the one and the other can be made in any order. One kind of
call is an exception: a read or a line that got too little, with the indicator set and no failure of its own, puts it
down to the last error, and that may be one the other handle left. The indicator is then one an earlier call left set.
-/
namespace BufferedFiles

/-- The number a failure is put down to. -/
def System.cause (sys : System) : Errno :=
  if sys.lastError = .success then .inputOutput else sys.lastError

theorem StreamError.ofErrno_inj {op : String} {e e' : Errno} : ofErrno op e = ofErrno op e' ↔ e = e' :=
  ⟨congrArg errno, congrArg (ofErrno op)⟩

namespace Connection

variable {α : Type} {c : Connection} {b b₁ : System} {q : Prop}

theorem Tallies.loud {c₁ : Connection} (h : c.Tallies b q c₁ b₁) (hq : ¬ q) :
    b₁.lastError = c₁.system.lastError :=
  h.2.resolve_right fun hquiet => hq hquiet.2.2

/-- The same failure after the same error. -/
theorem concurs_fault {c₁ : Connection} (h : c.Tallies b q c₁ b₁) (hq : ¬ q) (op : String) :
    c.Concurs b (fun _ : Except StreamError α => True) (c₁.fault op) (fault ⟨c₁.stream, b₁⟩ op) := by
  have hsame := h.loud hq
  refine ⟨b₁, ?_, h.1, .inl hsame⟩
  simp only [fault, failure, update, hsame]

theorem concurs_write (h : System.SameFor c.stream.fd c.system b) (bytes : Bytes) :
    c.Concurs b (fun _ => True) (c.write bytes) (write ⟨c.stream, b⟩ bytes) := by
  unfold write
  split
  · exact ⟨b, rfl, .still h ⟨rfl, trivial⟩⟩
  obtain ⟨b₁, e, ha⟩ := concurs_accept h bytes
  rw [e]
  generalize c.accept bytes = r at ha ⊢
  obtain ⟨c₁, n⟩ := r
  dsimp only at ha ⊢
  split
  · rename_i hshort
    simp only [Bool.and_eq_true, decide_eq_true_eq] at hshort
    exact concurs_fault ha (fun hall => by omega) "fwrite"
  · exact ⟨b₁, rfl, ha.imp fun _ => trivial⟩

theorem concurs_flush (h : System.SameFor c.stream.fd c.system b) :
    c.Concurs b (fun _ => True) c.flush (flush ⟨c.stream, b⟩) := by
  unfold flush
  obtain ⟨b₁, e, ha⟩ := concurs_sync h
  rw [e]
  generalize c.sync = r at ha ⊢
  rcases r with ⟨c₁, _ | _⟩
  · exact concurs_fault ha Bool.false_ne_true "fflush"
  · exact ⟨b₁, rfl, ha.imp fun _ => trivial⟩

theorem concurs_tell (h : System.SameFor c.stream.fd c.system b) :
    c.Concurs b (fun _ => True) c.tell (tell ⟨c.stream, b⟩) := by
  unfold tell
  obtain ⟨b₁, e, ha⟩ := concurs_position h
  rw [e]
  generalize c.position = r at ha ⊢
  rcases r with ⟨c₁, _ | position⟩
  · have hsame := Tallies.loud ha Bool.false_ne_true
    refine ⟨b₁, ?_, ha.imp fun hok => by cases hok⟩
    dsimp only at hsame ⊢
    simp only [failure, hsame]
  · exact ⟨b₁, rfl, ha.imp fun _ => trivial⟩

theorem concurs_seek (h : System.SameFor c.stream.fd c.system b) (target : Target) :
    c.Concurs b (fun _ => True) (c.seek target) (seek ⟨c.stream, b⟩ target) := by
  unfold seek
  split
  · exact ⟨b, rfl, .still h ⟨rfl, trivial⟩⟩
  rename_i origin offset _
  obtain ⟨b₁, e, ha⟩ := concurs_move h origin offset
  rw [e]
  generalize c.move origin offset = r at ha ⊢
  rcases r with ⟨c₁, _ | _⟩
  · have hsame := Tallies.loud ha Bool.false_ne_true
    refine ⟨b₁, ?_, ha.imp fun hok => by cases hok⟩
    dsimp only at hsame ⊢
    simp only [failure, hsame]
  · obtain ⟨b₂, e₂, ha₂⟩ := concurs_tell ha.1
    exact ⟨b₂, e₂, (Tallies.trans ha ha₂).imp And.right⟩

/-- The indicator is set at the end of `f`, and yet `f` met no failure: the last error is the one there
was before, whatever that is. -/
def Inherits (c : Connection) (f : Connection → Connection × α) : Prop :=
  (f c).1.stream.failed = true ∧ ∀ e, (f (c.blamed e)).1.system.lastError = e

/-- What met no failure found the indicator set. -/
theorem Inherits.failed {f : Connection → Connection × α} (h : c.Inherits f)
    (hf : ∀ e, c.Concurs (c.system.blamed e) (fun _ => True) (f c) (f (c.blamed e))) :
    c.stream.failed = true := by
  obtain ⟨hset, hkept⟩ := h
  have hsame : c.blamed c.system.lastError = c := rfl
  have hown := hkept c.system.lastError
  rw [hsame] at hown
  obtain ⟨e, hne⟩ : ∃ e, e ≠ c.system.lastError := by
    refine ⟨⟨c.system.lastError.code + 1⟩, fun h => ?_⟩
    have hcode : c.system.lastError.code + 1 = c.system.lastError.code := congrArg Errno.code h
    omega
  obtain ⟨b', heq, -, herror⟩ := hf e
  have hother := hkept e
  rw [heq] at hother
  rcases herror with hnew | ⟨-, hfailed, -⟩
  · exact absurd (hother.symm.trans (hnew.trans hown)) hne
  · exact hfailed.symm.trans hset

section

variable {f : Connection → Connection × α}
  (hf : ∀ {c : Connection} {b : System}, System.SameFor c.stream.fd c.system b →
    c.Concurs b (fun _ => True) (f c) (f ⟨c.stream, b⟩))

include hf

/-- Where nothing but the last error is told apart, it is carried through or forgotten. -/
theorem lastError_cases (h : System.SameFor c.stream.fd c.system b) :
    (f ⟨c.stream, b⟩).1.system.lastError = (f c).1.system.lastError ∨
      (f c).1.system.lastError = c.system.lastError ∧ (f ⟨c.stream, b⟩).1.system.lastError = b.lastError ∧
        (f c).1.stream.failed = c.stream.failed := by
  obtain ⟨b', heq, -, herror⟩ := hf h
  rw [heq]
  exact herror.imp_right fun ⟨⟨h₁, h₂⟩, h₃, _⟩ => ⟨h₁, h₂, h₃⟩

theorem lastError_congr (h : System.SameFor c.stream.fd c.system b) (he : b.lastError = c.system.lastError) :
    (f ⟨c.stream, b⟩).1.system.lastError = (f c).1.system.lastError := by
  rcases lastError_cases hf h with heq | ⟨h₁, h₂, -⟩
  · exact heq
  · rw [h₁, h₂, he]

/-- Two different errors that are carried through show that every one is. -/
theorem inherits_of_carried (h : System.SameFor c.stream.fd c.system b) (hset : (f c).1.stream.failed = true)
    (hc : (f c).1.system.lastError = c.system.lastError)
    (hb : (f ⟨c.stream, b⟩).1.system.lastError = b.lastError) (hne : b.lastError ≠ c.system.lastError) :
    c.Inherits f := by
  refine ⟨hset, fun e => ?_⟩
  have hblamed : System.SameFor c.stream.fd c.system (c.system.blamed e) :=
    (System.SameFor.refl _ c.system).withErrors c.system.lastError e
  have hother : System.SameFor c.stream.fd b (c.system.blamed e) :=
    h.symm.withErrors b.lastError e
  rcases lastError_cases hf hblamed with heq | ⟨-, hkept, -⟩
  · rcases lastError_cases hf (c := ⟨c.stream, b⟩) hother with heq' | ⟨-, hkept, -⟩
    · exact absurd (hb.symm.trans (heq'.symm.trans (heq.trans hc))) hne
    · exact hkept
  · exact hkept

/-- What a failure is put down to at the end of `f`, in two systems. -/
theorem cause_iff (h : System.SameFor c.stream.fd c.system b) (hset : (f c).1.stream.failed = true) :
    (f ⟨c.stream, b⟩).1.system.cause = (f c).1.system.cause ↔ (c.Inherits f → b.cause = c.system.cause) := by
  rcases lastError_cases hf h with heq | ⟨hc, hb, -⟩
  · refine iff_of_true (by rw [System.cause, heq]; rfl) fun hinherits => ?_
    have hown : (f c).1.system.lastError = c.system.lastError := hinherits.2 c.system.lastError
    have hother : System.SameFor c.stream.fd (c.system.blamed b.lastError) b :=
      h.withErrors b.lastError b.lastError
    have hcongr := lastError_congr hf (c := c.blamed b.lastError) hother rfl
    have hlast : b.lastError = c.system.lastError := by
      rw [← hinherits.2 b.lastError, ← hown, ← heq]
      exact hcongr.symm
    rw [System.cause, hlast]
    rfl
  · have hcause : (f ⟨c.stream, b⟩).1.system.cause = (f c).1.system.cause ↔ b.cause = c.system.cause := by
      rw [System.cause, System.cause, hc, hb]
      rfl
    rw [hcause]
    by_cases hlast : b.lastError = c.system.lastError
    · have hsame : b.cause = c.system.cause := by
        rw [System.cause, hlast]
        rfl
      exact iff_of_true hsame fun _ => hsame
    · exact ⟨fun hsame _ => hsame, fun hsame => hsame (inherits_of_carried hf h hset hc hb hlast)⟩

end

/-- Failures of one operation on one stream tell apart what they are put down to. -/
theorem fault_same_iff {c₁ : Connection} {b₁ : System} (op : String) :
    ((@fault α ⟨c₁.stream, b₁⟩ op).1.stream = (@fault α c₁ op).1.stream ∧
        (@fault α ⟨c₁.stream, b₁⟩ op).2 = (@fault α c₁ op).2) ↔ b₁.cause = c₁.system.cause := by
  constructor
  · exact fun heq => StreamError.ofErrno_inj.1 (Except.error.inj heq.2)
  · intro heq
    exact ⟨rfl, congrArg (fun x => (.error (.ofErrno op x) : Except StreamError α)) heq⟩

/-- A read that takes its failure from what was the last error before it. -/
def BorrowsBytes (c : Connection) (n : Nat) : Prop :=
  c.stream.held = none ∧ (c.take n).2.length < n ∧ c.Inherits (·.take n)

/-- A line that takes its failure from what was the last error before it. -/
def BorrowsLine (c : Connection) (max : Nat) : Prop :=
  max ≠ 0 ∧ c.stream.held = none ∧ (c.takeLine (LineBuffer.sizeFor max - 1)).2 = none ∧
    c.Inherits (·.takeLine (LineBuffer.sizeFor max - 1))

theorem read_sameFor (h : System.SameFor c.stream.fd c.system b) (n : Nat) :
    System.SameFor c.stream.fd (c.read n).1.system (read ⟨c.stream, b⟩ n).1.system := by
  have hfd : (c.take n).1.stream.fd = c.stream.fd := (through_take c n).stream.fd
  obtain ⟨b', e, hsame, -⟩ := concurs_take h n
  rw [hfd] at hsame
  unfold read
  split
  · exact h
  dsimp only
  split
  · exact h
  · rw [e]
    dsimp only
    split
    · split <;> exact hsame
    · exact hsame

theorem read_same_iff (h : System.SameFor c.stream.fd c.system b) (n : Nat) :
    ((read ⟨c.stream, b⟩ n).1.stream = (c.read n).1.stream ∧ (read ⟨c.stream, b⟩ n).2 = (c.read n).2) ↔
      (c.BorrowsBytes n → b.cause = c.system.cause) := by
  have hcause := cause_iff (f := (·.take n)) (fun h => concurs_take h n) h
  obtain ⟨b', e, -⟩ := concurs_take h n
  rw [e] at hcause
  unfold read BorrowsBytes
  split
  · rename_i hn
    exact iff_of_true ⟨rfl, rfl⟩ fun hborrows => by have := hborrows.2.1; omega
  dsimp only
  split
  · rename_i x hheld
    exact iff_of_true ⟨rfl, rfl⟩ fun hborrows => by
      rw [hheld] at hborrows
      cases hborrows.1
  rename_i hheld
  rw [e]
  generalize htake : c.take n = r at hcause ⊢
  obtain ⟨c₁, bytes⟩ := r
  dsimp only at hcause ⊢
  by_cases hshort : (decide (bytes.length < n) && c₁.stream.failed) = true
  · rw [if_pos hshort, if_pos hshort]
    simp only [Bool.and_eq_true, decide_eq_true_eq] at hshort
    have hborrows : (c.stream.held = none ∧ bytes.length < n ∧ c.Inherits (·.take n)) ↔ c.Inherits (·.take n) :=
      ⟨fun h => h.2.2, fun h => ⟨hheld, hshort.1, h⟩⟩
    rw [hborrows, ← hcause hshort.2]
    split
    · exact fault_same_iff "fread"
    · constructor
      · exact fun heq => StreamError.ofErrno_inj.1 (Option.some.inj (congrArg Stream.held heq.1))
      · intro heq
        exact ⟨congrArg (fun x => { c₁.stream.settled with held := some (.ofErrno "fread" x) }) heq, rfl⟩
  · rw [if_neg hshort, if_neg hshort]
    refine iff_of_true ⟨rfl, rfl⟩ fun hborrows => absurd ?_ hshort
    have hset : (c.take n).1.stream.failed = true := hborrows.2.2.1
    rw [htake] at hset
    simp only [Bool.and_eq_true, decide_eq_true_eq]
    exact ⟨hborrows.2.1, hset⟩

theorem readLine_sameFor (h : System.SameFor c.stream.fd c.system b) (max : Nat) :
    System.SameFor c.stream.fd (c.readLine max).1.system (readLine ⟨c.stream, b⟩ max).1.system := by
  have hfd := (through_takeLine c (LineBuffer.sizeFor max - 1)).stream.fd
  obtain ⟨b', e, hsame, -⟩ := concurs_takeLine h (LineBuffer.sizeFor max - 1)
  rw [hfd] at hsame
  unfold readLine
  split
  · exact h
  dsimp only
  split
  · exact h
  · rw [e]
    generalize c.takeLine (LineBuffer.sizeFor max - 1) = r at hsame ⊢
    rcases r with ⟨c₁, _ | line⟩
    · dsimp only
      split <;> exact hsame
    · exact hsame

theorem readLine_same_iff (h : System.SameFor c.stream.fd c.system b) (max : Nat) :
    ((readLine ⟨c.stream, b⟩ max).1.stream = (c.readLine max).1.stream ∧
        (readLine ⟨c.stream, b⟩ max).2 = (c.readLine max).2) ↔
      (c.BorrowsLine max → b.cause = c.system.cause) := by
  have hcause := cause_iff (f := (·.takeLine (LineBuffer.sizeFor max - 1))) (fun h => concurs_takeLine h _) h
  obtain ⟨b', e, -⟩ := concurs_takeLine h (LineBuffer.sizeFor max - 1)
  rw [e] at hcause
  unfold readLine BorrowsLine
  split
  · rename_i hn
    exact iff_of_true ⟨rfl, rfl⟩ fun hborrows => absurd hn hborrows.1
  rename_i hn
  dsimp only
  split
  · rename_i x hheld
    exact iff_of_true ⟨rfl, rfl⟩ fun hborrows => by
      rw [hheld] at hborrows
      cases hborrows.2.1
  rename_i hheld
  rw [e]
  generalize htake : c.takeLine (LineBuffer.sizeFor max - 1) = r at hcause ⊢
  rcases r with ⟨c₁, _ | line⟩
  · dsimp only at hcause ⊢
    by_cases hset : c₁.stream.failed = true
    · rw [if_pos hset, if_pos hset]
      have hborrows : (max ≠ 0 ∧ c.stream.held = none ∧ (none : Option Bytes) = none ∧
          c.Inherits (·.takeLine (LineBuffer.sizeFor max - 1))) ↔
            c.Inherits (·.takeLine (LineBuffer.sizeFor max - 1)) :=
        ⟨fun h => h.2.2.2, fun h => ⟨hn, hheld, rfl, h⟩⟩
      rw [hborrows, ← hcause hset]
      exact fault_same_iff "fgets"
    · rw [if_neg hset, if_neg hset]
      refine iff_of_true ⟨rfl, rfl⟩ fun hborrows => absurd ?_ hset
      have hyes : (c.takeLine (LineBuffer.sizeFor max - 1)).1.stream.failed = true := hborrows.2.2.2.1
      rw [htake] at hyes
      exact hyes
  · exact iff_of_true ⟨rfl, rfl⟩ fun hborrows => by cases hborrows.2.2.1

/-- A call that takes its failure from what was the last error before it. -/
def Borrows (c : Connection) : Call → Prop
  | .read max => c.BorrowsBytes (boundFor (max.map Int.ofNat))
  | .readLine max => c.BorrowsLine (boundFor (max.map Int.ofNat))
  | _ => False

/-- Only a stream with the indicator set borrows. -/
theorem Borrows.failed {call : Call} (h : c.Borrows call) : c.stream.failed = true := by
  have hblamed : ∀ e, System.SameFor c.stream.fd c.system (c.system.blamed e) := fun e =>
    (System.SameFor.refl _ c.system).withErrors c.system.lastError e
  cases call with
  | read max => exact h.2.2.failed fun e => concurs_take (hblamed e) _
  | readLine max => exact h.2.2.2.failed fun e => concurs_takeLine (hblamed e) _
  | _ => cases h

theorem Concurs.sameFor {p q : Connection × α} (h : c.Concurs b (fun _ => True) p q) (hthrough : c.Through p.1) :
    System.SameFor c.stream.fd p.1.system q.1.system := by
  obtain ⟨b', rfl, hsame, -⟩ := h
  exact hthrough.stream.fd ▸ hsame

theorem Concurs.same {p q : Connection × α} (h : c.Concurs b (fun _ => True) p q) :
    q.1.stream = p.1.stream ∧ q.2 = p.2 := by
  obtain ⟨b', rfl, -⟩ := h
  exact ⟨rfl, rfl⟩

theorem perform_sameFor (h : System.SameFor c.stream.fd c.system b) (call : Call) :
    System.SameFor c.stream.fd (c.perform call).1.system (perform ⟨c.stream, b⟩ call).1.system := by
  cases call with
  | read max => exact read_sameFor h _
  | readLine max => exact readLine_sameFor h _
  | write bytes => exact (concurs_write h bytes).sameFor (through_write c bytes)
  | flush => exact (concurs_flush h).sameFor (through_flush c)
  | seek target => exact (concurs_seek h target).sameFor (through_seek c target)
  | tell => exact (concurs_tell h).sameFor (through_tell c)
  | close => exact h

theorem answered_same_iff {p q : Connection × Except StreamError Bytes} :
    ((answered .bytes q).1.stream = (answered .bytes p).1.stream ∧ (answered .bytes q).2 = (answered .bytes p).2) ↔
      (q.1.stream = p.1.stream ∧ q.2 = p.2) := by
  refine and_congr_right fun _ => ?_
  rcases p with ⟨_, _ | _⟩ <;> rcases q with ⟨_, _ | _⟩ <;> simp [answered, Reply.ofStream]

/-- A call does the same in two systems that its stream cannot tell apart, but for one that borrows. -/
theorem perform_same_iff (h : System.SameFor c.stream.fd c.system b) (call : Call) :
    ((perform ⟨c.stream, b⟩ call).1.stream = (c.perform call).1.stream ∧
        (perform ⟨c.stream, b⟩ call).2 = (c.perform call).2) ↔ (c.Borrows call → b.cause = c.system.cause) := by
  have hsame : ∀ {α : Type} {f : α → Answer} {p q : Connection × Except StreamError α},
      c.Concurs b (fun _ => True) p q →
        (answered f q).1.stream = (answered f p).1.stream ∧ (answered f q).2 = (answered f p).2 := by
    intro α f p q hconcurs
    obtain ⟨hstream, hresult⟩ := hconcurs.same
    exact ⟨hstream, congrArg (Reply.ofStream f) hresult⟩
  cases call with
  | read max => exact answered_same_iff.trans (read_same_iff h _)
  | readLine max => exact answered_same_iff.trans (readLine_same_iff h _)
  | write bytes => exact iff_of_true (hsame (concurs_write h bytes)) fun hborrows => hborrows.elim
  | flush => exact iff_of_true (hsame (concurs_flush h)) fun hborrows => hborrows.elim
  | seek target => exact iff_of_true (hsame (concurs_seek h target)) fun hborrows => hborrows.elim
  | tell => exact iff_of_true (hsame (concurs_tell h)) fun hborrows => hborrows.elim
  | close => exact iff_of_true ⟨rfl, rfl⟩ fun hborrows => hborrows.elim

theorem through_perform (c : Connection) (call : Call) : c.Through (c.perform call).1 := by
  cases call with
  | read max => exact through_read c _
  | readLine max => exact through_readLine c _
  | write bytes => exact through_write c bytes
  | flush => exact through_flush c
  | seek target => exact through_seek c target
  | tell => exact through_tell c
  | close => exact .refl c

theorem concurs_ending (h : System.SameFor c.stream.fd c.system b) :
    c.Concurs b (· = true) (if c.stream.writing then c.drain else (c, true))
      (if c.stream.writing then drain ⟨c.stream, b⟩ else (⟨c.stream, b⟩, true)) := by
  split
  · exact concurs_drain h
  · exact ⟨b, rfl, .still h ⟨rfl, rfl⟩⟩

/-- A stream is closed in the same way in two systems it cannot tell apart: what is pending is handed on, and
then the descriptor goes. -/
theorem close_same (h : System.SameFor c.stream.fd c.system b) :
    (close ⟨c.stream, b⟩).2 = c.close.2 ∧ ∃ a' b', System.Through c.stream.fd c.system a' ∧
      System.Through c.stream.fd b b' ∧ System.SameFor c.stream.fd a' b' ∧
      System.Drops c.stream.fd a' c.close.1 ∧ System.Drops c.stream.fd b' (close ⟨c.stream, b⟩).1 := by
  have hta := through_ending c
  have htb := through_ending ⟨c.stream, b⟩
  obtain ⟨b₁, e, ha⟩ := concurs_ending h
  unfold close finish
  rw [e] at htb
  dsimp only
  rw [e]
  generalize (if c.stream.writing then c.drain else (c, true)) = r at ha hta htb ⊢
  obtain ⟨c₁, drained⟩ := r
  have hfd : c₁.stream.fd = c.stream.fd := hta.stream.fd
  obtain ⟨b₂, e₂, ha₂⟩ := System.close_answers ha.1
  have hda := (c₁.system.drops_close c₁.stream.fd).1
  have hdb := (b₁.drops_close c₁.stream.fd).1
  have hclosed := System.Agree.trans ha ha₂
  dsimp only at e₂ hda hdb hclosed ⊢
  rw [e₂] at hdb ⊢
  generalize c₁.system.close c₁.stream.fd = r at hda hdb hclosed ⊢
  rw [hfd] at hda hdb
  refine ⟨?_, c₁.system, b₁, hta.system, htb.system, hfd ▸ ha.1, ?_, ?_⟩
  · -- Where it is not done, the last error is of the closing or of what was handed on before it.
    rcases r with ⟨a₂, x | _⟩
    · simp only [Bool.false_eq_true, if_false, failure]
      rw [hclosed.2.resolve_right fun hok => by cases hok.2.2]
    · cases drained with
      | true => rfl
      | false =>
        simp only [Bool.false_eq_true, if_false, failure]
        rw [hclosed.2.resolve_right fun hok => by cases hok.2.1.2]
  · rcases r with ⟨a₂, x | _⟩ <;> exact hda.counts _
  · rcases r with ⟨a₂, x | _⟩ <;> exact hdb.counts _

end Connection

namespace System

variable {fd j : Nat} {a a' b b' a₁ a₂ a₃ a₄ : System}

theorem Apart.symm (h : a.Apart fd j) : a.Apart j fd :=
  ⟨h.fds.symm, fun d e hd he => (h.devices e d he hd).symm⟩

theorem SameFor.device {d : Descriptor} (h : SameFor fd a b) (hd : a.descriptor? fd = some d) :
    b.device? d.device = a.device? d.device := by
  have ho := h.opened
  simp only [opened?, h.descriptor, hd] at ho
  cases hb : b.device? d.device <;> cases ha : a.device? d.device <;> simp_all

/-- `b` is `a` after a call on the descriptor `fd`, that may be its end. -/
structure Confines (fd : Nat) (a b : System) : Prop where
  names : b.names = a.names
  home : b.home = a.home
  largestOffset : b.largestOffset = a.largestOffset
  charsets : b.charsets = a.charsets
  width : b.descriptors.length = a.descriptors.length
  others : ∀ k, k ≠ fd → b.descriptor? k = a.descriptor? k
  foreign : ∀ i, (∀ d, a.descriptor? fd = some d → d.device ≠ i) → b.device? i = a.device? i

theorem Through.confines (h : Through fd a b) : Confines fd a b :=
  ⟨h.names, h.home, h.largestOffset, h.charsets, h.width, h.others, h.foreign⟩

theorem Through.confines_drops {c : System} (h : Through fd a b) (h' : Drops fd b c) : Confines fd a c where
  names := h'.names.trans h.names
  home := h'.home.trans h.home
  largestOffset := h'.largestOffset.trans h.largestOffset
  charsets := h'.charsets.trans h.charsets
  width := h'.width.trans h.width
  others k hk := (h'.others k hk).trans (h.others k hk)
  foreign i hi := (h'.device i).trans (h.foreign i hi)

/-- One call takes `a` to `a'` and `b` to `b'`, and does the same to its descriptor and to the device behind
it. -/
structure Moves (fd : Nat) (a a' b b' : System) : Prop where
  left : Confines fd a a'
  right : Confines fd b b'
  descriptor : b'.descriptor? fd = a'.descriptor? fd
  device : ∀ d, a.descriptor? fd = some d → b'.device? d.device = a'.device? d.device
  openStreams : b'.openStreams - b.openStreams = a'.openStreams - a.openStreams

/-- Two systems that differ in nothing but the last error. -/
structure Matches (a b : System) : Prop where
  names : b.names = a.names
  home : b.home = a.home
  largestOffset : b.largestOffset = a.largestOffset
  charsets : b.charsets = a.charsets
  openStreams : b.openStreams = a.openStreams
  width : b.descriptors.length = a.descriptors.length
  descriptor : ∀ k, b.descriptor? k = a.descriptor? k
  device : ∀ i, b.device? i = a.device? i

theorem Matches.refl (a : System) : a.Matches a := ⟨rfl, rfl, rfl, rfl, rfl, rfl, fun _ => rfl, fun _ => rfl⟩

theorem Matches.blamed (a : System) (e : Errno) : a.Matches (a.blamed e) :=
  ⟨rfl, rfl, rfl, rfl, rfl, rfl, fun _ => rfl, fun _ => rfl⟩

theorem Matches.eq (h : a.Matches b) : b = a.blamed b.lastError := by
  have hdescriptors : b.descriptors = a.descriptors := by
    refine List.ext_getElem h.width fun k hb ha => ?_
    have hdescriptor := h.descriptor k
    rwa [descriptor?, descriptor?, List.getElem?_eq_getElem hb, List.getElem?_eq_getElem ha, Option.join_some,
      Option.join_some] at hdescriptor
  have hdevices : b.devices = a.devices := List.ext_getElem? h.device
  obtain ⟨⟩ := a
  obtain ⟨⟩ := b
  obtain ⟨hnames, hhome, hlargestOffset, hcharsets, hopenStreams, -, -, -⟩ := h
  cases hnames
  cases hhome
  cases hlargestOffset
  cases hcharsets
  cases hopenStreams
  cases hdescriptors
  cases hdevices
  rfl

/-- Calls on a descriptor that leave systems its stream cannot tell apart do the same in both. -/
theorem Through.moves (h : Through fd a a') (h' : Through fd b b') (hsame : SameFor fd a' b') : Moves fd a a' b b' where
  left := h.confines
  right := h'.confines
  descriptor := hsame.descriptor
  device d hd := by
    obtain ⟨p, hp⟩ := h.own d hd
    have hdev := hsame.device hp
    exact hdev
  openStreams := by rw [h.openStreams, h'.openStreams, Int.sub_self, Int.sub_self]

/-- What is done to systems that differ in the last error leaves systems that do. -/
theorem Moves.matches {e : Errno} (h : Moves fd a a' (a.blamed e) b') : a'.Matches b' where
  names := h.right.names.trans h.left.names.symm
  home := h.right.home.trans h.left.home.symm
  largestOffset := h.right.largestOffset.trans h.left.largestOffset.symm
  charsets := h.right.charsets.trans h.left.charsets.symm
  openStreams := (Int.sub_left_inj _).1 h.openStreams
  width := h.right.width.trans h.left.width.symm
  descriptor k := by
    by_cases hk : k = fd
    · rw [hk, h.descriptor]
    · exact (h.right.others k hk).trans (h.left.others k hk).symm
  device i := by
    by_cases hi : ∃ d, a.descriptor? fd = some d ∧ d.device = i
    · obtain ⟨d, hd, rfl⟩ := hi
      exact h.device d hd
    · have hforeign : ∀ d, a.descriptor? fd = some d → d.device ≠ i := fun d hd heq => hi ⟨d, hd, heq⟩
      exact (h.right.foreign i hforeign).trans (h.left.foreign i hforeign).symm

/-- What a call on another descriptor spares on another device is what it was. -/
theorem Confines.device {d : Descriptor} (h : Confines fd a b) (h' : Confines j b a') (hapart : a.Apart fd j)
    (hd : a.descriptor? fd = some d) : a'.device? d.device = b.device? d.device := by
  refine h'.foreign _ fun e he => ?_
  rw [h.others j hapart.fds.symm] at he
  exact hapart.devices d e hd he

/-- Two calls on descriptors that are apart come to the same in either order. -/
theorem moves_commute (hx : Moves fd a a₁ a₃ a₄) (hy : Moves j a a₃ a₁ a₂) (hapart : a.Apart fd j) :
    a₂.Matches a₄ where
  names := by rw [hx.right.names, hy.left.names, hy.right.names, hx.left.names]
  home := by rw [hx.right.home, hy.left.home, hy.right.home, hx.left.home]
  largestOffset := by
    rw [hx.right.largestOffset, hy.left.largestOffset, hy.right.largestOffset, hx.left.largestOffset]
  charsets := by rw [hx.right.charsets, hy.left.charsets, hy.right.charsets, hx.left.charsets]
  width := by rw [hx.right.width, hy.left.width, hy.right.width, hx.left.width]
  openStreams := by
    have := hx.openStreams
    have := hy.openStreams
    omega
  descriptor k := by
    by_cases hk : k = fd
    · subst hk
      rw [hx.descriptor, hy.right.others k hapart.fds]
    by_cases hk' : k = j
    · subst hk'
      rw [hy.descriptor, hx.right.others k hapart.fds.symm]
    · rw [hx.right.others k hk, hy.left.others k hk', hy.right.others k hk', hx.left.others k hk]
  device i := by
    by_cases hi : ∃ d, a.descriptor? fd = some d ∧ d.device = i
    · obtain ⟨d, hd, rfl⟩ := hi
      rw [hx.device d hd, hx.left.device hy.right hapart hd]
    by_cases hi' : ∃ e, a.descriptor? j = some e ∧ e.device = i
    · obtain ⟨e, he, rfl⟩ := hi'
      rw [hy.device e he, hy.left.device hx.right hapart.symm he]
    · have hx' : ∀ sys : System, sys.descriptor? fd = a.descriptor? fd → ∀ d, sys.descriptor? fd = some d → d.device ≠ i :=
        fun sys hsame d hd heq => hi ⟨d, hsame.symm.trans hd, heq⟩
      have hy' : ∀ sys : System, sys.descriptor? j = a.descriptor? j → ∀ d, sys.descriptor? j = some d → d.device ≠ i :=
        fun sys hsame d hd heq => hi' ⟨d, hsame.symm.trans hd, heq⟩
      rw [hx.right.foreign i (hx' a₃ (hy.left.others fd hapart.fds)), hy.left.foreign i (hy' a rfl),
        hy.right.foreign i (hy' a₁ (hx.left.others j hapart.fds.symm)), hx.left.foreign i (hx' a rfl)]

end System

namespace Handle

variable {h k : Handle} {s : Stream} {a b sys : System} {call : Call}

/-- The streams of the handles, as far as they are open, are over descriptors that are apart. -/
def Apart (sys : System) (h k : Handle) : Prop :=
  ∀ s t, h.stream = some s → k.stream = some t → sys.Apart s.fd t.fd

/-- A call that takes its failure from what was the last error before it. -/
def Borrows (h : Handle) (sys : System) (call : Call) : Prop :=
  ∃ s, h.stream = some s ∧ Connection.Borrows ⟨s, sys⟩ call

/-- The call leaves the same handle in both systems and gets the same reply. -/
def SameIn (h : Handle) (a b : System) (call : Call) : Prop :=
  (h.call b call).1 = (h.call a call).1 ∧ (h.call b call).2.2 = (h.call a call).2.2

theorem call_closed (hs : h.stream = none) (a b : System) (call : Call) :
    (h.call a call).1 = h ∧ (h.call a call).2.1 = a ∧ (h.call b call).2.2 = (h.call a call).2.2 := by
  cases call <;> simp [Handle.call, Handle.read, Handle.readLine, Handle.write, Handle.flush, Handle.seek, Handle.tell,
    Handle.close, onStream, Outcome.reply, hs, Reply.ofHandle]

theorem call_close (hs : h.stream = some s) : h.call sys .close =
    ({ h with stream := none }, (Connection.close ⟨s, sys⟩).1,
      .ofStream (fun _ => .done) (Connection.close ⟨s, sys⟩).2) := by
  rcases hclose : Connection.close ⟨s, sys⟩ with ⟨sys', result⟩
  simp only [Handle.call, Handle.close, hs, hclose, Outcome.reply]
  cases result <;> rfl

/-- A call on an open handle is one on its descriptor, and does the same in systems its stream cannot tell apart. -/
theorem call_moves (hs : h.stream = some s) (hsame : System.SameFor s.fd a b) (call : Call) :
    System.Moves s.fd a (h.call a call).2.1 b (h.call b call).2.1 := by
  by_cases hc : call = .close
  · subst hc
    obtain ⟨-, a', b', hta, htb, hmid, hda, hdb⟩ := Connection.close_same (c := ⟨s, a⟩) hsame
    obtain ⟨-, -, -, hcounta⟩ := Connection.close_drops ⟨s, a⟩
    obtain ⟨-, -, -, hcountb⟩ := Connection.close_drops ⟨s, b⟩
    rw [call_close hs, call_close hs]
    refine ⟨hta.confines_drops hda, htb.confines_drops hdb, hdb.gone.trans hda.gone.symm, fun d hd => ?_, ?_⟩
    · obtain ⟨p, hp⟩ := hta.own d hd
      have hdev := hmid.device hp
      exact (hdb.device _).trans (hdev.trans (hda.device _).symm)
    · rw [hcounta, hcountb]
      dsimp only
      split <;> omega
  · rw [call_perform hs hc, call_perform hs hc]
    have hta := Connection.through_perform ⟨s, a⟩ call
    have htb := Connection.through_perform ⟨s, b⟩ call
    exact hta.system.moves htb.system (Connection.perform_sameFor (c := ⟨s, a⟩) hsame call)

/-- Where its stream cannot tell two systems apart, a call does the same in both, but for one that borrows. -/
theorem sameIn_iff (hsame : ∀ s, h.stream = some s → System.SameFor s.fd a b) (call : Call) :
    h.SameIn a b call ↔ (h.Borrows a call → b.cause = a.cause) := by
  cases hs : h.stream with
  | none =>
    obtain ⟨hha, -, hreply⟩ := call_closed hs a b call
    obtain ⟨hhb, -, -⟩ := call_closed hs b b call
    refine iff_of_true ⟨hhb.trans hha.symm, hreply⟩ ?_
    rintro ⟨t, ht, -⟩
    rw [hs] at ht
    cases ht
  | some s =>
    have hborrows : h.Borrows a call ↔ Connection.Borrows ⟨s, a⟩ call := by
      constructor
      · rintro ⟨t, ht, hb⟩
        cases hs.symm.trans ht
        exact hb
      · exact fun hb => ⟨s, hs, hb⟩
    rw [hborrows]
    by_cases hc : call = .close
    · subst hc
      refine iff_of_true ?_ fun hb => hb.elim
      have hresult := (Connection.close_same (c := ⟨s, a⟩) (hsame s hs)).1
      simp only [SameIn, Handle.call, Handle.close, hs, Outcome.reply, hresult, and_self]
    · rw [SameIn, call_perform hs hc, call_perform hs hc, ← Connection.perform_same_iff (hsame s hs) call]
      exact and_congr_left fun _ => by simp

/-- A call on a handle changes nothing a stream can tell whose descriptor is apart. -/
theorem call_sameFor {fd : Nat} (hapart : ∀ s, h.stream = some s → sys.Apart fd s.fd) (call : Call) :
    System.SameFor fd sys (h.call sys call).2.1 := by
  cases hs : h.stream with
  | none => rw [(call_closed hs sys sys call).2.1]; exact .refl fd sys
  | some s =>
    have hapart := hapart s hs
    by_cases hc : call = .close
    · subst hc
      obtain ⟨c₁, hthrough, hdrops, -⟩ := Connection.close_drops ⟨s, sys⟩
      rw [call_close hs]
      exact (hthrough.system.sameFor hapart).trans (hdrops.sameFor (hapart.through hthrough.system))
    · rw [call_perform hs hc]
      exact (Connection.through_perform ⟨s, sys⟩ call).system.sameFor hapart

/-- What is open after a call on a handle is its stream, over the same descriptor. -/
theorem call_stream {t : Stream} (ht : (h.call sys call).1.stream = some t) :
    ∃ s, h.stream = some s ∧ t.fd = s.fd := by
  cases hs : h.stream with
  | none => rw [(call_closed hs sys sys call).1, hs] at ht; cases ht
  | some s =>
    refine ⟨s, rfl, ?_⟩
    by_cases hc : call = .close
    · subst hc
      rw [call_close hs] at ht
      cases ht
    · rw [call_perform hs hc] at ht
      cases ht
      exact (Connection.through_perform ⟨s, sys⟩ call).stream.fd

/-- A call leaves the descriptors of two handles apart. -/
theorem apart_call (hapart : Handle.Apart sys h k) (call : Call) :
    Handle.Apart (h.call sys call).2.1 (h.call sys call).1 k := by
  intro t u ht hu
  obtain ⟨s, hs, hfd⟩ := call_stream ht
  have hst := hapart s u hs hu
  rw [hfd]
  by_cases hc : call = .close
  · subst hc
    rw [call_close hs] at ht
    cases ht
  · rw [call_perform hs hc]
    exact hst.through (Connection.through_perform ⟨s, sys⟩ call).system

theorem Apart.symm (hapart : Handle.Apart sys h k) : Handle.Apart sys k h :=
  fun s t hs ht => (hapart t s ht hs).symm

/-- A call that does not borrow does the same in systems the stream of the handle cannot tell apart, and leaves
such systems. -/
theorem call_same (hsame : ∀ s, h.stream = some s → System.SameFor s.fd a b) (hown : ¬ h.Borrows a call) :
    h.SameIn a b call ∧ ∀ t, (h.call a call).1.stream = some t →
      System.SameFor t.fd (h.call a call).2.1 (h.call b call).2.1 := by
  refine ⟨(sameIn_iff hsame call).2 fun hb => absurd hb hown, fun t ht => ?_⟩
  obtain ⟨s, hs, hfd⟩ := call_stream ht
  by_cases hc : call = .close
  · subst hc
    rw [call_close hs] at ht
    cases ht
  · rw [call_perform hs hc, call_perform hs hc, hfd]
    exact Connection.perform_sameFor (c := ⟨s, a⟩) (hsame s hs) call

/-- Calls on `h` with calls on `k` between them. The replies are those on `h`. -/
def runAmong (h k : Handle) (sys : System) : List (Call ⊕ Call) → Handle × System × List Reply
  | [] => (h, sys, [])
  | .inl call :: rest =>
    let (h, sys, reply) := h.call sys call
    let (h, sys, replies) := runAmong h k sys rest
    (h, sys, reply :: replies)
  | .inr call :: rest =>
    let (k, sys, _) := k.call sys call
    runAmong h k sys rest

/-- Some call of a run borrows. -/
def BorrowsIn (h : Handle) (sys : System) : List Call → Prop
  | [] => False
  | call :: rest => h.Borrows sys call ∨ (h.call sys call).1.BorrowsIn (h.call sys call).2.1 rest

/-- The calls on the first handle. -/
def owned (calls : List (Call ⊕ Call)) : List Call := calls.filterMap Sum.getLeft?

/-- Calls on another handle between its own change nothing about the replies a handle gets, as long as it borrows
nothing. What carries the induction is that the stream of the handle cannot tell the systems apart. -/
theorem runAmong_eq_run (calls : List (Call ⊕ Call)) (hsame : ∀ s, h.stream = some s → System.SameFor s.fd a b)
    (hapart : Handle.Apart b h k) (hown : ¬ h.BorrowsIn a (owned calls)) :
    (h.runAmong k b calls).1 = (h.run a ((owned calls).map .call)).1 ∧
      (h.runAmong k b calls).2.2 = (h.run a ((owned calls).map .call)).2.2 := by
  induction calls generalizing h k a b with
  | nil => exact ⟨rfl, rfl⟩
  | cons head rest ih =>
    cases head with
    | inl call =>
      have hborrows : ¬ (h.Borrows a call ∨ (h.call a call).1.BorrowsIn (h.call a call).2.1 (owned rest)) := hown
      rw [not_or] at hborrows
      obtain ⟨⟨hhandle, hreply⟩, hafter⟩ := call_same hsame hborrows.1
      have hrest := ih hafter (hhandle ▸ apart_call hapart call) hborrows.2
      obtain ⟨hfinal, hreplies⟩ := hrest
      simp only [runAmong, owned, List.filterMap_cons, Sum.getLeft?_inl, List.map_cons, run, respond]
      rw [hhandle, hreply]
      exact ⟨hfinal, congrArg _ hreplies⟩
    | inr call =>
      refine ih (fun s hs => ?_) (apart_call hapart.symm call).symm hown
      exact (hsame s hs).trans (call_sameFor (fun t ht => hapart s t hs ht) call)

/-- Calls on two handles whose descriptors and devices are not the same. Made in either order they leave systems
that differ in nothing but the last error; a call leaves the same handle and gets the same reply, unless it borrows a last
error the other one changed. Only a handle whose indicator an earlier call left set borrows, and as long as it does not,
its replies are those of its calls alone, wherever calls on the other come between them. -/
theorem calls_independent (hapart : Handle.Apart sys h k) :
    (∀ x y, (h.SameIn sys (k.call sys y).2.1 x ↔ (h.Borrows sys x → (k.call sys y).2.1.cause = sys.cause)) ∧
      (k.SameIn sys (h.call sys x).2.1 y ↔ (k.Borrows sys y → (h.call sys x).2.1.cause = sys.cause)) ∧
      (k.call (h.call sys x).2.1 y).2.1.Matches (h.call (k.call sys y).2.1 x).2.1) ∧
      (∀ x, h.Borrows sys x → ∃ s, h.stream = some s ∧ s.failed = true) ∧
      ∀ calls, ¬ h.BorrowsIn sys (owned calls) →
        (h.runAmong k sys calls).1 = (h.run sys ((owned calls).map .call)).1 ∧
          (h.runAmong k sys calls).2.2 = (h.run sys ((owned calls).map .call)).2.2 := by
  refine ⟨fun x y => ?_, ?_, fun calls hown => runAmong_eq_run calls (fun s _ => .refl s.fd sys) hapart hown⟩
  · have hh : ∀ s, h.stream = some s → System.SameFor s.fd sys (k.call sys y).2.1 := fun s hs =>
      call_sameFor (fun t ht => hapart s t hs ht) y
    have hk : ∀ t, k.stream = some t → System.SameFor t.fd sys (h.call sys x).2.1 := fun t ht =>
      call_sameFor (fun s hs => (hapart s t hs ht).symm) x
    refine ⟨sameIn_iff hh x, sameIn_iff hk y, ?_⟩
    cases hs : h.stream with
    | none =>
      rw [(call_closed hs sys sys x).2.1, (call_closed hs _ sys x).2.1]
      exact .refl _
    | some s =>
      cases ht : k.stream with
      | none =>
        rw [(call_closed ht sys sys y).2.1, (call_closed ht _ sys y).2.1]
        exact .refl _
      | some t => exact System.moves_commute (call_moves hs (hh s hs) x) (call_moves ht (hk t ht) y) (hapart s t hs ht)
  · rintro x ⟨s, hs, hb⟩
    exact ⟨s, hs, hb.failed⟩

/-- A line was cut short at a pipe with nothing more in it yet, and then the writer went. A read at the end reports what
kept the line back, or, after a call on another file was refused, the failure of that. -/
theorem borrowed_failure :
    ∃ early cut sys h k, early = (System.fresh.makePipe.1.write 1 [97, 98, 99]).1 ∧
      cut = (Connection.perform ⟨{ fd := 0, reads := true, writes := false, appends := false }, early⟩
        (.readLine (some 5))).1 ∧
      sys = (cut.system.close 1).1.openNew [[113]] (.regular []) true false ∧
      h = ⟨"p", "r", some cut.stream⟩ ∧
      k = ⟨"q", "r", some { fd := 1, reads := true, writes := false, appends := false }⟩ ∧
      Handle.Apart sys h k ∧ h.Borrows sys (.read (some 10)) ∧
      (h.call sys (.read (some 10))).2.2 = .refused (.stream (.ofErrno "fread" .wouldBlock)) ∧
      (h.call (k.call sys (.write [120])).2.1 (.read (some 10))).2.2 =
        .refused (.stream (.ofErrno "fread" .badDescriptor)) ∧
      (k.call (h.call sys (.read (some 10))).2.1 (.write [120])).2.1.Matches
        (h.call (k.call sys (.write [120])).2.1 (.read (some 10))).2.1 := by
  refine ⟨_, _, _, _, _, rfl, rfl, rfl, rfl, rfl, ?_⟩
  refine (fun (hapart : Handle.Apart _ _ _) => ⟨hapart, ?_⟩) ?_
  · intro s t hs ht
    cases hs
    cases ht
    refine ⟨by decide, fun d e hd he => ?_⟩
    cases hd
    cases he
    decide
  · obtain ⟨hboth, -, -⟩ := calls_independent hapart
    obtain ⟨hsame, -, hmatches⟩ := hboth (.read (some 10)) (.write [120])
    refine ⟨Classical.byContradiction fun hown => ?_, rfl, rfl, hmatches⟩
    have hreply := (hsame.2 fun hb => absurd hb hown).2
    revert hreply
    decide

end Handle

end BufferedFiles
