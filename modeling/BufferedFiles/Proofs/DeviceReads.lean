import BufferedFiles.Proofs.OutputOrder
import BufferedFiles.Proofs.Reading

/-!
# What the device answers

An operation for input asks the device as often as it has to, and every answer is bytes or a failure.
What was read ahead before and what the answers bring is what is given out and what is read ahead
afterwards, in that order. A failure is the last answer, and it shows.
-/
namespace BufferedFiles

/-- The bytes that answers bring. -/
def gained : List (Except Errno Bytes) → Bytes
  | [] => []
  | .ok bytes :: rest => bytes ++ gained rest
  | .error _ :: rest => gained rest

@[simp] theorem gained_append (xs ys : List (Except Errno Bytes)) :
    gained (xs ++ ys) = gained xs ++ gained ys := by
  induction xs with
  | nil => rfl
  | cons x xs ih =>
    cases x with
    | ok bytes => simp only [List.cons_append, gained, ih, List.append_assoc]
    | error e => exact ih

/-- The failures among answers. -/
def failures (answers : List (Except Errno Bytes)) : List Errno :=
  answers.filterMap fun
    | .ok _ => none
    | .error e => some e

@[simp] theorem failures_append (xs ys : List (Except Errno Bytes)) :
    failures (xs ++ ys) = failures xs ++ failures ys := List.filterMap_append

namespace System

variable {sys a b c : System} {fd n m : Nat}

/-- The descriptor is `n` bytes further on, where it is open. -/
def Advances (fd : Nat) (a b : System) (n : Nat) : Prop :=
  b.descriptor? fd = (a.descriptor? fd).map fun d => { d with position := d.position + n }

theorem Advances.of_eq (h : b.descriptors = a.descriptors) : Advances fd a b 0 := by
  simp only [Advances, descriptor?, h, Nat.add_zero, Option.map_id']

theorem Advances.trans (h : Advances fd a b n) (h' : Advances fd b c m) : Advances fd a c (n + m) := by
  simp only [Advances] at h h' ⊢
  rw [h', h, Option.map_map]
  simp only [Function.comp_def, Nat.add_assoc]

/-- A read moves the descriptor by what it gets; one that fails leaves it and is the last error. -/
theorem read_advances (sys : System) (fd n : Nat) :
    Advances fd sys (sys.read fd n).1 (gained [(sys.read fd n).2]).length ∧
      ∀ e, (sys.read fd n).2 = .error e → (sys.read fd n).1.lastError = e := by
  unfold read
  cases ho : sys.opened? fd with
  | none => exact ⟨.of_eq rfl, fun e h => by cases h; rfl⟩
  | some port =>
    obtain ⟨d, dev⟩ := port
    obtain ⟨hd, -⟩ := opened?_eq_some.1 ho
    dsimp only
    split
    · exact ⟨.of_eq rfl, fun e h => by cases h; rfl⟩
    split
    · exact ⟨.of_eq rfl, fun e h => by cases h; rfl⟩
    split
    · exact ⟨.of_eq rfl, fun e h => by cases h; rfl⟩
    split
    · exact ⟨.of_eq rfl, fun e h => by cases h; rfl⟩
    · refine ⟨?_, fun e h => by cases h⟩
      simp only [Advances, descriptor?_setDescriptor, descriptor?_setDevice, hd, gained, List.append_nil,
        Option.map_some]
      rw [if_pos ⟨trivial, lt_of_descriptor? hd⟩]

end System

namespace Connection

variable {a b c c' : Connection} {n : Nat} {out : Bytes} {xs ys : List (Except Errno Bytes)}

/-- What the device answers while the window is filled; nothing where it is not asked. -/
def fillAnswers (c : Connection) : List (Except Errno Bytes) :=
  match c.endOutput with
  | (_, false) => []
  | (c, true) =>
    if c.stream.atEnd || !c.stream.reads then []
    else [(c.allocate.system.read c.stream.fd c.allocate.stream.capacity).2]

/-- What the device answers while bytes are taken. -/
def takeAnswers : Nat → Connection → Nat → List (Except Errno Bytes)
  | 0, _, _ => []
  | rounds + 1, c, n =>
    let found := c.stream.ahead.take n
    let c := c.update (·.skip found.length)
    let missing := n - found.length
    if missing = 0 then []
    else if missing < c.stream.capacity then
      c.fillAnswers ++
        match c.fill with
        | (_, false) => []
        | (c, true) => takeAnswers rounds c missing
    else
      (c.system.read c.stream.fd (c.stream.direct missing)).2 ::
        match c.readPast (c.stream.direct missing) with
        | (_, []) => []
        | (c, bytes) => takeAnswers rounds c (missing - bytes.length)

/-- What the device answers while a line is taken. -/
def takeLineAnswers : Nat → Connection → Nat → List (Except Errno Bytes)
  | 0, _, _ => []
  | rounds + 1, c, n =>
    if n = 0 then [] else
    (if c.stream.ahead.isEmpty then c.fillAnswers else []) ++
      match (if c.stream.ahead.isEmpty then c.fill else (c, true)) with
      | (_, false) => []
      | (c, true) =>
        let found := firstLine (c.stream.ahead.take n)
        if found.getLast? = some newline then []
        else takeLineAnswers rounds (c.update (·.skip found.length)) (n - found.length)

/-- From `a` to `b` the device gave the answers `xs`, and `out` went out. The descriptor moves by what was
gained, where no output is under way. -/
structure Conveys (a b : Connection) (xs : List (Except Errno Bytes)) (out : Bytes) : Prop where
  kept : a.stream.ahead ++ gained xs = out ++ b.stream.ahead
  calm : b.Calm
  drained : a.stream.pending = [] → b.stream.pending = [] ∧
    System.Advances a.stream.fd a.system b.system (gained xs).length
  fd : b.stream.fd = a.stream.fd

theorem Conveys.refl (h : c.Calm) : c.Conveys c [] [] where
  kept := List.append_nil _
  calm := h
  drained hp := ⟨hp, .of_eq rfl⟩
  fd := rfl

theorem Conveys.trans {out' : Bytes} (h : a.Conveys b xs out) (h' : b.Conveys c ys out') :
    a.Conveys c (xs ++ ys) (out ++ out') where
  kept := by
    rw [gained_append, ← List.append_assoc, h.kept, List.append_assoc, h'.kept, List.append_assoc]
  calm := h'.calm
  drained hp := by
    obtain ⟨hp₁, hmove⟩ := h.drained hp
    obtain ⟨hp₂, hmove'⟩ := h'.drained hp₁
    rw [gained_append, List.length_append]
    exact ⟨hp₂, hmove.trans (h.fd ▸ hmove')⟩
  fd := h'.fd.trans h.fd

/-- What is noted down beside the buffer does not matter. -/
theorem Conveys.noted {s : Stream} (h : a.Conveys b xs out) (hw : s.writing = b.stream.writing)
    (hp : s.pending = b.stream.pending) (hwin : s.window = b.stream.window)
    (hcur : s.cursor = b.stream.cursor) (hfd : s.fd = b.stream.fd) : a.Conveys ⟨s, b.system⟩ xs out where
  kept := by
    have hahead : s.ahead = b.stream.ahead := by simp only [Stream.ahead, hw, hwin, hcur]
    rw [hahead, h.kept]
  calm hw' hp' := by
    have hleft : s.left = b.stream.left := by simp only [Stream.left, hwin, hcur]
    exact hleft.trans (h.calm (hw ▸ hw') (hp ▸ hp'))
  drained hnil := by
    obtain ⟨hp₁, hmove⟩ := h.drained hnil
    exact ⟨hp.trans hp₁, hmove⟩
  fd := hfd.trans h.fd

/-- A step that does not ask the device. -/
theorem Conveys.quiet (hkept : a.stream.ahead = out ++ b.stream.ahead) (hcalm : b.Calm)
    (hdrained : a.stream.pending = [] → b.stream.pending = [] ∧ b.system.descriptors = a.system.descriptors)
    (hfd : b.stream.fd = a.stream.fd) : a.Conveys b [] out where
  kept := (List.append_nil _).trans hkept
  calm := hcalm
  drained hp := ⟨(hdrained hp).1, .of_eq (hdrained hp).2⟩
  fd := hfd

theorem conveys_allocate (h : c.Calm) : c.Conveys c.allocate [] [] := by
  unfold allocate
  split
  · exact .refl h
  split
  · exact .quiet rfl h (fun hp => ⟨hp, rfl⟩) rfl
  split
  · exact .quiet rfl h (fun hp => ⟨hp, rfl⟩) rfl
  · rename_i sys e heq
    have hsame : sys.descriptors = c.system.descriptors := by
      unfold System.inspect at heq
      split at heq <;> cases heq
      rfl
    exact .quiet rfl h (fun hp => ⟨hp, hsame⟩) rfl

theorem ahead_skip (s : Stream) (n : Nat) : (s.skip n).ahead = s.ahead.drop n := by
  by_cases hw : s.writing = true <;>
    simp only [Stream.ahead, Stream.skip, hw, if_true, if_false, Bool.false_eq_true, List.drop_nil,
      List.drop_drop]

/-- Bytes that are taken from those ahead. -/
theorem conveys_skip {found : Bytes} (h : c.Calm) (hfound : found <+: c.stream.ahead) :
    c.Conveys (c.update (·.skip found.length)) [] found := by
  obtain ⟨rest, hrest⟩ := hfound
  refine .quiet ?_ (fun hw hp => ?_) (fun hp => ⟨hp, rfl⟩) rfl
  · simp only [update, ahead_skip, ← hrest, List.drop_left]
  · have hleft : c.stream.left = [] := h hw hp
    simp only [Stream.left, update, Stream.skip, List.drop_eq_nil_iff] at hleft ⊢
    omega

/-- Output that is handed on empties the buffer; where the device cannot be put where it goes, it stays. -/
theorem drain_cases (c : Connection) :
    (c.stream.pending = [] ∧ c.drain = (c, true)) ∨
      (c.stream.pending ≠ [] ∧ c.drain.2 = false ∧ c.drain.1.stream = c.stream) ∨
      (c.drain.1.stream.writing = c.stream.writing ∧ c.drain.1.stream.window = []) := by
  by_cases hp : c.stream.pending = []
  · exact .inl ⟨hp, drain_of_drained hp⟩
  have hne : ¬ c.stream.pending.isEmpty = true := by simpa using hp
  have hlen : 0 ≠ c.stream.pending.length := fun h => hp (List.length_eq_zero_iff.1 h.symm)
  unfold drain send
  rw [if_neg hne]
  rcases halign : c.align with ⟨c₁, _ | _⟩ <;> unfold align at halign <;> split at halign
  · cases halign
  · split at halign
    · cases halign
    · split at halign <;> cases halign
      exact .inr (.inl ⟨hp, by simpa using hlen, rfl⟩)
  · cases halign
    exact .inr (.inr ⟨rfl, rfl⟩)
  · split at halign
    · cases halign
      exact .inr (.inr ⟨rfl, rfl⟩)
    · split at halign <;> cases halign
      exact .inr (.inr ⟨rfl, rfl⟩)

/-- The end of output uncovers nothing that was read before. -/
theorem endOutput_calm (h : c.Calm) (ha : c.stream.ahead = []) :
    c.endOutput.1.Calm ∧ c.endOutput.1.stream.ahead = [] := by
  cases hw : c.stream.writing with
  | false =>
    have hsame : c.endOutput = (c, true) := by simp [endOutput, hw]
    rw [hsame]
    exact ⟨h, ha⟩
  | true =>
    have hempty : ∀ {s : Stream}, s.window = [] → s.left = [] ∧ s.ahead = [] := fun {s} hs => by
      simp [Stream.left, Stream.ahead, hs]
    unfold endOutput
    rw [hw, Bool.not_true, if_neg Bool.false_ne_true]
    rcases drain_cases c with ⟨hp, hdrain⟩ | ⟨hp, hno, hsame⟩ | ⟨hwriting, hwindow⟩
    · have hleft : c.stream.left = [] := h hw hp
      rw [hdrain]
      exact ⟨fun hno => (by cases hno), hleft⟩
    · rcases hdrain : c.drain with ⟨c₁, _ | _⟩ <;> rw [hdrain] at hno hsame
      · exact ⟨fun _ hp₁ => absurd (hsame ▸ hp₁) hp, hsame ▸ ha⟩
      · cases hno
    · rcases hdrain : c.drain with ⟨c₁, _ | _⟩ <;> rw [hdrain] at hwindow
      · exact ⟨fun _ _ => (hempty hwindow).1, (hempty hwindow).2⟩
      · exact ⟨fun hno => (by cases hno), (hempty (s := { c₁.stream with writing := false }) hwindow).2⟩

/-- What one read of the device brings, when nothing was ahead: it is given out, or kept in the window. -/
private theorem conveys_read_device {sys : System} {r : Except Errno Bytes} {s : Stream}
    (ha : c.stream.ahead = []) (hr : c.system.read c.stream.fd n = (sys, r)) (hfd : s.fd = c.stream.fd)
    (hp : s.pending = []) (hkept : gained [r] = out ++ s.ahead) (hcalm : s.writing = true → s.left = []) :
    c.Conveys ⟨s, sys⟩ [r] out := by
  obtain ⟨hmove, -⟩ := System.read_advances c.system c.stream.fd n
  rw [hr] at hmove
  exact ⟨by rw [ha, List.nil_append, hkept], fun hw _ => hcalm hw, fun _ => ⟨hp, hmove⟩, hfd⟩

theorem endOutput_of_idle (h : c.stream.writing = false) : c.endOutput = (c, true) := by
  simp [endOutput, h]

theorem endOutput_idle (h : c.endOutput = (c', true)) : c'.stream.writing = false := by
  unfold endOutput at h
  split at h
  · rename_i hw
    cases h
    simpa using hw
  · split at h <;> cases h
    rfl

private theorem conveys_fill_idle (hw : c.stream.writing = false) (ha : c.stream.ahead = []) :
    c.Conveys c.fill.1 c.fillAnswers [] ∧
      (c.fill.2 = true → c.fill.1.stream.ahead ≠ []) ∧
      (c.fill.2 = false → c.fill.1.stream.ahead = []) := by
  have hcalm : c.Calm := fun hno => by
    rw [hw] at hno
    cases hno
  have hmade := conveys_allocate hcalm
  have hnone : c.allocate.stream.ahead = [] := by
    have hkept := hmade.kept
    rwa [ha, List.nil_append, List.nil_append, eq_comm] at hkept
  have hidle : c.allocate.stream.writing = false := (allocate_kept c).2.trans hw
  have hempty : ∀ s : Stream, s.window = [] → s.ahead = [] := fun s hs => by simp [Stream.ahead, hs]
  have hread : ∀ {sys r} {s : Stream},
      c.allocate.system.read c.stream.fd c.allocate.stream.capacity = (sys, r) → s.fd = c.stream.fd →
      s.pending = [] → s.writing = c.allocate.stream.writing → gained [r] = s.ahead →
      c.Conveys ⟨s, sys⟩ [r] [] := by
    intro sys r s hr hfd hp hwriting hkept
    rw [← hmade.fd] at hr hfd
    refine hmade.trans (conveys_read_device hnone hr hfd hp hkept fun hno => ?_)
    rw [hwriting, hidle] at hno
    cases hno
  unfold fill fillAnswers
  rw [endOutput_of_idle hw]
  dsimp only
  split
  · rename_i hat
    rw [hat, Bool.true_or, if_pos rfl]
    exact ⟨.refl hcalm, fun hno => (by cases hno), fun _ => ha⟩
  rename_i hat
  split
  · rename_i hreads
    rw [hreads, Bool.or_true, if_pos rfl]
    exact ⟨.quiet rfl hcalm (fun hp => ⟨hp, rfl⟩) rfl, fun hno => (by cases hno), fun _ => ha⟩
  rename_i hreads
  have hasked : ¬ (c.stream.atEnd || !c.stream.reads) = true := by
    rw [Bool.or_eq_true]
    exact fun hno => hno.elim hat hreads
  rw [if_neg hasked, hmade.fd]
  rcases hr : c.allocate.system.read c.stream.fd c.allocate.stream.capacity with ⟨sys, e | _ | ⟨b, bytes⟩⟩
  · exact ⟨hread hr hmade.fd rfl rfl (hempty _ rfl).symm, fun hno => (by cases hno), fun _ => hempty _ rfl⟩
  · exact ⟨hread hr hmade.fd rfl rfl (hempty _ rfl).symm, fun hno => (by cases hno), fun _ => hempty _ rfl⟩
  · refine ⟨hread hr hmade.fd rfl rfl ?_, fun _ => ?_, fun hno => by cases hno⟩ <;>
      simp [gained, Stream.ahead, Stream.emptied, hidle]

/-- A window is filled with one answer. Where it is not filled nothing is ahead. -/
theorem conveys_fill (h : c.Calm) (ha : c.stream.ahead = []) :
    c.Conveys c.fill.1 c.fillAnswers [] ∧
      (c.fill.2 = true → c.fill.1.stream.ahead ≠ []) ∧
      (c.fill.2 = false → c.fill.1.stream.ahead = []) := by
  obtain ⟨hcalm, hahead⟩ := endOutput_calm h ha
  have hend : c.Conveys c.endOutput.1 [] [] := by
    refine .quiet (by rw [ha, hahead]; rfl) hcalm (fun hp => ?_) (through_endOutput c).stream.fd
    rw [endOutput_of_drained hp]
    exact ⟨hp, rfl⟩
  rcases hout : c.endOutput with ⟨c₁, _ | _⟩ <;> rw [hout] at hend hahead
  · simp only [fill, fillAnswers, hout]
    exact ⟨hend, fun hno => (by cases hno), fun _ => hahead⟩
  · have hidle := endOutput_idle hout
    have hsame : c.fill = c₁.fill ∧ c.fillAnswers = c₁.fillAnswers := by
      simp only [fill, fillAnswers, hout, endOutput_of_idle hidle, and_self]
    obtain ⟨hfill, hmore, hnone⟩ := conveys_fill_idle hidle hahead
    rw [hsame.1, hsame.2]
    exact ⟨hend.trans hfill, hmore, hnone⟩

/-- A read past the buffer gives out its answer. -/
theorem conveys_readPast (ha : c.stream.ahead = []) (n : Nat) :
    c.Conveys (c.readPast n).1 [(c.system.read c.stream.fd n).2] (c.readPast n).2 ∧
      (c.readPast n).1.stream.ahead = [] := by
  have hempty : ∀ s : Stream, s.window = [] → s.ahead = [] ∧ s.left = [] := fun s hs => by
    simp [Stream.left, Stream.ahead, hs]
  unfold readPast
  dsimp only [Stream.emptied]
  rcases hr : c.system.read c.stream.fd n with ⟨sys, e | _ | ⟨b, bytes⟩⟩ <;>
    refine ⟨conveys_read_device ha hr rfl rfl ?_ fun _ => (hempty _ rfl).2, (hempty _ rfl).1⟩ <;>
    rw [(hempty _ rfl).1] <;> rfl

/-- Rounds that end short of what was asked for leave nothing ahead. Every round but the first takes a byte
at least. -/
theorem conveys_takeRounds (h : c.Calm) (rounds n : Nat) :
    c.Conveys (takeRounds rounds c n).1 (takeAnswers rounds c n) (takeRounds rounds c n).2 ∧
      (n < rounds ∨ n ≤ rounds ∧ c.stream.ahead ≠ [] →
        (takeRounds rounds c n).2.length < n → (takeRounds rounds c n).1.stream.ahead = []) := by
  induction rounds generalizing c n with
  | zero =>
    refine ⟨.refl h, fun hn hlt => ?_⟩
    rcases hn with hn | ⟨hn, -⟩ <;> omega
  | succ rounds ih =>
    simp only [takeRounds, takeAnswers]
    have hskip := conveys_skip h (List.take_prefix n c.stream.ahead)
    have hlen : (c.stream.ahead.take n).length = min n c.stream.ahead.length := List.length_take
    have hdone : (c.stream.ahead.take n).length < n →
        (c.update (·.skip (c.stream.ahead.take n).length)).stream.ahead = [] := fun hlt => by
      rw [update, ahead_skip, List.drop_eq_nil_iff]
      omega
    have hfuel : n < rounds + 1 ∨ n ≤ rounds + 1 ∧ c.stream.ahead ≠ [] →
        n - (c.stream.ahead.take n).length ≤ rounds := by
      rintro (hn | ⟨hn, hne⟩)
      · omega
      · have := List.length_pos_iff.2 hne
        omega
    generalize c.stream.ahead.take n = found at hskip hlen hdone hfuel
    generalize c.update (·.skip found.length) = c₁ at hskip hdone
    split
    · exact ⟨hskip, fun _ hlt => hdone hlt⟩
    have hnone := hdone (by omega)
    split
    · obtain ⟨hfill, hmore, hstop⟩ := conveys_fill hskip.calm hnone
      rcases hf : c₁.fill with ⟨c₂, _ | _⟩ <;> rw [hf] at hfill hmore hstop
      · have hended := hskip.trans hfill
        rw [List.append_nil] at hended ⊢
        exact ⟨hended, fun _ _ => hstop rfl⟩
      · dsimp only at hfill hmore ⊢
        obtain ⟨hrest, hshort⟩ := ih hfill.calm (n - found.length)
        refine ⟨hskip.trans (hfill.trans hrest), fun hn hlt => ?_⟩
        rw [List.length_append] at hlt
        exact hshort (.inr ⟨hfuel hn, hmore rfl⟩) (by omega)
    · obtain ⟨hread, hstop⟩ := conveys_readPast hnone (c₁.stream.direct (n - found.length))
      rcases hr : c₁.readPast (c₁.stream.direct (n - found.length)) with ⟨c₂, _ | ⟨b, bytes⟩⟩ <;>
        rw [hr] at hread hstop
      · have hended := hskip.trans hread
        rw [List.append_nil] at hended
        exact ⟨hended, fun _ _ => hstop⟩
      · dsimp only at hread ⊢
        obtain ⟨hrest, hshort⟩ := ih hread.calm (n - found.length - (b :: bytes).length)
        refine ⟨?_, fun hn hlt => ?_⟩
        · rw [List.append_assoc]
          exact hskip.trans (hread.trans hrest)
        · have hbound := hfuel hn
          simp only [List.length_append, List.length_cons] at hlt hshort hbound
          exact hshort (.inl (by omega)) (by omega)

private theorem conveys_refill (h : c.Calm) {more : Bool}
    (e : (if c.stream.ahead.isEmpty then c.fill else (c, true)) = (c', more)) :
    c.Conveys c' (if c.stream.ahead.isEmpty then c.fillAnswers else []) [] ∧
      (more = true → c'.stream.ahead ≠ [] ∧ c'.stream.failed = c.stream.failed) ∧
      (more = false → c'.stream.ahead = []) := by
  split at e
  · rename_i hnil
    obtain ⟨hfill, hmore, hstop⟩ := conveys_fill h (List.isEmpty_iff.1 hnil)
    rw [if_pos hnil]
    rw [e] at hfill hmore hstop
    refine ⟨hfill, fun hyes => ?_, hstop⟩
    rw [hyes] at e
    exact ⟨hmore hyes, failed_fill_ok e⟩
  · rename_i hne
    cases e
    rw [if_neg hne]
    exact ⟨.refl h, fun _ => ⟨by simpa using hne, rfl⟩, fun hno => by cases hno⟩

/-- The same of a line. Nothing is ahead where the device fails, and where no byte was found. -/
theorem conveys_takeLineRounds (h : c.Calm) (rounds n : Nat) :
    c.Conveys (takeLineRounds rounds c n).1 (takeLineAnswers rounds c n) (takeLineRounds rounds c n).2 ∧
      (takeLineRounds rounds c n).2.length ≤ n ∧
      (c.stream.failed = false → (takeLineRounds rounds c n).1.stream.failed = true →
        (takeLineRounds rounds c n).1.stream.ahead = []) ∧
      (rounds ≠ 0 → n ≠ 0 → (takeLineRounds rounds c n).2 = [] →
        (takeLineRounds rounds c n).1.stream.ahead = []) := by
  induction rounds generalizing c n with
  | zero =>
    refine ⟨.refl h, Nat.zero_le _, fun hclear hset => ?_, fun hno => absurd rfl hno⟩
    exact Bool.noConfusion (hclear.symm.trans hset)
  | succ rounds ih =>
    simp only [takeLineRounds, takeLineAnswers]
    split
    · rename_i hn
      refine ⟨.refl h, Nat.zero_le _, fun hclear hset => ?_, fun _ hno => absurd hn hno⟩
      exact Bool.noConfusion (hclear.symm.trans hset)
    rename_i hn
    rcases hf : (if c.stream.ahead.isEmpty then c.fill else (c, true)) with ⟨c₁, _ | _⟩ <;>
      obtain ⟨hfill, hmore, hstop⟩ := conveys_refill h hf
    · dsimp only
      rw [List.append_nil]
      exact ⟨hfill, Nat.zero_le _, fun _ _ => hstop rfl, fun _ _ _ => hstop rfl⟩
    · obtain ⟨hahead, hfailed⟩ := hmore rfl
      have hprefix : firstLine (c₁.stream.ahead.take n) <+: c₁.stream.ahead :=
        (firstLine_isPrefix _).trans (List.take_prefix _ _)
      have hle : (firstLine (c₁.stream.ahead.take n)).length ≤ n :=
        Nat.le_trans (firstLine_isPrefix _).length_le (List.length_take_le _ _)
      have hne : firstLine (c₁.stream.ahead.take n) ≠ [] :=
        firstLine_ne_nil fun hnil => (List.take_eq_nil_iff.1 hnil).elim hn hahead
      dsimp only
      generalize firstLine (c₁.stream.ahead.take n) = found at hprefix hle hne
      have hskip := conveys_skip hfill.calm hprefix
      have hkept : (c₁.update (·.skip found.length)).stream.failed = c.stream.failed := hfailed
      split
      · dsimp only
        rw [List.append_nil]
        refine ⟨by simpa using hfill.trans hskip, hle, fun hclear hset => ?_,
          fun _ _ hno => absurd hno hne⟩
        exact Bool.noConfusion (hclear.symm.trans (hkept.symm.trans hset))
      · obtain ⟨hrest, hlen, hset, -⟩ := ih hskip.calm (n - found.length)
        refine ⟨hfill.trans (hskip.trans hrest), ?_, fun hclear => hset (hkept.trans hclear),
          fun _ _ hno => absurd (List.append_eq_nil_iff.1 hno).1 hne⟩
        rw [List.length_append]
        omega

theorem fill_failure (c : Connection) : failures c.fillAnswers ≠ [] →
    c.fill.2 = false ∧ c.fill.1.stream.failed = true ∧
      failures c.fillAnswers = [c.fill.1.system.lastError] := by
  unfold fill fillAnswers
  rcases c.endOutput with ⟨c₁, _ | _⟩
  · exact fun hf => absurd rfl hf
  dsimp only
  cases hready : c₁.stream.atEnd || !c₁.stream.reads with
  | true => exact fun hf => absurd rfl hf
  | false =>
    obtain ⟨hat, hreads⟩ := Bool.or_eq_false_iff.1 hready
    rw [hat, hreads, (through_allocate c₁).stream.fd]
    obtain ⟨-, herror⟩ := c₁.allocate.system.read_advances c₁.stream.fd c₁.allocate.stream.capacity
    simp only [Bool.false_eq_true, if_false]
    rcases hr : c₁.allocate.system.read c₁.stream.fd c₁.allocate.stream.capacity with
      ⟨sys, e | _ | ⟨b, bytes⟩⟩ <;> rw [hr] at herror <;> intro hf
    · exact ⟨rfl, rfl, congrArg (fun e => [e]) (herror e rfl).symm⟩
    · exact absurd rfl hf
    · exact absurd rfl hf

theorem readPast_failure (c : Connection) (n : Nat) : failures [(c.system.read c.stream.fd n).2] ≠ [] →
    (c.readPast n).2 = [] ∧ (c.readPast n).1.stream.failed = true ∧
      failures [(c.system.read c.stream.fd n).2] = [(c.readPast n).1.system.lastError] := by
  obtain ⟨-, herror⟩ := c.system.read_advances c.stream.fd n
  unfold readPast
  dsimp only [Stream.emptied]
  rcases hr : c.system.read c.stream.fd n with ⟨sys, e | got⟩ <;> rw [hr] at herror <;> intro hf
  · exact ⟨rfl, rfl, congrArg (fun e => [e]) (herror e rfl).symm⟩
  · exact absurd rfl hf

/-- A failure is the last answer there is; it sets the indicator, and the bytes are too few. -/
theorem takeRounds_failure (rounds : Nat) (c : Connection) (n : Nat) :
    failures (takeAnswers rounds c n) ≠ [] →
      (takeRounds rounds c n).2.length < n ∧ (takeRounds rounds c n).1.stream.failed = true ∧
        failures (takeAnswers rounds c n) = [(takeRounds rounds c n).1.system.lastError] := by
  induction rounds generalizing c n with
  | zero => exact fun hf => absurd rfl hf
  | succ rounds ih =>
    simp only [takeRounds, takeAnswers]
    generalize c.stream.ahead.take n = found
    generalize c.update (·.skip found.length) = c₁
    split
    · exact fun hf => absurd rfl hf
    rename_i hmissing
    split
    · have hfill := fill_failure c₁
      rw [failures_append]
      rcases hfl : c₁.fill with ⟨c₂, _ | _⟩ <;> rw [hfl] at hfill <;> intro hf
      · obtain ⟨-, hset, hlast⟩ := hfill (by simpa [failures] using hf)
        exact ⟨by dsimp only; omega, hset, by rw [hlast]; rfl⟩
      · have hquiet : failures c₁.fillAnswers = [] := Classical.not_not.1 fun hno => by cases (hfill hno).1
        rw [hquiet, List.nil_append] at hf ⊢
        obtain ⟨hlt, hset, hlast⟩ := ih c₂ (n - found.length) hf
        refine ⟨?_, hset, hlast⟩
        rw [List.length_append]
        omega
    · have hread := readPast_failure c₁ (c₁.stream.direct (n - found.length))
      rw [← List.singleton_append, failures_append]
      generalize [(c₁.system.read c₁.stream.fd (c₁.stream.direct (n - found.length))).2] = first at hread
      rcases hr : c₁.readPast (c₁.stream.direct (n - found.length)) with ⟨c₂, _ | ⟨b, bytes⟩⟩ <;>
        rw [hr] at hread <;> intro hf
      · obtain ⟨-, hset, hlast⟩ := hread (by simpa [failures] using hf)
        exact ⟨by dsimp only; omega, hset, by rw [hlast]; rfl⟩
      · have hquiet : failures first = [] := Classical.not_not.1 fun hno => by cases (hread hno).1
        rw [hquiet, List.nil_append] at hf ⊢
        obtain ⟨hlt, hset, hlast⟩ := ih c₂ (n - found.length - (b :: bytes).length) hf
        refine ⟨?_, hset, hlast⟩
        simp only [List.length_append, List.length_cons] at hlt ⊢
        omega

theorem conveys_take (h : c.Calm) (n : Nat) :
    c.Conveys (c.take n).1 (takeAnswers (n + 1) c.allocate n) (c.take n).2 ∧
      ((c.take n).2.length < n → (c.take n).1.stream.ahead = []) := by
  have hmade := conveys_allocate h
  obtain ⟨hrest, hshort⟩ := conveys_takeRounds hmade.calm (n + 1) n
  exact ⟨hmade.trans hrest, hshort (.inl (Nat.lt_succ_self n))⟩

/-- What the device answers to an operation for input. -/
def answers (c : Connection) : Operation → List (Except Errno Bytes)
  | .read n => if n = 0 ∨ c.stream.held.isSome then [] else takeAnswers (n + 1) c.allocate n
  | .readLine max =>
    if max = 0 ∨ c.stream.held.isSome then []
    else takeLineAnswers (LineBuffer.sizeFor max - 1) (c.update ({ · with failed := false }))
      (LineBuffer.sizeFor max - 1)
  | _ => []

/-- The start of a line that an operation found before the device failed, and that it does not return. -/
def lost (c : Connection) : Operation → Bytes
  | .readLine max =>
    if max = 0 ∨ c.stream.held.isSome then []
    else
      let (q, line) := takeLineRounds (LineBuffer.sizeFor max - 1) (c.update ({ · with failed := false }))
        (LineBuffer.sizeFor max - 1)
      if q.stream.failed && q.system.lastError ≠ .wouldBlock then line else []
  | _ => []

/-- The bytes a reply hands over. -/
def handedOver : Reply → Bytes
  | .answer (.bytes bytes) => bytes
  | _ => []

/-- A call that asks for nothing, or that is told of a failure, does not ask the device. -/
theorem conveys_unasked {r : Connection × Except StreamError Bytes} (h : c.Calm)
    (e : r = (c, .ok []) ∨ ∃ cause, r = (c.update ({ · with held := none }), .error cause)) :
    c.Conveys (answered .bytes r).1 [] (handedOver (answered .bytes r).2) := by
  obtain rfl | ⟨cause, rfl⟩ := e
  · exact .refl h
  · exact (Conveys.refl h).noted rfl rfl rfl rfl rfl

theorem conveys_read (h : c.Calm) (n : Nat) :
    c.Conveys (c.operate (.read n)).1 (c.answers (.read n)) (handedOver (c.operate (.read n)).2) := by
  simp only [operate, answers]
  split
  · rename_i hno
    refine conveys_unasked h ?_
    unfold read
    split
    · exact .inl rfl
    · rename_i hn
      obtain ⟨e, hheld⟩ := Option.isSome_iff_exists.1 (hno.resolve_left hn)
      rw [hheld]
      exact .inr ⟨e, rfl⟩
  · rename_i hask
    obtain ⟨hn, hheld⟩ := not_or.1 hask
    have hheld : c.stream.held = none := by simpa using hheld
    obtain ⟨htake, -⟩ := conveys_take h n
    simp only [read, if_neg hn, hheld]
    generalize c.take n = r at htake
    obtain ⟨q, got⟩ := r
    dsimp only at htake ⊢
    split
    · split
      · rename_i hnil
        rw [List.isEmpty_iff.1 hnil] at htake
        exact htake.noted rfl rfl rfl rfl rfl
      · exact htake.noted rfl rfl rfl rfl rfl
    · exact htake

theorem conveys_readLine (h : c.Calm) (max : Nat) :
    c.Conveys (c.operate (.readLine max)).1 (c.answers (.readLine max))
      (handedOver (c.operate (.readLine max)).2 ++ c.lost (.readLine max)) := by
  simp only [operate, answers, lost]
  split
  · rename_i hno
    rw [List.append_nil]
    refine conveys_unasked h ?_
    unfold readLine
    split
    · exact .inl rfl
    · rename_i hn
      obtain ⟨e, hheld⟩ := Option.isSome_iff_exists.1 (hno.resolve_left hn)
      rw [hheld]
      exact .inr ⟨e, rfl⟩
  · rename_i hask
    obtain ⟨hn, hheld⟩ := not_or.1 hask
    have hheld : c.stream.held = none := by simpa using hheld
    have hclear : c.Conveys (c.update ({ · with failed := false })) [] [] :=
      (Conveys.refl h).noted rfl rfl rfl rfl rfl
    simp only [readLine, if_neg hn, hheld, takeLine]
    obtain ⟨hrounds, hlen, -, -⟩ :=
      conveys_takeLineRounds hclear.calm (LineBuffer.sizeFor max - 1) (LineBuffer.sizeFor max - 1)
    have hline := hclear.trans hrounds
    generalize takeLineRounds (LineBuffer.sizeFor max - 1) (c.update ({ · with failed := false }))
      (LineBuffer.sizeFor max - 1) = r at hlen hline
    obtain ⟨q, line⟩ := r
    dsimp only at hline hlen ⊢
    have hsize : line.length < LineBuffer.sizeFor max := by
      have : 0 < LineBuffer.sizeFor max := by
        simp only [LineBuffer.sizeFor]
        omega
      omega
    cases hcut : q.stream.failed && decide (q.system.lastError ≠ .wouldBlock) with
    | true =>
      simp only [Bool.or_true, if_true]
      split <;> exact hline.noted rfl rfl rfl rfl rfl
    | false =>
      rw [Bool.or_false, if_neg Bool.false_ne_true, List.append_nil]
      cases hnil : line.isEmpty with
      | true =>
        rw [List.isEmpty_iff.1 hnil] at hline
        simp only [if_true]
        split <;> exact hline.noted rfl rfl rfl rfl rfl
      | false =>
        simp only [Bool.false_eq_true, if_false, LineBuffer.line_store hsize]
        exact hline.noted rfl rfl rfl rfl rfl

end Connection

/-- What each operation of a run has to tell, in order. -/
def Stream.overRun {α : Type} (f : Connection → Operation → List α) (s : Stream) :
    List (System × Operation) → List α
  | [] => []
  | (sys, op) :: rest => f ⟨s, sys⟩ op ++ (Connection.operate ⟨s, sys⟩ op).1.stream.overRun f rest

theorem Stream.overRun_append {α : Type} (f g : Connection → Operation → List α) (s : Stream)
    (steps : List (System × Operation)) :
    (s.overRun (fun c op => f c op ++ g c op) steps).length =
        (s.overRun f steps).length + (s.overRun g steps).length ∧
      (s.overRun g steps = [] → s.overRun (fun c op => f c op ++ g c op) steps = s.overRun f steps) := by
  induction steps generalizing s with
  | nil => exact ⟨rfl, fun _ => rfl⟩
  | cons step rest ih =>
    obtain ⟨sys, op⟩ := step
    obtain ⟨hlen, hsame⟩ := ih (Connection.operate ⟨s, sys⟩ op).1.stream
    simp only [overRun, List.length_append, hlen, List.append_eq_nil_iff]
    refine ⟨by omega, fun ⟨hnone, hrest⟩ => ?_⟩
    rw [hnone, List.append_nil, hsame hrest]

end BufferedFiles
