import BufferedFiles.Proofs.InputSupply
import BufferedFiles.Proofs.Lasting

/-!
# The stock of a stream

A device with an end has so many bytes to give and no more, even if it is a file that grows while it is
read: no file outgrows a limit, so no more can be read than what lies between the position and the limit.
What is read ahead and what can still be read make the stock of a stream for input. Every byte that is
given out is taken from it, and nothing adds to it.
-/
namespace BufferedFiles

namespace Content

/-- A content that is read to an end. -/
def HasEnd : Content → Prop
  | .zero | .full => False
  | _ => True

/-- How many bytes can be read behind a position where no file outgrows the limit. -/
def stock (content : Content) (limit position : Nat) : Nat :=
  match content with
  | .regular _ => limit - position
  | .pipe queue => queue.length
  | .channel coming _ => coming.length
  | _ => 0

variable {content content' : Content} {bytes : Bytes} {limit position n : Nat} {fed : Bool}

theorem SameKind.hasEnd (h : content.SameKind content') (he : content.HasEnd) : content'.HasEnd := by
  cases content <;> cases content' <;> trivial

/-- What is read is taken from the stock. -/
theorem stock_fetch (he : content.HasEnd) (hsize : content.size ≤ limit)
    (h : content.fetch position n fed = .ok (bytes, content')) :
    content'.stock limit (position + bytes.length) + bytes.length ≤ content.stock limit position := by
  cases content with
  | regular data =>
    cases h
    have hsize : data.length ≤ limit := hsize
    simp only [stock, List.length_take, List.length_drop]
    omega
  | directory => cases h
  | pipe queue =>
    obtain ⟨rfl, rfl⟩ := fetch_pipe h
    simp only [stock, List.length_drop, List.length_take]
    omega
  | channel coming arrivals =>
    obtain ⟨-, htaken, -, rfl⟩ := fetch_channel h
    have hle : bytes.length ≤ coming.length := by
      rw [htaken]
      exact List.length_take_le' _ _
    simp only [stock, List.length_drop]
    omega
  | null =>
    cases h
    exact Nat.le_refl _
  | zero => exact he.elim
  | full => exact he.elim

end Content

namespace System

variable {sys sys' : System} {fd j n limit : Nat} {bytes : Bytes} {d d' : Descriptor} {dev dev' : Device}

/-- What can be read from the device behind a descriptor. -/
def stock (limit : Nat) (sys : System) (fd : Nat) : Nat :=
  match sys.opened? fd with
  | some (d, dev) => dev.content.stock limit d.position
  | none => 0

theorem stock_eq (h : sys.opened? fd = some (d, dev)) :
    sys.stock limit fd = dev.content.stock limit d.position := by
  simp only [stock, h]

/-- The device behind a descriptor has an end. -/
def HasEnd (sys : System) (fd : Nat) : Prop :=
  ∀ d dev, sys.opened? fd = some (d, dev) → dev.content.HasEnd

/-- A descriptor that is open after calls was open before, on the same device. -/
theorem Through.opened_before (h : Through fd sys sys') (ho : sys'.opened? j = some (d', dev')) :
    ∃ d dev, sys.opened? j = some (d, dev) ∧ d'.device = d.device ∧ dev.Becomes dev' := by
  obtain ⟨hd', hdev'⟩ := opened?_eq_some.1 ho
  have hdesc : ∃ d, sys.descriptor? j = some d ∧ d'.device = d.device := by
    by_cases hj : j = fd
    · subst hj
      cases hd : sys.descriptor? j with
      | none =>
        rw [h.absent hd] at hd'
        cases hd'
      | some d =>
        obtain ⟨p, hp⟩ := h.own d hd
        rw [hp] at hd'
        cases hd'
        exact ⟨d, rfl, rfl⟩
    · exact ⟨d', (h.others j hj).symm.trans hd', rfl⟩
  obtain ⟨d, hd, hsame⟩ := hdesc
  rw [hsame] at hdev'
  cases hdev : sys.device? d.device with
  | none =>
    rw [h.missing _ hdev] at hdev'
    cases hdev'
  | some dev =>
    obtain ⟨dev'', hdev'', hb⟩ := h.device _ dev hdev
    rw [hdev'] at hdev''
    cases hdev''
    exact ⟨d, dev, opened?_eq_some.2 ⟨hd, hdev⟩, hsame, hb⟩

theorem HasEnd.through (he : sys.HasEnd j) (h : Through fd sys sys') : sys'.HasEnd j := by
  intro d' dev' ho'
  obtain ⟨d, dev, ho, -, hb⟩ := h.opened_before ho'
  exact hb.kind.hasEnd (he d dev ho)

theorem stock_read (hb : sys.Bounded limit) (he : sys.HasEnd fd)
    (h : sys.read fd n = (sys', .ok bytes)) : sys'.stock limit fd + bytes.length ≤ sys.stock limit fd := by
  cases ho : sys.opened? fd with
  | none =>
    simp only [System.read, ho] at h
    cases h
  | some port =>
    obtain ⟨d, dev⟩ := port
    obtain ⟨-, -, content, hfetch, ho'⟩ := read_ok ho h
    rw [stock_eq ho, stock_eq ho']
    exact Content.stock_fetch (he d dev ho) (hb.size _ dev (opened?_eq_some.1 ho).2) hfetch

theorem stock_read_error {e : Errno} (h : sys.read fd n = (sys', .error e)) :
    sys'.stock limit fd = sys.stock limit fd := by
  cases ho : sys.opened? fd with
  | none =>
    simp only [System.read, ho] at h
    cases h
    rfl
  | some port =>
    obtain ⟨d, dev⟩ := port
    obtain ⟨-, dev', ho', hc, -⟩ := read_error ho h
    rw [stock_eq ho, stock_eq ho', hc]

end System

/-- A stream that was used for input only. -/
structure Stream.Idle (s : Stream) : Prop where
  writing : s.writing = false
  pending : s.pending = []

namespace Connection

variable {a b c c' : Connection} {limit n m : Nat} {bytes : Bytes}

/-- A stream for input on a device with an end, where no file outgrows the limit. -/
structure Finite (limit : Nat) (c : Connection) : Prop where
  idle : c.stream.Idle
  hasEnd : c.system.HasEnd c.stream.fd
  bounded : c.system.Bounded limit

/-- What the stream can still give. -/
def stock (limit : Nat) (c : Connection) : Nat :=
  c.stream.ahead.length + c.system.stock limit c.stream.fd

/-- `b` is `a` after at least `n` bytes were taken from its stock. -/
structure Spends (limit : Nat) (a b : Connection) (n : Nat) : Prop where
  through : a.Through b
  finite : b.Finite limit
  stock : b.stock limit + n ≤ a.stock limit

theorem Spends.refl (h : c.Finite limit) : c.Spends limit c 0 := ⟨.refl c, h, Nat.le_refl _⟩

theorem Spends.trans (h : a.Spends limit b n) (h' : b.Spends limit c m) : a.Spends limit c (n + m) where
  through := h.through.trans h'.through
  finite := h'.finite
  stock := by
    have := h.stock
    have := h'.stock
    omega

theorem Spends.mono (h : a.Spends limit b n) (hm : m ≤ n) : a.Spends limit b m :=
  ⟨h.through, h.finite, Nat.le_trans (Nat.add_le_add_left hm _) h.stock⟩

theorem Spends.then (h : a.Spends limit b 0) (h' : b.Spends limit c n) : a.Spends limit c n :=
  (h.trans h').mono (Nat.le_add_left _ _)

theorem Finite.spends (h : c.Finite limit) (ht : c.Through c') (hb : c'.system.Bounded limit)
    (hidle : c'.stream.Idle) (hs : c'.stock limit + n ≤ c.stock limit) : c.Spends limit c' n :=
  ⟨ht, ⟨hidle, ht.stream.fd ▸ h.hasEnd.through ht.system, hb⟩, hs⟩

/-- A change of what the stream notes down. -/
theorem spends_work (h : c.Finite limit) {s : Stream} (hk : c.stream.Kin s) (hidle : s.Idle)
    (hs : s.ahead.length + n ≤ c.stream.ahead.length)
    (hb : s.bufferSize = c.stream.bufferSize := by rfl) : c.Spends limit ⟨s, c.system⟩ n := by
  refine h.spends (through_work c hk hb) h.bounded hidle ?_
  simp only [stock, hk.fd]
  omega

/-- What is noted down afterwards makes no difference. -/
theorem Spends.noted {f : Stream → Stream} (h : a.Spends limit b n) (hw : (f b.stream).writing = b.stream.writing)
    (hp : (f b.stream).pending = b.stream.pending) (hwin : (f b.stream).window = b.stream.window)
    (hc : (f b.stream).cursor = b.stream.cursor) (hk : b.stream.Kin (f b.stream))
    (hb : (f b.stream).bufferSize = b.stream.bufferSize := by rfl) :
    a.Spends limit (b.update f) n := by
  refine h.trans (spends_work (n := 0) h.finite hk ⟨hw.trans h.finite.idle.writing, hp.trans h.finite.idle.pending⟩ ?_ hb)
  simp only [Stream.ahead, hw, hwin, hc]
  exact Nat.le_refl _

theorem spends_allocate (h : c.Finite limit) : c.Spends limit c.allocate 0 := by
  have hbounded := (steps_allocate c).lasting (System.lasting_bounded limit) h.bounded
  have hstream : c.allocate.stream.ahead = c.stream.ahead ∧ c.allocate.stream.Idle ∧
      c.allocate.system.stock limit c.stream.fd = c.system.stock limit c.stream.fd := by
    unfold allocate
    split
    · exact ⟨rfl, h.idle, rfl⟩
    split
    · exact ⟨rfl, ⟨h.idle.writing, h.idle.pending⟩, rfl⟩
    unfold System.inspect
    cases c.system.opened? c.stream.fd <;> exact ⟨rfl, ⟨h.idle.writing, h.idle.pending⟩, rfl⟩
  obtain ⟨hahead, hidle, hstock⟩ := hstream
  refine h.spends (through_allocate c) hbounded hidle ?_
  rw [stock, stock, (through_allocate c).stream.fd, hahead, hstock]
  omega

/-- A read of the device when the buffer is given up. -/
private theorem spends_of_read (h : c.Finite limit) {sys : System} {r : Except Errno Bytes} {s : Stream}
    (hr : c.system.read c.stream.fd m = (sys, r)) (hk : c.stream.Kin s) (hidle : s.Idle)
    (hs : s.ahead.length + n ≤ (match r with | .ok got => got.length | .error _ => 0))
    (hb : s.bufferSize = c.stream.bufferSize := by rfl) : c.Spends limit ⟨s, sys⟩ n := by
  refine h.spends ⟨hk, (System.through_read _ _ _).of_eq hr, fun _ _ _ => hb⟩
    ((System.lasting_bounded limit).of_read h.bounded hr) hidle ?_
  simp only [stock, hk.fd]
  cases r with
  | error e =>
    rw [System.stock_read_error hr]
    dsimp only at hs
    omega
  | ok got =>
    have hgot := System.stock_read h.bounded h.hasEnd hr
    dsimp only at hs
    omega

theorem spends_fill (h : c.Finite limit) : c.Spends limit c.fill.1 0 := by
  have hend : c.endOutput = (c, true) := by simp [endOutput, h.idle.writing]
  have ha := spends_allocate h
  unfold fill
  simp only [hend]
  split
  · exact .refl h
  split
  · refine h.spends (through_refuse c) (h.bounded.blamed _) ⟨h.idle.writing, h.idle.pending⟩ ?_
    exact Nat.le_refl _
  split <;> rename_i hread <;>
    refine ha.then (spends_of_read ha.finite hread .working
      ⟨ha.finite.idle.writing, rfl⟩ ?_) <;>
    simp [Stream.ahead, Stream.emptied, ha.finite.idle.writing]

theorem spends_readPast (h : c.Finite limit) (n : Nat) :
    c.Spends limit (c.readPast n).1 (c.readPast n).2.length := by
  unfold readPast
  dsimp only
  split <;> rename_i hread <;>
    refine spends_of_read h hread .working ⟨h.idle.writing, rfl⟩ ?_ <;>
    simp [Stream.ahead, Stream.emptied]

theorem spends_skip (h : c.Finite limit) (hn : n ≤ c.stream.ahead.length) :
    c.Spends limit (c.update (·.skip n)) n := by
  refine spends_work h .working ⟨h.idle.writing, h.idle.pending⟩ ?_
  simp only [Stream.ahead, Stream.skip, h.idle.writing, Bool.false_eq_true, if_false, List.length_drop] at hn ⊢
  omega

theorem spends_takeRounds (h : c.Finite limit) (rounds n : Nat) :
    c.Spends limit (takeRounds rounds c n).1 (takeRounds rounds c n).2.length := by
  induction rounds generalizing c n with
  | zero => exact .refl h
  | succ rounds ih =>
    simp only [takeRounds]
    generalize hfound : c.stream.ahead.take n = found
    have hskip : c.Spends limit (c.update (·.skip found.length)) found.length :=
      spends_skip h (by rw [← hfound, List.length_take]; exact Nat.min_le_right _ _)
    generalize c.update (·.skip found.length) = c₁ at hskip
    split
    · exact hskip
    split
    · have hfill := spends_fill hskip.finite
      split <;> rename_i c₂ heq <;> rw [heq] at hfill
      · exact (hskip.trans hfill).mono (Nat.le_refl _)
      · have hrest := ih hfill.finite (n - found.length)
        rw [List.length_append]
        exact hskip.trans (hfill.then hrest)
    · have hread := spends_readPast hskip.finite (c₁.stream.direct (n - found.length))
      split
      · rename_i c₂ heq
        rw [heq] at hread
        exact (hskip.trans hread).mono (Nat.le_refl _)
      · rename_i c₂ got hne heq
        rw [heq] at hread
        have hrest := ih hread.finite (n - found.length - got.length)
        rw [List.length_append, List.length_append]
        exact (hskip.trans hread).trans hrest

theorem spends_takeLineRounds (h : c.Finite limit) (rounds n : Nat) :
    c.Spends limit (takeLineRounds rounds c n).1 (takeLineRounds rounds c n).2.length := by
  induction rounds generalizing c n with
  | zero => exact .refl h
  | succ rounds ih =>
    have hfirst : c.Spends limit (if c.stream.ahead.isEmpty then c.fill else (c, true)).1 0 := by
      split
      · exact spends_fill h
      · exact .refl h
    simp only [takeLineRounds]
    split
    · exact .refl h
    split <;> rename_i c₁ heq <;> rw [heq] at hfirst
    · exact hfirst
    · generalize hfound : firstLine (c₁.stream.ahead.take n) = found
      have hle : found.length ≤ c₁.stream.ahead.length := by
        have hline := (firstLine_isPrefix (c₁.stream.ahead.take n)).length_le
        rw [hfound, List.length_take] at hline
        omega
      have hskip := hfirst.then (spends_skip hfirst.finite hle)
      split
      · exact hskip
      · rw [List.length_append]
        exact hskip.trans (ih hskip.finite _)

/-- A read takes from the stock what it returns. -/
theorem spends_read (h : c.Finite limit) (n : Nat) :
    c.Spends limit (c.read n).1 0 ∧
      ∀ got, (c.read n).2 = .ok got → c.Spends limit (c.read n).1 got.length := by
  have ht := (spends_allocate h).then (spends_takeRounds (spends_allocate h).finite (n + 1) n)
  unfold read
  split
  · exact ⟨.refl h, fun got e => by cases e; exact .refl h⟩
  split
  · refine ⟨spends_work h .working
      ⟨h.idle.writing, h.idle.pending⟩ (Nat.le_refl _), fun got e => by cases e⟩
  rcases htake : c.take n with ⟨c₁, bytes⟩
  have ht : c.Spends limit c₁ bytes.length := by
    have hsame : takeRounds (n + 1) c.allocate n = (c₁, bytes) := htake
    rwa [hsame] at ht
  dsimp only
  split
  · split
    · exact ⟨(ht.noted rfl rfl rfl rfl .working).mono (Nat.zero_le _), nofun⟩
    · have hnoted : c.Spends limit (c₁.update fun s => { s.settled with held := some (c₁.failure "fread") })
          bytes.length := ht.noted rfl rfl rfl rfl .working
      exact ⟨hnoted.mono (Nat.zero_le _), fun got e => by cases e; exact hnoted⟩
  · exact ⟨ht.mono (Nat.zero_le _), fun got e => by cases e; exact ht⟩

/-- A line is no empty one, and what was taken for it is gone even where it is not given out. -/
theorem spends_takeLine (h : c.Finite limit) (n : Nat) :
    c.Spends limit (c.takeLine n).1 ((c.takeLine n).2.getD []).length ∧ (c.takeLine n).2 ≠ some [] := by
  have hclear : c.Spends limit (c.update ({ · with failed := false })) 0 :=
    (Spends.refl h).noted rfl rfl rfl rfl .working
  have hrounds := hclear.then (spends_takeLineRounds hclear.finite n n)
  unfold takeLine
  generalize takeLineRounds n (c.update ({ · with failed := false })) n = r at hrounds
  obtain ⟨q, line⟩ := r
  have hnoted : c.Spends limit (q.update fun s => { s with failed := s.failed || c.stream.failed }) line.length :=
    hrounds.noted rfl rfl rfl rfl .working
  dsimp only
  split
  · exact ⟨hnoted.mono (Nat.zero_le _), nofun⟩
  · rename_i hline
    refine ⟨hnoted, fun hnil => hline ?_⟩
    rw [Option.some.inj hnil]
    rfl

/-- A line takes something from the stock, if it is one. -/
theorem spends_readLine (h : c.Finite limit) (max : Nat) :
    c.Spends limit (c.readLine max).1 0 ∧
      ∀ got, (c.readLine max).2 = .ok got → got ≠ [] → c.Spends limit (c.readLine max).1 1 := by
  unfold readLine
  split
  · exact ⟨.refl h, fun got e hne => by cases e; exact absurd rfl hne⟩
  split
  · exact ⟨spends_work h .working
      ⟨h.idle.writing, h.idle.pending⟩ (Nat.le_refl _), fun got e => by cases e⟩
  obtain ⟨ht, hline⟩ := spends_takeLine h (LineBuffer.sizeFor max - 1)
  dsimp only
  generalize c.takeLine (LineBuffer.sizeFor max - 1) = r at ht hline
  obtain ⟨c₁, _ | line⟩ := r
  · dsimp only
    split
    · exact ⟨ht.noted rfl rfl rfl rfl .working, nofun⟩
    · exact ⟨ht, fun got e hne => by cases e; exact absurd rfl hne⟩
  · refine ⟨ht.mono (Nat.zero_le _), fun got e _ => ht.mono ?_⟩
    exact List.length_pos_iff.2 fun hnil => hline (congrArg some hnil)

end Connection

end BufferedFiles
