import BufferedFiles.Proofs.LastError
import BufferedFiles.Proofs.Separation

/-!
# What an operation can tell

An operation of a stream looks at the descriptor of the stream, the device behind it and the ends of a
pipe, and at nothing else of the system. Where these are the same, it does the same. The last error is no
exception: an operation that fails has put its own there, and what one that does not fail leaves there is what
it found.
-/
namespace BufferedFiles

namespace System

variable {α : Type} {fd : Nat} {a b a' b' a'' b'' : System} {q r : Prop}

/-- What calls on the descriptor `fd` can tell of two systems is the same. -/
structure SameFor (fd : Nat) (a b : System) : Prop extends SameAt fd a b where
  descriptor : b.descriptor? fd = a.descriptor? fd

theorem SameFor.refl (fd : Nat) (a : System) : SameFor fd a a := ⟨.refl fd a, rfl⟩

theorem SameFor.symm (h : SameFor fd a b) : SameFor fd b a where
  opened := h.opened.symm
  largestOffset := h.largestOffset.symm
  ends d dev p ho hp := (h.ends d dev p (h.opened.symm.trans ho) hp).symm
  descriptor := h.descriptor.symm

theorem SameFor.trans {c : System} (h : SameFor fd a b) (h' : SameFor fd b c) : SameFor fd a c :=
  ⟨h.toSameAt.trans h'.toSameAt, h'.descriptor.trans h.descriptor⟩

theorem Through.sameFor {j : Nat} (h : Through j a b) (hapart : a.Apart fd j) : SameFor fd a b :=
  ⟨h.sameAt hapart, h.others fd hapart.fds⟩

theorem Drops.sameFor {j : Nat} (h : Drops j a b) (hapart : a.Apart fd j) : SameFor fd a b :=
  ⟨h.sameAt hapart, h.others fd hapart.fds⟩

/-- The last error is not told. -/
theorem SameFor.withErrors (h : SameFor fd a b) (e e' : Errno) :
    SameFor fd { a with lastError := e } { b with lastError := e' } :=
  ⟨⟨h.opened, h.largestOffset, h.ends⟩, h.descriptor⟩

/-- What a call has left of `a` and of `b`: what it can tell is the same. So is the last error, or else
it is what it was, and then `q` holds. -/
def Agree (fd : Nat) (a b : System) (q : Prop) (a' b' : System) : Prop :=
  SameFor fd a' b' ∧
    (b'.lastError = a'.lastError ∨ (a'.lastError = a.lastError ∧ b'.lastError = b.lastError) ∧ q)

theorem Agree.still (h : SameFor fd a b) (hq : q) : Agree fd a b q a b := ⟨h, .inr ⟨⟨rfl, rfl⟩, hq⟩⟩

/-- A failure leaves the same error. -/
theorem Agree.failed (h : SameFor fd a' b') (e : Errno) :
    Agree fd a b q { a' with lastError := e } { b' with lastError := e } :=
  ⟨h.withErrors e e, .inl rfl⟩

theorem Agree.imp (h : Agree fd a b q a' b') (hqr : q → r) : Agree fd a b r a' b' :=
  ⟨h.1, h.2.imp_right (And.imp_right hqr)⟩

theorem Agree.trans {fd' : Nat} (h : Agree fd a b q a' b') (h' : Agree fd' a' b' r a'' b'') :
    Agree fd' a b (q ∧ r) a'' b'' := by
  refine ⟨h'.1, ?_⟩
  rcases h'.2 with hsame | ⟨⟨ha', hb'⟩, hr⟩
  · exact .inl hsame
  rcases h.2 with hsame | ⟨⟨ha, hb⟩, hq⟩
  · exact .inl (by rw [hb', ha', hsame])
  · exact .inr ⟨⟨ha'.trans ha, hb'.trans hb⟩, hq, hr⟩

/-- Two answers to one call are the same; `quiet` holds of those that leave the last error alone. -/
def Answers (fd : Nat) (a b : System) (quiet : α → Prop) (p q : System × α) : Prop :=
  ∃ b', q = (b', p.2) ∧ Agree fd a b (quiet p.2) p.1 b'

/-- A call that fails moves no descriptor. -/
private theorem SameFor.fault {d : Descriptor} {dev : Device} (h : SameFor fd a b)
    (ho : a.opened? fd = some (d, dev)) (dev' : Device) (e : Errno) :
    Answers fd a b (fun r : Except Errno α => r.isOk) ((a.setDevice d.device dev').fail e)
      ((b.setDevice d.device dev').fail e) := by
  have ho' : b.opened? fd = some (d, dev) := h.opened.trans ho
  refine ⟨_, rfl, ⟨⟨?_, h.largestOffset, fun d' dev'' p hd hp => ?_⟩, h.descriptor⟩, .inl rfl⟩
  · exact (opened?_withDevice ho' dev').trans (opened?_withDevice ho dev').symm
  · cases (opened?_withDevice ho dev').symm.trans hd
    exact h.ends d dev p ho hp

/-- A call that is done moves its own descriptor. -/
private theorem SameFor.done {d : Descriptor} {dev : Device} (h : SameFor fd a b)
    (ho : a.opened? fd = some (d, dev)) (dev' : Device) (position : Nat) (v : α) :
    Answers fd a b (fun r : Except Errno α => r.isOk)
      ((a.setDevice d.device dev').setDescriptor fd (some { d with position }), .ok v)
      ((b.setDevice d.device dev').setDescriptor fd (some { d with position }), .ok v) := by
  have ho' : b.opened? fd = some (d, dev) := h.opened.trans ho
  have hoa := opened?_ofPort ho dev' position
  have hob := opened?_ofPort ho' dev' position
  have hends : ∀ p : Descriptor → Bool, (∀ d q, p { d with position := q } = p d) →
      (b.setDescriptor fd (some { d with position })).anyDescriptor d.device p =
        (a.setDescriptor fd (some { d with position })).anyDescriptor d.device p := by
    intro p hp
    have hta := (Through.ofPort ho (.refl dev) position).anyDescriptor (i := d.device) hp
    have htb := (Through.ofPort ho' (.refl dev) position).anyDescriptor (i := d.device) hp
    exact htb.trans ((h.ends d dev p ho hp).trans hta.symm)
  refine ⟨_, rfl, ⟨⟨hob.trans hoa.symm, h.largestOffset, fun d' dev'' p hd hp => ?_⟩, ?_⟩,
    .inr ⟨⟨rfl, rfl⟩, rfl⟩⟩
  · cases hoa.symm.trans hd
    exact hends p hp
  · exact (opened?_eq_some.1 hob).1.trans (opened?_eq_some.1 hoa).1.symm

theorem read_answers (h : SameFor fd a b) (n : Nat) :
    Answers fd a b (·.isOk) (a.read fd n) (b.read fd n) := by
  unfold read
  rw [h.opened]
  cases ho : a.opened? fd with
  | none => exact ⟨_, rfl, .failed h _⟩
  | some port =>
    obtain ⟨d, dev⟩ := port
    dsimp only
    rw [h.ends d dev _ ho fun _ _ => rfl]
    split
    · exact ⟨_, rfl, .failed h _⟩
    split
    · exact ⟨_, rfl, .failed h _⟩
    split
    · exact h.fault ho _ _
    split
    · exact h.fault ho _ _
    · exact h.done ho _ _ _

theorem write_answers (h : SameFor fd a b) (bytes : Bytes) :
    Answers fd a b (·.isOk) (a.write fd bytes) (b.write fd bytes) := by
  unfold write
  rw [h.opened]
  cases ho : a.opened? fd with
  | none => exact ⟨_, rfl, .failed h _⟩
  | some port =>
    obtain ⟨d, dev⟩ := port
    dsimp only
    rw [h.ends d dev _ ho fun _ _ => rfl, h.largestOffset]
    split
    · exact ⟨_, rfl, .failed h _⟩
    split
    · exact ⟨_, rfl, .failed h _⟩
    split
    · exact h.fault ho _ _
    split
    · exact h.fault ho _ _
    · exact h.done ho _ _ _

theorem seek_answers (h : SameFor fd a b) (origin : Origin) (offset : Int) :
    Answers fd a b (·.isOk) (a.seek fd origin offset) (b.seek fd origin offset) := by
  unfold seek
  rw [h.opened]
  cases ho : a.opened? fd with
  | none => exact ⟨_, rfl, .failed h _⟩
  | some port =>
    obtain ⟨d, dev⟩ := port
    have hset : ∀ sys : System, sys.opened? fd = some (d, dev) → sys.setDevice d.device dev = sys := by
      intro sys ho
      have hget := List.getElem?_eq_some_iff.1 (opened?_eq_some.1 ho).2
      obtain ⟨hlt, hval⟩ := hget
      simp only [setDevice, ← hval, List.set_getElem_self]
    have hdone := fun position (v : Nat) => h.done ho dev position v
    rw [hset a ho, hset b (h.opened.trans ho)] at hdone
    dsimp only
    rw [h.largestOffset]
    split
    · exact ⟨_, rfl, .failed h _⟩
    · exact ⟨_, rfl, .failed h _⟩
    · exact hdone 0 0
    · exact hdone 0 0
    · exact hdone 0 0
    · cases origin <;>
      · dsimp only
        split
        · exact hdone _ _
        · exact ⟨_, rfl, .failed h _⟩

theorem inspect_answers (h : SameFor fd a b) :
    Answers fd a b (·.isOk) (a.inspect fd) (b.inspect fd) := by
  unfold inspect
  rw [h.opened]
  cases a.opened? fd with
  | none => exact ⟨_, rfl, .failed h _⟩
  | some port => exact ⟨_, rfl, .still h rfl⟩

theorem close_answers (h : SameFor fd a b) :
    Answers fd a b (·.isOk) (a.close fd) (b.close fd) := by
  have hgone := fun sys : System => (sys.drops_close fd).1.gone
  have hopened : ∀ sys : System, (sys.close fd).1.opened? fd = none := fun sys => by
    rw [opened?, hgone sys]
  have hsame : SameFor fd (a.close fd).1 (b.close fd).1 := by
    refine ⟨⟨(hopened b).trans (hopened a).symm, ?_, fun d dev p ho _ => ?_⟩, (hgone b).trans (hgone a).symm⟩
    · rw [(a.drops_close fd).1.largestOffset, (b.drops_close fd).1.largestOffset, h.largestOffset]
    · rw [hopened a] at ho
      cases ho
  refine ⟨(b.close fd).1, ?_, hsame, ?_⟩ <;> unfold close <;> rw [h.descriptor] <;>
    cases a.descriptor? fd
  · rfl
  · rfl
  · exact .inl rfl
  · exact .inr ⟨⟨rfl, rfl⟩, rfl⟩

/-- A write that is not counted in full ends with a failure. -/
theorem writeAll_answers {fuel : Nat} (h : SameFor fd a b) (bytes : Bytes) (hfuel : bytes.length ≤ fuel) :
    Answers fd a b (· = bytes.length) (writeAll fd fuel a bytes) (writeAll fd fuel b bytes) := by
  induction fuel generalizing a b bytes with
  | zero => exact ⟨b, rfl, .still h (Nat.le_zero.1 hfuel).symm⟩
  | succ fuel ih =>
    simp only [writeAll]
    split
    · rename_i hnil
      rw [List.isEmpty_iff] at hnil
      exact ⟨b, rfl, .still h (by rw [hnil]; rfl)⟩
    rename_i hne
    obtain ⟨b₁, e, ha⟩ := write_answers h bytes
    rw [e]
    rcases hw : a.write fd bytes with ⟨a₁, x | n⟩ <;> rw [hw] at ha
    · exact ⟨b₁, rfl, ha.imp fun hok => by cases hok⟩
    · obtain ⟨hle, hpos⟩ := write_count hw
      have hn := hpos (by simpa using hne)
      have hlen : (bytes.drop n).length = bytes.length - n := List.length_drop
      obtain ⟨b₂, e, ha'⟩ := ih ha.1 (bytes.drop n) (by omega)
      dsimp only at e ha' ⊢
      rw [e]
      exact ⟨b₂, rfl, (ha.trans ha').imp fun hall => by dsimp only; omega⟩

end System

namespace Connection

variable {α : Type} {c : Connection} {b : System}

/-- What is left of a connection, and of its stream in `b`. -/
def Tallies (c : Connection) (b : System) (q : Prop) (c₁ : Connection) (b₁ : System) : Prop :=
  System.Agree c₁.stream.fd c.system b (c₁.stream.failed = c.stream.failed ∧ q) c₁.system b₁

/-- Two outcomes of one operation, one in the system of `c` and one in `b`: the stream and the result are
the same. The last error is so too, or else it is what it was, and then the indicator is what it was, and
the result is `quiet`. -/
def Concurs (c : Connection) (b : System) (quiet : α → Prop) (p q : Connection × α) : Prop :=
  ∃ b', q = (⟨p.1.stream, b'⟩, p.2) ∧ c.Tallies b (quiet p.2) p.1 b'

theorem Tallies.trans {q q' : Prop} {c₁ c₂ : Connection} {b₁ b₂ : System} (h : c.Tallies b q c₁ b₁)
    (h' : c₁.Tallies b₁ q' c₂ b₂) : c.Tallies b (q ∧ q') c₂ b₂ :=
  (System.Agree.trans h h').imp fun ⟨⟨h₁, hq⟩, h₂, hq'⟩ => ⟨h₂.trans h₁, hq, hq'⟩

theorem Tallies.imp {q q' : Prop} {c₁ : Connection} {b₁ : System} (h : c.Tallies b q c₁ b₁)
    (hq : q → q') : c.Tallies b q' c₁ b₁ :=
  System.Agree.imp h (And.imp_right hq)

theorem allocate_tallies (h : System.SameFor c.stream.fd c.system b) :
    ∃ b', allocate ⟨c.stream, b⟩ = ⟨c.allocate.stream, b'⟩ ∧ c.Tallies b True c.allocate b' := by
  unfold allocate
  dsimp only
  split
  · exact ⟨b, rfl, .still h ⟨rfl, trivial⟩⟩
  split
  · exact ⟨b, rfl, .still h ⟨rfl, trivial⟩⟩
  obtain ⟨b', e, ha⟩ := System.inspect_answers h
  rw [e]
  rcases hi : c.system.inspect c.stream.fd with ⟨a', x | dev⟩ <;> rw [hi] at ha
  · exact ⟨b', rfl, ha.imp fun hok => by cases hok⟩
  · exact ⟨b, rfl, .still h ⟨rfl, trivial⟩⟩

theorem refuse_tallies (h : System.SameFor c.stream.fd c.system b) (q : Prop) :
    c.Tallies b q c.refuse { b with lastError := .badDescriptor } :=
  .failed h .badDescriptor

theorem concurs_align (h : System.SameFor c.stream.fd c.system b) :
    c.Concurs b (· = true) c.align (align ⟨c.stream, b⟩) := by
  unfold align
  dsimp only
  split
  · exact ⟨b, rfl, .still h ⟨rfl, rfl⟩⟩
  split
  · exact ⟨b, rfl, .still h ⟨rfl, rfl⟩⟩
  obtain ⟨b', e, ha⟩ := System.seek_answers h .current (c.stream.cursor - c.stream.window.length)
  rw [e]
  generalize c.system.seek c.stream.fd .current (c.stream.cursor - c.stream.window.length) = r at ha ⊢
  rcases r with ⟨a', x | position⟩
  · exact ⟨b', rfl, ha.imp fun hok => by cases hok⟩
  · exact ⟨b', rfl, ha.imp fun _ => ⟨rfl, rfl⟩⟩

theorem concurs_send (h : System.SameFor c.stream.fd c.system b) (bytes : Bytes) :
    c.Concurs b (· = bytes.length) (c.send bytes) (send ⟨c.stream, b⟩ bytes) := by
  unfold send
  obtain ⟨b₁, e, ha⟩ := concurs_align h
  rw [e]
  generalize c.align = r at ha ⊢
  rcases r with ⟨c₁, _ | _⟩
  · exact ⟨b₁, rfl, ha.imp fun hok => by cases hok⟩
  · obtain ⟨b₂, e₂, ha₂⟩ := System.writeAll_answers ha.1 bytes (Nat.le_refl bytes.length)
    dsimp only at e₂ ha₂ ⊢
    rw [e₂]
    refine ⟨b₂, rfl, (System.Agree.trans ha ha₂).imp ?_⟩
    rintro ⟨⟨hfailed, -⟩, hall⟩
    refine ⟨?_, hall⟩
    simp only [Stream.handedOn, Stream.emptied, hall, Nat.lt_irrefl, decide_false, Bool.or_false]
    exact hfailed

theorem concurs_drain (h : System.SameFor c.stream.fd c.system b) :
    c.Concurs b (· = true) c.drain (drain ⟨c.stream, b⟩) := by
  unfold drain
  dsimp only
  split
  · exact ⟨b, rfl, .still h ⟨rfl, rfl⟩⟩
  obtain ⟨b₁, e, ha⟩ := concurs_send h c.stream.pending
  rw [e]
  exact ⟨b₁, rfl, ha.imp fun hall => beq_iff_eq.2 hall⟩

theorem concurs_makeRoom (h : System.SameFor c.stream.fd c.system b) :
    c.Concurs b (· = true) c.makeRoom (makeRoom ⟨c.stream, b⟩) := by
  unfold makeRoom
  dsimp only
  split
  · exact ⟨_, rfl, refuse_tallies h _⟩
  obtain ⟨b₁, e, ha⟩ := allocate_tallies h
  rw [e]
  generalize c.allocate = c₁ at ha ⊢
  have hturn : ∃ c₂ : Connection, (if c₁.stream.writing then c₁ else c₁.update Stream.turned) = c₂ ∧
      (if c₁.stream.writing then (⟨c₁.stream, b₁⟩ : Connection) else update ⟨c₁.stream, b₁⟩ Stream.turned) =
        ⟨c₂.stream, b₁⟩ ∧ c₁.Tallies b₁ True c₂ b₁ := by
    split
    · exact ⟨_, rfl, rfl, .still ha.1 ⟨rfl, trivial⟩⟩
    · refine ⟨_, rfl, rfl, ?_⟩
      unfold update Stream.turned
      split <;> exact .still ha.1 ⟨rfl, trivial⟩
  obtain ⟨c₂, hc₂, hb₂, hs⟩ := hturn
  dsimp only
  rw [hc₂, hb₂]
  obtain ⟨b₃, e₃, ha₃⟩ := concurs_drain hs.1
  exact ⟨b₃, e₃, ((ha.trans hs).trans ha₃).imp And.right⟩

/-- A change of the buffer, with an operation after it. -/
theorem concurs_put (h : System.SameFor c.stream.fd c.system b) (byte : UInt8) :
    c.Concurs b (· = true) (c.put byte) (put ⟨c.stream, b⟩ byte) := by
  have hfirst : c.Concurs b (· = true)
      (if c.stream.filled = c.stream.capacity then c.drain else (c, true))
      (if c.stream.filled = c.stream.capacity then drain ⟨c.stream, b⟩ else (⟨c.stream, b⟩, true)) := by
    split
    · exact concurs_drain h
    · exact ⟨b, rfl, .still h ⟨rfl, rfl⟩⟩
  unfold put
  obtain ⟨b₁, e, ha⟩ := hfirst
  dsimp only
  rw [e]
  generalize (if c.stream.filled = c.stream.capacity then c.drain else (c, true)) = r at ha ⊢
  rcases r with ⟨c₁, _ | _⟩
  · exact ⟨b₁, rfl, ha.imp fun hok => by cases hok⟩
  have hlast : ∀ (q : Connection) (sys : System), System.SameFor q.stream.fd q.system sys →
      q.Concurs sys (· = true)
        (if q.stream.discipline = .unbuffered || (q.stream.discipline = .line && byte = newline) then q.drain
          else (q, true))
        (if q.stream.discipline = .unbuffered || (q.stream.discipline = .line && byte = newline) then
          drain ⟨q.stream, sys⟩ else (⟨q.stream, sys⟩, true)) := by
    intro q sys hq
    split
    · exact concurs_drain hq
    · exact ⟨sys, rfl, .still hq ⟨rfl, rfl⟩⟩
  obtain ⟨b₂, e₂, ha₂⟩ := hlast (c₁.update fun s => { s with pending := s.pending ++ [byte] }) b₁ ha.1
  exact ⟨b₂, e₂, (Tallies.trans (c := c) ha ha₂).imp And.right⟩

theorem concurs_putAll (h : System.SameFor c.stream.fd c.system b) (bytes : Bytes) :
    c.Concurs b (· = bytes.length) (c.putAll bytes) (putAll ⟨c.stream, b⟩ bytes) := by
  induction bytes generalizing c b with
  | nil => exact ⟨b, rfl, .still h ⟨rfl, rfl⟩⟩
  | cons byte rest ih =>
    simp only [putAll]
    obtain ⟨b₁, e, ha⟩ := concurs_put h byte
    rw [e]
    generalize c.put byte = r at ha ⊢
    rcases r with ⟨c₁, _ | _⟩
    · exact ⟨b₁, rfl, ha.imp fun hok => by cases hok⟩
    · obtain ⟨b₂, e₂, ha₂⟩ := ih ha.1
      dsimp only
      rw [e₂]
      exact ⟨b₂, rfl, (ha.trans ha₂).imp fun hall => congrArg (· + 1) hall.2⟩

theorem concurs_gather (h : System.SameFor c.stream.fd c.system b) (bytes : Bytes) :
    c.Concurs b (· = bytes.length) (c.gather bytes) (gather ⟨c.stream, b⟩ bytes) := by
  unfold gather
  dsimp only [update]
  generalize hn : min (c.stream.limit - c.stream.filled) bytes.length = n
  obtain ⟨b₁, e, ha⟩ := concurs_putAll
    (c := c.update fun s => { s with pending := s.pending ++ bytes.take n }) (b := b) h (bytes.drop n)
  dsimp only [update] at e ha
  rw [e]
  refine ⟨b₁, rfl, ha.imp fun hall => ?_⟩
  rw [List.length_drop] at hall
  dsimp only
  omega

theorem concurs_passOver (h : System.SameFor c.stream.fd c.system b) (bytes : Bytes) :
    c.Concurs b (· = bytes.length) (c.passOver bytes) (passOver ⟨c.stream, b⟩ bytes) := by
  have hle : c.stream.direct bytes.length ≤ bytes.length := by
    unfold Stream.direct
    split <;> omega
  unfold passOver
  dsimp only
  split
  · exact concurs_gather h bytes
  generalize c.stream.direct bytes.length = n at hle ⊢
  obtain ⟨b₁, e, ha⟩ := concurs_send h (bytes.take n)
  rw [e]
  generalize c.send (bytes.take n) = r at ha ⊢
  obtain ⟨c₁, m⟩ := r
  have hlen : (bytes.take n).length = n := List.length_take_of_le hle
  dsimp only at ha ⊢
  split
  · exact ⟨b₁, rfl, ha.imp fun hall => by omega⟩
  · obtain ⟨b₂, e₂, ha₂⟩ := concurs_gather ha.1 (bytes.drop n)
    rw [e₂]
    refine ⟨b₂, rfl, (ha.trans ha₂).imp fun hall => ?_⟩
    have hrest := hall.2
    rw [List.length_drop] at hrest
    dsimp only
    omega

theorem concurs_accept (h : System.SameFor c.stream.fd c.system b) (bytes : Bytes) :
    c.Concurs b (· = bytes.length) (c.accept bytes) (accept ⟨c.stream, b⟩ bytes) := by
  unfold accept
  dsimp only [update]
  generalize hn : min (c.stream.room bytes).1 bytes.length = n
  split
  · rename_i hall
    simp only [Bool.and_eq_true, decide_eq_true_eq] at hall
    exact ⟨b, rfl, .still h ⟨rfl, hall.1⟩⟩
  obtain ⟨b₁, e, ha⟩ := concurs_makeRoom
    (c := c.update fun s => { s with pending := s.pending ++ bytes.take n }) (b := b) h
  dsimp only [update] at e ha
  rw [e]
  generalize makeRoom ⟨{ c.stream with pending := c.stream.pending ++ bytes.take n }, c.system⟩ = r at ha ⊢
  rcases r with ⟨c₁, _ | _⟩
  · exact ⟨b₁, rfl, ha.imp fun hok => by cases hok⟩
  obtain ⟨b₂, e₂, ha₂⟩ := concurs_passOver ha.1 (bytes.drop n)
  dsimp only
  rw [e₂]
  refine ⟨b₂, rfl, (Tallies.trans (c := c) ha ha₂).imp fun hall => ?_⟩
  have hrest : (c₁.passOver (bytes.drop n)).2 = (bytes.drop n).length := hall.2
  rw [List.length_drop] at hrest
  dsimp only
  omega

theorem concurs_endOutput (h : System.SameFor c.stream.fd c.system b) :
    c.Concurs b (· = true) c.endOutput (endOutput ⟨c.stream, b⟩) := by
  unfold endOutput
  dsimp only
  split
  · exact ⟨b, rfl, .still h ⟨rfl, rfl⟩⟩
  obtain ⟨b₁, e, ha⟩ := concurs_drain h
  rw [e]
  generalize c.drain = r at ha ⊢
  rcases r with ⟨c₁, _ | _⟩
  · exact ⟨b₁, rfl, ha⟩
  · exact ⟨b₁, rfl, ha⟩

theorem concurs_fill (h : System.SameFor c.stream.fd c.system b) :
    c.Concurs b (fun _ => True) c.fill (fill ⟨c.stream, b⟩) := by
  unfold fill
  obtain ⟨b₁, e, ha⟩ := concurs_endOutput h
  rw [e]
  generalize c.endOutput = r at ha ⊢
  rcases r with ⟨c₁, _ | _⟩
  · exact ⟨b₁, rfl, ha.imp fun _ => trivial⟩
  dsimp only
  split
  · exact ⟨b₁, rfl, ha.imp fun _ => trivial⟩
  split
  · exact ⟨_, rfl, (ha.trans (refuse_tallies ha.1 True)).imp And.right⟩
  obtain ⟨b₂, e₂, ha₂⟩ := allocate_tallies ha.1
  rw [e₂]
  obtain ⟨b₃, e₃, ha₃⟩ := System.read_answers ha₂.1 c₁.allocate.stream.capacity
  dsimp only
  rw [e₃]
  generalize c₁.allocate.system.read c₁.allocate.stream.fd c₁.allocate.stream.capacity = r at ha₃ ⊢
  have hread := System.Agree.trans (ha.trans ha₂) ha₃
  rcases r with ⟨a₃, x | _ | ⟨byte, bytes⟩⟩
  · exact ⟨b₃, rfl, hread.imp fun hok => by cases hok.2⟩
  · exact ⟨b₃, rfl, hread.imp fun hok => ⟨hok.1.1, trivial⟩⟩
  · exact ⟨b₃, rfl, hread.imp fun hok => ⟨hok.1.1, trivial⟩⟩

theorem concurs_readPast (h : System.SameFor c.stream.fd c.system b) (n : Nat) :
    c.Concurs b (fun _ => True) (c.readPast n) (readPast ⟨c.stream, b⟩ n) := by
  unfold readPast
  dsimp only [Stream.emptied]
  obtain ⟨b₁, e, ha⟩ := System.read_answers h n
  rw [e]
  generalize c.system.read c.stream.fd n = r at ha ⊢
  rcases r with ⟨a₁, x | _ | ⟨byte, bytes⟩⟩
  · exact ⟨b₁, rfl, ha.imp fun hok => by cases hok⟩
  · exact ⟨b₁, rfl, ha.imp fun _ => ⟨rfl, trivial⟩⟩
  · exact ⟨b₁, rfl, ha.imp fun _ => ⟨rfl, trivial⟩⟩

theorem concurs_takeRounds (rounds : Nat) (h : System.SameFor c.stream.fd c.system b) (n : Nat) :
    c.Concurs b (fun _ => True) (takeRounds rounds c n) (takeRounds rounds ⟨c.stream, b⟩ n) := by
  induction rounds generalizing c b n with
  | zero => exact ⟨b, rfl, .still h ⟨rfl, trivial⟩⟩
  | succ rounds ih =>
    unfold takeRounds
    dsimp only [update]
    generalize c.stream.ahead.take n = found
    generalize hc : c.update (·.skip found.length) = c₀
    have h₀ : System.SameFor c₀.stream.fd c₀.system b := by rw [← hc]; exact h
    have hstart : c.Tallies b True c₀ b := by rw [← hc]; exact .still h ⟨rfl, trivial⟩
    rw [show c.stream.skip found.length = c₀.stream by rw [← hc]; rfl,
      show c.system = c₀.system by rw [← hc]; rfl]
    split
    · exact ⟨b, rfl, hstart⟩
    split
    · -- The window is filled, and the rounds after it take up what the fill left.
      obtain ⟨b₁, e, ha⟩ := concurs_fill h₀
      rw [e]
      generalize c₀.fill = r at ha ⊢
      have hfill := hstart.trans ha
      rcases r with ⟨c₁, _ | _⟩
      · exact ⟨b₁, rfl, hfill.imp fun _ => trivial⟩
      obtain ⟨b₂, e₂, ha₂⟩ := ih ha.1 (n - found.length)
      dsimp only
      rw [e₂]
      exact ⟨b₂, rfl, (hfill.trans ha₂).imp fun _ => trivial⟩
    · obtain ⟨b₁, e, ha⟩ := concurs_readPast h₀ (c₀.stream.direct (n - found.length))
      rw [e]
      generalize c₀.readPast (c₀.stream.direct (n - found.length)) = r at ha ⊢
      have hread := hstart.trans ha
      rcases r with ⟨c₁, _ | ⟨byte, bytes⟩⟩
      · exact ⟨b₁, rfl, hread.imp fun _ => trivial⟩
      obtain ⟨b₂, e₂, ha₂⟩ := ih ha.1 (n - found.length - (byte :: bytes).length)
      dsimp only
      rw [e₂]
      exact ⟨b₂, rfl, (hread.trans ha₂).imp fun _ => trivial⟩

theorem concurs_take (h : System.SameFor c.stream.fd c.system b) (n : Nat) :
    c.Concurs b (fun _ => True) (c.take n) (take ⟨c.stream, b⟩ n) := by
  unfold take
  obtain ⟨b₁, e, ha⟩ := allocate_tallies h
  rw [e]
  obtain ⟨b₂, e₂, ha₂⟩ := concurs_takeRounds (n + 1) ha.1 n
  exact ⟨b₂, e₂, (ha.trans ha₂).imp fun _ => trivial⟩

theorem concurs_takeLineRounds (rounds : Nat) (h : System.SameFor c.stream.fd c.system b) (n : Nat) :
    c.Concurs b (fun _ => True) (takeLineRounds rounds c n) (takeLineRounds rounds ⟨c.stream, b⟩ n) := by
  induction rounds generalizing c b n with
  | zero => exact ⟨b, rfl, .still h ⟨rfl, trivial⟩⟩
  | succ rounds ih =>
    have hfirst : c.Concurs b (fun _ => True) (if c.stream.ahead.isEmpty then c.fill else (c, true))
        (if c.stream.ahead.isEmpty then fill ⟨c.stream, b⟩ else (⟨c.stream, b⟩, true)) := by
      split
      · exact concurs_fill h
      · exact ⟨b, rfl, .still h ⟨rfl, trivial⟩⟩
    unfold takeLineRounds
    split
    · exact ⟨b, rfl, .still h ⟨rfl, trivial⟩⟩
    obtain ⟨b₁, e, ha⟩ := hfirst
    dsimp only
    rw [e]
    generalize (if c.stream.ahead.isEmpty then c.fill else (c, true)) = r at ha ⊢
    rcases r with ⟨c₁, _ | _⟩
    · exact ⟨b₁, rfl, ha⟩
    dsimp only [update]
    generalize firstLine (c₁.stream.ahead.take n) = found
    split
    · exact ⟨b₁, rfl, ha⟩
    · obtain ⟨b₂, e₂, ha₂⟩ := ih (c := c₁.update (·.skip found.length)) (b := b₁) ha.1 (n - found.length)
      dsimp only [update] at e₂ ha₂
      rw [e₂]
      exact ⟨b₂, rfl, (ha.trans ha₂).imp fun _ => trivial⟩

/-- A line is looked at together with the last error only where the device failed, and then the last error
is of that failure. -/
theorem concurs_takeLine (h : System.SameFor c.stream.fd c.system b) (n : Nat) :
    c.Concurs b (fun _ => True) (c.takeLine n) (takeLine ⟨c.stream, b⟩ n) := by
  unfold takeLine
  obtain ⟨b₁, e, ha⟩ := concurs_takeLineRounds n (c := c.update ({ · with failed := false })) (b := b) h n
  dsimp only [update] at e ha ⊢
  rw [e]
  generalize takeLineRounds n ⟨{ c.stream with failed := false }, c.system⟩ n = r at ha ⊢
  obtain ⟨q, line⟩ := r
  obtain ⟨hsame, herror⟩ := ha
  have hrefused : (q.stream.failed && decide (b₁.lastError ≠ .wouldBlock)) =
      (q.stream.failed && decide (q.system.lastError ≠ .wouldBlock)) := by
    rcases herror with heq | ⟨-, hfailed, -⟩
    · rw [heq]
    · rw [show q.stream.failed = false from hfailed]
      rfl
  dsimp only at hrefused ⊢
  rw [hrefused]
  refine ⟨b₁, rfl, hsame, herror.imp_right (And.imp_right ?_)⟩
  rintro ⟨hfailed, -⟩
  exact ⟨by rw [show q.stream.failed = false from hfailed, Bool.false_or], trivial⟩

theorem concurs_sync (h : System.SameFor c.stream.fd c.system b) :
    c.Concurs b (· = true) c.sync (sync ⟨c.stream, b⟩) := by
  unfold sync
  obtain ⟨b₁, e, ha⟩ := concurs_drain h
  rw [e]
  generalize c.drain = r at ha ⊢
  rcases r with ⟨c₁, _ | _⟩
  · exact ⟨b₁, rfl, ha⟩
  dsimp only
  split
  · exact ⟨b₁, rfl, ha⟩
  obtain ⟨b₂, e₂, ha₂⟩ := System.seek_answers ha.1 .current (-c₁.stream.ahead.length)
  rw [e₂]
  generalize c₁.system.seek c₁.stream.fd .current (-c₁.stream.ahead.length) = r at ha₂ ⊢
  have hseek := System.Agree.trans ha ha₂
  rcases r with ⟨a₂, x | position⟩
  · dsimp only
    split <;> exact ⟨b₂, rfl, hseek.imp fun hok => by cases hok.2⟩
  · exact ⟨b₂, rfl, hseek.imp And.left⟩

theorem concurs_moveDevice (h : System.SameFor c.stream.fd c.system b) (origin : Origin) (offset : Int) :
    c.Concurs b (· = true) (c.moveDevice origin offset) (moveDevice ⟨c.stream, b⟩ origin offset) := by
  unfold moveDevice
  obtain ⟨b₁, e, ha⟩ := System.seek_answers h origin offset
  dsimp only
  rw [e]
  generalize c.system.seek c.stream.fd origin offset = r at ha ⊢
  rcases r with ⟨a₁, x | position⟩
  · exact ⟨b₁, rfl, ha.imp fun hok => by cases hok⟩
  · exact ⟨b₁, rfl, ha.imp fun _ => ⟨rfl, rfl⟩⟩

theorem concurs_resolve (h : System.SameFor c.stream.fd c.system b) (origin : Origin) (offset : Int) :
    c.Concurs b (·.isSome) (c.resolve origin offset) (resolve ⟨c.stream, b⟩ origin offset) := by
  unfold resolve
  cases origin with
  | start => exact ⟨b, rfl, .still h ⟨rfl, rfl⟩⟩
  | current =>
    dsimp only
    split
    · exact ⟨b, rfl, .still h ⟨rfl, rfl⟩⟩
    split
    · exact ⟨_, rfl, .failed h _⟩
    · exact ⟨b, rfl, .still h ⟨rfl, rfl⟩⟩
  | finish =>
    obtain ⟨b₁, e, ha⟩ := System.inspect_answers h
    dsimp only
    rw [e]
    generalize c.system.inspect c.stream.fd = r at ha ⊢
    rcases r with ⟨a₁, x | dev⟩
    · exact ⟨b₁, rfl, ha.imp fun hok => by cases hok⟩
    · dsimp only
      split <;> exact ⟨b₁, rfl, ha.imp fun _ => ⟨rfl, rfl⟩⟩

theorem concurs_approach (h : System.SameFor c.stream.fd c.system b) (target : Int) (whole : Bool) :
    c.Concurs b (· = true) (c.approach target whole) (approach ⟨c.stream, b⟩ target whole) := by
  unfold approach
  generalize (target % c.stream.capacity).toNat = distance
  obtain ⟨b₁, e, ha⟩ := System.seek_answers h .start (target - distance)
  dsimp only
  rw [e]
  generalize c.system.seek c.stream.fd .start (target - distance) = r at ha ⊢
  rcases r with ⟨a₁, x | boundary⟩
  · exact ⟨b₁, rfl, ha.imp fun hok => by cases hok⟩
  have hseek : c.Tallies b True ⟨c.stream, a₁⟩ b₁ := ha.imp fun _ => ⟨rfl, trivial⟩
  dsimp only
  split
  · exact ⟨b₁, rfl, hseek.imp fun _ => rfl⟩
  obtain ⟨b₂, e₂, ha₂⟩ := System.read_answers ha.1 (if whole then distance else c.stream.capacity)
  dsimp only at e₂ ha₂
  rw [e₂]
  generalize a₁.read c.stream.fd (if whole then distance else c.stream.capacity) = r at ha₂ ⊢
  have hread := System.Agree.trans hseek ha₂
  rcases r with ⟨a₂, x | bytes⟩
  · obtain ⟨b₃, e₃, ha₃⟩ := concurs_moveDevice (c := ⟨c.stream, a₂⟩) ha₂.1 .current distance
    exact ⟨b₃, e₃, (System.Agree.trans hread ha₃).imp And.right⟩
  dsimp only
  split
  · obtain ⟨b₃, e₃, ha₃⟩ := concurs_moveDevice (c := ⟨c.stream, a₂⟩) ha₂.1 .current
      (distance - bytes.length)
    exact ⟨b₃, e₃, (System.Agree.trans hread ha₃).imp And.right⟩
  · exact ⟨b₂, rfl, hread.imp fun _ => ⟨rfl, rfl⟩⟩

theorem concurs_arrive (h : System.SameFor c.stream.fd c.system b) (origin : Origin) (offset : Int)
    (whole : Bool) :
    c.Concurs b (· = true) (c.arrive origin offset whole) (arrive ⟨c.stream, b⟩ origin offset whole) := by
  unfold arrive
  split
  · rw [show inWindow? ⟨c.stream, b⟩ offset = c.inWindow? offset from rfl]
    split
    · obtain ⟨b₁, e, ha⟩ := System.seek_answers h .start (c.stream.offset.getD 0)
      dsimp only [update]
      rw [e]
      generalize c.system.seek c.stream.fd .start (c.stream.offset.getD 0) = r at ha ⊢
      exact ⟨b₁, rfl, ha.imp fun _ => ⟨rfl, rfl⟩⟩
    split
    · exact concurs_approach h offset whole
    · exact concurs_moveDevice h .start offset
  · exact concurs_moveDevice h origin offset

theorem concurs_move (h : System.SameFor c.stream.fd c.system b) (origin : Origin) (offset : Int) :
    c.Concurs b (· = true) (c.move origin offset) (move ⟨c.stream, b⟩ origin offset) := by
  unfold move
  obtain ⟨b₁, e, ha⟩ := concurs_endOutput h
  dsimp only
  rw [e]
  generalize c.endOutput = r at ha ⊢
  rcases r with ⟨c₁, _ | _⟩
  · exact ⟨b₁, rfl, ha⟩
  obtain ⟨b₂, e₂, ha₂⟩ := allocate_tallies ha.1
  have hbuffer := ha.trans ha₂
  dsimp only at e₂ hbuffer ⊢
  rw [e₂]
  generalize c₁.allocate = c₂ at ha₂ hbuffer ⊢
  obtain ⟨b₃, e₃, ha₃⟩ := concurs_resolve ha₂.1 origin offset
  rw [e₃]
  generalize c₂.resolve origin offset = r at ha₃ ⊢
  rcases r with ⟨c₃, _ | ⟨origin', offset'⟩⟩
  · exact ⟨b₃, rfl, (hbuffer.trans ha₃).imp fun hok => by cases hok.2⟩
  · obtain ⟨b₄, e₄, ha₄⟩ := concurs_arrive ha₃.1 origin' offset'
      (c.stream.pending.isEmpty && (c.stream.writing || c.stream.window.isEmpty))
    exact ⟨b₄, e₄, ((hbuffer.trans ha₃).trans ha₄).imp And.right⟩

theorem concurs_devicePosition (h : System.SameFor c.stream.fd c.system b) :
    c.Concurs b (·.isSome) c.devicePosition (devicePosition ⟨c.stream, b⟩) := by
  unfold devicePosition
  dsimp only
  split
  · exact ⟨b, rfl, .still h ⟨rfl, rfl⟩⟩
  obtain ⟨b₁, e, ha⟩ := System.seek_answers h .current 0
  rw [e]
  generalize c.system.seek c.stream.fd .current 0 = r at ha ⊢
  rcases r with ⟨a₁, x | position⟩
  · exact ⟨b₁, rfl, ha.imp fun hok => by cases hok⟩
  · exact ⟨b₁, rfl, ha.imp fun _ => ⟨rfl, rfl⟩⟩

theorem concurs_appendPosition (h : System.SameFor c.stream.fd c.system b) :
    c.Concurs b (·.isSome) c.appendPosition (appendPosition ⟨c.stream, b⟩) := by
  unfold appendPosition
  obtain ⟨b₁, e, ha⟩ := System.seek_answers h .finish 0
  dsimp only
  rw [e]
  generalize c.system.seek c.stream.fd .finish 0 = r at ha ⊢
  rcases r with ⟨a₁, x | position⟩
  · exact ⟨b₁, rfl, ha.imp fun hok => by cases hok⟩
  · exact ⟨b₁, rfl, ha.imp fun _ => ⟨rfl, rfl⟩⟩

theorem concurs_position (h : System.SameFor c.stream.fd c.system b) :
    c.Concurs b (·.isSome) c.position (position ⟨c.stream, b⟩) := by
  have hbase : c.Concurs b (·.isSome)
      (if c.stream.appends && !c.stream.pending.isEmpty then c.appendPosition else c.devicePosition)
      (if c.stream.appends && !c.stream.pending.isEmpty then appendPosition ⟨c.stream, b⟩
        else devicePosition ⟨c.stream, b⟩) := by
    split
    · exact concurs_appendPosition h
    · exact concurs_devicePosition h
  unfold position
  obtain ⟨b₁, e, ha⟩ := hbase
  dsimp only
  rw [e]
  generalize (if c.stream.appends && !c.stream.pending.isEmpty then c.appendPosition
    else c.devicePosition) = r at ha ⊢
  rcases r with ⟨c₁, _ | base⟩
  · exact ⟨b₁, rfl, ha⟩
  rw [show displacement ⟨c.stream, b⟩ = c.displacement from rfl]
  dsimp only
  split
  · exact ⟨_, rfl, .failed ha.1 _⟩
  · exact ⟨b₁, rfl, ha⟩

end Connection

end BufferedFiles
