import BufferedFiles.Proofs.IndicatorRuns
import BufferedFiles.Proofs.OneWay
import BufferedFiles.Proofs.Places

/-!
# The order of output

Whatever an operation does, and however it fails, what the device of a stream receives meanwhile and what
is pending then come, in that order, from what was pending before and from the bytes that were handed over.
Bytes may be missing; none is doubled, and none overtakes another. Where the operation was carried out in
full none is missing.
-/
namespace BufferedFiles

namespace System

variable {sys sys' : System} {fd n : Nat}

/-- What a device has received so far. -/
def got (sys : System) (i : Nat) : Bytes := ((sys.device? i).map (·.received)).getD []

/-- The descriptor is on the device `i`. -/
def Reaches (sys : System) (fd i : Nat) : Prop := ∃ d, sys.descriptor? fd = some d ∧ d.device = i

instance (sys : System) (fd i : Nat) : Decidable (sys.Reaches fd i) :=
  match h : sys.descriptor? fd with
  | none => isFalse fun ⟨_, hd, _⟩ => by rw [h] at hd; cases hd
  | some d => if hi : d.device = i then isTrue ⟨d, h, hi⟩ else isFalse fun ⟨_, hd, he⟩ => by
      rw [h] at hd
      cases hd
      exact hi he

theorem Through.reaches_iff (h : Through fd sys sys') {i : Nat} : sys'.Reaches fd i ↔ sys.Reaches fd i := by
  cases hd : sys.descriptor? fd with
  | none =>
    have hno := h.absent hd
    simp only [Reaches, hd, hno]
  | some d =>
    obtain ⟨p, hp⟩ := h.own d hd
    simp only [Reaches, hd, hp, Option.some.injEq, exists_eq_left']

theorem got_congr (h : ∀ i, sys'.device? i = sys.device? i) (i : Nat) : sys'.got i = sys.got i := by
  rw [got, got, h]

/-- A device that is put in place of another received what is in its log. -/
theorem got_setDevice {i : Nat} {dev : Device} (h : sys.device? i = some dev) (dev' : Device) (j : Nat) :
    (sys.setDevice i dev').got j = if i = j then dev'.received else sys.got j := by
  have hlt := lt_of_device? h
  unfold got
  rw [device?_setDevice]
  by_cases hij : i = j
  · rw [if_pos ⟨hij, hlt⟩, if_pos hij]
    rfl
  · rw [if_neg fun hyes => hij hyes.1, if_neg hij]

/-- A device whose log is the same received nothing. -/
theorem got_setDevice_same {i : Nat} {dev : Device} (h : sys.device? i = some dev) (content : Content)
    (faults : List (Option Errno)) (j : Nat) :
    (sys.setDevice i ⟨content, faults, dev.received⟩).got j = sys.got j := by
  rw [got_setDevice h]
  split
  · rename_i hij
    rw [← hij, got, h]
    rfl
  · rfl

theorem got_seek (sys : System) (fd : Nat) (origin : Origin) (offset : Int) (i : Nat) :
    (sys.seek fd origin offset).1.got i = sys.got i :=
  got_congr (seek_device? sys fd origin offset) i

theorem got_inspect (sys : System) (fd i : Nat) : (sys.inspect fd).1.got i = sys.got i := by
  unfold inspect
  split <;> rfl

theorem got_read (sys : System) (fd n i : Nat) : (sys.read fd n).1.got i = sys.got i := by
  unfold read
  split
  · rfl
  rename_i d dev ho
  obtain ⟨-, hdev⟩ := opened?_eq_some.1 ho
  split
  · rfl
  split
  · rfl
  split
  · exact got_setDevice_same hdev _ _ i
  split
  · exact got_setDevice_same hdev _ _ i
  · exact got_setDevice_same hdev _ _ i

/-- One write reaches the device of its descriptor with what it counts, and no other device. -/
theorem got_write (sys : System) (fd : Nat) (bytes : Bytes) (i : Nat) :
    (sys.write fd bytes).1.got i =
      sys.got i ++ if sys.Reaches fd i then bytes.take ((sys.write fd bytes).2.toOption.getD 0) else [] := by
  have hnone : sys.got i = sys.got i ++ if sys.Reaches fd i then bytes.take 0 else [] := by
    rw [List.take_zero, ite_self, List.append_nil]
  unfold write
  split
  · exact hnone
  rename_i d dev ho
  obtain ⟨hd, hdev⟩ := opened?_eq_some.1 ho
  split
  · exact hnone
  split
  · exact hnone
  split
  · exact (got_setDevice_same hdev _ _ i).trans hnone
  dsimp only
  split
  · exact (got_setDevice_same hdev _ _ i).trans hnone
  · refine (got_setDevice hdev _ i).trans ?_
    dsimp only
    by_cases hi : d.device = i
    · rw [if_pos hi, if_pos ⟨d, hd, hi⟩, ← hi, got, hdev]
      rfl
    · rw [if_neg hi, if_neg, List.append_nil]
      rintro ⟨d', hd', hi'⟩
      rw [hd] at hd'
      cases hd'
      exact hi hi'

/-- A series of writes reaches the device of the descriptor with what it counts, and no other device. -/
theorem got_writeAll (fd fuel : Nat) (sys : System) (bytes : Bytes) :
    (writeAll fd fuel sys bytes).2 ≤ bytes.length ∧ ∀ i, (writeAll fd fuel sys bytes).1.got i =
      sys.got i ++ if sys.Reaches fd i then bytes.take (writeAll fd fuel sys bytes).2 else [] := by
  induction fuel generalizing sys bytes with
  | zero => exact ⟨Nat.zero_le _, fun i => by simp [writeAll]⟩
  | succ fuel ih =>
    have hone := fun i => got_write sys fd bytes i
    have hthrough := through_write sys fd bytes
    unfold writeAll
    split
    · exact ⟨Nat.zero_le _, fun i => by simp⟩
    split <;> rename_i sys₁ _ hw <;> rw [hw] at hone hthrough
    · exact ⟨Nat.zero_le _, hone⟩
    · rename_i n
      obtain ⟨hle, hrest⟩ := ih sys₁ (bytes.drop n)
      rw [List.length_drop] at hle
      have hn := (write_count hw).1
      refine ⟨by dsimp only; omega, fun i => (hrest i).trans ?_⟩
      dsimp only at hone ⊢
      rw [hone i, List.append_assoc]
      dsimp only [Except.toOption, Option.getD_some]
      by_cases hi : sys.Reaches fd i
      · rw [if_pos hi, if_pos hi, if_pos (hthrough.reaches_iff.2 hi), List.take_add]
      · rw [if_neg hi, if_neg hi, if_neg fun hyes => hi (hthrough.reaches_iff.1 hyes)]
        rfl

end System

/-- Nothing is pending in a stream that is not used for output. -/
def Stream.Dry (s : Stream) : Prop := s.writing = false → s.pending = []

namespace Operation

/-- The bytes an operation is given to write. -/
def given : Operation → Bytes
  | .write bytes => bytes
  | _ => []

/-- The operation is one that a handle can be asked for. -/
def Ordinary : Operation → Prop
  | .setDiscipline _ => False
  | _ => True

end Operation

namespace Connection

variable {a b c c' : Connection} {bytes xs ys : Bytes} {p q : Prop}

/-- `b` is `a` after operations of its stream that were handed bytes. What a device received meanwhile and what is
pending then come from what was pending and from the bytes, in that order. If the operations were carried out,
which `p` says, they are all of that, on the device of the stream. -/
structure Hands (a b : Connection) (bytes : Bytes) (p : Prop) : Prop where
  through : a.Through b
  dry : a.stream.Dry → b.stream.Dry
  order : ∀ i, ∃ new, b.system.got i = a.system.got i ++ new ∧
    List.Sublist (new ++ b.stream.pending) (a.stream.pending ++ bytes)
  whole : p → a.stream.Dry → ∀ i, a.system.Reaches a.stream.fd i → ∃ new, b.system.got i = a.system.got i ++ new ∧
    new ++ b.stream.pending = a.stream.pending ++ bytes

theorem Hands.whenDry (h : a.Hands b bytes p) (hpq : q → a.stream.Dry → p) : a.Hands b bytes q :=
  { h with whole := fun hq hdry => h.whole (hpq hq hdry) hdry }

theorem Hands.imp (h : a.Hands b bytes p) (hpq : q → p) : a.Hands b bytes q :=
  h.whenDry fun hq _ => hpq hq

/-- Where nothing was pending nothing is. -/
theorem Hands.spent (h : a.Hands b [] p) (hnone : a.stream.pending = []) : b.stream.pending = [] := by
  obtain ⟨new, -, hsub⟩ := h.order 0
  rw [hnone, List.nil_append, List.sublist_nil] at hsub
  exact (List.append_eq_nil_iff.1 hsub).2

/-- Nothing was received, and what was pending still is. -/
theorem Hands.still (ht : a.Through b) (hgot : ∀ i, b.system.got i = a.system.got i)
    (hpend : b.stream.pending = a.stream.pending) (hdry : a.stream.Dry → b.stream.Dry) : a.Hands b [] p := by
  have hkept : ∀ i, ∃ new, b.system.got i = a.system.got i ++ new ∧
      new ++ b.stream.pending = a.stream.pending ++ [] := fun i =>
    ⟨[], by rw [hgot, List.append_nil], by rw [hpend, List.nil_append, List.append_nil]⟩
  refine ⟨ht, hdry, fun i => ?_, fun _ _ i _ => hkept i⟩
  obtain ⟨new, hnew, heq⟩ := hkept i
  exact ⟨new, hnew, heq ▸ .refl _⟩

theorem Hands.kept (ht : a.Through b) (hgot : ∀ i, b.system.got i = a.system.got i)
    (hpend : b.stream.pending = a.stream.pending) (hwriting : b.stream.writing = a.stream.writing) :
    a.Hands b [] p :=
  .still ht hgot hpend fun hdry hno => hpend.trans (hdry (hwriting.symm.trans hno))

theorem Hands.refl (c : Connection) : c.Hands c [] p := .still (.refl c) (fun _ => rfl) rfl id

/-- Nothing was received, and what was pending is gone. -/
theorem Hands.emptied (ht : a.Through b) (hgot : ∀ i, b.system.got i = a.system.got i)
    (hpend : b.stream.pending = []) : a.Hands b [] (a.stream.pending = []) where
  through := ht
  dry _ _ := hpend
  order i := ⟨[], by rw [hgot, List.append_nil], by rw [hpend]; exact List.nil_sublist _⟩
  whole hnone _ i _ := ⟨[], by rw [hgot, List.append_nil], by rw [hpend, hnone]⟩

theorem Hands.trans (h : a.Hands b xs p) (h' : b.Hands c ys q) : a.Hands c (xs ++ ys) (p ∧ q) where
  through := h.through.trans h'.through
  dry ha := h'.dry (h.dry ha)
  order i := by
    obtain ⟨new, hnew, hsub⟩ := h.order i
    obtain ⟨new', hnew', hsub'⟩ := h'.order i
    refine ⟨new ++ new', by rw [hnew', hnew, List.append_assoc], ?_⟩
    have hlater := (List.Sublist.refl new).append hsub'
    have hearlier := hsub.append (List.Sublist.refl ys)
    simp only [List.append_assoc] at hlater hearlier ⊢
    exact hlater.trans hearlier
  whole := by
    rintro ⟨hp, hq⟩ ha i hi
    have hfd := h.through.stream.fd
    obtain ⟨new, hnew, heq⟩ := h.whole hp ha i hi
    obtain ⟨new', hnew', heq'⟩ := h'.whole hq (h.dry ha) i (hfd ▸ h.through.system.reaches_iff.2 hi)
    refine ⟨new ++ new', by rw [hnew', hnew, List.append_assoc], ?_⟩
    rw [List.append_assoc, heq', ← List.append_assoc, heq, List.append_assoc]

theorem Hands.then (h : a.Hands b xs p) (h' : b.Hands c [] q) : a.Hands c xs (p ∧ q) := by
  have hboth := h.trans h'
  rwa [List.append_nil] at hboth

theorem Hands.after (h : a.Hands b [] p) (h' : b.Hands c xs q) : a.Hands c xs (p ∧ q) := h.trans h'

/-- Some of the bytes were not handed over at all. -/
theorem Hands.short (h : a.Hands b xs p) (hs : List.Sublist xs ys) (hq : q → p ∧ xs = ys) : a.Hands b ys q where
  through := h.through
  dry := h.dry
  order i := by
    obtain ⟨new, hnew, hsub⟩ := h.order i
    exact ⟨new, hnew, hsub.trans ((List.Sublist.refl _).append hs)⟩
  whole hyes := by
    obtain ⟨hp, rfl⟩ := hq hyes
    exact h.whole hp

theorem align_kept (c : Connection) :
    c.align.1.stream.pending = c.stream.pending ∧ c.align.1.stream.writing = c.stream.writing := by
  unfold align
  split
  · exact ⟨rfl, rfl⟩
  split
  · exact ⟨rfl, rfl⟩
  · split <;> exact ⟨rfl, rfl⟩

theorem got_align (c : Connection) (i : Nat) : c.align.1.system.got i = c.system.got i := by
  have hgot := System.got_seek c.system c.stream.fd .current (c.stream.cursor - c.stream.window.length) i
  unfold align
  split
  · rfl
  split
  · rfl
  · split <;> rename_i heq <;> rw [heq] at hgot <;> exact hgot

theorem send_writing (c : Connection) (bytes : Bytes) : (c.send bytes).1.stream.writing = c.stream.writing := by
  obtain ⟨-, hwriting⟩ := align_kept c
  unfold send
  split <;> rename_i heq <;> rw [heq] at hwriting <;> exact hwriting

/-- Bytes that are sent are received as far as they count, and nothing is pending then. Or they are not sent at all,
and what was pending still is. -/
theorem send_cases (c : Connection) (bytes : Bytes) :
    (c.send bytes).2 = 0 ∧ (c.send bytes).1.stream.pending = c.stream.pending ∧
        (∀ i, (c.send bytes).1.system.got i = c.system.got i) ∨
      (c.send bytes).1.stream.pending = [] ∧ (c.send bytes).2 ≤ bytes.length ∧ ∀ i,
        (c.send bytes).1.system.got i =
          c.system.got i ++ if c.system.Reaches c.stream.fd i then bytes.take (c.send bytes).2 else [] := by
  obtain ⟨hpend, -⟩ := align_kept c
  have hgot := got_align c
  have ht := through_align c
  unfold send
  rcases hc : c.align with ⟨c₁, _ | _⟩ <;> rw [hc] at hgot hpend ht
  · exact .inl ⟨rfl, hpend, hgot⟩
  · obtain ⟨hle, hsent⟩ := System.got_writeAll c₁.stream.fd bytes.length c₁.system bytes
    refine .inr ⟨rfl, hle, fun i => (hsent i).trans ?_⟩
    have hreaches : c₁.system.Reaches c₁.stream.fd i ↔ c.system.Reaches c.stream.fd i := by
      rw [ht.stream.fd]
      exact ht.system.reaches_iff
    rw [hgot i]
    by_cases hi : c.system.Reaches c.stream.fd i
    · rw [if_pos hi, if_pos (hreaches.2 hi)]
    · rw [if_neg hi, if_neg fun hyes => hi (hreaches.1 hyes)]

/-- What is sent comes behind nothing that is still pending. -/
theorem hands_send (c : Connection) (bytes : Bytes) :
    c.Hands (c.send bytes).1 bytes (c.stream.pending = [] ∧ (c.send bytes).2 = bytes.length) := by
  have ht := through_send c bytes
  rcases send_cases c bytes with ⟨hcount, hpend, hgot⟩ | ⟨hpend, -, hgot⟩
  · have hkept : c.Hands (c.send bytes).1 [] True := .kept ht hgot hpend (send_writing c bytes)
    refine hkept.short (List.nil_sublist _) fun hall => ⟨trivial, ?_⟩
    exact (List.eq_nil_of_length_eq_zero (hall.2.symm.trans hcount)).symm
  · refine ⟨ht, fun _ _ => hpend, fun i => ⟨_, hgot i, ?_⟩, ?_⟩
    · rw [hpend, List.append_nil]
      split
      · exact (List.take_sublist _ _).trans (List.sublist_append_right _ _)
      · exact List.nil_sublist _
    · rintro ⟨hnone, hall⟩ - i hi
      refine ⟨_, hgot i, ?_⟩
      rw [if_pos hi, hpend, hnone, hall, List.take_length, List.append_nil]
      rfl

theorem drain_writing (c : Connection) : c.drain.1.stream.writing = c.stream.writing := by
  unfold drain
  split
  · rfl
  · exact send_writing c _

theorem hands_drain (c : Connection) :
    c.Hands c.drain.1 [] (c.drain.2 = true) ∧ (c.drain.2 = true → c.drain.1.stream.pending = []) := by
  unfold drain
  split
  · rename_i hnil
    exact ⟨.refl c, fun _ => List.isEmpty_iff.1 hnil⟩
  rename_i hne
  rw [List.isEmpty_iff] at hne
  have ht := through_send c c.stream.pending
  dsimp only
  rcases send_cases c c.stream.pending with ⟨hcount, hpend, hgot⟩ | ⟨hpend, -, hgot⟩
  · refine ⟨.kept ht hgot hpend (send_writing c _), fun hall => ?_⟩
    rw [hcount, beq_iff_eq] at hall
    exact absurd (List.eq_nil_of_length_eq_zero hall.symm) hne
  · refine ⟨⟨ht, fun _ _ => hpend, fun i => ⟨_, hgot i, ?_⟩, fun hall _ i hi => ⟨_, hgot i, ?_⟩⟩, fun _ => hpend⟩
    · rw [hpend, List.append_nil, List.append_nil]
      split
      · exact List.take_sublist _ _
      · exact List.nil_sublist _
    · rw [beq_iff_eq] at hall
      rw [if_pos hi, hpend, hall, List.take_length]

theorem got_allocate (c : Connection) (i : Nat) : c.allocate.system.got i = c.system.got i := by
  have hgot := System.got_inspect c.system c.stream.fd i
  unfold allocate
  split
  · rfl
  split
  · rfl
  · split <;> rename_i heq <;> rw [heq] at hgot
    · rfl
    · exact hgot

theorem allocate_kept (c : Connection) :
    c.allocate.stream.pending = c.stream.pending ∧ c.allocate.stream.writing = c.stream.writing := by
  unfold allocate
  split
  · exact ⟨rfl, rfl⟩
  split
  · exact ⟨rfl, rfl⟩
  · split <;> exact ⟨rfl, rfl⟩

theorem hands_allocate (c : Connection) : c.Hands c.allocate [] p :=
  .kept (through_allocate c) (got_allocate c) (allocate_kept c).1 (allocate_kept c).2

theorem hands_turned (c : Connection) : c.Hands (c.update Stream.turned) [] p := by
  have hturned : c.stream.turned.pending = c.stream.pending ∧ c.stream.turned.writing = true := by
    unfold Stream.turned
    dsimp only
    split <;> exact ⟨rfl, rfl⟩
  exact .still (through_turned c) (fun _ => rfl) hturned.1 fun _ hno => Bool.noConfusion (hturned.2.symm.trans hno)

theorem hands_makeRoom (c : Connection) : c.Hands c.makeRoom.1 [] (c.makeRoom.2 = true) ∧
    (c.makeRoom.2 = true → c.makeRoom.1.stream.pending = [] ∧ c.makeRoom.1.stream.writing = true) := by
  unfold makeRoom
  split
  · exact ⟨.kept (through_refuse c) (fun _ => rfl) rfl rfl, nofun⟩
  dsimp only
  have hready : c.Hands (if c.allocate.stream.writing then c.allocate else c.allocate.update Stream.turned) [] True ∧
      (if c.allocate.stream.writing then c.allocate
        else c.allocate.update Stream.turned).stream.writing = true := by
    split
    · rename_i hw
      exact ⟨hands_allocate c, hw⟩
    · refine ⟨((hands_allocate c).then (hands_turned _)).imp fun _ => ⟨trivial, trivial⟩, ?_⟩
      simp only [update, Stream.turned]
  generalize (if c.allocate.stream.writing then c.allocate else c.allocate.update Stream.turned) = c₁ at hready
  obtain ⟨hready, hwriting⟩ := hready
  obtain ⟨hdrain, hnone⟩ := hands_drain c₁
  exact ⟨(hready.then hdrain).imp fun hok => ⟨trivial, hok⟩,
    fun hok => ⟨hnone hok, (drain_writing c₁).trans hwriting⟩⟩

/-- Bytes that gather are pending behind what was. -/
theorem hands_gathered (c : Connection) (bytes : Bytes) (h : c.stream.writing = true ∨ bytes = []) :
    c.Hands (c.update fun s => { s with pending := s.pending ++ bytes }) bytes p := by
  refine ⟨through_gathered c bytes, fun hdry hno => ?_, fun i => ⟨[], (List.append_nil _).symm, .refl _⟩,
    fun _ _ i _ => ⟨[], (List.append_nil _).symm, rfl⟩⟩
  have hno : c.stream.writing = false := hno
  show c.stream.pending ++ bytes = []
  rw [hdry hno, h.resolve_left fun hyes => Bool.noConfusion (hyes.symm.trans hno)]
  rfl

theorem hands_put (c : Connection) (b : UInt8) (hw : c.stream.writing = true) :
    c.Hands (c.put b).1 [b] ((c.put b).2 = true) ∧ (c.put b).1.stream.writing = true := by
  have hfirst : c.Hands (if c.stream.filled = c.stream.capacity then c.drain else (c, true)).1 []
        ((if c.stream.filled = c.stream.capacity then c.drain else (c, true)).2 = true) ∧
      (if c.stream.filled = c.stream.capacity then c.drain else (c, true)).1.stream.writing = true := by
    split
    · exact ⟨(hands_drain c).1, (drain_writing c).trans hw⟩
    · exact ⟨.refl c, hw⟩
  unfold put
  generalize (if c.stream.filled = c.stream.capacity then c.drain else (c, true)) = r at hfirst
  obtain ⟨c₁, _ | _⟩ := r
  · exact ⟨hfirst.1.short (List.nil_sublist _) nofun, hfirst.2⟩
  · obtain ⟨hfirst, hw₁⟩ := hfirst
    have hput := hfirst.after (hands_gathered (p := True) c₁ [b] (.inl hw₁))
    dsimp only
    split
    · obtain ⟨hdrain, -⟩ := hands_drain (c₁.update fun s => { s with pending := s.pending ++ [b] })
      exact ⟨(hput.then hdrain).imp fun hok => ⟨⟨rfl, trivial⟩, hok⟩, (drain_writing _).trans hw₁⟩
    · exact ⟨hput.imp fun _ => ⟨rfl, trivial⟩, hw₁⟩

theorem hands_putAll (c : Connection) (bytes : Bytes) (hw : c.stream.writing = true) :
    c.Hands (c.putAll bytes).1 bytes ((c.putAll bytes).2 = bytes.length) ∧
      (c.putAll bytes).1.stream.writing = true := by
  induction bytes generalizing c with
  | nil => exact ⟨.refl c, hw⟩
  | cons b rest ih =>
    obtain ⟨hput, hw₁⟩ := hands_put c b hw
    simp only [putAll]
    split <;> rename_i c₁ heq <;> rw [heq] at hput hw₁
    · refine ⟨hput.short ?_ fun hput => (by cases hput), hw₁⟩
      exact .cons_cons b (List.nil_sublist _)
    · obtain ⟨hrest, hw₂⟩ := ih c₁ hw₁
      refine ⟨(hput.trans hrest).imp fun hall => ⟨rfl, ?_⟩, hw₂⟩
      simpa using hall

theorem hands_gather (c : Connection) (bytes : Bytes) (hw : c.stream.writing = true) :
    c.Hands (c.gather bytes).1 bytes ((c.gather bytes).2 = bytes.length) := by
  unfold gather
  dsimp only
  generalize hn : min (c.stream.limit - c.stream.filled) bytes.length = n
  have hfirst := hands_gathered (p := True) c (bytes.take n) (.inl hw)
  obtain ⟨hrest, -⟩ := hands_putAll (c.update fun s => { s with pending := s.pending ++ bytes.take n }) (bytes.drop n) hw
  have hboth := hfirst.trans hrest
  rw [List.take_append_drop] at hboth
  refine hboth.imp fun hall => ⟨trivial, ?_⟩
  rw [List.length_drop]
  omega

theorem hands_passOver (c : Connection) (bytes : Bytes) (hw : c.stream.writing = true) (hnone : c.stream.pending = []) :
    c.Hands (c.passOver bytes).1 bytes ((c.passOver bytes).2 = bytes.length) := by
  unfold passOver
  dsimp only
  split
  · exact hands_gather c bytes hw
  rename_i hne
  generalize hn : c.stream.direct bytes.length = n at hne
  have hle : n ≤ bytes.length := hn ▸ direct_le c.stream bytes.length
  have hsend := hands_send c (bytes.take n)
  rw [List.length_take, Nat.min_eq_left hle] at hsend
  split
  · rename_i hshort
    exact hsend.short (List.take_sublist _ _) fun hall => by dsimp only at hall; omega
  · rename_i hlong
    have hcount : (c.send (bytes.take n)).2 ≤ n := by
      rcases send_cases c (bytes.take n) with ⟨hzero, -⟩ | ⟨-, hle', -⟩
      · omega
      · exact Nat.le_trans hle' (List.length_take_le _ _)
    have hrest := hands_gather (c.send (bytes.take n)).1 (bytes.drop n) ((send_writing c _).trans hw)
    have hboth := hsend.trans hrest
    rw [List.take_append_drop] at hboth
    refine hboth.imp fun hall => ⟨⟨hnone, by omega⟩, ?_⟩
    dsimp only at hall
    rw [List.length_drop]
    omega

/-- A stream takes bytes at once only while it is used for output, and hands them on at once only by lines. -/
theorem room_kept (s : Stream) (bytes : Bytes) :
    (s.writing = false → (s.room bytes).1 = 0) ∧ (s.discipline ≠ .line → (s.room bytes).2 = false) := by
  unfold Stream.room
  split
  · exact ⟨fun _ => rfl, fun _ => rfl⟩
  rename_i hw
  have hw : s.writing = true := by simpa using hw
  refine ⟨fun hno => Bool.noConfusion (hw.symm.trans hno), fun hd => ?_⟩
  rw [if_neg hd]

theorem hands_accept (c : Connection) (bytes : Bytes) :
    c.Hands (c.accept bytes).1 bytes ((c.accept bytes).2 = bytes.length ∧ c.stream.discipline ≠ .line) := by
  obtain ⟨hidle, hquiet⟩ := room_kept c.stream bytes
  unfold accept
  generalize hroom : c.stream.room bytes = r at hidle hquiet
  obtain ⟨free, handOn⟩ := r
  dsimp only at hidle hquiet ⊢
  generalize hn : min free bytes.length = n
  have hle : n ≤ bytes.length := by omega
  have hfirst : c.Hands (c.update fun s => { s with pending := s.pending ++ bytes.take n }) (bytes.take n) True := by
    refine hands_gathered c _ ?_
    cases hw : c.stream.writing with
    | true => exact .inl rfl
    | false =>
      have hzero : n = 0 := by rw [← hn, hidle hw, Nat.zero_min]
      exact .inr (by rw [hzero, List.take_zero])
  generalize (c.update fun s => { s with pending := s.pending ++ bytes.take n }) = c₁ at hfirst ⊢
  split
  · rename_i hall
    refine hfirst.short (List.take_sublist _ _) fun _ => ⟨trivial, ?_⟩
    simp only [Bool.and_eq_true, decide_eq_true_eq] at hall
    rw [hall.1, List.take_length]
  rename_i hmore
  obtain ⟨hroom, hready⟩ := hands_makeRoom c₁
  split <;> rename_i c₂ heq <;> rw [heq] at hroom hready
  · refine (hfirst.then hroom).short (List.take_sublist _ _) fun hall => absurd ?_ hmore
    dsimp only at hall
    rw [hquiet hall.2]
    simpa using hall.1
  · obtain ⟨hnone, hwriting⟩ := hready rfl
    have hrest := hands_passOver c₂ (bytes.drop n) hwriting hnone
    have hboth := (hfirst.then hroom).trans hrest
    rw [List.take_append_drop] at hboth
    refine hboth.imp fun hall => ⟨⟨trivial, rfl⟩, ?_⟩
    dsimp only at hall
    rw [List.length_drop]
    omega

/-- Output that ends hands on what was pending. -/
theorem hands_endOutput (c : Connection) : c.Hands c.endOutput.1 [] (c.drain.2 = true) ∧
    (c.drain.2 = true → c.stream.Dry → c.endOutput.1.stream.pending = []) := by
  obtain ⟨hdrain, hnone⟩ := hands_drain c
  unfold endOutput
  split
  · rename_i hw
    exact ⟨.refl c, fun _ hdry => hdry (by simpa using hw)⟩
  split <;> rename_i c₁ heq <;> rw [heq] at hdrain hnone ⊢
  · exact ⟨hdrain, nofun⟩
  · have hpend := hnone rfl
    have hidle : c₁.Hands (c₁.update ({ · with writing := false })) [] True :=
      .still (through_work c₁ .working) (fun _ => rfl) rfl fun _ _ => hpend
    exact ⟨(hdrain.then hidle).imp fun hok => ⟨hok, trivial⟩, fun _ _ => hpend⟩

theorem drain_of_spent (h : c.stream.pending = []) : c.drain.2 = true := by
  rw [drain_of_drained h]

/-- While output is pending nothing is ahead. -/
theorem ahead_of_pending (hdry : c.stream.Dry) (h : c.stream.pending ≠ []) : c.stream.ahead = [] := by
  unfold Stream.ahead
  split
  · rfl
  · rename_i hw
    exact absurd (hdry (by simpa using hw)) h

theorem hands_fill (c : Connection) : c.Hands c.fill.1 [] (c.drain.2 = true) ∧
    (c.drain.2 = true → c.stream.Dry → c.fill.1.stream.pending = []) := by
  obtain ⟨hend, hnone⟩ := hands_endOutput c
  unfold fill
  split <;> rename_i c₁ heq <;> rw [heq] at hend hnone
  · exact ⟨hend, hnone⟩
  have hrest : ∀ {b : Connection}, c₁.Hands b [] (c₁.stream.pending = []) →
      c.Hands b [] (c.drain.2 = true) ∧ (c.drain.2 = true → c.stream.Dry → b.stream.pending = []) := fun hb =>
    ⟨(hend.then hb).whenDry fun hok hdry => ⟨hok, hnone hok hdry⟩, fun hok hdry => hb.spent (hnone hok hdry)⟩
  split
  · exact hrest (.refl c₁)
  split
  · exact hrest (.kept (through_refuse c₁) (fun _ => rfl) rfl rfl)
  have hgot := System.got_read c₁.allocate.system c₁.allocate.stream.fd c₁.allocate.stream.capacity
  have hread := System.through_read c₁.allocate.system c₁.allocate.stream.fd c₁.allocate.stream.capacity
  have halloc : c₁.Hands c₁.allocate [] True := hands_allocate c₁
  refine hrest (Hands.imp (halloc.then (q := c₁.allocate.stream.pending = []) ?_) fun hnone =>
    ⟨trivial, halloc.spent hnone⟩)
  dsimp only
  split <;> rename_i heq <;> rw [heq] at hgot hread
  all_goals
    refine .emptied ⟨.working, hread, fun _ _ _ => rfl⟩ hgot ?_
    rfl

theorem hands_readPast (c : Connection) (n : Nat) : c.Hands (c.readPast n).1 [] (c.stream.pending = []) := by
  have hgot := System.got_read c.system c.stream.fd n
  have hread := System.through_read c.system c.stream.fd n
  have hfd : c.stream.emptied.fd = c.stream.fd := rfl
  unfold readPast
  dsimp only
  rw [hfd]
  split <;> rename_i heq <;> rw [heq] at hgot hread
  all_goals
    refine .emptied ⟨.working, hread, fun _ _ _ => rfl⟩ hgot ?_
    rfl

theorem hands_skip (c : Connection) (n : Nat) : c.Hands (c.update (·.skip n)) [] p :=
  .kept (through_skip c n) (fun _ => rfl) rfl rfl

/-- What is pending is taken by the device before `n` bytes are asked for, and the request does not go past it. -/
def Clears (c : Connection) (n : Nat) : Prop :=
  c.stream.pending ≠ [] → n < c.stream.capacity ∧ c.drain.2 = true

/-- A request that clears a stream finds nothing pending, or nothing ahead. -/
theorem Clears.cases (h : c.Clears n) (hdry : c.stream.Dry) : c.stream.pending = [] ∨
    c.update (·.skip (c.stream.ahead.take n).length) = c ∧ n - (c.stream.ahead.take n).length = n ∧
      n < c.stream.capacity ∧ c.drain.2 = true := by
  by_cases hnone : c.stream.pending = []
  · exact .inl hnone
  · rw [ahead_of_pending hdry hnone, List.take_nil]
    exact .inr ⟨rfl, rfl, h hnone⟩

theorem hands_takeRounds (rounds : Nat) (c : Connection) (n : Nat) :
    c.Hands (takeRounds rounds c n).1 [] (c.Clears n) := by
  induction rounds generalizing c n with
  | zero => exact .refl c
  | succ rounds ih =>
    have hskip : c.Hands (c.update (·.skip (c.stream.ahead.take n).length)) [] True := hands_skip c _
    have hcases := fun (h : c.Clears n) hdry => h.cases hdry
    simp only [takeRounds]
    generalize c.update (·.skip (c.stream.ahead.take n).length) = c₁ at hskip hcases ⊢
    generalize n - (c.stream.ahead.take n).length = missing at hcases ⊢
    split
    · exact hskip.imp fun _ => trivial
    split
    · obtain ⟨hfill, hnone⟩ := hands_fill c₁
      have hready : c.Clears n → c.stream.Dry → c₁.drain.2 = true := fun hclears hdry => by
        rcases hcases hclears hdry with hpend | ⟨hsame, -, -, hdrain⟩
        · exact drain_of_spent (hskip.spent hpend)
        · rwa [hsame]
      have hfirst := hskip.then hfill
      split <;> rename_i heq <;> rw [heq] at hfirst hnone
      · exact hfirst.whenDry fun hclears hdry => ⟨trivial, hready hclears hdry⟩
      · refine (hfirst.then (ih _ missing)).whenDry fun hclears hdry => ?_
        have hpend := hnone (hready hclears hdry) (hskip.dry hdry)
        exact ⟨⟨trivial, hready hclears hdry⟩, fun hyes => absurd hpend hyes⟩
    · rename_i hlarge
      have hspent : c.Clears n → c.stream.Dry → c₁.stream.pending = [] := fun hclears hdry => by
        rcases hcases hclears hdry with hpend | ⟨hsame, hsize, hlt, -⟩
        · exact hskip.spent hpend
        · rw [hsame, hsize] at hlarge
          exact absurd hlt hlarge
      have hpast := hands_readPast c₁ (c₁.stream.direct missing)
      have hnone := fun h => hpast.spent h
      have hfirst := hskip.then hpast
      split <;> rename_i heq <;> rw [heq] at hfirst hnone
      · exact hfirst.whenDry fun hclears hdry => ⟨trivial, hspent hclears hdry⟩
      · refine (hfirst.then (ih _ _)).whenDry fun hclears hdry => ?_
        have hpend := hnone (hspent hclears hdry)
        exact ⟨⟨trivial, hspent hclears hdry⟩, fun hyes => absurd hpend hyes⟩

theorem hands_take (c : Connection) (n : Nat) : c.Hands (c.take n).1 [] (c.allocate.Clears n) :=
  ((hands_allocate (p := True) c).then (hands_takeRounds _ _ _)).imp fun hclears => ⟨trivial, hclears⟩

theorem hands_takeLineRounds (rounds : Nat) (c : Connection) (n : Nat) :
    c.Hands (takeLineRounds rounds c n).1 [] (c.drain.2 = true) := by
  induction rounds generalizing c n with
  | zero => exact .refl c
  | succ rounds ih =>
    have hfirst : c.Hands (if c.stream.ahead.isEmpty then c.fill else (c, true)).1 [] (c.drain.2 = true) ∧
        (c.drain.2 = true → c.stream.Dry →
          (if c.stream.ahead.isEmpty then c.fill else (c, true)).1.stream.pending = []) := by
      split
      · exact hands_fill c
      · rename_i hahead
        refine ⟨.refl c, fun _ hdry => Classical.byContradiction fun hyes => hahead ?_⟩
        rw [ahead_of_pending hdry hyes]
        rfl
    simp only [takeLineRounds]
    split
    · exact .refl c
    split <;> rename_i c₁ heq <;> rw [heq] at hfirst
    · exact hfirst.1
    obtain ⟨hfirst, hnone⟩ := hfirst
    have hskip : c₁.Hands (c₁.update (·.skip (firstLine (c₁.stream.ahead.take n)).length)) [] True := hands_skip c₁ _
    have hboth := hfirst.then hskip
    split
    · exact hboth.imp fun hok => ⟨hok, trivial⟩
    · refine (hboth.then (ih _ _)).whenDry fun hok hdry => ⟨⟨hok, trivial⟩, ?_⟩
      exact drain_of_spent (hskip.spent (hnone hok hdry))

/-- Whether the device takes what is pending has nothing to do with the indicator. -/
theorem drain_indicator (c : Connection) (failed : Bool) :
    (c.update fun s => { s with failed }).drain.2 = c.drain.2 := by
  have halign : (c.update fun s => { s with failed }).align.2 = c.align.2 ∧
      (c.update fun s => { s with failed }).align.1.system = c.align.1.system := by
    by_cases ha : c.stream.appends = true
    · simp [align, update, ha]
    by_cases hw : c.stream.window.length = c.stream.cursor
    · simp [align, update, ha, hw]
    · simp only [align, update, ha, hw, if_false, Bool.false_eq_true]
      split <;> exact ⟨rfl, rfl⟩
  have hsend : ((c.update fun s => { s with failed }).send c.stream.pending).2 = (c.send c.stream.pending).2 := by
    have hfd := (through_align (c.update fun s => { s with failed })).stream.fd
    have hfd' := (through_align c).stream.fd
    unfold send
    generalize (c.update fun s => { s with failed }).align = r at halign hfd ⊢
    generalize c.align = r' at halign hfd' ⊢
    obtain ⟨c₁, done⟩ := r
    obtain ⟨c₂, _ | _⟩ := r' <;> obtain ⟨rfl, hsystem⟩ := halign
    · rfl
    · dsimp only at hsystem hfd hfd' ⊢
      rw [hsystem, hfd, hfd']
      rfl
  have hpend : (c.update fun s => { s with failed }).stream.pending = c.stream.pending := rfl
  simp only [drain, hpend]
  split
  · rfl
  · simp only [hsend]

theorem hands_takeLine (c : Connection) (n : Nat) : c.Hands (c.takeLine n).1 [] (c.drain.2 = true) := by
  have hclear : c.Hands (c.update ({ · with failed := false })) [] True :=
    .kept (through_work c .working) (fun _ => rfl) rfl rfl
  have hrounds := hclear.then (hands_takeLineRounds n _ n)
  have hdrain : (c.update ({ · with failed := false })).drain.2 = c.drain.2 := drain_indicator c false
  rw [hdrain] at hrounds
  refine Hands.imp (hrounds.then (q := True) ?_) fun hok => ⟨⟨trivial, hok⟩, trivial⟩
  exact .kept (through_work _ .working) (fun _ => rfl) rfl rfl

theorem hands_sync (c : Connection) : c.Hands c.sync.1 [] (c.drain.2 = true) ∧
    (c.sync.2 = true → c.drain.2 = true ∧ c.sync.1.stream.pending = []) := by
  obtain ⟨hdrain, hnone⟩ := hands_drain c
  unfold sync
  rcases hc : c.drain with ⟨c₁, _ | _⟩ <;> rw [hc] at hdrain hnone
  · exact ⟨hdrain, nofun⟩
  have hrest : ∀ {b : Connection} {done : Bool}, c₁.Hands b [] True → c.Hands b [] (true = true) ∧
      (done = true → true = true ∧ b.stream.pending = []) := fun hb =>
    ⟨(hdrain.then hb).imp fun hok => ⟨hok, trivial⟩, fun _ => ⟨rfl, hb.spent (hnone rfl)⟩⟩
  have hgot := System.got_seek c₁.system c₁.stream.fd .current (-c₁.stream.ahead.length)
  have hseek := System.through_seek c₁.system c₁.stream.fd .current (-c₁.stream.ahead.length)
  dsimp only
  split
  · exact hrest (.kept (through_work c₁ .working) (fun _ => rfl) rfl rfl)
  split <;> rename_i hmoved <;> rw [hmoved] at hgot hseek
  · refine hrest (.kept ⟨.working, hseek, fun _ _ _ => rfl⟩ hgot ?_ ?_) <;> rfl
  split
  · refine hrest (.kept ⟨.working, hseek, fun _ _ _ => rfl⟩ hgot ?_ ?_) <;> rfl
  · refine hrest (.kept ⟨.working, hseek, fun _ _ _ => rfl⟩ hgot ?_ ?_) <;> rfl

/-- Moves of the device leave nothing pending, and receive nothing. -/
theorem hands_moveDevice (c : Connection) (origin : Origin) (offset : Int) :
    c.Hands (c.moveDevice origin offset).1 [] (c.stream.pending = []) := by
  have hgot := System.got_seek c.system c.stream.fd origin offset
  have hseek := System.through_seek c.system c.stream.fd origin offset
  unfold moveDevice
  split <;> rename_i heq <;> rw [heq] at hgot hseek
  · refine .kept ⟨.refl _, hseek, fun _ _ _ => rfl⟩ hgot ?_ ?_ <;> rfl
  · refine .emptied ⟨.working, hseek, fun _ _ _ => rfl⟩ hgot ?_
    rfl

theorem hands_resolve (c : Connection) (origin : Origin) (offset : Int) :
    c.Hands (c.resolve origin offset).1 [] p := by
  have hstream := resolve_stream c origin offset
  have hgot : ∀ i, (c.resolve origin offset).1.system.got i = c.system.got i := by
    have hinspect := System.got_inspect c.system c.stream.fd
    unfold resolve
    split
    · exact fun _ => rfl
    · dsimp only
      split
      · exact fun _ => rfl
      · split <;> exact fun _ => rfl
    · split <;> rename_i heq <;> rw [heq] at hinspect
      · exact hinspect
      · split <;> exact hinspect
  exact .kept (through_resolve c origin offset) hgot (by rw [hstream]) (by rw [hstream])

theorem hands_approach (c : Connection) (target : Int) (whole : Bool) :
    c.Hands (c.approach target whole).1 [] (c.stream.pending = []) := by
  have hgot := System.got_seek c.system c.stream.fd .start (target - (target % c.stream.capacity).toNat)
  have hseek := System.through_seek c.system c.stream.fd .start (target - (target % c.stream.capacity).toNat)
  unfold approach
  dsimp only
  split <;> rename_i sys₁ _ hmoved <;> rw [hmoved] at hgot hseek
  · refine .kept ⟨.refl _, hseek, fun _ _ _ => rfl⟩ hgot ?_ ?_ <;> rfl
  split
  · refine .emptied ⟨.working, hseek, fun _ _ _ => rfl⟩ hgot ?_
    rfl
  have hread := fun n => System.through_read sys₁ c.stream.fd n
  have hgot' := fun n => System.got_read sys₁ c.stream.fd n
  -- Up to here the stream is the same; what is read or moved after that is all on its device.
  have hrest : ∀ {sys₂ : System} {b : Connection}, System.Through c.stream.fd sys₁ sys₂ →
      (∀ i, sys₂.got i = sys₁.got i) → Hands ⟨c.stream, sys₂⟩ b [] (c.stream.pending = []) →
      c.Hands b [] (c.stream.pending = []) := by
    intro sys₂ b ht hsame hb
    have hfirst : c.Hands ⟨c.stream, sys₂⟩ [] True :=
      .kept ⟨.refl _, hseek.trans ht, fun _ _ _ => rfl⟩ (fun i => (hsame i).trans (hgot i)) rfl rfl
    exact (hfirst.then hb).imp fun hnone => ⟨trivial, hnone⟩
  generalize (if whole = true then (target % c.stream.capacity).toNat else c.stream.capacity) = n
  have hread := hread n
  have hgot' := hgot' n
  split <;> rename_i heq <;> rw [heq] at hread hgot'
  · exact hrest hread hgot' (hands_moveDevice _ _ _)
  split
  · exact hrest hread hgot' (hands_moveDevice _ _ _)
  · refine hrest hread hgot' (.emptied ⟨.working, .refl _ _, fun _ _ _ => rfl⟩ (fun _ => rfl) ?_)
    rfl

theorem hands_arrive (c : Connection) (origin : Origin) (offset : Int) (whole : Bool) :
    c.Hands (c.arrive origin offset whole).1 [] (c.stream.pending = []) := by
  unfold arrive
  split
  · split
    · have hgot := System.got_seek c.system c.stream.fd .start (c.stream.offset.getD 0)
      have hseek := System.through_seek c.system c.stream.fd .start (c.stream.offset.getD 0)
      refine .kept ⟨.working, hseek, fun _ _ _ => rfl⟩ hgot ?_ ?_ <;> rfl
    split
    · exact hands_approach c offset whole
    · exact hands_moveDevice c .start offset
  · exact hands_moveDevice c origin offset

theorem hands_move (c : Connection) (origin : Origin) (offset : Int) :
    c.Hands (c.move origin offset).1 [] (c.drain.2 = true) := by
  obtain ⟨hend, hnone⟩ := hands_endOutput c
  unfold move
  dsimp only
  split <;> rename_i c₁ heq <;> rw [heq] at hend hnone
  · exact hend
  have halloc : c₁.Hands c₁.allocate [] True := hands_allocate c₁
  have hresolve : c₁.allocate.Hands (c₁.allocate.resolve origin offset).1 [] True := hands_resolve _ origin offset
  have hready := (hend.then halloc).then hresolve
  split <;> rename_i hwhere <;> rw [hwhere] at hready hresolve
  · exact hready.imp fun hok => ⟨⟨hok, trivial⟩, trivial⟩
  · refine (hready.then (hands_arrive _ _ _ _)).whenDry fun hok hdry => ⟨⟨⟨hok, trivial⟩, trivial⟩, ?_⟩
    exact hresolve.spent (halloc.spent (hnone hok hdry))

theorem hands_position (c : Connection) : c.Hands c.position.1 [] p := by
  have hseek := fun origin => System.through_seek c.system c.stream.fd origin 0
  have hgot := fun origin => System.got_seek c.system c.stream.fd origin 0
  have hbase : c.Hands (if c.stream.appends && !c.stream.pending.isEmpty then c.appendPosition
      else c.devicePosition).1 [] p := by
    split
    · have hseek := hseek .finish
      have hgot := hgot .finish
      unfold appendPosition
      split <;> rename_i heq <;> rw [heq] at hseek hgot
      · refine .kept ⟨.refl _, hseek, fun _ _ _ => rfl⟩ hgot ?_ ?_ <;> rfl
      · refine .kept ⟨.working, hseek, fun _ _ _ => rfl⟩ hgot ?_ ?_ <;> rfl
    · have hseek := hseek .current
      have hgot := hgot .current
      unfold devicePosition
      split
      · exact .refl c
      · split <;> rename_i heq <;> rw [heq] at hseek hgot
        · refine .kept ⟨.refl _, hseek, fun _ _ _ => rfl⟩ hgot ?_ ?_ <;> rfl
        · refine .kept ⟨.refl _, hseek, fun _ _ _ => rfl⟩ hgot ?_ ?_ <;> rfl
  unfold position
  split <;> rename_i heq <;> rw [heq] at hbase
  · exact hbase
  · dsimp only
    split
    · have hblamed : ∀ c₁ : Connection, ∀ e, c₁.Hands ⟨c₁.stream, { c₁.system with lastError := e }⟩ [] True :=
        fun c₁ e => .kept ⟨.refl _, .withError _ _ _, fun _ _ _ => rfl⟩ (fun _ => rfl) rfl rfl
      exact (hbase.then (hblamed _ _)).imp fun h => ⟨h, trivial⟩
    · exact hbase

theorem hands_settled (c : Connection) : c.Hands (c.update Stream.settled) [] p :=
  .kept (through_settled c) (fun _ => rfl) rfl rfl

theorem hands_unheld (c : Connection) : c.Hands (c.update ({ · with held := none })) [] p :=
  .kept (through_work c .working) (fun _ => rfl) rfl rfl

theorem hands_read (c : Connection) (n : Nat) :
    c.Hands (c.read n).1 [] (c.stream.held = none → n ≠ 0 → c.allocate.Clears n) := by
  have htake := hands_take c n
  unfold read
  split
  · exact .refl c
  rename_i hn
  split
  · exact hands_unheld c
  rename_i hheld
  dsimp only
  split
  · split
    · exact (htake.then (hands_settled (p := True) _)).imp fun h => ⟨h hheld hn, trivial⟩
    · refine Hands.imp (htake.then (q := True) ?_) fun h => ⟨h hheld hn, trivial⟩
      exact .kept (through_work _ .working) (fun _ => rfl) rfl rfl
  · exact htake.imp fun h => h hheld hn

theorem hands_readLine (c : Connection) (max : Nat) :
    c.Hands (c.readLine max).1 [] (c.stream.held = none → max ≠ 0 → c.drain.2 = true) := by
  have hline := hands_takeLine c (LineBuffer.sizeFor max - 1)
  unfold readLine
  split
  · exact .refl c
  rename_i hmax
  split
  · exact hands_unheld c
  rename_i hheld
  dsimp only
  split <;> rename_i heq <;> rw [heq] at hline
  · exact hline.imp fun h => h hheld hmax
  · split
    · exact (hline.then (hands_settled (p := True) _)).imp fun h => ⟨h hheld hmax, trivial⟩
    · exact hline.imp fun h => h hheld hmax

theorem hands_write (c : Connection) (bytes : Bytes) :
    c.Hands (c.write bytes).1 bytes ((c.write bytes).2 = .ok bytes.length ∧ c.stream.discipline ≠ .line) := by
  have haccept := hands_accept c bytes
  unfold write
  split
  · rename_i hnil
    rw [List.isEmpty_iff] at hnil
    rw [hnil]
    exact .refl c
  generalize c.accept bytes = r at haccept ⊢
  obtain ⟨c₁, n⟩ := r
  dsimp only at haccept ⊢
  split
  · have hsettled := haccept.then (hands_settled (p := True) c₁)
    refine hsettled.imp fun hall => ?_
    cases hall.1
  · refine haccept.imp fun hall => ⟨?_, hall.2⟩
    exact Except.ok.inj hall.1

/-- A flush that is answered leaves nothing pending. -/
theorem hands_flush (c : Connection) : c.Hands c.flush.1 [] (c.drain.2 = true) ∧
    (c.flush.2 = .ok () → c.drain.2 = true ∧ c.flush.1.stream.pending = []) := by
  obtain ⟨hsync, hnone⟩ := hands_sync c
  unfold flush
  split <;> rename_i heq <;> rw [heq] at hsync hnone
  · exact ⟨hsync, fun _ => hnone rfl⟩
  · exact ⟨(hsync.then (hands_settled (p := True) _)).imp fun hok => ⟨hok, trivial⟩, nofun⟩

theorem hands_tell (c : Connection) : c.Hands c.tell.1 [] p := by
  have hposition : c.Hands c.position.1 [] p := hands_position c
  unfold tell
  split <;> rename_i heq <;> rw [heq] at hposition <;> exact hposition

theorem hands_seek (c : Connection) (target : Target) : c.Hands (c.seek target).1 [] (c.drain.2 = true) := by
  unfold seek
  split
  · exact .refl c
  rename_i origin offset _
  have hmove := hands_move c origin offset
  split <;> rename_i heq <;> rw [heq] at hmove
  · exact hmove
  · exact (hmove.then (hands_tell (p := True) _)).imp fun hok => ⟨hok, trivial⟩

/-- What is done before a stream is closed hands on what is pending, and fails only if the device does not take it. -/
theorem hands_ending (c : Connection) :
    c.Hands (if c.stream.writing then c.drain else (c, true)).1 [] (c.drain.2 = true) ∧
      (c.stream.Dry → ((if c.stream.writing then c.drain else (c, true)).2 = true ↔ c.drain.2 = true) ∧
        (c.drain.2 = true → (if c.stream.writing then c.drain else (c, true)).1.stream.pending = [])) := by
  obtain ⟨hdrain, hnone⟩ := hands_drain c
  split
  · exact ⟨hdrain, fun _ => ⟨.rfl, hnone⟩⟩
  · rename_i hw
    refine ⟨.refl c, fun hdry => ?_⟩
    have hpend := hdry (by simpa using hw)
    exact ⟨iff_of_true rfl (drain_of_spent hpend), fun _ => hpend⟩

/-- A stream that is closed hands on what was pending. If that is answered, the device took all of it. -/
theorem close_hands (c : Connection) :
    (∀ i, ∃ new, c.close.1.got i = c.system.got i ++ new ∧ List.Sublist new c.stream.pending ∧
      (c.drain.2 = true → c.stream.Dry → c.system.Reaches c.stream.fd i → new = c.stream.pending)) ∧
      (c.close.2 = .ok () → c.stream.Dry → c.drain.2 = true) := by
  have hending := hands_ending c
  unfold close finish
  generalize (if c.stream.writing then c.drain else (c, true)) = r at hending
  obtain ⟨c₁, drained⟩ := r
  obtain ⟨hhands, hall⟩ := hending
  -- The descriptor that goes leaves what the devices received.
  have hgot : ∀ {sys : System}, (∀ i, sys.device? i = c₁.system.device? i) → ∀ i, ∃ new,
      sys.got i = c.system.got i ++ new ∧ List.Sublist new c.stream.pending ∧
        (c.drain.2 = true → c.stream.Dry → c.system.Reaches c.stream.fd i → new = c.stream.pending) := by
    intro sys hsame i
    obtain ⟨new, hnew, hsub⟩ := hhands.order i
    rw [List.append_nil] at hsub
    refine ⟨new, (System.got_congr hsame i).trans hnew, (List.sublist_append_left _ _).trans hsub, fun hok hdry hi => ?_⟩
    obtain ⟨new', hnew', heq⟩ := hhands.whole hok hdry i hi
    have hpend : c₁.stream.pending = [] := (hall hdry).2 hok
    rw [hpend, List.append_nil, List.append_nil] at heq
    exact (List.append_cancel_left (hnew.symm.trans hnew')).trans heq
  obtain ⟨hdrops, -⟩ := c₁.system.drops_close c₁.stream.fd
  have hdevice := hdrops.device
  rcases hclosed : c₁.system.close c₁.stream.fd with ⟨sys, _ | _⟩ <;> rw [hclosed] at hdevice <;> simp only [hclosed]
  · exact ⟨hgot hdevice, fun hok => by cases hok⟩
  · refine ⟨hgot hdevice, fun hok hdry => (hall hdry).1.1 ?_⟩
    cases drained with
    | true => rfl
    | false => cases hok

/-- The operation is carried out in full. What is written is all counted, and what is pending is taken by the device
where it is asked to; a request for input does not go past it. -/
def Completes (c : Connection) : Operation → Prop
  | .read n => c.stream.held = none → n ≠ 0 → c.allocate.Clears n
  | .readLine max => c.stream.held = none → max ≠ 0 → c.drain.2 = true
  | .write bytes => (c.write bytes).2 = .ok bytes.length ∧ c.stream.discipline ≠ .line
  | .flush | .seek _ => c.drain.2 = true
  | .tell => True
  | .setDiscipline _ => False

/-- Every operation but the change of the discipline hands on what is pending and what it is given. -/
theorem hands_operate (c : Connection) {op : Operation} (h : op.Ordinary) :
    c.Hands (c.operate op).1 op.given (c.Completes op) := by
  cases op with
  | read n => exact hands_read c n
  | readLine max => exact hands_readLine c max
  | write bytes => exact hands_write c bytes
  | flush => exact (hands_flush c).1
  | seek target => exact hands_seek c target
  | tell => exact hands_tell c
  | setDiscipline discipline => exact h.elim

end Connection

end BufferedFiles
