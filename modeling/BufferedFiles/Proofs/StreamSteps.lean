import Mathlib.Logic.Relation
import BufferedFiles.Stream.Operations

/-!
# Operations step by step

All that an operation of a stream does is a series of a few steps: calls on the descriptor, and changes of
what the stream works with. What every step keeps is kept by every primitive and by every operation.
-/
namespace BufferedFiles

namespace Stream

/-- The size of the buffer a stream has, or gets in front of an open descriptor. -/
def bufferSize (s : Stream) : Nat :=
  if s.capacity ≠ 0 then s.capacity else if s.discipline = .unbuffered then 1 else blockSize

theorem bufferSize_ne_zero (s : Stream) : s.bufferSize ≠ 0 := by
  unfold bufferSize
  split
  · assumption
  · split <;> decide

theorem capacity_le_bufferSize (s : Stream) : s.capacity ≤ s.bufferSize := by
  unfold bufferSize
  split
  · exact Nat.le_refl _
  · omega

end Stream

/-- Two states of one stream. -/
structure Stream.Kin (s t : Stream) : Prop where
  fd : t.fd = s.fd
  reads : t.reads = s.reads
  writes : t.writes = s.writes
  appends : t.appends = s.appends
  discipline : t.discipline = s.discipline
  counted : t.counted = s.counted
  capacity : s.capacity ≠ 0 → t.capacity = s.capacity

theorem Stream.Kin.refl (s : Stream) : s.Kin s := ⟨rfl, rfl, rfl, rfl, rfl, rfl, fun _ => rfl⟩

/-- A change of the buffer, the indicators and the known position alone. -/
theorem Stream.Kin.working {s : Stream} {window pending : Bytes} {cursor limit : Nat}
    {writing atEnd failed : Bool} {offset : Option Nat} {held : Option StreamError} :
    s.Kin { s with
      window := window, cursor := cursor, pending := pending, limit := limit, writing := writing,
      atEnd := atEnd, failed := failed, offset := offset, held := held } :=
  ⟨rfl, rfl, rfl, rfl, rfl, rfl, fun _ => rfl⟩

theorem Stream.Kin.trans {s t u : Stream} (h : s.Kin t) (h' : t.Kin u) : s.Kin u where
  fd := h'.fd.trans h.fd
  reads := h'.reads.trans h.reads
  writes := h'.writes.trans h.writes
  appends := h'.appends.trans h.appends
  discipline := h'.discipline.trans h.discipline
  counted := h'.counted.trans h.counted
  capacity hs := (h'.capacity (h.capacity hs ▸ hs)).trans (h.capacity hs)

/-- `t` is `s` after it got a buffer or gave up some of what it knew. Nothing came into its window, it found
no end and no position, and did not begin output. -/
structure Stream.Eases (s t : Stream) : Prop where
  kin : s.Kin t
  buffer : t.bufferSize = s.bufferSize
  window : s.window = [] → t.window = []
  atEnd : s.atEnd = false → t.atEnd = false
  writing : s.writing = false → t.writing = false
  offset : s.offset = none → t.offset = none

/-- The cursor, the pending output and the failures are nothing the stream has from its device. -/
theorem Stream.Eases.noted {s : Stream} {cursor limit : Nat} {pending : Bytes} {failed : Bool}
    {held : Option StreamError} :
    s.Eases { s with cursor := cursor, pending := pending, limit := limit, failed := failed, held := held } :=
  ⟨.working, rfl, id, id, id, id⟩

theorem Stream.Eases.settled {s : Stream} {held : Option StreamError} :
    s.Eases { s.settled with held := held } := ⟨.working, rfl, id, fun _ => rfl, id, id⟩

namespace Connection

variable {past : Prop} {a b c : Connection}

/-- A step of an operation. Nothing is read into the window of a stream that was not opened for input, and no
output begins on one that was not opened for it; `past` tells whether the stream may read past its buffer,
which it does without a look at what it was opened for. A position is found by a move that was carried out. -/
inductive Step (past : Prop) : Connection → Connection → Prop where
  | ease {c : Connection} {s : Stream} (h : c.stream.Eases s) : Step past c ⟨s, c.system⟩
  | turn {c : Connection} (hw : c.stream.writes = true) :
      Step past c ⟨{ c.stream with writing := true }, c.system⟩
  | refill {c : Connection} {window : Bytes} (hr : c.stream.reads = true ∨ past) :
      Step past c ⟨{ c.stream with window }, c.system⟩
  | reachEnd {c : Connection} (hr : c.stream.reads = true ∨ past) :
      Step past c ⟨{ c.stream with atEnd := true }, c.system⟩
  | guess {c : Connection} (ho : c.system.opened? c.stream.fd = none) (hc : c.stream.capacity = 0) :
      Step past c ⟨{ c.stream with capacity := unknownBlockSize }, c.system⟩
  | blame (c : Connection) (e : Errno) : Step past c { c with system := { c.system with lastError := e } }
  | inspect {c : Connection} {sys : System} {r : Except Errno Device}
      (h : c.system.inspect c.stream.fd = (sys, r)) : Step past c { c with system := sys }
  | read {c : Connection} {sys : System} {n : Nat} {r : Except Errno Bytes}
      (h : c.system.read c.stream.fd n = (sys, r)) : Step past c { c with system := sys }
  | write {c : Connection} {sys : System} {fuel n : Nat} {bytes : Bytes}
      (h : c.system.writeAll c.stream.fd fuel bytes = (sys, n)) : Step past c { c with system := sys }
  | seek {c : Connection} {sys : System} {origin : Origin} {offset : Int} {r : Except Errno Nat}
      (h : c.system.seek c.stream.fd origin offset = (sys, r)) : Step past c { c with system := sys }
  | place {c : Connection} {sys : System} {origin : Origin} {offset : Int} {position : Nat}
      (h : c.system.seek c.stream.fd origin offset = (sys, .ok position)) :
      Step past c ⟨{ c.stream with offset := some position }, sys⟩

theorem Step.kin (h : Step past a b) : a.stream.Kin b.stream := by
  cases h with
  | ease h => exact h.kin
  | guess _ hc => exact ⟨rfl, rfl, rfl, rfl, rfl, rfl, fun hne => absurd hc hne⟩
  | _ => exact .working

/-- A series of steps. -/
abbrev Steps (past : Prop) (a b : Connection) : Prop := Relation.ReflTransGen (Step past) a b

theorem Steps.of_eq {α : Type} {p : Connection × α} {x : α} (h : a.Steps past p.1) (e : p = (b, x)) :
    a.Steps past b := by
  rwa [e] at h

theorem Steps.kin (h : a.Steps past b) : a.stream.Kin b.stream := by
  induction h with
  | refl => exact .refl _
  | tail _ hstep ih => exact ih.trans hstep.kin

theorem steps_allocate (c : Connection) : c.Steps past c.allocate := by
  unfold allocate
  split
  · exact .refl
  · rename_i h
    have hcap : c.stream.capacity = 0 := by simpa using h
    have hgets : ∀ n, n ≠ 0 → n = c.stream.bufferSize → c.stream.Eases { c.stream with capacity := n } :=
      fun n hn hsize => ⟨⟨rfl, rfl, rfl, rfl, rfl, rfl, fun hc => absurd hcap hc⟩,
        (if_pos hn).trans hsize, id, id, id, id⟩
    split
    · rename_i hd
      exact .single (.ease (hgets 1 nofun (by rw [Stream.bufferSize, if_neg h, if_pos hd])))
    · rename_i hd
      split <;> rename_i sys _ heq
      · exact .single (.ease (hgets blockSize nofun (by rw [Stream.bufferSize, if_neg h, if_neg hd])))
      · refine .head (.inspect heq) (.single (.guess (c := ⟨c.stream, sys⟩) ?_ hcap))
        unfold System.inspect at heq
        split at heq
        · rename_i ho
          cases heq
          exact ho
        · cases heq

theorem steps_refuse (c : Connection) : c.Steps past c.refuse :=
  .head (.ease .noted) (.single (.blame _ _))

theorem steps_align (c : Connection) : c.Steps past c.align.1 := by
  unfold align
  split
  · exact .single (.ease ⟨.working, rfl, id, id, id, fun _ => rfl⟩)
  · split
    · exact .refl
    · split <;> rename_i heq
      · exact .single (.seek heq)
      · exact .single (.place heq)

theorem steps_send (c : Connection) (bytes : Bytes) : c.Steps past (c.send bytes).1 := by
  unfold send
  split <;> rename_i heq
  · exact (steps_align c).of_eq heq
  · refine ((steps_align c).of_eq heq).trans (.head (.write rfl) (.single (.ease ?_)))
    exact ⟨.working, rfl, fun _ => rfl, id, id, congrArg (Option.map _)⟩

theorem steps_drain (c : Connection) : c.Steps past c.drain.1 := by
  unfold drain
  split
  · exact .refl
  · exact steps_send c _

theorem steps_turned (c : Connection) (hw : c.stream.writes = true) :
    c.Steps past (c.update Stream.turned) := by
  refine .head (.turn hw) (.single (.ease (s := c.stream.turned) ?_))
  unfold Stream.turned
  split
  · exact ⟨.working, rfl, fun _ => rfl, id, id, id⟩
  · exact .noted

theorem steps_makeRoom (c : Connection) : c.Steps past c.makeRoom.1 := by
  unfold makeRoom
  split
  · exact steps_refuse c
  · rename_i hw
    have halloc : c.Steps past c.allocate := steps_allocate c
    have hwrites : c.allocate.stream.writes = true := halloc.kin.writes.trans (by simpa using hw)
    refine halloc.trans (.trans ?_ (steps_drain _))
    split
    · exact .refl
    · exact steps_turned _ hwrites

theorem steps_gathered (c : Connection) (bytes : Bytes) :
    c.Steps past (c.update fun s => { s with pending := s.pending ++ bytes }) :=
  .single (.ease .noted)

theorem steps_put (c : Connection) (b : UInt8) : c.Steps past (c.put b).1 := by
  have hd : c.Steps past (if c.stream.filled = c.stream.capacity then c.drain else (c, true)).1 := by
    split
    · exact steps_drain c
    · exact .refl
  unfold put
  split <;> rename_i heq
  · exact hd.of_eq heq
  · refine (hd.of_eq heq).trans ((steps_gathered _ [b]).trans ?_)
    dsimp only
    split
    · exact steps_drain _
    · exact .refl

theorem steps_putAll (c : Connection) (bytes : Bytes) : c.Steps past (c.putAll bytes).1 := by
  induction bytes generalizing c with
  | nil => exact .refl
  | cons b rest ih =>
    simp only [putAll]
    split <;> rename_i heq
    · exact (steps_put c b).of_eq heq
    · exact ((steps_put c b).of_eq heq).trans (ih _)

theorem steps_gather (c : Connection) (bytes : Bytes) : c.Steps past (c.gather bytes).1 :=
  (steps_gathered c _).trans (steps_putAll _ _)

theorem steps_passOver (c : Connection) (bytes : Bytes) : c.Steps past (c.passOver bytes).1 := by
  unfold passOver
  dsimp only
  split
  · exact steps_gather c bytes
  · split
    · exact steps_send c _
    · exact (steps_send c _).trans (steps_gather _ _)

theorem steps_accept (c : Connection) (bytes : Bytes) : c.Steps past (c.accept bytes).1 := by
  have hg : c.Steps past _ := steps_gathered c (bytes.take (min (c.stream.room bytes).1 bytes.length))
  unfold accept
  dsimp only
  split
  · exact hg
  · split <;> rename_i heq
    · exact hg.trans ((steps_makeRoom _).of_eq heq)
    · exact hg.trans (((steps_makeRoom _).of_eq heq).trans (steps_passOver _ _))

theorem steps_endOutput (c : Connection) : c.Steps past c.endOutput.1 := by
  unfold endOutput
  split
  · exact .refl
  · split <;> rename_i heq
    · exact (steps_drain c).of_eq heq
    · exact ((steps_drain c).of_eq heq).tail (.ease ⟨.working, rfl, id, id, fun _ => rfl, id⟩)

theorem steps_fill (c : Connection) : c.Steps past c.fill.1 := by
  unfold fill
  split <;> rename_i c₁ heq
  · exact (steps_endOutput c).of_eq heq
  · refine ((steps_endOutput c).of_eq heq).trans ?_
    split
    · exact .refl
    split
    · exact steps_refuse _
    rename_i hr
    have halloc : c₁.Steps past c₁.allocate := steps_allocate c₁
    have hreads : c₁.allocate.stream.reads = true := halloc.kin.reads.trans (by simpa using hr)
    refine halloc.trans ?_
    dsimp only
    split <;> rename_i heq'
    · exact .head (.read heq') (.single (.ease ⟨.working, rfl, fun _ => rfl, id, id, fun _ => rfl⟩))
    · refine .head (.read heq') (.head (.reachEnd (.inl hreads)) (.single (.ease ?_)))
      exact ⟨.working, rfl, fun _ => rfl, id, id, fun _ => rfl⟩
    · rename_i sys bytes _
      have hread : c₁.allocate.Steps past ⟨{ c₁.allocate.stream with window := bytes }, sys⟩ :=
        .head (.read heq') (.single (.refill (.inl hreads)))
      exact hread.tail (.ease ⟨.working, rfl, id, id, id, congrArg (Option.map _)⟩)

theorem steps_readPast (hpast : past) (c : Connection) (n : Nat) : c.Steps past (c.readPast n).1 := by
  unfold readPast
  dsimp only [Stream.emptied]
  split <;> rename_i heq
  · exact .head (.read heq) (.single (.ease ⟨.working, rfl, fun _ => rfl, id, id, id⟩))
  · refine .head (.read heq) (.head (.reachEnd (.inr hpast)) (.single (.ease ?_)))
    exact ⟨.working, rfl, fun _ => rfl, id, id, id⟩
  · exact .head (.read heq) (.single (.ease ⟨.working, rfl, fun _ => rfl, id, id, congrArg (Option.map _)⟩))

theorem steps_skip (c : Connection) (n : Nat) : c.Steps past (c.update (·.skip n)) := .single (.ease .noted)

theorem steps_takeRounds (hpast : past) (rounds : Nat) (c : Connection) (n : Nat) :
    c.Steps past (takeRounds rounds c n).1 := by
  induction rounds generalizing c n with
  | zero => exact .refl
  | succ rounds ih =>
    have hskip : c.Steps past _ := steps_skip c (c.stream.ahead.take n).length
    simp only [takeRounds]
    split
    · exact hskip
    · split
      · split <;> rename_i heq
        · exact hskip.trans ((steps_fill _).of_eq heq)
        · exact hskip.trans (((steps_fill _).of_eq heq).trans (ih _ _))
      · split <;> rename_i heq
        · exact hskip.trans ((steps_readPast hpast _ _).of_eq heq)
        · exact hskip.trans (((steps_readPast hpast _ _).of_eq heq).trans (ih _ _))

theorem steps_take (hpast : past) (c : Connection) (n : Nat) : c.Steps past (c.take n).1 :=
  (steps_allocate c).trans (steps_takeRounds hpast _ _ _)

theorem steps_takeLineRounds (rounds : Nat) (c : Connection) (n : Nat) :
    c.Steps past (takeLineRounds rounds c n).1 := by
  induction rounds generalizing c n with
  | zero => exact .refl
  | succ rounds ih =>
    have hf : c.Steps past (if c.stream.ahead.isEmpty then c.fill else (c, true)).1 := by
      split
      · exact steps_fill c
      · exact .refl
    simp only [takeLineRounds]
    split
    · exact .refl
    · split <;> rename_i heq
      · exact hf.of_eq heq
      · refine (hf.of_eq heq).trans ?_
        split
        · exact steps_skip _ _
        · exact (steps_skip _ _).trans (ih _ _)

theorem steps_takeLine (c : Connection) (n : Nat) : c.Steps past (c.takeLine n).1 := by
  have hfirst : c.Steps past (c.update ({ · with failed := false })) := .single (.ease .noted)
  exact (hfirst.trans (steps_takeLineRounds n _ n)).tail (.ease .noted)

theorem steps_sync (c : Connection) : c.Steps past c.sync.1 := by
  unfold sync
  split <;> rename_i c₁ heq
  · exact (steps_drain c).of_eq heq
  · refine ((steps_drain c).of_eq heq).trans ?_
    split
    · exact .single (.ease ⟨.working, rfl, id, id, id, fun _ => rfl⟩)
    · split <;> rename_i heq'
      · refine .head (.seek heq') (.single (.ease ⟨.working, rfl, fun hnil => ?_, id, id, fun _ => rfl⟩))
        exact (congrArg (List.take _) hnil).trans List.take_nil
      · split
        · exact .head (.seek heq') (.single (.ease ⟨.working, rfl, id, id, id, fun _ => rfl⟩))
        · exact .single (.seek heq')

theorem steps_moveDevice (c : Connection) (origin : Origin) (offset : Int) :
    c.Steps past (c.moveDevice origin offset).1 := by
  unfold moveDevice
  split <;> rename_i heq
  · exact .single (.seek heq)
  · exact .head (.place heq) (.single (.ease ⟨.working, rfl, fun _ => rfl, fun _ => rfl, id, id⟩))

theorem steps_resolve (c : Connection) (origin : Origin) (offset : Int) :
    c.Steps past (c.resolve origin offset).1 := by
  unfold resolve
  split
  · exact .refl
  · dsimp only
    split
    · exact .refl
    · split
      · exact .single (.blame _ _)
      · exact .refl
  · split <;> rename_i heq
    · exact .single (.inspect heq)
    · split <;> exact .single (.inspect heq)

theorem steps_approach (c : Connection) (hr : c.stream.reads = true ∨ past) (target : Int) (exact : Bool) :
    c.Steps past (c.approach target exact).1 := by
  unfold approach
  dsimp only
  split
  · rename_i heq
    exact .single (.seek heq)
  rename_i boundary heq
  split
  · exact .head (.place heq) (.single (.ease ⟨.working, rfl, fun _ => rfl, fun _ => rfl, id, id⟩))
  split <;> rename_i sys bytes heq'
  · exact .trans (.head (.seek heq) (.single (.read heq'))) (steps_moveDevice _ _ _)
  split
  · exact .trans (.head (.seek heq) (.single (.read heq'))) (steps_moveDevice _ _ _)
  · have hplaced : c.Steps past ⟨{ c.stream with offset := some boundary }, sys⟩ :=
      .head (.place heq) (.single (.read heq'))
    have hfilled : c.Steps past ⟨{ c.stream with offset := some boundary, window := bytes }, sys⟩ :=
      hplaced.tail (.refill hr)
    exact hfilled.tail (.ease ⟨.working, rfl, id, fun _ => rfl, id, nofun⟩)

theorem steps_arrive (c : Connection) (origin : Origin) (offset : Int) (exact : Bool) :
    c.Steps past (c.arrive origin offset exact).1 := by
  unfold arrive
  split
  · split
    · rename_i index _
      have hindex : c.Steps past (c.update ({ · with cursor := index, atEnd := false })) :=
        .single (.ease ⟨.working, rfl, id, fun _ => rfl, id, id⟩)
      exact hindex.tail (.seek (Prod.eta _).symm)
    · split
      · rename_i hr
        exact steps_approach _ (.inl hr) _ _
      · exact steps_moveDevice _ _ _
  · exact steps_moveDevice _ _ _

theorem steps_move (c : Connection) (origin : Origin) (offset : Int) :
    c.Steps past (c.move origin offset).1 := by
  unfold move
  dsimp only
  split <;> rename_i heq
  · exact (steps_endOutput c).of_eq heq
  · refine ((steps_endOutput c).of_eq heq).trans ((steps_allocate _).trans ?_)
    split <;> rename_i heq'
    · exact (steps_resolve _ _ _).of_eq heq'
    · exact ((steps_resolve _ _ _).of_eq heq').trans (steps_arrive _ _ _ _)

theorem steps_devicePosition (c : Connection) : c.Steps past c.devicePosition.1 := by
  unfold devicePosition
  split
  · exact .refl
  · split <;> rename_i heq <;> exact .single (.seek heq)

theorem steps_appendPosition (c : Connection) : c.Steps past c.appendPosition.1 := by
  unfold appendPosition
  split <;> rename_i heq
  · exact .single (.seek heq)
  · exact .single (.place heq)

theorem steps_position (c : Connection) : c.Steps past c.position.1 := by
  have hb : c.Steps past (if c.stream.appends && !c.stream.pending.isEmpty then c.appendPosition
      else c.devicePosition).1 := by
    split
    · exact steps_appendPosition c
    · exact steps_devicePosition c
  unfold position
  split <;> rename_i heq
  · exact hb.of_eq heq
  · dsimp only
    split
    · exact (hb.of_eq heq).tail (.blame _ _)
    · exact hb.of_eq heq

theorem steps_settled (c : Connection) : c.Steps past (c.update Stream.settled) := .single (.ease .settled)

theorem steps_read (hpast : past) (c : Connection) (n : Nat) : c.Steps past (c.read n).1 := by
  have ht := steps_take hpast c n
  unfold read
  split
  · exact .refl
  split
  · exact .single (.ease .noted)
  dsimp only
  split
  · split
    · exact ht.trans (steps_settled _)
    · exact ht.tail (.ease .settled)
  · exact ht

theorem steps_readLine (c : Connection) (max : Nat) : c.Steps past (c.readLine max).1 := by
  unfold readLine
  split
  · exact .refl
  split
  · exact .single (.ease .noted)
  dsimp only
  split <;> rename_i heq
  · exact (steps_takeLine c _).of_eq heq
  · have ht : c.Steps past _ := (steps_takeLine c _).of_eq heq
    split
    · exact ht.trans (steps_settled _)
    · exact ht

theorem steps_write (c : Connection) (bytes : Bytes) : c.Steps past (c.write bytes).1 := by
  unfold write
  split
  · exact .refl
  dsimp only
  split
  · exact (steps_accept c bytes).trans (steps_settled _)
  · exact steps_accept c bytes

theorem steps_flush (c : Connection) : c.Steps past c.flush.1 := by
  unfold flush
  split <;> rename_i heq
  · exact (steps_sync c).of_eq heq
  · exact ((steps_sync c).of_eq heq).trans (steps_settled _)

theorem steps_tell (c : Connection) : c.Steps past c.tell.1 := by
  unfold tell
  split <;> rename_i heq <;> exact (steps_position c).of_eq heq

theorem steps_seek (c : Connection) (target : Target) : c.Steps past (c.seek target).1 := by
  unfold seek
  split
  · exact .refl
  split <;> rename_i heq
  · exact (steps_move c _ _).of_eq heq
  · exact ((steps_move c _ _).of_eq heq).trans (steps_tell _)

end Connection

end BufferedFiles
