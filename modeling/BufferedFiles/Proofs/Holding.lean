import BufferedFiles.Proofs.IndicatorRuns

/-!
# What a held failure touches

Nothing but the next read or line looks at a held failure. Every primitive does the same whatever is
held, and leaves it; so does every operation that asks for no bytes, and the release of the stream.
-/
namespace BufferedFiles

namespace Connection

variable {α : Type} {c : Connection}

/-- The connection with `held` as its held failure. -/
def holding (held : Option StreamError) (c : Connection) : Connection := c.update ({ · with held })

/-- An outcome with `held` as the held failure. -/
def underHeld (held : Option StreamError) (r : Connection × α) : Connection × α := (r.1.holding held, r.2)

variable (held : Option StreamError)

@[simp] theorem holding_system (c : Connection) : (c.holding held).system = c.system := rfl

@[simp] theorem holding_stream (c : Connection) : (c.holding held).stream = { c.stream with held } := rfl

/-- What does the same whatever is held keeps what is held. -/
theorem held_of_holding {f : Connection → Connection × α}
    (h : ∀ held c, f (c.holding held) = underHeld held (f c)) (c : Connection) :
    (f c).1.stream.held = c.stream.held := by
  have hsame : c.holding c.stream.held = c := rfl
  have hkeep := congrArg (·.1.stream.held) (h c.stream.held c)
  rwa [hsame] at hkeep

theorem allocate_holding (c : Connection) : (c.holding held).allocate = c.allocate.holding held := by
  unfold allocate
  dsimp +instances only [holding, update]
  split
  · rfl
  split
  · rfl
  · rcases c.system.inspect c.stream.fd with ⟨sys, _ | _⟩ <;> rfl

theorem align_holding (c : Connection) : (c.holding held).align = underHeld held c.align := by
  unfold align
  dsimp +instances only [holding, update]
  split
  · rfl
  split
  · rfl
  · rcases c.system.seek c.stream.fd .current (c.stream.cursor - c.stream.window.length) with
      ⟨sys, _ | _⟩ <;> rfl

theorem send_holding (c : Connection) (bytes : Bytes) :
    (c.holding held).send bytes = underHeld held (c.send bytes) := by
  unfold send
  rw [align_holding]
  rcases c.align with ⟨c₁, _ | _⟩ <;> rfl

theorem drain_holding (c : Connection) : (c.holding held).drain = underHeld held c.drain := by
  unfold drain
  rw [send_holding]
  dsimp +instances only [holding, update, underHeld]
  split <;> rfl

theorem makeRoom_holding (c : Connection) : (c.holding held).makeRoom = underHeld held c.makeRoom := by
  have hturned : (if (c.allocate.holding held).stream.writing then c.allocate.holding held
      else (c.allocate.holding held).update Stream.turned) =
      (if c.allocate.stream.writing then c.allocate else c.allocate.update Stream.turned).holding held := by
    have hturn : (c.allocate.holding held).update Stream.turned =
        (c.allocate.update Stream.turned).holding held := by
      dsimp +instances only [holding, update, Stream.turned]
      split <;> rfl
    rw [hturn]
    dsimp +instances only [holding, update]
    split <;> rfl
  unfold makeRoom
  rw [allocate_holding]
  dsimp only
  rw [hturned, drain_holding]
  dsimp +instances only [holding, update, underHeld]
  split <;> rfl

theorem put_holding (c : Connection) (b : UInt8) : (c.holding held).put b = underHeld held (c.put b) := by
  have hfull : (if (c.holding held).stream.filled = (c.holding held).stream.capacity then (c.holding held).drain
      else (c.holding held, true)) =
      underHeld held (if c.stream.filled = c.stream.capacity then c.drain else (c, true)) := by
    rw [drain_holding]
    by_cases hf : c.stream.filled = c.stream.capacity
    · rw [if_pos hf]
      exact if_pos hf
    · rw [if_neg hf]
      exact if_neg hf
  unfold put
  rw [hfull]
  rcases (if c.stream.filled = c.stream.capacity then c.drain else (c, true)) with ⟨c₁, _ | _⟩
  · rfl
  · dsimp only [underHeld]
    have hgathered : (c₁.holding held).update (fun s => { s with pending := s.pending ++ [b] }) =
        (c₁.update fun s => { s with pending := s.pending ++ [b] }).holding held := rfl
    rw [hgathered, drain_holding]
    dsimp +instances only [holding, update, underHeld]
    split <;> rfl

theorem putAll_holding (c : Connection) (bytes : Bytes) :
    (c.holding held).putAll bytes = underHeld held (c.putAll bytes) := by
  induction bytes generalizing c with
  | nil => rfl
  | cons b rest ih =>
    simp only [putAll, put_holding]
    rcases c.put b with ⟨c₁, _ | _⟩
    · rfl
    · simp only [underHeld, ih]

theorem gather_holding (c : Connection) (bytes : Bytes) :
    (c.holding held).gather bytes = underHeld held (c.gather bytes) := by
  have hput := fun n => putAll_holding held (c.update fun s => { s with pending := s.pending ++ bytes.take n })
    (bytes.drop n)
  unfold gather
  exact congrArg (fun r : Connection × Nat => (r.1, _ + r.2)) (hput _)

theorem passOver_holding (c : Connection) (bytes : Bytes) :
    (c.holding held).passOver bytes = underHeld held (c.passOver bytes) := by
  unfold passOver
  have hdirect : (c.holding held).stream.direct bytes.length = c.stream.direct bytes.length := rfl
  simp only [hdirect, send_holding, gather_holding]
  generalize c.stream.direct bytes.length = n
  split
  · rfl
  · rcases c.send (bytes.take n) with ⟨c₁, m⟩
    simp only [underHeld, gather_holding]
    split <;> rfl

theorem accept_holding (c : Connection) (bytes : Bytes) :
    (c.holding held).accept bytes = underHeld held (c.accept bytes) := by
  have hroom : (c.holding held).stream.room bytes = c.stream.room bytes := rfl
  have hmake := fun n =>
    makeRoom_holding held (c.update fun s => { s with pending := s.pending ++ bytes.take n })
  unfold accept
  rw [hroom]
  rcases c.stream.room bytes with ⟨free, handOn⟩
  dsimp only
  generalize min free bytes.length = n
  split
  · rfl
  · have hgathered : (c.holding held).update (fun s => { s with pending := s.pending ++ bytes.take n }) =
        (c.update fun s => { s with pending := s.pending ++ bytes.take n }).holding held := rfl
    rw [hgathered, hmake n]
    rcases (c.update fun s => { s with pending := s.pending ++ bytes.take n }).makeRoom with ⟨c₁, _ | _⟩
    · rfl
    · simp only [underHeld, passOver_holding]

theorem endOutput_holding (c : Connection) : (c.holding held).endOutput = underHeld held c.endOutput := by
  unfold endOutput
  rw [drain_holding]
  dsimp +instances only [holding, update]
  split
  · rfl
  · rcases c.drain with ⟨c₁, _ | _⟩ <;> rfl

theorem fill_holding (c : Connection) : (c.holding held).fill = underHeld held c.fill := by
  unfold fill
  rw [endOutput_holding]
  rcases c.endOutput with ⟨c₁, _ | _⟩
  · rfl
  dsimp only [underHeld]
  rw [allocate_holding]
  dsimp +instances only [holding, update]
  split
  · rfl
  split
  · rfl
  · rcases c₁.allocate.system.read c₁.allocate.stream.fd c₁.allocate.stream.capacity with
      ⟨sys, _ | _ | ⟨b, bytes⟩⟩ <;> rfl

theorem readPast_holding (c : Connection) (n : Nat) :
    (c.holding held).readPast n = underHeld held (c.readPast n) := by
  unfold readPast
  dsimp only [holding, update, Stream.emptied]
  rcases c.system.read c.stream.fd n with ⟨sys, _ | _ | ⟨b, bytes⟩⟩ <;> rfl

theorem takeRounds_holding (rounds : Nat) (c : Connection) (n : Nat) :
    takeRounds rounds (c.holding held) n = underHeld held (takeRounds rounds c n) := by
  induction rounds generalizing c n with
  | zero => rfl
  | succ rounds ih =>
    have hahead : (c.holding held).stream.ahead = c.stream.ahead := rfl
    have hskip : (c.holding held).update (·.skip (c.stream.ahead.take n).length) =
        (c.update (·.skip (c.stream.ahead.take n).length)).holding held := rfl
    simp only [takeRounds, hahead, hskip, fill_holding, readPast_holding]
    generalize c.stream.ahead.take n = found
    generalize c.update (·.skip found.length) = c₁
    have hsame : (c₁.holding held).stream.capacity = c₁.stream.capacity ∧
        ∀ m, (c₁.holding held).stream.direct m = c₁.stream.direct m := ⟨rfl, fun _ => rfl⟩
    simp only [hsame.1, hsame.2]
    split
    · rfl
    split
    · rcases c₁.fill with ⟨c₂, _ | _⟩
      · rfl
      · simp only [underHeld, ih]
    · rcases c₁.readPast (c₁.stream.direct (n - found.length)) with ⟨c₂, _ | ⟨b, bytes⟩⟩
      · rfl
      · simp only [underHeld, ih]

theorem take_holding (c : Connection) (n : Nat) : (c.holding held).take n = underHeld held (c.take n) := by
  unfold take
  rw [allocate_holding, takeRounds_holding]

theorem takeLineRounds_holding (rounds : Nat) (c : Connection) (n : Nat) :
    takeLineRounds rounds (c.holding held) n = underHeld held (takeLineRounds rounds c n) := by
  induction rounds generalizing c n with
  | zero => rfl
  | succ rounds ih =>
    have hrefill : (if (c.holding held).stream.ahead.isEmpty then (c.holding held).fill
        else (c.holding held, true)) =
        underHeld held (if c.stream.ahead.isEmpty then c.fill else (c, true)) := by
      rw [fill_holding]
      by_cases hnil : c.stream.ahead.isEmpty = true
      · rw [if_pos hnil]
        exact if_pos hnil
      · rw [if_neg hnil]
        exact if_neg hnil
    simp only [takeLineRounds, hrefill]
    split
    · rfl
    rcases (if c.stream.ahead.isEmpty then c.fill else (c, true)) with ⟨c₁, _ | _⟩
    · rfl
    have hahead : (c₁.holding held).stream.ahead = c₁.stream.ahead := rfl
    have hskip : ∀ m, (c₁.holding held).update (·.skip m) = (c₁.update (·.skip m)).holding held :=
      fun _ => rfl
    simp only [underHeld, hahead, hskip, ih]
    split <;> rfl

theorem takeLine_holding (c : Connection) (n : Nat) :
    (c.holding held).takeLine n = underHeld held (c.takeLine n) := by
  have hclear : (c.holding held).update ({ · with failed := false }) =
      (c.update ({ · with failed := false })).holding held := rfl
  simp only [takeLine, hclear, takeLineRounds_holding]
  rfl

theorem sync_holding (c : Connection) : (c.holding held).sync = underHeld held c.sync := by
  unfold sync
  rw [drain_holding]
  rcases c.drain with ⟨c₁, _ | _⟩
  · rfl
  dsimp only [underHeld]
  have hahead : (c₁.holding held).stream.ahead = c₁.stream.ahead := rfl
  rw [hahead]
  split
  · rfl
  dsimp only [holding, update]
  rcases c₁.system.seek c₁.stream.fd .current (-c₁.stream.ahead.length) with ⟨sys, _ | _⟩
  · dsimp only
    split <;> rfl
  · rfl

theorem moveDevice_holding (c : Connection) (origin : Origin) (offset : Int) :
    (c.holding held).moveDevice origin offset = underHeld held (c.moveDevice origin offset) := by
  unfold moveDevice
  dsimp only [holding, update]
  rcases c.system.seek c.stream.fd origin offset with ⟨sys, _ | _⟩ <;> rfl

theorem resolve_holding (c : Connection) (origin : Origin) (offset : Int) :
    (c.holding held).resolve origin offset = underHeld held (c.resolve origin offset) := by
  have hahead : (c.holding held).stream.ahead = c.stream.ahead := rfl
  have hoffset : (c.holding held).stream.offset = c.stream.offset := rfl
  unfold resolve
  cases origin with
  | start => rfl
  | current =>
    rw [hahead, hoffset]
    cases c.stream.offset with
    | none => rfl
    | some position =>
      dsimp only
      split <;> rfl
  | finish =>
    dsimp only [holding, update]
    rcases c.system.inspect c.stream.fd with ⟨sys, _ | dev⟩
    · rfl
    · dsimp only
      split <;> rfl

theorem approach_holding (c : Connection) (target : Int) (exact : Bool) :
    (c.holding held).approach target exact = underHeld held (c.approach target exact) := by
  have hmove : ∀ sys offset, moveDevice { c.holding held with system := sys } .current offset =
      underHeld held (moveDevice { c with system := sys } .current offset) := fun sys offset =>
    moveDevice_holding held { c with system := sys } .current offset
  unfold approach
  dsimp only [holding, update] at hmove ⊢
  rcases c.system.seek c.stream.fd .start (target - (target % c.stream.capacity).toNat) with
    ⟨sys, _ | boundary⟩
  · rfl
  dsimp only
  split
  · rfl
  rcases sys.read c.stream.fd (if exact then (target % c.stream.capacity).toNat else c.stream.capacity) with
    ⟨sys', _ | bytes⟩
  · exact hmove sys' _
  · dsimp only
    split
    · exact hmove sys' _
    · rfl

theorem arrive_holding (c : Connection) (origin : Origin) (offset : Int) (exact : Bool) :
    (c.holding held).arrive origin offset exact = underHeld held (c.arrive origin offset exact) := by
  have hwindow : (c.holding held).inWindow? offset = c.inWindow? offset := rfl
  unfold arrive
  simp only [hwindow, moveDevice_holding, approach_holding]
  split
  · rcases c.inWindow? offset with _ | index
    · dsimp +instances only [holding, update]
      split <;> rfl
    · rfl
  · rfl

theorem move_holding (c : Connection) (origin : Origin) (offset : Int) :
    (c.holding held).move origin offset = underHeld held (c.move origin offset) := by
  unfold move
  rw [endOutput_holding]
  dsimp only [holding_stream]
  rcases c.endOutput with ⟨c₁, _ | _⟩
  · rfl
  simp only [underHeld, allocate_holding, resolve_holding]
  rcases c₁.allocate.resolve origin offset with ⟨c₂, _ | ⟨origin', offset'⟩⟩
  · rfl
  · exact arrive_holding held c₂ origin' offset' _

theorem position_holding (c : Connection) : (c.holding held).position = underHeld held c.position := by
  have hbase : (if (c.holding held).stream.appends && !(c.holding held).stream.pending.isEmpty then
      (c.holding held).appendPosition else (c.holding held).devicePosition) =
      underHeld held (if c.stream.appends && !c.stream.pending.isEmpty then c.appendPosition
        else c.devicePosition) := by
    have happend : (c.holding held).appendPosition = underHeld held c.appendPosition := by
      unfold appendPosition
      dsimp only [holding, update]
      rcases c.system.seek c.stream.fd .finish 0 with ⟨sys, _ | position⟩ <;> rfl
    have hdevice : (c.holding held).devicePosition = underHeld held c.devicePosition := by
      have hoffset : (c.holding held).stream.offset = c.stream.offset := rfl
      unfold devicePosition
      rw [hoffset]
      cases c.stream.offset with
      | some position => rfl
      | none =>
        dsimp only [holding, update]
        rcases c.system.seek c.stream.fd .current 0 with ⟨sys, _ | position⟩ <;> rfl
    rw [happend, hdevice]
    dsimp +instances only [holding, update]
    split <;> rfl
  have hdisplacement : (c.holding held).displacement = c.displacement := rfl
  unfold position
  rw [hbase, hdisplacement]
  rcases (if c.stream.appends && !c.stream.pending.isEmpty then c.appendPosition else c.devicePosition) with
    ⟨q, _ | base⟩
  · rfl
  · dsimp only [underHeld]
    split <;> rfl

theorem write_holding (c : Connection) (bytes : Bytes) :
    (c.holding held).write bytes = underHeld held (c.write bytes) := by
  unfold write
  rw [accept_holding]
  split
  · rfl
  · rcases c.accept bytes with ⟨c₁, n⟩
    dsimp +instances only [underHeld, holding, update]
    split <;> rfl

theorem flush_holding (c : Connection) : (c.holding held).flush = underHeld held c.flush := by
  unfold flush
  rw [sync_holding]
  rcases c.sync with ⟨c₁, _ | _⟩ <;> rfl

theorem tell_holding (c : Connection) : (c.holding held).tell = underHeld held c.tell := by
  unfold tell
  rw [position_holding]
  rcases c.position with ⟨c₁, _ | position⟩ <;> rfl

theorem seek_holding (c : Connection) (target : Target) :
    (c.holding held).seek target = underHeld held (c.seek target) := by
  unfold seek
  rcases target.parts? with _ | ⟨origin, offset⟩
  · rfl
  dsimp only
  rw [move_holding]
  rcases c.move origin offset with ⟨c₁, _ | _⟩
  · rfl
  · exact tell_holding held c₁

theorem setDiscipline_holding (c : Connection) (discipline : Discipline) :
    (c.holding held).setDiscipline discipline = underHeld held (c.setDiscipline discipline) := by
  have hset : (c.holding held).update ({ · with discipline }) =
      (c.update ({ · with discipline })).holding held := rfl
  unfold setDiscipline
  rw [hset]
  cases discipline with
  | full =>
    dsimp only
    rw [allocate_holding]
    rfl
  | line => rfl
  | unbuffered =>
    dsimp only
    rw [sync_holding]
    rcases (c.update ({ · with discipline := .unbuffered })).sync with ⟨c₁, _ | _⟩ <;> rfl

/-- A stream is released the same way whatever is held, and what is held goes with it. -/
theorem close_holding (c : Connection) : (c.holding held).close = c.close := by
  have hdrain : (if (c.holding held).stream.writing then (c.holding held).drain else (c.holding held, true)) =
      underHeld held (if c.stream.writing then c.drain else (c, true)) := by
    rw [drain_holding]
    dsimp +instances only [holding, update]
    split <;> rfl
  have hfinish : (c.holding held).finish = c.finish := by
    unfold finish
    rw [hdrain]
    rfl
  unfold close
  rw [hfinish]
  rfl

end Connection

namespace Operation

/-- The operations that ask for bytes; a request for none is none of them. -/
def asks : Operation → Bool
  | .read n => n ≠ 0
  | .readLine max => max ≠ 0
  | _ => false

end Operation

namespace Connection

/-- An operation that asks for no bytes does the same whatever is held, and what is held stays. -/
theorem operate_holding {op : Operation} (h : op.asks = false) (held : Option StreamError) (c : Connection) :
    (c.holding held).operate op = underHeld held (c.operate op) := by
  cases op with
  | read n =>
    have hn : n = 0 := by simpa [Operation.asks] using h
    subst hn
    rfl
  | readLine max =>
    have hn : max = 0 := by simpa [Operation.asks] using h
    subst hn
    rfl
  | write bytes => simp only [operate, write_holding]; rfl
  | flush => simp only [operate, flush_holding]; rfl
  | seek target => simp only [operate, seek_holding]; rfl
  | tell => simp only [operate, tell_holding]; rfl
  | setDiscipline discipline => simp only [operate, setDiscipline_holding]; rfl

end Connection

end BufferedFiles
