import BufferedFiles.Proofs.DeviceReads
import BufferedFiles.Proofs.RequestOperations
import BufferedFiles.Proofs.WrongDirection

/-!
# Every operation on a file

What each operation of an open stream does to the file it stands for, whatever the stream was opened for:
operations in the wrong direction are refused, and input directly after output is input after the output has
ended. The operations that are left out are those of which output is lost, input that goes past the buffer to a
descriptor the stream was not opened to read, and what goes to the last position there is or just past the last
offset.
-/
namespace BufferedFiles

namespace Target

/-- Offsets that are relative are kept in 64 bits. -/
def Fits : Target → Prop
  | .start _ => True
  | .current offset | .finish offset => Connection.IsOffset offset

theorem Fits.isOffset {target : Target} {origin : Origin} {offset : Int} (h : target.Fits)
    (hparts : target.parts? = some (origin, offset)) : Connection.IsOffset offset := by
  refine isOffset_of_parts (fun n hn => ?_) hparts
  rcases hn with rfl | rfl <;> exact h

end Target

/-- An operation with offsets that fit, and no change of the discipline. -/
def Operation.Fits : Operation → Prop
  | .seek target => target.Fits
  | .setDiscipline _ => False
  | _ => True

/-- What a stream was opened for. -/
structure Purpose where
  reads : Bool
  writes : Bool
  appends : Bool
  deriving DecidableEq, Repr

def Stream.purpose (s : Stream) : Purpose := ⟨s.reads, s.writes, s.appends⟩

theorem Stream.Kin.purpose {s t : Stream} (h : s.Kin t) : t.purpose = s.purpose := by
  simp only [Stream.purpose, h.reads, h.writes, h.appends]

theorem Stream.ahead_of_window {s : Stream} (h : s.window = []) : s.ahead = [] := by
  rw [ahead, h, List.drop_nil, ite_self]

namespace PlainFile

/-- The exact place a target stands for. -/
def aim (f : PlainFile) : Target → Int
  | .start offset => offset
  | .current offset => f.position + offset
  | .finish offset => f.contents.length + offset

theorem base_add (f : PlainFile) {target : Target} {origin : Origin} {offset : Int}
    (h : target.parts? = some (origin, offset)) : f.base origin + offset = f.aim target := by
  cases target with
  | start n =>
    simp only [Target.parts?] at h
    split at h
    · cases h
      exact Int.zero_add _
    · cases h
  | current n =>
    cases h
    rfl
  | finish n =>
    cases h
    rfl

/-- A move goes to the exact place, or nowhere. -/
theorem call_seek (f : PlainFile) {limit : Nat} (hlimit : limit ≤ largestPosition) (appending : Bool)
    (target : Target) : f.call limit appending (.seek target) = f.goTo limit (f.aim target) := by
  cases target with
  | start n =>
    simp only [call, Target.parts?, aim]
    by_cases hn : n ≤ largestPosition
    · simp only [if_pos hn, base, Int.natCast_zero, Int.zero_add]
    · have hout : ¬ Connection.InReach limit n := fun hin => hn (Nat.le_trans (Int.ofNat_le.1 hin.2) hlimit)
      simp only [if_neg hn, goTo, if_neg hout]
  | current n => rfl
  | finish n => rfl

def turnedDown (primitive : String) : Reply := .refused (.stream (.ofErrno primitive .badDescriptor))

/-- What an operation does to a plain file, and its reply. -/
def serve (f : PlainFile) (limit : Nat) (purpose : Purpose) : Operation → PlainFile × Reply
  | .read n =>
    if n = 0 then (f, .answer (.bytes []))
    else if purpose.reads then f.give (f.rest.take n) else (f, turnedDown "fread")
  | .readLine max =>
    if max = 0 then (f, .answer (.bytes []))
    else if purpose.reads then f.give (Supply.line (.bytes f.rest) (min max lineLimit)) else (f, turnedDown "fgets")
  | .write bytes =>
    if bytes = [] then (f, .answer (.count 0))
    else if purpose.writes then (f.write purpose.appends bytes, .answer (.count bytes.length))
    else (f, turnedDown "fwrite")
  | .flush => (f, .answer .done)
  | .seek target => f.goTo limit (f.aim target)
  | .tell => (f, .answer (.count f.position))
  | .setDiscipline _ => (f, .senseless)

end PlainFile

namespace Connection

variable {c c' q : Connection} {f g : PlainFile} {n : Nat} {op : Operation}

/-- The descriptor can be read, and the stream was not opened to read it. -/
def Ajar (c : Connection) : Prop :=
  c.stream.reads = false ∧ ∃ d dev, c.system.opened? c.stream.fd = some (d, dev) ∧ d.readable = true

/-- Input of a whole buffer goes past the buffer: what is pending there is lost, and a descriptor is read that
the stream was not opened to read. -/
def Bypasses (c : Connection) (n : Nat) : Prop :=
  c.allocate.stream.capacity ≤ n ∧ (c.stream.pending ≠ [] ∨ c.Ajar)

/-- An operation that goes past the buffer, or puts out bytes the device does not take. -/
def Wastes (c : Connection) : Operation → Prop
  | .read n => c.Bypasses n
  | .write bytes => c.stream.writes = true ∧ ¬ c.Willing bytes.length
  | _ => False

/-- An operation that goes to the limits: input that may ask for bytes beyond the last position, or a move past
the last offset of which the device makes a part. -/
def Exceeds (c : Connection) : Operation → Prop
  | .read n => ¬ c.Reaches n
  | .readLine max => ¬ c.Reaches (min max lineLimit)
  | .seek target => ∃ f, c.account.file = some f ∧ c.Overreaches (f.aim target)
  | _ => False

theorem not_exceeds (h : c.account.file = none) (op : Operation) : ¬ c.Exceeds op := by
  have hreaches : ∀ n, c.Reaches n := fun n f hf => by
    rw [h] at hf
    cases hf
  cases op with
  | read n => exact fun hno => hno (hreaches n)
  | readLine max => exact fun hno => hno (hreaches _)
  | seek target =>
    rintro ⟨f, hf, -⟩
    rw [h] at hf
    cases hf
  | _ => exact id

/-- An operation after which the stream need not agree with its device any more. Pending output that is lost is
none, but for output of a stream that remembers the end of the device or is read up to the last position. -/
def Strays (c : Connection) : Operation → Prop
  | .read n => c.allocate.stream.capacity ≤ n ∧ (c.stream.pending ≠ [] ∧
      (c.stream.atEnd = true ∨ ¬ (c.allocate.update Stream.emptied).Reaches n) ∨ c.Ajar)
  | op => c.Wastes op

/-- An operation that does not stray loses at most what is pending. -/
theorem lost_or_kept (h : ¬ c.Strays op) : ¬ c.Wastes op ∨
    ∃ n, op = .read n ∧ c.allocate.stream.capacity ≤ n ∧ c.stream.pending ≠ [] ∧ c.stream.atEnd = false ∧
      (c.allocate.update Stream.emptied).Reaches n ∧ ¬ c.Ajar := by
  cases op with
  | read n =>
    by_cases hkeep : c.Bypasses n
    · obtain ⟨hcap, hlost⟩ := hkeep
      have hshut : ¬ c.Ajar := fun hajar => h ⟨hcap, .inr hajar⟩
      have hpend := hlost.resolve_right hshut
      have hend : c.stream.atEnd = false := Bool.eq_false_iff.2 fun hyes => h ⟨hcap, .inl ⟨hpend, .inl hyes⟩⟩
      have hreaches := Classical.byContradiction fun hno => h ⟨hcap, .inl ⟨hpend, .inr hno⟩⟩
      exact .inr ⟨n, rfl, hcap, hpend, hend, hreaches, hshut⟩
    · exact .inl hkeep
  | _ => exact .inl h

theorem allocate_of_capacity (h : c.stream.capacity ≠ 0) : c.allocate = c := if_pos h

/-- A stream that gets a buffer keeps what is pending, what it remembers and its descriptor. -/
theorem Ready.kept (h : c.Ready) : c.allocate.stream.pending = c.stream.pending ∧
    c.allocate.stream.atEnd = c.stream.atEnd ∧
    c.allocate.system.opened? c.allocate.stream.fd = c.system.opened? c.stream.fd := by
  obtain ⟨⟨d, dev, hon⟩, -⟩ := h
  obtain ⟨k, -, -, e⟩ := allocate_spec hon.opened
  rw [e]
  exact ⟨rfl, rfl, rfl⟩

theorem update_skip_zero (c : Connection) : c.update (·.skip 0) = c := rfl

theorem update_quiet (h : c.stream.failed = false) : c.update ({ · with failed := false }) = c := by
  obtain ⟨⟨⟩, sys⟩ := c
  cases h
  rfl

/-- A window is filled once output has ended. -/
theorem fill_endOutput (hw : q.stream.writing = false) (e : c.endOutput = (q, true)) : c.fill = q.fill := by
  unfold fill
  rw [e, endOutput_of_idle hw]

/-- Less than a buffer is taken once output has ended. -/
theorem take_endOutput (hn : n ≠ 0) (hlt : n < c.allocate.stream.capacity) (hahead : c.allocate.stream.ahead = [])
    (hahead' : q.stream.ahead = []) (hw : q.stream.writing = false)
    (e : c.allocate.endOutput = (q, true)) : c.take n = q.take n := by
  have hcap : q.stream.capacity = c.allocate.stream.capacity :=
    ((through_endOutput c.allocate).of_eq e).stream.capacity (by omega)
  rw [take, take, allocate_of_capacity (c := q) (by omega)]
  simp only [takeRounds, hahead, hahead', List.take_nil, List.length_nil, update_skip_zero, Nat.sub_zero, if_neg hn, hcap,
    if_pos hlt, fill_endOutput hw e]

/-- A line is taken once output has ended. -/
theorem takeLineRounds_endOutput (rounds : Nat) (hn : n ≠ 0) (hahead : c.stream.ahead = [])
    (hahead' : q.stream.ahead = []) (hw : q.stream.writing = false) (e : c.endOutput = (q, true)) :
    takeLineRounds (rounds + 1) c n = takeLineRounds (rounds + 1) q n := by
  simp only [takeLineRounds, if_neg hn, hahead, hahead', List.isEmpty_nil, if_true, fill_endOutput hw e]

/-- Input past the buffer is input of a stream with nothing in its buffer, and of that nothing is lost. -/
theorem read_emptied (h : c.Ready) (hn : n ≠ 0) (hcap : c.allocate.stream.capacity ≤ n)
    (hahead : c.allocate.stream.ahead = []) (hheld : c.stream.held = none) (hshut : ¬ c.Ajar) :
    c.operate (.read n) = (c.allocate.update Stream.emptied).operate (.read n) ∧
      ¬ (c.allocate.update Stream.emptied).Wastes (.read n) := by
  obtain ⟨⟨d, dev, hon⟩, -⟩ := h
  obtain ⟨k, hk, -, halloc⟩ := allocate_spec hon.opened
  have hkeep : c.allocate.stream.capacity ≠ 0 ∧ (c.allocate.update Stream.emptied).stream.held = none ∧
      ((c.allocate.update Stream.emptied).Ajar → c.Ajar) := by
    rw [halloc]
    exact ⟨hk, hheld, id⟩
  obtain ⟨hcap', hheld', hajar⟩ := hkeep
  have hahead' : (c.allocate.update Stream.emptied).stream.ahead = [] := Stream.ahead_of_window rfl
  have hlarge : ¬ n < (c.allocate.update Stream.emptied).stream.capacity := Nat.not_lt.2 hcap
  have htake : c.take n = (c.allocate.update Stream.emptied).take n := by
    rw [take, take, allocate_of_capacity (c := c.allocate.update Stream.emptied) hcap']
    simp only [takeRounds, hahead, hahead', List.take_nil, List.length_nil, update_skip_zero, Nat.sub_zero, if_neg hn,
      if_neg (Nat.not_lt.2 hcap), if_neg hlarge]
    rfl
  refine ⟨by simp only [operate, read, if_neg hn, hheld, hheld', htake], ?_⟩
  rintro ⟨-, hlost | hopen⟩
  · exact hlost rfl
  · exact hshut (hajar hopen)

/-- The stream stands for a file that takes what is pending, and was used for nothing it was not opened for. -/
structure OnFile (c : Connection) (f : PlainFile) : Prop where
  stands : c.Stands f
  drains : c.stream.pending = [] ∨ c.Willing 0
  sided : c.stream.Sided

theorem drains_lays (h : c.stream.pending = [] ∨ c.Willing 0) (hl : c.Lays c' [])
    (hpend : c'.stream.pending = c.stream.pending) : c'.stream.pending = [] ∨ c'.Willing 0 := by
  refine h.imp (hpend.trans ·) fun hw => ?_
  have hw : c.Willing (([] : Bytes).length + 0) := hw
  exact hw.through hl.through hl.account hl.extent

theorem OnFile.turnedAway (h : c.OnFile f) : c.turnedAway.OnFile f :=
  ⟨h.stands.turnedAway, h.drains, sided_turnedAway h.sided⟩

theorem OnFile.allocate (h : c.OnFile f) : c.allocate.OnFile f :=
  ⟨h.stands.allocate, drains_lays h.drains (lays_allocate h.stands.ready).1 h.stands.ready.kept.1,
    sided_allocate h.sided⟩

/-- A stream that gives up its buffer stands for a file still: the one without what was pending. -/
theorem OnFile.emptied (h : c.OnFile f) (hend : c.stream.atEnd = false) :
    ∃ g, (c.update Stream.emptied).OnFile g := by
  obtain ⟨⟨d, dev, hon⟩, -⟩ := h.stands.ready
  obtain ⟨data, hreg⟩ : ∃ data, dev.content = .regular data := by
    have hfile := h.stands.file
    rw [account, standing_eq hon.opened] at hfile
    obtain ⟨g, hg, -⟩ := Option.map_eq_some_iff.1 hfile
    cases hcontent : dev.content with
    | regular data => exact ⟨data, rfl⟩
    | _ =>
      simp only [Account.ofPort, hcontent, Content.file?] at hg
      cases hg
  have happ := h.stands.appending
  rw [account_appending hon.opened] at happ
  have hon' : (c.update Stream.emptied).On d dev := Over.on_of_empty
    ⟨hon.opened, hon.appending, hon.within⟩ rfl rfl rfl
    fun p hp hregular hd => hon.fits.offset p hp hregular (.inr hd)
  have hready : (c.update Stream.emptied).Ready := ⟨⟨d, dev, hon'⟩, .inl rfl⟩
  have haccount : (c.update Stream.emptied).account = .ofPort d dev 0 := by
    rw [account_of_drained rfl, standing_of_empty hon'.opened rfl]
  have hfile : (c.update Stream.emptied).account.file = some ⟨data, d.position⟩ := by
    rw [haccount, Account.ofPort, hreg]
    rfl
  refine ⟨_, ⟨hready, fun _ _ => rfl, hfile, ?_, hready.within rfl hfile, h.stands.buffer, h.stands.quiet, ?_,
    h.stands.device⟩, .inl rfl, fun _ => rfl, h.sided.unended, h.sided.output⟩
  · rw [haccount]
    exact happ
  · exact fun hyes => Bool.noConfusion (hend.symm.trans hyes)

/-- Once output has ended, nothing is pending, and nothing is left over of output. -/
theorem OnFile.endOutput (h : c.OnFile f) :
    ∃ c₁, c.endOutput = (c₁, true) ∧ c.Through c₁ ∧ c₁.OnFile f ∧ c₁.stream.pending = [] ∧
      c₁.stream.writing = false ∧ (c.stream.writing = true → c₁.stream.ahead = []) := by
  obtain ⟨c₁, e, hthrough, hstands, hpend⟩ := h.stands.endOutput h.drains
  obtain ⟨-, -, hidle, hleft, -⟩ := endOutput_ok h.stands.ready e
  have hsided := sided_endOutput h.sided
  rw [e] at hsided
  refine ⟨c₁, e, hthrough, ⟨hstands, .inl hpend, hsided⟩, hpend, hidle, fun hw => ?_⟩
  rw [Stream.ahead_of_calm fun hyes => Bool.noConfusion (hidle.symm.trans hyes)]
  exact hleft h.stands.calm hw

/-- What is pending is pending in the middle of output, where nothing is ahead. -/
theorem OnFile.putting (h : c.OnFile f) (hpend : c.stream.pending ≠ []) :
    c.stream.writing = true ∧ c.stream.ahead = [] := by
  obtain ⟨⟨d, dev, hon⟩, -⟩ := h.stands.ready
  have hw : c.stream.writing = true := by
    cases hidle : c.stream.writing with
    | true => rfl
    | false => exact absurd (hon.fits.input hidle) hpend
  exact ⟨hw, if_pos hw⟩

theorem OnFile.blind (h : c.OnFile f) (hr : c.stream.reads = false) :
    c.stream.ahead = [] ∧ c.stream.atEnd = false :=
  ⟨Stream.ahead_of_window (h.sided.input hr), h.sided.unended hr⟩

/-- Input is input of a stream with nothing pending. -/
private theorem OnFile.read_ended (h : c.OnFile f) (hr : c.stream.reads = true) (hn : n ≠ 0)
    (hkeep : ¬ c.Bypasses n) :
    ∃ q : Connection, q.OnFile f ∧ q.stream.pending = [] ∧ q.stream.reads = true ∧ c.read n = q.read n := by
  by_cases hpend : c.stream.pending = []
  · exact ⟨c, h, hpend, hr, rfl⟩
  have hlt : n < c.allocate.stream.capacity := Nat.lt_of_not_le fun hle => hkeep ⟨hle, .inl hpend⟩
  have ha := h.allocate
  obtain ⟨hw, hahead⟩ := ha.putting (h.stands.ready.kept.1 ▸ hpend)
  obtain ⟨q, hend, hthrough, hfile, hpend', hidle, hahead'⟩ := ha.endOutput
  refine ⟨q, hfile, hpend', by rw [hthrough.stream.reads, (through_allocate c).stream.reads, hr], ?_⟩
  simp only [Connection.read, if_neg hn, h.stands.quiet.2, hfile.stands.quiet.2,
    take_endOutput hn hlt hahead (hahead' hw) hidle hend]

private theorem OnFile.readLine_ended (h : c.OnFile f) (hr : c.stream.reads = true) (hn : n ≠ 0) :
    ∃ q : Connection, q.OnFile f ∧ q.stream.pending = [] ∧ q.stream.reads = true ∧ c.readLine n = q.readLine n := by
  by_cases hpend : c.stream.pending = []
  · exact ⟨c, h, hpend, hr, rfl⟩
  obtain ⟨hw, hahead⟩ := h.putting hpend
  obtain ⟨q, hend, hthrough, hfile, hpend', hidle, hahead'⟩ := h.endOutput
  refine ⟨q, hfile, hpend', hthrough.stream.reads.trans hr, ?_⟩
  obtain ⟨rounds, hsize⟩ := Nat.exists_eq_succ_of_ne_zero
    (show LineBuffer.sizeFor n - 1 ≠ 0 by unfold LineBuffer.sizeFor; omega)
  have htake : c.takeLine (LineBuffer.sizeFor n - 1) = q.takeLine (LineBuffer.sizeFor n - 1) := by
    rw [takeLine, takeLine, update_quiet h.stands.quiet.1, update_quiet hfile.stands.quiet.1, hsize,
      takeLineRounds_endOutput rounds (Nat.succ_ne_zero rounds) hahead (hahead' hw) hidle hend,
      h.stands.quiet.1, hfile.stands.quiet.1]
  simp only [Connection.readLine, if_neg hn, h.stands.quiet.2, hfile.stands.quiet.2, htake]

/-- A read is refused by a stream that is not for input, and nothing is lost. -/
private theorem OnFile.read_refused (h : c.OnFile f) (hr : c.stream.reads = false) (hn : n ≠ 0)
    (hkeep : ¬ c.Bypasses n) :
    ∃ c', c.read n = (c', .error (.ofErrno "fread" .badDescriptor)) ∧ c'.OnFile f := by
  obtain ⟨⟨d, dev, hon⟩, -⟩ := h.stands.ready
  obtain ⟨hkept, -, hopened⟩ := h.stands.ready.kept
  have ha := h.allocate
  have hra : c.allocate.stream.reads = false := (through_allocate c).stream.reads.trans hr
  obtain ⟨hahead, -⟩ := ha.blind hra
  by_cases hcap : c.allocate.stream.capacity ≤ n
  · have hpend : c.allocate.stream.pending = [] :=
      hkept.trans (Classical.byContradiction fun hne => hkeep ⟨hcap, .inl hne⟩)
    have hd : d.readable = false := Bool.eq_false_iff.2 fun hyes =>
      hkeep ⟨hcap, .inr ⟨hr, d, dev, hon.opened, hyes⟩⟩
    obtain ⟨g, hg, hf⟩ := ha.stands.givenUp (ha.sided.input hra)
    rw [hpend, PlainFile.write_nil] at hf
    exact ⟨_, read_givenUp hn h.stands.quiet.2 hahead hcap (hopened.trans hon.opened) hd, hf ▸ hg, .inl rfl,
      sided_givenUp ha.sided⟩
  · obtain ⟨q, hend, hthrough, hfile, -⟩ := ha.endOutput
    have hrq := hthrough.stream.reads.trans hra
    exact ⟨_, read_turnedAway hn h.stands.quiet.2 hahead (Nat.lt_of_not_le hcap) hrq (hfile.blind hrq).2 hend,
      hfile.turnedAway⟩

private theorem OnFile.readLine_refused (h : c.OnFile f) (hr : c.stream.reads = false) (hn : n ≠ 0) :
    ∃ c', c.readLine n = (c', .error (.ofErrno "fgets" .badDescriptor)) ∧ c'.OnFile f := by
  obtain ⟨q, hend, hthrough, hfile, -⟩ := h.endOutput
  have hrq := hthrough.stream.reads.trans hr
  exact ⟨_, readLine_turnedAway hn h.stands.quiet.2 h.stands.quiet.1 (h.blind hr).1 hrq (hfile.blind hrq).2 hend,
    hfile.turnedAway⟩

/-- What input takes is gone from the front of the file. -/
theorem OnFile.draws {out : Bytes} (h : c.OnFile f) (hpend : c.stream.pending = []) (hr : c.stream.reads = true)
    (hd : c.Draws c' out) (hsided : c'.stream.Sided) : c'.OnFile (f.advance out.length) :=
  ⟨h.stands.draws hpend hr hd, .inl hd.gives.drained, hsided⟩

/-- The operation does to the stream what it does to the file. -/
def Serves (c : Connection) (f : PlainFile) (op : Operation) : Prop :=
  ∃ c', c.operate op = (c', (f.serve c.system.largestOffset c.stream.purpose op).2) ∧
    c'.OnFile (f.serve c.system.largestOffset c.stream.purpose op).1

theorem Reaches.onFile (hr : c.Reaches n) (h : c.OnFile f) (hq : q.OnFile f) : q.Reaches n := by
  intro g hg
  rw [hq.stands.file] at hg
  cases hg
  exact hr f h.stands.file

/-- A read is one from the file, or is refused. -/
theorem OnFile.serves_read (h : c.OnFile f) (hkeep : ¬ c.Bypasses n) (hreach : c.Reaches n) :
    c.Serves f (.read n) := by
  unfold Serves
  simp only [PlainFile.serve, Stream.purpose]
  by_cases hn : n = 0
  · subst hn
    exact ⟨c, rfl, h⟩
  simp only [if_neg hn]
  rcases Bool.eq_false_or_eq_true c.stream.reads with hr | hr
  · simp only [hr, if_true]
    obtain ⟨q, hq, hpend, hrq, hsame⟩ := h.read_ended hr hn hkeep
    obtain ⟨hg, hsupply⟩ := hq.stands.gives hpend hrq
    obtain ⟨c', e, hdraws⟩ := read_gives hg (hreach.onFile h hq)
    have hsided := sided_read hq.sided hrq n
    rw [e] at hsided
    rw [hsupply] at e hdraws
    exact ⟨c', by rw [Connection.operate, hsame, e]; rfl, hq.draws hpend hrq hdraws hsided⟩
  · simp only [hr, Bool.false_eq_true, if_false]
    obtain ⟨c', e, hc'⟩ := h.read_refused hr hn hkeep
    exact ⟨c', by rw [Connection.operate, e]; rfl, hc'⟩

/-- A line is one from the file, or is refused. -/
theorem OnFile.serves_readLine {max : Nat} (h : c.OnFile f) (hreach : c.Reaches (min max lineLimit)) :
    c.Serves f (.readLine max) := by
  unfold Serves
  simp only [PlainFile.serve, Stream.purpose]
  by_cases hmax : max = 0
  · subst hmax
    exact ⟨c, rfl, h⟩
  simp only [if_neg hmax]
  rcases Bool.eq_false_or_eq_true c.stream.reads with hr | hr
  · simp only [hr, if_true]
    obtain ⟨q, hq, hpend, hrq, hsame⟩ := h.readLine_ended hr hmax
    obtain ⟨hg, hsupply⟩ := hq.stands.gives hpend hrq
    obtain ⟨c', e, hdraws⟩ := readLine_gives hg (hreach.onFile h hq)
    have hsided := sided_readLine hq.sided max
    rw [e] at hsided
    rw [hsupply] at e hdraws
    exact ⟨c', by rw [Connection.operate, hsame, e]; rfl, hq.draws hpend hrq hdraws hsided⟩
  · simp only [hr, Bool.false_eq_true, if_false]
    obtain ⟨c', e, hc'⟩ := h.readLine_refused hr hmax
    exact ⟨c', by rw [Connection.operate, e]; rfl, hc'⟩

/-- Bytes that are taken are in the file, pending or not; else they are refused. -/
theorem OnFile.serves_write {bytes : Bytes} (h : c.OnFile f) (hkeep : ¬ c.Wastes (.write bytes)) :
    c.Serves f (.write bytes) := by
  unfold Serves
  simp only [PlainFile.serve, Stream.purpose]
  by_cases hb : bytes = []
  · subst hb
    exact ⟨c, rfl, h⟩
  simp only [if_neg hb]
  rcases Bool.eq_false_or_eq_true c.stream.writes with hw | hw
  · simp only [hw, if_true]
    have hwilling : c.Willing bytes.length := Classical.byContradiction fun hno => hkeep ⟨hw, hno⟩
    rcases e : c.write bytes with ⟨c', reply⟩
    obtain ⟨hlays, hstands, rfl, -⟩ := write_stands h.stands hw hwilling e
    have hsided := sided_write h.sided bytes
    rw [e] at hsided
    exact ⟨c', by rw [Connection.operate, e]; rfl, hstands,
      .inr (Willing.through hwilling hlays.through hlays.account hlays.extent), hsided⟩
  · simp only [hw, Bool.false_eq_true, if_false]
    exact ⟨_, by rw [Connection.operate, write_turnedAway hw (h.sided.output hw) hb]; rfl, h.turnedAway⟩

theorem OnFile.serves_flush (h : c.OnFile f) : c.Serves f .flush := by
  rcases e : c.flush with ⟨c', reply⟩
  obtain ⟨-, hstands, rfl, hpend⟩ := flush_stands h.stands h.drains e
  have hsided := sided_flush h.sided
  rw [e] at hsided
  exact ⟨c', by rw [Connection.operate, e]; rfl, hstands, .inl hpend, hsided⟩

theorem OnFile.serves_seek {target : Target} (h : c.OnFile f) (hfits : target.Fits)
    (hnear : ¬ c.Overreaches (f.aim target)) : c.Serves f (.seek target) := by
  rcases e : c.seek target with ⟨c', reply⟩
  obtain ⟨-, hstands, hreply, hpend, hsame⟩ := seek_stands h.stands h.drains
    (fun parts hparts => ⟨hfits.isOffset hparts, by rwa [f.base_add hparts]⟩) e
  have hsided := sided_seek h.sided target
  rw [e] at hsided
  rw [f.call_seek c.system.addressable] at hstands hreply
  refine ⟨c', by rw [Connection.operate, e, answered, hreply]; rfl, hstands, ?_, hsided⟩
  cases hparts : target.parts? with
  | some parts => exact .inl (hpend (by rw [hparts]; rfl))
  | none =>
    cases hsame hparts
    exact h.drains

theorem OnFile.serves_tell (h : c.OnFile f) : c.Serves f .tell := by
  rcases e : c.tell with ⟨c', reply⟩
  obtain ⟨hlays, hstands, rfl, hpend⟩ := tell_stands h.stands e
  have hsided := sided_tell h.sided
  rw [e] at hsided
  exact ⟨c', by rw [Connection.operate, e]; rfl, hstands, drains_lays h.drains hlays hpend, hsided⟩

/-- One operation on a stream that stands for a file, whatever the stream is for, does what it does to the
file. -/
theorem OnFile.operate (h : c.OnFile f) (hop : op.Fits) (hkeep : ¬ c.Wastes op) (hin : ¬ c.Exceeds op) :
    c.Serves f op := by
  cases op with
  | read n => exact h.serves_read hkeep (Classical.not_not.1 hin)
  | readLine max => exact h.serves_readLine (Classical.not_not.1 hin)
  | write bytes => exact h.serves_write hkeep
  | flush => exact h.serves_flush
  | seek target => exact h.serves_seek hop fun hover => hin ⟨f, h.stands.file, hover⟩
  | tell => exact h.serves_tell
  | setDiscipline discipline => exact hop.elim

/-- After an operation the stream stands for a file, also where pending output is lost. -/
theorem OnFile.remains (h : c.OnFile f) (hop : op.Fits) (hkeep : ¬ c.Strays op) (hin : ¬ c.Exceeds op) :
    ∃ g, (c.operate op).1.OnFile g := by
  obtain hkeep | ⟨n, rfl, hcap, hpend, hend, hreach, hshut⟩ := lost_or_kept hkeep
  · obtain ⟨c', e, h'⟩ := h.operate hop hkeep hin
    rw [e]
    exact ⟨_, h'⟩
  by_cases hn : n = 0
  · subst hn
    exact ⟨f, h⟩
  have ha := h.allocate
  obtain ⟨hpend', hend', -⟩ := h.stands.ready.kept
  obtain ⟨g, hg⟩ := ha.emptied (hend'.trans hend)
  obtain ⟨hsame, hkeep'⟩ :=
    read_emptied h.stands.ready hn hcap (ha.putting (hpend' ▸ hpend)).2 h.stands.quiet.2 hshut
  obtain ⟨c', e, h'⟩ := hg.operate hop hkeep' (Classical.not_not.2 hreach)
  rw [hsame, e]
  exact ⟨_, h'⟩

end Connection

end BufferedFiles
