import BufferedFiles.Proofs.FileRuns
import BufferedFiles.Proofs.InputRuns
import BufferedFiles.Proofs.OneWay

/-!
# Requests in the wrong direction

A stream for one direction refuses every request in the other one with the same failure, whatever it
holds, and goes on as if it had not been asked. There is one exception. Input of at least a whole buffer
goes past the buffer also where it will be refused, and output that was pending there is gone.
-/
namespace BufferedFiles

/-- Bytes that are written change a file or move its position. -/
theorem PlainFile.write_ne_self (f : PlainFile) (appending : Bool) {bytes : Bytes} (h : bytes ≠ []) :
    f.write appending bytes ≠ f := by
  have hpos := List.length_pos_iff.2 h
  rw [write_of_ne_nil f appending h]
  intro e
  cases appending with
  | true =>
    have hlen := congrArg (·.contents.length) e
    simp only [length_overwrite, start, if_true] at hlen
    omega
  | false =>
    have hplace := congrArg position e
    simp only [start, Bool.false_eq_true, if_false] at hplace
    omega

namespace Connection

variable {c c₁ : Connection} {f g : PlainFile} {mode : OpenMode} {place : List Name} {bytes : Bytes} {n : Nat}

/-- A connection that was refused, with its indicators cleared. -/
def turnedAway (c : Connection) : Connection := c.refuse.update Stream.settled

/-- A connection that has given up its buffer, and was refused after that. -/
def givenUp (c : Connection) : Connection := (c.update Stream.emptied).turnedAway

/-- A stream that is not for output refuses bytes before it looks at anything. -/
theorem write_turnedAway (hwrites : c.stream.writes = false) (hidle : c.stream.writing = false)
    (hb : bytes ≠ []) : c.write bytes = (c.turnedAway, .error (.ofErrno "fwrite" .badDescriptor)) := by
  have hpos := List.length_pos_iff.2 hb
  have hroom : c.stream.room bytes = (0, false) := by simp [Stream.room, hidle]
  have haccept : c.accept bytes = (c.refuse, 0) := by
    have hne : ¬ ((0 : Nat) = bytes.length) := by omega
    have hsame : c.update (fun s => { s with pending := s.pending ++ [] }) = c := by
      simp only [update, List.append_nil]
    have hmake : c.makeRoom = (c.refuse, false) := by simp [makeRoom, hwrites]
    simp only [accept, hroom, Nat.zero_min, List.take_zero, hsame, hne, decide_false, Bool.false_and,
      Bool.false_eq_true, if_false, hmake]
  simp only [write, List.isEmpty_iff, hb, if_false, haccept]
  rw [if_pos (by simpa [refuse] using hpos)]
  rfl

/-- A stream that is not for input refuses to fill its window once its output has ended. -/
theorem fill_refuse (hreads : c₁.stream.reads = false) (hend : c₁.stream.atEnd = false)
    (e : c.endOutput = (c₁, true)) : c.fill = (c₁.refuse, false) := by
  simp [fill, e, hend, hreads]

theorem readLine_turnedAway (hn : n ≠ 0) (hheld : c.stream.held = none) (hfailed : c.stream.failed = false)
    (hahead : c.stream.ahead = []) (hreads : c₁.stream.reads = false) (hend : c₁.stream.atEnd = false)
    (e : c.endOutput = (c₁, true)) :
    c.readLine n = (c₁.turnedAway, .error (.ofErrno "fgets" .badDescriptor)) := by
  have hsize : LineBuffer.sizeFor n - 1 ≠ 0 := by
    unfold LineBuffer.sizeFor
    omega
  have hclear : c.update ({ · with failed := false }) = c := by
    rcases c with ⟨s, sys⟩
    cases s
    cases hfailed
    rfl
  obtain ⟨rounds, hrounds⟩ := Nat.exists_eq_succ_of_ne_zero hsize
  have hnone : takeLineRounds (rounds + 1) c (rounds + 1) = (c₁.refuse, []) := by
    simp [takeLineRounds, hahead, fill_refuse hreads hend e]
  have hline : c.takeLine (LineBuffer.sizeFor n - 1) = (c₁.refuse, none) := by
    rw [takeLine, hclear, hrounds, hnone]
    simp [update, refuse]
  simp only [readLine, if_neg hn, hheld, hline]
  rfl

/-- A request for less than a buffer ends the output of the stream and is refused. -/
theorem read_turnedAway (hn : n ≠ 0) (hheld : c.stream.held = none) (hahead : c.allocate.stream.ahead = [])
    (hcap : n < c.allocate.stream.capacity) (hreads : c₁.stream.reads = false)
    (hend : c₁.stream.atEnd = false) (e : c.allocate.endOutput = (c₁, true)) :
    c.read n = (c₁.turnedAway, .error (.ofErrno "fread" .badDescriptor)) := by
  have htake : c.take n = (c₁.refuse, []) := by
    have hskip : c.allocate.update (·.skip 0) = c.allocate := rfl
    simp [take, takeRounds, hahead, hskip, hn, hcap, fill_refuse hreads hend e]
  simp only [read, if_neg hn, hheld, htake]
  rw [if_pos (by simpa [refuse] using Nat.pos_of_ne_zero hn)]
  rfl

/-- A request for a buffer or more is put to the device, and what the buffer held is given up. -/
theorem read_givenUp {d : Descriptor} {dev : Device} (hn : n ≠ 0) (hheld : c.stream.held = none)
    (hahead : c.allocate.stream.ahead = []) (hcap : c.allocate.stream.capacity ≤ n)
    (ho : c.allocate.system.opened? c.allocate.stream.fd = some (d, dev)) (hd : d.readable = false) :
    c.read n = (c.allocate.givenUp, .error (.ofErrno "fread" .badDescriptor)) := by
  have htake : c.take n = ((c.allocate.update Stream.emptied).refuse, []) := by
    have hskip : c.allocate.update (·.skip 0) = c.allocate := rfl
    have hfd : c.allocate.stream.emptied.fd = c.allocate.stream.fd := rfl
    simp only [take, takeRounds, hahead, List.take_nil, List.length_nil, hskip, Nat.sub_zero, if_neg hn,
      if_neg (Nat.not_lt.2 hcap), readPast, System.read, hfd, ho, hd, Bool.not_false, if_true, System.fail]
    rfl
  simp only [read, if_neg hn, hheld, htake]
  rw [if_pos (by simpa [refuse] using Nat.pos_of_ne_zero hn)]
  rfl

theorem Stands.turnedAway (h : c.Stands f) : c.turnedAway.Stands f := by
  obtain ⟨⟨d, dev, hon⟩, halign⟩ := h.ready
  have hon' : c.turnedAway.On d dev :=
    ⟨⟨hon.opened, hon.appending, hon.within⟩, hon.fits.cursor, hon.fits.window, hon.fits.input,
      hon.fits.covers, hon.fits.offset⟩
  exact ⟨⟨⟨d, dev, hon'⟩, halign⟩, h.calm, h.file, h.appending, h.within, h.buffer, ⟨rfl, h.quiet.2⟩, nofun,
    h.device⟩

theorem Stands.allocate (h : c.Stands f) : c.allocate.Stands f := by
  obtain ⟨hlays, -⟩ := lays_allocate h.ready
  obtain ⟨⟨d, dev, hon⟩, -⟩ := h.ready
  have hcalm : c.allocate.Calm := by
    obtain ⟨k, -, -, e⟩ := allocate_spec hon.opened
    rw [e]
    exact h.calm
  exact h.idles hlays hcalm

theorem Stands.endOutput (h : c.Stands f) (hdrains : c.stream.pending = [] ∨ c.Willing 0) :
    ∃ c₁, c.endOutput = (c₁, true) ∧ c.Through c₁ ∧ c₁.Stands f ∧ c₁.stream.pending = [] := by
  rcases e : c.endOutput with ⟨c₁, ended⟩
  cases ended with
  | true =>
    obtain ⟨hlays, hpend, hidle, -, -⟩ := endOutput_ok h.ready e
    exact ⟨c₁, rfl, hlays.through, h.idles hlays fun hyes => Bool.noConfusion (hidle.symm.trans hyes), hpend⟩
  | false =>
    obtain ⟨hfails, hne⟩ := endOutput_fails h.ready e
    exact absurd (hdrains.resolve_left hne) hfails.unwilling

/-- What is left when output is given up is the file without it. -/
theorem Stands.givenUp (h : c.Stands f) (hwin : c.stream.window = []) :
    ∃ g, c.givenUp.Stands g ∧ f = g.write c.stream.appends c.stream.pending := by
  obtain ⟨⟨d, dev, hon⟩, -⟩ := h.ready
  have hfile := h.file
  rw [account, standing_of_empty hon.opened hwin, Account.lay] at hfile
  obtain ⟨g, hg, rfl⟩ := Option.map_eq_some_iff.1 hfile
  have happ := h.appending
  rw [account_appending hon.opened] at happ
  have hon' : c.givenUp.On d dev := Over.on_of_empty
    ⟨hon.opened, hon.appending, hon.within⟩ rfl rfl rfl
    fun p hp hreg hd => hon.fits.offset p hp hreg (.inr hd)
  have hready : c.givenUp.Ready := ⟨⟨d, dev, hon'⟩, .inl rfl⟩
  have haccount : c.givenUp.account = .ofPort d dev 0 := by
    rw [account_of_drained rfl, standing_of_empty hon'.opened rfl]
  have hfile' : c.givenUp.account.file = some g := by rw [haccount, hg]
  refine ⟨g, ⟨hready, fun _ _ => rfl, hfile', ?_, hready.within rfl hfile', h.buffer, ⟨rfl, h.quiet.2⟩,
    (fun hw => by cases hw), h.device⟩, ?_⟩
  · rw [haccount]
    exact happ
  · rw [← happ]
    rfl

theorem sided_turnedAway (h : c.stream.Sided) : c.turnedAway.stream.Sided :=
  ⟨h.input, fun _ => rfl, h.output⟩

theorem through_turnedAway (c : Connection) : c.Through c.turnedAway :=
  (through_refuse c).trans (through_settled _)

theorem sided_givenUp (h : c.stream.Sided) : c.givenUp.stream.Sided :=
  ⟨fun _ => rfl, fun _ => rfl, h.output⟩

theorem through_givenUp (c : Connection) : c.Through c.givenUp :=
  (through_work c (s := c.stream.emptied) .working).trans
    (through_turnedAway _)

/-- How far output that is pending would reach; nothing where none is. -/
def output (c : Connection) : Option Nat := if c.stream.pending = [] then none else some c.extent

theorem Phase.pends {output : Option Nat} (h : c.Phase f output) (hs : c.Stands f) : c.Phase f c.output := by
  unfold Connection.output
  split
  · exact hs.phase ‹_›
  · rename_i hne
    refine ⟨.inr ⟨rfl, (h.pending.resolve_left hne).2⟩, fun _ => Nat.le_max_left _ _, fun happ => ?_⟩
    have hextent := h.extent happ
    have hnumbered := h.numbered happ
    have hsize := hs.within.1
    have hlimit := c.system.addressable
    rw [Option.getD_some]
    omega

/-- A stream that stands for the same file, and has nothing pending, reaches no further. -/
theorem Phase.settles (h : c.Phase f c.output) (hs : c.Stands f) (hs₁ : c₁.Stands f) (ht : c.Through c₁)
    (hpend : c₁.stream.pending = []) : c₁.Phase f c.output where
  pending := .inl hpend
  extent happ := by
    obtain ⟨⟨d, dev, hon⟩, -⟩ := hs.ready
    have hfrom := le_extent hon.opened hs.file
    have hextent := (hs₁.phase hpend).extent happ
    have hreach : f.position ≤ c.output.getD f.position := by
      unfold Connection.output
      split
      · exact Nat.le_refl _
      · rw [Option.getD_some]
        omega
    rw [Option.getD_none] at hextent
    omega
  numbered happ := h.numbered (ht.stream.appends ▸ happ)

/-- A stream in a mode that stands for the file at a place, and was used for nothing else than its mode
allows. Its device gives nothing a mode without input could take. -/
structure OneWay (c : Connection) (mode : OpenMode) (place : List Name) (f : PlainFile) : Prop where
  stands : c.Stands f
  hasMode : c.stream.HasMode mode
  phase : c.Phase f c.output
  sided : c.stream.Sided
  device : ∀ d dev, c.system.opened? c.stream.fd = some (d, dev) →
    d.readable = mode.reads ∧ c.system.lookup place = some d.device

theorem OneWay.through (h : c.OneWay mode place f) (ht : c.Through c₁) (hstands : c₁.Stands g)
    {output : Option Nat} (hphase : c₁.Phase g output) (hsided : c₁.stream.Sided) :
    c₁.OneWay mode place g := by
  refine ⟨hstands, ht.stream.hasMode h.hasMode, hphase.pends hstands, hsided, fun d dev ho => ?_⟩
  obtain ⟨⟨d₀, dev₀, hon⟩, -⟩ := h.stands.ready
  obtain ⟨p, dev', ho', -⟩ := ht.opened hon.opened
  rw [ho] at ho'
  cases ho'
  obtain ⟨hreadable, hnamed⟩ := h.device d₀ dev₀ hon.opened
  refine ⟨hreadable, ?_⟩
  unfold System.lookup at hnamed ⊢
  rw [ht.system.names]
  exact hnamed

theorem Phase.turnedAway {output : Option Nat} (h : c.Phase f output) : c.turnedAway.Phase f output :=
  ⟨h.pending, h.extent, h.numbered⟩

theorem OneWay.turnedAway (h : c.OneWay mode place f) : c.turnedAway.OneWay mode place f :=
  h.through (through_turnedAway c) h.stands.turnedAway h.phase.turnedAway (sided_turnedAway h.sided)

theorem OneWay.allocate (h : c.OneWay mode place f) : c.allocate.OneWay mode place f := by
  obtain ⟨hlays, -⟩ := lays_allocate h.stands.ready
  have hpend : c.allocate.stream.pending = c.stream.pending := by
    obtain ⟨⟨d, dev, hon⟩, -⟩ := h.stands.ready
    obtain ⟨k, -, -, e⟩ := allocate_spec hon.opened
    rw [e]
    rfl
  exact h.through (through_allocate c) h.stands.allocate (h.phase.keeps hlays hpend) (sided_allocate h.sided)

theorem OneWay.endOutput (h : c.OneWay mode place f) :
    ∃ c₁, c.endOutput = (c₁, true) ∧ c₁.OneWay mode place f ∧ c.Through c₁ ∧ c₁.stream.pending = [] := by
  obtain ⟨c₁, e, hthrough, hstands, hpend⟩ := h.stands.endOutput (h.phase.drains h.stands)
  have hsided := sided_endOutput h.sided
  rw [e] at hsided
  exact ⟨c₁, e, h.through hthrough hstands (hstands.phase hpend) hsided, hthrough, hpend⟩

theorem OneWay.givenUp (h : c.OneWay mode place f) (hr : mode.reads = false) :
    ∃ g, c.givenUp.OneWay mode place g ∧ f = g.write mode.appends c.stream.pending := by
  obtain ⟨g, hstands, hg⟩ := h.stands.givenUp (h.sided.input (h.hasMode.reads.trans hr))
  rw [h.hasMode.appends] at hg
  exact ⟨g, h.through (through_givenUp c) hstands (hstands.phase rfl) (sided_givenUp h.sided), hg⟩

/-- A stream that is not for input has nothing ahead and no end behind. -/
theorem OneWay.blind (h : c.OneWay mode place f) (hr : mode.reads = false) :
    c.stream.reads = false ∧ c.stream.ahead = [] ∧ c.stream.atEnd = false := by
  have hreads := h.hasMode.reads.trans hr
  refine ⟨hreads, ?_, h.sided.unended hreads⟩
  unfold Stream.ahead
  rw [h.sided.input hreads, List.drop_nil, ite_self]

/-- `c₁` is `c` after a refusal: a stream that stands for `g` where `c` stood for `f`, and goes on as `c` does
where that is the same. -/
structure Rebuffed (c c₁ : Connection) (mode : OpenMode) (place : List Name) (f g : PlainFile) : Prop where
  through : c.Through c₁
  oneWay : c₁.OneWay mode place g
  phase : g = f → c₁.Phase f c.output

/-- A stream that is refused after what was pending is in the file. -/
theorem OneWay.rebuffed (h : c.OneWay mode place f) (h₁ : c₁.OneWay mode place f) (ht : c.Through c₁)
    (hpend : c₁.stream.pending = []) : c.Rebuffed c₁.turnedAway mode place f f where
  through := ht.trans (through_turnedAway c₁)
  oneWay := h₁.turnedAway
  phase _ := (h.phase.settles h.stands h₁.stands ht hpend).turnedAway

/-- Bytes are refused by a stream that is not for output, and nothing is lost. -/
theorem OneWay.write_refused (h : c.OneWay mode place f) (hw : mode.writes = false) (hb : bytes ≠ []) :
    ∃ c₁, c.write bytes = (c₁, .error (.ofErrno "fwrite" .badDescriptor)) ∧ c.Rebuffed c₁ mode place f f := by
  have hwrites := h.hasMode.writes.trans hw
  exact ⟨_, write_turnedAway hwrites (h.sided.output hwrites) hb, through_turnedAway c, h.turnedAway,
    fun _ => h.phase.turnedAway⟩

/-- A line is refused by a stream that is not for input, and nothing is lost. -/
theorem OneWay.readLine_refused (h : c.OneWay mode place f) (hr : mode.reads = false) (hn : n ≠ 0) :
    ∃ c₁, c.readLine n = (c₁, .error (.ofErrno "fgets" .badDescriptor)) ∧ c.Rebuffed c₁ mode place f f := by
  obtain ⟨-, hahead, -⟩ := h.blind hr
  obtain ⟨c₁, e, h₁, hthrough, hpend⟩ := h.endOutput
  obtain ⟨hreads, -, hend⟩ := h₁.blind hr
  exact ⟨_, readLine_turnedAway hn h.stands.quiet.2 h.stands.quiet.1 hahead hreads hend e,
    h.rebuffed h₁ hthrough hpend⟩

/-- Bytes are refused by a stream that is not for input. What was pending in a buffer that was not
larger than what was asked for is lost. -/
theorem OneWay.read_refused (h : c.OneWay mode place f) (hr : mode.reads = false) (hn : n ≠ 0) :
    ∃ c₁ g, c.read n = (c₁, .error (.ofErrno "fread" .badDescriptor)) ∧ c.Rebuffed c₁ mode place f g ∧
      f = g.write mode.appends (if c.allocate.stream.capacity ≤ n then c.stream.pending else []) := by
  have ha := h.allocate
  have hallocated := through_allocate c
  obtain ⟨-, hahead, -⟩ := ha.blind hr
  by_cases hcap : c.allocate.stream.capacity ≤ n
  · obtain ⟨⟨d, dev, hon⟩, -⟩ := ha.stands.ready
    obtain ⟨g, hg, hf⟩ := ha.givenUp hr
    have hthrough := hallocated.trans (through_givenUp c.allocate)
    refine ⟨_, g, read_givenUp hn h.stands.quiet.2 hahead hcap hon.opened ?_, ⟨hthrough, hg, ?_⟩, ?_⟩
    · rw [(ha.device d dev hon.opened).1, hr]
    · rintro rfl
      exact h.phase.settles h.stands hg.stands hthrough rfl
    · obtain ⟨⟨d₀, dev₀, hon₀⟩, -⟩ := h.stands.ready
      obtain ⟨k, -, -, e⟩ := allocate_spec hon₀.opened
      rw [if_pos hcap, hf, e]
      rfl
  · obtain ⟨c₁, e, h₁, hthrough, hpend⟩ := ha.endOutput
    obtain ⟨hreads, -, hend⟩ := h₁.blind hr
    refine ⟨_, f, read_turnedAway hn h.stands.quiet.2 hahead (by omega) hreads hend e,
      h.rebuffed h₁ (hallocated.trans hthrough) hpend, ?_⟩
    rw [if_neg hcap, PlainFile.write_nil]

theorem sided_perform {call : Call} (h : c.stream.Sided) (hr : ∀ max, call = .read max → c.stream.reads = true) :
    (c.perform call).1.stream.Sided := by
  cases call with
  | read max => exact sided_read h (hr max rfl) _
  | readLine max => exact sided_readLine h _
  | write bytes => exact sided_write h bytes
  | flush => exact sided_flush h
  | seek target => exact sided_seek h target
  | tell => exact sided_tell h
  | close => exact h

/-- A call the mode allows does what it does to the file. -/
theorem OneWay.perform {call : Call} (h : c.OneWay mode place f)
    (hadmits : f.Admits c.system.largestOffset mode c.output call) :
    (c.perform call).1.OneWay mode place (f.call c.system.largestOffset mode.appends call).1 := by
  have hone := perform_stands h.stands h.hasMode h.phase hadmits
  have hsided : (c.perform call).1.stream.Sided := by
    refine sided_perform h.sided fun max hread => ?_
    subst hread
    exact h.hasMode.reads.trans hadmits.1
  exact h.through hone.through hone.stands hone.phase hsided

/-- Input of any size moves the file that it is taken from. -/
theorem OneWay.draws (h : c.OneWay mode place f) (hr : mode.reads = true) (hw : mode.writes = false)
    (hn : f.position + n + blockSize ≤ largestPosition) :
    ∃ c₁, c.read n = (c₁, .ok (f.rest.take n)) ∧ c₁.OneWay mode place (f.advance (f.rest.take n).length) := by
  have hreads := h.hasMode.reads.trans hr
  have hpend := h.phase.pending.resolve_right fun ⟨_, hyes⟩ => by
    rw [h.hasMode.writes, hw] at hyes
    cases hyes
  obtain ⟨hg, hsupply⟩ := h.stands.gives hpend hreads
  obtain ⟨c₁, e, hdraws⟩ := read_gives hg (h.stands.reaches hn)
  rw [hsupply] at e hdraws
  have hstands := h.stands.draws hpend hreads hdraws
  have hsided := sided_read h.sided hreads n
  rw [e] at hsided
  exact ⟨c₁, e, h.through hdraws.through hstands (hstands.phase hdraws.gives.drained) hsided⟩

end Connection

namespace Request

/-- The request is in a direction the mode does not allow. A request for no bytes is in none. -/
def Against (mode : OpenMode) : Request → Prop
  | .call (.read _) | .call (.readLine _) => mode.reads = false
  | .transfer (.readSome n) => mode.reads = false ∧ n ≠ 0
  | .call (.write bytes) | .transfer (.writeSome bytes) => mode.writes = false ∧ bytes ≠ []
  | _ => False

def primitive : Request → String
  | .call (.readLine _) => "fgets"
  | .call (.write _) | .transfer (.writeSome _) => "fwrite"
  | _ => "fread"

/-- The reply to a request in the wrong direction. -/
def rebuff (request : Request) : Reply :=
  match request with
  | .transfer _ => .failed (.ofHandleError (.stream (.ofErrno request.primitive .badDescriptor)))
  | _ => .refused (.stream (.ofErrno request.primitive .badDescriptor))

def size? : Request → Option Nat
  | .call (.read max) => some (boundFor (max.map Int.ofNat))
  | .transfer (.readSome n) => some n
  | _ => none

end Request

namespace Handle

variable {h : Handle} {sys : System} {s : Stream} {mode : OpenMode} {place : List Name} {f : PlainFile}
  {request : Request}

/-- The file a handle stands for, with what is pending laid down already. -/
def file? (h : Handle) (sys : System) : Option PlainFile :=
  h.stream.bind fun s => (Connection.account ⟨s, sys⟩).file

/-- How far the output a handle has pending would reach. -/
def output (h : Handle) (sys : System) : Option Nat := h.stream.bind fun s => Connection.output ⟨s, sys⟩

/-- The pending output that is gone after a request for input: all of it where at least a whole buffer
is asked for. -/
def cost (h : Handle) (sys : System) (request : Request) : Bytes :=
  match h.stream, request.size? with
  | some s, some n => if (Connection.allocate ⟨s, sys⟩).stream.capacity ≤ n then s.pending else []
  | _, _ => []

/-- What is seen of a handle from now on: the replies to calls, the result of closing it after them, and
what the file at a place holds then. -/
def future (h : Handle) (sys : System) (place : List Name) (calls : List Call) :
    List Reply × Except HandleError Unit × Option Content :=
  let (h, sys, replies) := h.run sys (calls.map .call)
  (replies, (h.close sys).result, (h.close sys).system.contentAt place)

/-- A state of a handle that nobody else uses the file of. It was asked for what its mode allows, and for
what it does not. -/
inductive Reached (mode : OpenMode) (place : List Name) : System → Handle → Prop
  | opened {before sys : System} {path data : Bytes} {text : String} {buffering : Option Int} {h : Handle} :
      path.contains 0 = false → (toBytes text).contains 0 = false →
      OpenMode.parse? OpenMode.pathReach (toBytes text) = some mode → OpenMode.charset? (toBytes text) = none →
      mode.exclusive = false →
      Accepts buffering → before.Leads mode path place data →
      openPath before path text buffering = (sys, .ok h) → Reached mode place sys h
  | called {sys : System} {h : Handle} {f : PlainFile} {call : Call} :
      Reached mode place sys h → h.file? sys = some f →
      f.Admits sys.largestOffset mode (h.output sys) call →
      Reached mode place (h.call sys call).2.1 (h.call sys call).1
  | drawn {sys : System} {h : Handle} {f : PlainFile} {n : Nat} :
      Reached mode place sys h → mode.reads = true → mode.writes = false → h.file? sys = some f →
      f.position + n + blockSize ≤ largestPosition →
      Reached mode place (h.readSome sys n).system (h.readSome sys n).handle
  | refused {sys : System} {h : Handle} {request : Request} (adopted : Option String) :
      Reached mode place sys h → request.Against mode →
      Reached mode place (h.respond sys adopted request).2.1 (h.respond sys adopted request).1

theorem file?_of_oneWay (hs : h.stream = some s) (ho : Connection.OneWay ⟨s, sys⟩ mode place f) :
    h.file? sys = some f := by
  rw [file?, hs]
  exact ho.stands.file

theorem output_of_oneWay (hs : h.stream = some s) : h.output sys = Connection.output ⟨s, sys⟩ := by
  rw [output, hs, Option.bind_some]

/-- A request in the wrong direction is refused, and costs no more than what was pending. -/
theorem respond_against (hs : h.stream = some s) (ho : Connection.OneWay ⟨s, sys⟩ mode place f)
    (ha : request.Against mode) (adopted : Option String) :
    ∃ (c : Connection) (g : PlainFile), (⟨s, sys⟩ : Connection).Rebuffed c mode place f g ∧
      h.respond sys adopted request = ({ h with stream := some c.stream }, c.system, request.rebuff) ∧
      f = g.write mode.appends (h.cost sys request) := by
  have hkeep : f = f.write mode.appends [] := (f.write_nil _).symm
  cases request with
  | call call =>
    cases call with
    | read max =>
      have hclose : Call.read max ≠ .close := by simp
      obtain ⟨c, g, e, hc, hf⟩ := ho.read_refused ha (Nat.ne_of_gt (boundFor_pos (max.map Int.ofNat)))
      refine ⟨c, g, hc, ?_, ?_⟩
      · simp only [respond, @call_perform sys h s hs _ hclose, Connection.perform, Connection.answered, e]
        rfl
      · simp only [cost, hs, Request.size?]
        exact hf
    | readLine max =>
      have hclose : Call.readLine max ≠ .close := by simp
      obtain ⟨c, e, hc⟩ := ho.readLine_refused ha (Nat.ne_of_gt (boundFor_pos (max.map Int.ofNat)))
      refine ⟨c, f, hc, ?_, ?_⟩
      · simp only [respond, @call_perform sys h s hs _ hclose, Connection.perform, Connection.answered, e]
        rfl
      · simp only [cost, hs, Request.size?]
        exact hkeep
    | write bytes =>
      have hclose : Call.write bytes ≠ .close := by simp
      obtain ⟨c, e, hc⟩ := ho.write_refused ha.1 ha.2
      refine ⟨c, f, hc, ?_, ?_⟩
      · simp only [respond, @call_perform sys h s hs _ hclose, Connection.perform, Connection.answered, e]
        rfl
      · simp only [cost, hs, Request.size?]
        exact hkeep
    | _ => exact ha.elim
  | transfer transfer =>
    cases transfer with
    | readSome n =>
      obtain ⟨c, g, e, hc, hf⟩ := ho.read_refused ha.1 ha.2
      refine ⟨c, g, hc, ?_, ?_⟩
      · simp only [respond, Handle.transfer, readSome, onStream, hs, e]
        rfl
      · simp only [cost, hs, Request.size?]
        exact hf
    | writeSome bytes =>
      obtain ⟨c, e, hc⟩ := ho.write_refused ha.1 ha.2
      refine ⟨c, f, hc, ?_, ?_⟩
      · simp only [respond, Handle.transfer, writeSome, write, onStream, hs, e]
        rfl
      · simp only [cost, hs, Request.size?]
        exact hkeep
    | _ => exact ha.elim
  | _ => exact ha.elim

theorem oneWay_openPath {before : System} {path data : Bytes} {text : String} {buffering : Option Int}
    (hpath : path.contains 0 = false) (htext : (toBytes text).contains 0 = false)
    (hmode : OpenMode.parse? OpenMode.pathReach (toBytes text) = some mode)
    (hplain : OpenMode.charset? (toBytes text) = none) (hx : mode.exclusive = false)
    (hb : Accepts buffering) (hleads : before.Leads mode path place data)
    (hopen : openPath before path text buffering = (sys, .ok h)) :
    ∃ s, h.stream = some s ∧ Connection.OneWay ⟨s, sys⟩ mode place ⟨mode.opens data, mode.begins data⟩ := by
  obtain ⟨sys', s, d, dev, hopened, hfresh, hmode, ho, hnamed, -, hreadable, -, -, -, hstands⟩ :=
    openPath_stands hpath htext hmode hplain hx hb hleads
  rw [hopen] at hopened
  obtain ⟨rfl, rfl⟩ : sys = sys' ∧ h = _ := by simpa using hopened
  have hsigns := hfresh.signs
  simp only [Stream.signs, Prod.mk.injEq] at hsigns
  refine ⟨s, rfl, hstands, hmode, (hstands.phase hfresh.pending).pends hstands,
    ⟨fun _ => hfresh.window, fun _ => hsigns.2.1, fun _ => hfresh.writing⟩, fun d' dev' ho' => ?_⟩
  have ho' : sys.opened? s.fd = some (d', dev') := ho'
  rw [ho] at ho'
  cases ho'
  exact ⟨hreadable, hnamed⟩

/-- In every state a handle that was opened for a file has a stream on it. -/
theorem Reached.oneWay (hr : Reached mode place sys h) :
    ∃ s f, h.stream = some s ∧ Connection.OneWay ⟨s, sys⟩ mode place f := by
  induction hr with
  | opened hpath htext hmode hplain hx hb hleads hopen =>
    obtain ⟨s, hs, ho⟩ := oneWay_openPath hpath htext hmode hplain hx hb hleads hopen
    exact ⟨s, _, hs, ho⟩
  | @called sys h f call _ hfile hadmits ih =>
    obtain ⟨s, f', hs, ho⟩ := ih
    rw [file?_of_oneWay hs ho] at hfile
    cases hfile
    rw [output_of_oneWay hs] at hadmits
    have hc := ho.perform hadmits
    have hclose : call ≠ .close := by
      rintro rfl
      exact hadmits
    rw [call_perform hs hclose]
    exact ⟨_, _, rfl, hc⟩
  | @drawn sys h f n _ hreads hwrites hfile hn ih =>
    obtain ⟨s, f', hs, ho⟩ := ih
    rw [file?_of_oneWay hs ho] at hfile
    cases hfile
    obtain ⟨c, e, hc⟩ := ho.draws hreads hwrites hn
    simp only [readSome, onStream, hs, e]
    exact ⟨c.stream, _, rfl, hc⟩
  | refused adopted _ ha ih =>
    obtain ⟨s, f, hs, ho⟩ := ih
    obtain ⟨c, g, hc, e, -⟩ := respond_against hs ho ha adopted
    rw [e]
    exact ⟨c.stream, g, rfl, hc.oneWay⟩

/-- From now on a handle does to its file what the calls do to the plain file. -/
theorem future_of_oneWay {limit : Nat} {output : Option Nat} {calls : List Call} (hs : h.stream = some s)
    (ho : Connection.OneWay ⟨s, sys⟩ mode place f) (hlimit : sys.largestOffset = limit)
    (hphase : (⟨s, sys⟩ : Connection).Phase f output) (hadmits : f.AdmitsAll limit mode output calls) :
    h.future sys place calls = ((f.callAll limit mode.appends calls).2, .ok (),
      some (.regular (f.callAll limit mode.appends calls).1.contents)) := by
  obtain ⟨c, hall, hthrough, hend, hdrains⟩ :=
    Connection.performAll_stands hlimit ho.stands ho.hasMode hphase hadmits
  have hrun := @run_performAll sys h s hs calls hadmits.close_notMem
  rw [hall] at hrun
  rcases hclose : c.close with ⟨sys', result⟩
  obtain ⟨rfl, c₁, d₁, dev₁, ho₁, hthrough₁, hdrops, hcontent⟩ := Connection.close_stands hend hdrains hclose
  have hfinal : sys'.contentAt place = some (.regular (f.callAll limit mode.appends calls).1.contents) := by
    obtain ⟨⟨d, dev, hon⟩, -⟩ := ho.stands.ready
    obtain ⟨p, dev', ho', -⟩ := (hthrough.trans hthrough₁).opened hon.opened
    rw [(hthrough.trans hthrough₁).stream.fd, ← hthrough.stream.fd, ho₁] at ho'
    cases ho'
    obtain ⟨-, hdevice⟩ := System.opened?_eq_some.1 ho₁
    obtain ⟨-, hnamed⟩ := ho.device d dev hon.opened
    unfold System.lookup at hnamed
    unfold System.contentAt System.lookup
    rw [hdrops.names, hthrough₁.system.names, hthrough.system.names, hnamed, Option.bind_some, hdrops.device,
      hdevice, Option.map_some, hcontent]
  have hclose : Connection.close ⟨c.stream, c.system⟩ = _ := hclose
  simp only [future, hrun, close, hclose, hfinal]
  rfl

/-- Two files are told apart by what is seen of them. -/
theorem eq_of_future {g : PlainFile} {h' : Handle} {sys' : System} {t : Stream} (hs : h.stream = some s)
    (ho : Connection.OneWay ⟨s, sys⟩ mode place f) (ht : h'.stream = some t)
    (ho' : Connection.OneWay ⟨t, sys'⟩ mode place g) (e : h'.future sys' place [.tell] = h.future sys place [.tell]) :
    g = f := by
  have hf : f.AdmitsAll sys.largestOffset mode (Connection.output ⟨s, sys⟩) [.tell] := ⟨trivial, trivial⟩
  have hg : g.AdmitsAll sys'.largestOffset mode (Connection.output ⟨t, sys'⟩) [.tell] := ⟨trivial, trivial⟩
  rw [future_of_oneWay hs ho rfl ho.phase hf, future_of_oneWay ht ho' rfl ho'.phase hg] at e
  simp only [PlainFile.callAll, PlainFile.call, Prod.mk.injEq, List.cons.injEq, Reply.answer.injEq,
    Answer.count.injEq, Option.some.injEq, Content.regular.injEq, and_true, true_and] at e
  obtain ⟨hposition, hcontents⟩ := e
  cases f
  cases g
  cases hposition
  cases hcontents
  rfl

/-- A request in the wrong direction fails with the number of a bad descriptor and the name of its
primitive, in every state of the handle. It is told from no request at all by nothing that can be seen
later, not by replies and not by the file after a close, if and only if it costs no output. What it costs is
what is pending, where input of a whole buffer is asked for; nothing else of the file is touched. -/
theorem refused_unseen_iff (hr : Reached mode place sys h) (ha : request.Against mode)
    (adopted : Option String) :
    ∃ h' sys' f g, h.respond sys adopted request = (h', sys', request.rebuff) ∧
      h.file? sys = some f ∧ h'.file? sys' = some g ∧ f = g.write mode.appends (h.cost sys request) ∧
      ((∀ calls, f.AdmitsAll sys.largestOffset mode (h.output sys) calls →
          h'.future sys' place calls = h.future sys place calls) ↔ h.cost sys request = []) := by
  obtain ⟨s, f, hs, ho⟩ := hr.oneWay
  obtain ⟨c, g, hc, e, hf⟩ := respond_against hs ho ha adopted
  have hfile := @file?_of_oneWay { h with stream := some c.stream } c.system c.stream mode place g rfl hc.oneWay
  refine ⟨_, _, f, g, e, file?_of_oneWay hs ho, hfile, hf, fun hsame => ?_, fun hnone calls hadmits => ?_⟩
  · have hgf := eq_of_future hs ho rfl hc.oneWay (hsame [.tell] ⟨trivial, trivial⟩)
    rw [hgf] at hf
    exact Classical.byContradiction fun hne => PlainFile.write_ne_self f mode.appends hne hf.symm
  · rw [hnone, PlainFile.write_nil] at hf
    subst hf
    rw [output_of_oneWay hs] at hadmits
    rw [future_of_oneWay hs ho rfl ho.phase hadmits,
      future_of_oneWay rfl hc.oneWay hc.through.system.largestOffset (hc.phase rfl) hadmits]

/-- Three bytes of output, of which the file has none once a read without a bound was refused. -/
theorem read_costs_pending :
    ∃ sys h sys' h', Reached ⟨false, true, false, true, true, false⟩ [toBytes "home", toBytes "p"] sys h ∧
      h.respond sys none (.call (.read none)) =
        (h', sys', .refused (.stream (.ofErrno "fread" .badDescriptor))) ∧
      h.cost sys (.call (.read none)) = [97, 98, 99] ∧
      h.future sys [toBytes "home", toBytes "p"] [.tell] =
        ([.answer (.count 3)], .ok (), some (.regular [97, 98, 99])) ∧
      h'.future sys' [toBytes "home", toBytes "p"] [.tell] =
        ([.answer (.count 0)], .ok (), some (.regular [])) := by
  have hopen : openPath .fresh (toBytes "p") "w" none =
      ((System.fresh.openStream (toBytes "p") (toBytes "w")).1,
        .ok ⟨Text.lossy (toBytes "p"), "w", some { fd := 0, reads := false, writes := true, appends := false }⟩) :=
    rfl
  have hleads : System.fresh.Leads ⟨false, true, false, true, true, false⟩ (toBytes "p")
      [toBytes "home", toBytes "p"] [] := .made rfl rfl
  have hopened := Reached.opened (by decide) (by decide) (by decide) (by decide) rfl accepts_none hleads hopen
  have hwrite : PlainFile.Admits ⟨[], 0⟩ System.fresh.largestOffset ⟨false, true, false, true, true, false⟩ none
      (.write [97, 98, 99]) := ⟨rfl, by decide, nofun⟩
  have hwritten := hopened.called rfl hwrite
  obtain ⟨h', sys', f, g, e, -, -, -, -⟩ := @refused_unseen_iff _ _ _ _ (.call (.read none)) hwritten rfl none
  refine ⟨_, _, sys', h', hwritten, e, rfl, rfl, ?_⟩
  cases e
  rfl

end Handle

end BufferedFiles
