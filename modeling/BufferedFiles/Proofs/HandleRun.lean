import BufferedFiles.Console
import BufferedFiles.Session.Request
import BufferedFiles.Proofs.Opening
import BufferedFiles.Proofs.StreamOperations

/-!
# Handles and runs

A handle is made from a stream that was not used yet. A run puts requests to a handle one after
another. What a call leaves is told by what its stream operation leaves; a run is told by the
replies it got.
-/
namespace BufferedFiles

/-- The handles that can be made, with the system as it is after that: over an opened path, over an
adopted descriptor, or of the console. -/
inductive Handle.Made : System → Handle → Prop
  | opened {before sys sys' : System} {path text : Bytes} {s : Stream} {label mode : String}
      {buffering : Option Int} {h : Handle} :
      before.openStream path text = (sys, .ok s) →
      Handle.ofStream label mode s buffering sys = (sys', .ok h) → Made sys' h
  | adopted {before sys sys' : System} {number : Int} {text : Bytes} {s : Stream}
      {label mode : String} {buffering : Option Int} {h : Handle} :
      before.adoptStream number text = (sys, .ok s) →
      Handle.ofStream label mode s buffering sys = (sys', .ok h) → Made sys' h
  | console (sys : System) (name : ConsoleName) : Made sys name.initial

namespace Handle

variable {sys sys' : System} {h : Handle} {s : Stream} {d : Descriptor} {dev : Device}

theorem made_openPath {before : System} {path : Bytes} {mode : String} {buffering : Option Int}
    (e : openPath before path mode buffering = (sys, .ok h)) : Made sys h := by
  unfold openPath at e
  split at e
  · cases e
  · rename_i hopen
    exact .opened hopen e

theorem made_adopt {before : System} {number : Int} {mode label : String} {buffering : Option Int}
    (e : adopt before number mode label buffering = (sys, .ok h)) : Made sys h := by
  unfold adopt at e
  split at e
  · cases e
  · rename_i hadopt
    exact .adopted hadopt e

/-- A buffering value that means something. -/
def Accepts (buffering : Option Int) : Prop := ∀ value, buffering = some value →
  ∃ b : Buffering, value = b.toInt

theorem accepts_none : Accepts none := nofun

/-- A discipline is set on a stream that was not used yet without a look at the system. -/
private theorem setDiscipline_fresh {b : Buffering} {discipline : Discipline} (hs : s.Fresh)
    (hb : b.discipline? = some discipline) :
    ∃ t : Stream, (∀ sys, Connection.setDiscipline ⟨s, sys⟩ discipline = (⟨t, sys⟩, .ok ())) ∧ t.Fresh ∧
      t.fd = s.fd ∧ t.reads = s.reads ∧ t.writes = s.writes ∧ t.appends = s.appends := by
  cases b with
  | unchanged => cases hb
  | lineBuffered =>
    cases hb
    exact ⟨{ s with discipline := .line }, fun _ => rfl,
      ⟨hs.window, hs.cursor, hs.pending, hs.writing, hs.offset, hs.signs, hs.capacity⟩, rfl, rfl, rfl, rfl⟩
  | unbuffered =>
    cases hb
    have hahead : ({ s with discipline := .unbuffered } : Stream).ahead = [] := by
      simp only [Stream.ahead, hs.window, hs.cursor, List.drop_nil, ite_self]
    have hsync : ∀ sys, Connection.sync ⟨{ s with discipline := .unbuffered }, sys⟩ =
        (⟨{ s with discipline := .unbuffered, offset := none }, sys⟩, true) := by
      intro sys
      rw [Connection.sync, Connection.drain_of_drained hs.pending]
      simp only [hahead, List.isEmpty_nil, if_true]
      rfl
    refine ⟨{ ({ s with discipline := .unbuffered, offset := none } : Stream).emptied with capacity := 1 },
      fun sys => ?_, ⟨rfl, rfl, rfl, hs.writing, rfl, hs.signs, Nat.le_refl 1⟩, rfl, rfl, rfl, rfl⟩
    simp only [Connection.setDiscipline, Connection.update, hsync]

/-- A handle over a stream that was not used yet is made with every buffering value that means
something, without a look at the system. -/
theorem ofStream_fresh {buffering : Option Int} (hs : s.Fresh) (hb : Accepts buffering) (label mode : String) :
    ∃ t, (∀ sys, ofStream label mode s buffering sys = (sys, .ok ⟨label, mode, some t⟩)) ∧ t.Fresh ∧
      t.fd = s.fd ∧ t.reads = s.reads ∧ t.writes = s.writes ∧ t.appends = s.appends := by
  cases buffering with
  | none => exact ⟨s, fun _ => rfl, hs, rfl, rfl, rfl, rfl⟩
  | some value =>
    obtain ⟨b, hvalue⟩ := hb value rfl
    have hint := Buffering.ofInt_eq_ok_iff.2 hvalue
    simp only [ofStream, hint]
    cases hd : b.discipline? with
    | none => exact ⟨s, fun _ => rfl, hs, rfl, rfl, rfl, rfl⟩
    | some discipline =>
      obtain ⟨t, hset, ht⟩ := setDiscipline_fresh hs hd
      refine ⟨t, fun sys => ?_, ht⟩
      simp only [onStream, hset]
      rfl

/-- A handle on a file a path leads to. Its descriptor was free, and the others stay. -/
theorem openPath_leads {before : System} {path data : Bytes} {text : String} {mode : OpenMode}
    {buffering : Option Int} {place : List Name} (hpath : path.contains 0 = false)
    (htext : (toBytes text).contains 0 = false)
    (hmode : OpenMode.parse? OpenMode.pathReach (toBytes text) = some mode)
    (hplain : OpenMode.charset? (toBytes text) = none) (hx : mode.exclusive = false)
    (hb : Accepts buffering) (hleads : before.Leads mode path place data) :
    ∃ sys s i dev, openPath before path text buffering = (sys, .ok ⟨Text.lossy path, text, some s⟩) ∧
      s.Fresh ∧ s.HasMode mode ∧
      sys.opened? s.fd = some (⟨i, mode.reads, mode.writes, mode.appends, mode.begins data⟩, dev) ∧
      before.Provides sys mode place data i dev ∧ before.descriptor? s.fd = none ∧
      ∀ j, j ≠ s.fd → sys.descriptor? j = before.descriptor? j := by
  obtain ⟨sys, fd, i, dev, hopen, ho, hprovides, hfree, hothers⟩ :=
    System.openStream_leads hpath htext hmode hplain hx hleads
  obtain ⟨s, hmake, hfresh, rfl, hreads, hwrites, happends⟩ :=
    ofStream_fresh (.ofMode fd mode.reads mode.writes mode.appends) hb (Text.lossy path) text
  refine ⟨sys, s, i, dev, ?_, hfresh, ⟨hreads, hwrites, happends⟩, ho, hprovides, hfree, hothers⟩
  simp only [openPath, hopen, hmake sys]

theorem ofStream_ok {buffering : Option Int} {label mode : String} (hs : s.Fresh)
    (e : ofStream label mode s buffering sys = (sys', .ok h)) :
    sys' = sys ∧ ∃ t, h.stream = some t ∧ t.Fresh ∧ t.fd = s.fd ∧ t.reads = s.reads ∧
      t.writes = s.writes ∧ t.appends = s.appends := by
  have hb : Accepts buffering := by
    intro value hvalue
    rw [hvalue, ofStream] at e
    dsimp only at e
    split at e
    · cases e
    · rename_i b hint
      exact ⟨b, Buffering.ofInt_eq_ok_iff.1 hint⟩
  obtain ⟨t, hmade, ht⟩ := ofStream_fresh hs hb label mode
  rw [hmade] at e
  cases e
  exact ⟨rfl, t, rfl, ht⟩

theorem Made.stream (hm : Made sys h) : ∃ s, h.stream = some s ∧ s.Fresh ∧
    ∀ d dev, sys.opened? s.fd = some (d, dev) → s.appends = true → d.appending = true := by
  cases hm with
  | opened hopen hmake =>
    obtain ⟨hs, happ⟩ := System.openStream_fresh hopen
    obtain ⟨rfl, t, hstream, ht, hfd, -, -, hap⟩ := ofStream_ok hs hmake
    refine ⟨t, hstream, ht, fun d dev ho hyes => happ d dev (hfd ▸ ho) (hap ▸ hyes)⟩
  | adopted hadopt hmake =>
    obtain ⟨hs, happ⟩ := System.adoptStream_fresh hadopt
    obtain ⟨rfl, t, hstream, ht, hfd, -, -, hap⟩ := ofStream_ok hs hmake
    refine ⟨t, hstream, ht, fun d dev ho hyes => happ d dev (hfd ▸ ho) (hap ▸ hyes)⟩
  | console _ name =>
    cases name <;> exact ⟨_, rfl, ⟨rfl, rfl, rfl, rfl, rfl, rfl, Nat.zero_le 1⟩, fun _ _ _ hyes => by cases hyes⟩

end Handle

/-- A stream that was not used yet is ready, and stands for what its device has. -/
theorem Stream.Fresh.ready {sys : System} {s : Stream} {d : Descriptor} {dev : Device}
    (hs : s.Fresh) (ho : sys.opened? s.fd = some (d, dev))
    (happ : s.appends = true → d.appending = true)
    (hin : dev.content.Within d.position sys.largestOffset) :
    (⟨s, sys⟩ : Connection).Ready ∧ (⟨s, sys⟩ : Connection).Calm ∧
      (⟨s, sys⟩ : Connection).account = .ofPort d dev 0 := by
  have hon : (⟨s, sys⟩ : Connection).On d dev := by
    refine Connection.Over.on_of_empty ⟨ho, happ, hin⟩ hs.window hs.cursor hs.pending ?_
    intro p hp
    have hp : s.offset = some p := hp
    rw [hs.offset] at hp
    cases hp
  refine ⟨⟨⟨d, dev, hon⟩, .inl hs.window⟩, fun hw => ?_, ?_⟩
  · have hw : s.writing = true := hw
    rw [hs.writing] at hw
    cases hw
  · have hpend : (⟨s, sys⟩ : Connection).stream.pending = [] := hs.pending
    rw [Connection.account_of_drained hpend]
    exact Connection.standing_of_empty ho hs.window

/-- `b` is `a` without the descriptor `fd`. -/
structure System.Drops (fd : Nat) (a b : System) : Prop where
  device : ∀ i, b.device? i = a.device? i
  others : ∀ j, j ≠ fd → b.descriptor? j = a.descriptor? j
  gone : b.descriptor? fd = none
  names : b.names = a.names
  home : b.home = a.home
  largestOffset : b.largestOffset = a.largestOffset
  charsets : b.charsets = a.charsets
  width : b.descriptors.length = a.descriptors.length

theorem System.Drops.counts {a b : System} {fd : Nat} (h : Drops fd a b) (count : Int) :
    Drops fd a { b with openStreams := count } :=
  { h with }

theorem System.drops_close (a : System) (fd : Nat) :
    Drops fd a (a.close fd).1 ∧ (a.close fd).1.openStreams = a.openStreams := by
  unfold close
  cases hdesc : a.descriptor? fd with
  | none => exact ⟨⟨fun _ => rfl, fun _ _ => rfl, hdesc, rfl, rfl, rfl, rfl, rfl⟩, rfl⟩
  | some d =>
    refine ⟨⟨fun _ => rfl, fun j hj => ?_, ?_, rfl, rfl, rfl, rfl, List.length_set⟩, rfl⟩
    · exact (descriptor?_setDescriptor _ _ j _).trans (if_neg fun heq => hj heq.1.symm)
    · exact (descriptor?_setDescriptor _ _ _ _).trans (if_pos ⟨rfl, lt_of_descriptor? hdesc⟩)

namespace Connection

variable {c : Connection} {sys : System}

/-- A stream that is used for output hands it on before it is closed. -/
theorem through_ending (c : Connection) : c.Through (if c.stream.writing then c.drain else (c, true)).1 := by
  split
  · exact through_drain c
  · exact .refl c

/-- Closing a stream comes to calls on its descriptor, and to the end of that; the stream counts no longer,
if it did. -/
theorem close_drops (c : Connection) :
    ∃ c₁, c.Through c₁ ∧ System.Drops c.stream.fd c₁.system c.close.1 ∧
      c.close.1.openStreams = if c.stream.counted then c.system.openStreams - 1 else c.system.openStreams := by
  have hdrain := through_ending c
  unfold close finish
  generalize (if c.stream.writing then c.drain else (c, true)) = r at hdrain
  obtain ⟨c₁, drained⟩ := r
  refine ⟨c₁, hdrain, ?_⟩
  have hfd : c₁.stream.fd = c.stream.fd := hdrain.stream.fd
  have hcount : c₁.system.openStreams = c.system.openStreams := hdrain.system.openStreams
  rw [← hcount, ← hfd]
  obtain ⟨hdrops, hsame⟩ := c₁.system.drops_close c₁.stream.fd
  rcases hclosed : c₁.system.close c₁.stream.fd with ⟨sys, _ | _⟩ <;> rw [hclosed] at hdrops hsame <;>
    simp only [hclosed]
  · exact ⟨hdrops.counts _, by rw [hsame]⟩
  · exact ⟨hdrops.counts _, by rw [hsame]⟩

/-- Once pending output was handed on or not, the descriptor of a stream that is closed goes. -/
private theorem close_of_drain {c₁ : Connection} {d : Descriptor} {drained : Bool}
    {result : Except StreamError Unit}
    (hdrain : (if c.stream.writing then c.drain else (c, true)) = (c₁, drained))
    (hfd : c₁.stream.fd = c.stream.fd) (hdesc : c₁.system.descriptor? c.stream.fd = some d)
    (e : c.close = (sys, result)) :
    System.Drops c.stream.fd c₁.system sys ∧ (result = .ok () ↔ drained = true) := by
  have hclosed : c₁.system.close c₁.stream.fd = (c₁.system.setDescriptor c.stream.fd none, .ok ()) := by
    rw [hfd]
    simp only [System.close, hdesc]
  simp only [close, finish, hdrain, hclosed, Prod.mk.injEq] at e
  obtain ⟨rfl, rfl⟩ := e
  have hlt := System.lt_of_descriptor? hdesc
  refine ⟨⟨fun _ => rfl, fun j hj => ?_, ?_, rfl, rfl, rfl, rfl, List.length_set⟩, ?_⟩
  · exact (System.descriptor?_setDescriptor _ _ j _).trans (if_neg fun heq => hj heq.1.symm)
  · exact (System.descriptor?_setDescriptor _ _ _ _).trans (if_pos ⟨rfl, hlt⟩)
  · cases drained with
    | true => exact iff_of_true rfl rfl
    | false => exact iff_of_false (fun hok => by cases hok) Bool.false_ne_true

/-- A stream with nothing pending is closed without another look at its device. -/
theorem close_drained {d : Descriptor} {result : Except StreamError Unit} (hp : c.stream.pending = [])
    (hdesc : c.system.descriptor? c.stream.fd = some d) (e : c.close = (sys, result)) :
    result = .ok () ∧ System.Drops c.stream.fd c.system sys := by
  have hdrain : (if c.stream.writing then c.drain else (c, true)) = (c, true) := by
    rw [drain_of_drained hp]
    exact ite_self _
  obtain ⟨hdrops, hresult⟩ := close_of_drain hdrain rfl hdesc e
  exact ⟨hresult.2 rfl, hdrops⟩

/-- A stream that is closed hands on what is pending before its descriptor goes. -/
theorem close_spec {result : Except StreamError Unit} (h : c.Ready) (e : c.close = (sys, result)) :
    ∃ c₁ d dev, c₁.On d dev ∧ c.Through c₁ ∧ System.Drops c.stream.fd c₁.system sys ∧
      ((result = .ok () ∧ c.Lays c₁ [] ∧ c₁.stream.pending = []) ∨
        (result ≠ .ok () ∧ c.stream.pending ≠ [] ∧ ¬ c.Willing 0)) := by
  rcases hdrain : (if c.stream.writing then c.drain else (c, true)) with ⟨c₁, drained⟩
  have hcase : c₁.Ready ∧ c.Through c₁ ∧ ((drained = true ∧ c.Lays c₁ [] ∧ c₁.stream.pending = []) ∨
      (drained = false ∧ c.stream.pending ≠ [] ∧ ¬ c.Willing 0)) := by
    split at hdrain
    · cases drained with
      | true =>
        obtain ⟨h₁, hpend, -, -⟩ := drain_ok h hdrain
        exact ⟨h₁.ready, h₁.through, .inl ⟨rfl, h₁, hpend⟩⟩
      | false =>
        obtain ⟨hfails, hne, -⟩ := drain_fails h hdrain
        exact ⟨hfails.ready, hfails.through, .inr ⟨rfl, hne, hfails.unwilling⟩⟩
    · rename_i hw
      cases hdrain
      obtain ⟨⟨d, dev, hon⟩, -⟩ := id h
      exact ⟨h, .refl c, .inl ⟨rfl, .refl h, hon.fits.input (by simpa using hw)⟩⟩
  obtain ⟨⟨⟨d, dev, hon⟩, -⟩, hthrough, hcase⟩ := hcase
  have hfd := hthrough.stream.fd
  obtain ⟨hdesc, -⟩ := System.opened?_eq_some.1 hon.opened
  obtain ⟨hdrops, hresult⟩ := close_of_drain hdrain hfd (hfd ▸ hdesc) e
  refine ⟨c₁, d, dev, hon, hthrough, hdrops, ?_⟩
  rcases hcase with ⟨rfl, hlays, hpend⟩ | ⟨rfl, hne, hno⟩
  · exact .inl ⟨hresult.2 rfl, hlays, hpend⟩
  · exact .inr ⟨fun hok => Bool.noConfusion (hresult.1 hok), hne, hno⟩

end Connection

namespace Handle

/-- Puts requests to a handle one after another. -/
def run (h : Handle) (sys : System) : List Request → Handle × System × List Reply
  | [] => (h, sys, [])
  | request :: rest =>
    let (h, sys, reply) := h.respond sys none request
    let (h, sys, replies) := run h sys rest
    (h, sys, reply :: replies)

end Handle

namespace Connection

/-- An operation of the stream with its result as a reply. -/
def answered {α : Type} (f : α → Answer) (r : Connection × Except StreamError α) : Connection × Reply :=
  (r.1, .ofStream f r.2)

/-- The operation a call on an open handle comes to. Closing is none of the stream alone. -/
def perform (c : Connection) : Call → Connection × Reply
  | .read max => answered .bytes (c.read (boundFor (max.map Int.ofNat)))
  | .readLine max => answered .bytes (c.readLine (boundFor (max.map Int.ofNat)))
  | .write bytes => answered .count (c.write bytes)
  | .flush => answered (fun _ => .done) c.flush
  | .seek target => answered .count (c.seek target)
  | .tell => answered .count c.tell
  | .close => (c, .senseless)

def performAll (c : Connection) : List Call → Connection × List Reply
  | [] => (c, [])
  | call :: rest =>
    let (c, reply) := c.perform call
    let (c, replies) := c.performAll rest
    (c, reply :: replies)

end Connection

namespace Handle

variable {sys : System} {h : Handle} {s : Stream}

theorem onStream_reply {α : Type} (hs : h.stream = some s)
    (op : Connection → Connection × Except StreamError α) (f : α → Answer) :
    (h.onStream sys op).reply f =
      ({ h with stream := some (op ⟨s, sys⟩).1.stream }, (op ⟨s, sys⟩).1.system,
        .ofStream f (op ⟨s, sys⟩).2) := by
  rcases hop : op ⟨s, sys⟩ with ⟨c, result⟩
  simp only [onStream, hs, hop, Outcome.reply]
  cases result <;> rfl

theorem call_perform (hs : h.stream = some s) {call : Call} (hc : call ≠ .close) :
    h.call sys call = ({ h with stream := some (Connection.perform ⟨s, sys⟩ call).1.stream },
      (Connection.perform ⟨s, sys⟩ call).1.system, (Connection.perform ⟨s, sys⟩ call).2) := by
  cases call with
  | close => exact absurd rfl hc
  | _ => exact onStream_reply hs _ _

/-- A run of calls without a close is a run of stream operations. -/
theorem run_performAll (hs : h.stream = some s) {calls : List Call} (hc : .close ∉ calls) :
    h.run sys (calls.map .call) =
      ({ h with stream := some (Connection.performAll ⟨s, sys⟩ calls).1.stream },
        (Connection.performAll ⟨s, sys⟩ calls).1.system, (Connection.performAll ⟨s, sys⟩ calls).2) := by
  induction calls generalizing h s sys with
  | nil =>
    simp only [List.map_nil, run, Connection.performAll, ← hs]
  | cons call rest ih =>
    rw [List.mem_cons, not_or] at hc
    have hfirst := @call_perform sys h s hs call (Ne.symm hc.1)
    rcases hp : Connection.perform ⟨s, sys⟩ call with ⟨c, answer⟩
    rw [hp] at hfirst
    have hrest := @ih c.system { h with stream := some c.stream } c.stream rfl hc.2
    simp only [List.map_cons, run, respond, hfirst, Connection.performAll, hp, hrest]

end Handle

end BufferedFiles
