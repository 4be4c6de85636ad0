import BufferedFiles.Proofs.RunTermination
import BufferedFiles.Proofs.Separation

/-!
# Inputs that fail

An input may fail when it is opened, or by any read of it. Whatever was read of it before went to the sink,
and the failure, the closing of the input and what it was on leave the sink as it is. So the job ends with a
sink that stands for what was copied before and what was read of the input, and for nothing else.
-/
namespace BufferedFiles

theorem Handle.onStream_through {α : Type} {h : Handle} {sys : System}
    {op : Connection → Connection × Except StreamError α} (hop : ∀ c : Connection, c.Through (op c).1) :
    (h.stream = none ∧ (h.onStream sys op).handle = h ∧ (h.onStream sys op).system = sys) ∨
      ∃ u c, h.stream = some u ∧ (h.onStream sys op).handle.stream = some c.stream ∧
        (h.onStream sys op).system = c.system ∧ (⟨u, sys⟩ : Connection).Through c := by
  cases hs : h.stream with
  | none => exact .inl ⟨rfl, by simp [onStream, hs], by simp [onStream, hs]⟩
  | some u =>
    rw [onStream_some hs]
    exact .inr ⟨u, (op ⟨u, sys⟩).1, rfl, rfl, rfl, hop _⟩

namespace System

variable {sys : System} {fd : Nat} {d : Descriptor} {dev : Device}

theorem read_directory (ho : sys.opened? fd = some (d, dev)) (hd : d.readable = true)
    (hdir : dev.content = .directory) (hfaults : dev.faults = []) {n : Nat}
    (hn : d.position + n ≤ largestPosition) :
    sys.read fd n = (sys.setDevice d.device dev).fail .isDirectory := by
  obtain ⟨content, faults, received⟩ := dev
  cases hdir
  cases hfaults
  simp [read, ho, hd, Content.fetch, Content.addresses, hn]

end System

def Stream.forInput (fd : Nat) : Stream := { fd, reads := true, writes := false, appends := false }

namespace Connection

variable {sys : System} {fd n : Nat} {d : Descriptor} {dev : Device}

private theorem fill_directory (ho : sys.opened? fd = some (d, dev)) (hd : d.readable = true)
    (hdir : dev.content = .directory) (hfaults : dev.faults = []) (hplace : d.position = 0) :
    ∃ q, fill ⟨Stream.forInput fd, sys⟩ = (q, false) ∧ q.stream.failed = true ∧ q.system.lastError = .isDirectory := by
  have hread := System.read_directory ho hd hdir hfaults (n := blockSize) (by rw [hplace]; decide)
  simp [fill, endOutput, allocate, System.inspect, Stream.forInput, ho, hread, System.fail, update]

theorem read_directory (ho : sys.opened? fd = some (d, dev)) (hd : d.readable = true)
    (hdir : dev.content = .directory) (hfaults : dev.faults = []) (hplace : d.position = 0) (hn : 0 < n)
    (hasked : n ≤ largestPosition) :
    (Connection.read ⟨Stream.forInput fd, sys⟩ n).2 = .error (.ofErrno "fread" .isDirectory) := by
  have hread : ∀ k, k ≤ largestPosition → sys.read fd k = (sys.setDevice d.device dev).fail .isDirectory :=
    fun k hk => System.read_directory ho hd hdir hfaults (by rw [hplace, Nat.zero_add]; exact hk)
  obtain ⟨q, htake, hfailed, herror⟩ : ∃ q, take ⟨Stream.forInput fd, sys⟩ n = (q, []) ∧ q.stream.failed = true ∧
      q.system.lastError = .isDirectory := by
    unfold take takeRounds
    by_cases hsmall : n < blockSize
    · have hblock := hread blockSize (by decide)
      simp [fill, endOutput, allocate, System.inspect, Stream.forInput, Stream.ahead, Stream.skip, ho, hblock,
        System.fail, update, hsmall, Nat.ne_of_gt hn]
    · have hdirect := fun t : Stream => hread (t.direct n) (Nat.le_trans (direct_le t n) hasked)
      simp [readPast, allocate, System.inspect, Stream.forInput, Stream.ahead, Stream.skip, Stream.emptied, ho, hdirect,
        System.fail, update, hsmall, Nat.ne_of_gt hn]
  have herrno : q.failure "fread" = .ofErrno "fread" .isDirectory := by
    unfold failure
    rw [herror]
    rfl
  simp only [Connection.read, Nat.ne_of_gt hn, if_false, Stream.forInput] at htake ⊢
  simp [htake, hfailed, hn, fault, herrno]

theorem readLine_directory (ho : sys.opened? fd = some (d, dev)) (hd : d.readable = true)
    (hdir : dev.content = .directory) (hfaults : dev.faults = []) (hplace : d.position = 0) (hn : 0 < n) :
    (Connection.readLine ⟨Stream.forInput fd, sys⟩ n).2 = .error (.ofErrno "fgets" .isDirectory) := by
  obtain ⟨q, hfill, hfailed, herror⟩ := fill_directory ho hd hdir hfaults hplace
  obtain ⟨m, hm⟩ : ∃ m, LineBuffer.sizeFor n - 1 = m + 1 :=
    ⟨LineBuffer.sizeFor n - 2, by simp only [LineBuffer.sizeFor]; omega⟩
  have hrounds : takeLineRounds (m + 1) ⟨Stream.forInput fd, sys⟩ (m + 1) = (q, []) := by
    simp [takeLineRounds, Stream.ahead, Stream.forInput, hfill] at hfill ⊢
  have htake : takeLine ⟨Stream.forInput fd, sys⟩ (m + 1) = (q, none) := by
    unfold takeLine
    rw [show update ⟨Stream.forInput fd, sys⟩ ({ · with failed := false }) = ⟨Stream.forInput fd, sys⟩ from rfl, hrounds]
    simp [update, Stream.forInput]
  have herrno : q.failure "fgets" = .ofErrno "fgets" .isDirectory := by
    unfold failure
    rw [herror]
    rfl
  simp only [Connection.readLine, Nat.ne_of_gt hn, if_false, Stream.forInput, hm] at htake ⊢
  simp [htake, hfailed, fault, herrno]

end Connection

namespace Handle

variable {sys : System} {path : Bytes} {place : List Name} {i : Nat} {dev : Device} {e : Errno}

theorem openPath_unfound (hplain : path.contains 0 = false) (hfind : sys.find path = .error e) :
    openPath sys path "r" none = ({ sys with lastError := e }, .error (.stream (.ofErrno "fopen" e))) := by
  have hmode : OpenMode.parse? OpenMode.pathReach (toBytes "r") = some ⟨true, false, false, false, false, false⟩ := by
    decide
  have hclean : (toBytes "r").contains 0 = false := by decide
  simp only [openPath, System.openStream, hplain, hclean, hmode, System.openPath, System.openDevice, hfind]
  rfl

theorem openPath_directory (hplain : path.contains 0 = false) (hfind : sys.find path = .ok place)
    (hat : sys.lookup place = some i) (hdev : sys.device? i = some dev) (hdir : dev.content = .directory) :
    ∃ sys' fd d, openPath sys path "r" none = (sys', .ok ⟨Text.lossy path, "r", some (Stream.forInput fd)⟩) ∧
      sys'.opened? fd = some (d, dev) ∧ d.readable = true ∧ d.position = 0 := by
  have hmode : OpenMode.parse? OpenMode.pathReach (toBytes "r") = some ⟨true, false, false, false, false, false⟩ := by
    decide
  have hclean : (toBytes "r").contains 0 = false := by decide
  have hdevice : sys.openDevice path ⟨true, false, false, false, false, false⟩ = (sys, .ok i) := by
    simp [System.openDevice, hfind, Except.map, hat, hdev, hdir]
  obtain ⟨fd, hfd⟩ : ∃ fd, (sys.addDescriptor ⟨i, true, false, false, 0⟩).2 = fd := ⟨_, rfl⟩
  refine ⟨{ (sys.addDescriptor ⟨i, true, false, false, 0⟩).1 with
    openStreams := (sys.addDescriptor ⟨i, true, false, false, 0⟩).1.openStreams + 1 }, fd,
    ⟨i, true, false, false, 0⟩, ?_, ?_, rfl, rfl⟩
  · simp only [openPath, System.openStream, hplain, hclean, hmode, System.openPath, hdevice, hfd]
    rfl
  · refine System.opened?_eq_some.2 ⟨?_, ?_⟩
    · exact hfd ▸ (System.descriptor?_addDescriptor sys _ _).trans (if_pos rfl)
    · exact (System.addDescriptor_device? sys _ _).trans hdev

end Handle

namespace Concat

namespace Work

variable {s : Settings} {w w' w'' : Work} {t t' t'' : Stream} {o n : Nat} {chunk part xs ys : Bytes} {failure : Failure}

theorem next_fails {u : Stream} {er : StreamError} (hu : w.source.stream = some u)
    (hfails : (if s.lines then (⟨u, w.system⟩ : Connection).readLine (boundFor (s.bound.map Int.ofNat))
      else (⟨u, w.system⟩ : Connection).read (boundFor (s.bound.map Int.ofNat))).2 = .error er) :
    ∃ w', w.next s = (w', .error (.read w.source.path (.stream er))) := by
  cases hlines : s.lines <;> rw [hlines] at hfails <;>
    simp only [Bool.false_eq_true, if_true, if_false] at hfails <;>
    simp only [next, Handle.read, Handle.readLine, Handle.onStream, hu, hlines, hfails,
      Bool.false_eq_true, if_true, if_false] <;>
    exact ⟨_, rfl⟩

/-- A read fails after `part` was read, in pieces that were written one after the other. -/
inductive Breaks (s : Settings) : Work → Bytes → Failure → Prop
  | here {w w' : Work} {failure : Failure} : w.next s = (w', .error failure) → Breaks s w [] failure
  | later {w w' : Work} {chunk part : Bytes} {failure : Failure} :
      w.next s = (w', .ok chunk) → chunk ≠ [] → Breaks s (w'.deliver chunk.length chunk).1 part failure →
      Breaks s w (chunk ++ part) failure

/-- The sink takes `n` bytes more, on the device `o`, and the source is apart from it. -/
structure Sinks (w : Work) (t : Stream) (o n : Nat) : Prop where
  sink : w.sink.stream = some t
  ready : (⟨t, w.system⟩ : Connection).Ready
  writes : t.writes = true
  output : ∃ e, w.system.descriptor? t.fd = some e ∧ e.device = o
  willing : (⟨t, w.system⟩ : Connection).Willing n
  apart : ∀ u, w.source.stream = some u → w.system.Apart t.fd u.fd

/-- `b` is `a` after `bytes` went to the sink. -/
structure Puts (a : Work) (t : Stream) (b : Work) (t' : Stream) (bytes : Bytes) : Prop where
  sink : t.Kin t'
  account : (⟨t', b.system⟩ : Connection).account = (⟨t, a.system⟩ : Connection).account.lay bytes
  grows : a.system.Grows b.system
  source : ∀ u', b.source.stream = some u' → ∃ u, a.source.stream = some u ∧ u'.fd = u.fd

theorem Puts.trans (h : w.Puts t w' t' xs) (h' : w'.Puts t' w'' t'' ys) : w.Puts t w'' t'' (xs ++ ys) where
  sink := h.sink.trans h'.sink
  account := by rw [h'.account, h.account, Account.lay_lay]
  grows := h.grows.trans h'.grows
  source u'' hu'' := by
    obtain ⟨u', hu', hfd⟩ := h'.source u'' hu''
    obtain ⟨u, hu, hfd'⟩ := h.source u' hu'
    exact ⟨u, hu, hfd.trans hfd'⟩

/-- What happens apart from the sink leaves it as it is. -/
private theorem Sinks.sameAt (h : w.Sinks t o n) (hsink : w'.sink = w.sink)
    (hs : System.SameAt t.fd w.system w'.system) (hg : w.system.Grows w'.system)
    (hd : w'.system.descriptor? t.fd = w.system.descriptor? t.fd)
    (hsource : ∀ u', w'.source.stream = some u' →
      w'.system.Apart t.fd u'.fd ∧ ∃ u, w.source.stream = some u ∧ u'.fd = u.fd) :
    w'.Sinks t o n ∧ w.Puts t w' t [] := by
  obtain ⟨e, he, heo⟩ := h.output
  refine ⟨⟨hsink ▸ h.sink, h.ready.sameAt hs, h.writes, ⟨e, hd.trans he, heo⟩, h.willing.sameAt hs,
    fun u' hu' => (hsource u' hu').1⟩, .refl t, ?_, hg, fun u' hu' => (hsource u' hu').2⟩
  rw [Account.lay_nil]
  exact Connection.account_sameAt hs

/-- A read leaves the sink as it is, whether or not it fails. -/
theorem next_puts (s : Settings) (h : w.Sinks t o n) :
    (w.next s).1.Sinks t o n ∧ w.Puts t (w.next s).1 t [] := by
  have hread : ∃ r : Outcome HandleError Bytes,
      (if s.lines then w.source.readLine w.system s.bound else w.source.read w.system s.bound) = r ∧
      ((w.source.stream = none ∧ r.handle = w.source ∧ r.system = w.system) ∨
        ∃ u c, w.source.stream = some u ∧ r.handle.stream = some c.stream ∧ r.system = c.system ∧
          (⟨u, w.system⟩ : Connection).Through c) := by
    cases s.lines with
    | true => exact ⟨_, rfl, Handle.onStream_through fun c => Connection.through_readLine c _⟩
    | false => exact ⟨_, rfl, Handle.onStream_through fun c => Connection.through_read c _⟩
  obtain ⟨r, hr, hcase⟩ := hread
  have hstep : ∀ events, ({ w with source := r.handle, system := r.system, events } : Work).Sinks t o n ∧
      w.Puts t { w with source := r.handle, system := r.system, events } t [] := by
    intro events
    rcases hcase with ⟨hnone, hhandle, hsys⟩ | ⟨u, c, hu, hhandle, hsys, hthrough⟩
    · refine h.sameAt rfl ?_ ?_ ?_ fun u' hu' => ?_
      · rw [hsys]
        exact .refl _ _
      · rw [hsys]
        exact .refl _
      · rw [hsys]
      · have hu' : r.handle.stream = some u' := hu'
        rw [hhandle, hnone] at hu'
        cases hu'
    · have hapart := h.apart u hu
      refine h.sameAt rfl ?_ ?_ ?_ fun u' hu' => ?_
      · rw [hsys]
        exact hthrough.system.sameAt hapart
      · rw [hsys]
        exact hthrough.system.grows
      · rw [hsys]
        exact hthrough.system.others t.fd hapart.fds
      · have hu' : r.handle.stream = some u' := hu'
        rw [hhandle] at hu'
        cases hu'
        have hfd : c.stream.fd = u.fd := hthrough.stream.fd
        rw [hsys, hfd]
        exact ⟨hapart.through hthrough.system, u, hu, rfl⟩
  simp only [next, hr]
  cases r.result with
  | error e => exact hstep w.events
  | ok chunk => exact hstep _

/-- What is written arrives, and leaves the source what it is on. -/
theorem deliver_puts (h : w.Sinks t o (chunk.length + n)) :
    ∃ w' t', w.deliver chunk.length chunk = (w', .ok ()) ∧ w'.Sinks t' o n ∧ w.Puts t w' t' chunk := by
  obtain ⟨c, events, hdeliver, hlays⟩ := deliver_lays h.sink h.ready h.writes (h.willing.mono (Nat.le_add_right _ n))
  have hthrough := hlays.through
  have hfd : c.stream.fd = t.fd := hthrough.stream.fd
  obtain ⟨e, he, heo⟩ := h.output
  obtain ⟨p, hp⟩ := hthrough.system.own e he
  have hp : c.system.descriptor? c.stream.fd = some { e with position := p } := hfd ▸ hp
  refine ⟨_, c.stream, hdeliver, ⟨rfl, hlays.ready, hthrough.stream.writes.trans h.writes, ⟨_, hp, heo⟩, ?_,
    fun u hu => ?_⟩, hthrough.stream, hlays.account, hthrough.system.grows, fun u hu => ⟨u, hu, rfl⟩⟩
  · exact h.willing.through hthrough hlays.account hlays.extent
  · rw [hfd]
    exact (h.apart u hu).through hthrough.system

/-- A copy whose source fails ends with that failure, and with all that was read in the sink. -/
theorem rounds_breaks (hb : w.Breaks s part failure) (h : w.Sinks t o (part.length + n)) (copied : Nat) :
    ∃ w' t', w.rounds s copied = some (w', .error failure) ∧ w'.Sinks t' o n ∧ w.Puts t w' t' part := by
  induction hb generalizing t copied with
  | @here w w' failure hnext =>
    rw [List.length_nil, Nat.zero_add] at h
    obtain ⟨hsinks, hputs⟩ := next_puts s h
    rw [hnext] at hsinks hputs
    refine ⟨w', t, ?_, hsinks, hputs⟩
    rw [rounds, round, hnext]
  | @later w w₁ chunk part failure hnext hne _ ih =>
    rw [List.length_append, Nat.add_assoc] at h
    obtain ⟨hsinks₁, hputs₁⟩ := next_puts s h
    rw [hnext] at hsinks₁ hputs₁
    obtain ⟨w₂, t₂, hdeliver, hsinks₂, hputs₂⟩ := deliver_puts hsinks₁
    rw [hdeliver] at ih
    obtain ⟨w₃, t₃, hrest, hsinks₃, hputs₃⟩ := ih hsinks₂ (copied + chunk.length)
    refine ⟨w₃, t₃, ?_, hsinks₃, hputs₁.trans (hputs₂.trans hputs₃)⟩
    rw [rounds, round, hnext]
    simp only [hdeliver]
    cases chunk with
    | nil => exact absurd rfl hne
    | cons b more => exact hrest

end Work

namespace Job

variable {s : Settings} {j : Job} {t : Stream} {w : Work} {o n : Nat} {content : String → Bytes} {waiting part : Bytes}
  {input : String} {failure : Failure}

/-- An input fails when it is its turn: it cannot be opened, or a read of it fails after `part` was read. -/
inductive Denies (s : Settings) (j : Job) (input : String) : Bytes → Failure → Prop
  | opening {sys : System} {e : HandleError} : input ≠ standardMark →
      Handle.openPath j.system (toBytes input) "r" none = (sys, .error e) →
      Denies s j input [] (.openInput input e)
  | reading {w : Work} {part : Bytes} {failure : Failure} :
      j.begin? input = some w → w.Breaks s part failure → Denies s j input part failure

/-- The device an input is read from when it is its turn. -/
def Reads (j : Job) (input : String) (i : Nat) : Prop :=
  ∃ w u d, j.begin? input = some w ∧ w.source.stream = some u ∧ w.system.descriptor? u.fd = some d ∧ d.device = i

section Denied

variable {place : List Name} {i : Nat} {dev : Device} {e : Errno}

/-- An input that is not there, or behind something that is no directory, fails when it is opened. -/
theorem denies_of_unfound (hne : input ≠ standardMark) (hplain : (toBytes input).contains 0 = false)
    (hfind : j.system.find (toBytes input) = .error e) :
    j.Denies s input [] (.openInput input (.stream (.ofErrno "fopen" e))) :=
  .opening hne (Handle.openPath_unfound hplain hfind)

/-- A directory fails at its first read. -/
theorem denies_of_directory (hne : input ≠ standardMark) (hplain : (toBytes input).contains 0 = false)
    (hfind : j.system.find (toBytes input) = .ok place) (hat : j.system.lookup place = some i)
    (hdev : j.system.device? i = some dev) (hdir : dev.content = .directory) (hfaults : dev.faults = [])
    (hasked : s.asked ≤ largestPosition) :
    j.Denies s input [] (.read (Text.lossy (toBytes input))
      (.stream (.ofErrno (if s.lines then "fgets" else "fread") .isDirectory))) := by
  obtain ⟨sys, fd, d, hopen, ho, hd, hplace⟩ := Handle.openPath_directory hplain hfind hat hdev hdir
  have hbound := boundFor_pos (s.bound.map Int.ofNat)
  obtain ⟨w, hwork, hsource, hsystem⟩ : ∃ w, j.begin? input = some w ∧
      w.source = ⟨Text.lossy (toBytes input), "r", some (Stream.forInput fd)⟩ ∧ w.system = sys := by
    unfold begin?
    rw [if_neg hne, hopen]
    exact ⟨_, rfl, rfl, rfl⟩
  have hstream : w.source.stream = some (Stream.forInput fd) := congrArg Handle.stream hsource
  have hfails : (if s.lines then (⟨Stream.forInput fd, w.system⟩ : Connection).readLine (boundFor (s.bound.map Int.ofNat))
      else (⟨Stream.forInput fd, w.system⟩ : Connection).read (boundFor (s.bound.map Int.ofNat))).2 =
        .error (.ofErrno (if s.lines then "fgets" else "fread") .isDirectory) := by
    rw [hsystem]
    cases hlines : s.lines with
    | true => exact Connection.readLine_directory ho hd hdir hfaults hplace hbound
    | false =>
      simp only [Settings.asked, hlines, Bool.false_eq_true, if_false] at hasked
      exact Connection.read_directory ho hd hdir hfaults hplace hbound hasked
  obtain ⟨w', hnext⟩ := Work.next_fails hstream hfails
  rw [hsource] at hnext
  exact .reading hwork (.here hnext)

end Denied

/-- Nothing is to come any more, and what happened was apart from the sink. -/
private theorem Serves.elsewhere {sys : System} (h : j.Serves s t o content waiting [] n)
    (hs : System.SameAt t.fd j.system sys) (hd : sys.descriptor? t.fd = j.system.descriptor? t.fd)
    (hg : j.system.Grows sys) (standardInput : Handle) (events : List Event) :
    Job.Serves s ⟨standardInput, j.sink, sys, events⟩ t o content waiting [] n ∧
      j.Passes t ⟨standardInput, j.sink, sys, events⟩ t [] := by
  obtain ⟨e, he, heo⟩ := h.output
  refine ⟨⟨h.sink, h.ready.sameAt hs, h.writes, ⟨e, hd.trans he, heo⟩, h.willing.sameAt hs, nofun, nofun⟩,
    .refl t, ?_, hg⟩
  rw [Account.lay_nil]
  exact Connection.account_sameAt hs

private theorem Serves.begins (h : j.Serves s t o content waiting [] n) (hw : j.begin? input = some w)
    (havoids : ¬ j.Reads input o) :
    w.sink = j.sink ∧ w.Sinks t o n ∧ j.Passes t (j.after w) t [] := by
  obtain ⟨e, he, heo⟩ := id h.output
  have hwilling : (⟨t, j.system⟩ : Connection).Willing n := by
    have hw := h.willing
    rwa [joined, List.length_nil, Nat.zero_add] at hw
  have hapart : w.system.descriptor? t.fd = some e → ∀ u, w.source.stream = some u → w.system.Apart t.fd u.fd := by
    intro hsink u hu
    have hdevice : ∀ d, w.system.descriptor? u.fd = some d → d.device ≠ o :=
      fun d hd hdo => havoids ⟨w, u, d, hw, hu, hd, hdo⟩
    refine ⟨fun heq => hdevice e (heq ▸ hsink) heo, fun d f hd hf => ?_⟩
    rw [hsink] at hd
    cases hd
    rw [heo]
    exact hdevice f hf
  unfold begin? at hw
  split at hw
  · cases hw
    exact ⟨rfl, ⟨h.sink, h.ready, h.writes, h.output, hwilling, hapart he⟩, .refl t, (Account.lay_nil _).symm, .refl _⟩
  · split at hw
    · cases hw
    rename_i sys source hopen
    have hwork := hw
    cases hw
    obtain ⟨u, mode, sys₁, i, hu, -, hmode, hopens, hattaches⟩ := Handle.openPath_ok hopen
    have hinput : OpenMode.parse? OpenMode.pathReach (toBytes "r") =
        some ⟨true, false, false, false, false, false⟩ := by decide
    rw [hinput] at hmode
    cases hmode
    obtain ⟨rfl, -⟩ := hopens.input rfl rfl
    obtain ⟨d, hd, hdi⟩ := hattaches.own
    have hio : i ≠ e.device := by
      rw [← hdi, heo]
      exact fun hdo => havoids ⟨_, u, d, by unfold begin?; rw [if_neg (by assumption), hopen], hu, hd, hdo⟩
    have hkept : sys.descriptor? t.fd = some e := (hattaches.others _ (hattaches.other he)).trans he
    have hsame := hattaches.sameAt he hio
    refine ⟨rfl, ⟨h.sink, h.ready.sameAt hsame, h.writes, ⟨e, hkept, heo⟩, hwilling.sameAt hsame, hapart hkept⟩,
      .refl t, ?_, hattaches.alike.grows⟩
    rw [Account.lay_nil]
    exact Connection.account_sameAt hsame

/-- An input that is let go of leaves what is behind a descriptor apart from it. -/
private theorem close_elsewhere {h : Handle} {sys : System} {fd : Nat}
    (hapart : ∀ u, h.stream = some u → sys.Apart fd u.fd) :
    System.SameAt fd sys (h.close sys).system ∧ (h.close sys).system.descriptor? fd = sys.descriptor? fd ∧
      sys.Grows (h.close sys).system := by
  unfold Handle.close
  cases hs : h.stream with
  | none => exact ⟨.refl _ _, rfl, .refl _⟩
  | some u =>
    obtain ⟨c₁, hthrough, hdrops, -⟩ := Connection.close_drops ⟨u, sys⟩
    have hbefore := hapart u hs
    have hafter := hbefore.through hthrough.system
    exact ⟨(hthrough.system.sameAt hbefore).trans (hdrops.sameAt hafter),
      (hdrops.others fd hafter.fds).trans (hthrough.system.others fd hbefore.fds),
      hthrough.system.grows.trans hdrops.alike.grows⟩

/-- An input that fails ends with its failure, and with all that was read of it in the sink. -/
theorem takeInput_denied (h : j.Serves s t o content waiting [] (part.length + n))
    (hk : j.Denies s input part failure) (havoids : ¬ j.Reads input o) :
    ∃ j' t', j.takeInput s input = (j', .error failure) ∧ j.Passes t j' t' part ∧
      j'.Serves s t' o content waiting [] n := by
  cases hk with
  | @opening sys e hne hopen =>
    obtain ⟨errno, rfl⟩ := Handle.openPath_error Handle.accepts_none (by decide) hopen
    rw [List.length_nil, Nat.zero_add] at h
    have hsame : System.SameAt t.fd j.system { j.system with lastError := errno } := ⟨rfl, rfl, fun _ _ _ _ _ => rfl⟩
    obtain ⟨hserves, hpasses⟩ := h.elsewhere hsame rfl (.of_same (fun _ => rfl) rfl rfl) j.standardInput j.events
    exact ⟨_, t, by simp only [takeInput, if_neg hne, hopen], hpasses, hserves⟩
  | @reading w _ _ hbegin hbreaks =>
    obtain ⟨hsame, hsinks, hbegun⟩ := h.begins hbegin havoids
    obtain ⟨w', t', hrounds, hsinks', hputs⟩ := Work.rounds_breaks hbreaks hsinks 0
    have hcopy : w.copy s = (w', .error failure) := by rw [Work.copy, hrounds, Option.getD_some]
    have hput : (j.after w).Passes t (j.after w') t' part := ⟨hputs.sink, hputs.account, hputs.grows⟩
    have hcopied : j.Passes t (j.after w') t' part := hbegun.trans hput
    have hserves : (j.after w').Serves s t' o content waiting [] n :=
      ⟨hsinks'.sink, hsinks'.ready, hsinks'.writes, hsinks'.output,
        hsinks'.willing.mono (Nat.le_of_eq (Nat.zero_add n)), fun _ h => absurd h List.not_mem_nil,
        fun h => absurd h List.not_mem_nil⟩
    unfold begin? at hbegin
    split at hbegin
    · rename_i hmark
      cases hbegin
      rw [takeInput, if_pos hmark, hcopy]
      exact ⟨_, t', rfl, ⟨hcopied.sink, hcopied.account, hcopied.grows⟩, hserves.sink, hserves.ready, hserves.writes,
        hserves.output, hserves.willing, fun _ h => absurd h List.not_mem_nil,
        fun h => absurd h List.not_mem_nil⟩
    · rename_i hne
      split at hbegin
      · cases hbegin
      rename_i sys source hopen
      cases hbegin
      obtain ⟨hsame, hdesc, hgrows⟩ := close_elsewhere hsinks'.apart
      obtain ⟨hreleased, hpassed⟩ := hserves.elsewhere hsame hdesc hgrows j.standardInput
        ((releaseEvents w'.source (w'.source.close w'.system).result).reverse ++ w'.events)
      have hpasses := hcopied.trans hpassed
      rw [List.append_nil] at hpasses
      refine ⟨_, t', ?_, hpasses, hreleased⟩
      simp only [takeInput, if_neg hne, hopen, hcopy]
      rfl

/-- The inputs behind one that fails make no difference. -/
theorem takeInputs_stop {j₀ j' : Job} {before : List String} (after : List String) {total n : Nat}
    (hbefore : j₀.takeInputs s before total = (j, .ok n)) (hk : j.takeInput s input = (j', .error failure)) :
    j₀.takeInputs s (before ++ input :: after) total = (j', .error failure) := by
  induction before generalizing j₀ total with
  | nil =>
    cases hbefore
    rw [List.nil_append, takeInputs, hk]
  | cons first rest ih =>
    rw [List.cons_append]
    unfold takeInputs at hbefore ⊢
    rcases hfirst : j₀.takeInput s first with ⟨j₁, er | moved⟩ <;> rw [hfirst] at hbefore
    · cases hbefore
    · exact ih hbefore

end Job

end Concat

end BufferedFiles
