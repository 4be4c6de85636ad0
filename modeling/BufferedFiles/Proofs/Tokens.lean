import BufferedFiles.Proofs.IndicatorRuns
import BufferedFiles.Proofs.Places

/-!
# What becomes of a stream

A stream is known by its descriptor and by whether it is counted. What is asked of it changes neither,
and ends no descriptor. Closing it ends its descriptor, whatever it returns; making one begins a
descriptor or takes over an open one, and where a handle cannot be made of it the stream is closed.
-/
namespace BufferedFiles

/-- What a stream is known by as long as it lives. -/
structure Token where
  fd : Nat
  counted : Bool
  deriving DecidableEq

def Stream.token (s : Stream) : Token := ⟨s.fd, s.counted⟩

namespace System

variable {a b c : System} {fd : Nat} {t : Token}

/-- A descriptor that is open stays open on its device. -/
def StaysOpen (a b : System) (fd : Nat) : Prop :=
  ∀ d, a.descriptor? fd = some d → ∃ d', b.descriptor? fd = some d' ∧ d'.device = d.device

theorem StaysOpen.refl (a : System) (fd : Nat) : a.StaysOpen a fd := fun d hd => ⟨d, hd, rfl⟩

theorem StaysOpen.of_eq (h : b.descriptor? fd = a.descriptor? fd) : a.StaysOpen b fd :=
  fun d hd => ⟨d, h.trans hd, rfl⟩

theorem StaysOpen.trans (h : a.StaysOpen b fd) (h' : b.StaysOpen c fd) : a.StaysOpen c fd := by
  intro d hd
  obtain ⟨d', hd', hdevice⟩ := h d hd
  obtain ⟨d'', hd'', hdevice'⟩ := h' d' hd'
  exact ⟨d'', hd'', hdevice'.trans hdevice⟩

/-- No descriptor ends, and as many streams are counted. -/
structure Retains (a b : System) : Prop where
  stays : ∀ fd, a.StaysOpen b fd
  count : b.openStreams = a.openStreams

theorem Retains.refl (a : System) : a.Retains a := ⟨.refl a, rfl⟩

theorem Retains.trans (h : a.Retains b) (h' : b.Retains c) : a.Retains c :=
  ⟨fun fd => (h.stays fd).trans (h'.stays fd), h'.count.trans h.count⟩

theorem Retains.blamed (a : System) (e : Errno) : a.Retains { a with lastError := e } := ⟨.refl a, rfl⟩

theorem Through.retains (h : Through fd a b) : a.Retains b where
  stays j d hd := by
    by_cases hj : j = fd
    · subst hj
      obtain ⟨p, hp⟩ := h.own d hd
      exact ⟨_, hp, rfl⟩
    · exact ⟨d, (h.others j hj).trans hd, rfl⟩
  count := h.openStreams

/-- A new descriptor is one that was not open. -/
theorem Retains.addDescriptor (a : System) (d : Descriptor) : a.Retains (a.addDescriptor d).1 where
  stays fd d' hd' := by
    refine ⟨d', ?_, rfl⟩
    rw [descriptor?_addDescriptor, if_neg, hd']
    rintro rfl
    rw [addDescriptor_number, descriptor?_freeNumber] at hd'
    cases hd'
  count := addDescriptor_openStreams a d

/-- Opening a path, whether or not that goes well. -/
theorem openPath_retains (a : System) (path : Bytes) (mode : OpenMode) : a.Retains (a.openPath path mode).1 := by
  unfold openPath
  rcases hdevice : a.openDevice path mode with ⟨sys, e | i⟩
  · rw [openDevice_error hdevice]
    exact .blamed a e
  · have hopens := openDevice_opens hdevice
    have hopened : a.Retains sys := by
      refine ⟨fun fd => .of_eq ?_, by cases hopens <;> rfl⟩
      simp only [descriptor?, hopens.descriptors]
    exact hopened.trans (.addDescriptor _ _)

theorem makePipe_retains (a : System) : a.Retains a.makePipe.1 := by
  have hdevice : a.Retains (a.addDevice { content := .pipe [] }).1 := ⟨fun _ => .of_eq rfl, rfl⟩
  exact (hdevice.trans (.addDescriptor _ _)).trans (.addDescriptor _ _)

theorem contents_retains (a : System) (path : Bytes) : a.Retains (a.contents path).1 := by
  unfold contents
  split
  · exact .blamed a _
  · split
    · exact .refl a
    · exact .blamed a _
    · exact .refl a
    · exact .refl a

/-- A stream ends with its descriptor, and counts no longer if it did. -/
structure Ends (t : Token) (a b : System) : Prop where
  others : ∀ fd, fd ≠ t.fd → a.StaysOpen b fd
  gone : b.descriptor? t.fd = none
  count : b.openStreams = if t.counted then a.openStreams - 1 else a.openStreams

theorem Retains.ends (h : a.Retains b) (h' : Ends t b c) : Ends t a c where
  others fd hfd := (h.stays fd).trans (h'.others fd hfd)
  gone := h'.gone
  count := by rw [h'.count, h.count]

/-- A descriptor that is closed ends, and no stream with it. -/
theorem close_ends (a : System) (fd : Nat) : Ends ⟨fd, false⟩ a (a.close fd).1 := by
  obtain ⟨hdrops, hcount⟩ := a.drops_close fd
  exact ⟨fun j hj => .of_eq (hdrops.others j hj), hdrops.gone, hcount⟩

theorem SameStreams.retains (h : a.SameStreams b) : a.Retains b := ⟨fun fd => .of_eq (h.descriptor fd), h.count⟩

/-- A stream is made over a descriptor, and counts. -/
structure Begins (fd : Nat) (a b : System) : Prop where
  own : ∃ d, b.descriptor? fd = some d
  others : ∀ j, j ≠ fd → a.StaysOpen b j
  count : b.openStreams = a.openStreams + 1

section Making

variable {sys sys' : System} {path text : Bytes} {number : Int} {s : Stream}

/-- A stream that was opened is on a descriptor that was free. -/
theorem openStream_begins (e : sys.openStream path text = (sys', .ok s)) :
    s.token = ⟨s.fd, true⟩ ∧ sys.descriptor? s.fd = none ∧ Begins s.fd sys sys' := by
  obtain ⟨mode, sys₁, i, -, hopens, hs, hattaches⟩ := openStream_ok e
  have hdesc : ∀ fd, sys₁.descriptor? fd = sys.descriptor? fd := by
    intro fd
    simp only [descriptor?, hopens.descriptors]
  have hcount : sys₁.openStreams = sys.openStreams := by
    cases hopens <;> rfl
  obtain ⟨d, hd, -⟩ := hattaches.own
  refine ⟨?_, (hdesc _).symm.trans hattaches.free, ⟨d, hd⟩, fun j hj => .of_eq ?_, ?_⟩
  · rw [hs]
    rfl
  · exact (hattaches.others j hj).trans (hdesc j)
  · rw [hattaches.openStreams, hcount]

/-- A stream that adopted a descriptor is on it. -/
theorem adoptStream_begins (e : sys.adoptStream number text = (sys', .ok s)) :
    s.token = ⟨s.fd, true⟩ ∧ number = s.fd ∧ Begins s.fd sys sys' := by
  obtain ⟨d, sys₁, hnumber, hd, hs, hthrough, rfl⟩ := adoptStream_ok e
  obtain ⟨p, hp⟩ := hthrough.own _
    ((descriptor?_setDescriptor _ _ _ _).trans (if_pos ⟨rfl, lt_of_descriptor? hd⟩))
  refine ⟨?_, hnumber, ⟨_, hp⟩, fun j hj => .of_eq ((hthrough.others j hj).trans ?_), ?_⟩
  · rw [hs]
    rfl
  · exact (descriptor?_setDescriptor _ _ _ _).trans (if_neg fun heq => hj heq.1.symm)
  · exact congrArg (· + 1) hthrough.openStreams

/-- A descriptor that is not adopted is left alone. -/
theorem adoptStream_error {er : StreamError} (e : sys.adoptStream number text = (sys', .error er)) :
    ∃ errno, sys' = { sys with lastError := errno } := by
  unfold adoptStream at e
  split at e
  · cases e
    exact ⟨sys.lastError, rfl⟩
  split at e
  · cases e
    exact ⟨_, rfl⟩
  split at e
  · cases e
    exact ⟨_, rfl⟩
  split at e
  · cases e
    exact ⟨_, rfl⟩
  · cases e

end Making

end System

/-- What becomes of a stream, or of none: it is still what it was known by, or it has ended. -/
inductive Stream.Turns : Option Stream → System → Option Stream → System → Prop
  | keeps {s s' : Option Stream} {sys sys' : System} : s'.map Stream.token = s.map Stream.token → sys.Retains sys' →
      Turns s sys s' sys'
  | ends {s : Stream} {sys sys' : System} : System.Ends s.token sys sys' → Turns (some s) sys none sys'

/-- The last error is in no account. -/
theorem Stream.Turns.blamed {u u' : Option Stream} {a b : System} (h : Stream.Turns u a u' b) (e e' : Errno) :
    Stream.Turns u { a with lastError := e } u' { b with lastError := e' } := by
  cases h with
  | keeps htoken hretains => exact .keeps htoken ⟨hretains.stays, hretains.count⟩
  | ends hends => exact .ends ⟨hends.others, hends.gone, hends.count⟩

namespace Connection

theorem setDiscipline_through (c : Connection) (discipline : Discipline) :
    (c.setDiscipline discipline).1.stream.token = c.stream.token ∧
      System.Through c.stream.fd c.system (c.setDiscipline discipline).1.system := by
  have hsame : ∀ {q : Connection}, (c.update ({ · with discipline })).Through q →
      q.stream.token = c.stream.token ∧ System.Through c.stream.fd c.system q.system := by
    intro q h
    have hfd : q.stream.fd = c.stream.fd := h.stream.fd
    have hcounted : q.stream.counted = c.stream.counted := h.stream.counted
    exact ⟨by rw [Stream.token, hfd, hcounted]; rfl, h.system⟩
  cases discipline with
  | full => exact hsame (through_allocate _)
  | line => exact hsame (.refl _)
  | unbuffered =>
    have hsync := hsame (through_sync (c.update ({ · with discipline := .unbuffered })))
    unfold setDiscipline
    dsimp only
    split <;> rename_i heq <;> rw [heq] at hsync <;> exact hsync

/-- An operation keeps what the stream is known by, and ends no descriptor. -/
theorem operate_retains (c : Connection) (op : Operation) :
    (c.operate op).1.stream.token = c.stream.token ∧ c.system.Retains (c.operate op).1.system := by
  have hthrough : ∀ {q : Connection}, c.Through q → q.stream.token = c.stream.token ∧ c.system.Retains q.system :=
    fun h => ⟨by rw [Stream.token, h.stream.fd, h.stream.counted]; rfl, h.system.retains⟩
  cases op with
  | read n => exact hthrough (through_read c n)
  | readLine max => exact hthrough (through_readLine c max)
  | write bytes => exact hthrough (through_write c bytes)
  | flush => exact hthrough (through_flush c)
  | seek target => exact hthrough (through_seek c target)
  | tell => exact hthrough (through_tell c)
  | setDiscipline discipline =>
    obtain ⟨htoken, hsystem⟩ := setDiscipline_through c discipline
    exact ⟨htoken, hsystem.retains⟩

/-- A stream that is let go of ends, whether or not that goes well. -/
theorem release_ends (c : Connection) : System.Ends c.stream.token c.system c.release := by
  obtain ⟨c₁, hthrough, hdrops, hcount⟩ := close_drops c
  refine ⟨fun fd hfd => .of_eq ?_, hdrops.gone, hcount⟩
  exact (hdrops.others fd hfd).trans (hthrough.system.others fd hfd)

/-- Nothing but closing it ends a bare stream. -/
theorem respond_keeps (c : Connection) (adopted : Option String) {request : Request}
    (hrequest : request ≠ .call .close) :
    ∃ s, (c.respond adopted request).1 = some s ∧ s.token = c.stream.token ∧
      c.system.Retains (c.respond adopted request).2.1 := by
  obtain ⟨s, sys, reply, hreply⟩ : ∃ s sys reply, c.respond adopted request = (some s, sys, reply) := by
    rcases request with call | query | transfer | buffer | discipline
    · cases call with
      | close => exact absurd rfl hrequest
      | read max => cases max <;> exact ⟨_, _, _, rfl⟩
      | readLine max => cases max <;> exact ⟨_, _, _, rfl⟩
      | _ => exact ⟨_, _, _, rfl⟩
    · cases query <;> exact ⟨_, _, _, rfl⟩
    · exact ⟨_, _, _, rfl⟩
    · exact ⟨_, _, _, rfl⟩
    · exact ⟨_, _, _, rfl⟩
  rw [hreply]
  refine ⟨s, rfl, ?_⟩
  rcases respond_operates hreply with rfl | ⟨op, hop⟩
  · exact ⟨rfl, .refl _⟩
  · have hretains := operate_retains c op
    rw [hop] at hretains
    exact hretains

/-- What is asked of a bare stream. -/
theorem respond_turns (c : Connection) (adopted : Option String) (request : Request) :
    Stream.Turns (some c.stream) c.system (c.respond adopted request).1 (c.respond adopted request).2.1 := by
  by_cases hrequest : request = .call .close
  · subst hrequest
    exact .ends (release_ends c)
  · obtain ⟨s, hs, htoken, hretains⟩ := respond_keeps c adopted hrequest
    rw [hs]
    exact .keeps (congrArg some htoken) hretains

end Connection

namespace Handle

variable {h h' h'' : Handle} {sys sys' sys'' : System}

/-- What is asked of a handle keeps what its stream is known by, and ends no descriptor. -/
structure Uses (h : Handle) (sys : System) (h' : Handle) (sys' : System) : Prop where
  token : h'.stream.map Stream.token = h.stream.map Stream.token
  system : sys.Retains sys'

theorem Uses.refl (h : Handle) (sys : System) : h.Uses sys h sys := ⟨rfl, .refl sys⟩

theorem Uses.trans (hu : h.Uses sys h' sys') (hu' : h'.Uses sys' h'' sys'') : h.Uses sys h'' sys'' :=
  ⟨hu'.token.trans hu.token, hu.system.trans hu'.system⟩

theorem onStream_uses {α : Type} {f : Connection → Connection × Except StreamError α} (h : Handle) (sys : System)
    (hf : ∀ c, ∃ op, (f c).1 = (c.operate op).1) :
    h.Uses sys (h.onStream sys f).handle (h.onStream sys f).system := by
  unfold onStream
  cases hs : h.stream with
  | none => exact .refl h sys
  | some u =>
    obtain ⟨op, hop⟩ := hf ⟨u, sys⟩
    obtain ⟨htoken, hsystem⟩ := Connection.operate_retains ⟨u, sys⟩ op
    refine ⟨?_, ?_⟩
    · simp only [hop, hs, Option.map_some, htoken]
    · rw [← hop] at hsystem
      exact hsystem

theorem read_uses (h : Handle) (sys : System) (max : Option Nat) :
    h.Uses sys (h.read sys max).handle (h.read sys max).system :=
  onStream_uses h sys fun _ => ⟨.read _, rfl⟩

theorem readLine_uses (h : Handle) (sys : System) (max : Option Nat) :
    h.Uses sys (h.readLine sys max).handle (h.readLine sys max).system :=
  onStream_uses h sys fun _ => ⟨.readLine _, rfl⟩

theorem write_uses (h : Handle) (sys : System) (bytes : Bytes) :
    h.Uses sys (h.write sys bytes).handle (h.write sys bytes).system :=
  onStream_uses h sys fun _ => ⟨.write bytes, rfl⟩

theorem flush_uses (h : Handle) (sys : System) : h.Uses sys (h.flush sys).handle (h.flush sys).system :=
  onStream_uses h sys fun _ => ⟨.flush, rfl⟩

theorem seek_uses (h : Handle) (sys : System) (target : Target) :
    h.Uses sys (h.seek sys target).handle (h.seek sys target).system :=
  onStream_uses h sys fun _ => ⟨.seek target, rfl⟩

theorem tell_uses (h : Handle) (sys : System) : h.Uses sys (h.tell sys).handle (h.tell sys).system :=
  onStream_uses h sys fun _ => ⟨.tell, rfl⟩

theorem readSome_uses (h : Handle) (sys : System) (n : Nat) :
    h.Uses sys (h.readSome sys n).handle (h.readSome sys n).system :=
  onStream_uses h sys fun _ => ⟨.read n, rfl⟩

theorem readExact_uses (calls : Nat) (h : Handle) (sys : System) (n : Nat) :
    h.Uses sys (readExact calls h sys n).handle (readExact calls h sys n).system := by
  induction calls generalizing h sys n with
  | zero => exact .refl h sys
  | succ calls ih =>
    have hone := readSome_uses h sys n
    unfold readExact
    dsimp only
    split
    · exact .refl h sys
    split
    · split
      · exact hone.trans (ih _ _ _)
      · exact hone
    · exact hone
    · exact hone.trans (ih _ _ _)

theorem readToEnd_uses (calls : Nat) (h : Handle) (sys : System) (got : Nat) :
    h.Uses sys (readToEnd calls h sys got).handle (readToEnd calls h sys got).system := by
  induction calls generalizing h sys got with
  | zero => exact .refl h sys
  | succ calls ih =>
    have hone := readSome_uses h sys (max probeSize got)
    unfold readToEnd
    dsimp only
    split
    · split
      · exact hone.trans (ih _ _ _)
      · exact hone
    · exact hone
    · exact hone.trans (ih _ _ _)

theorem writeAll_uses (calls : Nat) (h : Handle) (sys : System) (bytes : Bytes) :
    h.Uses sys (writeAll calls h sys bytes).handle (writeAll calls h sys bytes).system := by
  induction calls generalizing h sys bytes with
  | zero => exact .refl h sys
  | succ calls ih =>
    have hone : h.Uses sys (h.writeSome sys bytes).handle (h.writeSome sys bytes).system := write_uses h sys bytes
    unfold writeAll
    dsimp only
    split
    · exact .refl h sys
    split
    · split
      · exact hone.trans (ih _ _ _)
      · exact hone
    · exact hone
    · exact hone.trans (ih _ _ _)

/-- A copy keeps what both its streams are known by. -/
theorem copy_uses (calls : Nat) (source sink : Handle) (sys : System) :
    source.Uses sys (copy calls source sink sys).1 (copy calls source sink sys).2.2.1 ∧
      sink.Uses sys (copy calls source sink sys).2.1 (copy calls source sink sys).2.2.1 := by
  induction calls generalizing source sink sys with
  | zero => exact ⟨.refl source sys, .refl sink sys⟩
  | succ calls ih =>
    have hread := readSome_uses source sys copySize
    unfold copy
    dsimp only
    split
    · split
      · obtain ⟨hsource, hsink⟩ := ih (source.readSome sys copySize).handle sink (source.readSome sys copySize).system
        exact ⟨hread.trans hsource, hsink.token, hread.system.trans hsink.system⟩
      · exact ⟨hread, rfl, hread.system⟩
    · exact ⟨hread, rfl, hread.system⟩
    · rename_i bytes _ _
      have hwrite := writeAll_uses callLimit sink (source.readSome sys copySize).system bytes
      split
      · exact ⟨⟨hread.token, hread.system.trans hwrite.system⟩, hwrite.token, hread.system.trans hwrite.system⟩
      · obtain ⟨hsource, hsink⟩ := ih (source.readSome sys copySize).handle
          (writeAll callLimit sink (source.readSome sys copySize).system bytes).handle
          (writeAll callLimit sink (source.readSome sys copySize).system bytes).system
        have hboth := hread.system.trans hwrite.system
        exact ⟨⟨hsource.token.trans hread.token, hboth.trans hsource.system⟩,
          ⟨hsink.token.trans hwrite.token, hboth.trans hsink.system⟩⟩

theorem transfer_uses (h : Handle) (sys : System) (t : Transfer) :
    h.Uses sys (h.transfer sys t).1 (h.transfer sys t).2.1 := by
  cases t with
  | readSome n => exact readSome_uses h sys n
  | readExact n => exact readExact_uses callLimit h sys n
  | readToEnd => exact readToEnd_uses callLimit h sys 0
  | readText => exact readToEnd_uses callLimit h sys 0
  | writeSome bytes => exact write_uses h sys bytes
  | writeAll bytes => exact writeAll_uses callLimit h sys bytes
  | flush => exact flush_uses h sys
  | seek target => exact seek_uses h sys target
  | rewind => exact seek_uses h sys (.start 0)
  | position => exact seek_uses h sys (.current 0)

/-- A handle that is let go of; nothing happens if it was closed. -/
theorem release_turns (h : Handle) (sys : System) : Stream.Turns h.stream sys none (h.release sys) := by
  unfold release Handle.close
  cases hs : h.stream with
  | none => exact .keeps rfl (.refl sys)
  | some u => exact .ends (Connection.release_ends ⟨u, sys⟩)

theorem close_stream (h : Handle) (sys : System) : (h.close sys).handle.stream = none := by
  unfold Handle.close
  cases hs : h.stream with
  | none => exact hs
  | some u => rfl

theorem Uses.turns (hu : h.Uses sys h' sys') : Stream.Turns h.stream sys h'.stream sys' :=
  .keeps hu.token hu.system

/-- Nothing but closing it makes a handle let go of its stream. -/
theorem respond_uses (h : Handle) (sys : System) (adopted : Option String) {request : Request}
    (hrequest : request ≠ .call .close) :
    h.Uses sys (h.respond sys adopted request).1 (h.respond sys adopted request).2.1 := by
  rcases request with call | query | transfer | buffer | discipline
  · cases call with
    | read max => exact read_uses h sys max
    | readLine max => exact readLine_uses h sys max
    | write bytes => exact write_uses h sys bytes
    | flush => exact flush_uses h sys
    | seek target => exact seek_uses h sys target
    | tell => exact tell_uses h sys
    | close => exact absurd rfl hrequest
  · exact .refl h sys
  · exact transfer_uses h sys transfer
  · exact .refl h sys
  · exact .refl h sys

/-- What is asked of a handle. -/
theorem respond_turns (h : Handle) (sys : System) (adopted : Option String) (request : Request) :
    Stream.Turns h.stream sys (h.respond sys adopted request).1.stream (h.respond sys adopted request).2.1 := by
  by_cases hrequest : request = .call .close
  · subst hrequest
    have hreleased := release_turns h sys
    rw [← close_stream h sys] at hreleased
    exact hreleased
  · exact (respond_uses h sys adopted hrequest).turns

/-- A stream that a handle is made of is in the handle, or has ended where none can be made. -/
theorem ofStream_turns (path mode : String) (u : Stream) (buffering : Option Int) (sys : System) :
    (∃ sys' h, ofStream path mode u buffering sys = (sys', .ok h) ∧ Stream.Turns (some u) sys h.stream sys') ∨
      ∃ sys' e, ofStream path mode u buffering sys = (sys', .error e) ∧ Stream.Turns (some u) sys none sys' := by
  unfold ofStream
  split
  · exact .inl ⟨_, _, rfl, .keeps rfl (.refl sys)⟩
  split
  · exact .inr ⟨_, _, rfl, .ends (Connection.release_ends ⟨u, sys⟩)⟩
  split
  · exact .inl ⟨_, _, rfl, .keeps rfl (.refl sys)⟩
  rename_i discipline _
  obtain ⟨htoken, hretains⟩ := Connection.operate_retains ⟨u, sys⟩ (.setDiscipline discipline)
  dsimp only
  split
  · exact .inl ⟨_, _, rfl, .keeps (congrArg some htoken) hretains⟩
  · refine .inr ⟨_, _, rfl, .ends ?_⟩
    have hends := Connection.release_ends (Connection.setDiscipline ⟨u, sys⟩ discipline).1
    have htoken : (Connection.setDiscipline ⟨u, sys⟩ discipline).1.stream.token = u.token := htoken
    rw [htoken] at hends
    exact hretains.ends hends

end Handle

end BufferedFiles
