import BufferedFiles.Session.Request

/-!
# Closed handles

A closed handle has one reply for each request and changes nothing. A handle that is open is never refused
for being closed: a call fails with what its stream says, and a transfer with that or with a failure of its
own. The number the system left may well be that of a bad descriptor; the failure is still the stream's.
-/
namespace BufferedFiles

/-- What can be asked through a share of a handle. -/
def Request.shared : Request → Bool
  | .call .tell | .query (.description _) | .transfer _ | .fillBuffer _ | .setDiscipline _ => false
  | _ => true

/-- The reply of a transfer that has no stream. Where nothing is asked for no call is made. -/
def Transfer.closedReply : Transfer → Reply
  | .readExact 0 => .answer (.bytes [])
  | .writeAll [] => .answer .done
  | _ => .failed (.ofHandleError .closed)

namespace Handle

/-- The reply of a closed handle. -/
def closedReply (h : Handle) (adopted : Option String) : Request → Reply
  | .call .close => .answer .done
  | .call _ => .refused .closed
  | .query .path => .answer (.text h.path)
  | .query .mode => .answer (.text h.mode)
  | .query .closed => .answer (.flag true)
  | .query .descriptor => .answer (.descriptor (-1) adopted)
  | .query (.description number) => .answer (.text (h.describe number))
  | .transfer t => t.closedReply
  | .fillBuffer _ | .setDiscipline _ => .senseless

/-- The reply of a closed handle through a share of it. -/
def closedReplyShared (h : Handle) (request : Request) : Reply :=
  if request.shared then h.closedReply none request else .senseless

variable {h : Handle} {sys : System}

theorem onStream_closed {α : Type} (hclosed : h.stream = none) (f : Connection → Connection × Except StreamError α) :
    h.onStream sys f = ⟨h, sys, .error .closed⟩ := by
  rw [onStream, hclosed]

theorem close_closed (hclosed : h.stream = none) : h.close sys = ⟨h, sys, .ok ()⟩ := by
  rw [close, hclosed]

/-- What a transfer does in its first call to a closed handle: no such failure is an interruption. -/
theorem readSome_closed (hclosed : h.stream = none) (n : Nat) :
    h.readSome sys n = ⟨h, sys, .error (.ofHandleError .closed)⟩ := by
  rw [readSome, onStream_closed hclosed]
  rfl

theorem writeSome_closed (hclosed : h.stream = none) (bytes : Bytes) :
    h.writeSome sys bytes = ⟨h, sys, .error (.ofHandleError .closed)⟩ := by
  rw [writeSome, write, onStream_closed hclosed]
  rfl

theorem closed_kind : (TransferError.ofHandleError .closed).kind ≠ .interrupted := by decide

theorem readExact_closed (hclosed : h.stream = none) (calls n : Nat) :
    readExact (calls + 1) h sys n =
      ⟨h, sys, if n = 0 then .ok [] else .error (.ofHandleError .closed)⟩ := by
  unfold readExact
  split
  · rfl
  · simp only [readSome_closed hclosed, closed_kind, if_false]

theorem readToEnd_closed (hclosed : h.stream = none) (calls got : Nat) :
    readToEnd (calls + 1) h sys got = ⟨h, sys, .error (.ofHandleError .closed)⟩ := by
  unfold readToEnd
  simp only [readSome_closed hclosed, closed_kind, if_false]

theorem writeAll_closed (hclosed : h.stream = none) (calls : Nat) (bytes : Bytes) :
    writeAll (calls + 1) h sys bytes =
      ⟨h, sys, if bytes.isEmpty then .ok () else .error (.ofHandleError .closed)⟩ := by
  unfold writeAll
  split
  · rfl
  · simp only [writeSome_closed hclosed, closed_kind, if_false]

theorem copy_closed (hclosed : h.stream = none) (calls : Nat) (sink : Handle) :
    copy (calls + 1) h sink sys = (h, sink, sys, .error (.ofHandleError .closed)) := by
  unfold copy
  simp only [readSome_closed hclosed, closed_kind, if_false]

theorem callLimit_eq : callLimit = 0x3FFFFFFFFFFFFFFF + 1 := by decide

theorem transfer_closed (hclosed : h.stream = none) (t : Transfer) : h.transfer sys t = (h, sys, t.closedReply) := by
  cases t with
  | readSome n => simp only [transfer, readSome_closed hclosed]; rfl
  | readExact n =>
    simp only [transfer, callLimit_eq, readExact_closed hclosed]
    cases n <;> rfl
  | readToEnd => simp only [transfer, callLimit_eq, readToEnd_closed hclosed]; rfl
  | readText => simp only [transfer, readText, callLimit_eq, readToEnd_closed hclosed]; rfl
  | writeSome bytes => simp only [transfer, writeSome_closed hclosed]; rfl
  | writeAll bytes =>
    simp only [transfer, callLimit_eq, writeAll_closed hclosed]
    cases bytes <;> rfl
  | flush => simp only [transfer, flush, onStream_closed hclosed]; rfl
  | seek target => simp only [transfer, seek, onStream_closed hclosed]; rfl
  | rewind => simp only [transfer, seek, onStream_closed hclosed]; rfl
  | position => simp only [transfer, seek, onStream_closed hclosed]; rfl

theorem respond_closed (hclosed : h.stream = none) (adopted : Option String) (request : Request) :
    h.respond sys adopted request = (h, sys, h.closedReply adopted request) := by
  cases request with
  | call c =>
    cases c with
    | close => simp only [respond, call, close_closed hclosed]; rfl
    | read max => simp only [respond, call, read, onStream_closed hclosed]; rfl
    | readLine max => simp only [respond, call, readLine, onStream_closed hclosed]; rfl
    | write bytes => simp only [respond, call, write, onStream_closed hclosed]; rfl
    | flush => simp only [respond, call, flush, onStream_closed hclosed]; rfl
    | seek target => simp only [respond, call, seek, onStream_closed hclosed]; rfl
    | tell => simp only [respond, call, tell, onStream_closed hclosed]; rfl
  | query q =>
    cases q with
    | closed => simp only [respond, query, closedReply, isClosed, hclosed, Option.isNone_none]
    | descriptor => simp only [respond, query, closedReply, descriptor, hclosed]
    | _ => rfl
  | transfer t => exact transfer_closed hclosed t
  | fillBuffer _ => rfl
  | setDiscipline _ => rfl

end Handle

/-- A failure of a transfer over an open handle: the stream's, or one of the transfer. -/
inductive TransferError.OfOpen : TransferError → Prop
  | stream (cause : StreamError) : OfOpen (.ofHandleError (.stream cause))
  | endOfData : OfOpen .endOfData
  | notText : OfOpen .notText
  | nothingWritten : OfOpen .nothingWritten

/-- A reply that an open handle can give. -/
inductive Reply.OfOpen : Reply → Prop
  | answer (a : Answer) : OfOpen (.answer a)
  | refused (cause : StreamError) : OfOpen (.refused (.stream cause))
  | failed {e : TransferError} : e.OfOpen → OfOpen (.failed e)
  | senseless : OfOpen .senseless

/-- A reply that says that a handle is closed. -/
def Reply.SaysClosed (reply : Reply) : Prop :=
  reply = .refused .closed ∨ reply = .failed (.ofHandleError .closed)

/-- The text of a failure of a stream names the operation, before a colon; that of a closed handle has none. -/
theorem ofHandleError_stream_ne (cause : StreamError) :
    TransferError.ofHandleError (.stream cause) ≠ .ofHandleError .closed := by
  intro heq
  have hmessage : cause.message = HandleError.message .closed := congrArg TransferError.message heq
  have hcolon : ':' ∈ cause.message.toList := by
    cases cause <;> simp [StreamError.message]
  rw [hmessage] at hcolon
  exact absurd hcolon (by decide)

theorem TransferError.OfOpen.ne_closed {e : TransferError} (h : e.OfOpen) : e ≠ .ofHandleError .closed := by
  cases h with
  | stream cause => exact ofHandleError_stream_ne cause
  | _ => decide

theorem Reply.OfOpen.not_saysClosed {reply : Reply} (h : reply.OfOpen) : ¬ reply.SaysClosed := by
  rintro (rfl | rfl)
  · cases h
  · cases h with
    | failed he => exact he.ne_closed rfl

/-- The same handle but for its stream, and as open as before. -/
structure Handle.Like (h h' : Handle) : Prop where
  path : h'.path = h.path
  mode : h'.mode = h.mode
  closed : h'.isClosed = h.isClosed

theorem Handle.Like.refl (h : Handle) : h.Like h := ⟨rfl, rfl, rfl⟩

theorem Handle.Like.trans {h h' h'' : Handle} (hl : h.Like h') (hl' : h'.Like h'') : h.Like h'' :=
  ⟨hl'.path.trans hl.path, hl'.mode.trans hl.mode, hl'.closed.trans hl.closed⟩

/-- An operation that leaves a handle like it was; if it is open, a failure is one of `fine`. -/
structure Outcome.Proper {ε α : Type} (fine : ε → Prop) (h : Handle) (r : Outcome ε α) : Prop where
  like : h.Like r.handle
  fails : h.isClosed = false → ∀ e, r.result = .error e → fine e

namespace Outcome

variable {ε α β : Type} {fine : ε → Prop} {h h' : Handle} {sys : System}

theorem proper_ok (h : Handle) (sys : System) (a : α) : (⟨h, sys, .ok a⟩ : Outcome ε α).Proper fine h :=
  ⟨.refl h, fun _ _ he => nomatch he⟩

theorem proper_error (h : Handle) (sys : System) {e : ε} (he : fine e) :
    (⟨h, sys, .error e⟩ : Outcome ε α).Proper fine h :=
  ⟨.refl h, fun _ _ heq => Except.error.inj heq ▸ he⟩

theorem Proper.after {r : Outcome ε α} (hlike : h.Like h') (hr : r.Proper fine h') : r.Proper fine h :=
  ⟨hlike.trans hr.like, fun hopen => hr.fails (hlike.closed.trans hopen)⟩

/-- The operation ends with the failure of its first part. -/
theorem Proper.error {r : Outcome ε α} (hr : r.Proper fine h) {e : ε} (he : r.result = .error e) :
    (⟨r.handle, r.system, .error e⟩ : Outcome ε β).Proper fine h :=
  ⟨hr.like, fun hopen _ heq => Except.error.inj heq ▸ hr.fails hopen e he⟩

theorem Proper.map {r : Outcome ε α} (hr : r.Proper fine h) (f : α → β) :
    (⟨r.handle, r.system, r.result.map f⟩ : Outcome ε β).Proper fine h := by
  refine ⟨hr.like, fun hopen e he => ?_⟩
  cases hresult : r.result with
  | ok a =>
    rw [hresult] at he
    cases he
  | error cause =>
    rw [hresult] at he
    cases he
    exact hr.fails hopen _ hresult

end Outcome

/-- A failure that the stream gave. -/
def HandleError.OfStream (e : HandleError) : Prop := ∃ cause, e = .stream cause

namespace Handle

variable {h : Handle} {sys : System}

theorem onStream_proper {α : Type} (h : Handle) (sys : System) (f : Connection → Connection × Except StreamError α) :
    (h.onStream sys f).Proper HandleError.OfStream h := by
  unfold onStream
  cases hs : h.stream with
  | none => exact ⟨.refl h, fun hopen => by simp [isClosed, hs] at hopen⟩
  | some u =>
    refine ⟨⟨rfl, rfl, by simp [isClosed, hs]⟩, fun _ e he => ?_⟩
    dsimp only at he
    cases hresult : (f ⟨u, sys⟩).2 with
    | ok a =>
      rw [hresult] at he
      cases he
    | error cause =>
      rw [hresult] at he
      exact ⟨cause, (Except.error.inj he).symm⟩

theorem toTransfer_proper {α : Type} {r : Outcome HandleError α} (hr : r.Proper HandleError.OfStream h) :
    r.toTransfer.Proper TransferError.OfOpen h := by
  refine ⟨hr.like, fun hopen e he => ?_⟩
  cases hresult : r.result with
  | ok a =>
    simp only [Outcome.toTransfer, hresult] at he
    cases he
  | error cause =>
    obtain ⟨cause, rfl⟩ := hr.fails hopen _ hresult
    simp only [Outcome.toTransfer, hresult] at he
    exact Except.error.inj he ▸ .stream cause

theorem readSome_proper (h : Handle) (sys : System) (n : Nat) :
    (h.readSome sys n).Proper TransferError.OfOpen h := toTransfer_proper (onStream_proper h sys _)

theorem writeSome_proper (h : Handle) (sys : System) (bytes : Bytes) :
    (h.writeSome sys bytes).Proper TransferError.OfOpen h := toTransfer_proper (onStream_proper h sys _)

theorem readExact_proper (calls : Nat) (h : Handle) (sys : System) (n : Nat) :
    (readExact calls h sys n).Proper TransferError.OfOpen h := by
  induction calls generalizing h sys n with
  | zero => exact Outcome.proper_error h sys .endOfData
  | succ calls ih =>
    have hone := readSome_proper h sys n
    unfold readExact
    dsimp only
    split
    · exact Outcome.proper_ok h sys []
    split
    · rename_i he
      split
      · exact (ih _ _ _).after hone.like
      · exact hone.error he
    · exact (Outcome.proper_error _ _ .endOfData).after hone.like
    · exact ((ih _ _ _).after hone.like).map _

theorem readToEnd_proper (calls : Nat) (h : Handle) (sys : System) (got : Nat) :
    (readToEnd calls h sys got).Proper TransferError.OfOpen h := by
  induction calls generalizing h sys got with
  | zero => exact Outcome.proper_ok h sys []
  | succ calls ih =>
    have hone := readSome_proper h sys (max probeSize got)
    unfold readToEnd
    dsimp only
    split
    · rename_i he
      split
      · exact (ih _ _ _).after hone.like
      · exact hone.error he
    · exact (Outcome.proper_ok _ _ []).after hone.like
    · exact ((ih _ _ _).after hone.like).map _

theorem readText_proper (h : Handle) (sys : System) : (h.readText sys).Proper TransferError.OfOpen h := by
  have hread := readToEnd_proper callLimit h sys 0
  refine ⟨hread.like, fun hopen e he => ?_⟩
  simp only [readText] at he
  cases hresult : (readToEnd callLimit h sys 0).result with
  | error cause =>
    rw [hresult] at he
    cases he
    exact hread.fails hopen _ hresult
  | ok bytes =>
    rw [hresult] at he
    dsimp only [Except.bind] at he
    split at he
    · cases he
    · cases he
      exact .notText

theorem writeAll_proper (calls : Nat) (h : Handle) (sys : System) (bytes : Bytes) :
    (writeAll calls h sys bytes).Proper TransferError.OfOpen h := by
  induction calls generalizing h sys bytes with
  | zero => exact Outcome.proper_error h sys .nothingWritten
  | succ calls ih =>
    have hone := writeSome_proper h sys bytes
    unfold writeAll
    dsimp only
    split
    · exact Outcome.proper_ok h sys ()
    split
    · rename_i he
      split
      · exact (ih _ _ _).after hone.like
      · exact hone.error he
    · exact (Outcome.proper_error _ _ .nothingWritten).after hone.like
    · exact (ih _ _ _).after hone.like

/-- Copying leaves both handles like they were, and between open ones it fails for no closed handle. -/
theorem copy_proper (calls : Nat) (source sink : Handle) (sys : System) :
    source.Like (copy calls source sink sys).1 ∧ sink.Like (copy calls source sink sys).2.1 ∧
      (source.isClosed = false → sink.isClosed = false →
        ∀ e, (copy calls source sink sys).2.2.2 = .error e → e.OfOpen) := by
  induction calls generalizing source sink sys with
  | zero => exact ⟨.refl source, .refl sink, fun _ _ _ he => nomatch he⟩
  | succ calls ih =>
    have hread := readSome_proper source sys copySize
    unfold copy
    dsimp only
    split
    · rename_i e he
      split
      · obtain ⟨hsource, hsink, hfails⟩ := ih (source.readSome sys copySize).handle sink
          (source.readSome sys copySize).system
        exact ⟨hread.like.trans hsource, hsink, fun hopen => hfails (hread.like.closed.trans hopen)⟩
      · exact ⟨hread.like, .refl sink, fun hopen _ _ heq => Except.error.inj heq ▸ hread.fails hopen e he⟩
    · exact ⟨hread.like, .refl sink, fun _ _ _ he => nomatch he⟩
    · rename_i bytes _ _
      have hwrite := writeAll_proper callLimit sink (source.readSome sys copySize).system bytes
      split
      · rename_i e he
        exact ⟨hread.like, hwrite.like, fun _ hopen _ heq => Except.error.inj heq ▸ hwrite.fails hopen e he⟩
      · obtain ⟨hsource, hsink, hfails⟩ := ih (source.readSome sys copySize).handle
          (writeAll callLimit sink (source.readSome sys copySize).system bytes).handle
          (writeAll callLimit sink (source.readSome sys copySize).system bytes).system
        refine ⟨hread.like.trans hsource, hwrite.like.trans hsink, fun hopen hopen' e he => ?_⟩
        have hfails := hfails (hread.like.closed.trans hopen) (hwrite.like.closed.trans hopen')
        dsimp only at he
        cases hresult : (copy calls (source.readSome sys copySize).handle
            (writeAll callLimit sink (source.readSome sys copySize).system bytes).handle
            (writeAll callLimit sink (source.readSome sys copySize).system bytes).system).2.2.2 with
        | ok n =>
          rw [hresult] at he
          cases he
        | error cause =>
          rw [hresult] at he
          cases he
          exact hfails _ hresult

/-- What becomes of a handle: its path and mode are the same, and if it was closed it still is. -/
structure Ages (h h' : Handle) : Prop where
  path : h'.path = h.path
  mode : h'.mode = h.mode
  closed : h.isClosed = true → h'.isClosed = true

theorem Like.ages {h' : Handle} (hl : h.Like h') : h.Ages h' := ⟨hl.path, hl.mode, fun hc => hl.closed.trans hc⟩

theorem Ages.refl (h : Handle) : h.Ages h := ⟨rfl, rfl, id⟩

theorem Ages.trans {h' h'' : Handle} (ha : h.Ages h') (ha' : h'.Ages h'') : h.Ages h'' :=
  ⟨ha'.path.trans ha.path, ha'.mode.trans ha.mode, fun hc => ha'.closed (ha.closed hc)⟩

theorem ages_ended (h : Handle) : h.Ages { h with stream := none } := ⟨rfl, rfl, fun _ => rfl⟩

theorem close_handle (h : Handle) (sys : System) : (h.close sys).handle = { h with stream := none } := by
  cases hs : h.stream with
  | none =>
    obtain ⟨path, mode, stream⟩ := h
    cases hs
    rfl
  | some u => simp only [close, hs]

theorem reply_ofOpen {α : Type} {r : Outcome HandleError α} (hr : r.Proper HandleError.OfStream h)
    (hopen : h.isClosed = false) (f : α → Answer) : (r.reply f).2.2.OfOpen := by
  unfold Outcome.reply
  cases hresult : r.result with
  | ok a => exact .answer _
  | error e =>
    obtain ⟨cause, rfl⟩ := hr.fails hopen e hresult
    exact .refused cause

theorem replyTransfer_ofOpen {α : Type} {r : Outcome TransferError α} (hr : r.Proper TransferError.OfOpen h)
    (hopen : h.isClosed = false) (f : α → Answer) : (r.replyTransfer f).2.2.OfOpen := by
  unfold Outcome.replyTransfer
  cases hresult : r.result with
  | ok a => exact .answer _
  | error e => exact .failed (hr.fails hopen e hresult)

/-- A handle that was asked for something ages, and if it was open the reply is that of an open one. -/
theorem transfer_ages (h : Handle) (sys : System) (t : Transfer) :
    h.Ages (h.transfer sys t).1 ∧ (h.isClosed = false → (h.transfer sys t).2.2.OfOpen) := by
  have hmade : ∀ {α : Type} {r : Outcome TransferError α} {f : α → Answer}, r.Proper TransferError.OfOpen h →
      h.Ages (r.replyTransfer f).1 ∧ (h.isClosed = false → (r.replyTransfer f).2.2.OfOpen) :=
    fun hr => ⟨hr.like.ages, fun hopen => replyTransfer_ofOpen hr hopen _⟩
  cases t with
  | readSome n => exact hmade (readSome_proper h sys n)
  | readExact n => exact hmade (readExact_proper callLimit h sys n)
  | readToEnd => exact hmade (readToEnd_proper callLimit h sys 0)
  | readText => exact hmade (readText_proper h sys)
  | writeSome bytes => exact hmade (writeSome_proper h sys bytes)
  | writeAll bytes => exact hmade (writeAll_proper callLimit h sys bytes)
  | flush => exact hmade (toTransfer_proper (onStream_proper h sys _))
  | seek target => exact hmade (toTransfer_proper (onStream_proper h sys _))
  | rewind => exact hmade (toTransfer_proper (onStream_proper h sys _))
  | position => exact hmade (toTransfer_proper (onStream_proper h sys _))

theorem close_ofOpen (h : Handle) (sys : System) : (h.call sys .close).2.2.OfOpen := by
  show ((h.close sys).reply fun _ => .done).2.2.OfOpen
  unfold close Outcome.reply
  cases h.stream with
  | none => exact .answer _
  | some u =>
    dsimp only
    cases (Connection.close ⟨u, sys⟩).2 with
    | ok _ => exact .answer _
    | error cause => exact .refused cause

theorem call_ages (h : Handle) (sys : System) (c : Call) :
    h.Ages (h.call sys c).1 ∧ (h.isClosed = false → (h.call sys c).2.2.OfOpen) := by
  have hmade : ∀ {α : Type} {r : Outcome HandleError α} {f : α → Answer}, r.Proper HandleError.OfStream h →
      h.Ages (r.reply f).1 ∧ (h.isClosed = false → (r.reply f).2.2.OfOpen) :=
    fun hr => ⟨hr.like.ages, fun hopen => reply_ofOpen hr hopen _⟩
  cases c with
  | close =>
    refine ⟨?_, fun _ => close_ofOpen h sys⟩
    have hhandle : (h.call sys .close).1 = { h with stream := none } := close_handle h sys
    rw [hhandle]
    exact ages_ended h
  | _ => exact hmade (onStream_proper h sys _)

theorem respond_ages (h : Handle) (sys : System) (adopted : Option String) (request : Request) :
    h.Ages (h.respond sys adopted request).1 ∧
      (h.isClosed = false → (h.respond sys adopted request).2.2.OfOpen) := by
  cases request with
  | call c => exact call_ages h sys c
  | query q => exact ⟨.refl h, fun _ => .answer _⟩
  | transfer t => exact transfer_ages h sys t
  | fillBuffer _ => exact ⟨.refl h, fun _ => .senseless⟩
  | setDiscipline _ => exact ⟨.refl h, fun _ => .senseless⟩

/-- What a handle is made of decides its path and its mode; it is open, and what cannot be made is not
refused for being closed. -/
def MadeAs (path mode : String) (made : System × Except HandleError Handle) : Prop :=
  (∀ h, made.2 = .ok h → ∃ u, h = ⟨path, mode, some u⟩) ∧ made.2 ≠ .error .closed

theorem madeAs_error (path mode : String) (sys : System) {e : HandleError} (he : e ≠ .closed) :
    MadeAs path mode (sys, .error e) := by
  refine ⟨fun h heq => ?_, fun heq => he (Except.error.inj heq)⟩
  cases heq

theorem madeAs_ok (path mode : String) (u : Stream) (sys : System) : MadeAs path mode (sys, .ok ⟨path, mode, some u⟩) :=
  ⟨fun _ heq => ⟨u, (Except.ok.inj heq).symm⟩, nofun⟩

theorem ofInt_ne_closed (value : Int) : Buffering.ofInt value ≠ .error .closed := by
  unfold Buffering.ofInt
  repeat' split
  all_goals nofun

theorem ofStream_madeAs (path mode : String) (u : Stream) (buffering : Option Int) (sys : System) :
    MadeAs path mode (ofStream path mode u buffering sys) := by
  unfold ofStream
  split
  · exact madeAs_ok path mode u sys
  split
  · rename_i value e he
    refine madeAs_error path mode _ fun heq => ?_
    exact ofInt_ne_closed _ (heq ▸ he)
  split
  · exact madeAs_ok path mode u sys
  rename_i discipline _
  have hproper := onStream_proper (⟨path, mode, some u⟩ : Handle) sys (·.setDiscipline discipline)
  dsimp only
  split
  · exact madeAs_ok path mode _ _
  · rename_i e he
    obtain ⟨cause, rfl⟩ := hproper.fails rfl e he
    exact madeAs_error path mode _ nofun

theorem openPath_madeAs (sys : System) (path : Bytes) (mode : String) (buffering : Option Int) :
    MadeAs (Text.lossy path) mode (openPath sys path mode buffering) := by
  unfold openPath
  split
  · exact madeAs_error _ _ _ nofun
  · exact ofStream_madeAs _ _ _ _ _

theorem adopt_madeAs (sys : System) (number : Int) (mode label : String) (buffering : Option Int) :
    MadeAs label mode (adopt sys number mode label buffering) := by
  unfold adopt
  split
  · exact madeAs_error _ _ _ nofun
  · exact ofStream_madeAs _ _ _ _ _

end Handle

end BufferedFiles
