import BufferedFiles.Proofs.RequestOperations
import BufferedFiles.Proofs.SessionAccounts

/-!
# The console in a run

Whatever a program does, in whatever order it first asks for the handles of the console or makes them all, each
of them is one handle from the start to the end. Only a request to it changes it, and only a close closes it. None
is counted. What is written to one is received in the order in which it was written, and what is missing is
accounted for: a device did not take it, or input that went past the buffer left it behind.
-/
namespace BufferedFiles

/-- The request asks for everything that is pending to be handed on. -/
def Request.Settles (request : Request) : Prop :=
  request = .call .flush ∨ request = .transfer .flush ∨ request = .call .close

/-- To tell a failure in another way makes no result of it. -/
theorem mapError_eq_ok {ε ε' α : Type} {result : Except ε α} {f : ε → ε'} {a : α} :
    result.mapError f = .ok a ↔ result = .ok a := by
  cases result with
  | ok b => constructor <;> (intro h; cases h; rfl)
  | error e => constructor <;> (intro h; cases h)

namespace Reply

theorem ofHandle_done {result : Except HandleError Unit} :
    ofHandle (fun _ => .done) result = .answer .done ↔ result = .ok () := by
  cases result <;> simp [ofHandle]

theorem ofTransfer_done {result : Except TransferError Unit} :
    ofTransfer (fun _ => .done) result = .answer .done ↔ result = .ok () := by
  cases result <;> simp [ofTransfer]

theorem ofStream_done {result : Except StreamError Unit} :
    ofStream (fun _ => .done) result = .answer .done ↔ result = .ok () := by
  cases result <;> simp [ofStream]

end Reply

namespace Handle

variable {h : Handle} {sys : System}

/-- The bytes that are pending in a handle. -/
def pending (h : Handle) : Bytes := (h.stream.map Stream.pending).getD []

/-- The bytes a request gives to the stream of a handle, one operation after the other. -/
def given (h : Handle) (sys : System) (request : Request) : Bytes :=
  if h.isClosed then [] else (h.operations sys request).flatMap Operation.given

theorem pending_none (hs : h.stream = none) : h.pending = [] := by
  rw [pending, hs]
  rfl

theorem pending_some {s : Stream} (hs : h.stream = some s) : h.pending = s.pending := by
  rw [pending, hs]
  rfl

theorem given_closed (hs : h.stream = none) {request : Request} : h.given sys request = [] := by
  rw [given, isClosed, hs]
  rfl

theorem given_open {s : Stream} (hs : h.stream = some s) (sys : System) (request : Request) :
    h.given sys request = (h.operations sys request).flatMap Operation.given := by
  rw [given, isClosed, hs]
  rfl

/-- Every operation of a request is carried out in full. -/
def CarriesOut (h : Handle) (sys : System) (request : Request) : Prop :=
  ∀ s, h.stream = some s → Connection.CompletesAll ⟨s, sys⟩ (h.operations sys request)

/-- The stream of the handle is over a descriptor on the device `i`, if it is open. -/
def Reaches (h : Handle) (sys : System) (i : Nat) : Prop := ∀ s, h.stream = some s → sys.Reaches s.fd i

/-- Nothing is pending in the handle unless it is used for output. -/
def Dry (h : Handle) : Prop := ∀ s, h.stream = some s → s.Dry

/-- A request to a handle is given bytes. What a device receives of it and what is pending after it come, in that order,
from what was pending and from the bytes; if it is carried out they are all of that. -/
theorem respond_delivers (hdry : h.Dry) (sys : System) (request : Request) (i : Nat) :
    ∃ new, (h.respond sys none request).2.1.got i = sys.got i ++ new ∧
      List.Sublist (new ++ (h.respond sys none request).1.pending) (h.pending ++ h.given sys request) ∧
      (h.CarriesOut sys request → h.Reaches sys i →
        new ++ (h.respond sys none request).1.pending = h.pending ++ h.given sys request) := by
  obtain ⟨hs, hsame, hsystem⟩ | ⟨s, hs, rfl, hclosed, hsystem⟩ | ⟨s, c', hs, -, hw', hhands⟩ :=
    h.respond_cases sys request
  · rw [hsame, hsystem, given_closed hs, List.append_nil]
    exact ⟨[], (List.append_nil _).symm, .refl _, fun _ _ => rfl⟩
  · have hgiven : h.given sys (.call .close) = [] := given_open hs sys _
    obtain ⟨new, hnew, hsub, hall⟩ := (Connection.close_hands ⟨s, sys⟩).1 i
    rw [pending_none hclosed, pending_some hs, hsystem, hgiven]
    simp only [List.append_nil]
    exact ⟨new, hnew, hsub, fun hout hi => hall (hout s hs).1 (hdry s hs) (hi s hs)⟩
  · rw [pending_some hw'.stream, pending_some hs, hw'.system, given_open hs]
    obtain ⟨new, hnew, hsub⟩ := hhands.order i
    refine ⟨new, hnew, hsub, fun hout hi => ?_⟩
    obtain ⟨new', hnew', heq⟩ := hhands.whole (hout s hs) (hdry s hs) i (hi s hs)
    rw [List.append_cancel_left (hnew.symm.trans hnew')]
    exact heq

theorem Dry.respond (hdry : h.Dry) (sys : System) (request : Request) : (h.respond sys none request).1.Dry := by
  intro t ht
  obtain ⟨-, hsame, -⟩ | ⟨s, -, -, hclosed, -⟩ | ⟨s, c', hs, -, hw', hhands⟩ := h.respond_cases sys request
  · rw [hsame] at ht
    exact hdry t ht
  · rw [hclosed] at ht
    cases ht
  · cases ht.symm.trans hw'.stream
    exact hhands.dry (hdry s hs)

/-- What a stream was opened with is kept as long as it is open. -/
theorem respond_kin {t : Stream} (request : Request) (ht : (h.respond sys none request).1.stream = some t) :
    ∃ s, h.stream = some s ∧ s.Kin t := by
  obtain ⟨-, hsame, -⟩ | ⟨s, -, -, hclosed, -⟩ | ⟨s, c', hs, -, hw', hhands⟩ := h.respond_cases sys request
  · rw [hsame] at ht
    exact ⟨t, ht, .refl t⟩
  · rw [hclosed] at ht
    cases ht
  · cases ht.symm.trans hw'.stream
    exact ⟨s, hs, hhands.through.stream⟩

/-- Only a close closes a handle. -/
theorem respond_isClosed (h : Handle) (sys : System) (request : Request) :
    (h.respond sys none request).1.isClosed = true ↔ h.isClosed = true ∨ request = .call .close := by
  obtain ⟨hs, hsame, -⟩ | ⟨s, -, hclose, hclosed, -⟩ | ⟨s, c', hs, hopen, hw', -⟩ := h.respond_cases sys request
  · rw [hsame, isClosed, hs]
    exact iff_of_true rfl (.inl rfl)
  · rw [isClosed, hclosed]
    exact iff_of_true rfl (.inr hclose)
  · rw [isClosed, isClosed, hw'.stream, hs]
    exact iff_of_false Bool.false_ne_true (not_or.2 ⟨Bool.false_ne_true, hopen⟩)

theorem carriesOut_flush {s : Stream} {request : Request} (hs : h.stream = some s)
    (hops : h.operations sys request = [.flush]) (hdrain : (Connection.drain ⟨s, sys⟩).2 = true) :
    h.CarriesOut sys request := by
  intro t ht
  cases hs.symm.trans ht
  rw [hops]
  exact ⟨hdrain, trivial⟩

theorem flush_settles {s : Stream} (hs : h.stream = some s) (hok : (h.flush sys).result = .ok ()) :
    (h.flush sys).handle.pending = [] ∧ (Connection.drain ⟨s, sys⟩).2 = true := by
  simp only [Handle.flush, onStream, hs] at hok ⊢
  obtain ⟨hdrain, hnone⟩ := (Connection.hands_flush ⟨s, sys⟩).2 (mapError_eq_ok.1 hok)
  exact ⟨hnone, hdrain⟩

/-- Where a flush or a close is answered it is carried out, and nothing is pending. -/
theorem respond_settles (hdry : h.Dry) {request : Request} (hsettles : request.Settles)
    (hdone : (h.respond sys none request).2.2 = .answer .done) :
    (h.respond sys none request).1.pending = [] ∧ h.CarriesOut sys request := by
  cases hs : h.stream with
  | none =>
    rw [respond_closed hs]
    exact ⟨pending_none hs, fun s hs' => by cases hs.symm.trans hs'⟩
  | some s =>
    rcases hsettles with rfl | rfl | rfl
    · obtain ⟨hnone, hdrain⟩ := flush_settles hs (Reply.ofHandle_done.1 hdone)
      exact ⟨hnone, carriesOut_flush hs rfl hdrain⟩
    · obtain ⟨hnone, hdrain⟩ := flush_settles hs (mapError_eq_ok.1 (Reply.ofTransfer_done.1 hdone))
      exact ⟨hnone, carriesOut_flush hs rfl hdrain⟩
    · rw [respond, call_close hs] at hdone ⊢
      have hok : (Connection.close ⟨s, sys⟩).2 = .ok () := Reply.ofStream_done.1 hdone
      exact ⟨rfl, carriesOut_flush hs rfl ((Connection.close_hands ⟨s, sys⟩).2 hok (hdry s hs))⟩

end Handle

/-- A stream of the books that is not counted was there from the start, and its descriptor stays open on its device. -/
theorem Books.Does.stays {fair : Prop} {a b : Books} {deeds : List Deed} (h : a.Does fair deeds b) (ha : a.Sound fair)
    (hfair : fair) {t : Token} (ht : t ∈ b.tokens) (hcounted : t.counted = false) :
    t ∈ a.tokens ∧ a.system.StaysOpen b.system t.fd := by
  induction h with
  | nothing => exact ⟨ht, .refl _ _⟩
  | works hretains _ ih =>
    obtain ⟨hmem, hstays⟩ := ih (ha.works hretains) ht
    exact ⟨hmem, (hretains.stays t.fd).trans hstays⟩
  | begins hfree hbegins _ ih =>
    obtain ⟨hmem, hstays⟩ := ih (ha.begins hfree hbegins) ht
    rcases Multiset.mem_cons.1 hmem with rfl | hmem
    · cases hcounted
    · exact ⟨hmem, (hbegins.others t.fd (hfree hfair t hmem)).trans hstays⟩
  | @ends a b sys other tokens deeds htokens hends _ ih =>
    obtain ⟨hmem, hstays⟩ := ih (ha.ends htokens hends) ht
    have hdistinct := ha.distinct hfair
    rw [htokens, Multiset.map_cons, Multiset.nodup_cons] at hdistinct
    have hne : t.fd ≠ other.fd := fun heq => hdistinct.1 (heq ▸ Multiset.mem_map_of_mem Token.fd hmem)
    exact ⟨htokens ▸ Multiset.mem_cons_of_mem hmem, (hends.others t.fd hne).trans hstays⟩
  | closes hfree hcloses _ ih =>
    obtain ⟨hmem, hstays⟩ := ih (ha.closes hfree hcloses) ht
    exact ⟨hmem, (hcloses.others t.fd (hfree hfair t hmem)).trans hstays⟩

/-- The request a command makes to a handle of the console. -/
def Command.requestTo? (name : ConsoleName) : Command → Option Request
  | .askConsole other request => if other = name then some request else none
  | _ => none

theorem Command.requestTo?_eq_some {command : Command} {name : ConsoleName} {request : Request} :
    command.requestTo? name = some request ↔ command = .askConsole name request := by
  cases command with
  | askConsole other asked =>
    simp only [requestTo?, Option.ite_none_right_eq_some, Option.some.injEq, askConsole.injEq]
  | _ => exact iff_of_false nofun nofun

namespace Session

variable {s : Session} {command : Command} {name : ConsoleName}

theorem release_console (s : Session) (r : Resource) : (s.release r).console = s.console := by
  obtain ⟨system, pool, h⟩ := s.release_eq r
  rw [h]

theorem put_console (s : Session) (slot : Slot) : (s.put slot).console = s.console := by
  unfold Session.put
  split
  · rfl
  · exact release_console _ _

theorem drop_console (s : Session) (name : String) : (s.drop name).console = s.console := by
  unfold Session.drop
  split
  · rfl
  · exact release_console _ _

theorem register_console {ε α : Type} (s : Session) (name : String) (adopted : Option String) (wrapped : α → Resource)
    (refusal : ε → HandleError) (made : System × Except ε α) :
    (s.register name adopted wrapped refusal made).1.console = s.console := by
  obtain ⟨sys, e | a⟩ := made
  · rfl
  · exact put_console { s with system := sys } _

theorem registerShared_console (s : Session) (name : String) (made : System × Except HandleError Handle) :
    (s.registerShared name made).1.console = s.console := by
  obtain ⟨sys, e | h⟩ := made
  · rfl
  · exact put_console { s with system := sys, pool := s.pool ++ [h] } _

theorem ask_console (s : Session) (name : String) (request : Request) : (s.ask name request).1.console = s.console := by
  unfold Session.ask
  split
  · rfl
  split
  · rfl
  · split <;> rfl
  · split
    · rfl
    · obtain ⟨system, workers, pool, heq⟩ := askShared_eq s _ _ request
      rw [heq]

theorem onDescriptor_console {α : Type} (s : Session) (descriptor : DescriptorRef) (op : String) (answer : α → Answer)
    (f : System → Nat → System × Except Errno α) : (s.onDescriptor descriptor op answer f).1.console = s.console := by
  unfold onDescriptor
  split
  · rfl
  · split <;> rfl

theorem wrap_console (s : Session) (name stream label mode : String) (buffering : Option Int) :
    (s.wrap name stream label mode buffering).1.console = s.console := by
  unfold Session.wrap
  split
  · exact register_console (s.forget stream) ..
  · rfl

theorem copy_console (s : Session) (source sink : String) : (s.copy source sink).1.console = s.console := by
  unfold Session.copy
  split
  · rfl
  · split <;> rfl

/-- A handle of the console is changed by requests to it only; to make it changes nothing that can be seen of it. -/
theorem step_console (haside : ∀ request, command ≠ .askConsole name request) :
    (s.step command).1.console.get name = s.console.get name := by
  have hsame : ∀ {s' : Session}, s'.console = s.console → s'.console.get name = s.console.get name :=
    fun h => by rw [h]
  cases command with
  | openHandle other path mode buffering => exact hsame (register_console ..)
  | adoptHandle other descriptor mode label buffering =>
    simp only [Session.step]
    split
    · rfl
    · exact hsame (register_console ..)
  | openStream other path mode => exact hsame (register_console ..)
  | adoptStream other descriptor mode =>
    simp only [Session.step]
    split
    · rfl
    · exact hsame (register_console ..)
  | wrap other stream label mode buffering => exact hsame (wrap_console ..)
  | openShared other path mode buffering => exact hsame (registerShared_console ..)
  | share other path mode buffering => exact hsame (registerShared_console ..)
  | clone other source =>
    simp only [Session.step]
    split
    · exact hsame (put_console ..)
    · rfl
  | ask other request => exact hsame (ask_console ..)
  | askConsole other request =>
    have hne : other ≠ name := fun heq => haside request (by rw [heq])
    exact (Console.get_set _ _ _ _).trans (if_neg hne)
  | prepareConsole => exact Console.get_prepare s.console name
  | copy source sink => exact hsame (copy_console ..)
  | drop other =>
    simp only [Session.step]
    split
    · exact hsame (drop_console ..)
    · rfl
  | openDescriptor other path reads writes =>
    simp only [Session.step]
    split <;> rfl
  | makePipe reader writer => rfl
  | writeDescriptor descriptor bytes => exact hsame (onDescriptor_console ..)
  | closeDescriptor descriptor => exact hsame (onDescriptor_console ..)
  | isOpen descriptor =>
    simp only [Session.step]
    split <;> rfl
  | peek path => rfl
  | peekConsole other => rfl
  | count => rfl

/-- A request to a handle of the console is one to its handle. -/
theorem askConsole_get (s : Session) (name : ConsoleName) (request : Request) :
    (s.step (.askConsole name request)).1.console.get name =
      ((s.console.get name).respond s.system none request).1 :=
  (Console.get_set _ _ _ _).trans (if_pos rfl)

/-- What a device receives while requests are made to a handle of the console. -/
def delivered (s : Session) (name : ConsoleName) (i : Nat) : List Command → Bytes
  | [] => []
  | command :: rest =>
    (match command.requestTo? name with
      | some _ => ((s.step command).1.system.got i).drop (s.system.got i).length
      | none => []) ++ (s.step command).1.delivered name i rest

/-- The bytes that requests to a handle of the console give to its stream, in order. -/
def given (s : Session) (name : ConsoleName) : List Command → Bytes
  | [] => []
  | command :: rest =>
    (match command.requestTo? name with
      | some request => (s.console.get name).given s.system request
      | none => []) ++ (s.step command).1.given name rest

/-- Every request to a handle of the console is carried out in full, on the device `i`. -/
def CarriesOut (s : Session) (name : ConsoleName) (i : Nat) : List Command → Prop
  | [] => True
  | command :: rest =>
    (∀ request, command.requestTo? name = some request →
      (s.console.get name).CarriesOut s.system request ∧ (s.console.get name).Reaches s.system i) ∧
    (s.step command).1.CarriesOut name i rest

/-- What one request hands on, and what is pending then, come in order from what was pending and what is written. -/
theorem askConsole_delivers (hdry : (s.console.get name).Dry) (request : Request) (i : Nat) :
    List.Sublist
        (((s.step (.askConsole name request)).1.system.got i).drop (s.system.got i).length ++
          ((s.step (.askConsole name request)).1.console.get name).pending)
        ((s.console.get name).pending ++ (s.console.get name).given s.system request) ∧
      ((s.console.get name).CarriesOut s.system request → (s.console.get name).Reaches s.system i →
        ((s.step (.askConsole name request)).1.system.got i).drop (s.system.got i).length ++
            ((s.step (.askConsole name request)).1.console.get name).pending =
          (s.console.get name).pending ++ (s.console.get name).given s.system request) := by
  obtain ⟨new, hnew, hsub, hall⟩ := Handle.respond_delivers hdry s.system request i
  have hgrown : (s.step (.askConsole name request)).1.system.got i = s.system.got i ++ new := hnew
  rw [askConsole_get, hgrown, List.drop_left]
  exact ⟨hsub, hall⟩

/-- The same over a run, by induction on the commands. What is pending in between is given by one and handed on by the
next. -/
theorem run_delivers (s : Session) (commands : List Command) (hdry : (s.console.get name).Dry) (i : Nat) :
    List.Sublist (s.delivered name i commands ++ ((s.run commands).1.console.get name).pending)
        ((s.console.get name).pending ++ s.given name commands) ∧
      (s.CarriesOut name i commands →
        s.delivered name i commands ++ ((s.run commands).1.console.get name).pending =
          (s.console.get name).pending ++ s.given name commands) := by
  induction commands generalizing s with
  | nil =>
    simp only [delivered, given, run, List.nil_append, List.append_nil]
    exact ⟨.refl _, fun _ => trivial⟩
  | cons command rest ih =>
    simp only [delivered, given, run, CarriesOut]
    cases hrequest : command.requestTo? name with
    | none =>
      have hsame : (s.step command).1.console.get name = s.console.get name := step_console fun request heq => by
        rw [Command.requestTo?_eq_some.2 heq] at hrequest
        cases hrequest
      obtain ⟨hsub, hwhole⟩ := ih (s.step command).1 (hsame ▸ hdry)
      rw [hsame] at hsub hwhole
      exact ⟨hsub, fun hout => hwhole hout.2⟩
    | some request =>
      cases Command.requestTo?_eq_some.1 hrequest
      have hdry' : ((s.step (.askConsole name request)).1.console.get name).Dry := by
        rw [askConsole_get]
        exact hdry.respond s.system request
      obtain ⟨hsub, hall⟩ := askConsole_delivers hdry request i
      obtain ⟨hsub', hwhole⟩ := ih (s.step (.askConsole name request)).1 hdry'
      constructor
      · have hlater := (List.Sublist.refl (((s.step (.askConsole name request)).1.system.got i).drop
          (s.system.got i).length)).append hsub'
        have hearlier := hsub.append (List.Sublist.refl ((s.step (.askConsole name request)).1.given name rest))
        simp only [List.append_assoc] at hlater hearlier ⊢
        exact hlater.trans hearlier
      · rintro ⟨hfirst, hrest⟩
        obtain ⟨hout, hi⟩ := hfirst request rfl
        rw [List.append_assoc, hwhole hrest, ← List.append_assoc, hall hout hi, List.append_assoc]

/-- The handle is the one that is made under a name, in what it was opened with, and its stream has nothing pending
unless it is used for output. -/
structure IsConsole (name : ConsoleName) (h : Handle) : Prop where
  path : h.path = name.initial.path
  mode : h.mode = name.initial.mode
  kin : ∀ t, h.stream = some t → ∃ s, name.initial.stream = some s ∧ s.Kin t
  dry : h.Dry

theorem isConsole_initial (name : ConsoleName) : IsConsole name name.initial where
  path := rfl
  mode := rfl
  kin t ht := ⟨t, ht, .refl t⟩
  dry := by cases name <;> (intro s hs; cases hs; exact fun _ => rfl)

theorem IsConsole.respond {h : Handle} (hh : IsConsole name h) (sys : System) (request : Request) :
    IsConsole name (h.respond sys none request).1 := by
  obtain ⟨hages, -⟩ := h.respond_ages sys none request
  refine ⟨hages.path.trans hh.path, hages.mode.trans hh.mode, fun t ht => ?_, hh.dry.respond sys request⟩
  obtain ⟨u, hu, hkin⟩ := Handle.respond_kin request ht
  obtain ⟨s, hs, hkin'⟩ := hh.kin u hu
  exact ⟨s, hs, hkin'.trans hkin⟩

theorem IsConsole.step (hh : IsConsole name (s.console.get name)) (command : Command) :
    IsConsole name ((s.step command).1.console.get name) := by
  by_cases hrequest : ∃ request, command = .askConsole name request
  · obtain ⟨request, rfl⟩ := hrequest
    rw [askConsole_get]
    exact hh.respond s.system request
  · rw [step_console fun request heq => hrequest ⟨request, heq⟩]
    exact hh

theorem IsConsole.run (hh : IsConsole name (s.console.get name)) (commands : List Command) :
    IsConsole name ((s.run commands).1.console.get name) := by
  induction commands generalizing s with
  | nil => exact hh
  | cons command rest ih => exact ih (hh.step command)

theorem run_isClosed (s : Session) (name : ConsoleName) (commands : List Command) :
    ((s.run commands).1.console.get name).isClosed = true ↔
      (s.console.get name).isClosed = true ∨ .askConsole name (.call .close) ∈ commands := by
  induction commands generalizing s with
  | nil => simp [run]
  | cons command rest ih =>
    have hstep : ((s.step command).1.console.get name).isClosed = true ↔
        (s.console.get name).isClosed = true ∨ .askConsole name (.call .close) = command := by
      by_cases hrequest : ∃ request, command = .askConsole name request
      · obtain ⟨request, rfl⟩ := hrequest
        rw [askConsole_get, Handle.respond_isClosed]
        exact or_congr_right ⟨fun heq => by rw [heq], fun heq => by cases heq; rfl⟩
      · rw [step_console fun request heq => hrequest ⟨request, heq⟩]
        exact ⟨.inl, fun h => h.resolve_right fun heq => hrequest ⟨_, heq.symm⟩⟩
    show (((s.step command).1.run rest).1.console.get name).isClosed = true ↔ _
    rw [ih, hstep, List.mem_cons, or_assoc]

/-- A stream of the console is not counted. -/
theorem IsConsole.counted {h : Handle} (hh : IsConsole name h) {t : Stream} (ht : h.stream = some t) :
    t.counted = false := by
  obtain ⟨s, hs, hkin⟩ := hh.kin t ht
  rw [hkin.counted]
  cases name <;> (cases hs; rfl)

/-- What is asked of the console leaves the count of the open streams. -/
theorem askConsole_openStreams (hh : IsConsole name (s.console.get name)) (request : Request) :
    (s.step (.askConsole name request)).1.system.openStreams = s.system.openStreams := by
  show ((s.console.get name).respond s.system none request).2.1.openStreams = s.system.openStreams
  by_cases hrequest : request = .call .close
  · subst hrequest
    cases hs : (s.console.get name).stream with
    | none => rw [Handle.respond_closed hs]
    | some t =>
      obtain ⟨-, -, -, hcount⟩ := Connection.close_drops ⟨t, s.system⟩
      rw [Handle.respond, Handle.call_close hs]
      exact hcount.trans (if_neg (by rw [hh.counted hs]; exact Bool.false_ne_true))
  · exact ((s.console.get name).respond_uses s.system none hrequest).system.count

section

variable {sys : System} {workers : Workers} {commands : List Command} {a b : ConsoleName} {t : Stream}

theorem get_start (name : ConsoleName) : Console.get {} name = name.initial := by cases name <;> rfl

theorem isConsole_run (sys : System) (workers : Workers) (commands : List Command) (name : ConsoleName) :
    IsConsole name ((({ system := sys, workers } : Session).run commands).1.console.get name) := by
  refine IsConsole.run (s := { system := sys, workers }) ?_ commands
  rw [get_start]
  exact isConsole_initial name

/-- In a fair run the streams of the console stay on the devices they were on. -/
theorem console_stays (hnone : sys.openStreams = 0) (hfair : ({ system := sys, workers } : Session).Fair commands)
    (ht : ((({ system := sys, workers } : Session).run commands).1.console.get name).stream = some t) :
    sys.StaysOpen (({ system := sys, workers } : Session).run commands).1.system t.fd := by
  have hstart : ({ system := sys, workers } : Session).Orderly (({ system := sys, workers } : Session).Fair commands) [] :=
    orderly_start hnone workers And.left
  obtain ⟨hs, deeds, hdoes, -⟩ := follows_run { system := sys, workers } commands And.right hstart
  have hmem : t ∈ (({ system := sys, workers } : Session).run commands).1.console.live :=
    get_streams_subset (by rw [Handle.streams, ht]; exact List.mem_singleton_self t)
  have htoken : t.token ∈ ((({ system := sys, workers } : Session).run commands).1.books []).tokens :=
    Multiset.mem_add.2 (.inr (List.mem_map_of_mem hmem))
  exact (hdoes.stays hstart.sound hfair htoken (hs.uncounted t hmem)).2

theorem fd_lt (hh : IsConsole name (s.console.get name)) (ht : (s.console.get name).stream = some t) : t.fd < 3 := by
  obtain ⟨u, hu, hkin⟩ := hh.kin t ht
  rw [hkin.fd]
  cases name <;> (cases hu; decide)

/-- In a fair run handles of the console that were apart at the start still are. -/
theorem console_apart (hnone : sys.openStreams = 0) (hfair : ({ system := sys, workers } : Session).Fair commands)
    (hapart : Handle.Apart sys a.initial b.initial) :
    Handle.Apart (({ system := sys, workers } : Session).run commands).1.system
      ((({ system := sys, workers } : Session).run commands).1.console.get a)
      ((({ system := sys, workers } : Session).run commands).1.console.get b) := by
  intro t u ht hu
  have ha := isConsole_run sys workers commands a
  have hb := isConsole_run sys workers commands b
  obtain ⟨t₀, ht₀, hkin⟩ := ha.kin t ht
  obtain ⟨u₀, hu₀, hkin'⟩ := hb.kin u hu
  obtain ⟨hfds, hdevices⟩ := hapart t₀ u₀ ht₀ hu₀
  rw [← hkin.fd, ← hkin'.fd] at hfds hdevices
  obtain ⟨d₀, hd₀⟩ := hfair.1 t.fd (fd_lt ha ht)
  obtain ⟨e₀, he₀⟩ := hfair.1 u.fd (fd_lt hb hu)
  obtain ⟨d₁, hd₁, hd⟩ := console_stays hnone hfair ht d₀ hd₀
  obtain ⟨e₁, he₁, he⟩ := console_stays hnone hfair hu e₀ he₀
  refine ⟨hfds, fun d e hd' he' => ?_⟩
  cases hd₁.symm.trans hd'
  cases he₁.symm.trans he'
  rw [hd, he]
  exact hdevices d₀ e₀ hd₀ he₀

end

/-- What holds of the handles of the console after commands, and of what comes next. -/
structure KeepsConsole (start : Session) (commands : List Command) (s : Session) : Prop where
  /-- Each name stands for one handle, with the path, the mode and the descriptor it is made with. -/
  one : ∀ name, IsConsole name (s.console.get name)
  /-- It is open until it is closed, and closed from then on. -/
  closed : ∀ name, (s.console.get name).isClosed = true ↔ .askConsole name (.call .close) ∈ commands
  /-- Nothing but a request to it changes it; what becomes of another one leaves it as it is. -/
  aside : ∀ name command, (∀ request, command ≠ .askConsole name request) →
    (s.step command).1.console.get name = s.console.get name
  /-- A request to one changes no reply of another one that is apart, unless that borrows. -/
  results : ∀ a b request requests, Handle.Apart s.system (s.console.get a) (s.console.get b) →
    ¬ (s.console.get b).BorrowsWithin s.system requests →
      ((s.console.get b).run (s.step (.askConsole a request)).1.system requests).1 =
          ((s.console.get b).run s.system requests).1 ∧
        ((s.console.get b).run (s.step (.askConsole a request)).1.system requests).2.2 =
          ((s.console.get b).run s.system requests).2.2
  /-- If the program leaves the descriptors of streams to them, those of the console stay open where they were, and
  handles that were apart at the start still are. -/
  place : start.system.openStreams = 0 → start.Fair commands →
    (∀ name t, (s.console.get name).stream = some t → start.system.StaysOpen s.system t.fd) ∧
      ∀ a b, Handle.Apart start.system a.initial b.initial → Handle.Apart s.system (s.console.get a) (s.console.get b)
  /-- What was received of a handle and what is pending come, in order, from what was written to it. -/
  ordered : ∀ name i, List.Sublist (start.delivered name i commands ++ (s.console.get name).pending)
    (start.given name commands)
  /-- If every request to it was carried out nothing is missing. -/
  whole : ∀ name i, start.CarriesOut name i commands →
    start.delivered name i commands ++ (s.console.get name).pending = start.given name commands
  /-- A flush or a close that is answered was carried out, and leaves nothing pending. -/
  settled : ∀ name request, request.Settles → (s.step (.askConsole name request)).2 = .answer .done →
    ((s.step (.askConsole name request)).1.console.get name).pending = [] ∧
      (s.console.get name).CarriesOut s.system request
  /-- Neither making the handles nor a request to one of them changes the count of the open streams. -/
  uncounted : ∀ command, command = .prepareConsole ∨ (∃ name request, command = .askConsole name request) →
    (s.step command).1.system.openStreams = s.system.openStreams

/-- At the start nothing is pending. -/
theorem run_delivers_start (sys : System) (workers : Workers) (commands : List Command) (name : ConsoleName) (i : Nat) :
    List.Sublist (({ system := sys, workers } : Session).delivered name i commands ++
        ((({ system := sys, workers } : Session).run commands).1.console.get name).pending)
        (({ system := sys, workers } : Session).given name commands) ∧
      (({ system := sys, workers } : Session).CarriesOut name i commands →
        ({ system := sys, workers } : Session).delivered name i commands ++
            ((({ system := sys, workers } : Session).run commands).1.console.get name).pending =
          ({ system := sys, workers } : Session).given name commands) := by
  have hdry : (Console.get {} name).Dry := get_start name ▸ (isConsole_initial name).dry
  have hdelivers := run_delivers { system := sys, workers } commands hdry i
  have hnone : (Console.get {} name).pending = [] := by cases name <;> rfl
  rwa [hnone, List.nil_append] at hdelivers

/-- Whatever a program does, it keeps its console. -/
theorem run_keepsConsole (sys : System) (workers : Workers) (commands : List Command) :
    KeepsConsole { system := sys, workers } commands (({ system := sys, workers } : Session).run commands).1 where
  one := isConsole_run sys workers commands
  closed name := by
    rw [run_isClosed, get_start]
    exact or_iff_right (by cases name <;> exact Bool.false_ne_true)
  aside _ _ := step_console
  results a b request requests hapart hown := by
    refine Handle.run_same requests (fun t ht => ?_) hown
    exact Handle.respond_sameFor (fun u hu => (hapart u t hu ht).symm) request
  place hcount hfair := ⟨fun _ _ => console_stays hcount hfair, fun _ _ => console_apart hcount hfair⟩
  ordered name i := (run_delivers_start sys workers commands name i).1
  whole name i := (run_delivers_start sys workers commands name i).2
  settled name request hsettles hdone := by
    rw [askConsole_get]
    exact Handle.respond_settles (isConsole_run sys workers commands name).dry hsettles hdone
  uncounted command hcommand := by
    rcases hcommand with rfl | ⟨name, request, rfl⟩
    · rfl
    · exact askConsole_openStreams (isConsole_run sys workers commands name) request

/-- Output with a request for input in the middle of it, which is refused. -/
def interruptedOutput : List Command :=
  [.askConsole .output (.call (.write [97, 98, 99])), .askConsole .output (.call (.read none)),
    .askConsole .output (.call (.write [100, 101, 102])), .askConsole .output (.call .flush)]

/-- What was pending when the request went past the buffer is gone. -/
theorem interruptedOutput_lost :
    let start : Session := { system := System.withConsole (.regular []) }
    start.system.Reaches 1 7 ∧
      (start.run interruptedOutput).2 = [.answer (.count 3), .refused (.stream (.ofErrno "fread" .badDescriptor)),
        .answer (.count 3), .answer .done] ∧
      start.given .output interruptedOutput = [97, 98, 99, 100, 101, 102] ∧
      start.delivered .output 7 interruptedOutput = [100, 101, 102] ∧
      ¬ start.CarriesOut .output 7 interruptedOutput := by
  intro start
  have hgiven : start.given .output interruptedOutput = [97, 98, 99, 100, 101, 102] := by decide +kernel
  have hdelivered : start.delivered .output 7 interruptedOutput = [100, 101, 102] := by decide +kernel
  refine ⟨⟨_, rfl, rfl⟩, by decide +kernel, hgiven, hdelivered, fun hout => ?_⟩
  have hall := (run_keepsConsole start.system {} interruptedOutput).whole .output 7 hout
  have hnone : ((start.run interruptedOutput).1.console.get .output).pending = [] := by decide +kernel
  revert hall
  show start.delivered .output 7 interruptedOutput ++ _ = start.given .output interruptedOutput → False
  rw [hgiven, hdelivered, hnone]
  decide

end Session

end BufferedFiles
