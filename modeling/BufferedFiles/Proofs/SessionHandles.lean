import BufferedFiles.Proofs.ClosedHandles
import BufferedFiles.Proofs.SessionNames

/-!
# The handles of a session

A session has handles under names, in the pool, and at the console. A request is made to one of them, by its
name, through a share of it, or at the console, and changes no other. As long as a handle is kept its path and
its mode are what it was made with, and once it was closed it stays closed: from then on every request gets
the reply of a closed handle, and leaves the whole session as it was. A command says that a handle is closed
only if it is made to a closed one.
-/
namespace BufferedFiles

/-- Where a session has a handle. -/
inductive Holder where
  | name (name : String)
  | entry (entry : Nat)
  | console (name : ConsoleName)
  deriving DecidableEq

/-- A request, the handle it is made to, and the name of the descriptor that was made from. -/
structure Asked where
  holder : Holder
  adopted : Option String
  request : Request

namespace Asked

/-- What a request to a closed handle is answered. -/
def closedReply (a : Asked) (h : Handle) : Reply :=
  match a.holder with
  | .entry _ => h.closedReplyShared a.request
  | _ => h.closedReply a.adopted a.request

end Asked

/-- The name a command gives or takes away where it is answered. -/
def Command.renames? : Command → Option String
  | .openHandle name _ _ _ | .adoptHandle name _ _ _ _ | .openStream name _ _ | .adoptStream name _ _
  | .wrap name _ _ _ _ | .openShared name _ _ _ | .share name _ _ _ | .clone name _ | .drop name => some name
  | _ => none

namespace Session

variable {s s' s'' : Session} {holder other : Holder} {name : String} {h h' : Handle} {slot : Slot} {sys : System}

def handleAt? (s : Session) : Holder → Option Handle
  | .name name => s.handle? name
  | .entry entry => s.pool[entry]?
  | .console name => some (s.console.get name)

/-- What a command asks of a handle. -/
def asked? (s : Session) : Command → Option Asked
  | .ask name request =>
    match s.slot? name with
    | some ⟨_, .handle _, adopted⟩ => some ⟨.name name, adopted, request⟩
    | some ⟨_, .share entry, _⟩ => some ⟨.entry entry, none, request⟩
    | _ => none
  | .askConsole name request => some ⟨.console name, none, request⟩
  | _ => none

/-- The handles a command makes calls to. -/
def reached (s : Session) : Command → List Holder
  | .copy source sink => [.name source, .name sink]
  | command => (s.asked? command).toList.map Asked.holder

/-- The handle a command makes where it is answered, with its path and its mode. -/
def makes? (s : Session) : Command → Option (Holder × String × String)
  | .openHandle name path mode _ => some (.name name, Text.lossy path, mode)
  | .adoptHandle name _ mode label _ => some (.name name, label, mode)
  | .wrap name _ label mode _ => some (.name name, label, mode)
  | .openShared _ path mode _ | .share _ path mode _ => some (.entry s.pool.length, Text.lossy path, mode)
  | _ => none

/-- A command does not give or take away the name of a handle. Handles without a name are always kept. -/
def KeepsOver (s : Session) (holder : Holder) (command : Command) : Prop :=
  ∀ name, holder = .name name → command.renames? = some name → (s.step command).2 ≠ .answer .done

/-- A handle is kept over commands. -/
def Keeps (s : Session) (holder : Holder) : List Command → Prop
  | [] => True
  | command :: rest => s.KeepsOver holder command ∧ (s.step command).1.Keeps holder rest

/-- One of the commands closes a handle, whatever comes of that. -/
def Closes (s : Session) (holder : Holder) : List Command → Prop
  | [] => False
  | command :: rest =>
    (∃ adopted, s.asked? command = some ⟨holder, adopted, .call .close⟩) ∨ (s.step command).1.Closes holder rest

def setAt (s : Session) (holder : Holder) (h : Handle) : Session :=
  match holder with
  | .name name => s.setResource name (.handle h)
  | .entry entry => { s with pool := s.pool.set entry h }
  | .console name => { s with console := s.console.set name h }

theorem handleAt?_system (s : Session) (sys : System) (holder : Holder) :
    ({ s with system := sys } : Session).handleAt? holder = s.handleAt? holder := by
  cases holder <;> rfl

theorem handleAt?_workers (s : Session) (workers : Workers) (holder : Holder) :
    ({ s with workers } : Session).handleAt? holder = s.handleAt? holder := by
  cases holder <;> rfl

theorem handle?_setResource (hs : s.NamesDiffer) (hh : s.handle? name = some h) :
    (s.setResource name (.handle h')).handle? name = some h' := by
  obtain ⟨slot, hslot, -⟩ := handle?_eq_some.1 hh
  exact handle?_eq_some.2 ⟨_, slot?_setResource_self hs hslot, rfl⟩

theorem handleAt?_setAt (hs : s.NamesDiffer) (hh : s.handleAt? holder = some h) :
    (s.setAt holder h').handleAt? holder = some h' := by
  cases holder with
  | name name => exact handle?_setResource hs hh
  | entry entry =>
    have hlt := (List.getElem?_eq_some_iff.1 hh).1
    exact (List.getElem?_set_self hlt)
  | console name => exact congrArg some ((Console.get_set _ _ _ _).trans (if_pos rfl))

theorem handleAt?_setAt_ne (h : Handle) (hne : holder ≠ other) : (s.setAt holder h).handleAt? other = s.handleAt? other := by
  cases holder with
  | name name =>
    cases other with
    | name other => exact handle?_congr (slot?_setResource fun heq => hne (congrArg Holder.name heq))
    | _ => rfl
  | entry entry =>
    cases other with
    | entry other => exact List.getElem?_set_ne fun heq => hne (congrArg Holder.entry heq)
    | _ => rfl
  | console name =>
    cases other with
    | console other =>
      exact congrArg some ((Console.get_set _ _ _ _).trans (if_neg fun heq => hne (congrArg Holder.console heq)))
    | _ => rfl

theorem setResource_self (hs : s.NamesDiffer) (hh : s.handle? name = some h) : s.setResource name (.handle h) = s := by
  obtain ⟨slot, hslot, hresource⟩ := handle?_eq_some.1 hh
  obtain ⟨front, back, hslots, hname, hothers⟩ := slot?_parts hs hslot
  have hset := setResource_slots (r := slot.resource) hslots hname hothers
  have hsame : (s.setResource name (.handle h)).slots = s.slots := by
    rw [← hresource, hset, hslots]
  calc s.setResource name (.handle h) = { s with slots := (s.setResource name (.handle h)).slots } := rfl
    _ = s := by rw [hsame]

/-- A handle of the console that is closed was made, since one that is made when it is asked for is open. -/
theorem console_set_self {c : Console} {name : ConsoleName} (hclosed : (c.get name).stream = none) :
    c.set name (c.get name) = c := by
  obtain ⟨input, output, messages⟩ := c
  cases name with
  | input => cases input <;> first | rfl | cases hclosed
  | output => cases output <;> first | rfl | cases hclosed
  | messages => cases messages <;> first | rfl | cases hclosed

theorem setAt_entry_self {entry : Nat} (hentry : s.pool[entry]? = some h) : s.setAt (.entry entry) h = s := by
  obtain ⟨hlt, rfl⟩ := List.getElem?_eq_some_iff.1 hentry
  calc s.setAt (.entry entry) s.pool[entry] = { s with pool := s.pool.set entry s.pool[entry] } := rfl
    _ = s := by rw [List.set_getElem_self]

theorem setAt_self (hs : s.NamesDiffer) (hh : s.handleAt? holder = some h) (hclosed : h.stream = none) :
    s.setAt holder h = s := by
  cases holder with
  | name name => exact setResource_self hs hh
  | entry entry => exact setAt_entry_self hh
  | console name =>
    obtain rfl : s.console.get name = h := Option.some.inj hh
    calc s.setAt (.console name) (s.console.get name) =
          { s with console := s.console.set name (s.console.get name) } := rfl
      _ = s := by rw [console_set_self hclosed]

/-- What a request makes of the handle it is made to, and of what is around it. Only calls through a share are made
on another thread. -/
structure Answers (s : Session) (a : Asked) (h h' : Handle) (sys : System) (workers : Workers) (reply : Reply) :
    Prop where
  ages : h.Ages h'
  ofOpen : h.isClosed = false → reply.OfOpen
  close : a.request = .call .close → h' = { h with stream := none }
  closed : h.stream = none → h' = h ∧ sys = s.system ∧ reply = a.closedReply h
  caller : (∀ entry, a.holder ≠ .entry entry) → workers = s.workers

/-- What is asked of a handle where it is called is answered by it. -/
theorem answers_respond (s : Session) {a : Asked} (hcaller : ∀ entry, a.holder ≠ .entry entry) (h : Handle) :
    s.Answers a h (h.respond s.system a.adopted a.request).1 (h.respond s.system a.adopted a.request).2.1 s.workers
      (h.respond s.system a.adopted a.request).2.2 where
  ages := (h.respond_ages s.system a.adopted a.request).1
  ofOpen := (h.respond_ages s.system a.adopted a.request).2
  close hclose := by
    rw [hclose]
    exact h.close_handle s.system
  closed hclosed := by
    rw [Handle.respond_closed hclosed]
    obtain ⟨holder, adopted, request⟩ := a
    cases holder with
    | entry entry => exact absurd rfl (hcaller entry)
    | _ => exact ⟨rfl, rfl, rfl⟩
  caller _ := rfl

/-- What is asked of a handle through a share of it. -/
theorem askShared_answers {entry : Nat} (hentry : s.pool[entry]? = some h) (request : Request) :
    ∃ h' sys workers reply, s.askShared entry h request =
        (({ s with system := sys, workers } : Session).setAt (.entry entry) h', reply) ∧
      s.Answers ⟨.entry entry, none, request⟩ h h' sys workers reply := by
  have hself : s.setAt (.entry entry) h = s := setAt_entry_self hentry
  have hcaller : (∀ other, Holder.entry entry ≠ .entry other) → ∀ workers, workers = s.workers :=
    fun hne => absurd rfl (hne entry)
  obtain ⟨c, hc, rfl, heq⟩ | ⟨q, hq, rfl, heq⟩ | ⟨hrequest, heq⟩ := askShared_cases s entry h request
  · obtain ⟨hages, hopen⟩ := h.respond_ages s.worker none (.call c)
    refine ⟨_, _, _, _, heq, hages, hopen, fun hclose => ?_, fun hclosed => ?_, fun hne => hcaller hne _⟩
    · cases hclose
      exact h.close_handle s.worker
    · have hrespond : h.call s.worker c = (h, s.worker, h.closedReply none (.call c)) :=
        Handle.respond_closed hclosed none (.call c)
      rw [hrespond]
      refine ⟨rfl, rfl, ?_⟩
      cases c with
      | tell => exact absurd rfl hc
      | _ => rfl
  · refine ⟨h, s.system, s.workers, _, by rw [heq, hself], .refl h, fun _ => .answer _, nofun, fun hclosed => ?_,
      fun _ => rfl⟩
    have hrespond : h.respond s.system none (.query q) = (h, s.system, h.closedReply none (.query q)) :=
      Handle.respond_closed hclosed none (.query q)
    have hreply := congrArg (·.2.2) hrespond
    refine ⟨rfl, rfl, hreply.trans ?_⟩
    cases q with
    | description number => exact absurd rfl (hq number)
    | _ => rfl
  · refine ⟨h, s.system, s.workers, _, by rw [heq, hself], .refl h, fun _ => .senseless, fun hclose => ?_,
      fun _ => ⟨rfl, rfl, ?_⟩, fun _ => rfl⟩
    · rw [show request = .call .close from hclose] at hrequest
      cases hrequest
    · show _ = h.closedReplyShared request
      rw [Handle.closedReplyShared, hrequest]
      rfl

/-- A request to a handle changes the handle and the system. -/
theorem step_asked {command : Command} {a : Asked} (ha : s.asked? command = some a)
    (hh : s.handleAt? a.holder = some h) :
    ∃ h' sys workers reply, s.step command = (({ s with system := sys, workers } : Session).setAt a.holder h', reply) ∧
      s.Answers a h h' sys workers reply := by
  unfold asked? at ha
  split at ha
  · rename_i name request
    split at ha
    · rename_i _ g adopted hslot
      cases ha
      have hheld : s.handle? name = some g := handle?_eq_some.2 ⟨_, hslot, rfl⟩
      obtain rfl : g = h := Option.some.inj (hheld.symm.trans hh)
      refine ⟨_, _, _, _, ?_, s.answers_respond (fun _ heq => by cases heq) g⟩
      simp only [step, Session.ask, hslot]
      rfl
    · rename_i _ entry adopted hslot
      cases ha
      have hh : s.pool[entry]? = some h := hh
      simp only [step, Session.ask, hslot, hh]
      exact askShared_answers hh request
    · cases ha
  · cases ha
    cases hh
    exact ⟨_, _, _, _, rfl, s.answers_respond (fun _ heq => by cases heq) _⟩
  · cases ha

/-- What is held is still held, and has aged. -/
def Carries (s : Session) (holder : Holder) (s' : Session) : Prop :=
  ∀ h, s.handleAt? holder = some h → ∃ h', s'.handleAt? holder = some h' ∧ h.Ages h'

theorem Carries.of_eq (heq : s'.handleAt? holder = s.handleAt? holder) : s.Carries holder s' :=
  fun h hh => ⟨h, heq.trans hh, .refl h⟩

theorem Carries.trans (hc : s.Carries holder s') (hc' : s'.Carries holder s'') : s.Carries holder s'' := by
  intro h hh
  obtain ⟨h', hh', hages⟩ := hc h hh
  obtain ⟨h'', hh'', hages'⟩ := hc' h' hh'
  exact ⟨h'', hh'', hages.trans hages'⟩

/-- Only a holder that is named is touched by what changes the names. -/
theorem carries_of_name (hpool : s'.pool = s.pool) (hconsole : s'.console = s.console)
    (hname : ∀ name, holder = .name name → s.Carries (.name name) s') : s.Carries holder s' := by
  cases holder with
  | name name => exact hname name rfl
  | entry entry =>
    refine .of_eq ?_
    show s'.pool[entry]? = s.pool[entry]?
    rw [hpool]
  | console name =>
    refine .of_eq ?_
    show some (s'.console.get name) = some (s.console.get name)
    rw [hconsole]

theorem carries_setAt (hs : s.NamesDiffer) (other : Holder) (hh : s.handleAt? other = some h) (hages : h.Ages h') :
    s.Carries holder (s.setAt other h') := by
  by_cases heq : other = holder
  · subst heq
    intro g hg
    obtain rfl : h = g := Option.some.inj (hh.symm.trans hg)
    exact ⟨h', handleAt?_setAt hs hh, hages⟩
  · exact .of_eq (handleAt?_setAt_ne h' heq)

theorem carries_release (s : Session) (r : Resource) : s.Carries holder (s.release r) := by
  cases r with
  | handle g => exact .of_eq rfl
  | stream u => exact .of_eq rfl
  | share entry =>
    unfold Session.release
    dsimp only
    split
    · exact .of_eq rfl
    split
    · exact .of_eq rfl
    rename_i g hentry
    cases holder with
    | entry other =>
      intro h hh
      have hh : s.pool[other]? = some h := hh
      by_cases heq : entry = other
      · subst heq
        obtain rfl : g = h := Option.some.inj (hentry.symm.trans hh)
        exact ⟨_, List.getElem?_set_self (List.getElem?_eq_some_iff.1 hentry).1, Handle.ages_ended g⟩
      · exact ⟨h, (List.getElem?_set_ne heq).trans hh, .refl h⟩
    | _ => exact .of_eq rfl

theorem carries_forget (hname : ∀ h, s.handle? name = some h → holder ≠ .name name) : s.Carries holder (s.forget name) := by
  refine carries_of_name rfl rfl fun other heq h hh => ?_
  subst heq
  have hne : name ≠ other := fun heq => hname h (heq ▸ hh) (congrArg Holder.name heq.symm)
  exact ⟨h, (handle?_congr (slot?_forget hne)).trans hh, .refl h⟩

theorem carries_append (hname : holder ≠ .name slot.name) :
    s.Carries holder { s with slots := s.slots ++ [slot] } := by
  refine carries_of_name rfl rfl fun other heq h hh => ?_
  subst heq
  have hne : slot.name ≠ other := fun heq => hname (congrArg Holder.name heq.symm)
  have hsame : ({ s with slots := s.slots ++ [slot] } : Session).slot? other = s.slot? other := by
    rw [slot?_append, if_neg hne, Option.or_none]
  exact ⟨h, (handle?_congr hsame).trans hh, .refl h⟩

theorem carries_put (hname : holder ≠ .name slot.name) : s.Carries holder (s.put slot) := by
  cases hslot : s.slot? slot.name with
  | none =>
    rw [put_of_none hslot]
    exact carries_append hname
  | some old =>
    rw [put_of_some hslot]
    exact ((carries_forget fun _ _ => hname).trans (carries_append hname)).trans (carries_release _ _)

theorem carries_register {ε α : Type} {adopted : Option String} {wrapped : α → Resource} {refusal : ε → HandleError}
    {made : System × Except ε α}
    (hkeeps : holder = .name name → (s.register name adopted wrapped refusal made).2 ≠ .answer .done) :
    s.Carries holder (s.register name adopted wrapped refusal made).1 := by
  obtain ⟨sys, e | a⟩ := made
  · exact .of_eq rfl
  · exact carries_put (s := { s with system := sys }) fun heq => hkeeps heq rfl

theorem carries_pool (s : Session) (g : Handle) : s.Carries holder { s with pool := s.pool ++ [g] } := by
  cases holder with
  | entry entry =>
    intro h hh
    have hlt := (List.getElem?_eq_some_iff.1 hh).1
    exact ⟨h, (List.getElem?_append_left hlt).trans hh, .refl h⟩
  | _ => exact .of_eq rfl

theorem carries_registerShared {made : System × Except HandleError Handle}
    (hkeeps : holder = .name name → (s.registerShared name made).2 ≠ .answer .done) :
    s.Carries holder (s.registerShared name made).1 := by
  obtain ⟨sys, e | g⟩ := made
  · exact .of_eq rfl
  · refine (carries_pool s g).trans ?_
    exact carries_put (s := { s with system := sys, pool := s.pool ++ [g] }) fun heq => hkeeps heq rfl

/-- A bare stream that is asked for something holds no handle. -/
theorem carries_ask (hs : s.NamesDiffer) (name : String) (request : Request) :
    s.Carries holder (s.ask name request).1 := by
  unfold Session.ask
  split
  · exact .of_eq rfl
  rename_i slot hslot
  split
  · rename_i h hresource
    have hh : s.handle? name = some h := handle?_eq_some.2 ⟨slot, hslot, hresource⟩
    exact carries_setAt (s := { s with system := _ }) hs (.name name) hh (h.respond_ages _ _ _).1
  · rename_i u hresource
    have hbare : ∀ h, s.handle? name ≠ some h := by
      intro h hh
      obtain ⟨slot', hslot', hresource'⟩ := handle?_eq_some.1 hh
      cases hslot.symm.trans hslot'
      cases hresource.symm.trans hresource'
    split
    · refine carries_of_name rfl rfl fun other heq h hh => ?_
      have hne : name ≠ other := fun heq => hbare h (heq ▸ hh)
      exact ⟨h, (handle?_congr (slot?_setResource hne)).trans hh, .refl h⟩
    · exact carries_forget (s := { s with system := _ }) fun h hh => absurd hh (hbare h)
  · rename_i entry _
    split
    · exact .of_eq rfl
    · rename_i h hentry
      obtain ⟨h', sys, workers, reply, heq, hanswers⟩ := askShared_answers hentry request
      rw [heq]
      exact carries_setAt (s := { s with system := sys, workers }) hs (.entry entry) hentry hanswers.ages

theorem carries_copy (hs : s.NamesDiffer) (source sink : String) : s.Carries holder (s.copy source sink).1 := by
  unfold Session.copy
  split
  · exact .of_eq rfl
  rename_i hne
  split
  · rename_i reader writer hreader hwriter
    obtain ⟨hsource, hsink, -⟩ := Handle.copy_proper callLimit reader writer s.system
    refine Carries.trans (carries_setAt (s := { s with system := _ }) hs (.name source) hreader hsource.ages) ?_
    refine carries_setAt (NamesDiffer.setResource (s := { s with system := _ }) hs source _) (.name sink) ?_
      hsink.ages
    exact (handle?_congr (slot?_setResource hne)).trans hwriter
  · exact .of_eq rfl

theorem carries_wrap {stream label mode : String} {buffering : Option Int}
    (hkeeps : holder = .name name → (s.wrap name stream label mode buffering).2 ≠ .answer .done) :
    s.Carries holder (s.wrap name stream label mode buffering).1 := by
  unfold Session.wrap at hkeeps ⊢
  split
  · rename_i u adopted hslot
    rw [hslot] at hkeeps
    have hbare : s.handle? stream = none := by rw [handle?, hslot]
    have hforget : s.Carries holder (s.forget stream) :=
      carries_forget fun h hh => absurd (hbare.symm.trans hh) fun hnone => by cases hnone
    exact hforget.trans (carries_register hkeeps)
  · exact .of_eq rfl

theorem onDescriptor_handleAt? {α : Type} (s : Session) (descriptor : DescriptorRef) (op : String) (answer : α → Answer)
    (f : System → Nat → System × Except Errno α) (holder : Holder) :
    (s.onDescriptor descriptor op answer f).1.handleAt? holder = s.handleAt? holder := by
  have hparts : ∃ sys, (s.onDescriptor descriptor op answer f).1 = { s with system := sys } := by
    unfold onDescriptor
    split
    · exact ⟨_, rfl⟩
    · split <;> exact ⟨_, rfl⟩
  obtain ⟨sys, heq⟩ := hparts
  rw [heq, handleAt?_system]

theorem carries_drop (hkeeps : s.KeepsOver holder (.drop name)) : s.Carries holder (s.step (.drop name)).1 := by
  have hkeeps := fun heq => hkeeps name heq rfl
  simp only [Session.step] at hkeeps ⊢
  split
  · rename_i hsome
    rw [if_pos hsome] at hkeeps
    obtain ⟨slot, hslot⟩ := Option.isSome_iff_exists.1 hsome
    rw [drop_of_slot? hslot]
    exact (carries_forget fun _ _ heq => hkeeps heq rfl).trans (carries_release _ _)
  · exact .of_eq rfl

theorem carries_step (hs : s.NamesDiffer) {command : Command} (hkeeps : s.KeepsOver holder command) :
    s.Carries holder (s.step command).1 := by
  cases command with
  | openHandle name path mode buffering => exact carries_register fun heq => hkeeps name heq rfl
  | adoptHandle name descriptor mode label buffering =>
    have hkeeps := fun heq => hkeeps name heq rfl
    simp only [Session.step] at hkeeps ⊢
    split
    · exact .of_eq rfl
    · rename_i n hn
      rw [hn] at hkeeps
      exact carries_register hkeeps
  | openStream name path mode => exact carries_register fun heq => hkeeps name heq rfl
  | adoptStream name descriptor mode =>
    have hkeeps := fun heq => hkeeps name heq rfl
    simp only [Session.step] at hkeeps ⊢
    split
    · exact .of_eq rfl
    · rename_i n hn
      rw [hn] at hkeeps
      exact carries_register hkeeps
  | wrap name stream label mode buffering => exact carries_wrap fun heq => hkeeps name heq rfl
  | openShared name path mode buffering =>
    have hcalled : s.Carries holder (s.offload (Handle.openPath · path mode buffering)).1 :=
      .of_eq (by cases holder <;> rfl)
    exact hcalled.trans (carries_registerShared fun heq => hkeeps name heq rfl)
  | share name path mode buffering => exact carries_registerShared fun heq => hkeeps name heq rfl
  | clone name source =>
    have hkeeps := fun heq => hkeeps name heq rfl
    simp only [Session.step] at hkeeps ⊢
    split
    · rename_i hslot
      rw [hslot] at hkeeps
      exact carries_put fun heq => hkeeps heq rfl
    · exact .of_eq rfl
  | ask name request => exact carries_ask hs name request
  | askConsole name request =>
    exact carries_setAt (s := { s with system := _ }) hs (.console name) rfl
      ((s.console.get name).respond_ages _ _ _).1
  | prepareConsole =>
    cases holder with
    | console name => exact .of_eq (congrArg some (Console.get_prepare s.console name))
    | _ => exact .of_eq rfl
  | copy source sink => exact carries_copy hs source sink
  | drop name => exact carries_drop hkeeps
  | openDescriptor name path reads writes =>
    simp only [Session.step]
    split
    · exact .of_eq (handleAt?_system s _ holder)
    · exact .of_eq (by cases holder <;> rfl)
  | makePipe reader writer => exact .of_eq (by cases holder <;> rfl)
  | writeDescriptor descriptor bytes => exact .of_eq (onDescriptor_handleAt? ..)
  | closeDescriptor descriptor => exact .of_eq (onDescriptor_handleAt? ..)
  | isOpen descriptor =>
    simp only [Session.step]
    split <;> exact .of_eq rfl
  | peek path => exact .of_eq (handleAt?_system s _ holder)
  | peekConsole name => exact .of_eq rfl
  | count => exact .of_eq rfl

end Session

end BufferedFiles
