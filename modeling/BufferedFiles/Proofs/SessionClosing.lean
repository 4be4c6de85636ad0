import BufferedFiles.Proofs.SessionHandles

/-!
# Closing is for good

In every session a program can reach, a handle that was closed, whatever closing it returned, or that was
closed from the start, is closed from then on and does nothing. That a handle is closed is said of no other:
the number of a bad descriptor that comes from the system is a failure of the stream.
-/
namespace BufferedFiles

theorem Connection.keep_ofOpen {α : Type} (f : α → Answer) (r : Connection × Except StreamError α) :
    (Connection.keep f r).2.2.OfOpen := by
  obtain ⟨c, e | a⟩ := r
  · exact .refused e
  · exact .answer (f a)

/-- A bare stream knows no closed handle. -/
theorem Connection.respond_ofOpen (c : Connection) (adopted : Option String) (request : Request) :
    (c.respond adopted request).2.2.OfOpen := by
  cases request with
  | call call =>
    cases call with
    | read max =>
      cases max with
      | none => exact .senseless
      | some n => exact keep_ofOpen _ _
    | readLine max =>
      cases max with
      | none => exact .senseless
      | some n => exact keep_ofOpen _ _
    | close =>
      simp only [Connection.respond, Connection.call]
      cases c.close.2 with
      | ok _ => exact .answer _
      | error e => exact .refused e
    | _ => exact keep_ofOpen _ _
  | query q =>
    cases q with
    | descriptor => exact .answer _
    | description number => exact .answer _
    | _ => exact .senseless
  | transfer t => exact .senseless
  | fillBuffer buffer => exact keep_ofOpen _ _
  | setDiscipline discipline => exact keep_ofOpen _ _

/-- A copy to a closed handle counts nothing: the first write fails, if a read got anything to write. -/
theorem Handle.copy_to_closed {sink : Handle} (hclosed : sink.stream = none) {n : Nat} (calls : Nat) (source : Handle)
    (sys : System) (h : (copy calls source sink sys).2.2.2 = .ok n) : n = 0 := by
  induction calls generalizing source sys with
  | zero => exact (Except.ok.inj h).symm
  | succ calls ih =>
    simp only [copy] at h
    split at h
    · split at h
      · exact ih _ _ h
      · cases h
    · exact (Except.ok.inj h).symm
    · rename_i bytes hne _
      rw [callLimit_eq, writeAll_closed hclosed, if_neg fun hempty => hne (List.isEmpty_iff.1 hempty)] at h
      cases h

namespace Session

variable {s : Session} {holder : Holder} {name path mode : String} {h : Handle} {command : Command}

/-- A handle of the session is closed: what is asked of it gets the reply of a closed handle, and changes
nothing in the session, except for which thread the next call through a share is made on. -/
structure Shut (s : Session) (holder : Holder) (h : Handle) : Prop where
  held : s.handleAt? holder = some h
  closed : h.isClosed = true
  descriptor : h.descriptor = -1
  asked : ∀ command a, s.asked? command = some a → a.holder = holder →
    ∃ workers, s.step command = ({ s with workers }, a.closedReply h) ∧
      ((∀ entry, holder ≠ .entry entry) → workers = s.workers)
  source : ∀ name sink other, holder = .name name → name ≠ sink → s.handle? sink = some other →
    s.step (.copy name sink) = (s, .failed (.ofHandleError .closed))
  sink : ∀ name source n, holder = .name name → (s.step (.copy source name)).2 = .answer (.count n) → n = 0

theorem copy_from_closed {source sink : String} {reader writer : Handle} (hs : s.NamesDiffer)
    (hreader : s.handle? source = some reader) (hclosed : reader.stream = none) (hne : source ≠ sink)
    (hwriter : s.handle? sink = some writer) :
    s.step (.copy source sink) = (s, .failed (.ofHandleError .closed)) := by
  have hcopy : reader.copy callLimit writer s.system = (reader, writer, s.system, .error (.ofHandleError .closed)) := by
    rw [Handle.callLimit_eq]
    exact Handle.copy_closed hclosed _ writer
  simp only [step, Session.copy, if_neg hne, hreader, hwriter, hcopy, setResource_self hs hreader,
    setResource_self hs hwriter]
  rfl

theorem copy_into_closed {source sink : String} {writer : Handle} {n : Nat} (hwriter : s.handle? sink = some writer)
    (hclosed : writer.stream = none) (hreply : (s.step (.copy source sink)).2 = .answer (.count n)) : n = 0 := by
  simp only [step, Session.copy, hwriter] at hreply
  split at hreply
  · cases hreply
  split at hreply
  · rename_i reader _ _ heq
    cases heq
    cases hresult : (reader.copy callLimit writer s.system).2.2.2 with
    | ok m =>
      simp only [hresult] at hreply
      cases hreply
      exact Handle.copy_to_closed hclosed _ _ _ hresult
    | error e =>
      simp only [hresult] at hreply
      cases hreply
  · cases hreply

theorem shut (hs : s.NamesDiffer) (hh : s.handleAt? holder = some h) (hclosed : h.stream = none) : s.Shut holder h where
  held := hh
  closed := by rw [Handle.isClosed, hclosed, Option.isNone_none]
  descriptor := by rw [Handle.descriptor, hclosed]
  asked := by
    intro command a ha hholder
    subst hholder
    obtain ⟨h', sys, workers, reply, hstep, hanswers⟩ := step_asked ha hh
    obtain ⟨rfl, rfl, rfl⟩ := hanswers.closed hclosed
    refine ⟨workers, ?_, hanswers.caller⟩
    have hheld : ({ s with workers } : Session).handleAt? a.holder = some h' := (handleAt?_workers s workers _).trans hh
    rw [hstep]
    exact congrArg (·, a.closedReply h') (setAt_self (s := { s with workers }) hs hheld hclosed)
  source := by
    intro name sink other hname hne hother
    subst hname
    exact copy_from_closed hs hh hclosed hne hother
  sink := by
    intro name source n hname hreply
    subst hname
    exact copy_into_closed hh hclosed hreply

theorem run_carries (hs : s.NamesDiffer) (later : List Command) (hkeeps : s.Keeps holder later) :
    s.Carries holder (s.run later).1 := by
  induction later generalizing s with
  | nil => exact .of_eq rfl
  | cons command rest ih => exact (carries_step hs hkeeps.1).trans (ih (hs.step command) hkeeps.2)

theorem step_closes (hs : s.NamesDiffer) {adopted : Option String} (hh : s.handleAt? holder = some h)
    (hclose : s.asked? command = some ⟨holder, adopted, .call .close⟩) :
    (s.step command).1.handleAt? holder = some { h with stream := none } := by
  obtain ⟨h', sys, workers, reply, hstep, hanswers⟩ := step_asked hclose hh
  rw [hstep, hanswers.close rfl]
  have hheld : ({ s with system := sys, workers } : Session).handleAt? holder = some h :=
    (handleAt?_workers { s with system := sys } workers holder).trans ((handleAt?_system s sys holder).trans hh)
  exact handleAt?_setAt hs hheld

/-- Once it was closed in the course of a run it is closed at the end. -/
theorem run_closes (hs : s.NamesDiffer) (hh : s.handleAt? holder = some h) (later : List Command)
    (hkeeps : s.Keeps holder later) (hcloses : s.Closes holder later) :
    (s.run later).1.handleAt? holder = some { h with stream := none } := by
  induction later generalizing s h with
  | nil => exact hcloses.elim
  | cons command rest ih =>
    rcases hcloses with ⟨adopted, hclose⟩ | hcloses
    · have hclosed := step_closes hs hh hclose
      obtain ⟨h', hh', hages⟩ := run_carries (hs.step command) rest hkeeps.2 _ hclosed
      have hstream : h'.stream = none := Option.isNone_iff_eq_none.1 (hages.closed rfl)
      refine hh'.trans (congrArg some ?_)
      obtain ⟨path', mode', stream'⟩ := h'
      obtain ⟨rfl, rfl, -⟩ := hages
      cases hstream
      rfl
    · obtain ⟨h₁, hh₁, hages⟩ := carries_step hs hkeeps.1 h hh
      have hlast := ih (hs.step command) hh₁ hkeeps.2 hcloses
      rw [hages.path, hages.mode] at hlast
      exact hlast

theorem register_made {made : System × Except HandleError Handle} {adopted : Option String}
    (hmade : Handle.MadeAs path mode made) (hdone : (s.register name adopted .handle id made).2 = .answer .done) :
    ∃ u, (s.register name adopted .handle id made).1.handle? name = some ⟨path, mode, some u⟩ := by
  obtain ⟨sys, e | g⟩ := made
  · cases hdone
  · obtain ⟨u, rfl⟩ := hmade.1 g rfl
    exact ⟨u, handle?_eq_some.2 ⟨_, slot?_put_self { s with system := sys } ⟨name, .handle _, adopted⟩, rfl⟩⟩

/-- Letting go of something leaves what is shared. -/
theorem pool_release {entry : Nat} (hshared : s.isShared entry = true) (r : Resource) :
    (s.release r).pool[entry]? = s.pool[entry]? := by
  cases r with
  | share other =>
    simp only [Session.release]
    split
    · rfl
    · rename_i hunshared
      split
      · rfl
      · exact List.getElem?_set_ne fun heq => hunshared (by rw [heq, hshared])
  | _ => rfl

theorem pool_put (s : Session) (name : String) (entry : Nat) (adopted : Option String) :
    (s.put ⟨name, .share entry, adopted⟩).pool[entry]? = s.pool[entry]? := by
  cases hslot : s.slot? name with
  | none => rw [put_of_none hslot]
  | some old =>
    rw [put_of_some hslot, pool_release]
    simp only [isShared, List.any_append, List.any_cons, beq_self_eq_true, Bool.true_or, Bool.or_true]

theorem registerShared_made {made : System × Except HandleError Handle} (hmade : Handle.MadeAs path mode made)
    (hdone : (s.registerShared name made).2 = .answer .done) :
    ∃ u, (s.registerShared name made).1.pool[s.pool.length]? = some ⟨path, mode, some u⟩ := by
  obtain ⟨sys, e | g⟩ := made
  · cases hdone
  obtain ⟨u, rfl⟩ := hmade.1 g rfl
  refine ⟨u, ?_⟩
  have hlast : (s.pool ++ [(⟨path, mode, some u⟩ : Handle)])[s.pool.length]? = some ⟨path, mode, some u⟩ := by
    rw [List.getElem?_append_right (Nat.le_refl _), Nat.sub_self, List.getElem?_cons_zero]
  show (Session.put { s with system := sys, pool := s.pool ++ [⟨path, mode, some u⟩] }
    ⟨name, .share s.pool.length, none⟩).pool[s.pool.length]? = _
  rw [pool_put, hlast]

theorem step_makes (hmakes : s.makes? command = some (holder, path, mode))
    (hdone : (s.step command).2 = .answer .done) :
    ∃ u, (s.step command).1.handleAt? holder = some ⟨path, mode, some u⟩ := by
  cases command with
  | openHandle name path mode buffering =>
    cases hmakes
    exact register_made (Handle.openPath_madeAs _ _ _ _) hdone
  | adoptHandle name descriptor mode label buffering =>
    cases hmakes
    simp only [step] at hdone ⊢
    split at hdone
    · cases hdone
    · exact register_made (Handle.adopt_madeAs _ _ _ _ _) hdone
  | wrap name stream label mode buffering =>
    cases hmakes
    simp only [step, Session.wrap] at hdone ⊢
    split at hdone
    · exact register_made (Handle.ofStream_madeAs _ _ _ _ _) hdone
    · cases hdone
  | openShared name path mode buffering =>
    cases hmakes
    exact registerShared_made (s := (s.offload (Handle.openPath · path mode buffering)).1)
      (Handle.openPath_madeAs s.worker path mode buffering) hdone
  | share name path mode buffering =>
    cases hmakes
    exact registerShared_made (Handle.openPath_madeAs _ _ _ _) hdone
  | _ => cases hmakes

theorem step_ofOpen {a : Asked} (ha : s.asked? command = some a) (hh : s.handleAt? a.holder = some h)
    (hopen : h.isClosed = false) : (s.step command).2.OfOpen := by
  obtain ⟨h', sys, workers, reply, hstep, hanswers⟩ := step_asked ha hh
  rw [hstep]
  exact hanswers.ofOpen hopen

theorem register_not_saysClosed {ε α : Type} {adopted : Option String} {wrapped : α → Resource}
    {refusal : ε → HandleError} {made : System × Except ε α} (hmade : ∀ e, made.2 = .error e → refusal e ≠ .closed) :
    ¬ (s.register name adopted wrapped refusal made).2.SaysClosed := by
  obtain ⟨sys, e | a⟩ := made
  · rintro (heq | heq)
    · exact hmade e rfl (Reply.refused.inj heq)
    · cases heq
  · rintro (heq | heq) <;> cases heq

theorem not_closed_of_madeAs {made : System × Except HandleError Handle} (hmade : Handle.MadeAs path mode made)
    (e : HandleError) (he : made.2 = .error e) : id e ≠ .closed :=
  fun heq => hmade.2 (he.trans (congrArg Except.error heq))

theorem registerShared_not_saysClosed {made : System × Except HandleError Handle}
    (hmade : Handle.MadeAs path mode made) : ¬ (s.registerShared name made).2.SaysClosed := by
  obtain ⟨sys, e | g⟩ := made
  · rintro (heq | heq)
    · exact hmade.2 (congrArg Except.error (Reply.refused.inj heq))
    · cases heq
  · exact (Reply.OfOpen.answer _).not_saysClosed

theorem onDescriptor_ofOpen {α : Type} (s : Session) (descriptor : DescriptorRef) (op : String) (answer : α → Answer)
    (f : System → Nat → System × Except Errno α) : (s.onDescriptor descriptor op answer f).2.OfOpen := by
  simp only [onDescriptor]
  split
  · exact .senseless
  split
  · exact .refused _
  · cases (f s.system _).2 with
    | ok a => exact .answer _
    | error e => exact .refused _

/-- A reply to a request says that a handle is closed only of the one the request is made to. -/
theorem ask_reached {request : Request} (hclosed : (s.ask name request).2.SaysClosed) :
    ∃ a h, s.asked? (.ask name request) = some a ∧ s.handleAt? a.holder = some h ∧ h.isClosed = true := by
  by_contra hnone
  refine Reply.OfOpen.not_saysClosed ?_ hclosed
  unfold Session.ask
  split
  · exact .senseless
  rename_i slot hslot
  obtain ⟨_, resource, adopted⟩ := slot
  have hopen : ∀ (a : Asked) (h : Handle), s.asked? (.ask name request) = some a → s.handleAt? a.holder = some h →
      h.isClosed = false := by
    intro a h ha hh
    by_contra hisClosed
    exact hnone ⟨a, h, ha, hh, by simpa using hisClosed⟩
  simp only [asked?, hslot] at hopen
  cases resource with
  | handle h =>
    have hh : s.handle? name = some h := handle?_eq_some.2 ⟨_, hslot, rfl⟩
    exact (h.respond_ages s.system adopted request).2 (hopen _ h rfl hh)
  | stream u =>
    have hreply := Connection.respond_ofOpen ⟨u, s.system⟩ adopted request
    dsimp only
    split <;> rename_i heq <;> rw [heq] at hreply <;> exact hreply
  | share entry =>
    dsimp only
    split
    · exact .senseless
    · rename_i h hentry
      obtain ⟨h', sys, workers, reply, heq, hanswers⟩ := askShared_answers hentry request
      rw [heq]
      exact hanswers.ofOpen (hopen _ h rfl hentry)

theorem copy_reached {source sink : String} (hclosed : (s.copy source sink).2.SaysClosed) :
    ∃ holder ∈ s.reached (.copy source sink), ∃ h, s.handleAt? holder = some h ∧ h.isClosed = true := by
  simp only [Session.copy] at hclosed
  split at hclosed
  · exact absurd hclosed Reply.OfOpen.senseless.not_saysClosed
  split at hclosed
  · rename_i reader writer hreader hwriter
    obtain ⟨-, -, hfails⟩ := Handle.copy_proper callLimit reader writer s.system
    by_cases hread : reader.isClosed = true
    · exact ⟨.name source, List.mem_cons_self, reader, hreader, hread⟩
    by_cases hwrite : writer.isClosed = true
    · exact ⟨.name sink, List.mem_cons_of_mem _ (List.mem_singleton_self _), writer, hwriter, hwrite⟩
    refine absurd hclosed (Reply.OfOpen.not_saysClosed ?_)
    cases hresult : (reader.copy callLimit writer s.system).2.2.2 with
    | ok n => exact .answer _
    | error e => exact .failed (hfails (by simpa using hread) (by simpa using hwrite) e hresult)
  · exact absurd hclosed Reply.OfOpen.senseless.not_saysClosed

theorem step_reached (hclosed : (s.step command).2.SaysClosed) :
    ∃ holder ∈ s.reached command, ∃ h, s.handleAt? holder = some h ∧ h.isClosed = true := by
  have habsurd : ∀ {reply : Reply}, (s.step command).2 = reply → reply.OfOpen →
      ∃ holder ∈ s.reached command, ∃ h, s.handleAt? holder = some h ∧ h.isClosed = true :=
    fun heq hopen => absurd (heq ▸ hclosed) hopen.not_saysClosed
  cases command with
  | openHandle name path mode buffering =>
    exact absurd hclosed (register_not_saysClosed (not_closed_of_madeAs (Handle.openPath_madeAs _ _ _ _)))
  | adoptHandle name descriptor mode label buffering =>
    simp only [step] at hclosed
    split at hclosed
    · exact absurd hclosed Reply.OfOpen.senseless.not_saysClosed
    · exact absurd hclosed (register_not_saysClosed (not_closed_of_madeAs (Handle.adopt_madeAs _ _ _ _ _)))
  | openStream name path mode => exact absurd hclosed (register_not_saysClosed fun _ _ h => by cases h)
  | adoptStream name descriptor mode =>
    simp only [step] at hclosed
    split at hclosed
    · exact absurd hclosed Reply.OfOpen.senseless.not_saysClosed
    · exact absurd hclosed (register_not_saysClosed fun _ _ h => by cases h)
  | wrap name stream label mode buffering =>
    simp only [step, Session.wrap] at hclosed
    split at hclosed
    · exact absurd hclosed (register_not_saysClosed (not_closed_of_madeAs (Handle.ofStream_madeAs _ _ _ _ _)))
    · exact absurd hclosed Reply.OfOpen.senseless.not_saysClosed
  | openShared name path mode buffering =>
    exact absurd hclosed (registerShared_not_saysClosed (Handle.openPath_madeAs s.worker path mode buffering))
  | share name path mode buffering =>
    exact absurd hclosed (registerShared_not_saysClosed (Handle.openPath_madeAs _ _ _ _))
  | clone name source =>
    simp only [step] at hclosed
    split at hclosed
    · exact absurd hclosed (Reply.OfOpen.answer _).not_saysClosed
    · exact absurd hclosed Reply.OfOpen.senseless.not_saysClosed
  | ask name request =>
    obtain ⟨a, h, ha, hh, hisClosed⟩ := ask_reached hclosed
    refine ⟨a.holder, ?_, h, hh, hisClosed⟩
    simp only [reached, ha, Option.toList_some, List.map_cons, List.map_nil, List.mem_singleton]
  | askConsole name request =>
    refine ⟨.console name, List.mem_singleton_self _, s.console.get name, rfl, ?_⟩
    by_contra hopen
    exact ((s.console.get name).respond_ages s.system none request).2 (by simpa using hopen)
      |>.not_saysClosed hclosed
  | copy source sink => exact copy_reached hclosed
  | drop name =>
    simp only [step] at hclosed
    split at hclosed
    · exact absurd hclosed (Reply.OfOpen.answer _).not_saysClosed
    · exact absurd hclosed Reply.OfOpen.senseless.not_saysClosed
  | openDescriptor name path reads writes =>
    simp only [step] at hclosed
    split at hclosed
    · exact absurd hclosed (Reply.OfOpen.refused _).not_saysClosed
    · exact absurd hclosed (Reply.OfOpen.answer _).not_saysClosed
  | writeDescriptor descriptor bytes => exact absurd hclosed (onDescriptor_ofOpen ..).not_saysClosed
  | closeDescriptor descriptor => exact absurd hclosed (onDescriptor_ofOpen ..).not_saysClosed
  | isOpen descriptor =>
    simp only [step] at hclosed
    split at hclosed
    · exact absurd hclosed Reply.OfOpen.senseless.not_saysClosed
    · exact absurd hclosed (Reply.OfOpen.answer _).not_saysClosed
  | _ => exact absurd hclosed (Reply.OfOpen.answer _).not_saysClosed

/-- Whatever a program did so far: a handle has the path and the mode it is made with, as long as it is kept;
once it was closed, or if it was closed from the start, it is closed and does nothing; an open one is never
refused for being closed; and that a handle is closed is said only where a call is made to one that is. -/
theorem closed_for_good (sys : System) (console : Console) (workers : Workers) (commands : List Command) :
    let s := (({ system := sys, console, workers } : Session).run commands).1
    (∀ command holder path mode, s.makes? command = some (holder, path, mode) → (s.step command).2 = .answer .done →
      ∃ u, (s.step command).1.handleAt? holder = some ⟨path, mode, some u⟩) ∧
    (∀ holder h later, s.handleAt? holder = some h → s.Keeps holder later →
      (∃ u, (s.run later).1.handleAt? holder = some { h with stream := u }) ∧
        (h.isClosed = true ∨ s.Closes holder later → (s.run later).1.Shut holder { h with stream := none })) ∧
    (∀ command a h, s.asked? command = some a → s.handleAt? a.holder = some h → h.isClosed = false →
      (s.step command).2.OfOpen ∧ ¬ (s.step command).2.SaysClosed) ∧
    ∀ command, (s.step command).2.SaysClosed →
      ∃ holder ∈ s.reached command, ∃ h, s.handleAt? holder = some h ∧ h.isClosed = true := by
  intro s
  have hs : s.NamesDiffer := NamesDiffer.run (s := { system := sys, console, workers }) List.nodup_nil commands
  refine ⟨fun _ _ _ _ => step_makes, fun holder h later hh hkeeps => ?_, fun command a h ha hh hopen => ?_,
    fun _ => step_reached⟩
  · obtain ⟨⟨path, mode, u⟩, hh', hages⟩ := run_carries hs later hkeeps h hh
    obtain ⟨rfl, rfl, hclosed⟩ := hages
    refine ⟨⟨u, hh'⟩, fun hcase => shut (hs.run later) ?_ rfl⟩
    rcases hcase with hisClosed | hcloses
    · cases Option.isNone_iff_eq_none.1 (hclosed hisClosed)
      exact hh'
    · exact run_closes hs hh later hkeeps hcloses
  · have hreply := step_ofOpen ha hh hopen
    exact ⟨hreply, hreply.not_saysClosed⟩

/-- A handle that is closed and asked again, after a handle of its name could not be opened. -/
def closingUse : List Command :=
  [.ask "h" (.call .close), .openHandle "h" (toBytes "missing") "r" none, .ask "h" (.call (.write [])),
    .ask "h" (.query .mode)]

theorem closed_for_good_of_closingUse :
    let s := (withFile.run [.openHandle "h" (toBytes "f") "r" none]).1
    (s.run closingUse).2 = [.answer .done, .refused (.stream (.ofErrno "fopen" .notFound)), .refused .closed,
      .answer (.text "r")] ∧
    ∃ h, s.handleAt? (.name "h") = some h ∧ h.isClosed = false ∧ s.Keeps (.name "h") closingUse ∧
      s.Closes (.name "h") closingUse ∧ (s.run closingUse).1.Shut (.name "h") { h with stream := none } := by
  intro s
  obtain ⟨-, hheld, -, -⟩ := closed_for_good withFile.system {} {} [.openHandle "h" (toBytes "f") "r" none]
  have hcloses : s.Closes (.name "h") closingUse := .inl ⟨none, rfl⟩
  have hkeeps : s.Keeps (.name "h") closingUse := by
    have hrefused : ((s.run (closingUse.take 1)).1.step (.openHandle "h" (toBytes "missing") "r" none)).2 =
        .refused (.stream (.ofErrno "fopen" .notFound)) := rfl
    refine ⟨nofun, fun _ _ _ => ?_, nofun, nofun, trivial⟩
    exact fun hdone => Reply.noConfusion (hrefused.symm.trans hdone)
  exact ⟨rfl, _, rfl, rfl, hkeeps, hcloses, (hheld _ _ closingUse rfl hkeeps).2 (.inr hcloses)⟩

end Session

end BufferedFiles
