import BufferedFiles.Proofs.ClosedHandles
import BufferedFiles.Proofs.SessionBooks

/-!
# Runs of sessions

Every command keeps a session in order, as long as it leaves the descriptors of streams to them: it adopts
none of them, and closes none of them behind the back of its stream.
-/
namespace BufferedFiles

namespace Session

variable {fair : Prop} {s s' : Session} {loose taken : List Resource} {slot : Slot} {name : String} {r r' : Resource}
  {sys' : System}

/-- A stream of the session or of the console is on the descriptor. -/
def Owns (s : Session) (fd : Nat) : Prop := ∃ t ∈ s.live ++ s.console.live, t.fd = fd

/-- A command makes no stream of a descriptor that another is on, and does not close one. -/
def Respects (s : Session) : Command → Prop
  | .adoptHandle _ descriptor mode _ _ | .adoptStream _ descriptor mode => ∀ n, s.number? descriptor = some n →
    ∀ sys u, s.system.adoptStream n (toBytes mode) = (sys, .ok u) → ¬ s.Owns u.fd
  | .closeDescriptor descriptor => ∀ fd : Nat, s.number? descriptor = some (fd : Int) → ¬ s.Owns fd
  | _ => True

theorem owns_of_token {t : Token} (h : t ∈ (s.books []).tokens) : s.Owns t.fd := by
  have h : t ∈ Stream.tokens (s.live ++ s.console.live) := by
    rw [Stream.tokens_append]
    exact h
  obtain ⟨u, hu, rfl⟩ := List.mem_map.1 (Multiset.mem_coe.1 h)
  exact ⟨u, hu, rfl⟩

/-- Something is made of what is taken; where that fails, the taken is gone all the same. -/
def Makes {ε α : Type} (fair : Prop) (s : Session) (taken : List Resource) (wrapped : α → Resource) :
    System × Except ε α → Prop
  | (sys, .error _) => s.Goes fair taken { s with system := sys } []
  | (sys, .ok a) => s.Goes fair taken { s with system := sys } [wrapped a]

theorem makes_openStream (s : Session) (path mode : Bytes) :
    s.Makes fair [] .stream (s.system.openStream path mode) := by
  rcases hmade : s.system.openStream path mode with ⟨sys, e | u⟩
  · exact .of_retains (System.openStream_sameStreams hmade).retains
  · obtain ⟨htoken, hfree, hbegins⟩ := System.openStream_begins hmade
    refine .makes htoken (fun hfair hsound t ht heq => ?_) hbegins
    obtain ⟨d, hd⟩ := hsound.live hfair t ht
    have hd : s.system.descriptor? t.fd = some d := hd
    rw [heq, hfree] at hd
    cases hd

theorem makes_adoptStream {n : Int} {mode : Bytes}
    (h : fair → ∀ sys u, s.system.adoptStream n mode = (sys, .ok u) → ¬ s.Owns u.fd) :
    s.Makes fair [] .stream (s.system.adoptStream n mode) := by
  rcases hmade : s.system.adoptStream n mode with ⟨sys, e | u⟩
  · obtain ⟨errno, rfl⟩ := System.adoptStream_error hmade
    exact .of_retains (.blamed _ errno)
  · obtain ⟨htoken, -, hbegins⟩ := System.adoptStream_begins hmade
    exact .makes htoken (fun hfair _ t ht heq => h hfair sys u hmade (heq ▸ owns_of_token ht)) hbegins

theorem makes_ofStream (fair : Prop) (s : Session) (label mode : String) (u : Stream) (buffering : Option Int) :
    s.Makes fair [.stream u] .handle (Handle.ofStream label mode u buffering s.system) := by
  rcases Handle.ofStream_turns label mode u buffering s.system with ⟨sys, h, hmade, hturns⟩ | ⟨sys, e, hmade, hturns⟩
  · rw [hmade]
    exact .turns [.handle h] hturns rfl (List.append_nil _) nofun
  · rw [hmade]
    exact .turns [] hturns rfl rfl nofun

/-- A handle is made of a stream that is made. -/
theorem Makes.handle {made : System × Except StreamError Stream} (h : s.Makes fair [] .stream made)
    (label mode : String) (buffering : Option Int) :
    s.Makes fair [] .handle (match made with
      | (sys, .error e) => (sys, .error (.stream e))
      | (sys, .ok stream) => Handle.ofStream label mode stream buffering sys) := by
  obtain ⟨sys, e | u⟩ := made
  · exact h
  · have hnext := makes_ofStream fair { s with system := sys } label mode u buffering
    dsimp only at hnext ⊢
    rcases hmade : Handle.ofStream label mode u buffering sys with ⟨sys', e | handle⟩ <;> rw [hmade] at hnext
    · exact Goes.trans h hnext
    · exact Goes.trans h hnext

theorem makes_openPath (s : Session) (path : Bytes) (mode : String) (buffering : Option Int) :
    s.Makes fair [] .handle (Handle.openPath s.system path mode buffering) :=
  (makes_openStream s path (toBytes mode)).handle (Text.lossy path) mode buffering

theorem makes_adopt {n : Int} {mode : String} (label : String) (buffering : Option Int)
    (h : fair → ∀ sys u, s.system.adoptStream n (toBytes mode) = (sys, .ok u) → ¬ s.Owns u.fd) :
    s.Makes fair [] .handle (Handle.adopt s.system n mode label buffering) :=
  (makes_adoptStream h).handle label mode buffering

/-- What is made gets its name. -/
theorem Makes.register {ε α : Type} {made : System × Except ε α} {wrapped : α → Resource}
    (h : s.Makes fair taken wrapped made) (name : String) (adopted : Option String) (refusal : ε → HandleError) :
    s.Goes fair taken (s.register name adopted wrapped refusal made).1 [] := by
  obtain ⟨sys, e | a⟩ := made
  · exact h
  · exact Goes.trans h (.put { s with system := sys } ⟨name, wrapped a, adopted⟩ [])

theorem Goes.workers (w : Workers) : s.Goes fair loose { s with workers := w } loose :=
  .of_perm rfl rfl (.refl _) id fun hs => hs.shared

/-- What is made on another thread is made. -/
theorem Makes.offload (s : Session) (make : System → System × Except HandleError Handle)
    (h : Makes fair { s with system := s.worker } [] .handle (make s.worker)) :
    Makes fair { s with workers := (s.offload make).1.workers } [] .handle
      ((s.offload make).1.system, (s.offload make).2) := by
  have hcalled : s.Goes fair [] { s with system := s.worker } [] := .of_retains (.blamed s.system _)
  unfold Session.offload
  rcases hmade : make s.worker with ⟨sys, made⟩
  rw [hmade] at h
  have hback : ∀ loose, Goes fair { s with system := sys } loose
      { s with system := { sys with lastError := s.system.lastError } } loose := fun _ => .of_retains (.blamed sys _)
  have hnext : ∀ loose, s.Goes fair [] { s with system := sys } loose →
      Goes fair { s with workers := s.workers.advance sys.lastError } []
        { s with system := { sys with lastError := s.system.lastError }
                 workers := s.workers.advance sys.lastError } loose := fun loose hgoes =>
    (Goes.workers s.workers).trans ((hgoes.trans (hback loose)).trans (.workers _))
  cases made with
  | error e => exact hnext _ (hcalled.trans h)
  | ok a => exact hnext _ (hcalled.trans h)

theorem Makes.registerShared {made : System × Except HandleError Handle} (h : s.Makes fair [] .handle made)
    (name : String) : s.Goes fair [] (s.registerShared name made).1 [] := by
  obtain ⟨sys, e | handle⟩ := made
  · exact h
  · refine Goes.trans h (Goes.trans (.pool handle) ?_)
    exact .put { s with system := sys, pool := s.pool ++ [handle] } ⟨name, .share s.pool.length, none⟩ []

/-- What a name stands for is asked for something, and the name stands for what it becomes. -/
theorem Goes.renew {u u' : Option Stream} (r' : Resource) (hslot : s.slot? name = some slot)
    (h : Stream.Turns u s.system u' sys') (hr : slot.resource.streams = u.toList) (hr' : r'.streams = u'.toList)
    (hshare : ∀ entry, slot.resource ≠ .share entry) :
    s.Goes fair [] ({ s with system := sys' }.setResource name r') [] := by
  intro hs
  have hafter : r'.streams ++ [] = u'.toList := (List.append_nil _).trans hr'
  have hforgotten : s.Goes fair [] { s.forget name with system := sys' } [r'] :=
    (Goes.forget hslot).trans (.turns [r'] h hr hafter hshare)
  have hnamed :
      ({ s with system := sys' }.forget name).Goes fair [r'] ({ s with system := sys' }.setResource name r') [] :=
    .setResource hs.names hslot
  exact (hforgotten.trans hnamed) hs

theorem isShared_of_slot {entry : Nat} (hslot : s.slot? name = some slot) (h : slot.resource = .share entry) :
    s.isShared entry = true := by
  rw [isShared, List.any_eq_true]
  exact ⟨slot, List.mem_of_find?_eq_some hslot, by rw [h, beq_self_eq_true]⟩

/-- What a share of a handle makes of a request: a call on another thread, or an answer at once. -/
theorem askShared_cases (s : Session) (entry : Nat) (h : Handle) (request : Request) :
    (∃ c, c ≠ .tell ∧ request = .call c ∧ s.askShared entry h request =
      ({ s with system := { (h.call s.worker c).2.1 with lastError := s.system.lastError }
                workers := s.workers.advance (h.call s.worker c).2.1.lastError
                pool := s.pool.set entry (h.call s.worker c).1 }, (h.call s.worker c).2.2)) ∨
    (∃ q, (∀ number, q ≠ .description number) ∧ request = .query q ∧
      s.askShared entry h request = (s, .answer (h.query none q))) ∨
    request.shared = false ∧ s.askShared entry h request = (s, .senseless) := by
  cases request with
  | call c =>
    cases c with
    | tell => exact .inr (.inr ⟨rfl, rfl⟩)
    | read max => exact .inl ⟨.read max, nofun, rfl, rfl⟩
    | readLine max => exact .inl ⟨.readLine max, nofun, rfl, rfl⟩
    | write bytes => exact .inl ⟨.write bytes, nofun, rfl, rfl⟩
    | flush => exact .inl ⟨.flush, nofun, rfl, rfl⟩
    | seek target => exact .inl ⟨.seek target, nofun, rfl, rfl⟩
    | close => exact .inl ⟨.close, nofun, rfl, rfl⟩
  | query q =>
    cases q with
    | description number => exact .inr (.inr ⟨rfl, rfl⟩)
    | path => exact .inr (.inl ⟨.path, nofun, rfl, rfl⟩)
    | mode => exact .inr (.inl ⟨.mode, nofun, rfl, rfl⟩)
    | closed => exact .inr (.inl ⟨.closed, nofun, rfl, rfl⟩)
    | descriptor => exact .inr (.inl ⟨.descriptor, nofun, rfl, rfl⟩)
  | _ => exact .inr (.inr ⟨rfl, rfl⟩)

theorem askShared_eq (s : Session) (entry : Nat) (h : Handle) (request : Request) :
    ∃ system workers pool, (s.askShared entry h request).1 = { s with system, workers, pool } := by
  obtain ⟨c, -, -, heq⟩ | ⟨q, -, -, heq⟩ | ⟨-, heq⟩ := askShared_cases s entry h request <;> rw [heq] <;>
    exact ⟨_, _, _, rfl⟩

/-- A handle of the pool is asked for something through a share of it. -/
theorem Goes.renewShared {entry : Nat} {h h' : Handle} (hentry : s.pool[entry]? = some h)
    (hshared : s.isShared entry = true) (hturns : Stream.Turns h.stream s.system h'.stream sys') :
    s.Goes fair [] { s with system := sys', pool := s.pool.set entry h' } [] := by
  have hlt := (List.getElem?_eq_some_iff.1 hentry).1
  have htaken :
      s.Goes fair [] { s with pool := s.pool.set entry { h with stream := none }, system := sys' } [.handle h'] :=
    (Goes.unpool { h with stream := none } hentry rfl).trans (.turns [.handle h'] hturns rfl (List.append_nil _) nofun)
  have hclosed : (s.pool.set entry { h with stream := none })[entry]? = some { h with stream := none } := by
    rw [List.getElem?_set, if_pos rfl, if_pos hlt]
  have hback :
      Session.Goes fair { s with pool := s.pool.set entry { h with stream := none }, system := sys' } [.handle h']
        { s with pool := (s.pool.set entry { h with stream := none }).set entry h', system := sys' } [] :=
    .pooled hclosed rfl hshared
  rw [List.set_set] at hback
  exact htaken.trans hback

theorem Goes.ask (s : Session) (name : String) (request : Request) : s.Goes fair [] (s.ask name request).1 [] := by
  unfold Session.ask
  split
  · exact .refl s []
  rename_i slot hslot
  split
  · rename_i h hresource
    refine .renew (.handle _) hslot (h.respond_turns s.system slot.adopted request) ?_ rfl ?_
    · rw [hresource]
      rfl
    · rw [hresource]
      nofun
  · rename_i u hresource
    have hown : slot.resource.streams = (some u).toList := by
      rw [hresource]
      rfl
    have hshare : ∀ entry, slot.resource ≠ .share entry := by
      rw [hresource]
      nofun
    have hturns := Connection.respond_turns ⟨u, s.system⟩ slot.adopted request
    split <;> rename_i hreply <;> rw [hreply] at hturns
    · exact .renew (.stream _) hslot hturns hown rfl hshare
    · exact (Goes.forget hslot).trans (.turns [] hturns hown rfl hshare)
  · rename_i entry hresource
    split
    · exact .refl s []
    · rename_i h hentry
      obtain ⟨c, -, -, hmade⟩ | ⟨q, -, -, hmade⟩ | ⟨-, hmade⟩ := askShared_cases s entry h request
      · rw [hmade]
        have hturns := (h.respond_turns s.worker none (.call c)).blamed s.system.lastError s.system.lastError
        exact (Goes.renewShared hentry (isShared_of_slot hslot hresource) hturns).trans (.workers _)
      · rw [hmade]
        exact .refl s []
      · rw [hmade]
        exact .refl s []

theorem Goes.askConsole (s : Session) (name : ConsoleName) (request : Request) :
    s.Goes fair [] (s.askConsole name request).1 [] :=
  .console name ((s.console.get name).respond_turns s.system none request)

theorem slot?_setResource {other : String} (h : name ≠ other) : (s.setResource name r).slot? other = s.slot? other := by
  have hname : ∀ x : Slot, (if x.name = name then { x with resource := r } else x).name = x.name := by
    intro x
    split <;> rfl
  have hsame : ((· == other) ∘ Slot.name) ∘ (fun x : Slot => if x.name = name then { x with resource := r } else x) =
      (· == other) ∘ Slot.name := by
    funext x
    simp only [Function.comp_apply, hname]
  show (s.slots.map _).find? ((· == other) ∘ Slot.name) = s.slots.find? ((· == other) ∘ Slot.name)
  rw [List.find?_map, hsame]
  cases hfound : s.slots.find? ((· == other) ∘ Slot.name) with
  | none => rfl
  | some x =>
    have hx : x.name = other := by simpa using List.find?_some hfound
    rw [Option.map_some, if_neg fun heq => h (heq.symm.trans hx)]

theorem slot?_of_handle? {h : Handle} (hh : s.handle? name = some h) :
    ∃ slot, s.slot? name = some slot ∧ slot.resource = .handle h := by
  unfold handle? at hh
  split at hh
  · rename_i hslot
    cases hh
    exact ⟨_, hslot, rfl⟩
  · cases hh

theorem Goes.copy (s : Session) (source sink : String) : s.Goes fair [] (s.copy source sink).1 [] := by
  unfold Session.copy
  split
  · exact .refl s []
  rename_i hne
  split
  · rename_i reader writer hreader hwriter
    obtain ⟨first, hfirst, hread⟩ := slot?_of_handle? hreader
    obtain ⟨second, hsecond, hwrite⟩ := slot?_of_handle? hwriter
    obtain ⟨hsource, hsink⟩ := Handle.copy_uses callLimit reader writer s.system
    -- The system changes with the first handle; for the second one only its slot is left to change.
    refine Goes.trans (.renew (.handle _) hfirst hsource.turns ?_ rfl ?_) ?_
    · rw [hread]
      rfl
    · rw [hread]
      nofun
    refine .renew (.handle _) ((slot?_setResource hne).trans hsecond) (.keeps hsink.token (.refl _)) ?_ rfl ?_
    · rw [hwrite]
      rfl
    · rw [hwrite]
      nofun
  · exact .refl s []

theorem Goes.wrap (s : Session) (name stream label mode : String) (buffering : Option Int) :
    s.Goes fair [] (s.wrap name stream label mode buffering).1 [] := by
  unfold Session.wrap
  split
  · rename_i u adopted hslot
    exact (Goes.forget hslot).trans
      ((makes_ofStream fair (s.forget stream) label mode u buffering).register name adopted id)
  · exact .refl s []

/-- A share more makes no difference to the streams. -/
theorem Goes.share {entry : Nat} : s.Goes fair loose s (.share entry :: loose) :=
  .of_perm rfl rfl (.refl _) id fun hs _ _ hentry hopen =>
    (hs.shared _ _ hentry hopen).imp_right (List.mem_cons_of_mem _)

/-- A name for a descriptor makes no difference to the streams. -/
theorem Goes.nameDescriptor (s : Session) (name : String) (fd : Nat) :
    s.Goes fair loose (s.nameDescriptor name fd) loose :=
  .of_perm rfl rfl (.refl _) id fun hs => hs.shared

/-- From one session to another by commands: the order is kept, and only a command that says so closes a
descriptor that is not that of a stream. -/
def Follows (fair : Prop) (s : Session) (commands : List Command) (s' : Session) : Prop :=
  s.Orderly fair [] → s'.Orderly fair [] ∧ ∃ deeds, (s.books []).Does fair deeds (s'.books []) ∧
    ∀ fd, .closes fd ∈ deeds → ∃ descriptor, .closeDescriptor descriptor ∈ commands

theorem Goes.follows (h : s.Goes fair [] s' []) (commands : List Command) : s.Follows fair commands s' := by
  intro hs
  obtain ⟨hs', deeds, hdoes, hnone⟩ := h hs
  exact ⟨hs', deeds, hdoes, fun fd hmem => absurd hmem (hnone fd)⟩

/-- A descriptor is closed that no stream is on, if the program is fair. -/
theorem follows_close {n : Int} (descriptor : DescriptorRef) (hn : ¬ n < 0)
    (h : fair → ∀ fd : Nat, n = fd → ¬ s.Owns fd) :
    s.Follows fair [.closeDescriptor descriptor] { s with system := (s.system.close n.toNat).1 } := by
  intro hs
  have hfree : fair → ∀ t ∈ (s.books []).tokens, t.fd ≠ n.toNat := fun hfair t ht heq =>
    h hfair n.toNat (Int.toNat_of_nonneg (Int.not_lt.1 hn)).symm (heq ▸ owns_of_token ht)
  have hcloses := s.system.close_ends n.toNat
  refine ⟨⟨hs.names, hs.counted, hs.uncounted, hs.shared, hs.sound.closes hfree hcloses⟩, [.closes n.toNat],
    .closes hfree hcloses (.nothing _), fun _ _ => ⟨descriptor, List.mem_singleton_self _⟩⟩

/-- The stream of a path that is opened on another thread is one more, as that of a path that is opened here. -/
theorem Goes.openShared (s : Session) (name : String) (path : Bytes) (mode : String) (buffering : Option Int) :
    s.Goes fair [] (s.step (.openShared name path mode buffering)).1 [] := by
  have hmade : Makes fair { s with system := s.worker } [] .handle (Handle.openPath s.worker path mode buffering) :=
    makes_openPath _ path mode buffering
  have hshared := (Makes.offload s (Handle.openPath · path mode buffering) hmade).registerShared name
  exact (Goes.workers (s.offload (Handle.openPath · path mode buffering)).1.workers).trans hshared

theorem Goes.writeDescriptor (s : Session) (descriptor : DescriptorRef) (bytes : Bytes) :
    s.Goes fair [] (s.step (.writeDescriptor descriptor bytes)).1 [] := by
  unfold Session.step onDescriptor
  dsimp only
  split
  · exact .refl s []
  · split
    · exact .refl s []
    · exact .of_retains (System.through_write _ _ _).retains

/-- Every command but the closing of a descriptor keeps the order, and closes nothing but streams. -/
theorem Goes.step (command : Command) (h : fair → s.Respects command)
    (hcloses : ∀ descriptor, command ≠ .closeDescriptor descriptor) : s.Goes fair [] (s.step command).1 [] := by
  cases command with
  | openHandle name path mode buffering => exact (makes_openPath s path mode buffering).register name none id
  | adoptHandle name descriptor mode label buffering =>
    unfold Session.step
    dsimp only
    split
    · exact .refl s []
    · rename_i n hn
      exact (makes_adopt label buffering fun hfair => h hfair n hn).register name descriptor.name? id
  | openStream name path mode => exact (makes_openStream s path (toBytes mode)).register name none .stream
  | adoptStream name descriptor mode =>
    unfold Session.step
    dsimp only
    split
    · exact .refl s []
    · rename_i n hn
      exact (makes_adoptStream fun hfair => h hfair n hn).register name descriptor.name? .stream
  | wrap name stream label mode buffering => exact .wrap s name stream label mode buffering
  | openShared name path mode buffering => exact .openShared s name path mode buffering
  | share name path mode buffering => exact (makes_openPath s path mode buffering).registerShared name
  | clone name source =>
    unfold Session.step
    dsimp only
    split
    · rename_i entry _ _
      exact Goes.trans .share (.put s ⟨name, .share entry, none⟩ [])
    · exact .refl s []
  | ask name request => exact .ask s name request
  | askConsole name request => exact .askConsole s name request
  | prepareConsole => exact .prepare
  | copy source sink => exact .copy s source sink
  | drop name =>
    unfold Session.step
    dsimp only
    split
    · exact .drop s name []
    · exact .refl s []
  | openDescriptor name path reads writes =>
    have hopened := System.openPath_retains s.system path (plainMode reads writes)
    unfold Session.step
    dsimp only
    split <;> rename_i heq <;> rw [heq] at hopened
    · exact .of_retains hopened
    · exact (Goes.of_retains hopened).trans (.nameDescriptor _ _ _)
  | makePipe reader writer =>
    exact ((Goes.of_retains (System.makePipe_retains s.system)).trans (.nameDescriptor _ _ _)).trans
      (.nameDescriptor _ _ _)
  | writeDescriptor descriptor bytes => exact .writeDescriptor s descriptor bytes
  | closeDescriptor descriptor => exact absurd rfl (hcloses descriptor)
  | isOpen descriptor =>
    unfold Session.step
    dsimp only
    split <;> exact .refl s []
  | peek path => exact .of_retains (System.contents_retains s.system path)
  | peekConsole name => exact .refl s []
  | count => exact .refl s []

theorem follows_step (command : Command) (h : fair → s.Respects command) :
    s.Follows fair [command] (s.step command).1 := by
  by_cases hcloses : ∃ descriptor, command = .closeDescriptor descriptor
  · obtain ⟨descriptor, rfl⟩ := hcloses
    unfold Session.step onDescriptor
    dsimp only
    split
    · exact (Goes.refl s []).follows _
    · rename_i n hn
      split
      · exact (Goes.refl s []).follows _
      · rename_i hpos
        exact follows_close descriptor hpos fun hfair fd hfd => h hfair fd (hfd ▸ hn)
  · exact (Goes.step command h fun descriptor heq => hcloses ⟨descriptor, heq⟩).follows _

/-- A run leaves the descriptors of streams to them. -/
def RespectsAll (s : Session) : List Command → Prop
  | [] => True
  | command :: rest => s.Respects command ∧ (s.step command).1.RespectsAll rest

theorem follows_run (s : Session) (commands : List Command) (h : fair → s.RespectsAll commands) :
    s.Follows fair commands (s.run commands).1 := by
  induction commands generalizing s with
  | nil => exact (Goes.refl s []).follows _
  | cons command rest ih =>
    intro hs
    obtain ⟨hnext, deeds, hdoes, hfirst⟩ := follows_step command (fun hfair => (h hfair).1) hs
    obtain ⟨hend, deeds', hdoes', hrest⟩ := ih (s.step command).1 (fun hfair => (h hfair).2) hnext
    refine ⟨hend, deeds ++ deeds', hdoes.trans hdoes', fun fd hmem => ?_⟩
    rcases List.mem_append.1 hmem with hmem | hmem
    · obtain ⟨descriptor, hcommand⟩ := hfirst fd hmem
      exact ⟨descriptor, List.mem_cons.2 (.inl (List.mem_singleton.1 hcommand))⟩
    · obtain ⟨descriptor, hcommand⟩ := hrest fd hmem
      exact ⟨descriptor, List.mem_cons_of_mem _ hcommand⟩

end Session

end BufferedFiles
