import BufferedFiles.Proofs.SessionHandles
import BufferedFiles.Proofs.Threads

/-!
# Clones of a shared handle

A program that uses a handle through clones of a share does what the program does that uses the handle itself.
The second program makes the same requests, to the one handle; it makes no clones, and drops the handle where
the first one drops its last clone. Both are free to use the console and descriptors in between, the files and
the count of open streams included.

What tells the two apart is the last error. The calls of the first program are made on other threads, where it is
another one; so the one thing that differs is a call that borrows its failure from the last error before it.
-/
namespace BufferedFiles

/-- Where a handle comes from: a path is opened, or it is there already. -/
inductive HandleOrigin where
  | opened (path : Bytes) (mode : String) (buffering : Option Int)
  | given (h : Handle)

namespace Command

/-- A command of a program on clones. -/
def ofClones : Command → Bool
  | .ask _ request => request.shared
  | .clone _ _ | .drop _ => true
  | command => command.aside

/-- The clones there are after a command. -/
def clonesAfter (clones : List String) : Command → List String
  | .clone name source => if source ∈ clones then clones.filter (· != name) ++ [name] else clones
  | .drop name => clones.filter (· != name)
  | _ => clones

/-- The command on the handle itself that a command on its clones comes to, if any. -/
def onHandle (file : String) (clones : List String) : Command → Option Command
  | .ask name request => if name ∈ clones then some (.ask file request) else none
  | .clone _ _ => none
  | .drop name => if clones = [name] then some (.drop file) else none
  | command => some command

def clonesAfterAll (clones : List String) : List Command → List String
  | [] => clones
  | command :: rest => clonesAfterAll (command.clonesAfter clones) rest

def allOnHandle (file : String) (clones : List String) : List Command → List (Option Command)
  | [] => []
  | command :: rest => command.onHandle file clones :: allOnHandle file (command.clonesAfter clones) rest

end Command

namespace Session

/-- A handle as it comes, under a name. -/
def hold (s : Session) (name : String) : HandleOrigin → Session × Reply
  | .opened path mode buffering => s.step (.openHandle name path mode buffering)
  | .given h => s.register name none .handle id ((s.system, .ok h) : System × Except HandleError Handle)

/-- A handle as it comes, shared, with a name for the first share. -/
def share (s : Session) (name : String) : HandleOrigin → Session × Reply
  | .opened path mode buffering => s.step (.openShared name path mode buffering)
  | .given h => s.registerShared name (s.system, .ok h)

def stepSome (s : Session) : Option Command → Session × Option Reply
  | none => (s, none)
  | some command => ((s.step command).1, some (s.step command).2)

/-- Runs the commands that are there. -/
def runSome (s : Session) : List (Option Command) → Session × List (Option Reply)
  | [] => (s, [])
  | command :: rest =>
    (((s.stepSome command).1.runSome rest).1, (s.stepSome command).2 :: ((s.stepSome command).1.runSome rest).2)

def cloneSlot (entry : Nat) (name : String) : Slot := ⟨name, .share entry, none⟩

/-- Names of clones that stand for an entry of the pool, and are all the names there are. -/
structure Shares (entry : Nat) (clones : List String) (s : Session) : Prop where
  names : clones.Nodup
  slots : s.slots = clones.map (cloneSlot entry)
  held : clones ≠ [] → ∃ h, s.pool[entry]? = some h

/-- A session with clones, and one in which a name stands for the handle they share, as long as there are clones. -/
structure Doubles (file : String) (entry : Nat) (clones : List String) (s f : Session) : Prop extends
    Shares entry clones s where
  same : s = f.beside s.system.lastError s.slots s.pool s.workers
  single : ∀ h, clones ≠ [] → s.pool[entry]? = some h → f.slots = [⟨file, .handle h, none⟩]
  gone : clones = [] → f.slots = []

variable {file name : String} {entry : Nat} {clones : List String} {s f : Session} {h : Handle}

theorem slot?_clones (hslots : s.slots = clones.map (cloneSlot entry)) (name : String) :
    s.slot? name = if name ∈ clones then some (cloneSlot entry name) else none := by
  rw [slot?, hslots]
  clear hslots
  induction clones with
  | nil => rfl
  | cons first rest ih =>
    rw [List.map_cons, List.find?_cons]
    by_cases hname : first = name
    · subst hname
      simp [cloneSlot]
    · have hother : ((cloneSlot entry first).name == name) = false := by simpa [cloneSlot] using hname
      simp only [hother, ih, List.mem_cons, Ne.symm hname, false_or]

theorem isShared_clones (hslots : s.slots = clones.map (cloneSlot entry)) (hne : clones ≠ []) :
    s.isShared entry = true := by
  obtain ⟨first, rest, rfl⟩ := List.exists_cons_of_ne_nil hne
  simp [isShared, hslots, cloneSlot]

theorem forget_clones (hslots : s.slots = clones.map (cloneSlot entry)) (name : String) :
    (s.forget name).slots = (clones.filter (· != name)).map (cloneSlot entry) := by
  simp only [forget, hslots, List.filter_map]
  rfl

theorem release_shared {s : Session} (hshared : s.isShared entry = true) : s.release (.share entry) = s := by
  simp only [Session.release, hshared, if_true]

/-- What a name that is left out leaves, where it was not the only one. -/
theorem filter_ne_nil (hnames : clones.Nodup) (hmem : name ∈ clones) (hmore : clones ≠ [name]) :
    clones.filter (· != name) ≠ [] := by
  intro hnil
  refine hmore ?_
  have hall : ∀ x ∈ clones, x = name := by simpa using List.filter_eq_nil_iff.1 hnil
  obtain ⟨front, back, rfl⟩ := List.append_of_mem hmem
  rw [List.nodup_append, List.nodup_cons] at hnames
  obtain ⟨-, ⟨hback, -⟩, hfront⟩ := hnames
  have hfrontnil : front = [] := by
    refine List.eq_nil_iff_forall_not_mem.2 fun x hx => ?_
    exact hfront x hx name List.mem_cons_self (hall x (List.mem_append_left _ hx))
  have hbacknil : back = [] := by
    refine List.eq_nil_iff_forall_not_mem.2 fun x hx => hback ?_
    rw [← hall x (List.mem_append_right _ (List.mem_cons_of_mem _ hx))]
    exact hx
  rw [hfrontnil, hbacknil, List.nil_append]

theorem filter_of_not_mem (hname : name ∉ clones) : clones.filter (· != name) = clones :=
  List.filter_eq_self.2 fun _ hx => bne_iff_ne.2 fun heq => hname (heq ▸ hx)

/-- What is asked through a name that is there is asked of the handle. -/
theorem Shares.ask_eq (hs : Shares entry clones s) (hname : name ∈ clones) (hentry : s.pool[entry]? = some h)
    (request : Request) : s.step (.ask name request) = s.askShared entry h request := by
  have hclone := (slot?_clones hs.slots name).trans (if_pos hname)
  simp only [step, Session.ask, hclone, cloneSlot, hentry]

theorem Shares.ask_gone (hs : Shares entry clones s) (hname : name ∉ clones) (request : Request) :
    (s.step (.ask name request)).1 = s := by
  have hgone := (slot?_clones hs.slots name).trans (if_neg hname)
  simp only [step, Session.ask, hgone, reject]

/-- One more name for a clone; where the name was that of another, that one is let go, and not the last. -/
theorem Shares.clone_eq (hs : Shares entry clones s) {source : String} (hsource : source ∈ clones) :
    (s.step (.clone name source)).1 =
      { s with slots := (clones.filter (· != name) ++ [name]).map (cloneSlot entry) } := by
  have hclone := (slot?_clones hs.slots source).trans (if_pos hsource)
  simp only [step, hclone, cloneSlot]
  by_cases hname : name ∈ clones
  · have hold : s.slot? (cloneSlot entry name).name = some (cloneSlot entry name) :=
      (slot?_clones hs.slots name).trans (if_pos hname)
    rw [← cloneSlot, put_of_some hold, forget_clones hs.slots, cloneSlot, release_shared]
    · simp only [List.map_append, List.map_cons, List.map_nil, cloneSlot]
    · simp [isShared]
  · have hfree : s.slot? (cloneSlot entry name).name = none := (slot?_clones hs.slots name).trans (if_neg hname)
    rw [← cloneSlot, put_of_none hfree, hs.slots, filter_of_not_mem hname]
    simp only [List.map_append, List.map_cons, List.map_nil, cloneSlot]

theorem Shares.clone_gone (hs : Shares entry clones s) {source : String} (hsource : source ∉ clones) :
    (s.step (.clone name source)).1 = s := by
  have hgone := (slot?_clones hs.slots source).trans (if_neg hsource)
  simp only [step, hgone, reject]

/-- Dropping a clone that is not the last forgets its name, and nothing else. -/
theorem Shares.drop_some (hs : Shares entry clones s) (hname : name ∈ clones) (hmore : clones ≠ [name]) :
    (s.step (.drop name)).1 = s.forget name := by
  have hclone := (slot?_clones hs.slots name).trans (if_pos hname)
  have hleft := filter_ne_nil hs.names hname hmore
  have hdrop : (s.step (.drop name)).1 = s.drop name := by
    simp only [step, hclone, Option.isSome_some, if_true]
  rw [hdrop, drop_of_slot? hclone]
  exact release_shared (isShared_clones (forget_clones hs.slots name) hleft)

/-- Dropping the last clone lets the handle go. -/
theorem Shares.drop_last (hs : Shares entry [name] s) (hentry : s.pool[entry]? = some h) :
    s.step (.drop name) =
      ({ s with system := h.release s.system, slots := [], pool := s.pool.set entry { h with stream := none } },
        .answer .done) := by
  have hclone := (slot?_clones hs.slots name).trans (if_pos (List.mem_singleton_self _))
  have hnone : (s.forget name).slots = [] := (forget_clones hs.slots name).trans (by simp)
  have hunshared : (s.forget name).isShared entry = false := by simp [isShared, hnone]
  have hentry' : (s.forget name).pool[entry]? = some h := hentry
  simp only [step, hclone, Option.isSome_some, if_true, drop_of_slot? hclone, cloneSlot, Session.release, hunshared,
    Bool.false_eq_true, if_false, hentry']
  simp only [forget] at hnone ⊢
  rw [hnone]

theorem Shares.drop_gone (hs : Shares entry clones s) (hname : name ∉ clones) : (s.step (.drop name)).1 = s := by
  have hgone := (slot?_clones hs.slots name).trans (if_neg hname)
  simp [step, hgone, reject]

theorem step_aside {command : Command} (h : command.aside = true) (s : Session) :
    (s.step command).1.slots = s.slots ∧ (s.step command).1.pool = s.pool := by
  obtain ⟨left, hleft⟩ := step_beside s s.slots s.pool s.workers h (.inl rfl)
  have hself : s.beside s.system.lastError s.slots s.pool s.workers = s := rfl
  rw [hself] at hleft
  exact ⟨congrArg (·.1.slots) hleft, congrArg (·.1.pool) hleft⟩

theorem Shares.aside (hs : Shares entry clones s) {command : Command} (h : command.aside = true) :
    Shares entry clones (s.step command).1 := by
  obtain ⟨hslots, hpool⟩ := step_aside h s
  exact ⟨hs.names, hslots.trans hs.slots, fun hne => hpool ▸ hs.held hne⟩

/-- Whatever a command does, the clones share what they shared. -/
theorem Shares.step (hs : Shares entry clones s) {command : Command} (h : command.ofClones = true) :
    Shares entry (command.clonesAfter clones) (s.step command).1 := by
  cases command with
  | ask name request =>
    by_cases hname : name ∈ clones
    · obtain ⟨h, hentry⟩ := hs.held (List.ne_nil_of_mem hname)
      obtain ⟨h', sys, workers, reply, heq, -⟩ := askShared_answers hentry request
      rw [hs.ask_eq hname hentry, heq]
      exact ⟨hs.names, hs.slots, fun _ => ⟨h', List.getElem?_set_self (List.getElem?_eq_some_iff.1 hentry).1⟩⟩
    · rw [hs.ask_gone hname]
      exact hs
  | clone name source =>
    simp only [Command.clonesAfter]
    split
    · rename_i hsource
      rw [hs.clone_eq hsource]
      refine ⟨?_, rfl, fun _ => hs.held (List.ne_nil_of_mem hsource)⟩
      rw [List.nodup_append]
      refine ⟨hs.names.filter _, List.nodup_singleton _, fun x hx y hy heq => ?_⟩
      rw [heq, List.mem_singleton.1 hy] at hx
      simp at hx
    · rename_i hsource
      rw [hs.clone_gone hsource]
      exact hs
  | drop name =>
    simp only [Command.clonesAfter]
    by_cases hname : name ∈ clones
    · obtain ⟨h, hentry⟩ := hs.held (List.ne_nil_of_mem hname)
      by_cases hlast : clones = [name]
      · subst hlast
        have hnone : [name].filter (· != name) = [] := by simp
        rw [hs.drop_last hentry, hnone]
        exact ⟨List.nodup_nil, rfl, fun hne => absurd rfl hne⟩
      · rw [hs.drop_some hname hlast]
        exact ⟨hs.names.filter _, forget_clones hs.slots name, fun _ => ⟨h, hentry⟩⟩
    · rw [hs.drop_gone hname, filter_of_not_mem hname]
      exact hs
  | _ => exact hs.aside h

theorem Shares.run (hs : Shares entry clones s) {commands : List Command}
    (h : ∀ command ∈ commands, command.ofClones = true) :
    Shares entry (Command.clonesAfterAll clones commands) (s.run commands).1 := by
  induction commands generalizing clones s with
  | nil => exact hs
  | cons command rest ih =>
    exact ih (hs.step (h command List.mem_cons_self)) fun other hother => h other (List.mem_cons_of_mem _ hother)

/-- Closing through one clone closes for every clone. -/
theorem Shares.close_seen (hs : Shares entry clones s) {p q : String} (hp : p ∈ clones) (hq : q ∈ clones) :
    ((s.step (.ask p (.call .close))).1.step (.ask q (.query .closed))).2 = .answer (.flag true) := by
  obtain ⟨h, hentry⟩ := hs.held (List.ne_nil_of_mem hp)
  obtain ⟨h', sys, workers, reply, heq, hanswers⟩ := askShared_answers hentry (.call .close)
  obtain rfl := hanswers.close rfl
  have huse : (Command.ask p (.call .close)).ofClones = true := rfl
  have hafter : Shares entry clones (s.step (.ask p (.call .close))).1 := hs.step huse
  have hentry' : (s.step (.ask p (.call .close))).1.pool[entry]? = some { h with stream := none } := by
    rw [hs.ask_eq hp hentry, heq]
    exact List.getElem?_set_self (List.getElem?_eq_some_iff.1 hentry).1
  rw [hafter.ask_eq hq hentry']
  rfl

theorem Doubles.system (hd : Doubles file entry clones s f) : s.system = f.system.blamed s.system.lastError :=
  congrArg Session.system hd.same

/-- Another thread finds the system of the handle, with its own last error. -/
theorem Doubles.worker (hd : Doubles file entry clones s f) : s.worker = f.system.blamed s.workers.next :=
  calc s.worker = s.system.blamed s.workers.next := rfl
    _ = (f.system.blamed s.system.lastError).blamed s.workers.next := by rw [← hd.system]
    _ = f.system.blamed s.workers.next := rfl

theorem slot?_held (hheld : f.slots = [⟨file, .handle h, none⟩]) : f.slot? file = some ⟨file, .handle h, none⟩ := by
  simp [slot?, hheld]

theorem ask_held (hheld : f.slots = [⟨file, .handle h, none⟩]) (request : Request) :
    f.step (.ask file request) =
      ({ f with system := (h.respond f.system none request).2.1,
                slots := [⟨file, .handle (h.respond f.system none request).1, none⟩] },
        (h.respond f.system none request).2.2) := by
  simp only [step, Session.ask, slot?_held hheld, setResource, hheld, List.map_cons, List.map_nil, if_true]

/-- A call through a clone, and what becomes of the handle and the system. -/
theorem Shares.call_eq (hs : Shares entry clones s) (hname : name ∈ clones) (hentry : s.pool[entry]? = some h)
    {c : Call} (hc : c ≠ .tell) : s.step (.ask name (.call c)) =
      ({ s with system := (h.call s.worker c).2.1.blamed s.system.lastError
                workers := s.workers.advance (h.call s.worker c).2.1.lastError
                pool := s.pool.set entry (h.call s.worker c).1 }, (h.call s.worker c).2.2) := by
  rw [hs.ask_eq hname hentry]
  obtain ⟨c', -, hsame, heq⟩ | ⟨q, -, hquery, -⟩ | ⟨hshared, -⟩ := askShared_cases s entry h (.call c)
  · cases hsame
    exact heq
  · cases hquery
  · cases c <;> first | exact absurd rfl hc | cases hshared

/-- A call through a clone is the call on the handle, exactly unless it borrows its failure and finds another last
error than there is for the handle. -/
theorem Doubles.call_same_iff (hd : Doubles file entry clones s f) (hname : name ∈ clones)
    (hentry : s.pool[entry]? = some h) {c : Call} (hc : c ≠ .tell) :
    ((s.step (.ask name (.call c))).1.pool[entry]? = (f.step (.ask file (.call c))).1.handle? file ∧
        (s.step (.ask name (.call c))).2 = (f.step (.ask file (.call c))).2) ↔
      (h.Borrows f.system c → s.worker.cause = f.system.cause) := by
  have hheld := hd.single h (List.ne_nil_of_mem hname) hentry
  have hset : (s.pool.set entry (h.call s.worker c).1)[entry]? = some (h.call s.worker c).1 :=
    List.getElem?_set_self (List.getElem?_eq_some_iff.1 hentry).1
  have hafter : (f.step (.ask file (.call c))).1.handle? file = some (h.call f.system c).1 := by
    rw [ask_held hheld]
    exact handle?_eq_some.2 ⟨_, slot?_held rfl, rfl⟩
  have hreply : (f.step (.ask file (.call c))).2 = (h.call f.system c).2.2 := by
    rw [ask_held hheld]
    rfl
  rw [hd.call_eq hname hentry hc, hafter, hreply, hset, Option.some.injEq, hd.worker]
  exact h.sameIn_blamed f.system s.workers.next c

/-- A command that borrows a failure from the last error, where that is another one than for the handle. -/
def Misblames (entry : Nat) (clones : List String) (s f : Session) : Command → Prop
  | .ask name (.call c) => name ∈ clones ∧ ∃ h, s.pool[entry]? = some h ∧ h.Borrows f.system c ∧
      s.worker.cause ≠ f.system.cause
  | .askConsole name request => (f.console.get name).BorrowsWithin f.system [request] ∧
      s.system.lastError ≠ f.system.lastError
  | _ => False

/-- A reply that the handle itself gave, where it was asked. -/
def Echoes (reply : Reply) (single : Option Reply) : Prop := ∀ r, single = some r → reply = r

theorem Doubles.call (hd : Doubles file entry clones s f) (hname : name ∈ clones) {c : Call} (hc : c ≠ .tell)
    (hown : ¬ Misblames entry clones s f (.ask name (.call c))) :
    Doubles file entry clones (s.step (.ask name (.call c))).1 (f.step (.ask file (.call c))).1 ∧
      (s.step (.ask name (.call c))).2 = (f.step (.ask file (.call c))).2 := by
  have hne := List.ne_nil_of_mem hname
  obtain ⟨h, hentry⟩ := hd.held hne
  have hheld := hd.single h hne hentry
  have hset : ∀ g, (s.pool.set entry g)[entry]? = some g := fun g =>
    List.getElem?_set_self (List.getElem?_eq_some_iff.1 hentry).1
  have hborrows : h.Borrows f.system c → (f.system.blamed s.workers.next).cause = f.system.cause := by
    intro hb
    by_contra hcause
    refine hown ⟨hname, h, hentry, hb, ?_⟩
    rwa [hd.worker]
  obtain ⟨hhandle, hreply⟩ := (h.sameIn_blamed f.system s.workers.next c).2 hborrows
  obtain ⟨left, hleft⟩ := h.call_blamed f.system s.workers.next c
  rw [hd.call_eq hname hentry hc, ask_held hheld, hd.worker]
  refine ⟨⟨⟨hd.names, hd.slots, fun _ => ⟨_, hset _⟩⟩, ?_, fun g _ hg => ?_, fun hnil => absurd hnil hne⟩, hreply⟩
  · rw [hleft]
    conv_lhs => rw [hd.same]
    rfl
  · cases (hset _).symm.trans hg
    rw [hhandle]
    rfl

theorem Doubles.query (hd : Doubles file entry clones s f) (hname : name ∈ clones) {q : Query}
    (hq : ∀ number, q ≠ .description number) :
    Doubles file entry clones (s.step (.ask name (.query q))).1 (f.step (.ask file (.query q))).1 ∧
      (s.step (.ask name (.query q))).2 = (f.step (.ask file (.query q))).2 := by
  have hne := List.ne_nil_of_mem hname
  obtain ⟨h, hentry⟩ := hd.held hne
  have hheld := hd.single h hne hentry
  have hasked : s.askShared entry h (.query q) = (s, .answer (h.query none q)) := by
    cases q <;> first | rfl | exact absurd rfl (hq _)
  have hkept : ({ f with slots := [⟨file, .handle h, none⟩] } : Session) = f := by
    rw [← hheld]
  rw [hd.ask_eq hname hentry, hasked, ask_held hheld]
  exact ⟨hkept.symm ▸ hd, rfl⟩

/-- Dropping the last clone drops the handle. -/
theorem Doubles.drop_last (hd : Doubles file entry [name] s f) :
    Doubles file entry [] (s.step (.drop name)).1 (f.step (.drop file)).1 ∧
      (s.step (.drop name)).2 = (f.step (.drop file)).2 := by
  obtain ⟨h, hentry⟩ := hd.held (List.cons_ne_nil _ _)
  have hheld := hd.single h (List.cons_ne_nil _ _) hentry
  have hsingle : f.step (.drop file) = ({ f with system := h.release f.system, slots := [] }, .answer .done) := by
    simp only [Session.step, slot?_held hheld, Option.isSome_some, if_true, drop_of_slot? (slot?_held hheld),
      Session.release, forget, hheld, List.filter_cons, bne_self_eq_false, Bool.false_eq_true, if_false,
      List.filter_nil]
  obtain ⟨left, hleft⟩ := h.release_blamed f.system s.system.lastError
  rw [hd.toShares.drop_last hentry, hsingle, hd.system, hleft]
  refine ⟨⟨⟨List.nodup_nil, rfl, fun hne => absurd rfl hne⟩, ?_, fun _ hne => absurd rfl hne, fun _ => rfl⟩, rfl⟩
  conv_lhs => rw [hd.same]
  rfl

theorem Doubles.aside (hd : Doubles file entry clones s f) {command : Command} (h : command.aside = true)
    (hown : ¬ Misblames entry clones s f command) :
    Doubles file entry clones (s.step command).1 (f.step command).1 ∧ (s.step command).2 = (f.step command).2 := by
  have hborrows : s.system.lastError = f.system.lastError ∨ ∀ name request, command = .askConsole name request →
      ¬ (f.console.get name).BorrowsWithin f.system [request] := by
    by_cases herror : s.system.lastError = f.system.lastError
    · exact .inl herror
    · refine .inr fun name request heq hb => hown ?_
      rw [heq]
      exact ⟨hb, herror⟩
  obtain ⟨left, hleft⟩ := step_beside f s.slots s.pool s.workers h hborrows
  rw [← hd.same] at hleft
  obtain ⟨hslots, -⟩ := step_aside h f
  rw [hleft]
  exact ⟨⟨⟨hd.names, hd.slots, hd.held⟩, rfl, fun g hne hg => hslots.trans (hd.single g hne hg),
    fun hnil => hslots.trans (hd.gone hnil)⟩, rfl⟩

/-- A clone more is the same handle, and so is one less as long as one is left. -/
theorem Doubles.renamed (hd : Doubles file entry clones s f) {clones' : List String} {slots : List Slot}
    (hshares : Shares entry clones' { s with slots }) (hne : clones ≠ []) (hne' : clones' ≠ []) :
    Doubles file entry clones' { s with slots } f := by
  refine ⟨hshares, ?_, fun g _ hg => hd.single g hne hg, fun hnil => absurd hnil hne'⟩
  conv_lhs => rw [hd.same]
  rfl

/-- One command, and what it comes to on the handle itself. -/
theorem Doubles.step (hd : Doubles file entry clones s f) {command : Command} (h : command.ofClones = true)
    (hown : ¬ Misblames entry clones s f command) :
    Doubles file entry (command.clonesAfter clones) (s.step command).1
        (f.stepSome (command.onHandle file clones)).1 ∧
      Echoes (s.step command).2 (f.stepSome (command.onHandle file clones)).2 := by
  have hboth : ∀ {clones' : List String} {command' : Command},
      Doubles file entry clones' (s.step command).1 (f.step command').1 ∧
        (s.step command).2 = (f.step command').2 →
      Doubles file entry clones' (s.step command).1 (f.stepSome (some command')).1 ∧
        Echoes (s.step command).2 (f.stepSome (some command')).2 :=
    fun ⟨hd', heq⟩ => ⟨hd', fun _ hr => heq.trans (Option.some.inj hr)⟩
  have halone : ∀ {clones' : List String}, Doubles file entry clones' (s.step command).1 f →
      Doubles file entry clones' (s.step command).1 (f.stepSome none).1 ∧
        Echoes (s.step command).2 (f.stepSome none).2 :=
    fun hd' => ⟨hd', nofun⟩
  have hshares := hd.toShares.step h
  cases command with
  | ask name request =>
    simp only [Command.onHandle, Command.clonesAfter]
    split
    · rename_i hname
      refine hboth ?_
      cases request with
      | call c =>
        have hc : c ≠ .tell := by
          rintro rfl
          cases h
        exact hd.call hname hc hown
      | query q =>
        have hq : ∀ number, q ≠ .description number := by
          rintro number rfl
          cases h
        exact hd.query hname hq
      | _ => cases h
    · rename_i hname
      exact halone ((hd.ask_gone hname request).symm ▸ hd)
  | clone name source =>
    simp only [Command.onHandle, Command.clonesAfter] at hshares ⊢
    split <;> rename_i hsource
    · rw [if_pos hsource] at hshares
      rw [hd.clone_eq hsource] at hshares halone ⊢
      exact halone (hd.renamed hshares (List.ne_nil_of_mem hsource) (by simp))
    · exact halone ((hd.clone_gone hsource).symm ▸ hd)
  | drop name =>
    simp only [Command.onHandle, Command.clonesAfter] at hshares ⊢
    by_cases hlast : clones = [name]
    · subst hlast
      have hleft : [name].filter (· != name) = [] := by simp
      rw [if_pos rfl, hleft]
      exact hboth hd.drop_last
    rw [if_neg hlast]
    refine halone ?_
    by_cases hname : name ∈ clones
    · rw [hd.drop_some hname hlast] at hshares ⊢
      exact hd.renamed hshares (List.ne_nil_of_mem hname) (filter_ne_nil hd.names hname hlast)
    · rw [hd.drop_gone hname, filter_of_not_mem hname]
      exact hd
  | _ => exact hboth (hd.aside h hown)

/-- Some command of a run borrows a failure from the last error, where that is another one than for the handle. -/
def MisblamesIn (file : String) (entry : Nat) (clones : List String) (s f : Session) : List Command → Prop
  | [] => False
  | command :: rest => Misblames entry clones s f command ∨
      MisblamesIn file entry (command.clonesAfter clones) (s.step command).1
        (f.stepSome (command.onHandle file clones)).1 rest

theorem Doubles.run (hd : Doubles file entry clones s f) {commands : List Command}
    (h : ∀ command ∈ commands, command.ofClones = true) (hown : ¬ MisblamesIn file entry clones s f commands) :
    Doubles file entry (Command.clonesAfterAll clones commands) (s.run commands).1
        (f.runSome (Command.allOnHandle file clones commands)).1 ∧
      List.Forall₂ Echoes (s.run commands).2 (f.runSome (Command.allOnHandle file clones commands)).2 := by
  induction commands generalizing clones s f with
  | nil => exact ⟨hd, .nil⟩
  | cons command rest ih =>
    rw [MisblamesIn, not_or] at hown
    obtain ⟨hnext, hecho⟩ := hd.step (h command List.mem_cons_self) hown.1
    obtain ⟨hlast, hechoes⟩ := ih hnext (fun other hother => h other (List.mem_cons_of_mem _ hother)) hown.2
    exact ⟨hlast, .cons hecho hechoes⟩

/-- The names of the first clone. -/
def firstClones (name : String) (reply : Reply) : List String := if reply = .answer .done then [name] else []

/-- A handle that is shared when it is made, and one that is not. -/
theorem doubles_registered (hbare : f.slots = []) (hs : s = { f with system := s.system, workers := s.workers })
    (sys : System) (e : Errno) (result : Except HandleError Handle) :
    Doubles file f.pool.length (firstClones name (s.registerShared name (sys.blamed e, result)).2)
        (s.registerShared name (sys.blamed e, result)).1 (f.register file none .handle id (sys, result)).1 ∧
      (s.registerShared name (sys.blamed e, result)).2 = (f.register file none .handle id (sys, result)).2 := by
  have hfree : ∀ (g : Session) (other : String), g.slots = [] → g.slot? other = none := by
    intro g other hg
    rw [slot?, hg, List.find?_nil]
  have hbare' : s.slots = [] := by rw [hs, hbare]
  cases result with
  | error er =>
    refine ⟨⟨⟨List.nodup_nil, hbare', fun hne => absurd rfl hne⟩, ?_, fun _ hne => absurd rfl hne, fun _ => hbare⟩, rfl⟩
    simp only [registerShared, register]
    conv_lhs => rw [hs]
    rw [hs, hbare]
    rfl
  | ok h =>
    have hshared : (s.registerShared name (sys.blamed e, .ok h)).1 =
        { f with system := sys.blamed e, pool := f.pool ++ [h], slots := [cloneSlot f.pool.length name],
                 workers := s.workers } := by
      simp only [registerShared]
      rw [put_of_none (hfree _ name hbare'), hs]
      simp only [hbare, List.nil_append, cloneSlot]
    have hsingle : (f.register file none .handle id ((sys, .ok h) : System × Except HandleError Handle)).1 =
        { f with system := sys, slots := [⟨file, .handle h, none⟩] } := by
      simp only [register]
      rw [put_of_none (hfree _ file hbare)]
      simp only [hbare, List.nil_append]
    have hlast : (f.pool ++ [h])[f.pool.length]? = some h := by
      rw [List.getElem?_append_right (Nat.le_refl _), Nat.sub_self, List.getElem?_cons_zero]
    have hclones : firstClones name (s.registerShared name (sys.blamed e, .ok h)).2 = [name] := rfl
    rw [hshared, hsingle, hclones]
    refine ⟨⟨⟨List.nodup_singleton _, rfl, fun _ => ⟨h, hlast⟩⟩, rfl, fun g _ hg => ?_,
      fun hnil => absurd hnil (List.cons_ne_nil _ _)⟩, rfl⟩
    cases hlast.symm.trans hg
    rfl

/-- A path is opened on another thread as it is by the caller. -/
theorem doubles_shared (hbare : f.slots = []) (name file : String) (origin : HandleOrigin) :
    Doubles file f.pool.length (firstClones name (f.share name origin).2) (f.share name origin).1
        (f.hold file origin).1 ∧ (f.share name origin).2 = (f.hold file origin).2 := by
  cases origin with
  | opened path mode buffering =>
    obtain ⟨left, hleft⟩ := Handle.openPath_blamed f.system f.workers.next path mode buffering
    have hworker : Handle.openPath f.worker path mode buffering = _ := hleft
    rcases hopen : Handle.openPath f.system path mode buffering with ⟨sys, result⟩
    rw [hopen] at hworker
    have hshare : f.share name (.opened path mode buffering) =
        ({ f with system := sys.blamed f.system.lastError, workers := f.workers.advance left } : Session).registerShared
          name (sys.blamed f.system.lastError, result) := by
      simp only [share, Session.step, offload, hworker]
      rfl
    have hhold : f.hold file (.opened path mode buffering) = f.register file none .handle id (sys, result) := by
      simp only [hold, Session.step, hopen]
    rw [hshare, hhold]
    exact doubles_registered hbare rfl sys f.system.lastError result
  | given h => exact doubles_registered hbare rfl f.system f.system.lastError (.ok h)

/-- Whatever is done through clones of a handle, however they are made and dropped, is what the same requests do to the
handle itself: from the making of the handle on every reply is the same, and the whole system but for the last error.
It is so as long as no call borrows its failure from the last error before it and finds another one on its thread than
there is for the handle; and exactly such a call comes to something else. Closing is seen by all clones, and
dropping one that is not the last only forgets its name, whatever was borrowed. -/
theorem clones_act_as_one (base : Session) (hbare : base.slots = []) (origin : HandleOrigin) (name file : String)
    (commands : List Command) (huse : ∀ command ∈ commands, command.ofClones = true) :
    let shared := base.share name origin
    let single := base.hold file origin
    let first := firstClones name shared.2
    let clones := Command.clonesAfterAll first commands
    let s := (shared.1.run commands).1
    let f := (single.1.runSome (Command.allOnHandle file first commands)).1
    (shared.2 = single.2 ∧ ∃ e, shared.1.system = { single.1.system with lastError := e }) ∧
    (¬ MisblamesIn file base.pool.length first shared.1 single.1 commands →
      (List.Forall₂ Echoes (shared.1.run commands).2 (single.1.runSome (Command.allOnHandle file first commands)).2 ∧
        (∃ e, s.system = { f.system with lastError := e }) ∧ s.console = f.console ∧ s.descriptors = f.descriptors) ∧
      ∀ p ∈ clones, ∃ h, s.pool[base.pool.length]? = some h ∧ f.handle? file = some h ∧
        ∀ c, c ≠ .tell →
          (((s.step (.ask p (.call c))).1.pool[base.pool.length]? = (f.step (.ask file (.call c))).1.handle? file ∧
              (s.step (.ask p (.call c))).2 = (f.step (.ask file (.call c))).2) ↔
            (h.Borrows f.system c → s.worker.cause = f.system.cause))) ∧
    (∀ p ∈ clones, ∀ q ∈ clones,
      ((s.step (.ask p (.call .close))).1.step (.ask q (.query .closed))).2 = .answer (.flag true)) ∧
    ∀ p ∈ clones, clones ≠ [p] → (s.step (.drop p)).1 = s.forget p := by
  intro shared single first clones s f
  obtain ⟨hd, hreply⟩ := doubles_shared hbare name file origin
  have hshares := hd.toShares.run huse
  refine ⟨⟨hreply, _, hd.system⟩, fun hown => ?_, fun p hp q hq => hshares.close_seen hp hq,
    fun p hp hmore => hshares.drop_some hp hmore⟩
  obtain ⟨hlast, hechoes⟩ := hd.run huse hown
  refine ⟨⟨hechoes, ⟨_, hlast.system⟩, (congrArg Session.console hlast.same).trans rfl,
    (congrArg Session.descriptors hlast.same).trans rfl⟩, fun p hp => ?_⟩
  obtain ⟨h, hentry⟩ := hlast.held (List.ne_nil_of_mem hp)
  have hheld := hlast.single h (List.ne_nil_of_mem hp) hentry
  exact ⟨h, hentry, handle?_eq_some.2 ⟨_, slot?_held hheld, rfl⟩, fun c hc => hlast.call_same_iff hp hentry hc⟩

/-- A pipe that holds three bytes, before a handle on it is shared. Each call through a clone is made on a thread on
which nothing has failed yet. -/
def withPipe : Session :=
  { system := (System.fresh.makePipe.1.write 1 [97, 98, 99]).1, workers := { met := [.success, .success] } }

def pipeReader : HandleOrigin :=
  .given ⟨"r", "r", some { fd := 0, reads := true, writes := false, appends := false }⟩

/-- A line is cut short where nothing more is there yet, and then the writer goes. -/
def cutLine : List Command := [.ask "p" (.call (.readLine (some 5))), .closeDescriptor (.number 1)]

/-- The same up to the read at the end, which borrows its failure: on another thread it is not the one that cut the
line short. -/
theorem clones_act_as_one_until_borrowed :
    let shared := (withPipe.share "p" pipeReader).1
    let single := (withPipe.hold "h" pipeReader).1
    let s := (shared.run cutLine).1
    let f := (single.runSome (Command.allOnHandle "h" ["p"] cutLine)).1
    (withPipe.slots = [] ∧ (∀ command ∈ cutLine, command.ofClones = true) ∧
      ¬ MisblamesIn "h" 0 ["p"] shared single cutLine) ∧
    (shared.run cutLine).2 = [.answer (.bytes [97, 98, 99]), .answer .done] ∧
    List.Forall₂ Echoes (shared.run cutLine).2 (single.runSome (Command.allOnHandle "h" ["p"] cutLine)).2 ∧
    (∃ e, s.system = { f.system with lastError := e }) ∧
    (s.step (.ask "p" (.call (.read (some 10))))).2 = .refused (.stream (.ofErrno "fread" .inputOutput)) ∧
    (f.step (.ask "h" (.call (.read (some 10))))).2 = .refused (.stream (.ofErrno "fread" .wouldBlock)) ∧
    ∃ h, f.handle? "h" = some h ∧ h.Borrows f.system (.read (some 10)) ∧ s.worker.cause ≠ f.system.cause := by
  have hshared : (((withPipe.share "p" pipeReader).1.run cutLine).1.step (.ask "p" (.call (.read (some 10))))).2 =
      .refused (.stream (.ofErrno "fread" .inputOutput)) := rfl
  have hsingle : (((withPipe.hold "h" pipeReader).1.runSome (Command.allOnHandle "h" ["p"] cutLine)).1.step
      (.ask "h" (.call (.read (some 10))))).2 = .refused (.stream (.ofErrno "fread" .wouldBlock)) := rfl
  have hreplies : ((withPipe.share "p" pipeReader).1.run cutLine).2 = [.answer (.bytes [97, 98, 99]), .answer .done] :=
    rfl
  intro shared single s f
  have huse : ∀ command ∈ cutLine, command.ofClones = true := by decide
  -- The line is asked of a stream whose indicator is clear, and the rest is no call.
  have hown : ¬ MisblamesIn "h" 0 ["p"] shared single cutLine := by
    rintro (⟨-, h, hentry, ⟨t, ht, hb⟩, -⟩ | hno | hno)
    · cases hentry
      cases ht
      exact absurd hb.failed Bool.false_ne_true
    · exact hno
    · exact hno
  have hfirst : firstClones "p" (withPipe.share "p" pipeReader).2 = ["p"] := rfl
  obtain ⟨-, hsame, -⟩ := clones_act_as_one withPipe rfl pipeReader "p" "h" cutLine huse
  rw [hfirst] at hsame
  obtain ⟨⟨hechoes, hsystem, -⟩, hclones⟩ := hsame hown
  obtain ⟨h, -, hheld, hcalls⟩ := hclones "p" (List.mem_singleton_self "p")
  have hread := hcalls (.read (some 10)) nofun
  have hdiffer : (s.step (.ask "p" (.call (.read (some 10))))).2 ≠ (f.step (.ask "h" (.call (.read (some 10))))).2 :=
    fun heq => absurd (hshared.symm.trans (heq.trans hsingle)) (by decide)
  refine ⟨⟨rfl, huse, hown⟩, hreplies, hechoes, hsystem, hshared, hsingle, h, hheld, ?_⟩
  by_contra hnot
  refine hdiffer (hread.2 fun hb => ?_).2
  by_contra hcause
  exact hnot ⟨hb, hcause⟩

end Session

end BufferedFiles
