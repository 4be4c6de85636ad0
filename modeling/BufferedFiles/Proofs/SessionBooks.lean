import BufferedFiles.Proofs.Books
import BufferedFiles.Session.Command

/-!
# The books of a session

The streams of a session are those that its names stand for, and those of the pool. While a command runs,
some resources have no name: they were made and not named yet, or they lost their name and were not let go
of yet. A session with such loose resources is in order if its books are sound, its names are different, and
every handle of the pool that is open is shared. Each command is a series of steps that keep that order:
a resource is made, loses or gets its name, is asked for something, or is let go of.
-/
namespace BufferedFiles

def Handle.streams (h : Handle) : List Stream := h.stream.toList

theorem Handle.streams_of_closed {h : Handle} (hclosed : h.stream = none) : h.streams = [] := by
  rw [Handle.streams, hclosed, Option.toList_none]

def Resource.streams : Resource → List Stream
  | .handle h => h.streams
  | .stream s => [s]
  | .share _ => []

/-- The streams of the console that are not closed, made or not. -/
def Console.live (c : Console) : List Stream :=
  (c.get .input).streams ++ ((c.get .output).streams ++ (c.get .messages).streams)

namespace Session

/-- The streams that were opened or adopted and are not closed. -/
def live (s : Session) : List Stream :=
  s.slots.flatMap (fun slot => slot.resource.streams) ++ s.pool.flatMap Handle.streams

/-- The streams of a session that also holds loose resources. -/
def held (s : Session) (loose : List Resource) : List Stream := loose.flatMap Resource.streams ++ s.live

def books (s : Session) (loose : List Resource) : Books :=
  ⟨s.system, Stream.tokens (s.held loose) + Stream.tokens s.console.live⟩

/-- Every handle of the pool that is open is shared. -/
def SharesOpen (s : Session) (loose : List Resource) : Prop :=
  ∀ entry h, s.pool[entry]? = some h → h.stream ≠ none → s.isShared entry = true ∨ .share entry ∈ loose

/-- A session with loose resources is in order. -/
structure Orderly (fair : Prop) (s : Session) (loose : List Resource) : Prop where
  names : (s.slots.map Slot.name).Nodup
  counted : ∀ t ∈ s.held loose, t.counted = true
  uncounted : ∀ t ∈ s.console.live, t.counted = false
  shared : s.SharesOpen loose
  sound : (s.books loose).Sound fair

/-- From one session to another by deeds that keep the order, and that close nothing but streams. -/
def Goes (fair : Prop) (s : Session) (loose : List Resource) (s' : Session) (loose' : List Resource) : Prop :=
  s.Orderly fair loose → s'.Orderly fair loose' ∧
    ∃ deeds, (s.books loose).Does fair deeds (s'.books loose') ∧ ∀ fd, .closes fd ∉ deeds

variable {fair : Prop} {s s' s'' : Session} {loose loose' loose'' : List Resource} {slot : Slot} {name : String}
  {r r' : Resource}

theorem Goes.refl (s : Session) (loose : List Resource) : s.Goes fair loose s loose :=
  fun h => ⟨h, [], .nothing _, fun _ => List.not_mem_nil⟩

theorem Goes.trans (h : s.Goes fair loose s' loose') (h' : s'.Goes fair loose' s'' loose'') :
    s.Goes fair loose s'' loose'' := by
  intro hs
  obtain ⟨hs', deeds, hdoes, hnone⟩ := h hs
  obtain ⟨hs'', deeds', hdoes', hnone'⟩ := h' hs'
  refine ⟨hs'', deeds ++ deeds', hdoes.trans hdoes', fun fd hmem => ?_⟩
  exact (List.mem_append.1 hmem).elim (hnone fd) (hnone' fd)

/-- The session holds the same streams in another way. -/
theorem Goes.of_perm (hsystem : s'.system = s.system) (hconsole : s'.console.live = s.console.live)
    (hheld : (s'.held loose').Perm (s.held loose))
    (hnames : (s.slots.map Slot.name).Nodup → (s'.slots.map Slot.name).Nodup)
    (hshared : s.Orderly fair loose → s'.SharesOpen loose') : s.Goes fair loose s' loose' := by
  intro hs
  have hbooks : s'.books loose' = s.books loose := by
    rw [books, books, hsystem, hconsole, Stream.tokens_perm hheld]
  refine ⟨⟨hnames hs.names, fun t ht => hs.counted t (hheld.mem_iff.1 ht), ?_, hshared hs, ?_⟩, [], ?_,
    fun _ => List.not_mem_nil⟩
  · rw [hconsole]
    exact hs.uncounted
  · rw [hbooks]
    exact hs.sound
  · rw [hbooks]
    exact .nothing _

theorem Goes.perm (h : loose'.Perm loose) : s.Goes fair loose s loose' :=
  .of_perm rfl rfl ((h.flatMap_right _).append_right _) id fun hs _ _ hentry hopen =>
    (hs.shared _ _ hentry hopen).imp_right h.mem_iff.2

/-- A slot that has a name stands between slots that have others. -/
theorem slot?_parts (hnames : (s.slots.map Slot.name).Nodup) (h : s.slot? name = some slot) :
    ∃ front back, s.slots = front ++ slot :: back ∧ slot.name = name ∧ ∀ x ∈ front ++ back, x.name ≠ name := by
  obtain ⟨hname, front, back, hslots, hfront⟩ := List.find?_eq_some_iff_append.1 h
  have hname : slot.name = name := by simpa using hname
  rw [hslots, List.map_append, List.map_cons] at hnames
  have hback : slot.name ∉ back.map Slot.name := (List.nodup_cons.1 (List.nodup_append.1 hnames).2.1).1
  refine ⟨front, back, hslots, hname, fun x hx heq => ?_⟩
  rcases List.mem_append.1 hx with hx | hx
  · exact absurd heq (by simpa using hfront x hx)
  · refine hback ?_
    rw [hname, ← heq]
    exact List.mem_map_of_mem hx

theorem forget_slots {front back : List Slot} (hslots : s.slots = front ++ slot :: back) (hname : slot.name = name)
    (hothers : ∀ x ∈ front ++ back, x.name ≠ name) : (s.forget name).slots = front ++ back := by
  have hkept : ∀ xs : List Slot, (∀ x ∈ xs, x.name ≠ name) → xs.filter (·.name != name) = xs :=
    fun xs hxs => List.filter_eq_self.2 fun x hx => by simpa using hxs x hx
  rw [forget, hslots, List.filter_append, List.filter_cons_of_neg (by simp [hname]), ← List.filter_append,
    hkept _ hothers]

theorem setResource_slots {front back : List Slot} (hslots : s.slots = front ++ slot :: back) (hname : slot.name = name)
    (hothers : ∀ x ∈ front ++ back, x.name ≠ name) :
    (s.setResource name r).slots = front ++ { slot with resource := r } :: back := by
  have hkept : ∀ xs : List Slot, (∀ x ∈ xs, x.name ≠ name) →
      xs.map (fun x => if x.name = name then { x with resource := r } else x) = xs :=
    fun xs hxs => (List.map_congr_left fun x hx => if_neg (hxs x hx)).trans (List.map_id xs)
  rw [setResource, hslots, List.map_append, List.map_cons, if_pos hname,
    hkept front fun x hx => hothers x (List.mem_append_left _ hx),
    hkept back fun x hx => hothers x (List.mem_append_right _ hx)]

/-- What a name stood for is loose when the name is forgotten. -/
theorem Goes.forget (h : s.slot? name = some slot) : s.Goes fair loose (s.forget name) (slot.resource :: loose) := by
  intro hs
  obtain ⟨front, back, hslots, hname, hothers⟩ := slot?_parts hs.names h
  have hleft := forget_slots hslots hname hothers
  refine Goes.of_perm (s := s) rfl rfl ?_ ?_ (fun hs entry h hentry hopen => ?_) hs
  · have hpool : (s.forget name).pool = s.pool := rfl
    refine List.perm_iff_count.2 fun t => ?_
    simp only [held, live, hleft, hslots, hpool, List.flatMap_cons, List.flatMap_append, List.count_append]
    omega
  · intro hnames
    rw [hslots, List.map_append, List.map_cons] at hnames
    rw [hleft, List.map_append]
    exact (List.nodup_middle.1 hnames).of_cons
  · have hshared := hs.shared entry h hentry hopen
    simp only [isShared, hslots, hleft, List.any_append, List.any_cons, Bool.or_eq_true, beq_iff_eq,
      List.mem_cons] at hshared ⊢
    tauto

/-- A loose resource gets a name that nothing has. -/
theorem Goes.named (h : s.slot? slot.name = none) :
    s.Goes fair (slot.resource :: loose) { s with slots := s.slots ++ [slot] } loose := by
  refine .of_perm rfl rfl ?_ ?_ fun hs entry h hentry hopen => ?_
  · refine List.perm_iff_count.2 fun t => ?_
    simp only [held, live, List.flatMap_cons, List.flatMap_append, List.flatMap_nil, List.count_append, List.count_nil]
    omega
  · intro hnames
    rw [List.map_append, List.nodup_append]
    refine ⟨hnames, List.nodup_singleton _, fun x hx y hy => ?_⟩
    obtain ⟨other, hother, rfl⟩ := List.mem_map.1 hx
    rw [List.mem_singleton.1 hy]
    exact fun heq => absurd (List.find?_eq_none.1 h other hother) (by simp [heq])
  · have hshared := hs.shared entry h hentry hopen
    simp only [isShared, List.any_append, List.any_cons, List.any_nil, Bool.or_eq_true, beq_iff_eq, List.mem_cons,
      Bool.or_false] at hshared ⊢
    tauto

/-- A name stands for a loose resource in place of what it stood for. -/
theorem Goes.setResource (hnames : (s.slots.map Slot.name).Nodup) (h : s.slot? name = some slot) :
    (s.forget name).Goes fair (r :: loose) (s.setResource name r) loose := by
  obtain ⟨front, back, hslots, hname, hothers⟩ := slot?_parts hnames h
  have hleft := forget_slots hslots hname hothers
  have hset := setResource_slots (r := r) hslots hname hothers
  refine .of_perm rfl rfl ?_ ?_ fun hs entry h hentry hopen => ?_
  · have hpool : (s.setResource name r).pool = (s.forget name).pool := rfl
    refine List.perm_iff_count.2 fun t => ?_
    simp only [held, live, hleft, hset, hpool, List.flatMap_cons, List.flatMap_append, List.count_append]
    omega
  · intro _
    rw [hslots, List.map_append, List.map_cons] at hnames
    rw [hset, List.map_append, List.map_cons]
    exact hnames
  · have hshared := hs.shared entry h hentry hopen
    simp only [isShared, hleft, hset, List.any_append, List.any_cons, Bool.or_eq_true, beq_iff_eq,
      List.mem_cons] at hshared ⊢
    rw [eq_comm (b := r)] at hshared
    tauto

theorem held_cons (s : Session) (r : Resource) (loose : List Resource) :
    s.held (r :: loose) = r.streams ++ s.held loose := by
  rw [held, List.flatMap_cons, List.append_assoc, held]

/-- A session whose books are the same but for its streams on top of `others`. -/
theorem Goes.of_does (others : Multiset Token) (streams streams' : List Stream)
    (hbefore : (s.books loose).tokens = Stream.tokens streams + others)
    (hafter : (s'.books loose').tokens = Stream.tokens streams' + others)
    (hdoes : (s.books loose).Sound fair →
      ∃ deeds, Books.Does fair ⟨s.system, Stream.tokens streams + others⟩ deeds
        ⟨s'.system, Stream.tokens streams' + others⟩ ∧ ∀ fd, .closes fd ∉ deeds)
    (hnames : s'.slots = s.slots) (hcounted : s.Orderly fair loose → ∀ t ∈ s'.held loose', t.counted = true)
    (huncounted : s.Orderly fair loose → ∀ t ∈ s'.console.live, t.counted = false)
    (hshared : s.Orderly fair loose → s'.SharesOpen loose') : s.Goes fair loose s' loose' := by
  intro hs
  obtain ⟨deeds, hdoes, hnone⟩ := hdoes hs.sound
  have hdoes : (s.books loose).Does fair deeds (s'.books loose') := by
    have hb : s.books loose = ⟨s.system, Stream.tokens streams + others⟩ := congrArg (Books.mk s.system) hbefore
    have ha : s'.books loose' = ⟨s'.system, Stream.tokens streams' + others⟩ := congrArg (Books.mk s'.system) hafter
    rw [hb, ha]
    exact hdoes
  exact ⟨⟨hnames ▸ hs.names, hcounted hs, huncounted hs, hshared hs, hdoes.sound hs.sound⟩, deeds, hdoes, hnone⟩

/-- A loose resource with a stream is asked for something, or becomes something else. -/
theorem Goes.turns {u u' : Option Stream} {sys' : System} (rs : List Resource) (h : Stream.Turns u s.system u' sys')
    (hr : r.streams = u.toList) (hrs : rs.flatMap Resource.streams = u'.toList) (hshare : ∀ entry, r ≠ .share entry) :
    s.Goes fair (r :: loose) { s with system := sys' } (rs ++ loose) := by
  refine .of_does (Stream.tokens (s.held loose) + Stream.tokens s.console.live) u.toList u'.toList ?_ ?_
    (fun _ => h.does fair _) rfl (fun hs t ht => ?_) (fun hs => hs.uncounted)
    fun hs entry _ hentry hopen => (hs.shared _ _ hentry hopen).imp_right fun hmem => ?_
  · rw [books, held_cons, hr, Stream.tokens_append, add_assoc]
  · simp only [books, held, live, List.flatMap_append, hrs, Stream.tokens_append, add_assoc]
  · have hheld : t ∈ u'.toList ∨ t ∈ s.held loose := by
      rw [held, List.flatMap_append, hrs, List.append_assoc] at ht
      exact List.mem_append.1 ht
    have hcounted := hs.counted
    rw [held_cons, hr] at hcounted
    rcases hheld with hown | hother
    · exact h.counted (fun v hv => hcounted v (List.mem_append_left _ hv)) t hown
    · exact hcounted t (List.mem_append_right _ hother)
  · rcases List.mem_cons.1 hmem with heq | hmem
    · exact absurd heq.symm (hshare entry)
    · exact List.mem_append_right _ hmem

/-- The system does something that ends no descriptor and makes no stream. -/
theorem Goes.of_retains {sys' : System} (h : s.system.Retains sys') :
    s.Goes fair loose { s with system := sys' } loose := by
  refine .of_does (s.books loose).tokens [] [] (zero_add _).symm (zero_add _).symm
    (fun _ => ⟨[], ?_, fun _ => List.not_mem_nil⟩) rfl (fun hs => hs.counted) (fun hs => hs.uncounted)
    fun hs => hs.shared
  exact Books.does_of_retains _ h

/-- A stream is made, and has no name yet. -/
theorem Goes.makes {u : Stream} {sys' : System} (htoken : u.token = ⟨u.fd, true⟩)
    (hfree : fair → (s.books loose).Sound fair → ∀ t ∈ (s.books loose).tokens, t.fd ≠ u.fd)
    (hbegins : System.Begins u.fd s.system sys') :
    s.Goes fair loose { s with system := sys' } (.stream u :: loose) := by
  refine .of_does (s.books loose).tokens [] [u] (zero_add _).symm ?_
    (fun hsound => ⟨[.begins u.fd], ?_, nofun⟩) rfl (fun hs t ht => ?_) (fun hs => hs.uncounted)
    fun hs _ _ hentry hopen => (hs.shared _ _ hentry hopen).imp_right (List.mem_cons_of_mem _)
  · rw [books, held_cons, Stream.tokens_append, add_assoc]
    rfl
  · rw [Stream.tokens_nil, zero_add]
    refine .begins (fun hfair => hfree hfair hsound) hbegins ?_
    have hnew : Stream.tokens [u] + (s.books loose).tokens = ⟨u.fd, true⟩ ::ₘ (s.books loose).tokens := by
      rw [← htoken]
      exact Multiset.singleton_add _ _
    rw [hnew]
    exact .nothing _
  · rw [held_cons] at ht
    rcases List.mem_append.1 ht with hnew | hold
    · rw [List.mem_singleton.1 hnew]
      exact congrArg Token.counted htoken
    · exact hs.counted t hold

/-- The streams of the console are that of one handle and those of the others. -/
theorem console_parts (c : Console) (name : ConsoleName) :
    ∃ others, Stream.tokens c.live = Stream.tokens (c.get name).streams + others ∧
      ∀ h : Handle, Stream.tokens (c.set name h).live = Stream.tokens h.streams + others := by
  cases name with
  | input =>
    refine ⟨Stream.tokens ((c.get .output).streams ++ (c.get .messages).streams), ?_, fun h => ?_⟩ <;>
      simp only [Console.live, Console.get_set, Stream.tokens_append, reduceCtorEq, if_true, if_false]
  | output =>
    refine ⟨Stream.tokens ((c.get .input).streams ++ (c.get .messages).streams), ?_, fun h => ?_⟩ <;>
      simp only [Console.live, Console.get_set, Stream.tokens_append, reduceCtorEq, if_true, if_false, add_left_comm]
  | messages =>
    refine ⟨Stream.tokens ((c.get .input).streams ++ (c.get .output).streams), ?_, fun h => ?_⟩ <;>
      simp only [Console.live, Console.get_set, Stream.tokens_append, reduceCtorEq, if_true, if_false, add_comm,
        add_left_comm]

theorem mem_console_set {c : Console} {name : ConsoleName} {h : Handle} {t : Stream} (ht : t ∈ (c.set name h).live) :
    t ∈ h.streams ∨ t ∈ c.live := by
  cases name <;>
    simp only [Console.live, Console.get_set, List.mem_append, reduceCtorEq, if_true, if_false] at ht ⊢ <;> tauto

theorem get_streams_subset {c : Console} {name : ConsoleName} {t : Stream} (ht : t ∈ (c.get name).streams) :
    t ∈ c.live := by
  cases name <;> simp only [Console.live, List.mem_append] <;> tauto

/-- A handle of the console is asked for something. -/
theorem Goes.console (name : ConsoleName) {h' : Handle} {sys' : System}
    (h : Stream.Turns (s.console.get name).stream s.system h'.stream sys') :
    s.Goes fair loose { s with system := sys', console := s.console.set name h' } loose := by
  obtain ⟨others, hbefore, hafter⟩ := console_parts s.console name
  refine .of_does (others + Stream.tokens (s.held loose)) (s.console.get name).streams h'.streams ?_ ?_
    (fun _ => h.does fair _) rfl (fun hs => hs.counted) (fun hs t ht => ?_) fun hs => hs.shared
  · rw [books, hbefore, add_comm, add_assoc]
  · simp only [books, hafter]
    rw [add_comm, add_assoc]
    rfl
  · rcases mem_console_set ht with hown | hother
    · exact h.counted (fun u hu => hs.uncounted u (get_streams_subset hu)) t hown
    · exact hs.uncounted t hother

theorem Goes.prepare : s.Goes fair loose { s with console := s.console.prepare } loose :=
  .of_perm rfl (by simp only [Console.live, Console.get_prepare]) (.refl _) id fun hs => hs.shared

theorem pool_parts {pool : List Handle} {entry : Nat} {h : Handle} (hentry : pool[entry]? = some h) :
    ∃ front back, pool = front ++ h :: back ∧ ∀ h', pool.set entry h' = front ++ h' :: back := by
  obtain ⟨hlt, rfl⟩ := List.getElem?_eq_some_iff.1 hentry
  refine ⟨pool.take entry, pool.drop (entry + 1), ?_, fun h' => List.set_eq_take_append_cons_drop .. ▸ if_pos hlt⟩
  rw [List.getElem_cons_drop, List.take_append_drop]

/-- What the pool gives for an entry and what it gets there. -/
theorem live_set {entry : Nat} {h : Handle} (hentry : s.pool[entry]? = some h) (h' : Handle) :
    (h.streams ++ live { s with pool := s.pool.set entry h' }).Perm (h'.streams ++ s.live) := by
  obtain ⟨front, back, hpool, hset⟩ := pool_parts hentry
  refine List.perm_iff_count.2 fun t => ?_
  simp only [live, hset]
  simp only [hpool, List.flatMap_cons, List.flatMap_append, List.count_append]
  omega

/-- A handle is taken out of the pool, and a closed one is left there. -/
theorem Goes.unpool {entry : Nat} {h : Handle} (h₀ : Handle) (hentry : s.pool[entry]? = some h)
    (hclosed : h₀.stream = none) : s.Goes fair loose { s with pool := s.pool.set entry h₀ } (.handle h :: loose) := by
  refine .of_perm rfl rfl ?_ id fun hs i g hi hopen => ?_
  · have hlive := live_set hentry h₀
    rw [Handle.streams_of_closed hclosed, List.nil_append] at hlive
    rw [held, held, List.flatMap_cons, List.append_assoc]
    exact (List.perm_append_comm_assoc _ _ _).trans (hlive.append_left _)
  · have hi : (s.pool.set entry h₀)[i]? = some g := hi
    rw [List.getElem?_set] at hi
    split at hi
    · split at hi
      · cases hi
        exact absurd hclosed hopen
      · cases hi
    · exact (hs.shared i g hi hopen).imp id (List.mem_cons_of_mem _)

/-- A handle is put where the pool has a closed one that is shared. -/
theorem Goes.pooled {entry : Nat} {h h₀ : Handle} (hentry : s.pool[entry]? = some h₀) (hclosed : h₀.stream = none)
    (hshared : s.isShared entry = true) :
    s.Goes fair (.handle h :: loose) { s with pool := s.pool.set entry h } loose := by
  refine .of_perm rfl rfl ?_ id fun hs i g hi hopen => ?_
  · have hlive := live_set hentry h
    rw [Handle.streams_of_closed hclosed, List.nil_append] at hlive
    rw [held, held, List.flatMap_cons, List.append_assoc]
    exact (hlive.append_left _).trans (List.perm_append_comm_assoc _ _ _)
  · have hi : (s.pool.set entry h)[i]? = some g := hi
    rw [List.getElem?_set] at hi
    split at hi
    · rename_i heq
      exact .inl (heq ▸ hshared)
    · refine (hs.shared i g hi hopen).imp id fun hmem => ?_
      rcases List.mem_cons.1 hmem with heq | hmem
      · cases heq
      · exact hmem

/-- A new handle is put into the pool, and shared. -/
theorem Goes.pool (h : Handle) :
    s.Goes fair (.handle h :: loose) { s with pool := s.pool ++ [h] } (.share s.pool.length :: loose) := by
  refine .of_perm rfl rfl ?_ id fun hs i g hi hopen => ?_
  · refine List.perm_iff_count.2 fun t => ?_
    simp only [held, live, Resource.streams, List.flatMap_cons, List.flatMap_append, List.flatMap_nil,
      List.count_append, List.count_nil]
    omega
  · have hi : (s.pool ++ [h])[i]? = some g := hi
    by_cases hlt : i < s.pool.length
    · rw [List.getElem?_append_left hlt] at hi
      refine (hs.shared i g hi hopen).imp id fun hmem => ?_
      rcases List.mem_cons.1 hmem with heq | hmem
      · cases heq
      · exact List.mem_cons_of_mem _ hmem
    · have hlast : i = s.pool.length := by
        have hbound := (List.getElem?_eq_some_iff.1 hi).1
        simp at hbound
        omega
      exact .inr (hlast ▸ List.mem_cons_self)

/-- A share that is not needed any more. -/
theorem Goes.unshare {entry : Nat}
    (h : ∀ h, s.pool[entry]? = some h → h.stream ≠ none → s.isShared entry = true) :
    s.Goes fair (.share entry :: loose) s loose := by
  refine .of_perm rfl rfl (.refl _) id fun hs i g hi hopen => ?_
  rcases hs.shared i g hi hopen with hshared | hmem
  · exact .inl hshared
  rcases List.mem_cons.1 hmem with heq | hmem
  · cases heq
    exact .inl (h g hi hopen)
  · exact .inr hmem

theorem Goes.release (s : Session) (r : Resource) (loose : List Resource) :
    s.Goes fair (r :: loose) (s.release r) loose := by
  cases r with
  | handle h => exact .turns [] (h.release_turns s.system) rfl rfl nofun
  | stream u => exact .turns [] (.ends (Connection.release_ends ⟨u, s.system⟩)) rfl rfl nofun
  | share entry =>
    unfold Session.release
    dsimp only
    split
    · rename_i hshared
      exact .unshare fun _ _ _ => hshared
    split
    · rename_i hnone
      refine .unshare fun h hentry _ => ?_
      rw [hnone] at hentry
      cases hentry
    · rename_i h hentry
      have hlast : ∀ g, (s.pool.set entry { h with stream := none })[entry]? = some g → g.stream = none := by
        intro g hg
        rw [List.getElem?_set, if_pos rfl] at hg
        split at hg
        · cases hg
          rfl
        · cases hg
      refine (Goes.unpool { h with stream := none } hentry rfl).trans ?_
      refine Goes.trans (.turns [] (h.release_turns s.system) rfl rfl nofun) ?_
      exact .unshare fun g hg hopen => absurd (hlast g hg) hopen

theorem Goes.drop (s : Session) (name : String) (loose : List Resource) : s.Goes fair loose (s.drop name) loose := by
  unfold Session.drop
  split
  · exact .refl s loose
  · rename_i slot hslot
    exact (Goes.forget hslot).trans (.release _ _ _)

theorem slot?_forget_self (s : Session) (name : String) : (s.forget name).slot? name = none := by
  rw [slot?, List.find?_eq_none]
  intro slot hslot
  simpa [forget] using (List.mem_filter.1 hslot).2

/-- A resource is named, and what its name stood for is let go. -/
theorem Goes.put (s : Session) (slot : Slot) (loose : List Resource) :
    s.Goes fair (slot.resource :: loose) (s.put slot) loose := by
  unfold Session.put
  split
  · rename_i hnone
    exact .named hnone
  · rename_i old hold
    refine (Goes.forget hold).trans ?_
    refine Goes.trans (.perm (.swap _ _ _)) ?_
    exact (Goes.named (slot?_forget_self s slot.name)).trans (.release _ _ _)

end Session

end BufferedFiles
