import BufferedFiles.Proofs.SessionRuns
import BufferedFiles.Proofs.Threads
import Mathlib.Tactic.IntervalCases

/-!
# Accounts of sessions

From the start of a program on, the number of open streams is that of the streams that were opened or
adopted and are not closed. Each of them ends once: by its first close, by a drop, or where no handle can be
made of it. If the program is fair, each is on an open descriptor of its own, which ends with it. When
everything is dropped nothing is left.
-/
namespace BufferedFiles

/-- Every stream that began has ended once or is there, and the books were right all the time. If the program
is fair, beginnings and ends took turns on each descriptor. -/
structure Books.EndsOnce (fair : Prop) (a b : Books) (deeds : List Deed) : Prop where
  does : a.Does fair deeds b
  balance : ∀ fd, deeds.count (.begins fd) + a.on fd = deeds.count (.ends fd) + b.on fd
  always : ∀ past later, deeds = past ++ later → ∃ now, a.Does fair past now ∧ now.Does fair later b ∧ now.Sound fair
  alternates : fair → ∀ fd past, past <+: deeds → past.count (.ends fd) ≤ past.count (.begins fd) + a.on fd ∧
    past.count (.begins fd) + a.on fd ≤ past.count (.ends fd) + 1

theorem Books.Does.endsOnce {fair : Prop} {a b : Books} {deeds : List Deed} (h : a.Does fair deeds b)
    (ha : a.Sound fair) : a.EndsOnce fair b deeds where
  does := h
  balance := h.balance
  always past later hparts := by
    obtain ⟨now, hpast, hlater⟩ := Does.split (hparts ▸ h)
    exact ⟨now, hpast, hlater, hpast.sound ha⟩
  alternates hfair fd _ hpast := h.alternates ha hfair hpast fd

/-- What ends the streams of a system, and what does not. -/
structure System.Endings (sys : System) : Prop where
  /-- Closing ends the stream, whatever it returns. -/
  close : ∀ (h : Handle) (u : Stream), h.stream = some u →
    (h.close sys).handle.stream = none ∧ Ends u.token sys (h.close sys).system
  closeBare : ∀ u : Stream, Ends u.token sys (Connection.close ⟨u, sys⟩).1
  /-- Closing once more does nothing. -/
  again : ∀ h : Handle, h.stream = none → h.close sys = ⟨h, sys, .ok ()⟩
  /-- Nothing else that is asked for ends a stream. -/
  others : ∀ (h : Handle) (adopted : Option String) (request : Request), request ≠ .call .close →
    h.Uses sys (h.respond sys adopted request).1 (h.respond sys adopted request).2.1
  othersBare : ∀ (u : Stream) (adopted : Option String) (request : Request), request ≠ .call .close →
    ∃ u', (Connection.respond ⟨u, sys⟩ adopted request).1 = some u' ∧ u'.token = u.token ∧
      sys.Retains (Connection.respond ⟨u, sys⟩ adopted request).2.1
  /-- A stream ends where a handle cannot be made of it. -/
  unmade : ∀ (label mode : String) (u : Stream) (buffering : Option Int) (sys' : System) (e : HandleError),
    Handle.ofStream label mode u buffering sys = (sys', .error e) → Ends u.token sys sys'
  /-- What cannot be opened leaves the streams and the descriptors as they were, and all else where it was not
  for a conversion that cannot be loaded. -/
  unopened : ∀ (path mode : Bytes) (sys' : System) (e : StreamError), sys.openStream path mode = (sys', .error e) →
    sys.SameStreams sys' ∧ (OpenMode.charset? mode = none → ∃ errno, sys' = { sys with lastError := errno })
  /-- What cannot be adopted leaves everything as it was. -/
  unadopted : ∀ (number : Int) (mode : Bytes) (sys' : System) (e : StreamError),
    sys.adoptStream number mode = (sys', .error e) → ∃ errno, sys' = { sys with lastError := errno }

theorem System.endings (sys : System) : sys.Endings where
  close h u hu := by
    have hends := Connection.release_ends ⟨u, sys⟩
    refine ⟨h.close_stream sys, ?_⟩
    unfold Handle.close
    rw [hu]
    exact hends
  closeBare u := Connection.release_ends ⟨u, sys⟩
  again h hclosed := by
    unfold Handle.close
    rw [hclosed]
  others h adopted request hrequest := h.respond_uses sys adopted hrequest
  othersBare u adopted request hrequest := Connection.respond_keeps ⟨u, sys⟩ adopted hrequest
  unmade label mode u buffering sys' e hmade := by
    rcases Handle.ofStream_turns label mode u buffering sys with ⟨_, _, hok, -⟩ | ⟨_, _, herror, hturns⟩
    · rw [hok] at hmade
      cases hmade
    · rw [herror] at hmade
      cases hmade
      cases hturns with
      | keeps htoken _ => cases htoken
      | ends hends => exact hends
  unopened path mode sys' e h := ⟨openStream_sameStreams h, fun hplain => openStream_error_plain hplain h⟩
  unadopted number mode sys' e := adoptStream_error

namespace Session

variable {fair : Prop} {s : Session} {slot : Slot} {name : String} {sys : System}

/-- The streams of a session are accounted for. -/
structure Accounts (fair : Prop) (s : Session) : Prop where
  count : s.system.openStreams = s.live.length
  counted : ∀ t ∈ s.live, t.counted = true
  uncounted : ∀ t ∈ s.console.live, t.counted = false
  onOpen : fair → ∀ t ∈ s.live ++ s.console.live, ∃ d, s.system.descriptor? t.fd = some d
  apart : fair → ((s.live ++ s.console.live).map Stream.fd).Nodup

theorem Orderly.accounts (h : s.Orderly fair []) : s.Accounts fair := by
  have htokens : (s.books []).tokens = Stream.tokens (s.live ++ s.console.live) := (Stream.tokens_append _ _).symm
  refine ⟨?_, h.counted, h.uncounted, fun hfair t ht => ?_, fun hfair => ?_⟩
  · have hcount : s.system.openStreams = Token.number (s.books []).tokens := h.sound.count
    have hlive : s.live.countP (fun t => t.counted) = s.live.length := List.countP_eq_length.2 h.counted
    have hconsole : s.console.live.countP (fun t => t.counted) = 0 :=
      List.countP_eq_zero.2 fun t ht => by rw [h.uncounted t ht]; exact Bool.false_ne_true
    rw [hcount, htokens, Token.number, Stream.tokens, Multiset.coe_countP, List.countP_map, List.countP_append]
    simp only [Function.comp_def, Stream.token, Bool.decide_eq_true, hlive, hconsole, Nat.add_zero]
  · have hmem : t.token ∈ (s.books []).tokens := by
      rw [htokens]
      exact List.mem_map_of_mem ht
    exact h.sound.live hfair t.token hmem
  · have hdistinct := h.sound.distinct hfair
    rw [htokens, Stream.tokens, Multiset.map_coe, Multiset.coe_nodup, List.map_map] at hdistinct
    exact hdistinct

theorem live_start : Console.live {} = [ConsoleName.inputStream, ConsoleName.outputStream, ConsoleName.messageStream] :=
  rfl

/-- A session begins with the console, and with nothing that is counted. -/
theorem orderly_start (hnone : sys.openStreams = 0) (workers : Workers)
    (hconsole : fair → ∀ fd < 3, ∃ d, sys.descriptor? fd = some d) :
    ({ system := sys, workers } : Session).Orderly fair [] := by
  have htokens : (({ system := sys, workers } : Session).books []).tokens = {⟨0, false⟩, ⟨1, false⟩, ⟨2, false⟩} := rfl
  refine ⟨List.nodup_nil, fun t ht => ?_, fun t ht => ?_, fun entry h hentry => ?_, ?_, fun hfair t ht => ?_, ?_⟩
  · exact absurd ht List.not_mem_nil
  · have ht : t ∈ Console.live {} := ht
    rw [live_start] at ht
    simp only [List.mem_cons, List.not_mem_nil, or_false] at ht
    rcases ht with rfl | rfl | rfl <;> rfl
  · cases hentry
  · have hdistinct : (Multiset.map Token.fd {⟨0, false⟩, ⟨1, false⟩, ⟨2, false⟩}).Nodup := by decide
    rw [htokens]
    exact fun _ => hdistinct
  · rw [htokens] at ht
    simp only [Multiset.insert_eq_cons, Multiset.mem_cons, Multiset.mem_singleton] at ht
    rcases ht with rfl | rfl | rfl
    · exact hconsole hfair 0 (by decide)
    · exact hconsole hfair 1 (by decide)
    · exact hconsole hfair 2 (by decide)
  · rw [htokens]
    exact hnone

theorem release_closed {h : Handle} (hclosed : h.stream = none) (sys : System) : h.release sys = sys := by
  simp only [Handle.release, Handle.close, hclosed]

theorem slot?_setResource_self {r : Resource} (hnames : (s.slots.map Slot.name).Nodup)
    (hslot : s.slot? name = some slot) : (s.setResource name r).slot? name = some { slot with resource := r } := by
  obtain ⟨front, back, hslots, hname, hothers⟩ := slot?_parts hnames hslot
  refine List.find?_eq_some_iff_append.2 ⟨by simp [hname], front, back, setResource_slots hslots hname hothers, ?_⟩
  intro x hx
  simpa using hothers x (List.mem_append_left _ hx)

theorem release_share_of_closed {entry : Nat} (h : ∀ h, s.pool[entry]? = some h → h.stream = none) :
    (s.release (.share entry)).system = s.system := by
  unfold release
  dsimp only
  split
  · rfl
  · split
    · rfl
    · rename_i g hentry
      exact release_closed (h g hentry) s.system

theorem drop_of_slot? (hslot : s.slot? name = some slot) : s.drop name = (s.forget name).release slot.resource := by
  rw [Session.drop, hslot]

/-- Dropping what is no share does to the system what closing it does, and dropping it after it was closed does
nothing to the system. -/
theorem drop_closes (hnames : (s.slots.map Slot.name).Nodup) (hslot : s.slot? name = some slot)
    (hown : ∀ entry, slot.resource ≠ .share entry) :
    (s.drop name).system = (s.ask name (.call .close)).1.system ∧
      ((s.ask name (.call .close)).1.drop name).system = (s.ask name (.call .close)).1.system := by
  rw [drop_of_slot? hslot]
  cases hresource : slot.resource with
  | handle h =>
    have hask : (s.ask name (.call .close)).1 =
        { s with system := (h.close s.system).system }.setResource name (.handle (h.close s.system).handle) := by
      simp only [Session.ask, hslot, hresource, Handle.respond, Handle.call, Outcome.reply]
    have hslot' := slot?_setResource_self (s := { s with system := (h.close s.system).system })
      (r := .handle (h.close s.system).handle) hnames hslot
    rw [hask, drop_of_slot? hslot']
    exact ⟨rfl, release_closed (h.close_stream s.system) _⟩
  | stream u =>
    have hask : (s.ask name (.call .close)).1 = { s with system := Connection.release ⟨u, s.system⟩ }.forget name := by
      simp only [Session.ask, hslot, hresource, Connection.respond, Connection.call, Connection.release]
    have hgone : (s.ask name (.call .close)).1.slot? name = none := by
      rw [hask]
      exact slot?_forget_self _ _
    rw [Session.drop, hgone, hask]
    exact ⟨rfl, rfl⟩
  | share entry => exact absurd hresource (hown entry)

/-- What closing leaves through a share: the last error of the closing stays with the thread it was made on. -/
theorem ask_close_share {entry : Nat} {h : Handle} (hslot : s.slot? name = some slot)
    (hresource : slot.resource = .share entry) (hentry : s.pool[entry]? = some h) :
    (s.ask name (.call .close)).1 =
      { s with
        system := (h.release s.worker).blamed s.system.lastError
        workers := s.workers.advance (h.release s.worker).lastError
        pool := s.pool.set entry (h.close s.worker).handle } := by
  simp only [Session.ask, hslot, hresource, hentry]
  rfl

/-- The last share that is dropped does to the system, the last error apart, what closing the handle through it
does, and dropping it after the handle was closed does nothing to the system. -/
theorem drop_closes_share {entry : Nat} (hslot : s.slot? name = some slot) (hresource : slot.resource = .share entry)
    (hlast : (s.forget name).isShared entry = false) :
    (∃ e, (s.drop name).system = { (s.ask name (.call .close)).1.system with lastError := e }) ∧
      ((s.ask name (.call .close)).1.drop name).system = (s.ask name (.call .close)).1.system := by
  cases hentry : s.pool[entry]? with
  | none =>
    have hask : (s.ask name (.call .close)).1 = s := by
      simp only [Session.ask, hslot, hresource, hentry, reject]
    have hnothing : (s.drop name).system = s.system := by
      rw [drop_of_slot? hslot, hresource]
      exact release_share_of_closed fun g hg => absurd (hentry.symm.trans hg) fun hnone => by cases hnone
    rw [hask]
    exact ⟨⟨s.system.lastError, hnothing⟩, hnothing⟩
  | some h =>
    have hask := ask_close_share hslot hresource hentry
    have hslot' : (s.ask name (.call .close)).1.slot? name = some slot := by
      rw [hask]
      exact hslot
    have hclosed : ∀ g, (s.pool.set entry (h.close s.worker).handle)[entry]? = some g → g.stream = none := by
      intro g hg
      rw [List.getElem?_set, if_pos rfl] at hg
      split at hg
      · cases hg
        exact h.close_stream s.worker
      · cases hg
    have hdrop : (s.drop name).system = h.release s.system := by
      have hentry' : (s.forget name).pool[entry]? = some h := hentry
      rw [drop_of_slot? hslot, hresource]
      simp only [Session.release, hlast, hentry', Bool.false_eq_true, if_false]
      rfl
    obtain ⟨left, hleft⟩ := h.release_blamed s.system s.workers.next
    have hworker : h.release s.worker = (h.release s.system).blamed left := hleft
    refine ⟨⟨(h.release s.system).lastError, ?_⟩, ?_⟩
    · rw [hdrop, hask, hworker]
      rfl
    · rw [drop_of_slot? hslot', hresource, hask]
      exact release_share_of_closed hclosed

/-- A resource that is let go changes the system and its entry in the pool. -/
theorem release_eq (s : Session) (r : Resource) : ∃ system pool, s.release r = { s with system, pool } := by
  cases r with
  | handle h => exact ⟨_, _, rfl⟩
  | stream u => exact ⟨_, _, rfl⟩
  | share entry =>
    unfold Session.release
    dsimp only
    split
    · exact ⟨_, _, rfl⟩
    · split <;> exact ⟨_, _, rfl⟩

theorem release_slots (s : Session) (r : Resource) : (s.release r).slots = s.slots := by
  obtain ⟨system, pool, h⟩ := s.release_eq r
  rw [h]

/-- What is left after drops has none of the names. -/
theorem mem_slots_of_drops (names : List String) (s : Session) {x : Slot}
    (hx : x ∈ (names.foldl Session.drop s).slots) : x ∈ s.slots ∧ x.name ∉ names := by
  induction names generalizing s with
  | nil => exact ⟨hx, List.not_mem_nil⟩
  | cons name rest ih =>
    obtain ⟨hmem, hrest⟩ := ih (s.drop name) hx
    have hkept : x ∈ s.slots ∧ x.name ≠ name := by
      unfold Session.drop at hmem
      split at hmem
      · rename_i hnone
        exact ⟨hmem, by simpa using List.find?_eq_none.1 hnone x hmem⟩
      · rw [release_slots] at hmem
        obtain ⟨hmem, hname⟩ := List.mem_filter.1 hmem
        exact ⟨hmem, by simpa using hname⟩
    refine ⟨hkept.1, fun hname => ?_⟩
    rcases List.mem_cons.1 hname with heq | hname
    · exact hkept.2 heq
    · exact hrest hname

theorem Goes.drops (names : List String) (s : Session) : s.Goes fair [] (names.foldl Session.drop s) [] := by
  induction names generalizing s with
  | nil => exact .refl s []
  | cons name rest ih => exact (Goes.drop s name []).trans (ih (s.drop name))

/-- When everything is dropped no stream is left. -/
theorem live_dropAll (h : s.dropAll.Orderly fair []) : s.dropAll.live = [] := by
  have hslots : s.dropAll.slots = [] := by
    refine List.eq_nil_iff_forall_not_mem.2 fun x hx => ?_
    obtain ⟨hmem, hname⟩ := mem_slots_of_drops s.names s hx
    exact hname (List.mem_mergeSort.2 (List.mem_map_of_mem hmem))
  have hpool : s.dropAll.pool.flatMap Handle.streams = [] := by
    refine List.flatMap_eq_nil_iff.2 fun g hg => ?_
    obtain ⟨entry, hentry⟩ := List.getElem?_of_mem hg
    by_cases hopen : g.stream = none
    · exact Handle.streams_of_closed hopen
    · rcases h.shared entry g hentry hopen with hshared | hmem
      · rw [isShared, hslots] at hshared
        cases hshared
      · exact absurd hmem List.not_mem_nil
  rw [live, hslots, hpool]
  rfl

/-- The descriptors of the console are open, and a run leaves the descriptors of streams to them. -/
def Fair (s : Session) (commands : List Command) : Prop :=
  (∀ fd < 3, ∃ d, s.system.descriptor? fd = some d) ∧ s.RespectsAll commands

/-- Whatever a program does, its streams are accounted for all the time, and each ends once; what it has not
closed ends when it is dropped, in the same way. Descriptors that are not those of streams are closed by
commands that say so only. What was the last error on the threads that calls through shares are made on makes no
difference, and only the last error tells a share that is dropped from one that is closed. -/
theorem run_accounts (hnone : sys.openStreams = 0) (workers : Workers) (commands : List Command) :
    let start : Session := { system := sys, workers }
    let fair := start.Fair commands
    let s := (start.run commands).1
    s.Accounts fair ∧ 0 ≤ s.system.openStreams ∧
      (∃ deeds, (start.books []).EndsOnce fair (s.books []) deeds ∧
        ∀ fd, .closes fd ∈ deeds → ∃ descriptor, .closeDescriptor descriptor ∈ commands) ∧
      (s.dropAll.live = [] ∧ s.dropAll.system.openStreams = 0 ∧
        ∃ deeds, (s.books []).EndsOnce fair (s.dropAll.books []) deeds ∧ ∀ fd, .closes fd ∉ deeds) ∧
      (∀ name slot, s.slot? name = some slot →
        (∀ entry, slot.resource = .share entry → (s.forget name).isShared entry = false) →
        s.step (.drop name) = (s.drop name, .answer .done) ∧
          (∃ e, (s.drop name).system = { (s.ask name (.call .close)).1.system with lastError := e }) ∧
          ((∀ entry, slot.resource ≠ .share entry) →
            (s.drop name).system = (s.ask name (.call .close)).1.system) ∧
          ((s.ask name (.call .close)).1.drop name).system = (s.ask name (.call .close)).1.system) ∧
      s.system.Endings := by
  intro start fair s
  have hstart : start.Orderly fair [] := orderly_start hnone workers fun hfair => hfair.1
  obtain ⟨hs, deeds, hdoes, hcloses⟩ := follows_run start commands (fun hfair : fair => hfair.2) hstart
  obtain ⟨hdropped, dropping, hdrops, hnothing⟩ := Goes.drops s.names s hs
  have haccounts := hs.accounts
  have hleft : s.dropAll.live = [] := live_dropAll hdropped
  refine ⟨haccounts, ?_, ⟨deeds, hdoes.endsOnce hstart.sound, hcloses⟩,
    ⟨hleft, ?_, dropping, hdrops.endsOnce hs.sound, hnothing⟩,
    fun name slot hslot hlast => ⟨?_, ?_⟩, s.system.endings⟩
  · rw [haccounts.count]
    exact Int.natCast_nonneg _
  · have hcount := (Orderly.accounts hdropped).count
    have hempty : (s.names.foldl Session.drop s).live = [] := hleft
    rw [hempty] at hcount
    exact hcount
  · exact if_pos (Option.isSome_iff_exists.2 ⟨slot, hslot⟩)
  · by_cases hshare : ∃ entry, slot.resource = .share entry
    · obtain ⟨entry, hshare⟩ := hshare
      obtain ⟨hdrop, hagain⟩ := drop_closes_share hslot hshare (hlast entry hshare)
      exact ⟨hdrop, fun hown => absurd hshare (hown entry), hagain⟩
    · have hown : ∀ entry, slot.resource ≠ .share entry := fun entry heq => hshare ⟨entry, heq⟩
      obtain ⟨hdrop, hagain⟩ := drop_closes hs.names hslot hown
      exact ⟨⟨_, hdrop⟩, fun _ => hdrop, hagain⟩

/-- A session that has a file, before anything is opened. -/
def withFile : Session := { system := (System.withConsole (.pipe [])).addFile (toBytes "f") [97, 98] }

/-- A descriptor is adopted after a handle could not be made over another stream, and closed twice through
its handle; a bare stream and a share of a handle are left. -/
def strayUse : List Command :=
  [.openDescriptor "d" (toBytes "f") true false, .openHandle "refused" (toBytes "f") "r" (some (-5)),
    .adoptHandle "h" (.named "d") "r" "label" (some 1), .openStream "u" (toBytes "f") "r", .ask "h" (.call .close),
    .ask "h" (.call .close), .openShared "p" (toBytes "f") "r" none, .clone "q" "p", .drop "p"]

/-- The descriptor that is adopted is the program's own. -/
theorem strayUse_fair : withFile.Fair strayUse := by
  have hadopts : (withFile.run (strayUse.take 2)).1.Respects (.adoptHandle "h" (.named "d") "r" "label" (some 1)) := by
    intro n hn sys u hu hown
    have hnamed : (withFile.run (strayUse.take 2)).1.number? (.named "d") = some 3 := rfl
    have hfds :
        ((withFile.run (strayUse.take 2)).1.live ++ (withFile.run (strayUse.take 2)).1.console.live).map Stream.fd =
          [0, 1, 2] := rfl
    obtain ⟨-, hnumber, -⟩ := System.adoptStream_begins hu
    obtain ⟨t, ht, hfd⟩ := hown
    have hmem := List.mem_map_of_mem (f := Stream.fd) ht
    rw [hfds] at hmem
    rw [hnamed] at hn
    have hn := Option.some.inj hn
    simp only [List.mem_cons, List.not_mem_nil, or_false] at hmem
    omega
  have hconsole : ∀ fd < 3, ∃ d, withFile.system.descriptor? fd = some d := by
    intro fd hfd
    interval_cases fd <;> exact ⟨_, rfl⟩
  exact ⟨hconsole, trivial, trivial, hadopts, trivial, trivial, trivial, trivial, trivial, trivial, trivial⟩

theorem run_accounts_of_strays :
    withFile.Fair strayUse ∧ (withFile.run strayUse).1.system.openStreams = 2 ∧
      (∃ d, (withFile.run strayUse).1.system.descriptor? 3 = some d) ∧
      (∃ d, (withFile.run strayUse).1.system.descriptor? 4 = some d) ∧
      (withFile.run strayUse).1.dropAll.system.openStreams = 0 ∧
      ∃ e, ((withFile.run strayUse).1.drop "q").system =
        { ((withFile.run strayUse).1.ask "q" (.call .close)).1.system with lastError := e } := by
  obtain ⟨haccounts, -, -, ⟨-, hnone, -⟩, hdrop, -⟩ := @run_accounts withFile.system rfl {} strayUse
  have hshare : (withFile.run strayUse).1.slot? "q" = some ⟨"q", .share 0, none⟩ := rfl
  have hlast : ∀ entry, Resource.share 0 = .share entry →
      ((withFile.run strayUse).1.forget "q").isShared entry = false := by
    intro entry hentry
    cases hentry
    rfl
  have hlive : (withFile.run strayUse).1.live.map Stream.fd = [4, 3] := rfl
  have hopen : ∀ fd ∈ (withFile.run strayUse).1.live.map Stream.fd,
      ∃ d, (withFile.run strayUse).1.system.descriptor? fd = some d := by
    intro fd hfd
    obtain ⟨t, ht, rfl⟩ := List.mem_map.1 hfd
    exact haccounts.onOpen strayUse_fair t (List.mem_append_left _ ht)
  rw [hlive] at hopen
  refine ⟨strayUse_fair, ?_, hopen 3 (by decide), hopen 4 (by decide), hnone, (hdrop "q" _ hshare hlast).2.1⟩
  have hlength : (withFile.run strayUse).1.live.length = 2 := by
    rw [← List.length_map Stream.fd, hlive]
    rfl
  exact haccounts.count.trans (congrArg Nat.cast hlength)

end Session

end BufferedFiles
