import BufferedFiles.Proofs.Appending
import BufferedFiles.Proofs.ClosedHandles
import BufferedFiles.Proofs.Delivery
import BufferedFiles.Proofs.SessionNames

/-!
# Handles that append to one file

A session that opens any number of handles on a file to append to it, writes to them, flushes, closes and drops
them, in any order: the file keeps what it had, and behind it comes what the handles accepted, from each handle
in the order in which it accepted it. When no handle is open any more, nothing is missing.
-/
namespace BufferedFiles

theorem OpenMode.parse?_appends {reach : Bytes → Bytes} {text : Bytes} {mode : OpenMode} (h : parse? reach text = some mode)
    (happ : mode.appends = true) : mode.writes = true ∧ mode.truncates = false := by
  cases text with
  | nil => cases h
  | cons first rest =>
    simp only [parse?] at h
    split at h
    · cases h
      cases happ
    split at h
    · cases h
      cases happ
    split at h
    · cases h
      exact ⟨rfl, rfl⟩
    · cases h

/-- A mode text that opens what is there to append to it. -/
def Handle.AppendMode (text : String) : Prop :=
  (toBytes text).contains 0 = false ∧ ∃ mode, OpenMode.parse? OpenMode.pathReach (toBytes text) = some mode ∧
    OpenMode.charset? (toBytes text) = none ∧ mode.appends = true ∧ mode.exclusive = false

/-- A path that names the device `i`. -/
def System.Names (sys : System) (path : Bytes) (i : Nat) : Prop :=
  path.contains 0 = false ∧ ∃ place, sys.find path = .ok place ∧ sys.lookup place = some i

/-- What is found where a path names a file. -/
theorem System.HasFile.contents {sys : System} {path data : Bytes} {i : Nat} (h : sys.HasFile i data)
    (hpath : sys.Names path i) : (sys.contents path).2 = some data := by
  obtain ⟨dev, hdev, hc, -⟩ := h
  obtain ⟨-, place, hfind, hlookup⟩ := hpath
  have hcontent : sys.contentAt place = some (.regular data) := by
    rw [contentAt, hlookup, Option.bind_some, hdev, Option.map_some, hc]
  simp only [System.contents, hfind, hcontent]

theorem System.Names.grows {sys sys' : System} {path : Bytes} {i : Nat} (h : sys.Names path i) (hg : sys.Grows sys') :
    sys'.Names path i := by
  obtain ⟨hpath, place, hfind, hlookup⟩ := h
  exact ⟨hpath, place, hg.find hfind, hg.lookup hlookup⟩

/-- What a reply to a write counts. -/
def Call.counted : Call → Reply → Nat
  | .write _, .answer (.count n) => n
  | _, _ => 0

/-- A call that only appends. -/
def Call.isAppend : Call → Bool
  | .write _ | .flush | .close => true
  | _ => false

def Call.offered : Call → Bytes
  | .write bytes => bytes
  | _ => []

/-- The reply to a call that gets what it asks for: all bytes of a write are accepted. -/
def Call.granted : Call → Reply
  | .write bytes => .answer (.count bytes.length)
  | _ => .answer .done

theorem Call.length_taken_le (call : Call) (reply : Reply) : (call.taken reply).length ≤ call.offered.length := by
  simp only [taken]
  split
  · rw [List.length_take]
    exact Nat.min_le_right _ _
  · exact Nat.zero_le _

namespace Appending

variable {origin sys sys' : System} {i : Nat} {data path : Bytes} {log written : List (String × UInt8)}
  {held : String → Option Stream} {name text : String} {h : Handle} {buffering : Option Int}

theorem carries {fd : Nat} (ha : Appending origin i data log written sys held)
    (happended : System.Appended fd i [] sys sys') (hfds : ∀ other v, held other = some v → v.fd ≠ fd)
    (hroom : data.length + log.length ≤ origin.largestOffset) : Appending origin i data log written sys' held := by
  have hfile := happended.file _ ha.file
  rw [List.append_nil] at hfile
  have hsize : (data ++ written.map Prod.snd ++ []).length ≤ sys.largestOffset := by
    have hle := length_le_of_bytesOf ha.ledger ""
    rw [List.append_nil, List.length_append, List.length_map, ha.largest]
    omega
  exact ⟨ha.grows.trans happended.grows, happended.largest.trans ha.largest, hfile,
    fun other v hv => (ha.appends other v hv).grown ha.file happended (hfds other v hv) hsize, ha.apart, ha.ledger⟩

/-- A handle is opened on the file, and appends to it. -/
theorem opens (ha : Appending origin i data log written sys held) (hpath : origin.Names path i)
    (hmode : Handle.AppendMode text) (hb : Handle.Accepts buffering)
    (hroom : data.length + log.length ≤ origin.largestOffset) :
    ∃ sys' u, Handle.openPath sys path text buffering = (sys', .ok ⟨Text.lossy path, text, some u⟩) ∧
      Appending origin i data log written sys' held ∧ u.AppendsTo i sys' ∧ u.pending = [] ∧
      ∀ other v, held other = some v → v.fd ≠ u.fd := by
  obtain ⟨hpath, place, hfind, hlookup⟩ := hpath.grows ha.grows
  obtain ⟨htext, mode, hparse, hplain, happends, hexclusive⟩ := hmode
  obtain ⟨hwrites, htruncates⟩ := OpenMode.parse?_appends hparse happends
  obtain ⟨dev, hdev, hc, hr⟩ := id ha.file
  have hopens : mode.opens (data ++ written.map Prod.snd) = data ++ written.map Prod.snd :=
    if_neg (by rw [htruncates]; exact Bool.false_ne_true)
  have hsize : (data ++ written.map Prod.snd).length ≤ sys.largestOffset := by
    have hle := length_le_of_bytesOf ha.ledger ""
    rw [List.length_append, List.length_map, ha.largest]
    omega
  have hleads : sys.Leads mode path place (data ++ written.map Prod.snd) :=
    .there hfind hlookup hdev hc hr hsize
  obtain ⟨sys', u, j, dev', hopen, hfresh, hhas, ho, hprovides, hfree, hothers⟩ :=
    Handle.openPath_leads hpath htext hparse hplain hexclusive hb hleads
  obtain rfl : j = i := Option.some.inj (hprovides.named.symm.trans (hprovides.grows.lookup hlookup))
  have hfile : sys'.HasFile j (data ++ written.map Prod.snd) :=
    ⟨dev', hprovides.device, hopens ▸ hprovides.content, hprovides.reliable⟩
  have happended : System.Appended u.fd j [] sys sys' := by
    refine ⟨hprovides.grows, hprovides.largest, fun data₀ hfile₀ => ?_, hothers⟩
    rw [hfile₀.unique ha.file, List.append_nil]
    exact hfile
  have hfds : ∀ other v, held other = some v → v.fd ≠ u.fd := by
    intro other v hv heq
    obtain ⟨d, dev₀, hon, -⟩ := (ha.appends other v hv).on
    have hdesc := (System.opened?_eq_some.1 hon.opened).1
    have hdesc : sys.descriptor? v.fd = some d := hdesc
    rw [heq, hfree] at hdesc
    cases hdesc
  have hbegins := mode.begins_le (data ++ written.map Prod.snd)
  rw [hopens] at hbegins
  have hplace : mode.begins (data ++ written.map Prod.snd) ≤ dev'.content.size := by
    rw [hprovides.content, hopens]
    exact hbegins
  have hin : dev'.content.Within (mode.begins (data ++ written.map Prod.snd)) sys'.largestOffset := by
    intro _
    rw [hprovides.content, hopens, hprovides.largest]
    exact ⟨hsize, hbegins.trans hsize⟩
  obtain ⟨⟨⟨d, dev₁, hon⟩, -⟩, hcalm, -⟩ := hfresh.ready ho (fun _ => happends) hin
  have heq := hon.opened.symm.trans ho
  obtain ⟨rfl, rfl⟩ := Prod.mk.inj (Option.some.inj heq)
  exact ⟨sys', u, hopen, ha.carries happended hfds hroom,
    ⟨⟨_, dev₁, hon, rfl, happends, hwrites, hplace⟩, hcalm, hhas.writes.trans hwrites⟩, hfresh.pending, hfds⟩

theorem update_none (hclosed : held name = none) : Function.update held name none = held := by
  rw [← hclosed]
  exact Function.update_eq_self name held

/-- A handle is let go of, whether or not it was closed before. -/
theorem releases (ha : Appending origin i data log written sys held) (hh : held name = h.stream)
    (hroom : data.length + log.length ≤ origin.largestOffset) :
    ∃ more, Appending origin i data log (written ++ tagged name more) (h.release sys) (Function.update held name none) ∧
      ∀ v : Stream, v.AppendsTo i sys → (∀ u, held name = some u → u.fd ≠ v.fd) → v.AppendsTo i (h.release sys) := by
  cases hs : h.stream with
  | none =>
    refine ⟨[], ?_, fun v hv _ => ?_⟩
    · rw [Session.release_closed hs, update_none (hh.trans hs)]
      exact (List.append_nil written).symm ▸ ha
    · rw [Session.release_closed hs]
      exact hv
  | some u =>
    have hu := hh.trans hs
    rcases e : Connection.close ⟨u, sys⟩ with ⟨sys', r⟩
    have hrelease : h.release sys = sys' := by simp only [Handle.release, Handle.close, hs, e]
    obtain ⟨-, hclosed, hspared⟩ := ha.closes hu hroom e
    rw [hrelease]
    exact ⟨u.pending, hclosed, fun v hv hfd => hspared v hv fun heq => hfd u hu heq.symm⟩

/-- A call on a handle: what its reply counts is accepted, and an open handle grants it. -/
theorem calls {call : Call} (ha : Appending origin i data log written sys held) (hh : held name = h.stream)
    (hcall : call.isAppend = true) (hroom : data.length + (log.length + call.offered.length) ≤ origin.largestOffset) :
    (∃ more, Appending origin i data (log ++ tagged name (call.taken (h.call sys call).2.2))
        (written ++ tagged name more) (h.call sys call).2.1 (Function.update held name (h.call sys call).1.stream)) ∧
      call.counted (h.call sys call).2.2 = (call.taken (h.call sys call).2.2).length ∧
      (h.stream.isSome = true → (h.call sys call).2.2 = call.granted) := by
  cases hs : h.stream with
  | none =>
    have hclosed : h.call sys call = (h, sys, h.closedReply none (.call call)) := Handle.respond_closed hs none (.call call)
    have hnothing : call.taken (h.closedReply none (.call call)) = [] ∧
        call.counted (h.closedReply none (.call call)) = 0 := by
      cases call <;> exact ⟨rfl, rfl⟩
    rw [hclosed]
    dsimp only
    rw [hnothing.1, hnothing.2, hs, update_none (hh.trans hs)]
    refine ⟨⟨[], ?_⟩, rfl, fun hopen => (by cases hopen)⟩
    have hnil : tagged name [] = [] := rfl
    rw [hnil, List.append_nil, List.append_nil]
    exact ha
  | some u =>
    have hu := hh.trans hs
    have hle := ha.room hu (n := call.offered.length) (by omega)
    have happends := ha.appends name u hu
    cases call with
    | write bytes =>
      rcases e : Connection.write ⟨u, sys⟩ bytes with ⟨c', r⟩
      obtain ⟨rfl, hl, hcalm⟩ := happends.write ha.file hle e
      have hreply : h.call sys (.write bytes) = ({ h with stream := some c'.stream }, c'.system,
          .answer (.count bytes.length)) := by
        refine (Handle.onStream_reply hs (·.write bytes) .count).trans ?_
        rw [e]
        rfl
      rw [hreply]
      have htaken : Call.taken (.write bytes) (.answer (.count bytes.length)) = bytes := List.take_length
      rw [htaken]
      exact ⟨ha.accepts hu hl hcalm hroom, rfl, fun _ => rfl⟩
    | flush =>
      rcases e : Connection.flush ⟨u, sys⟩ with ⟨c', r⟩
      obtain ⟨rfl, hl, hcalm⟩ := happends.flush ha.file hle e
      have hreply : h.call sys .flush = ({ h with stream := some c'.stream }, c'.system, .answer .done) := by
        refine (Handle.onStream_reply hs Connection.flush fun _ => .done).trans ?_
        rw [e]
        rfl
      rw [hreply]
      exact ⟨ha.accepts hu hl hcalm hroom, rfl, fun _ => rfl⟩
    | close =>
      rcases e : Connection.close ⟨u, sys⟩ with ⟨sys', r⟩
      obtain ⟨rfl, hclosed, -⟩ := ha.closes hu hroom e
      have hreply : h.call sys .close = ({ h with stream := none }, sys', .answer .done) := by
        simp only [Handle.call, Handle.close, hs, e]
        rfl
      rw [hreply]
      refine ⟨⟨u.pending, ?_⟩, rfl, fun _ => rfl⟩
      have hnil : log ++ tagged name (Call.taken .close (.answer .done)) = log := List.append_nil log
      rw [hnil]
      exact hclosed
    | _ => cases hcall

end Appending

namespace Command

/-- A command of a program that appends to the device `i`. -/
def AppendsTo (origin : System) (i : Nat) : Command → Prop
  | .openHandle _ path mode buffering => origin.Names path i ∧ Handle.AppendMode mode ∧ Handle.Accepts buffering
  | .ask _ (.call call) => call.isAppend = true
  | .drop _ => True
  | _ => False

/-- The bytes a reply reports as accepted, with the name of the handle. -/
def accepted : Command → Reply → List (String × UInt8)
  | .ask name (.call call), reply => tagged name (call.taken reply)
  | _, _ => []

def counted : Command → Reply → Nat
  | .ask _ (.call call), reply => call.counted reply
  | _, _ => 0

/-- How many bytes a command has for a handle. -/
def offered : Command → Nat
  | .ask _ (.call call) => call.offered.length
  | _ => 0

theorem length_accepted_le (command : Command) (reply : Reply) : (command.accepted reply).length ≤ command.offered := by
  cases command with
  | ask name request =>
    cases request with
    | call call =>
      rw [accepted, tagged, List.length_map]
      exact call.length_taken_le reply
    | _ => exact Nat.zero_le _
  | _ => exact Nat.zero_le _

end Command

namespace Session

variable {s : Session} {origin sys : System} {i : Nat} {data : Bytes} {log written : List (String × UInt8)}
  {name other : String} {h : Handle} {command : Command}

/-- The stream of the handle a name stands for, if that is open. -/
def stream? (s : Session) (name : String) : Option Stream := (s.handle? name).bind Handle.stream

/-- A command gets what it asks for, unless it is made to a handle that is closed or gone. -/
def Grants (s : Session) : Command → Prop
  | .openHandle name path mode buffering => (s.step (.openHandle name path mode buffering)).2 = .answer .done
  | .ask name (.call call) => (s.stream? name).isSome = true → (s.step (.ask name (.call call))).2 = call.granted
  | _ => True

def GrantsAll (s : Session) : List Command → Prop
  | [] => True
  | command :: rest => s.Grants command ∧ (s.step command).1.GrantsAll rest

/-- A session of handles that append to the file `i`, which had `data`. -/
structure Appends (origin : System) (i : Nat) (data : Bytes) (log written : List (String × UInt8)) (s : Session) :
    Prop where
  names : s.NamesDiffer
  handles : ∀ slot ∈ s.slots, ∃ h, slot.resource = .handle h
  streams : Appending origin i data log written s.system s.stream?

theorem stream?_of_handle? (hh : s.handle? name = some h) : s.stream? name = h.stream := by
  rw [stream?, hh, Option.bind_some]

theorem stream?_update {s s' : Session} {u : Option Stream} (hself : s'.stream? name = u)
    (hothers : ∀ other, name ≠ other → s'.slot? other = s.slot? other) :
    s'.stream? = Function.update s.stream? name u := by
  funext other
  by_cases heq : other = name
  · subst heq
    rw [Function.update_self, hself]
  · rw [Function.update_of_ne heq, stream?, stream?, handle?_congr (hothers other (Ne.symm heq))]

theorem stream?_of_slot?_none {s : Session} (hslot : s.slot? name = none) : s.stream? name = none := by
  rw [stream?, handle?, hslot]
  rfl

/-- A name is taken away, and the handle it stood for is let go. -/
theorem Appends.drop (hs : s.Appends origin i data log written) (hh : s.handle? name = some h)
    (hroom : data.length + log.length ≤ origin.largestOffset) :
    ∃ written', (s.drop name).Appends origin i data log written' := by
  obtain ⟨slot, hslot, hresource⟩ := handle?_eq_some.1 hh
  have hdrop : s.drop name = { s.forget name with system := h.release s.system } := by
    rw [drop_of_slot? hslot, hresource]
    rfl
  have hstream : (s.drop name).stream? = Function.update s.stream? name none :=
    stream?_update (stream?_of_slot?_none (slot?_drop_self s name)) fun _ => slot?_drop
  obtain ⟨more, hnext, -⟩ := hs.streams.releases (stream?_of_handle? hh) hroom
  refine ⟨written ++ tagged name more, hs.names.drop name, fun x hx => hs.handles x ?_, ?_⟩
  · rw [hdrop] at hx
    exact (List.mem_filter.1 hx).1
  · rw [hstream, hdrop]
    exact hnext

/-- A name is given to a handle that was just made; the handle it stood for is let go after that. -/
theorem Appends.named {u : Stream} (hs : s.Appends origin i data log written)
    (hopened : Appending origin i data log written sys s.stream?) (hu : u.AppendsTo i sys) (hpend : u.pending = [])
    (hfds : ∀ other v, s.stream? other = some v → v.fd ≠ u.fd) (hstream : h.stream = some u)
    (hroom : data.length + log.length ≤ origin.largestOffset) :
    ∃ written', (({ s with system := sys } : Session).put ⟨name, .handle h, none⟩).Appends origin i data log written' := by
  have hname : ({ s with system := sys } : Session).NamesDiffer := hs.names
  have hnew : (({ s with system := sys } : Session).put ⟨name, .handle h, none⟩).stream? =
      Function.update s.stream? name (some u) := by
    refine stream?_update ?_ fun other hne => slot?_put (s := { s with system := sys }) hne
    refine (stream?_of_handle? (handle?_eq_some.2 ⟨_, slot?_put_self _ _, rfl⟩)).trans hstream
  cases hslot : s.slot? name with
  | none =>
    have hput : ({ s with system := sys } : Session).put ⟨name, .handle h, none⟩ =
        { s with system := sys, slots := s.slots ++ [⟨name, .handle h, none⟩] } :=
      put_of_none (s := { s with system := sys }) hslot
    refine ⟨written, hname.put _, fun x hx => ?_, ?_⟩
    · rw [hput] at hx
      rcases List.mem_append.1 hx with hold | hx
      · exact hs.handles x hold
      · rw [List.mem_singleton.1 hx]
        exact ⟨h, rfl⟩
    · rw [hnew, hput]
      exact hopened.adds (stream?_of_slot?_none hslot) hu hpend hfds
  | some old =>
    obtain ⟨g, hresource⟩ := hs.handles old (List.mem_of_find?_eq_some hslot)
    have hg := stream?_of_handle? (handle?_eq_some.2 ⟨old, hslot, hresource⟩)
    have hput : ({ s with system := sys } : Session).put ⟨name, .handle h, none⟩ =
        { s with system := g.release sys, slots := (s.forget name).slots ++ [⟨name, .handle h, none⟩] } := by
      have hold : ({ s with system := sys } : Session).slot? (⟨name, .handle h, none⟩ : Slot).name = some old := hslot
      rw [put_of_some hold, hresource]
      rfl
    obtain ⟨more, hreleased, hspared⟩ := hopened.releases hg hroom
    refine ⟨written ++ tagged name more, hname.put _, fun x hx => ?_, ?_⟩
    · rw [hput] at hx
      rcases List.mem_append.1 hx with hold | hx
      · exact hs.handles x (List.mem_filter.1 hold).1
      · rw [List.mem_singleton.1 hx]
        exact ⟨h, rfl⟩
    · rw [hnew, hput]
      have hfds' : ∀ other v, Function.update s.stream? name none other = some v → v.fd ≠ u.fd := by
        intro other v hv
        by_cases heq : other = name
        · subst heq
          rw [Function.update_self] at hv
          cases hv
        · rw [Function.update_of_ne heq] at hv
          exact hfds other v hv
      have hadded := hreleased.adds (Function.update_self name none s.stream?) (hspared u hu (hfds name)) hpend hfds'
      rw [Function.update_idem] at hadded
      exact hadded

theorem Appends.ask {call : Call} (hs : s.Appends origin i data log written) (hh : s.handle? name = some h)
    (hcall : call.isAppend = true) (hroom : data.length + (log.length + call.offered.length) ≤ origin.largestOffset) :
    (∃ written', (s.ask name (.call call)).1.Appends origin i data
        (log ++ tagged name (call.taken (s.ask name (.call call)).2)) written') ∧
      call.counted (s.ask name (.call call)).2 = (call.taken (s.ask name (.call call)).2).length ∧
      (h.stream.isSome = true → (s.ask name (.call call)).2 = call.granted) := by
  obtain ⟨slot, hslot, hresource⟩ := handle?_eq_some.1 hh
  have hask : s.ask name (.call call) =
      (({ s with system := (h.call s.system call).2.1 } : Session).setResource name (.handle (h.call s.system call).1),
        (h.call s.system call).2.2) := by
    simp only [Session.ask, hslot, hresource]
    rfl
  obtain ⟨⟨more, hnext⟩, hreply⟩ := hs.streams.calls (stream?_of_handle? hh) hcall hroom
  rw [hask]
  refine ⟨⟨written ++ tagged name more, NamesDiffer.setResource (s := { s with system := _ }) hs.names name _,
    fun x hx => ?_, ?_⟩, hreply⟩
  · obtain ⟨old, hold, rfl⟩ := List.mem_map.1 hx
    split
    · exact ⟨_, rfl⟩
    · exact hs.handles old hold
  · have hself : (({ s with system := (h.call s.system call).2.1 } : Session).setResource name
        (.handle (h.call s.system call).1)).stream? name = (h.call s.system call).1.stream :=
      stream?_of_handle? (handle?_eq_some.2
        ⟨_, slot?_setResource_self (s := { s with system := _ }) hs.names hslot, rfl⟩)
    have hstream := stream?_update (s := s) hself fun other hne => slot?_setResource (s := { s with system := _ }) hne
    rw [hstream]
    exact hnext

theorem Appends.start (hfile : sys.HasFile i data) :
    ({ system := sys } : Session).Appends sys i data [] [] := by
  have hnone : ∀ name, ({ system := sys } : Session).stream? name = none := fun _ => rfl
  refine ⟨List.nodup_nil, fun _ hx => absurd hx List.not_mem_nil, ⟨.refl sys, rfl, ?_, fun name u hu => ?_,
    fun a _ u _ _ hu _ => ?_, fun _ => rfl⟩⟩
  · rw [List.map_nil, List.append_nil]
    exact hfile
  · rw [hnone name] at hu
    cases hu
  · rw [hnone a] at hu
    cases hu

theorem Appends.slot (hs : s.Appends origin i data log written) {slot : Slot} (hslot : s.slot? name = some slot) :
    ∃ h, s.handle? name = some h := by
  obtain ⟨h, hresource⟩ := hs.handles slot (List.mem_of_find?_eq_some hslot)
  exact ⟨h, handle?_eq_some.2 ⟨slot, hslot, hresource⟩⟩

/-- What one command leaves, and that it gets what it asks for. -/
theorem Appends.step (hs : s.Appends origin i data log written) (hc : command.AppendsTo origin i)
    (hroom : data.length + (log.length + command.offered) ≤ origin.largestOffset) :
    (∃ written', (s.step command).1.Appends origin i data (log ++ command.accepted (s.step command).2) written') ∧
      command.counted (s.step command).2 = (command.accepted (s.step command).2).length ∧ s.Grants command := by
  cases command with
  | openHandle name path mode buffering =>
    obtain ⟨hpath, hmode, hb⟩ := hc
    obtain ⟨sys, u, hopen, hopened, hu, hpend, hfds⟩ := hs.streams.opens hpath hmode hb hroom
    have hstep : s.step (.openHandle name path mode buffering) =
        (({ s with system := sys } : Session).put ⟨name, .handle ⟨Text.lossy path, mode, some u⟩, none⟩,
          .answer .done) := by
      simp only [Session.step, hopen, register]
    refine ⟨?_, rfl, congrArg Prod.snd hstep⟩
    have hlog : log ++ (Command.openHandle name path mode buffering).accepted
        (s.step (.openHandle name path mode buffering)).2 = log := List.append_nil log
    rw [hlog, hstep]
    exact hs.named hopened hu hpend hfds rfl hroom
  | ask name request =>
    cases request with
    | call call =>
      cases hslot : s.slot? name with
      | none =>
        have hask : s.step (.ask name (.call call)) = (s, .senseless) := by
          simp only [Session.step, Session.ask, hslot, reject]
        have hnothing : call.taken .senseless = [] ∧ call.counted .senseless = 0 := by
          cases call <;> exact ⟨rfl, rfl⟩
        have hgone : s.Grants (.ask name (.call call)) := by
          intro hopen
          rw [stream?_of_slot?_none hslot] at hopen
          cases hopen
        rw [hask]
        simp only [Command.accepted, Command.counted, hnothing.1, hnothing.2, tagged, List.map_nil, List.append_nil]
        exact ⟨⟨written, hs⟩, rfl, hgone⟩
      | some slot =>
        obtain ⟨h, hh⟩ := hs.slot hslot
        obtain ⟨hnext, hcounted, hgranted⟩ := hs.ask hh hc hroom
        refine ⟨hnext, ?_, fun hopen => hgranted ?_⟩
        · rw [Command.accepted, tagged, List.length_map]
          exact hcounted
        · rw [stream?_of_handle? hh] at hopen
          exact hopen
    | _ => cases hc
  | drop name =>
    refine ⟨?_, rfl, trivial⟩
    have hlog : log ++ (Command.drop name).accepted (s.step (.drop name)).2 = log := List.append_nil log
    rw [hlog]
    simp only [Session.step]
    split
    · rename_i hsome
      obtain ⟨slot, hslot⟩ := Option.isSome_iff_exists.1 hsome
      obtain ⟨h, hh⟩ := hs.slot hslot
      exact hs.drop hh hroom
    · exact ⟨written, hs⟩
  | _ => exact hc.elim

theorem Appends.run (hs : s.Appends origin i data log written) {commands : List Command}
    (hc : ∀ command ∈ commands, command.AppendsTo origin i)
    (hroom : data.length + (log.length + (commands.map Command.offered).sum) ≤ origin.largestOffset) :
    (∃ written', (s.run commands).1.Appends origin i data
        (log ++ (List.zipWith Command.accepted commands (s.run commands).2).flatten) written') ∧
      (List.zipWith Command.counted commands (s.run commands).2).sum =
        (List.zipWith Command.accepted commands (s.run commands).2).flatten.length ∧ s.GrantsAll commands := by
  induction commands generalizing s log written with
  | nil => exact ⟨⟨written, (List.append_nil log).symm ▸ hs⟩, rfl, trivial⟩
  | cons command rest ih =>
    rw [List.map_cons, List.sum_cons] at hroom
    obtain ⟨⟨written', hnext⟩, hcounted, hgrants⟩ := hs.step (hc command List.mem_cons_self) (by omega)
    have hshort := command.length_accepted_le (s.step command).2
    obtain ⟨⟨written'', hlast⟩, hrest, hothers⟩ := ih hnext (fun other hother => hc other (List.mem_cons_of_mem _ hother))
      (by rw [List.length_append]; omega)
    refine ⟨⟨written'', ?_⟩, ?_, hgrants, hothers⟩
    · rw [List.append_assoc] at hlast
      exact hlast
    · show command.counted (s.step command).2 + _ = (command.accepted (s.step command).2 ++ _).length
      rw [List.length_append, hcounted]
      exact congrArg _ hrest

end Session

/-- Handles that append to a file, in any number and in any order of what is done to them, all get what they ask
for: they open, accept all bytes of a write, flush and close. The file keeps what it had, and behind it come bytes
that the handles accepted, those of each handle in its order. What is missing of a handle is pending, so that once
every handle is closed or dropped nothing is missing, and the length of the file has grown by all that was
counted. -/
theorem appended_in_order {sys : System} {i : Nat} {data : Bytes} (hfile : sys.HasFile i data)
    {commands : List Command} (huse : ∀ command ∈ commands, command.AppendsTo sys i)
    (hroom : data.length + (commands.map Command.offered).sum ≤ sys.largestOffset) :
    let run := ({ system := sys } : Session).run commands
    let log := (List.zipWith Command.accepted commands run.2).flatten
    ({ system := sys } : Session).GrantsAll commands ∧ ∃ written : List (String × UInt8),
      run.1.system.HasFile i (data ++ written.map Prod.snd) ∧
      (∀ path, sys.Names path i → (run.1.system.contents path).2 = some (data ++ written.map Prod.snd)) ∧
      (∀ name, bytesOf name written ++ pendingOf (run.1.stream? name) = bytesOf name log) ∧
      ((∀ name h, run.1.handle? name = some h → h.isClosed = true) →
        (∀ name, bytesOf name written = bytesOf name log) ∧
        (data ++ written.map Prod.snd).length =
          data.length + (List.zipWith Command.counted commands run.2).sum) := by
  intro run log
  have hstart : ({ system := sys } : Session).Appends sys i data [] [] := .start hfile
  obtain ⟨⟨written, hend⟩, hcounted, hgrants⟩ := hstart.run huse (by rwa [List.length_nil, Nat.zero_add])
  have hledger := hend.streams.ledger
  rw [List.nil_append] at hledger
  refine ⟨hgrants, written, hend.streams.file, fun path hpath => hend.streams.file.contents (hpath.grows hend.streams.grows),
    hledger, fun hclosed => ?_⟩
  have hall : ∀ name, bytesOf name written = bytesOf name log := by
    intro name
    have hnone : run.1.stream? name = none := by
      cases hh : run.1.handle? name with
      | none => rw [Session.stream?, hh, Option.bind_none]
      | some h => exact (Session.stream?_of_handle? hh).trans (Option.isNone_iff_eq_none.1 (hclosed name h hh))
    have hname := hledger name
    rw [hnone] at hname
    exact (List.append_nil _).symm.trans hname
  refine ⟨hall, ?_⟩
  rw [List.length_append, List.length_map, (perm_of_bytesOf hall).length_eq, hcounted]

/-- Two handles on one file, of which one keeps back what the other writes through. -/
def appendingUse : List Command :=
  [.openHandle "a" (toBytes "f") "a" none, .openHandle "b" (toBytes "f") "a" (some 0),
    .ask "a" (.call (.write [120, 121])), .ask "b" (.call (.write [122])), .ask "a" (.call (.write [119])),
    .ask "b" (.call .close), .drop "a"]

theorem appended_in_order_of_appendingUse :
    let run := Session.withFile.run appendingUse
    (Session.withFile.system.HasFile 9 [97, 98] ∧ (∀ command ∈ appendingUse, command.AppendsTo Session.withFile.system 9) ∧
      ∀ name h, run.1.handle? name = some h → h.isClosed = true) ∧
    run.2 = [.answer .done, .answer .done, .answer (.count 2), .answer (.count 1), .answer (.count 1), .answer .done,
      .answer .done] ∧
    ∃ written : List (String × UInt8),
      (run.1.system.contents (toBytes "f")).2 = some ([97, 98] ++ written.map Prod.snd) ∧
      bytesOf "a" written = [120, 121, 119] ∧ bytesOf "b" written = [122] ∧
      ([97, 98] ++ written.map Prod.snd).length = 6 := by
  intro run
  have hfile : Session.withFile.system.HasFile 9 [97, 98] := ⟨_, rfl, rfl, fun _ hf => absurd hf List.not_mem_nil⟩
  have hnames : Session.withFile.system.Names (toBytes "f") 9 := ⟨rfl, _, rfl, rfl⟩
  have hmode : Handle.AppendMode "a" := ⟨rfl, _, rfl, rfl, rfl, rfl⟩
  have hunbuffered : Handle.Accepts (some 0) := fun _ h => ⟨.unbuffered, (Option.some.inj h).symm⟩
  have huse : ∀ command ∈ appendingUse, command.AppendsTo Session.withFile.system 9 := by
    simp only [appendingUse, List.forall_mem_cons, List.not_mem_nil, false_imp_iff, implies_true, and_true]
    exact ⟨⟨hnames, hmode, Handle.accepts_none⟩, ⟨hnames, hmode, hunbuffered⟩, rfl, rfl, rfl, rfl, trivial⟩
  have hroom : [97, 98].length + (appendingUse.map Command.offered).sum ≤
      Session.withFile.system.largestOffset := by decide
  have hreplies : run.2 = [.answer .done, .answer .done, .answer (.count 2), .answer (.count 1), .answer (.count 1),
      .answer .done, .answer .done] := rfl
  have hslots : run.1.slots = [⟨"b", .handle ⟨Text.lossy (toBytes "f"), "a", none⟩, none⟩] := rfl
  have hclosed : ∀ name h, run.1.handle? name = some h → h.isClosed = true := by
    intro name h hh
    obtain ⟨slot, hslot, hresource⟩ := Session.handle?_eq_some.1 hh
    have hmem := List.mem_of_find?_eq_some hslot
    rw [hslots, List.mem_singleton] at hmem
    subst hmem
    cases hresource
    rfl
  obtain ⟨-, written, -, hcontents, -, hdone⟩ := appended_in_order hfile huse hroom
  obtain ⟨hnames', hlength⟩ := hdone hclosed
  exact ⟨⟨hfile, huse, hclosed⟩, hreplies, written, hcontents _ hnames, hnames' "a", hnames' "b", hlength⟩

end BufferedFiles
