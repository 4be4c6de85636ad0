import BufferedFiles.Proofs.HandleRun
import Mathlib.Data.List.Perm.Subperm
import Mathlib.Logic.Function.Basic

/-!
# Streams that append to one file

Any number of streams that append may be open on one file. Each has bytes of its own pending, and hands them on
when it likes; they come behind whatever the file has by then, so the position a stream remembers does not
matter. The bytes that are written are followed with the name of the stream they came from: for each name, what
is written and what is still pending is what was accepted, in that order.
-/
namespace BufferedFiles

/-- Bytes, each with the name of what it came from. -/
def tagged (name : String) (bytes : Bytes) : List (String × UInt8) := bytes.map (Prod.mk name)

/-- The bytes that came from a name. -/
def bytesOf (name : String) (xs : List (String × UInt8)) : Bytes := (xs.filter (·.1 == name)).map Prod.snd

theorem bytesOf_append (name : String) (xs ys : List (String × UInt8)) :
    bytesOf name (xs ++ ys) = bytesOf name xs ++ bytesOf name ys := by
  rw [bytesOf, List.filter_append, List.map_append]
  rfl

theorem bytesOf_tagged (name other : String) (bytes : Bytes) :
    bytesOf other (tagged name bytes) = if name = other then bytes else [] := by
  induction bytes with
  | nil => exact (ite_self _).symm
  | cons b rest ih =>
    have hcons : tagged name (b :: rest) = (name, b) :: tagged name rest := rfl
    rw [hcons, bytesOf, List.filter_cons]
    by_cases h : name = other
    · subst h
      rw [if_pos rfl] at ih ⊢
      rw [if_pos (beq_self_eq_true name)]
      exact congrArg (b :: ·) ih
    · rw [if_neg h] at ih ⊢
      rw [if_neg (by simpa using h)]
      exact ih

theorem map_tagged (name : String) (bytes : Bytes) : (tagged name bytes).map Prod.snd = bytes := by
  rw [tagged, List.map_map]
  exact List.map_id bytes

theorem count_bytesOf (xs : List (String × UInt8)) (name : String) (b : UInt8) :
    (bytesOf name xs).count b = xs.count (name, b) := by
  induction xs with
  | nil => rfl
  | cons x rest ih =>
    obtain ⟨other, c⟩ := x
    rw [bytesOf, List.filter_cons, List.count_cons, ← ih]
    by_cases h : other = name
    · subst h
      simp [bytesOf, List.count_cons]
    · simp [bytesOf, h]

/-- The same bytes from every name, in another order of the names. -/
theorem perm_of_bytesOf {xs ys : List (String × UInt8)} (h : ∀ name, bytesOf name xs = bytesOf name ys) : xs.Perm ys := by
  refine List.perm_iff_count.2 fun ⟨name, b⟩ => ?_
  rw [← count_bytesOf, ← count_bytesOf, h name]

/-- Nothing more is written and pending than was accepted. -/
theorem length_le_of_bytesOf {xs ys : List (String × UInt8)} {pending : String → Bytes}
    (h : ∀ name, bytesOf name xs ++ pending name = bytesOf name ys) (name : String) :
    xs.length + (pending name).length ≤ ys.length := by
  have hle : (xs ++ tagged name (pending name)).Subperm ys := by
    refine List.subperm_ext_iff.2 fun ⟨other, b⟩ _ => ?_
    rw [← count_bytesOf, ← count_bytesOf, bytesOf_append, bytesOf_tagged, ← h other]
    by_cases heq : name = other
    · refine Nat.le_of_eq ?_
      rw [if_pos heq, heq]
    · rw [if_neg heq, List.append_nil, List.count_append]
      exact Nat.le_add_right _ _
  have hlength := hle.length_le
  rw [List.length_append, tagged, List.length_map] at hlength
  exact hlength

theorem PlainFile.contents_write_appending (f : PlainFile) (bytes : Bytes) :
    (f.write true bytes).contents = f.contents ++ bytes := by
  by_cases h : bytes = []
  · rw [h, write_nil, List.append_nil]
  · rw [write_of_ne_nil f true h]
    exact overwrite_length f.contents bytes

/-- A stream appends to the device `i`. -/
structure Stream.AppendsTo (i : Nat) (sys : System) (u : Stream) : Prop where
  on : ∃ d dev, (⟨u, sys⟩ : Connection).On d dev ∧ d.device = i ∧ d.appending = true ∧ d.writable = true ∧
    d.position ≤ dev.content.size
  calm : (⟨u, sys⟩ : Connection).Calm
  writes : u.writes = true

/-- The device `i` is a file that has `data`, and does not fail. -/
def System.HasFile (sys : System) (i : Nat) (data : Bytes) : Prop :=
  ∃ dev, sys.device? i = some dev ∧ dev.content = .regular data ∧ dev.Reliable

/-- `b` is `a` after bytes were put behind the file `i` by calls on the descriptor `fd`, which may be gone. -/
structure System.Appended (fd i : Nat) (more : Bytes) (a b : System) : Prop where
  grows : a.Grows b
  largest : b.largestOffset = a.largestOffset
  file : ∀ data, a.HasFile i data → b.HasFile i (data ++ more)
  others : ∀ j, j ≠ fd → b.descriptor? j = a.descriptor? j

section OneStream

variable {sys sys' : System} {u u' v : Stream} {i fd : Nat} {data more bytes : Bytes}

theorem System.HasFile.unique {data' : Bytes} (h : sys.HasFile i data) (h' : sys.HasFile i data') : data = data' := by
  obtain ⟨dev, hdev, hc, -⟩ := h
  obtain ⟨dev', hdev', hc', -⟩ := h'
  obtain rfl : dev = dev' := Option.some.inj (hdev.symm.trans hdev')
  exact Content.regular.inj (hc.symm.trans hc')

theorem System.Appended.drops {sys'' : System} (h : System.Appended fd i more sys sys')
    (hd : System.Drops fd sys' sys'') : System.Appended fd i more sys sys'' where
  grows := h.grows.trans (.of_same hd.device hd.names hd.home)
  largest := hd.largestOffset.trans h.largest
  file data hdata := by
    obtain ⟨dev, hdev, hrest⟩ := h.file data hdata
    exact ⟨dev, (hd.device i).trans hdev, hrest⟩
  others j hj := (hd.others j hj).trans (h.others j hj)

theorem Stream.AppendsTo.port (h : u.AppendsTo i sys) (hfile : sys.HasFile i data) :
    ∃ d dev, (⟨u, sys⟩ : Connection).On d dev ∧ dev.content = .regular data ∧ dev.Reliable ∧
      sys.device? i = some dev ∧ d.device = i ∧ d.appending = true ∧ d.writable = true ∧
      d.position ≤ data.length := by
  obtain ⟨d, dev, hon, hdevice, happ, hwritable, hplace⟩ := h.on
  obtain ⟨dev', hdev', hc, hr⟩ := hfile
  have hdev := (System.opened?_eq_some.1 hon.opened).2
  rw [hdevice] at hdev
  obtain rfl : dev = dev' := Option.some.inj (hdev.symm.trans hdev')
  rw [hc] at hplace
  exact ⟨d, dev, hon, hc, hr, hdev', hdevice, happ, hwritable, hplace⟩

theorem Stream.AppendsTo.ready (h : u.AppendsTo i sys) (hfile : sys.HasFile i data) : (⟨u, sys⟩ : Connection).Ready := by
  obtain ⟨d, dev, hon, hc, -⟩ := h.port hfile
  refine ⟨⟨d, dev, hon⟩, .inr fun d' dev' ho => ?_⟩
  rw [hon.opened] at ho
  cases ho
  rw [hc]
  rfl

/-- The device takes what there is room for behind the file and what is pending. -/
theorem Stream.AppendsTo.willing {n : Nat} (h : u.AppendsTo i sys) (hfile : sys.HasFile i data)
    (hroom : data.length + u.pending.length + n ≤ sys.largestOffset) : (⟨u, sys⟩ : Connection).Willing n := by
  obtain ⟨d, dev, hon, hc, hr, -, -, happ, hwritable, hplace⟩ := h.port hfile
  have hfile := Connection.account_file hon.opened hc
  refine (Connection.willing_file hon.opened hfile).2 ⟨hwritable, hr, ?_, fun _ => ?_⟩
  · rw [happ, PlainFile.start_write]
    exact hroom
  · have hlimit := sys.addressable
    rw [Connection.extent_eq hon.opened (by rw [hc]; rfl), hc, Content.size]
    simp only
    omega

/-- Bytes that are laid down by a stream that appends: some come behind the file, after what was pending before,
and the rest is pending. -/
theorem Stream.AppendsTo.appended (h : u.AppendsTo i sys) (hfile : sys.HasFile i data)
    (hl : (⟨u, sys⟩ : Connection).Lays ⟨u', sys'⟩ bytes) :
    ∃ more, System.Appended u.fd i more sys sys' ∧ u.pending ++ bytes = more ++ u'.pending := by
  obtain ⟨d, dev, hon, hc, hr, hdev, hdevice, happ, -, -⟩ := h.port hfile
  obtain ⟨p, dev', ho', hb⟩ := hl.through.opened hon.opened
  have hdev' : sys'.device? i = some dev' := by
    have hdev' := (System.opened?_eq_some.1 ho').2
    rwa [hdevice] at hdev'
  obtain ⟨more, hmore⟩ := hb.received
  obtain ⟨data', hc'⟩ : ∃ data', dev'.content = .regular data' := by
    refine Content.isRegular_iff.1 (hb.kind.isRegular.trans ?_)
    rw [hc]
    rfl
  -- What the device received says which bytes came; what the file stands for says where they came.
  have hreceived := congrArg Account.received hl.account
  rw [Account.lay, Connection.account_received ho', Connection.account_received hon.opened, ← hmore,
    List.append_assoc, List.append_assoc, List.append_cancel_left_eq] at hreceived
  have hcontents := congrArg (fun a => a.file.map PlainFile.contents) hl.account
  simp only [Account.lay, Connection.account_file ho' hc', Connection.account_file hon.opened hc,
    Connection.account_appending hon.opened, Option.map_some, happ, PlainFile.contents_write_appending,
    Option.some.injEq] at hcontents
  have hdata : data' = data ++ more := by
    have hcancel : data' ++ u'.pending = data ++ more ++ u'.pending := by
      rw [hcontents, List.append_assoc, List.append_assoc, hreceived]
    exact List.append_cancel_right hcancel
  refine ⟨more, ⟨hl.through.system.grows, hl.through.system.largestOffset, fun data₀ hfile₀ => ?_,
    hl.through.system.others⟩, hreceived.symm⟩
  rw [hfile₀.unique hfile, ← hdata]
  exact ⟨dev', hdev', hc', hb.reliable hr⟩

/-- The stream still appends, and its device stands no further than the end. -/
theorem Stream.AppendsTo.lays (h : u.AppendsTo i sys) (hfile : sys.HasFile i data)
    (hl : (⟨u, sys⟩ : Connection).Lays ⟨u', sys'⟩ bytes)
    (hcalm : (⟨u', sys'⟩ : Connection).Calm) : u'.AppendsTo i sys' := by
  obtain ⟨more, happended, hbytes⟩ := h.appended hfile hl
  obtain ⟨d, dev, hon, hc, -, -, hdevice, happ, hwritable, hplace⟩ := h.port hfile
  obtain ⟨p, dev', ho', -⟩ := hl.through.opened hon.opened
  obtain ⟨⟨d', dev'', hon'⟩, -⟩ := hl.ready
  have heq := hon'.opened.symm.trans ho'
  cases heq
  obtain ⟨dev₁, hdev₁, hc₁, -⟩ := happended.file data hfile
  have hdev' : sys'.device? i = some dev' := hdevice ▸ (System.opened?_eq_some.1 ho').2
  obtain rfl : dev₁ = dev' := Option.some.inj (hdev₁.symm.trans hdev')
  refine ⟨⟨_, dev₁, hon', hdevice, happ, hwritable, ?_⟩, hcalm, hl.through.stream.writes.trans h.writes⟩
  have hextent := hl.extent
  have hlength := congrArg List.length hbytes
  rw [Connection.extent_eq ho' (by rw [hc₁]; rfl), Connection.extent_eq hon.opened (by rw [hc]; rfl), hc, hc₁] at hextent
  rw [hc₁]
  simp only [Content.size, List.length_append] at hextent hlength ⊢
  omega

/-- A window over a file that grew is still a window over it. -/
theorem Content.Covers.grown {window : Bytes} {position : Nat} (h : (Content.regular data).Covers window position)
    (more : Bytes) : (Content.regular (data ++ more)).Covers window position := by
  obtain ⟨hle, hwin⟩ := h
  refine ⟨hle, ?_⟩
  have hlength := congrArg List.length hwin
  rw [List.length_take, List.length_drop] at hlength
  rcases Nat.eq_zero_or_pos window.length with hzero | hpos
  · rw [hzero, List.take_zero, List.eq_nil_of_length_eq_zero hzero]
  · rw [List.drop_append_of_le_length (by omega), List.take_append_of_le_length (by rw [List.length_drop]; omega)]
    exact hwin

/-- Bytes that another stream put behind the file change nothing for a stream that appends. -/
theorem Stream.AppendsTo.grown (h : v.AppendsTo i sys) (hfile : sys.HasFile i data)
    (happended : System.Appended fd i more sys sys') (hfd : v.fd ≠ fd)
    (hroom : (data ++ more).length ≤ sys.largestOffset) : v.AppendsTo i sys' := by
  obtain ⟨d, dev, hon, hc, -, hdev, hdevice, happ, hwritable, hplace⟩ := h.port hfile
  obtain ⟨dev', hdev', hc', hr'⟩ := happended.file data hfile
  have hdesc := (System.opened?_eq_some.1 hon.opened).1
  have hin := hon.within
  have hcovers := hon.fits.covers
  rw [hc] at hin hcovers
  refine ⟨⟨d, dev', ⟨⟨?_, hon.appending, fun _ => ?_⟩, ?_⟩, hdevice, happ, hwritable, ?_⟩,
    h.calm, h.writes⟩
  · exact System.opened?_eq_some.2 ⟨(happended.others _ hfd).trans hdesc, hdevice ▸ hdev'⟩
  · rw [hc', show (⟨v, sys'⟩ : Connection).system.largestOffset = _ from happended.largest]
    exact ⟨hroom, (hin rfl).2⟩
  · refine ⟨hon.fits.cursor, hon.fits.window, hon.fits.input, ?_, fun p hp _ hknown => ?_⟩
    · rw [hc']
      exact hcovers.imp_right (·.grown more)
    · exact hon.fits.offset p hp (by rw [hc]; rfl) hknown
  · rw [hc', Content.size, List.length_append]
    omega

theorem Stream.AppendsTo.write {c' : Connection} {r : Except StreamError Nat} (h : u.AppendsTo i sys)
    (hfile : sys.HasFile i data) (hroom : data.length + u.pending.length + bytes.length ≤ sys.largestOffset)
    (e : Connection.write ⟨u, sys⟩ bytes = (c', r)) :
    r = .ok bytes.length ∧ (⟨u, sys⟩ : Connection).Lays c' bytes ∧ c'.Calm := by
  have hready := h.ready hfile
  have hwilling := h.willing hfile hroom
  by_cases hb : bytes = []
  · subst hb
    rw [Connection.write_nil] at e
    cases e
    exact ⟨rfl, .refl hready, h.calm⟩
  · rcases Connection.write_spec hready h.writes hb e with ⟨-, hr, hl, hcalm⟩ | ⟨-, -, hno⟩ | ⟨-, -, hfails, -⟩
    · exact ⟨hr, hl, hcalm⟩
    · exact absurd hwilling hno
    · exact absurd hwilling hfails.unwilling

theorem Stream.AppendsTo.flush {c' : Connection} {r : Except StreamError Unit} (h : u.AppendsTo i sys)
    (hfile : sys.HasFile i data) (hroom : data.length + u.pending.length ≤ sys.largestOffset)
    (e : Connection.flush ⟨u, sys⟩ = (c', r)) :
    r = .ok () ∧ (⟨u, sys⟩ : Connection).Lays c' [] ∧ c'.Calm := by
  rcases Connection.flush_spec (h.ready hfile) e with ⟨hr, hl, -, hcalm⟩ | ⟨-, -, hno⟩
  · exact ⟨hr, hl, hcalm h.calm⟩
  · exact absurd (h.willing hfile hroom) hno

theorem Stream.AppendsTo.close {r : Except StreamError Unit} (h : u.AppendsTo i sys) (hfile : sys.HasFile i data)
    (hroom : data.length + u.pending.length ≤ sys.largestOffset) (e : Connection.close ⟨u, sys⟩ = (sys', r)) :
    r = .ok () ∧ System.Appended u.fd i u.pending sys sys' := by
  obtain ⟨c₁, -, -, -, -, hdrops, hcase⟩ := Connection.close_spec (h.ready hfile) e
  rcases hcase with ⟨hr, hl, hpend⟩ | ⟨-, -, hno⟩
  · obtain ⟨more, happended, hbytes⟩ := h.appended hfile hl
    rw [hpend, List.append_nil, List.append_nil] at hbytes
    rw [hbytes]
    exact ⟨hr, happended.drops hdrops⟩
  · exact absurd (h.willing hfile hroom) hno

end OneStream

/-- What is pending of a stream, if there is one. -/
def pendingOf (u : Option Stream) : Bytes := (u.map Stream.pending).getD []

/-- Streams that have names append to the file `i`, which had `data`. They accepted `log`, of which `written`
is in the file already. -/
structure Appending (origin : System) (i : Nat) (data : Bytes) (log written : List (String × UInt8)) (sys : System)
    (held : String → Option Stream) : Prop where
  grows : origin.Grows sys
  largest : sys.largestOffset = origin.largestOffset
  file : sys.HasFile i (data ++ written.map Prod.snd)
  appends : ∀ name u, held name = some u → u.AppendsTo i sys
  apart : ∀ a b u v, a ≠ b → held a = some u → held b = some v → u.fd ≠ v.fd
  ledger : ∀ name, bytesOf name written ++ pendingOf (held name) = bytesOf name log

namespace Appending

variable {origin sys sys' : System} {i fd : Nat} {data more bytes : Bytes} {log written : List (String × UInt8)}
  {held : String → Option Stream} {name : String} {u v : Stream} {next : Option Stream}

/-- There is room for what is pending of a stream, and for bytes that are accepted after it. -/
theorem room {n : Nat} (ha : Appending origin i data log written sys held) (hu : held name = some u)
    (hroom : data.length + log.length + n ≤ origin.largestOffset) :
    (data ++ written.map Prod.snd).length + u.pending.length + n ≤ sys.largestOffset := by
  have hle := length_le_of_bytesOf ha.ledger name
  rw [hu] at hle
  have hle : written.length + u.pending.length ≤ log.length := hle
  rw [List.length_append, List.length_map, ha.largest]
  omega

/-- Another stream under a name, or none any more: it has a descriptor of its own. -/
theorem apart_update (hapart : ∀ a b u v, a ≠ b → held a = some u → held b = some v → u.fd ≠ v.fd)
    (hnext : ∀ v, next = some v → ∀ other u, other ≠ name → held other = some u → u.fd ≠ v.fd) :
    ∀ a b u v, a ≠ b → Function.update held name next a = some u → Function.update held name next b = some v →
      u.fd ≠ v.fd := by
  intro a b u v hab hu hv
  by_cases ha : a = name
  · subst ha
    rw [Function.update_self] at hu
    rw [Function.update_of_ne (Ne.symm hab)] at hv
    exact (hnext u hu b v (Ne.symm hab) hv).symm
  · rw [Function.update_of_ne ha] at hu
    by_cases hb : b = name
    · subst hb
      rw [Function.update_self] at hv
      exact hnext v hv a u ha hu
    · rw [Function.update_of_ne hb] at hv
      exact hapart a b u v hab hu hv

/-- One stream accepts bytes and puts some behind the file, and it goes on or it is gone; the others do not
notice. -/
theorem moves (ha : Appending origin i data log written sys held) (hu : held name = some u)
    (happended : System.Appended u.fd i more sys sys') (hbytes : u.pending ++ bytes = more ++ pendingOf next)
    (hnext : ∀ v, next = some v → v.AppendsTo i sys' ∧ v.fd = u.fd)
    (hroom : data.length + (log.length + bytes.length) ≤ origin.largestOffset) :
    Appending origin i data (log ++ tagged name bytes) (written ++ tagged name more) sys'
      (Function.update held name next) := by
  have hsize : (data ++ written.map Prod.snd ++ more).length ≤ sys.largestOffset := by
    have hle := ha.room hu (n := bytes.length) (by omega)
    have hlength := congrArg List.length hbytes
    rw [List.length_append, List.length_append] at hlength
    rw [List.length_append]
    omega
  have hfile : sys'.HasFile i (data ++ (written ++ tagged name more).map Prod.snd) := by
    rw [List.map_append, map_tagged, ← List.append_assoc]
    exact happended.file _ ha.file
  refine ⟨ha.grows.trans happended.grows, happended.largest.trans ha.largest, hfile, ?_, apart_update ha.apart ?_, ?_⟩
  · refine (Function.forall_update_iff held fun _ w => ∀ v, w = some v → v.AppendsTo i sys').2 ⟨?_, ?_⟩
    · exact fun v hv => (hnext v hv).1
    · exact fun other hne v hv => (ha.appends other v hv).grown ha.file happended (ha.apart other name v u hne hv hu) hsize
  · intro v hv other w hne hw
    rw [(hnext v hv).2]
    exact ha.apart other name w u hne hw hu
  · refine (Function.forall_update_iff held fun other w =>
      bytesOf other (written ++ tagged name more) ++ pendingOf w = bytesOf other (log ++ tagged name bytes)).2 ⟨?_, ?_⟩
    · have hold := ha.ledger name
      rw [hu] at hold
      rw [bytesOf_append, bytesOf_append, bytesOf_tagged, bytesOf_tagged, if_pos rfl, if_pos rfl, List.append_assoc,
        ← hbytes, ← hold, List.append_assoc]
      rfl
    · intro other hne
      rw [bytesOf_append, bytesOf_append, bytesOf_tagged, bytesOf_tagged, if_neg (Ne.symm hne), if_neg (Ne.symm hne),
        List.append_nil, List.append_nil]
      exact ha.ledger other

theorem accepts {c' : Connection} (ha : Appending origin i data log written sys held) (hu : held name = some u)
    (hl : (⟨u, sys⟩ : Connection).Lays c' bytes) (hcalm : c'.Calm)
    (hroom : data.length + (log.length + bytes.length) ≤ origin.largestOffset) :
    ∃ more, Appending origin i data (log ++ tagged name bytes) (written ++ tagged name more) c'.system
      (Function.update held name (some c'.stream)) := by
  obtain ⟨u', sys'⟩ := c'
  have happends := ha.appends name u hu
  obtain ⟨more, happended, hbytes⟩ := happends.appended ha.file hl
  refine ⟨more, ha.moves hu happended hbytes (fun v hv => ?_) hroom⟩
  cases hv
  exact ⟨happends.lays ha.file hl hcalm, hl.through.stream.fd⟩

/-- A stream is closed, and has put behind the file what was pending. A stream that is not held yet does not
notice. -/
theorem closes {r : Except StreamError Unit} (ha : Appending origin i data log written sys held)
    (hu : held name = some u) (hroom : data.length + log.length ≤ origin.largestOffset)
    (e : Connection.close ⟨u, sys⟩ = (sys', r)) :
    r = .ok () ∧
      Appending origin i data log (written ++ tagged name u.pending) sys' (Function.update held name none) ∧
      ∀ v : Stream, v.AppendsTo i sys → v.fd ≠ u.fd → v.AppendsTo i sys' := by
  have hle := ha.room hu (n := 0) hroom
  obtain ⟨hr, happended⟩ := (ha.appends name u hu).close ha.file hle e
  have hbytes : u.pending ++ [] = u.pending ++ pendingOf none := rfl
  have hmoved := ha.moves hu happended hbytes (fun v hv => by cases hv) hroom
  rw [tagged, List.map_nil, List.append_nil] at hmoved
  refine ⟨hr, hmoved, fun v hv hfd => hv.grown ha.file happended hfd ?_⟩
  rw [List.length_append]
  exact hle

/-- A stream that appends, and has accepted nothing yet, gets a name. -/
theorem adds (ha : Appending origin i data log written sys held) (hfree : held name = none) (hv : v.AppendsTo i sys)
    (hpend : v.pending = []) (hfds : ∀ other u, held other = some u → u.fd ≠ v.fd) :
    Appending origin i data log written sys (Function.update held name (some v)) := by
  refine ⟨ha.grows, ha.largest, ha.file, ?_, apart_update ha.apart ?_, ?_⟩
  · refine (Function.forall_update_iff held fun _ w => ∀ u, w = some u → u.AppendsTo i sys).2 ⟨?_, ?_⟩
    · exact fun u hu => Option.some.inj hu ▸ hv
    · exact fun other _ => ha.appends other
  · intro u hu other w _ hw
    rw [← Option.some.inj hu]
    exact hfds other w hw
  · refine (Function.forall_update_iff held fun other w =>
      bytesOf other written ++ pendingOf w = bytesOf other log).2 ⟨?_, fun other _ => ha.ledger other⟩
    have hold := ha.ledger name
    rw [hfree] at hold
    show bytesOf name written ++ v.pending = bytesOf name log
    rw [hpend]
    exact hold

end Appending

end BufferedFiles
