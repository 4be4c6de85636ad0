import BufferedFiles.Proofs.StreamMoves

/-!
# The supply of a stream

What a stream has read ahead and what its device still has to give make one supply, and input takes
bytes from its front. Whether they come out of the window or past it, and in how many reads of the
device, makes no difference to what is taken and to what is left.
-/
namespace BufferedFiles

namespace Content

variable {content content' : Content} {bytes : Bytes} {position n : Nat} {fed : Bool}

/-- What a device has to give behind a position. -/
def supply (content : Content) (position : Nat) : Supply :=
  match content with
  | .regular data => .bytes (data.drop position)
  | .pipe queue => .bytes queue
  | .channel coming _ => .bytes coming
  | .null | .directory => .bytes []
  | .zero | .full => .zeros

/-- A read gives a start of the supply, and the rest stays. It gives something unless nothing is left. -/
theorem supply_fetch (h : content.fetch position n fed = .ok (bytes, content')) :
    bytes = (content.supply position).take bytes.length ∧
      (bytes = [] → n = 0 ∨ (content.supply position).IsEmpty) ∧
      content'.supply (position + bytes.length) = (content.supply position).drop bytes.length := by
  cases content with
  | regular data =>
    obtain ⟨rfl, rfl⟩ := fetch_regular h
    refine ⟨?_, fun hnil => ?_, ?_⟩
    · rw [supply, Supply.take, List.length_take, ← List.take_eq_take_min]
    · exact (List.take_eq_nil_iff.1 hnil).imp_right (congrArg Supply.bytes)
    · simp only [supply, Supply.drop, List.drop_drop]
  | directory => cases h
  | pipe queue =>
    obtain ⟨rfl, rfl⟩ := fetch_pipe h
    refine ⟨?_, fun hnil => ?_, ?_⟩
    · rw [supply, Supply.take, List.length_take, ← List.take_eq_take_min]
    · exact (List.take_eq_nil_iff.1 hnil).imp_right (congrArg Supply.bytes)
    · simp only [supply, Supply.drop, List.length_take, Supply.bytes.injEq]
      by_cases hn : n ≤ queue.length
      · rw [Nat.min_eq_left hn]
      · rw [Nat.min_eq_right (by omega), List.drop_length, List.drop_eq_nil_iff]
        omega
  | channel coming arrivals =>
    obtain ⟨-, htaken, hnone, rfl⟩ := fetch_channel h
    exact ⟨htaken, fun hnil => (hnone hnil).imp_right (congrArg Supply.bytes), rfl⟩
  | null =>
    cases h
    exact ⟨rfl, fun _ => .inr rfl, rfl⟩
  | _ =>
    cases h
    refine ⟨by simp only [supply, Supply.take, List.length_replicate], fun hnil => .inl ?_, rfl⟩
    simpa using hnil

theorem fetch_supply (hdir : content ≠ .directory) (hfed : ∀ queue, content = .pipe queue → fed = false)
    (position n : Nat) : ∃ bytes content', content.fetch position n fed = .ok (bytes, content') := by
  cases content with
  | directory => exact absurd rfl hdir
  | pipe queue =>
    rw [hfed queue rfl]
    exact ⟨queue.take n, .pipe (queue.drop n), by simp [fetch]⟩
  | _ => exact ⟨_, _, rfl⟩

/-- What is left of a window over a file, and what the file has behind the device. -/
private theorem Covers.left_append {data window : Bytes} {position cursor : Nat}
    (h : (regular data).Covers window position) (hcursor : cursor ≤ window.length) :
    window.drop cursor ++ data.drop position = data.drop (position - (window.length - cursor)) := by
  obtain ⟨hle, hwin⟩ := h
  have hleft : window.drop cursor =
      (data.drop (position - (window.length - cursor))).take (window.length - cursor) := by
    conv => lhs; rw [hwin]
    rw [List.drop_take, List.drop_drop]
    congr 2
    omega
  have hrest : data.drop position =
      (data.drop (position - (window.length - cursor))).drop (window.length - cursor) := by
    rw [List.drop_drop]
    congr 1
    omega
  rw [hleft, hrest, List.take_append_drop]

end Content

namespace System

variable {sys sys' : System} {fd : Nat} {d : Descriptor} {dev : Device} {i : Nat}

/-- The descriptor reads a device that gives all it has: it never fails, it is no directory, and
nobody is there to feed it if it is a pipe. -/
structure Source (sys : System) (d : Descriptor) (dev : Device) : Prop where
  readable : d.readable = true
  reliable : dev.Reliable
  file : dev.content ≠ .directory
  unfed : ∀ queue, dev.content = .pipe queue → sys.anyDescriptor d.device (·.writable) = false

theorem Source.through (h : sys.Source d dev) (ht : Through fd sys sys') {dev' : Device} {p : Nat}
    (hb : dev.Becomes dev') : sys'.Source { d with position := p } dev' where
  readable := h.readable
  reliable := hb.reliable h.reliable
  file hdir := h.file (hdir ▸ hb.kind).symm.eq_directory
  unfed queue hpipe := by
    obtain ⟨queue₀, hc⟩ := (hpipe ▸ hb.kind).symm.eq_pipe
    rw [ht.anyDescriptor (fun _ _ => rfl)]
    exact h.unfed queue₀ hc

/-- `sys'` is `sys` after `bytes` were read from a source, of which `n` were asked for. -/
structure Yields (sys sys' : System) (fd n : Nat) (d : Descriptor) (dev dev' : Device)
    (bytes : Bytes) : Prop where
  through : Through fd sys sys'
  count : bytes.length ≤ n
  taken : bytes = (dev.content.supply d.position).take bytes.length
  none : bytes = [] → n = 0 ∨ (dev.content.supply d.position).IsEmpty
  opened : sys'.opened? fd = some ({ d with position := d.position + bytes.length }, dev')
  source : sys'.Source { d with position := d.position + bytes.length } dev'
  received : dev'.received = dev.received
  supply : dev'.content.supply (d.position + bytes.length) =
    (dev.content.supply d.position).drop bytes.length
  file : ∀ data, dev.content = .regular data → dev'.content = .regular data
  kind : dev'.content.isRegular = dev.content.isRegular
  covers : dev'.content.Covers bytes (d.position + bytes.length)
  within : ∀ limit, dev.content.Within d.position limit →
    dev'.content.Within (d.position + bytes.length) limit

theorem read_source (h : sys.opened? fd = some (d, dev)) (hs : sys.Source d dev) {n : Nat}
    (haddr : dev.content.addresses d.position n = true) :
    ∃ sys' dev' bytes, sys.read fd n = (sys', .ok bytes) ∧ sys.Yields sys' fd n d dev dev' bytes := by
  obtain ⟨bytes, content, hfetch⟩ := Content.fetch_supply hs.file hs.unfed d.position n
  obtain ⟨sys', hread⟩ := read_reliable h hs.readable hs.reliable haddr hfetch
  obtain ⟨hthrough, -, content', hfetch', ho⟩ := read_ok h hread
  rw [hfetch] at hfetch'
  cases hfetch'
  obtain ⟨hcount, hkind⟩ := Content.fetch_ok hfetch
  obtain ⟨htaken, hnone, hrest⟩ := Content.supply_fetch hfetch
  refine ⟨sys', _, bytes, hread, hthrough, hcount, htaken, hnone, ho,
    hs.through hthrough (becomes_fetch hfetch), rfl, hrest, fun data hc => ?_, hkind.isRegular,
    Content.covers_fetch hfetch, fun _ => Content.within_fetch hfetch⟩
  rw [hc] at hfetch
  exact (Content.fetch_regular hfetch).1

end System

namespace Account

/-- The account after bytes were taken. -/
def advance (a : Account) (n : Nat) : Account := { a with file := a.file.map (·.advance n) }

@[simp] theorem advance_zero (a : Account) : a.advance 0 = a := by
  simp [advance]

theorem advance_advance (a : Account) (n m : Nat) : (a.advance n).advance m = a.advance (n + m) := by
  simp only [advance, Option.map_map]
  congr 2
  funext f
  exact f.advance_advance n m

end Account

namespace Connection

variable {c c' a b : Connection} {d d' : Descriptor} {dev dev' : Device} {bytes out : Bytes} {n k : Nat}

/-- What the stream still has to give. -/
def supply (c : Connection) : Supply :=
  match c.system.opened? c.stream.fd with
  | some (d, dev) => (dev.content.supply d.position).behind c.stream.left
  | none => .bytes []

theorem supply_eq (h : c.system.opened? c.stream.fd = some (d, dev)) :
    c.supply = (dev.content.supply d.position).behind c.stream.left := by
  simp only [supply, h]

/-- What a stream for input has left of a file is what is behind the position. -/
theorem On.supply_file {f : PlainFile} (h : c.On d dev) (hp : c.stream.pending = [])
    (hf : c.account.file = some f) : c.supply = .bytes f.rest := by
  have hcovers := h.fits.covers_of_drained hp
  rw [account_of_drained hp, standing_eq h.opened] at hf
  obtain ⟨hc, hplace⟩ := Content.file?_eq_some hf
  rw [hc] at hcovers
  rw [supply_eq h.opened, hc, PlainFile.rest, hplace, Stream.length_left]
  exact congrArg Supply.bytes (hcovers.left_append h.fits.cursor)

/-- A stream over a source, with nothing pending and no failure to report. It keeps no position the
device may have left, and where it remembers the end of the device, there is nothing left. -/
structure Gives (c : Connection) : Prop where
  on : ∃ d dev, c.On d dev ∧ c.system.Source d dev ∧
    (c.stream.offset = none ∨ d.appending = c.stream.appends)
  reads : c.stream.reads = true
  drained : c.stream.pending = []
  calm : c.stream.writing = true → c.stream.left = []
  quiet : c.stream.failed = false ∧ c.stream.held = none
  ended : c.stream.atEnd = true → c.supply.IsEmpty
  buffer : c.stream.bufferSize ≤ blockSize

/-- The place of a file is so far from the largest position that `n` bytes can be read, in whatever
pieces. -/
def Reaches (c : Connection) (n : Nat) : Prop :=
  ∀ f, c.account.file = some f → f.position + n + blockSize ≤ largestPosition

theorem Reaches.mono {k : Nat} (h : c.Reaches n) (hk : k ≤ n) : c.Reaches k := fun f hf => by
  have := h f hf
  omega

/-- As long as the stream stays within its file, `n` bytes can be read. -/
def Affords (c : Connection) (n : Nat) : Prop :=
  ∀ f, c.account.file = some f → max f.position f.contents.length + n + blockSize ≤ largestPosition

theorem Affords.mono {k : Nat} (h : c.Affords n) (hk : k ≤ n) : c.Affords k := fun f hf => by
  have := h f hf
  omega

theorem Affords.reaches (h : c.Affords n) : c.Reaches n := fun f hf => by
  have := h f hf
  omega

/-- `b` is `a` after `out` was taken from the front of its supply. -/
structure Draws (a b : Connection) (out : Bytes) : Prop where
  through : a.Through b
  gives : b.Gives
  taken : out = a.supply.take out.length
  supply : b.supply = a.supply.drop out.length
  account : b.account = a.account.advance out.length

theorem Draws.refl (h : c.Gives) : c.Draws c [] :=
  ⟨.refl c, h, (Supply.take_zero _).symm, (Supply.drop_zero _).symm, (Account.advance_zero _).symm⟩

theorem Draws.trans {xs ys : Bytes} (h : a.Draws b xs) (h' : b.Draws c ys) : a.Draws c (xs ++ ys) where
  through := h.through.trans h'.through
  gives := h'.gives
  taken := by rw [List.length_append, ← Supply.take_append_take, ← h.taken, ← h.supply, ← h'.taken]
  supply := by rw [h'.supply, h.supply, Supply.drop_drop, List.length_append]
  account := by rw [h'.account, h.account, Account.advance_advance, List.length_append]

/-- What is taken after a start of the supply was taken is the rest of what is taken at once. -/
theorem Draws.take (h : a.Draws b out) (hn : out.length ≤ n) :
    a.supply.take n = out ++ b.supply.take (n - out.length) := by
  conv => rhs; arg 1; rw [h.taken]
  rw [h.supply, Supply.take_append_take, Nat.add_sub_cancel' hn]

/-- What is still to be read of some bytes is within reach as they were. -/
theorem Draws.reaches (h : a.Draws b out) (hn : out.length ≤ n) (hr : a.Reaches n) :
    b.Reaches (n - out.length) := by
  intro f hf
  rw [h.account, Account.advance, Option.map_eq_some_iff] at hf
  obtain ⟨f₀, hf₀, rfl⟩ := hf
  have hfits := hr f₀ hf₀
  simp only [PlainFile.advance]
  omega

theorem Draws.affords (hg : a.Gives) (h : a.Draws b out) (ha : a.Affords n) : b.Affords n := by
  intro f hf
  obtain ⟨d, dev, hon, -, -⟩ := hg.on
  rw [h.account, Account.advance, Option.map_eq_some_iff] at hf
  obtain ⟨f₀, hf₀, rfl⟩ := hf
  have hfits := ha f₀ hf₀
  have hlen := congrArg List.length h.taken
  rw [hon.supply_file hg.drained hf₀, Supply.take, List.length_take, PlainFile.rest, List.length_drop] at hlen
  simp only [PlainFile.advance]
  omega

/-- Nothing stands behind the cursor but what was read. -/
theorem Gives.ahead (h : c.Gives) : c.stream.ahead = c.stream.left := Stream.ahead_of_calm h.calm

/-- What is left of a window over zeros is zeros. -/
private theorem left_of_zeros (h : c.On d dev) (hp : c.stream.pending = [])
    (hz : dev.content.supply d.position = .zeros) :
    c.stream.left = List.replicate c.stream.left.length 0 := by
  have hcovers := h.fits.covers_of_drained hp
  have hwin : c.stream.window = List.replicate c.stream.window.length 0 := by
    cases hc : dev.content with
    | zero =>
      rw [hc] at hcovers
      exact hcovers
    | full =>
      rw [hc] at hcovers
      exact hcovers
    | _ =>
      rw [hc] at hz
      cases hz
  rw [Stream.length_left, Stream.left, hwin, List.drop_replicate, List.length_replicate]

/-- What is read ahead is the front of the supply. -/
theorem Gives.take_left (h : c.Gives) (hn : n ≤ c.stream.left.length) :
    c.supply.take n = c.stream.left.take n := by
  obtain ⟨d, dev, hon, -, -⟩ := h.on
  rw [supply_eq hon.opened]
  exact Supply.take_behind (left_of_zeros hon h.drained) hn

/-- A stream and its device after some of the supply was taken. -/
private theorem draws_of_on (h : c.Gives) (hon : c.On d dev) (hthrough : c.Through c')
    (hon' : c'.On d' dev') (hsource : c'.system.Source d' dev')
    (hknown : c'.stream.offset = none ∨ d'.appending = c'.stream.appends)
    (hreceived : dev'.received = dev.received)
    (hfile : ∀ data, dev.content = .regular data → dev'.content = .regular data ∧
      d'.position - c'.stream.left.length = d.position - c.stream.left.length + out.length)
    (htaken : out = c.supply.take out.length) (hsupply : c'.supply = c.supply.drop out.length)
    (hpend : c'.stream.pending = []) (hcalm : c'.stream.writing = true → c'.stream.left = [])
    (hquiet : c'.stream.failed = c.stream.failed ∧ c'.stream.held = c.stream.held)
    (hended : c'.stream.atEnd = true → c'.supply.IsEmpty) :
    c.Draws c' out := by
  obtain ⟨p, dev₀, ho, hb⟩ := hthrough.opened hon.opened
  rw [hon'.opened] at ho
  cases ho
  refine ⟨hthrough, ⟨⟨_, dev', hon', hsource, hknown⟩, hthrough.stream.reads.trans h.reads, hpend, hcalm,
    ⟨hquiet.1.trans h.quiet.1, hquiet.2.trans h.quiet.2⟩, hended,
    (hthrough.buffer d dev hon.opened).symm ▸ h.buffer⟩, htaken, hsupply, ?_⟩
  rw [account_of_drained hpend, account_of_drained h.drained, standing_eq hon.opened,
    standing_eq hon'.opened]
  have hkind := hb.kind.isRegular
  cases hr : dev.content.isRegular with
  | true =>
    obtain ⟨data, hc⟩ := Content.isRegular_iff.1 hr
    obtain ⟨hc', hp⟩ := hfile data hc
    simp only [Account.ofPort, Account.advance, hc, hc', hreceived, Content.file?, Option.map_some,
      PlainFile.advance, ← hp]
  | false =>
    rw [hr] at hkind
    simp only [Account.ofPort, Account.advance, Content.file?_eq_none hr, Content.file?_eq_none hkind,
      hreceived, Option.map_none]

/-- Taking from what was read ahead moves the cursor and nothing else. -/
theorem skip_spec (h : c.Gives) (hk : k ≤ c.stream.left.length) :
    c.Draws (c.update (·.skip k)) (c.stream.left.take k) := by
  obtain ⟨d, dev, hon, hsource, hknown⟩ := id h.on
  have hlen := Stream.length_left c.stream
  have hcursor := hon.fits.cursor
  have htake : (c.stream.left.take k).length = k := by
    rw [List.length_take]
    omega
  have hleft : (c.update (·.skip k)).stream.left = c.stream.left.drop k := List.drop_drop.symm
  have hon' : (c.update (·.skip k)).On d dev :=
    ⟨hon.toOver.work rfl rfl, { hon.fits with cursor := by simp only [update, Stream.skip]; omega }⟩
  have hsupply : (c.update (·.skip k)).supply = c.supply.drop k := by
    rw [supply_eq hon'.opened, supply_eq hon.opened, hleft, Supply.drop_behind _ hk]
  refine draws_of_on h hon (through_skip c k) hon' hsource hknown rfl (fun data hc => ⟨hc, ?_⟩) ?_ ?_ h.drained
    (fun hw => ?_) ⟨rfl, rfl⟩ fun hend => ?_
  · have hcovers := hon.fits.covers_of_drained h.drained
    rw [hc] at hcovers
    have hle := hcovers.1
    rw [hleft, htake, List.length_drop]
    omega
  · rw [htake, h.take_left hk]
  · rw [htake, hsupply]
  · rw [hleft, h.calm hw, List.drop_nil]
  · have hnone : c.supply = .bytes [] := h.ended hend
    rw [hsupply, hnone]
    exact congrArg Supply.bytes List.drop_nil

/-- A stream with nothing pending ends its output without a look at the device. -/
theorem endOutput_of_drained (hp : c.stream.pending = []) :
    c.endOutput = (c.update ({ · with writing := false }), true) := by
  unfold endOutput
  rw [drain_of_drained hp]
  split
  · rename_i hw
    have hw : c.stream.writing = false := by simpa using hw
    rcases c with ⟨s, sys⟩
    cases s
    cases hw
    rfl
  · rfl

theorem draws_allocate (h : c.Gives) :
    c.Draws c.allocate [] ∧ c.allocate.stream.capacity ≠ 0 ∧ c.allocate.stream.left = c.stream.left ∧
      c.allocate.stream.writing = c.stream.writing := by
  obtain ⟨d, dev, hon, hsource, hknown⟩ := id h.on
  have hon' := hon.allocate
  have hthrough := through_allocate c
  rw [allocate_eq hon.opened] at hon' hthrough ⊢
  refine ⟨?_, c.stream.bufferSize_ne_zero, rfl, rfl⟩
  refine draws_of_on h hon hthrough hon' hsource hknown rfl (fun data hc => ⟨hc, rfl⟩) ?_ ?_ h.drained
    h.calm ⟨rfl, rfl⟩ h.ended
  · exact (Supply.take_zero _).symm
  · exact (Supply.drop_zero _).symm

private theorem draws_idle (h : c.Gives) : c.Draws (c.update ({ · with writing := false })) [] := by
  obtain ⟨d, dev, hon, hsource, hknown⟩ := id h.on
  have hon' : (c.update ({ · with writing := false })).On d dev :=
    ⟨hon.toOver.work rfl rfl, { hon.fits with input := fun _ => h.drained }⟩
  refine draws_of_on h hon (through_work c .working) hon' hsource
    hknown rfl (fun data hc => ⟨hc, rfl⟩) ?_ ?_ h.drained nofun ⟨rfl, rfl⟩ h.ended
  · exact (Supply.take_zero _).symm
  · exact (Supply.drop_zero _).symm

/-- The descriptor of a source appends as its stream does, where the stream knows its place. -/
private theorem Gives.known (h : c.Gives) (hon : c.On d dev) :
    c.stream.offset = none ∨ d.appending = c.stream.appends := by
  obtain ⟨d₀, dev₀, hon₀, -, hknown⟩ := h.on
  have ho := hon₀.opened
  rw [hon.opened] at ho
  cases ho
  exact hknown

/-- What a read of the device leaves, when nothing was read ahead: what was got is given out, or kept
in the window. -/
private theorem draws_of_read {sys : System} {got window : Bytes} {atEnd : Bool} {offset : Option Nat}
    (h : c.Gives) (hon : c.On d dev) (hleft : c.stream.left = [])
    (hy : c.system.Yields sys c.stream.fd n d dev dev' got)
    (hkept : window = [] ∧ out = got ∨ window = got ∧ out = [] ∧ c.stream.writing = false)
    (hcap : window.length ≤ c.stream.capacity)
    (hoffset : offset = none ∨ offset = c.stream.offset.map (· + got.length))
    (hended : atEnd = true → c.supply.IsEmpty) :
    c.Draws ⟨{ c.stream.emptied with window, atEnd, offset }, sys⟩ out := by
  have hplain : c.supply = dev.content.supply d.position := by
    rw [supply_eq hon.opened, hleft, Supply.behind_nil]
  have hgot : got = c.supply.take got.length := by
    rw [hplain]
    exact hy.taken
  have hknown := h.known hon
  have hon' : (⟨{ c.stream.emptied with window, atEnd, offset }, sys⟩ : Connection).On
      { d with position := d.position + got.length } dev' := by
    refine ⟨⟨hy.opened, hon.appending, by rw [hy.through.largestOffset]; exact hy.within _ hon.within⟩,
      ⟨Nat.zero_le _, hcap, fun _ => rfl, .inr ?_, ?_⟩⟩
    · rcases hkept with ⟨rfl, -⟩ | ⟨rfl, -, -⟩
      · exact Content.covers_nil _ _
      · exact hy.covers
    · intro p hp hreg _
      have hp : offset = some p := hp
      rcases hoffset with hnone | hsome
      · rw [hnone] at hp
        cases hp
      · rw [hsome, Option.map_eq_some_iff] at hp
        obtain ⟨q, hq, rfl⟩ := hp
        have happ := hknown.resolve_left (by rw [hq]; exact nofun)
        rw [hon.fits.offset q hq (hy.kind ▸ hreg) (.inr happ)]
  have hsupply : (⟨{ c.stream.emptied with window, atEnd, offset }, sys⟩ : Connection).supply =
      c.supply.drop out.length := by
    rw [supply_eq hon'.opened]
    change (dev'.content.supply (d.position + got.length)).behind window = _
    rw [hy.supply, ← hplain]
    rcases hkept with ⟨rfl, rfl⟩ | ⟨rfl, rfl, -⟩
    · exact Supply.behind_nil _
    · conv => lhs; arg 2; rw [hgot]
      rw [Supply.behind_take]
      exact (Supply.drop_zero _).symm
  refine draws_of_on h hon ⟨.working, hy.through, fun _ _ _ => rfl⟩ hon' hy.source ?_
    hy.received (fun data hc => ⟨hy.file data hc, ?_⟩) ?_ hsupply rfl (fun hw => ?_) ⟨rfl, rfl⟩
    fun hend => ?_
  · rcases hoffset with hnone | hsome
    · exact .inl hnone
    · exact hknown.imp_left fun hnone => by rw [hsome, hnone, Option.map_none]
  · change d.position + got.length - window.length = d.position - c.stream.left.length + out.length
    rw [hleft, List.length_nil]
    rcases hkept with ⟨rfl, rfl⟩ | ⟨rfl, rfl, -⟩
    · rfl
    · exact Nat.add_sub_cancel _ _
  · rcases hkept with ⟨-, rfl⟩ | ⟨-, rfl, -⟩
    · exact hgot
    · exact (Supply.take_zero _).symm
  · rcases hkept with ⟨rfl, -⟩ | ⟨-, -, hno⟩
    · rfl
    · have hw : c.stream.writing = true := hw
      rw [hno] at hw
      cases hw
  · rw [hsupply]
    exact (hended hend).drop _

/-- A read of the device with nothing read ahead. -/
private theorem read_spec {k : Nat} (h : c.Gives) (hleft : c.stream.left = []) (hr : c.Reaches n)
    (hk : k ≤ n + blockSize) :
    ∃ d dev dev' sys got, c.On d dev ∧ c.system.read c.stream.fd k = (sys, .ok got) ∧
      c.system.Yields sys c.stream.fd k d dev dev' got ∧ (got = [] → k = 0 ∨ c.supply.IsEmpty) := by
  obtain ⟨d, dev, hon, hsource, -⟩ := h.on
  have haddr : dev.content.addresses d.position k = true := by
    refine Content.addresses_of_le fun hplaces => ?_
    obtain ⟨data, hc⟩ := Content.isRegular_iff.1 (hplaces.resolve_right hsource.file)
    have hfits := hr _ (account_file hon.opened hc)
    rw [h.drained, PlainFile.write_nil, hleft, List.length_nil] at hfits
    simp only at hfits
    omega
  obtain ⟨sys, dev', got, hread, hy⟩ := System.read_source hon.opened hsource haddr
  refine ⟨d, dev, dev', sys, got, hon, hread, hy, ?_⟩
  rw [supply_eq hon.opened, hleft, Supply.behind_nil]
  exact hy.none

/-- A window is filled as long as there is something left; nothing is given out by that. -/
theorem fill_spec {more : Bool} (h : c.Gives) (hleft : c.stream.left = []) (hr : c.Reaches n)
    (e : c.fill = (c', more)) :
    c.Draws c' [] ∧ (more = true → c'.stream.left ≠ []) ∧ (more = false → c.supply.IsEmpty) := by
  have hidle := draws_idle h
  obtain ⟨hready, hcap, hkeep, hw⟩ := draws_allocate hidle.gives
  have h₁ := hidle.trans hready
  have hreads : (!(c.update ({ · with writing := false })).stream.reads) = false := by
    rw [hidle.gives.reads]
    rfl
  simp only [fill, endOutput_of_drained h.drained, hreads, Bool.false_eq_true, if_false] at e
  split at e
  · rename_i hend
    cases e
    exact ⟨hidle, nofun, fun _ => h.ended hend⟩
  have hsame : c.supply = (c.update ({ · with writing := false })).allocate.supply := by
    rw [h₁.supply]
    exact (Supply.drop_zero _).symm
  rw [hsame]
  have hleft₁ := hkeep.trans hleft
  have hr₁ := h₁.reaches (Nat.zero_le n) hr
  generalize (c.update ({ · with writing := false })).allocate = c₁ at e h₁ hcap hleft₁ hw hr₁
  have hbuffer := Nat.le_trans c₁.stream.capacity_le_bufferSize h₁.gives.buffer
  obtain ⟨d, dev, dev', sys, got, hon, hread, hy, hnone⟩ :=
    read_spec h₁.gives hleft₁ hr₁ (k := c₁.stream.capacity) (by omega)
  have hlen := hy.count
  rw [hread] at e
  cases got with
  | nil =>
    cases e
    have hempty : c₁.supply.IsEmpty := (hnone rfl).resolve_left hcap
    exact ⟨h₁.trans (draws_of_read h₁.gives hon hleft₁ hy (.inl ⟨rfl, rfl⟩) (Nat.zero_le _)
      (.inl rfl) fun _ => hempty), nofun, fun _ => hempty⟩
  | cons b rest =>
    cases e
    exact ⟨h₁.trans (draws_of_read h₁.gives hon hleft₁ hy (.inr ⟨rfl, rfl, hw⟩) hlen
      (.inr rfl) h₁.gives.ended), fun _ => nofun, nofun⟩

/-- What is read past an empty window is given out at once. -/
theorem readPast_spec {k : Nat} (h : c.Gives) (hleft : c.stream.left = []) (hr : c.Reaches n) (hk : k ≤ n)
    (hk₀ : k ≠ 0) (e : c.readPast k = (c', bytes)) :
    c.Draws c' bytes ∧ bytes.length ≤ k ∧ (bytes = [] → c.supply.IsEmpty) := by
  obtain ⟨d, dev, dev', sys, got, hon, hread, hy, hnone⟩ := read_spec h hleft hr (k := k) (by omega)
  have hlen := hy.count
  have hread : c.system.read c.stream.emptied.fd k = (sys, .ok got) := hread
  rw [readPast, hread] at e
  cases got with
  | nil =>
    cases e
    have hempty : c.supply.IsEmpty := (hnone rfl).resolve_left hk₀
    have hoffset : c.stream.offset = c.stream.offset.map (· + ([] : Bytes).length) := by
      cases c.stream.offset <;> rfl
    exact ⟨draws_of_read h hon hleft hy (.inl ⟨rfl, rfl⟩) (Nat.zero_le _) (.inr hoffset)
      fun _ => hempty, hlen, fun _ => hempty⟩
  | cons b rest =>
    cases e
    exact ⟨draws_of_read h hon hleft hy (.inl ⟨rfl, rfl⟩) (Nat.zero_le _) (.inr rfl) h.ended, hlen, nofun⟩

theorem direct_ne_zero {s : Stream} (hs : s.capacity ≠ 0) (hn : s.capacity ≤ n) : s.direct n ≠ 0 := by
  unfold Stream.direct
  split
  · have := Nat.mod_lt n (Nat.pos_of_ne_zero hs)
    omega
  · omega

/-- What was read ahead is taken first, and all of it where more is asked for. -/
theorem skip_front (h : c.Gives) (n : Nat) :
    c.Draws (c.update (·.skip (c.stream.left.take n).length)) (c.stream.left.take n) ∧
      (c.stream.left.take n).length ≤ n ∧
      ((c.stream.left.take n).length < n →
        (c.update (·.skip (c.stream.left.take n).length)).stream.left = []) ∧
      (c.stream.left ≠ [] → n ≠ 0 → (c.stream.left.take n).length ≠ 0) := by
  have hlen : (c.stream.left.take n).length = min n c.stream.left.length := List.length_take
  have h₁ := skip_spec h (k := (c.stream.left.take n).length) (by omega)
  rw [hlen, ← List.take_eq_take_min, ← hlen] at h₁
  have hleft : (c.update (·.skip (c.stream.left.take n).length)).stream.left =
      c.stream.left.drop (c.stream.left.take n).length := List.drop_drop.symm
  refine ⟨h₁, by omega, fun hlt => ?_, fun hne hn => ?_⟩
  · rw [hleft, List.drop_eq_nil_iff]
    omega
  · have := List.length_pos_iff.2 hne
    omega

/-- What `rounds` rounds of taking do, where they are enough. A window with something left saves one. -/
private def RoundsTake (rounds : Nat) : Prop :=
  ∀ {c c' : Connection} {n : Nat} {out : Bytes}, c.Gives → c.stream.capacity ≠ 0 → c.Reaches n →
    n < rounds ∨ n ≤ rounds ∧ c.stream.left ≠ [] → takeRounds rounds c n = (c', out) →
    c.Draws c' out ∧ out = c.supply.take n

/-- A round that fills the window, when nothing is left of it, and the rounds after it. -/
private theorem fill_round {rounds : Nat} {found : Bytes} (ih : RoundsTake rounds) (h : c.Gives)
    (hcap : c.stream.capacity ≠ 0) (hr : c.Reaches n) (hleft : c.stream.left = []) (hn : n ≤ rounds)
    (e : (match c.fill with
      | (c, false) => (c, found)
      | (c, true) =>
        let (c, more) := takeRounds rounds c n
        (c, found ++ more)) = (c', out)) :
    ∃ more, out = found ++ more ∧ c.Draws c' more ∧ more = c.supply.take n := by
  rcases hfill : c.fill with ⟨c₁, more⟩
  obtain ⟨h₁, hwindow, hnone⟩ := fill_spec h hleft hr hfill
  rw [hfill] at e
  cases more with
  | false =>
    cases e
    exact ⟨[], (List.append_nil _).symm, h₁, (Supply.take_eq_nil_iff.2 (.inr (hnone rfl))).symm⟩
  | true =>
    rcases hrest : takeRounds rounds c₁ n with ⟨c₂, last⟩
    simp only [hrest, Prod.mk.injEq] at e
    obtain ⟨rfl, rfl⟩ := e
    have hcap₁ : c₁.stream.capacity ≠ 0 := by rwa [h₁.through.stream.capacity hcap]
    obtain ⟨h₂, hlast⟩ := ih h₁.gives hcap₁ (h₁.reaches (Nat.zero_le n) hr) (.inr ⟨hn, hwindow rfl⟩) hrest
    rw [h₁.supply, List.length_nil, Supply.drop_zero] at hlast
    exact ⟨last, rfl, h₁.trans h₂, hlast⟩

/-- A round that reads past the buffer, when nothing is left in it, and the rounds after it. -/
private theorem past_round {rounds : Nat} {found : Bytes} (ih : RoundsTake rounds) (h : c.Gives)
    (hcap : c.stream.capacity ≠ 0) (hr : c.Reaches n) (hleft : c.stream.left = []) (hn : n ≤ rounds)
    (hbig : c.stream.capacity ≤ n)
    (e : (match c.readPast (c.stream.direct n) with
      | (c, []) => (c, found)
      | (c, bytes) =>
        let (c, more) := takeRounds rounds c (n - bytes.length)
        (c, found ++ bytes ++ more)) = (c', out)) :
    ∃ more, out = found ++ more ∧ c.Draws c' more ∧ more = c.supply.take n := by
  rcases hpast : c.readPast (c.stream.direct n) with ⟨c₁, bytes⟩
  have hdirect := direct_le c.stream n
  obtain ⟨h₁, hcount, hnone⟩ := readPast_spec h hleft hr hdirect (direct_ne_zero hcap hbig) hpast
  have hshort : bytes.length ≤ n := by omega
  rw [hpast] at e
  cases bytes with
  | nil =>
    cases e
    exact ⟨[], (List.append_nil _).symm, h₁, (Supply.take_eq_nil_iff.2 (.inr (hnone rfl))).symm⟩
  | cons b rest =>
    rcases hrest : takeRounds rounds c₁ (n - (b :: rest).length) with ⟨c₂, last⟩
    simp only [hrest, Prod.mk.injEq] at e
    obtain ⟨rfl, rfl⟩ := e
    have hcap₁ : c₁.stream.capacity ≠ 0 := by rwa [h₁.through.stream.capacity hcap]
    have hfewer : n - (b :: rest).length < rounds := by
      rw [List.length_cons] at hshort ⊢
      omega
    obtain ⟨h₂, rfl⟩ := ih h₁.gives hcap₁ (h₁.reaches hshort hr) (.inl hfewer) hrest
    exact ⟨_, List.append_assoc _ _ _, h₁.trans h₂, (h₁.take hshort).symm⟩

/-- Rounds of taking give a start of the supply. There have to be rounds enough; a window with
something left saves one. -/
theorem takeRounds_spec {rounds : Nat} (h : c.Gives) (hcap : c.stream.capacity ≠ 0) (hr : c.Reaches n)
    (hn : n < rounds ∨ n ≤ rounds ∧ c.stream.left ≠ []) (e : takeRounds rounds c n = (c', out)) :
    c.Draws c' out ∧ out = c.supply.take n := by
  induction rounds generalizing c c' n out with
  | zero =>
    have hzero : n = 0 := by omega
    cases e
    exact ⟨.refl h, by rw [hzero, Supply.take_zero]⟩
  | succ rounds ih =>
    simp only [takeRounds, h.ahead] at e
    obtain ⟨h₁, hle, hused, hsome⟩ := skip_front h n
    have hcap₁ : (c.update (·.skip (c.stream.left.take n).length)).stream.capacity ≠ 0 := hcap
    generalize c.update (·.skip (c.stream.left.take n).length) = c₁ at e h₁ hused hcap₁
    generalize c.stream.left.take n = found at e h₁ hle hused hsome
    rw [h₁.take hle]
    split at e
    · rename_i hdone
      cases e
      rw [hdone, Supply.take_zero, List.append_nil]
      exact ⟨h₁, rfl⟩
    rename_i hmore
    have hnil := hused (by omega)
    have hr₁ := h₁.reaches hle hr
    have hrounds : n - found.length ≤ rounds := by
      rcases hn with hlt | ⟨hle', hne⟩
      · omega
      · have := hsome hne (by omega)
        omega
    have hlater : ∃ more, out = found ++ more ∧ c₁.Draws c' more ∧
        more = c₁.supply.take (n - found.length) := by
      split at e
      · exact fill_round ih h₁.gives hcap₁ hr₁ hnil hrounds e
      · exact past_round ih h₁.gives hcap₁ hr₁ hnil hrounds (by omega) e
    obtain ⟨more, rfl, h₂, rfl⟩ := hlater
    exact ⟨h₁.trans h₂, rfl⟩

end Connection

end BufferedFiles
