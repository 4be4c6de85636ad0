import BufferedFiles.Proofs.PlainFile
import BufferedFiles.Proofs.StreamFrame

/-!
# What a buffer stands for

Between any two steps the window of a stream is a copy of what lies before the position of its
device, and what is pending follows the cursor. So the stream and its device stand for one account:
the bytes the device received, and for a regular file its bytes and a position, with what is pending
laid down already. Operations are told apart by what they do to the account.
-/
namespace BufferedFiles

namespace Content

/-- The window holds what was read from the device before its position. -/
def Covers (content : Content) (window : Bytes) (position : Nat) : Prop :=
  match content with
  | .regular data =>
    window.length ≤ position ∧ window = (data.drop (position - window.length)).take window.length
  | .pipe _ | .channel _ _ => True
  | .zero | .full => window = List.replicate window.length 0
  | .null | .directory => window = []

theorem covers_immobile {content : Content} (h : content.isMobile = false) (window : Bytes) (position : Nat) :
    content.Covers window position := by
  cases content with
  | pipe queue => trivial
  | channel coming arrivals => trivial
  | _ => cases h

theorem covers_nil (content : Content) (position : Nat) : content.Covers [] position := by
  cases content with
  | regular data => exact ⟨Nat.zero_le _, rfl⟩
  | pipe queue => trivial
  | channel coming arrivals => trivial
  | _ => rfl

/-- Only a file cares for the position. -/
theorem Covers.elsewhere {content : Content} {window : Bytes} {p q : Nat}
    (h : content.Covers window p) (hq : content.isRegular = true → q = p) : content.Covers window q := by
  cases content with
  | regular data =>
    rw [hq rfl]
    exact h
  | _ => exact h

/-- A file that fits the offsets, and a position that is one. -/
def Within (content : Content) (position largest : Nat) : Prop :=
  content.isRegular = true → content.size ≤ largest ∧ position ≤ largest

/-- What a regular file and a position in it come to. -/
def file? (content : Content) (position : Nat) : Option PlainFile :=
  match content with
  | .regular data => some ⟨data, position⟩
  | _ => none

theorem file?_eq_none {content : Content} (h : content.isRegular = false) (position : Nat) :
    content.file? position = none := by
  cases content with
  | regular data => cases h
  | _ => rfl

theorem file?_congr {content : Content} {p q : Nat} (h : content.isRegular = true → p = q) :
    content.file? p = content.file? q := by
  cases hreg : content.isRegular with
  | true => rw [h hreg]
  | false => rw [file?_eq_none hreg, file?_eq_none hreg]

theorem file?_eq_some {content : Content} {p : Nat} {f : PlainFile} (h : content.file? p = some f) :
    content = .regular f.contents ∧ f.position = p := by
  cases content with
  | regular data =>
    cases h
    exact ⟨rfl, rfl⟩
  | _ => cases h

end Content

namespace Stream

/-- The bytes of the window behind the cursor, whatever the stream is used for. -/
def left (s : Stream) : Bytes := s.window.drop s.cursor

theorem length_left (s : Stream) : s.left.length = s.window.length - s.cursor := List.length_drop

theorem ahead_of_calm {s : Stream} (h : s.writing = true → s.left = []) : s.ahead = s.left := by
  unfold ahead
  split
  · rename_i hw
    exact (h hw).symm
  · rfl

/-- The buffer agrees with the descriptor and the device. An appending stream with pending output
may have lost sight of what its window was read from. -/
structure Fits (s : Stream) (d : Descriptor) (content : Content) : Prop where
  cursor : s.cursor ≤ s.window.length
  window : s.window.length ≤ s.capacity
  input : s.writing = false → s.pending = []
  covers : (s.appends = true ∧ s.pending ≠ []) ∨ content.Covers s.window d.position
  offset : ∀ p, s.offset = some p → content.isRegular = true →
    s.window ≠ [] ∨ d.appending = s.appends → p = d.position

theorem Fits.covers_of_drained {s : Stream} {d : Descriptor} {content : Content} (h : s.Fits d content)
    (hp : s.pending = []) : content.Covers s.window d.position :=
  h.covers.resolve_left fun ⟨_, hne⟩ => hne hp

/-- The signs an operation leaves for the ones after it. -/
def signs (s : Stream) : Bool × Bool × Option StreamError := (s.failed, s.atEnd, s.held)

end Stream

/-- What a stream and its device stand for. -/
structure Account where
  received : Bytes
  file : Option PlainFile
  appending : Bool
  deriving DecidableEq, Repr

namespace Account

/-- The account after bytes were laid down. -/
def lay (a : Account) (bytes : Bytes) : Account :=
  ⟨a.received ++ bytes, a.file.map (·.write a.appending bytes), a.appending⟩

@[simp] theorem lay_nil (a : Account) : a.lay [] = a := by
  simp [lay]

theorem lay_lay (a : Account) (xs ys : Bytes) : (a.lay xs).lay ys = a.lay (xs ++ ys) := by
  simp only [lay, List.append_assoc, Option.map_map]
  congr 2
  funext f
  exact f.write_append _ xs ys

/-- What a descriptor and its device come to, with the last `back` bytes given back. -/
def ofPort (d : Descriptor) (dev : Device) (back : Nat) : Account :=
  ⟨dev.received, dev.content.file? (d.position - back), d.appending⟩

theorem ofPort_congr {d : Descriptor} {dev : Device} {p back back' : Nat}
    (h : dev.content.isRegular = true → p - back = d.position - back') :
    ofPort { d with position := p } dev back = ofPort d dev back' := by
  simp only [ofPort, Content.file?_congr h]

end Account

namespace Connection

variable {c c' : Connection} {d : Descriptor} {dev : Device}

/-- The stream is in front of the descriptor `d` of the device `dev`. -/
structure Over (c : Connection) (d : Descriptor) (dev : Device) : Prop where
  opened : c.system.opened? c.stream.fd = some (d, dev)
  appending : c.stream.appends = true → d.appending = true
  within : dev.content.Within d.position c.system.largestOffset

theorem Over.work {s : Stream} (h : c.Over d dev) (hfd : s.fd = c.stream.fd)
    (happ : s.appends = c.stream.appends) : (⟨s, c.system⟩ : Connection).Over d dev where
  opened := (congrArg c.system.opened? hfd).trans h.opened
  appending := fun hyes => h.appending (happ.symm.trans hyes)
  within := h.within

/-- The stream is in front of a descriptor and a device, and its buffer agrees with them. -/
structure On (c : Connection) (d : Descriptor) (dev : Device) : Prop extends Over c d dev where
  fits : c.stream.Fits d dev.content

/-- The account without what is pending. -/
def standing (c : Connection) : Account :=
  match c.system.opened? c.stream.fd with
  | some (d, dev) => .ofPort d dev c.stream.left.length
  | none => ⟨[], none, false⟩

def account (c : Connection) : Account := c.standing.lay c.stream.pending

theorem standing_eq (h : c.system.opened? c.stream.fd = some (d, dev)) :
    c.standing = .ofPort d dev c.stream.left.length := by
  simp only [standing, h]

theorem left_of_empty (h : c.stream.window = []) : c.stream.left = [] := by
  rw [Stream.left, h, List.drop_nil]

theorem account_of_drained (h : c.stream.pending = []) : c.account = c.standing := by
  rw [account, h, Account.lay_nil]

/-- A stream with an empty window stands where its device stands. -/
theorem standing_of_empty (h : c.system.opened? c.stream.fd = some (d, dev))
    (hw : c.stream.window = []) : c.standing = .ofPort d dev 0 := by
  rw [standing_eq h, left_of_empty hw]
  rfl

theorem Over.on_of_empty (h : c.Over d dev) (hw : c.stream.window = []) (hcursor : c.stream.cursor = 0)
    (hpending : c.stream.pending = [])
    (hoffset : ∀ p, c.stream.offset = some p → dev.content.isRegular = true →
      d.appending = c.stream.appends → p = d.position) : c.On d dev where
  toOver := h
  fits := {
    cursor := by omega
    window := by rw [hw]; exact Nat.zero_le _
    input := fun _ => hpending
    covers := .inr (by rw [hw]; exact dev.content.covers_nil _)
    offset := fun p hp hreg hknown => hoffset p hp hreg (hknown.resolve_left (· hw)) }

/-- The device of the stream can go back to what is left of the window. -/
def Alignable (c : Connection) : Prop :=
  c.stream.window = [] ∨ ∀ d dev, c.system.opened? c.stream.fd = some (d, dev) →
    dev.content.isMobile = true

structure Ready (c : Connection) : Prop where
  on : ∃ d dev, c.On d dev
  alignable : c.Alignable

theorem allocate_eq (ho : c.system.opened? c.stream.fd = some (d, dev)) :
    c.allocate = c.update ({ · with capacity := c.stream.bufferSize }) := by
  unfold allocate Stream.bufferSize
  split
  · rfl
  · rw [System.inspect_ok ho]
    split <;> rfl

theorem allocate_spec (ho : c.system.opened? c.stream.fd = some (d, dev)) :
    ∃ k, k ≠ 0 ∧ (c.stream.capacity ≠ 0 → k = c.stream.capacity) ∧
      c.allocate = c.update ({ · with capacity := k }) :=
  ⟨c.stream.bufferSize, c.stream.bufferSize_ne_zero, fun h => if_pos h, allocate_eq ho⟩

theorem On.allocate (h : c.On d dev) : c.allocate.On d dev := by
  obtain ⟨k, -, hk, e⟩ := allocate_spec h.opened
  rw [e]
  refine ⟨h.toOver.work rfl rfl, { h.fits with window := ?_ }⟩
  have hwin := h.fits.window
  by_cases hc : c.stream.capacity = 0
  · have hnil : c.stream.window.length = 0 := by omega
    exact hnil ▸ Nat.zero_le k
  · simp only [update, hk hc]
    exact hwin

/-- Between operations nothing is left of a window unless bytes are pending in front of it or the
stream is used for input. -/
def Calm (c : Connection) : Prop :=
  c.stream.writing = true → c.stream.pending = [] → c.stream.left = []

/-- The device takes `n` bytes at the position of the stream. Bytes that are appended are numbered from
where the device stands all the same. -/
def Takes (c : Connection) (n : Nat) : Prop :=
  ∃ d dev, c.system.opened? c.stream.fd = some (d, dev) ∧ d.writable = true ∧ dev.Reliable ∧
    dev.content.HasRoom (System.start { d with position := d.position - c.stream.left.length } dev.content) n
      c.system.largestOffset (c.system.anyDescriptor d.device (·.readable)) ∧
    (d.appending = true → dev.content.addresses d.position n = true)

/-- The device takes what is pending and `n` bytes more. -/
def Willing (c : Connection) (n : Nat) : Prop := c.Takes (c.stream.pending.length + n)

theorem Takes.mono {n m : Nat} (h : c.Takes n) (hm : m ≤ n) : c.Takes m := by
  obtain ⟨d, dev, ho, hw, hr, hroom, haddr⟩ := h
  exact ⟨d, dev, ho, hw, hr, hroom.mono hm, fun happ => Content.addresses_mono (haddr happ) hm⟩

/-- How far what is pending would reach, counted from where the device of a file stands or from the end
of the file, whichever is further. -/
def extent (c : Connection) : Nat :=
  match c.system.opened? c.stream.fd with
  | some (d, dev) =>
    if dev.content.isRegular then max d.position dev.content.size + c.stream.pending.length else 0
  | none => 0

theorem extent_eq (h : c.system.opened? c.stream.fd = some (d, dev)) (hr : dev.content.isRegular = true) :
    c.extent = max d.position dev.content.size + c.stream.pending.length := by
  simp only [extent, h, if_pos hr]

theorem extent_eq_zero (h : c.system.opened? c.stream.fd = some (d, dev))
    (hr : dev.content.isRegular = false) : c.extent = 0 := by
  simp only [extent, h, hr, Bool.false_eq_true, if_false]

theorem Willing.mono {n m : Nat} (h : c.Willing n) (hm : m ≤ n) : c.Willing m :=
  Takes.mono h (by omega)

theorem standing_appending (h : c.system.opened? c.stream.fd = some (d, dev)) :
    c.standing.appending = d.appending := by
  simp only [standing_eq h, Account.ofPort]

theorem account_appending (h : c.system.opened? c.stream.fd = some (d, dev)) :
    c.account.appending = d.appending := standing_appending h

theorem account_file (h : c.system.opened? c.stream.fd = some (d, dev)) {data : Bytes}
    (hc : dev.content = .regular data) : c.account.file =
      some (PlainFile.write ⟨data, d.position - c.stream.left.length⟩ d.appending c.stream.pending) := by
  simp only [account, standing_eq h, Account.lay, Account.ofPort, hc, Content.file?, Option.map_some]

theorem account_received (h : c.system.opened? c.stream.fd = some (d, dev)) :
    c.account.received = dev.received ++ c.stream.pending := by
  simp only [account, standing_eq h, Account.lay, Account.ofPort]

/-- Bytes that are put behind what is pending reach as much further as they are long. -/
theorem extent_update {f : Stream → Stream} {bytes : Bytes} (hfd : (f c.stream).fd = c.stream.fd)
    (hp : (f c.stream).pending = c.stream.pending ++ bytes) :
    (c.update f).extent ≤ c.extent + bytes.length := by
  simp only [extent, update, hfd, hp, List.length_append]
  split
  · split <;> omega
  · exact Nat.zero_le _

/-- What a stream stands for is a file where its device is one. -/
theorem isRegular_of_file {f : PlainFile} (ho : c.system.opened? c.stream.fd = some (d, dev))
    (hf : c.account.file = some f) : dev.content.isRegular = true := by
  rw [account, Account.lay, standing_eq ho, Option.map_eq_some_iff] at hf
  obtain ⟨f₀, hf₀, -⟩ := hf
  rw [(Content.file?_eq_some hf₀).1]
  rfl

/-- A file and its position are within what is pending reaches. -/
theorem le_extent {f : PlainFile} (ho : c.system.opened? c.stream.fd = some (d, dev))
    (hf : c.account.file = some f) : max f.position f.contents.length ≤ c.extent := by
  have hreg := isRegular_of_file ho hf
  rw [extent_eq ho hreg]
  obtain ⟨data, hc⟩ := Content.isRegular_iff.1 hreg
  rw [account_file ho hc, Option.some.injEq] at hf
  subst hf
  rw [hc, Content.size]
  by_cases hp : c.stream.pending = []
  · simp only [hp, PlainFile.write_nil, List.length_nil]
    omega
  · have hlen := PlainFile.length_write ⟨data, d.position - c.stream.left.length⟩ d.appending c.stream.pending
    have hstart : PlainFile.start ⟨data, d.position - c.stream.left.length⟩ d.appending ≤
        max d.position data.length := by
      unfold PlainFile.start
      split <;> simp only <;> omega
    rw [PlainFile.write_of_ne_nil _ _ hp] at hlen ⊢
    simp only at hlen ⊢
    omega

/-- With nothing pending, the file and its position are all there is to reach. -/
theorem On.extent_le {f : PlainFile} (h : c.On d dev) (hp : c.stream.pending = [])
    (hf : c.account.file = some f) : c.extent ≤ max f.position f.contents.length := by
  have hreg := isRegular_of_file h.opened hf
  rw [extent_eq h.opened hreg]
  obtain ⟨data, hc⟩ := Content.isRegular_iff.1 hreg
  have hcovers := h.fits.covers_of_drained hp
  have hlen := Stream.length_left c.stream
  rw [hc] at hcovers
  obtain ⟨hle, hwin⟩ := hcovers
  have hwin := congrArg List.length hwin
  rw [List.length_take, List.length_drop] at hwin
  rw [account_file h.opened hc, Option.some.injEq, hp, PlainFile.write_nil] at hf
  subst hf
  rw [hc, hp, Content.size, List.length_nil]
  simp only
  omega

/-- Bytes that were laid down reach no further than the bytes themselves. -/
theorem On.extent_lay {bytes : Bytes} (h : c'.On d dev) (hp : c'.stream.pending = [])
    {d₀ : Descriptor} {dev₀ : Device} (ho : c.system.opened? c.stream.fd = some (d₀, dev₀))
    (ha : c'.account = c.account.lay bytes) : c'.extent ≤ c.extent + bytes.length := by
  cases hreg : dev.content.isRegular with
  | false =>
    rw [extent_eq_zero h.opened hreg]
    exact Nat.zero_le _
  | true =>
    obtain ⟨data, hc⟩ := Content.isRegular_iff.1 hreg
    have hf' := account_file h.opened hc
    have hle := h.extent_le hp hf'
    rw [ha, Account.lay, Option.map_eq_some_iff] at hf'
    obtain ⟨f, hf, hwrite⟩ := hf'
    have hfrom := le_extent ho hf
    rw [← hwrite] at hle
    have hwritten := f.max_write c.account.appending bytes
    omega

/-- A file takes bytes that end at an offset; where it appends, they also have to be numbered from where
its device stands. -/
theorem willing_file {n : Nat} {f : PlainFile} (ho : c.system.opened? c.stream.fd = some (d, dev))
    (hf : c.account.file = some f) :
    c.Willing n ↔ d.writable = true ∧ dev.Reliable ∧ f.start d.appending + n ≤ c.system.largestOffset ∧
      (d.appending = true → c.extent + n ≤ largestPosition) := by
  have hreg := isRegular_of_file ho hf
  have hextent := extent_eq ho hreg
  obtain ⟨data, hc⟩ := Content.isRegular_iff.1 hreg
  rw [account_file ho hc, Option.some.injEq] at hf
  subst hf
  have hroom : dev.content.HasRoom
      (System.start { d with position := d.position - c.stream.left.length } dev.content)
      (c.stream.pending.length + n) c.system.largestOffset (c.system.anyDescriptor d.device (·.readable)) ↔
      PlainFile.start (PlainFile.write ⟨data, d.position - c.stream.left.length⟩ d.appending c.stream.pending)
        d.appending + n ≤ c.system.largestOffset := by
    rw [hc, PlainFile.start_write, Nat.add_assoc]
    exact Iff.rfl
  -- Past the room for them, bytes to be appended are as far as an offset can be from the end.
  have haddr : PlainFile.start (PlainFile.write ⟨data, d.position - c.stream.left.length⟩ d.appending
        c.stream.pending) d.appending + n ≤ c.system.largestOffset → d.appending = true →
      (dev.content.addresses d.position (c.stream.pending.length + n) = true ↔
        c.extent + n ≤ largestPosition) := by
    intro hle happ
    have haddressable := c.system.addressable
    rw [PlainFile.start_write, happ, PlainFile.start, if_pos rfl] at hle
    rw [hextent, hc, Content.addresses, decide_eq_true_iff, Content.size]
    simp only at hle
    omega
  constructor
  · rintro ⟨d', dev', ho', hw, hr, hn, happ⟩
    rw [ho] at ho'
    cases ho'
    exact ⟨hw, hr, hroom.1 hn, fun hyes => (haddr (hroom.1 hn) hyes).1 (happ hyes)⟩
  · rintro ⟨hw, hr, hn, happ⟩
    exact ⟨d, dev, ho, hw, hr, hroom.2 hn, fun hyes => (haddr hn hyes).2 (happ hyes)⟩

/-- A device that can be moved can be moved later. -/
theorem Through.seekable (h : c.Through c') (ho : c.system.opened? c.stream.fd = some (d, dev))
    (hp : dev.content.isMobile = true) : c'.Alignable := by
  refine .inr fun d' dev' ho' => ?_
  obtain ⟨p, dev'', ho'', hb⟩ := h.opened ho
  rw [ho'] at ho''
  cases ho''
  rw [hb.kind.isMobile, hp]

theorem Alignable.through (ha : c.Alignable) (h : c.Through c')
    (ho : c.system.opened? c.stream.fd = some (d, dev)) (hw : c'.stream.window = c.stream.window) :
    c'.Alignable := by
  rcases ha with hnil | hpipe
  · exact .inl (by rw [hw, hnil])
  · exact h.seekable ho (hpipe d dev ho)

/-- The device of a stream stands where it stood, unless that means nothing. -/
theorem On.relocate {sys : System} {p : Nat} (h : c.On d dev)
    (ho : sys.opened? c.stream.fd = some ({ d with position := p }, dev))
    (hlargest : sys.largestOffset = c.system.largestOffset)
    (hp : dev.content.isRegular = true → p = d.position) :
    (⟨c.stream, sys⟩ : Connection).On { d with position := p } dev where
  opened := ho
  appending := h.appending
  within hr := by
    rw [hlargest]
    exact ⟨(h.within hr).1, hp hr ▸ (h.within hr).2⟩
  fits := {
    cursor := h.fits.cursor
    window := h.fits.window
    input := h.fits.input
    covers := h.fits.covers.imp_right (·.elsewhere hp)
    offset := fun q hq hr hknown => (h.fits.offset q hq hr hknown).trans (hp hr).symm }

/-- A device that takes some bytes and what follows still takes what follows. -/
theorem Willing.through {bytes : Bytes} {k : Nat} (hw : c.Willing (bytes.length + k))
    (h : c.Through c') (ha : c'.account = c.account.lay bytes)
    (hextent : c'.extent ≤ c.extent + bytes.length) : c'.Willing k := by
  obtain ⟨d, dev, ho, hwr, hr, hroom, -⟩ := id hw
  obtain ⟨p, dev', ho', hb⟩ := h.opened ho
  cases hreg : dev.content.isRegular with
  | true =>
    obtain ⟨data, hc⟩ := Content.isRegular_iff.1 hreg
    obtain ⟨f, hfile⟩ : ∃ f, c.account.file = some f := ⟨_, account_file ho hc⟩
    have hfile' : c'.account.file = some (f.write d.appending bytes) := by
      rw [ha, Account.lay, hfile, account_appending ho, Option.map_some]
    obtain ⟨-, -, hn, happ⟩ := (willing_file ho hfile).1 hw
    refine (willing_file ho' hfile').2 ⟨hwr, hb.reliable hr, ?_, fun hyes => ?_⟩
    · rw [h.system.largestOffset, PlainFile.start_write]
      omega
    · have := happ hyes
      omega
  | false =>
    refine ⟨_, dev', ho', hwr, hb.reliable hr, ?_, fun _ => ?_⟩
    · rw [h.system.anyDescriptor fun _ _ => rfl]
      have hreceived := congrArg (·.received.length) ha
      simp only [Account.lay, account_received ho, account_received ho', List.length_append] at hreceived
      have hwaiting := hb.waiting
      exact hroom.change hb.kind hreg (by omega)
    · exact hroom.addresses hb.kind hreg

end Connection

end BufferedFiles
