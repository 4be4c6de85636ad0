import BufferedFiles.Concat.Copy
import BufferedFiles.Proofs.InputRuns
import BufferedFiles.Proofs.Sharing
import BufferedFiles.Proofs.StreamOperations

/-!
# Copying one input

A copy is rounds of one read and the write of what it got. As long as the sink takes what is written, a
round moves a start of what the source has left over to the account of the sink, so the rounds end with
all of it moved, in pieces of any size and by lines or not.
-/
namespace BufferedFiles

theorem Handle.onStream_ok {α : Type} {h : Handle} {c c' : Connection} {x : α}
    (op : Connection → Connection × Except StreamError α) (e : op c = (c', .ok x)) :
    (h.holding c).onStream c.system op = ⟨h.holding c', c'.system, .ok x⟩ := by
  have e : op ⟨c.stream, c.system⟩ = (c', .ok x) := e
  simp only [holding, onStream, e]
  rfl

/-- A stream that bytes come from and a stream they go to. -/
structure Channel where
  source : Stream
  sink : Stream
  system : System

namespace Channel

def front (l : Channel) : Connection := ⟨l.source, l.system⟩

def back (l : Channel) : Connection := ⟨l.sink, l.system⟩

def work (l : Channel) (input output : Handle) (events : List Concat.Event) : Concat.Work :=
  ⟨input.holding l.front, output.holding l.back, l.system, events⟩

/-- The source has `rest` left, in pieces of at most `k` bytes, and the sink takes that and `n` bytes
more. The source is the device `i` and the sink another one, `o`; the devices that need not keep what
they hold are `o` and a source that is no file. -/
structure Flows (devices : Nat → Prop) (i o k : Nat) (l : Channel) (rest : Bytes) (n : Nat) : Prop where
  gives : l.front.Gives
  affords : l.front.Affords k
  supply : l.front.supply = .bytes rest
  ready : l.back.Ready
  writes : l.sink.writes = true
  willing : l.back.Willing (rest.length + n)
  fds : l.source.fd ≠ l.sink.fd
  input : ∃ d, l.system.descriptor? l.source.fd = some d ∧ d.device = i
  output : ∃ d, l.system.descriptor? l.sink.fd = some d ∧ d.device = o
  apart : i ≠ o
  emptied : devices i ∨ ∀ dev, l.system.device? i = some dev → dev.content.isRegular = true
  filled : devices o

/-- `b` is `a` after `bytes` were moved. -/
structure Pours (devices : Nat → Prop) (a b : Channel) (bytes : Bytes) : Prop where
  source : a.source.Kin b.source
  sink : a.sink.Kin b.sink
  account : b.back.account = a.back.account.lay bytes
  spares : System.Spares (fun fd => fd = a.source.fd ∨ fd = a.sink.fd) devices a.system b.system

variable {devices : Nat → Prop} {i o k n : Nat} {a b c l : Channel} {rest bytes : Bytes}

theorem Pours.trans {xs ys : Bytes} (h : a.Pours devices b xs) (h' : b.Pours devices c ys) :
    a.Pours devices c (xs ++ ys) where
  source := h.source.trans h'.source
  sink := h.sink.trans h'.sink
  account := by rw [h'.account, h.account, Account.lay_lay]
  spares := h.spares.trans (h'.spares.mono (fun _ hfd => by rwa [h.source.fd, h.sink.fd] at hfd) fun _ => id)

private theorem device_of_through {sys sys' : System} {fd j k : Nat} (h : System.Through fd sys sys')
    (hd : ∃ d, sys.descriptor? j = some d ∧ d.device = k) :
    ∃ d, sys'.descriptor? j = some d ∧ d.device = k := by
  obtain ⟨d, hdesc, hdevice⟩ := hd
  by_cases hj : j = fd
  · obtain ⟨p, hp⟩ := h.own d (hj ▸ hdesc)
    exact ⟨{ d with position := p }, hj ▸ hp, hdevice⟩
  · exact ⟨d, (h.others j hj).trans hdesc, hdevice⟩

private theorem regular_of_through {sys sys' : System} {fd k : Nat} (h : System.Through fd sys sys')
    (hreg : ∀ dev, sys.device? k = some dev → dev.content.isRegular = true) :
    ∀ dev, sys'.device? k = some dev → dev.content.isRegular = true := by
  intro dev' hdev'
  cases hdev : sys.device? k with
  | none =>
    rw [h.missing k hdev] at hdev'
    cases hdev'
  | some dev =>
    obtain ⟨dev'', hdev'', hb⟩ := h.device k dev hdev
    rw [hdev'] at hdev''
    cases hdev''
    rw [hb.kind.isRegular]
    exact hreg dev hdev

/-- A descriptor on another device is none of the devices an operation touches. -/
private theorem elsewhere {sys : System} {j k m : Nat} (hj : ∃ d, sys.descriptor? j = some d ∧ d.device = k)
    (hm : k ≠ m) : ∀ d, sys.descriptor? j = some d → ¬ d.device = m := by
  obtain ⟨d₀, hd₀, rfl⟩ := hj
  intro d hd
  rw [hd₀] at hd
  cases hd
  exact hm

/-- Bytes taken from the source stand ready to be written. -/
theorem Flows.draw {f : Connection} (h : l.Flows devices i o k rest n) (hd : l.front.Draws f bytes) :
    (⟨f.stream, l.sink, f.system⟩ : Channel).Flows devices i o k (rest.drop bytes.length) (bytes.length + n) ∧
      l.Pours devices ⟨f.stream, l.sink, f.system⟩ [] := by
  have hthrough := hd.through
  have hfd : f.stream.fd = l.source.fd := hthrough.stream.fd
  have hsupply := hd.supply
  have htaken := congrArg List.length hd.taken
  simp only [h.supply, Supply.drop, Supply.take, List.length_take] at hsupply htaken
  have hown := hthrough.system.spares_own h.input
  have hne : ¬ l.back.stream.fd = l.source.fd := Ne.symm h.fds
  have helse := elsewhere h.output h.apart.symm
  have hlater := device_of_through hthrough.system h.input
  refine ⟨{
    gives := hd.gives
    affords := hd.affords h.gives h.affords
    supply := hsupply
    ready := h.ready.spared hown hne helse
    writes := h.writes
    willing := (h.willing.spared hown hne helse).mono (by rw [List.length_drop]; omega)
    fds := by rw [hfd]; exact h.fds
    input := by rw [hfd]; exact hlater
    output := device_of_through hthrough.system h.output
    apart := h.apart
    emptied := h.emptied.imp_right (regular_of_through hthrough.system)
    filled := h.filled }, hthrough.stream, .refl _, ?_, ?_⟩
  · obtain ⟨⟨d, dev, hon⟩, -⟩ := h.ready
    rw [Account.lay_nil]
    exact Connection.account_spared (c := l.back) hown hon.opened hne (helse d (System.opened?_eq_some.1 hon.opened).1)
  · refine hd.spares h.gives (.inl rfl) fun d dev ho => ?_
    obtain ⟨hdesc, hdev⟩ := System.opened?_eq_some.1 ho
    obtain ⟨d₀, hd₀, hdi⟩ := h.input
    have hdesc : l.system.descriptor? l.source.fd = some d := hdesc
    rw [hd₀] at hdesc
    cases hdesc
    rw [hdi] at hdev ⊢
    exact (h.emptied.imp_right fun hreg => hreg dev hdev).symm

/-- Bytes written to the sink leave the source as it is. -/
theorem Flows.lay {t : Connection} (h : l.Flows devices i o k rest (bytes.length + n)) (hl : l.back.Lays t bytes) :
    (⟨l.source, t.stream, t.system⟩ : Channel).Flows devices i o k rest n ∧
      l.Pours devices ⟨l.source, t.stream, t.system⟩ bytes := by
  have hthrough := hl.through
  have hfd : t.stream.fd = l.sink.fd := hthrough.stream.fd
  have hown := hthrough.system.spares_own h.output
  obtain ⟨hgives, hsupply⟩ := h.gives.spared hown h.fds (elsewhere h.input h.apart)
  have haffords := h.affords.spared h.gives hown h.fds (elsewhere h.input h.apart)
  have hlater := device_of_through hthrough.system h.output
  have hwilling : l.back.Willing (bytes.length + (rest.length + n)) :=
    h.willing.mono (by omega)
  exact ⟨{
    gives := hgives
    affords := haffords
    supply := hsupply.trans h.supply
    ready := hl.ready
    writes := hthrough.stream.writes.trans h.writes
    willing := hwilling.through hthrough hl.account hl.extent
    fds := by rw [hfd]; exact h.fds
    input := device_of_through hthrough.system h.input
    output := by rw [hfd]; exact hlater
    apart := h.apart
    emptied := h.emptied.imp_right (regular_of_through hthrough.system)
    filled := h.filled }, .refl _, hthrough.stream, hl.account,
    hown.mono (fun _ => .inr) fun j hj => hj ▸ h.filled⟩

end Channel

namespace Concat

def Settings.asked (s : Settings) : Nat :=
  let n := boundFor (s.bound.map Int.ofNat)
  if s.lines then min n lineLimit else n

namespace Work

variable {s : Settings} {devices : Nat → Prop} {i o n : Nat} {l : Channel} {rest chunk : Bytes}

/-- A line or a chunk is taken from the source, and nothing only where nothing is left. -/
private theorem input_flows (s : Settings) {w : Work} (input output : Handle) (events : List Event)
    (h : l.Flows devices i o s.asked rest n) (hw : l.work input output events = w) :
    ∃ f chunk, (if s.lines then w.source.readLine w.system s.bound else w.source.read w.system s.bound) =
        ⟨input.holding f, f.system, .ok chunk⟩ ∧
      l.front.Draws f chunk ∧ (chunk = [] ↔ l.front.supply.IsEmpty) := by
  subst hw
  have hbound := boundFor_pos (s.bound.map Int.ofNat)
  have hreaches := h.affords.reaches
  unfold Settings.asked at hreaches
  cases hlines : s.lines with
  | true =>
    rw [hlines, if_pos rfl] at hreaches
    obtain ⟨f, hread, hd⟩ := Connection.readLine_gives h.gives hreaches
    have hlimit : 0 < lineLimit := by decide
    exact ⟨f, _, Handle.onStream_ok (·.readLine _) hread, hd, Supply.line_eq_nil_iff (by omega)⟩
  | false =>
    rw [hlines, if_neg Bool.false_ne_true] at hreaches
    obtain ⟨f, hread, hd⟩ := Connection.read_gives h.gives hreaches
    have hempty := @Supply.take_eq_nil_iff l.front.supply (boundFor (s.bound.map Int.ofNat))
    exact ⟨f, _, Handle.onStream_ok (·.read _) hread, hd, hempty.trans (or_iff_right (by omega))⟩

/-- A read gets a start of what is left, and nothing only where nothing is left. -/
theorem next_flows (input output : Handle) (events : List Event)
    (h : l.Flows devices i o s.asked rest n) :
    ∃ l' events' chunk, (l.work input output events).next s = (l'.work input output events', .ok chunk) ∧
      chunk <+: rest ∧ (chunk = [] → rest = []) ∧ l.Pours devices l' [] ∧
      l'.Flows devices i o s.asked (rest.drop chunk.length) (chunk.length + n) := by
  obtain ⟨f, chunk, hcall, hd, hnil⟩ := input_flows s input output events h rfl
  have htaken := hd.taken
  rw [h.supply] at htaken hnil
  obtain ⟨hflows, hpours⟩ := h.draw hd
  refine ⟨⟨f.stream, l.sink, f.system⟩, (readEvents s (input.holding f) chunk.length).reverse ++ events, chunk,
    ?_, List.prefix_iff_eq_take.2 htaken, fun hchunk => Supply.bytes.inj (hnil.1 hchunk), hpours, hflows⟩
  simp only [next, hcall]
  rfl

/-- A sink that takes a chunk takes all of it by the first write. -/
theorem deliver_lays {w : Work} {t : Stream} (hsink : w.sink.stream = some t)
    (hready : (⟨t, w.system⟩ : Connection).Ready) (hwrites : t.writes = true)
    (hwilling : (⟨t, w.system⟩ : Connection).Willing chunk.length) :
    ∃ c events, w.deliver chunk.length chunk =
        ({ w with sink := w.sink.holding c, system := c.system, events }, .ok ()) ∧
      (⟨t, w.system⟩ : Connection).Lays c chunk := by
  cases chunk with
  | nil =>
    refine ⟨⟨t, w.system⟩, w.events, ?_, .refl hready⟩
    rw [Handle.holding_self (c := ⟨t, w.system⟩) hsink]
    rfl
  | cons b more =>
    rcases hwrite : Connection.write ⟨t, w.system⟩ (b :: more) with ⟨c, result⟩
    rcases Connection.write_spec hready hwrites (List.cons_ne_nil b more) hwrite with
      ⟨-, rfl, hlays, -⟩ | ⟨-, -, hno⟩ | ⟨-, -, hfails, -⟩
    · refine ⟨c, .written w.sink.path (more.length + 1) (more.length + 1) ::
        .stored (more.length + 1) (more.length + 1) :: w.events, ?_, hlays⟩
      have hcall : w.sink.write w.system (b :: more) = ⟨w.sink.holding c, c.system, .ok (more.length + 1)⟩ := by
        have hcall := Handle.onStream_ok (h := w.sink) (c := ⟨t, w.system⟩) (·.write (b :: more)) hwrite
        rwa [Handle.holding_self (c := ⟨t, w.system⟩) hsink] at hcall
      have hdone : ∀ w : Work, w.deliver more.length [] = (w, .ok ()) := fun w => by
        cases more <;> rfl
      have hnone : (b :: more).drop (more.length + 1) = [] := List.drop_length
      simp only [List.length_cons, deliver, List.isEmpty_cons, Bool.false_eq_true, if_false, hcall,
        Nat.add_one_ne_zero, hnone, hdone]
      rfl
    · exact absurd hwilling hno
    · exact absurd hwilling hfails.unwilling

/-- Everything is taken by the first write, and the source is as it was. -/
theorem deliver_flows (input output : Handle) (events : List Event)
    (h : l.Flows devices i o s.asked rest (chunk.length + n)) :
    ∃ l' events', (l.work input output events).deliver chunk.length chunk =
        (l'.work input output events', .ok ()) ∧
      l.Pours devices l' chunk ∧ l'.Flows devices i o s.asked rest n := by
  have hwilling : l.back.Willing chunk.length := h.willing.mono (by omega)
  obtain ⟨t, events', hdeliver, hlays⟩ :=
    deliver_lays (w := l.work input output events) rfl h.ready h.writes hwilling
  obtain ⟨hflows, hpours⟩ := h.lay hlays
  exact ⟨⟨l.source, t.stream, t.system⟩, events', hdeliver, hpours, hflows⟩

theorem round_flows (input output : Handle) (events : List Event)
    (h : l.Flows devices i o s.asked rest n) :
    ∃ l' events' chunk, (l.work input output events).round s =
        (l'.work input output events', .ok chunk.length) ∧ chunk <+: rest ∧ (chunk = [] → rest = []) ∧
      l.Pours devices l' chunk ∧ l'.Flows devices i o s.asked (rest.drop chunk.length) n := by
  obtain ⟨l₁, events₁, chunk, hnext, hchunk, hnil, hpours₁, h₁⟩ :=
    next_flows (s := s) input output events h
  obtain ⟨l₂, events₂, hdeliver, hpours₂, h₂⟩ := deliver_flows input output events₁ h₁
  refine ⟨l₂, events₂, chunk, ?_, hchunk, hnil, hpours₁.trans hpours₂, h₂⟩
  simp only [round, hnext, hdeliver]

/-- Rounds end with all moved that was left. -/
theorem rounds_flows (input output : Handle) (events : List Event) (h : l.Flows devices i o s.asked rest n)
    (copied : Nat) :
    ∃ l' events', (l.work input output events).rounds s copied =
        some (l'.work input output events', .ok (copied + rest.length)) ∧
      l.Pours devices l' rest ∧ l'.Flows devices i o s.asked [] n := by
  -- every round but the last moves something, so there is less left for the rounds after it
  induction hlen : rest.length using Nat.strongRecOn generalizing l rest events copied with
  | ind size ih =>
    subst hlen
    obtain ⟨l₁, events₁, chunk, hround, hchunk, hnil, hpours₁, h₁⟩ := round_flows (s := s) input output events h
    obtain ⟨later, rfl⟩ := hchunk
    rw [List.drop_left] at h₁
    cases chunk with
    | nil =>
      cases hnil rfl
      exact ⟨l₁, _, rounds_of_end hround, hpours₁, h₁⟩
    | cons b more =>
      have hless : later.length < (b :: more ++ later).length := by
        simp only [List.length_append, List.length_cons]
        omega
      obtain ⟨l₂, events₂, hrest, hpours₂, h₂⟩ := ih later.length hless _ h₁ (copied + (b :: more).length) rfl
      refine ⟨l₂, events₂, ?_, hpours₁.trans hpours₂, h₂⟩
      rw [List.length_append, ← Nat.add_assoc, ← hrest]
      exact rounds_of_more hround

/-- A copy moves all of its source and counts it. -/
theorem copy_flows (input output : Handle) (events : List Event)
    (h : l.Flows devices i o s.asked rest n) :
    ∃ l' events', (l.work input output events).copy s = (l'.work input output events', .ok rest.length) ∧
      l.Pours devices l' rest ∧ l'.Flows devices i o s.asked [] n := by
  obtain ⟨l', events', hrounds, hpours, h'⟩ := rounds_flows (s := s) input output events h 0
  refine ⟨l', events', ?_, hpours, h'⟩
  rw [copy, hrounds, Nat.zero_add]
  rfl

end Work

end Concat

end BufferedFiles
