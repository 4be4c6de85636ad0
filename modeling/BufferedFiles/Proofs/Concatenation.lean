import BufferedFiles.Concat.Run
import BufferedFiles.Proofs.Copying
import BufferedFiles.Proofs.FileRuns

/-!
# Concatenation

The tool copies its inputs one after the other to one output. An input is opened, copied to its end and
closed, and nothing of that touches the output but the bytes that are copied, or the inputs that are
still to come but standard input once it is used up. So what arrives is the inputs in their order.
-/
namespace BufferedFiles

namespace System

variable {sys sys' : System} {output output' fds devices : Nat → Prop} {path data waiting : Bytes}
  {k : Nat}

/-- A path leads to a file with the bytes `data` that never fails and is no output. Reads of `k` bytes
can be made up to its end. -/
structure Offers (sys : System) (output : Nat → Prop) (k : Nat) (path data : Bytes) : Prop where
  plain : path.contains 0 = false
  file : ∃ place i dev, sys.find path = .ok place ∧ sys.lookup place = some i ∧ ¬ output i ∧
    sys.device? i = some dev ∧ dev.content = .regular data ∧ dev.Reliable ∧
    data.length ≤ sys.largestOffset
  readable : data.length + k + blockSize ≤ largestPosition

theorem Offers.mono (h : sys.Offers output k path data)
    (hout : ∀ i dev, sys.device? i = some dev → output' i → output i) : sys.Offers output' k path data := by
  obtain ⟨place, i, dev, hfind, hlookup, hi, hdev, hfile⟩ := h.file
  exact ⟨h.plain, ⟨place, i, dev, hfind, hlookup, fun hyes => hi (hout i dev hdev hyes), hdev, hfile⟩, h.readable⟩

theorem Offers.spared (h : sys.Offers output k path data) (hs : Spares fds devices sys sys')
    (hd : ∀ i dev, sys.device? i = some dev → dev.content.isRegular = true → devices i → output i) :
    sys'.Offers output k path data := by
  obtain ⟨place, i, dev, hfind, hlookup, hi, hdev, hreg, hr, hsize⟩ := h.file
  obtain ⟨dev', hdev', hk⟩ := hs.device i dev (fun hyes => hi (hd i dev hdev (by rw [hreg]; rfl) hyes)) hdev
  exact ⟨h.plain, ⟨place, i, dev', hs.grows.find hfind, hs.grows.lookup hlookup, hi, hdev',
    hk.content.trans hreg, hk.reliable hr, by rw [hs.largestOffset]; exact hsize⟩, h.readable⟩

/-- Standard input is open, never fails, is no output, and ends after the bytes `waiting`. If it is a file,
reads of `k` bytes can be made up to its end. -/
def Waits (sys : System) (output : Nat → Prop) (k : Nat) (waiting : Bytes) : Prop :=
  ∃ d dev, sys.opened? 0 = some (d, dev) ∧ ¬ output d.device ∧ sys.Source d dev ∧
    dev.content.supply d.position = .bytes waiting ∧ dev.content.Within d.position sys.largestOffset ∧
    (dev.content.isRegular = true → max d.position dev.content.size + k + blockSize ≤ largestPosition)

end System

namespace Concat

/-- What the inputs come to: the first mark is all that waits on standard input, and marks after it are
nothing. -/
def joined (content : String → Bytes) : List String → Bytes → Bytes
  | [], _ => []
  | input :: rest, waiting =>
    if input = standardMark then waiting ++ joined content rest []
    else content input ++ joined content rest waiting

namespace Job

variable {s : Settings} {content : String → Bytes} {waiting : Bytes} {inputs : List String} {o n : Nat}
  {j j' : Job} {t t' : Stream}

/-- The job has a sink on the device `o` that takes all that is still to come and `n` bytes more, the
files that are still to come are there, and so is standard input if it is. -/
structure Serves (s : Settings) (j : Job) (t : Stream) (o : Nat) (content : String → Bytes) (waiting : Bytes)
    (inputs : List String) (n : Nat) : Prop where
  sink : j.sink.stream = some t
  ready : (⟨t, j.system⟩ : Connection).Ready
  writes : t.writes = true
  output : ∃ d, j.system.descriptor? t.fd = some d ∧ d.device = o
  willing : (⟨t, j.system⟩ : Connection).Willing ((joined content inputs waiting).length + n)
  files : ∀ input ∈ inputs, input ≠ standardMark →
    j.system.Offers (· = o) s.asked (toBytes input) (content input)
  waits : standardMark ∈ inputs → ∃ u, j.standardInput.stream = some u ∧
    (⟨u, j.system⟩ : Connection).Gives ∧ (⟨u, j.system⟩ : Connection).Affords s.asked ∧
    (⟨u, j.system⟩ : Connection).supply = .bytes waiting ∧ u.fd ≠ t.fd ∧
    ∃ d, j.system.descriptor? u.fd = some d ∧ d.device ≠ o

/-- `j'` is `j` after `bytes` were copied. -/
structure Passes (j : Job) (t : Stream) (j' : Job) (t' : Stream) (bytes : Bytes) : Prop where
  sink : t.Kin t'
  account : (⟨t', j'.system⟩ : Connection).account = (⟨t, j.system⟩ : Connection).account.lay bytes
  grows : j.system.Grows j'.system

/-- Standard input is copied to its end, and has nothing for a mark after it. -/
theorem takeInput_standard {rest : List String}
    (h : j.Serves s t o content waiting (standardMark :: rest) n) :
    ∃ j' t', j.takeInput s standardMark = (j', .ok waiting.length) ∧ j.Passes t j' t' waiting ∧
      j'.Serves s t' o content [] rest n := by
  obtain ⟨u, hu, hgives, haffords, hsupply, hfds, d, hd, hdo⟩ := h.waits List.mem_cons_self
  have hwilling := h.willing
  simp only [joined, if_true, List.length_append, Nat.add_assoc] at hwilling
  generalize hl : (⟨u, t, j.system⟩ : Channel) = l
  have hflows : l.Flows (fun k => k = o ∨ ∃ dev, j.system.device? k = some dev ∧ dev.content.isRegular = false)
      d.device o s.asked waiting ((joined content rest []).length + n) := by
    subst hl
    refine ⟨hgives, haffords, hsupply, h.ready, h.writes, hwilling, hfds, ⟨d, hd, rfl⟩, h.output, hdo, ?_, .inl rfl⟩
    by_cases hreg : ∃ dev, j.system.device? d.device = some dev ∧ dev.content.isRegular = false
    · exact .inl (.inr hreg)
    · exact .inr fun dev hdev => by
        cases hk : dev.content.isRegular with
        | true => rfl
        | false => exact absurd ⟨dev, hdev, hk⟩ hreg
  obtain ⟨l', events', hcopy, hpours, hflows'⟩ := Work.copy_flows (s := s) j.standardInput j.sink
    j.events hflows
  have hwork : j.work j.standardInput = l.work j.standardInput j.sink j.events := by
    subst hl
    rw [Channel.work, Handle.holding_self hu, Handle.holding_self h.sink]
    rfl
  refine ⟨_, l'.sink, by rw [takeInput, if_pos rfl, hwork, hcopy], ?_, ?_⟩
  · subst hl
    exact ⟨hpours.sink, hpours.account, hpours.spares.grows⟩
  · refine ⟨rfl, hflows'.ready, hflows'.writes, hflows'.output, ?_, fun input hin hne => ?_, fun _ => ?_⟩
    · exact hflows'.willing.mono (Nat.le_add_left _ _)
    · refine (h.files input (List.mem_cons_of_mem _ hin) hne).spared (hl ▸ hpours.spares) fun k dev hdev hreg hk => ?_
      refine hk.resolve_right fun ⟨dev', hdev', hno⟩ => ?_
      rw [hdev] at hdev'
      cases hdev'
      rw [hreg] at hno
      cases hno
    · obtain ⟨d', hd', hdevice⟩ := hflows'.input
      exact ⟨l'.source, rfl, hflows'.gives, hflows'.affords, hflows'.supply, hflows'.fds, d', hd', hdevice ▸ hdo⟩

/-- A file is opened for input beside a job that goes on. -/
private theorem openInput {input : String} {data : Bytes} {k : Nat}
    (hoffers : j.system.Offers (· = o) k (toBytes input) data) :
    ∃ sys u i, Handle.openPath j.system (toBytes input) "r" none =
        (sys, .ok ⟨Text.lossy (toBytes input), "r", some u⟩) ∧
      (⟨u, sys⟩ : Connection).Gives ∧ (⟨u, sys⟩ : Connection).Affords k ∧
      (⟨u, sys⟩ : Connection).supply = .bytes data ∧
      (∃ d, sys.descriptor? u.fd = some d ∧ d.device = i) ∧ i ≠ o ∧
      (∀ dev, sys.device? i = some dev → dev.content.isRegular = true) ∧
      j.system.descriptor? u.fd = none ∧
      System.Spares (fun _ => False) (fun _ => False) j.system sys := by
  obtain ⟨place, i, dev, hfind, hlookup, hio, hdev, hreg, hr, hsize⟩ := hoffers.file
  have hleads : j.system.Leads ⟨true, false, false, false, false, false⟩ (toBytes input) place data :=
    .there hfind hlookup hdev hreg hr hsize
  have hmode : OpenMode.parse? OpenMode.pathReach (toBytes "r") =
      some ⟨true, false, false, false, false, false⟩ := by decide
  obtain ⟨sys, u, i', dev', hopen, hfresh, hused, ho, hprovides, hfree, hothers⟩ :=
    Handle.openPath_leads hoffers.plain rfl hmode (by decide) rfl Handle.accepts_none hleads
  have hsame : i' = i := by
    have hnamed := hprovides.named
    rw [hprovides.grows.lookup hlookup] at hnamed
    exact (Option.some.inj hnamed).symm
  subst hsame
  have hcontent : dev'.content = .regular data := hprovides.content
  have hsource : sys.Source ⟨i', true, false, false, 0⟩ dev' :=
    ⟨rfl, hprovides.reliable, by rw [hcontent]; exact nofun, by rw [hcontent]; exact nofun⟩
  obtain ⟨hgives, hsupply, haccount⟩ := hfresh.gives hused.reads ho hsource
    (fun hyes => hused.appends.symm.trans hyes) (by
      rw [hcontent, hprovides.largest]
      exact fun _ => ⟨hsize, Nat.zero_le _⟩)
  have haffords : (⟨u, sys⟩ : Connection).Affords k := by
    intro f hf
    rw [haccount] at hf
    obtain ⟨hc, hplace⟩ := Content.file?_eq_some hf
    obtain rfl : f.contents = data := Content.regular.inj (hc.symm.trans hcontent)
    have hfits := hoffers.readable
    have hplace : f.position = 0 := hplace
    omega
  refine ⟨sys, u, i', hopen, hgives, haffords, ?_,
    ⟨_, (System.opened?_eq_some.1 ho).1, rfl⟩, hio, fun dev₀ hdev₀ => ?_, hfree,
    hprovides.spares ho rfl hfree hothers nofun⟩
  · rw [hsupply]
    change dev'.content.supply 0 = _
    rw [hcontent]
    rfl
  · rw [hprovides.device] at hdev₀
    cases hdev₀
    rw [hcontent]
    rfl

theorem Serves.next {input : String} {rest : List String} (hne : input ≠ standardMark)
    (h : j.Serves s t o content waiting (input :: rest) n) :
    j.Serves s t o content waiting rest ((content input).length + n) := by
  refine ⟨h.sink, h.ready, h.writes, h.output, ?_, fun input hin => h.files input (List.mem_cons_of_mem _ hin),
    fun hmark => h.waits (List.mem_cons_of_mem _ hmark)⟩
  have hwilling := h.willing
  simp only [joined, if_neg hne, List.length_append] at hwilling
  exact hwilling.mono (by omega)

/-- The job goes on after anything that spared its streams and all devices. -/
theorem Serves.spared {sys : System} {fd : Nat} (h : j.Serves s t o content waiting inputs n)
    (hs : System.Spares (· = fd) (fun _ => False) j.system sys) (hsink : t.fd ≠ fd)
    (hinput : ∀ u, j.standardInput.stream = some u → standardMark ∈ inputs → u.fd ≠ fd) (events : List Event) :
    ({ j with system := sys, events } : Job).Serves s t o content waiting inputs n ∧
      j.Passes t { j with system := sys, events } t [] := by
  obtain ⟨e, he, heo⟩ := h.output
  obtain ⟨⟨d, dev, hon⟩, -⟩ := id h.ready
  refine ⟨⟨h.sink, h.ready.spared hs hsink fun _ _ => id, h.writes, ⟨e, hs.descriptor _ e hsink he, heo⟩,
    h.willing.spared hs hsink fun _ _ => id, fun input hin hne => (h.files input hin hne).spared hs nofun,
    fun hmark => ?_⟩, .refl t, ?_, hs.grows⟩
  · obtain ⟨u, hu, hgives, haffords, hsupply, hfds, d, hd, hdo⟩ := h.waits hmark
    have hfd := hinput u hu hmark
    obtain ⟨hgives', hsupply'⟩ := hgives.spared hs hfd fun _ _ => id
    have haffords' := haffords.spared hgives hs hfd fun _ _ => id
    exact ⟨u, hu, hgives', haffords', hsupply'.trans hsupply, hfds, d, hs.descriptor _ d hfd hd, hdo⟩
  · rw [Account.lay_nil]
    exact Connection.account_spared (c := ⟨t, j.system⟩) hs hon.opened hsink id

private theorem copyInput {source : Handle} {u : Stream} {data : Bytes} {i : Nat}
    (h : j.Serves s t o content waiting inputs (data.length + n)) (hsource : source.stream = some u)
    (hgives : (⟨u, j.system⟩ : Connection).Gives) (haffords : (⟨u, j.system⟩ : Connection).Affords s.asked)
    (hsupply : (⟨u, j.system⟩ : Connection).supply = .bytes data)
    (hdevice : ∃ d, j.system.descriptor? u.fd = some d ∧ d.device = i) (hio : i ≠ o)
    (hreg : ∀ dev, j.system.device? i = some dev → dev.content.isRegular = true) (hsink : u.fd ≠ t.fd)
    (hinput : ∀ u₀, j.standardInput.stream = some u₀ → standardMark ∈ inputs → u₀.fd ≠ u.fd) :
    ∃ (l : Channel) (events : List Event), (j.work source).copy s = (l.work source j.sink events, .ok data.length) ∧
      l.source.fd = u.fd ∧ l.Flows (· = o) i o s.asked [] ((joined content inputs waiting).length + n) ∧
      j.Passes t (j.after (l.work source j.sink events)) l.sink data ∧
      (j.after (l.work source j.sink events)).Serves s l.sink o content waiting inputs n := by
  have hflows : (⟨u, t, j.system⟩ : Channel).Flows (· = o) i o s.asked data ((joined content inputs waiting).length + n) :=
    ⟨hgives, haffords, hsupply, h.ready, h.writes, h.willing.mono (by omega), hsink, hdevice, h.output, hio, .inr hreg, rfl⟩
  have hwork : j.work source = (⟨u, t, j.system⟩ : Channel).work source j.sink j.events := by
    rw [Channel.work, Handle.holding_self hsource, Handle.holding_self h.sink]
    rfl
  obtain ⟨l, events, hcopy, hpours, hflows'⟩ := Work.copy_flows (s := s) source j.sink j.events hflows
  rw [← hwork] at hcopy
  have hspares := hpours.spares
  refine ⟨l, events, hcopy, hpours.source.fd, hflows', ⟨hpours.sink, hpours.account, hspares.grows⟩,
    ⟨rfl, hflows'.ready, hflows'.writes, hflows'.output, ?_, fun input hin hne => ?_, fun hmark => ?_⟩⟩
  · exact hflows'.willing.mono (Nat.le_add_left _ _)
  · exact (h.files input hin hne).spared hspares fun _ _ _ _ => id
  · obtain ⟨u₀, hu₀, hgives₀, haffords₀, hsupply₀, hfds, d, hd, hdo⟩ := h.waits hmark
    have hfd : ¬ (u₀.fd = u.fd ∨ u₀.fd = t.fd) := fun heq => heq.elim (hinput u₀ hu₀ hmark) hfds
    have hno : ∀ d₀, j.system.descriptor? u₀.fd = some d₀ → ¬ d₀.device = o := fun d₀ hd₀ => by
      rw [hd] at hd₀
      cases hd₀
      exact hdo
    obtain ⟨hgives', hsupply'⟩ := hgives₀.spared (c := ⟨u₀, j.system⟩) hspares hfd hno
    have haffords' := haffords₀.spared hgives₀ hspares hfd hno
    exact ⟨u₀, hu₀, hgives', haffords', hsupply'.trans hsupply₀, by rw [hpours.sink.fd]; exact hfds, d,
      hspares.descriptor _ d hfd hd, hdo⟩

private theorem closeInput_ok {l : Channel} {i k : Nat} {source : Handle} {events : List Event} (path : String)
    (h : l.Flows (· = o) i o k [] n) :
    ∃ sys, (j.after (l.work source j.sink events)).closeInput path (source.holding l.front) =
        (⟨j.standardInput, j.sink.holding l.back, sys, (closeEvents (source.holding l.front) true).reverse ++ events⟩,
          .ok ()) ∧
      System.Spares (· = l.source.fd) (fun _ => False) l.system sys := by
  obtain ⟨d, hd, hdi⟩ := h.input
  rcases hclose : l.front.close with ⟨sys, result⟩
  obtain ⟨rfl, hdrops⟩ := Connection.close_drained h.gives.drained hd hclose
  refine ⟨sys, ?_, hdrops.spares rfl fun d₀ dev₀ ho₀ => ?_⟩
  · have hhandle : (source.holding l.front).close l.system =
        ⟨{ source.holding l.front with stream := none }, sys, .ok ()⟩ := by
      have hclose : Connection.close ⟨l.source, l.system⟩ = _ := hclose
      simp only [Handle.close, Handle.holding, Channel.front, hclose]
      rfl
    simp only [closeInput, after, Channel.work, hhandle]
    rfl
  · obtain ⟨hd₀, hdev₀⟩ := System.opened?_eq_some.1 ho₀
    have hd₀ : l.system.descriptor? l.source.fd = some d₀ := hd₀
    rw [hd] at hd₀
    cases hd₀
    exact h.emptied.resolve_left h.apart dev₀ (hdi ▸ hdev₀)

theorem Passes.trans {j'' : Job} {t'' : Stream} {xs ys : Bytes} (h : j.Passes t j' t' xs)
    (h' : j'.Passes t' j'' t'' ys) : j.Passes t j'' t'' (xs ++ ys) where
  sink := h.sink.trans h'.sink
  account := by rw [h'.account, h.account, Account.lay_lay]
  grows := h.grows.trans h'.grows

/-- A file is opened, copied to its end and closed. -/
theorem takeInput_file {input : String} {rest : List String} (hne : input ≠ standardMark)
    (h : j.Serves s t o content waiting (input :: rest) n) :
    ∃ j' t', j.takeInput s input = (j', .ok (content input).length) ∧ j.Passes t j' t' (content input) ∧
      j'.Serves s t' o content waiting rest n := by
  obtain ⟨e, he, -⟩ := h.output
  obtain ⟨sys, u, i, hopen, hgives, haffords, hsupply, hdevice, hio, hreg, hfree, hopened⟩ :=
    openInput (h.files input List.mem_cons_self hne)
  have hsink : u.fd ≠ t.fd := by
    intro heq
    rw [heq, he] at hfree
    cases hfree
  have hinput : ∀ u₀, j.standardInput.stream = some u₀ → standardMark ∈ rest → u₀.fd ≠ u.fd := by
    intro u₀ hu₀ hmark heq
    obtain ⟨u₁, hu₁, -, -, -, -, d₁, hd₁, -⟩ := h.waits (List.mem_cons_of_mem _ hmark)
    rw [hu₀] at hu₁
    cases hu₁
    rw [← heq, hd₁] at hfree
    cases hfree
  generalize hsource : (⟨Text.lossy (toBytes input), "r", some u⟩ : Handle) = source at hopen
  have hstream : source.stream = some u := by rw [← hsource]
  have hopened : System.Spares (· = u.fd) (fun _ => False) j.system sys :=
    hopened.mono (fun _ => False.elim) fun _ => id
  obtain ⟨h₁, hpasses₁⟩ := (h.next hne).spared hopened hsink.symm hinput ((openEvents source).reverse ++ j.events)
  obtain ⟨l, events, hcopy, hu, hflows, hpasses₂, h₂⟩ :=
    copyInput h₁ hstream hgives haffords hsupply hdevice hio hreg hsink hinput
  obtain ⟨sys', hclose, hclosed⟩ := @closeInput_ok _ _ j l i _ source events input hflows
  obtain ⟨h₃, hpasses₃⟩ := h₂.spared hclosed hflows.fds.symm (by rw [hu]; exact hinput)
    ((closeEvents (source.holding l.front) true).reverse ++ events)
  have hpasses := hpasses₁.trans (hpasses₂.trans hpasses₃)
  rw [List.append_nil] at hpasses
  refine ⟨_, l.sink, ?_, hpasses, h₃⟩
  have hcopy : (({ j with system := sys }.tell (openEvents source)).work source).copy s = _ := hcopy
  have hclose : (j.after (l.work source j.sink events)).closeInput input (l.work source j.sink events).source = _ :=
    hclose
  simp only [takeInput, if_neg hne, hopen, hcopy, hclose]
  rfl

/-- All inputs are copied in their order. -/
theorem takeInputs_serves (h : j.Serves s t o content waiting inputs n) (total : Nat) :
    ∃ j' t' waiting', j.takeInputs s inputs total =
        (j', .ok (total + (joined content inputs waiting).length)) ∧
      j.Passes t j' t' (joined content inputs waiting) ∧ j'.Serves s t' o content waiting' [] n := by
  induction inputs generalizing j t waiting total with
  | nil =>
    refine ⟨j, t, waiting, rfl, ⟨.refl t, (Account.lay_nil _).symm, .refl _⟩, h⟩
  | cons input rest ih =>
    have hinput : ∃ j₁ t₁ bytes waiting₁, j.takeInput s input = (j₁, .ok bytes.length) ∧
        j.Passes t j₁ t₁ bytes ∧ j₁.Serves s t₁ o content waiting₁ rest n ∧
        joined content (input :: rest) waiting = bytes ++ joined content rest waiting₁ := by
      by_cases hmark : input = standardMark
      · subst hmark
        obtain ⟨j₁, t₁, htake, hpasses, h₁⟩ := takeInput_standard (s := s) h
        exact ⟨j₁, t₁, waiting, [], htake, hpasses, h₁, if_pos rfl⟩
      · obtain ⟨j₁, t₁, htake, hpasses, h₁⟩ := takeInput_file (s := s) hmark h
        exact ⟨j₁, t₁, content input, waiting, htake, hpasses, h₁, if_neg hmark⟩
    obtain ⟨j₁, t₁, bytes, waiting₁, htake, hpasses₁, h₁, hjoined⟩ := hinput
    obtain ⟨j₂, t₂, waiting₂, hrest, hpasses₂, h₂⟩ := ih h₁ (total + bytes.length)
    refine ⟨j₂, t₂, waiting₂, ?_, hjoined ▸ hpasses₁.trans hpasses₂, h₂⟩
    rw [hjoined, List.length_append, ← Nat.add_assoc, ← hrest]
    simp only [takeInputs, htake]

end Job

end Concat

end BufferedFiles
