import BufferedFiles.Proofs.StreamInvariant
import BufferedFiles.Proofs.Walks

/-!
# Opening

A new descriptor gets a number no other one has and leaves everything else alone. A stream that was
just made has used nothing of its buffer, whether a path was opened or a descriptor was adopted.
-/
namespace BufferedFiles

/-- What a file holds once a mode has opened it. -/
def OpenMode.opens (mode : OpenMode) (data : Bytes) : Bytes :=
  if mode.truncates then [] else data

/-- Where a stream starts in a file it has opened: output that only appends starts at the end. -/
def OpenMode.begins (mode : OpenMode) (data : Bytes) : Nat :=
  if mode.appends && !mode.reads then (mode.opens data).length else 0

theorem OpenMode.begins_le (mode : OpenMode) (data : Bytes) : mode.begins data ≤ (mode.opens data).length := by
  unfold begins
  split
  · exact Nat.le_refl _
  · exact Nat.zero_le _

/-- A stream that was not used yet. -/
structure Stream.Fresh (s : Stream) : Prop where
  window : s.window = []
  cursor : s.cursor = 0
  pending : s.pending = []
  writing : s.writing = false
  offset : s.offset = none
  signs : s.signs = (false, false, none)
  capacity : s.capacity ≤ 1

theorem Stream.Fresh.ofMode (fd : Nat) (reads writes appends : Bool) :
    Stream.Fresh { fd, reads, writes, appends } := ⟨rfl, rfl, rfl, rfl, rfl, rfl, Nat.zero_le 1⟩

theorem Stream.Fresh.bufferSize_dvd {s : Stream} (h : s.Fresh) : s.bufferSize ∣ blockSize := by
  have hcap := h.capacity
  unfold bufferSize
  split
  · rw [show s.capacity = 1 by omega]
    exact Nat.one_dvd _
  · split <;> decide

/-- The stream is used for what its mode says. -/
structure Stream.HasMode (s : Stream) (mode : OpenMode) : Prop where
  reads : s.reads = mode.reads
  writes : s.writes = mode.writes
  appends : s.appends = mode.appends

theorem Stream.Kin.hasMode {s t : Stream} {mode : OpenMode} (h : s.Kin t) (hs : s.HasMode mode) :
    t.HasMode mode := ⟨h.reads.trans hs.reads, h.writes.trans hs.writes, h.appends.trans hs.appends⟩

namespace System

variable {sys sys' : System} {fd i : Nat} {d : Descriptor} {dev : Device} {path : Bytes}
  {place : List Name} {mode : OpenMode}

theorem descriptor?_freeNumber (sys : System) : sys.descriptor? sys.freeNumber = none := by
  unfold descriptor? freeNumber
  by_cases h : sys.descriptors.findIdx Option.isNone < sys.descriptors.length
  · have hnone := List.findIdx_getElem (w := h)
    rw [List.getElem?_eq_getElem h, Option.join_some]
    simpa using hnone
  · rw [List.getElem?_eq_none (by omega)]
    rfl

theorem descriptor?_addDescriptor (sys : System) (d : Descriptor) (j : Nat) :
    (sys.addDescriptor d).1.descriptor? j =
      if j = (sys.addDescriptor d).2 then some d else sys.descriptor? j := by
  unfold addDescriptor
  dsimp only
  split
  · rename_i hlt
    rw [descriptor?_setDescriptor]
    by_cases hj : j = sys.freeNumber
    · rw [if_pos ⟨hj.symm, hlt⟩, if_pos hj]
    · rw [if_neg fun h => hj h.1.symm, if_neg hj]
  · rename_i hge
    have hlen : sys.freeNumber = sys.descriptors.length := by
      have hle : sys.freeNumber ≤ sys.descriptors.length := List.findIdx_le_length
      omega
    simp only [descriptor?, hlen]
    by_cases hj : j = sys.descriptors.length
    · rw [if_pos hj, hj, List.getElem?_append_right (Nat.le_refl _), Nat.sub_self]
      rfl
    · rw [if_neg hj]
      by_cases hlt : j < sys.descriptors.length
      · rw [List.getElem?_append_left hlt]
      · have hlonger : (sys.descriptors ++ [some d]).length = sys.descriptors.length + 1 := by simp
        rw [List.getElem?_eq_none (by omega), List.getElem?_eq_none (by omega)]

theorem addDescriptor_device? (sys : System) (d : Descriptor) (j : Nat) :
    (sys.addDescriptor d).1.device? j = sys.device? j := by
  unfold addDescriptor
  dsimp only
  split <;> rfl

theorem addDescriptor_largestOffset (sys : System) (d : Descriptor) :
    (sys.addDescriptor d).1.largestOffset = sys.largestOffset := by
  unfold addDescriptor
  dsimp only
  split <;> rfl

/-- The descriptor of an opened path. -/
theorem openPath_ok (e : sys.openPath path mode = (sys', .ok fd)) :
    ∃ sys₁ i, sys.openDevice path mode = (sys₁, .ok i) ∧
      sys' = (sys₁.addDescriptor
        ⟨i, mode.reads, mode.writes, mode.appends, 0⟩).1 ∧
      sys'.descriptor? fd = some ⟨i, mode.reads, mode.writes, mode.appends, 0⟩ := by
  unfold openPath at e
  split at e
  · cases e
  · rename_i sys₁ i hopen
    simp only [Prod.mk.injEq, Except.ok.injEq] at e
    obtain ⟨rfl, rfl⟩ := e
    refine ⟨sys₁, i, hopen, rfl, ?_⟩
    rw [descriptor?_addDescriptor, if_pos rfl]

/-- A path leads to a regular file: it is there, or a mode that makes files finds it missing. -/
inductive Leads (sys : System) (mode : OpenMode) (path : Bytes) (place : List Name) : Bytes → Prop
  | there {i : Nat} {dev : Device} {data : Bytes} :
      sys.find path = .ok place → sys.lookup place = some i → sys.device? i = some dev →
      dev.content = .regular data → dev.Reliable → data.length ≤ sys.largestOffset →
      Leads sys mode path place data
  | made : mode.creates = true → sys.findOrMake path = .ok (.missing place) → Leads sys mode path place []

/-- `sys'` is `sys` after a mode opened the file at a place, which is the device `i`. -/
structure Provides (sys sys' : System) (mode : OpenMode) (place : List Name) (data : Bytes) (i : Nat)
    (dev : Device) : Prop where
  device : sys'.device? i = some dev
  content : dev.content = .regular (mode.opens data)
  reliable : dev.Reliable
  named : sys'.lookup place = some i
  origin : sys.lookup place = some i ∨ sys.device? i = none
  same : mode.truncates = false → ∀ dev', sys.device? i = some dev' → dev' = dev
  foreign : ∀ j dev', j ≠ i → sys.device? j = some dev' → sys'.device? j = some dev'
  grows : sys.Grows sys'
  largest : sys'.largestOffset = sys.largestOffset

/-- A descriptor makes no difference to what a path leads to. -/
private theorem Provides.of_same {sys₁ sys₂ : System} {data : Bytes}
    (h : sys.Provides sys₁ mode place data i dev) (hdevice : ∀ j, sys₂.device? j = sys₁.device? j)
    (hnames : sys₂.names = sys₁.names) (hhome : sys₂.home = sys₁.home)
    (hlargest : sys₂.largestOffset = sys₁.largestOffset) :
    sys.Provides sys₂ mode place data i dev where
  device := (hdevice i).trans h.device
  content := h.content
  reliable := h.reliable
  named := by
    unfold lookup
    rw [hnames]
    exact h.named
  origin := h.origin
  same := h.same
  foreign j dev' hj hdev := (hdevice j).trans (h.foreign j dev' hj hdev)
  grows := h.grows.trans (.of_same hdevice hnames hhome)
  largest := hlargest.trans h.largest

/-- A file a path leads to is opened in every mode that does not insist on making it. -/
theorem openDevice_leads {data : Bytes} (h : sys.Leads mode path place data)
    (hx : mode.exclusive = false) :
    ∃ sys' i dev, sys.openDevice path mode = (sys', .ok i) ∧
      sys.Provides sys' mode place data i dev ∧ ∀ j, sys'.descriptor? j = sys.descriptor? j := by
  cases h with
  | made hcreates hmissing =>
    have hnone := lookup_of_missing hmissing
    have hnew : sys.device? sys.devices.length = none := List.getElem?_eq_none (Nat.le_refl _)
    have hopens : mode.opens [] = [] := ite_self _
    refine ⟨(sys.addName place (.regular [])).1, sys.devices.length, { content := .regular [] }, ?_, ?_,
      fun _ => rfl⟩
    · unfold openDevice
      rw [if_pos hcreates, hmissing]
      rfl
    refine ⟨device?_addDevice sys _, by rw [hopens], nofun, ?_, .inr hnew, fun _ dev' hdev => ?_,
      fun j dev' _ hdev => ?_, ⟨rfl, ⟨_, rfl⟩, fun j dev' hdev => ?_⟩, rfl⟩
    · change (sys.names ++ [(place, sys.devices.length)]).lookup place = some sys.devices.length
      have hnone : sys.names.lookup place = none := hnone
      rw [List.lookup_append, hnone]
      simp
    · rw [hnew] at hdev
      cases hdev
    · exact (List.getElem?_append_left (lt_of_device? hdev)).trans hdev
    · exact ⟨dev', (List.getElem?_append_left (lt_of_device? hdev)).trans hdev, .refl _⟩
  | @there i dev data hfind hlookup hdev hreg hr hsize =>
    have hdir : sys.isDirectory place = false := by
      simp [isDirectory, contentAt, hlookup, hdev, hreg]
    have hplace : (if mode.creates then sys.findOrMake path else (sys.find path).map .existing) =
        .ok (.existing place) := by
      split
      · exact findOrMake_of_find hfind hdir
      · rw [hfind]
        rfl
    have hmake : (mode.creates && mode.exclusive) = false := by rw [hx, Bool.and_false]
    have hlt := lt_of_device? hdev
    unfold openDevice
    simp only [hplace, hlookup, hdev, hmake, Bool.false_eq_true, if_false, hreg]
    cases ht : mode.truncates with
    | true =>
      refine ⟨_, i, { dev with content := .regular [] }, rfl, ⟨?_, ?_, hr, hlookup, .inl hlookup,
        fun hno => Bool.noConfusion (ht.symm.trans hno), fun j dev' hj hdev' => ?_,
        ⟨rfl, ⟨[], (List.append_nil _).symm⟩, fun j dev' hdev' => ?_⟩, rfl⟩, fun _ => rfl⟩
      · rw [device?_setDevice, if_pos ⟨rfl, hlt⟩]
      · rw [OpenMode.opens, if_pos ht]
      · rw [device?_setDevice, if_neg fun hij => hj hij.1.symm, hdev']
      · rw [device?_setDevice]
        by_cases hij : i = j
        · subst hij
          rw [hdev] at hdev'
          cases hdev'
          rw [if_pos ⟨rfl, hlt⟩, hreg]
          exact ⟨_, rfl, trivial⟩
        · rw [if_neg fun h => hij h.1]
          exact ⟨dev', hdev', .refl _⟩
    | false =>
      refine ⟨sys, i, dev, rfl, ⟨hdev, ?_, hr, hlookup, .inl hlookup, fun _ dev' hdev' => ?_,
        fun _ _ _ hdev' => hdev', .refl sys, rfl⟩, fun _ => rfl⟩
      · rw [hreg, OpenMode.opens, if_neg (by rw [ht]; exact Bool.false_ne_true)]
      · rw [hdev] at hdev'
        exact (Option.some.inj hdev').symm

theorem Leads.length_le {data : Bytes} (h : sys.Leads mode path place data) :
    (mode.opens data).length ≤ sys.largestOffset := by
  unfold OpenMode.opens
  split
  · exact Nat.zero_le _
  · cases h with
    | there _ _ _ _ _ hsize => exact hsize
    | made => exact Nat.zero_le _

theorem addDescriptor_names (sys : System) (d : Descriptor) :
    (sys.addDescriptor d).1.names = sys.names ∧ (sys.addDescriptor d).1.home = sys.home := by
  unfold addDescriptor
  dsimp only
  split <;> exact ⟨rfl, rfl⟩

theorem addDescriptor_number (sys : System) (d : Descriptor) :
    (sys.addDescriptor d).2 = sys.freeNumber := by
  unfold addDescriptor
  dsimp only
  split <;> rfl

/-- A new descriptor of a file that was opened. -/
private theorem openPath_leads {data : Bytes} (h : sys.Leads mode path place data)
    (hx : mode.exclusive = false) :
    ∃ sys' fd i dev, sys.openPath path mode = (sys', .ok fd) ∧
      sys'.opened? fd = some (⟨i, mode.reads, mode.writes, mode.appends, 0⟩, dev) ∧
      sys.Provides sys' mode place data i dev ∧
      sys.descriptor? fd = none ∧ ∀ j, j ≠ fd → sys'.descriptor? j = sys.descriptor? j := by
  obtain ⟨sys₁, i, dev, hopen, hprovides, hsame⟩ := openDevice_leads h hx
  generalize hd : (⟨i, mode.reads, mode.writes, mode.appends, 0⟩ : Descriptor) = d
  have hdevice := addDescriptor_device? sys₁ d
  have hdesc := descriptor?_addDescriptor sys₁ d
  have hnumber := addDescriptor_number sys₁ d
  obtain ⟨hnames, hhome⟩ := addDescriptor_names sys₁ d
  have hlargest := addDescriptor_largestOffset sys₁ d
  have hpath : sys.openPath path mode = ((sys₁.addDescriptor d).1, .ok (sys₁.addDescriptor d).2) := by
    simp only [openPath, hopen]
    rw [hd]
  generalize sys₁.addDescriptor d = added at hdevice hdesc hnumber hnames hhome hlargest hpath
  obtain ⟨sys₂, fd⟩ := added
  refine ⟨sys₂, fd, i, dev, hpath, ?_, hprovides.of_same hdevice hnames hhome hlargest, ?_, fun j hj => ?_⟩
  · have hnew := hdesc fd
    rw [if_pos rfl] at hnew
    rw [hd]
    refine opened?_eq_some.2 ⟨hnew, (hdevice _).trans ?_⟩
    rw [← hd]
    exact hprovides.device
  · rw [← hsame]
    dsimp only at hnumber
    rw [hnumber]
    exact descriptor?_freeNumber sys₁
  · have hold := hdesc j
    rw [if_neg hj] at hold
    exact hold.trans (hsame j)

/-- A stream on a file a path leads to. Its descriptor was free, and the others stay. -/
theorem openStream_leads {text data : Bytes} (hpath : path.contains 0 = false)
    (htext : text.contains 0 = false) (hmode : OpenMode.parse? OpenMode.pathReach text = some mode)
    (hplain : OpenMode.charset? text = none) (hx : mode.exclusive = false) (h : sys.Leads mode path place data) :
    ∃ sys' fd i dev, sys.openStream path text =
        (sys', .ok { fd, reads := mode.reads, writes := mode.writes, appends := mode.appends }) ∧
      sys'.opened? fd = some (⟨i, mode.reads, mode.writes, mode.appends, mode.begins data⟩, dev) ∧
      sys.Provides sys' mode place data i dev ∧
      sys.descriptor? fd = none ∧ ∀ j, j ≠ fd → sys'.descriptor? j = sys.descriptor? j := by
  obtain ⟨sys₁, fd, i, dev, hopen, ho, hprovides, hfree, hothers⟩ := openPath_leads h hx
  have hno : ¬ (path.contains 0 || text.contains 0) = true := by
    rw [hpath, htext]
    exact Bool.false_ne_true
  unfold openStream
  rw [if_neg hno]
  simp only [hmode, hopen, hplain, lacks, Option.any_none, Bool.false_eq_true, if_false]
  cases hend : (mode.appends && !mode.reads) with
  | false =>
    have hbegins : mode.begins data = 0 := by rw [OpenMode.begins, hend]; rfl
    rw [hbegins]
    exact ⟨_, fd, i, dev, rfl, ho, hprovides.of_same (fun _ => rfl) rfl rfl rfl, hfree, hothers⟩
  | true =>
    have hbegins : mode.begins data = (mode.opens data).length := by rw [OpenMode.begins, hend]; rfl
    obtain ⟨sys₂, hseek⟩ := seek_regular .finish 0 (mode.opens data).length ho hprovides.content
      (by simp [base, Content.size, hprovides.content]) (by rw [hprovides.largest]; exact h.length_le)
    obtain ⟨hthrough, ho₂, -, -⟩ := seek_ok ho hseek
    have hdevice : ∀ j, sys₂.device? j = sys₁.device? j := by
      intro j
      by_cases hj : i = j
      · rw [← hj, hprovides.device]
        exact (opened?_eq_some.1 ho₂).2
      · refine hthrough.foreign j fun d hd => ?_
        rw [(opened?_eq_some.1 ho).1] at hd
        cases hd
        exact hj
    rw [hbegins]
    simp only [hseek, if_true]
    exact ⟨_, fd, i, dev, rfl, ho₂,
      hprovides.of_same hdevice hthrough.names hthrough.home hthrough.largestOffset, hfree,
      fun j hj => (hthrough.others j hj).trans (hothers j hj)⟩

/-- A descriptor is the same but for the position once its device may have been moved to the end. -/
private theorem own_of_turn (h : sys.descriptor? fd = some d) (turned : Bool) :
    ∃ p, (if turned = true then (sys.seek fd .finish 0).1 else sys).descriptor? fd =
      some { d with position := p } := by
  split
  · exact (through_seek sys fd .finish 0).own d h
  · exact ⟨d.position, h⟩

/-- A stream that appends is in front of a descriptor that does. -/
theorem openStream_fresh {text : Bytes} {s : Stream} (e : sys.openStream path text = (sys', .ok s)) :
    s.Fresh ∧ ∀ d dev, sys'.opened? s.fd = some (d, dev) → s.appends = true → d.appending = true := by
  unfold openStream at e
  split at e
  · cases e
  split at e
  · cases e
  rename_i mode hmode
  split at e
  · cases e
  rename_i sys₁ fd hopen
  obtain ⟨sys₀, i, -, -, hdesc⟩ := openPath_ok hopen
  split at e
  · cases e
  simp only [Prod.mk.injEq, Except.ok.injEq] at e
  obtain ⟨rfl, rfl⟩ := e
  refine ⟨.ofMode _ _ _ _, fun d dev ho happ => ?_⟩
  obtain ⟨p, hp⟩ := own_of_turn hdesc (mode.appends && !mode.reads)
  have hd := (opened?_eq_some.1 ho).1
  have hd : (if mode.appends && !mode.reads then (sys₁.seek fd .finish 0).1 else sys₁).descriptor? fd =
      some d := hd
  rw [hp] at hd
  cases hd
  exact happ

theorem numbered?_eq_some {number : Int} (h : sys.numbered? number = some (fd, d)) :
    number = fd ∧ sys.descriptor? fd = some d := by
  unfold numbered? at h
  split at h
  · cases h
  · rename_i hpos
    obtain ⟨d₁, hd₁, hpair⟩ := Option.map_eq_some_iff.1 h
    cases hpair
    exact ⟨(Int.toNat_of_nonneg (Int.not_lt.1 hpos)).symm, hd₁⟩

private theorem setDescriptor_self (h : sys.descriptor? fd = some d) : sys.setDescriptor fd (some d) = sys := by
  simp only [descriptor?, Option.join_eq_some_iff] at h
  obtain ⟨hlt, hval⟩ := List.getElem?_eq_some_iff.1 h
  simp only [setDescriptor]
  rw [← hval, List.set_getElem_self]

/-- A stream over an adopted descriptor, which appends from then on if the stream does. -/
theorem adoptStream_ok {text : Bytes} {number : Int} {s : Stream}
    (e : sys.adoptStream number text = (sys', .ok s)) :
    ∃ d sys₁, number = s.fd ∧ sys.descriptor? s.fd = some d ∧
      s = { fd := s.fd, reads := s.reads, writes := s.writes, appends := s.appends } ∧
      Through s.fd (sys.setDescriptor s.fd (some { d with appending := d.appending || s.appends })) sys₁ ∧
      sys' = { sys₁ with openStreams := sys₁.openStreams + 1 } := by
  unfold adoptStream at e
  split at e
  · cases e
  split at e
  · cases e
  rename_i mode hmode
  split at e
  · cases e
  rename_i fd d hnumber
  obtain ⟨hnat, hd⟩ := numbered?_eq_some hnumber
  split at e
  · cases e
  dsimp only at e
  have hturn : (if (mode.appends && !d.appending) = true then
      sys.setDescriptor fd (some { d with appending := true }) else sys) =
      sys.setDescriptor fd (some { d with appending := d.appending || mode.appends }) := by
    split
    · rename_i happ
      rw [(Bool.and_eq_true_iff.1 happ).1, Bool.or_true]
    · rename_i hno
      have hsame : (d.appending || mode.appends) = d.appending := by
        cases happ : mode.appends <;> simp_all
      rw [hsame, setDescriptor_self hd]
  rw [hturn] at e
  generalize hmove : (if (mode.appends && !d.appending && !mode.reads) = true then
    (Prod.fst (seek _ fd .finish 0)) else _) = sys₁ at e
  cases e
  refine ⟨d, sys₁, hnat, hd, rfl, ?_, rfl⟩
  rw [← hmove]
  split
  · exact through_seek _ _ _ _
  · exact .refl _ _

theorem adoptStream_fresh {text : Bytes} {number : Int} {s : Stream}
    (e : sys.adoptStream number text = (sys', .ok s)) :
    s.Fresh ∧ ∀ d dev, sys'.opened? s.fd = some (d, dev) → s.appends = true → d.appending = true := by
  obtain ⟨d₀, sys₁, -, hd₀, hs, hthrough, rfl⟩ := adoptStream_ok e
  refine ⟨?_, fun d dev ho happ => ?_⟩
  · rw [hs]
    exact .ofMode _ _ _ _
  obtain ⟨p, hp⟩ := hthrough.own _
    ((descriptor?_setDescriptor _ _ _ _).trans (if_pos ⟨rfl, lt_of_descriptor? hd₀⟩))
  have hd : sys₁.descriptor? s.fd = some d := (opened?_eq_some.1 ho).1
  rw [hp] at hd
  cases hd
  show (d₀.appending || s.appends) = true
  rw [happ, Bool.or_true]

end System

end BufferedFiles
