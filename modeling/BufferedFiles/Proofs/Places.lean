import BufferedFiles.Proofs.HandleRun

/-!
# Where paths lead afterwards

Calls on descriptors keep all names and the kind of every device, so a path leads where it led. Opening
a path adds one name at most, of a new regular file: whatever is found then was found before, or is the
new file.
-/
namespace BufferedFiles

/-- What lies still unless it is written to: a file or a directory, or nothing at all. -/
def Content.IsStored : Content → Prop
  | .regular _ | .directory | .null => True
  | _ => False

theorem Content.SameKind.isStored {a b : Content} (h : a.SameKind b) (ha : a.IsStored) : b.IsStored := by
  cases a <;> cases b <;> trivial

namespace System

variable {a b c sys sys' : System} {path : Bytes} {place made dir there : List Name} {name : Name}
  {fd i limit : Nat} {mode : OpenMode} {dev : Device} {data : Bytes}

/-- The two systems have the same names, and the same devices by their kinds. -/
structure Alike (a b : System) : Prop where
  names : b.names = a.names
  home : b.home = a.home
  device : ∀ i dev, a.device? i = some dev →
    ∃ dev', b.device? i = some dev' ∧ dev.content.SameKind dev'.content
  missing : ∀ i, a.device? i = none → b.device? i = none

theorem Alike.refl (a : System) : a.Alike a := ⟨rfl, rfl, fun _ dev h => ⟨dev, h, .refl _⟩, fun _ h => h⟩

theorem Alike.symm (h : a.Alike b) : b.Alike a where
  names := h.names.symm
  home := h.home.symm
  device i dev' hdev' := by
    cases hdev : a.device? i with
    | none =>
      rw [h.missing i hdev] at hdev'
      cases hdev'
    | some dev =>
      obtain ⟨dev'', hdev'', hkind⟩ := h.device i dev hdev
      rw [hdev'] at hdev''
      cases hdev''
      exact ⟨dev, rfl, hkind.symm⟩
  missing i hdev' := by
    cases hdev : a.device? i with
    | none => rfl
    | some dev =>
      obtain ⟨dev', hsome, -⟩ := h.device i dev hdev
      rw [hdev'] at hsome
      cases hsome

theorem Alike.trans (h : a.Alike b) (h' : b.Alike c) : a.Alike c where
  names := h'.names.trans h.names
  home := h'.home.trans h.home
  device i dev hdev := by
    obtain ⟨dev', hdev', hkind⟩ := h.device i dev hdev
    obtain ⟨dev'', hdev'', hkind'⟩ := h'.device i dev' hdev'
    exact ⟨dev'', hdev'', hkind.trans hkind'⟩
  missing i hdev := h'.missing i (h.missing i hdev)

theorem Alike.of_same (hdevice : ∀ i, b.device? i = a.device? i) (hnames : b.names = a.names)
    (hhome : b.home = a.home) : a.Alike b :=
  ⟨hnames, hhome, fun i dev hdev => ⟨dev, (hdevice i).trans hdev, .refl _⟩, fun i hdev => (hdevice i).trans hdev⟩

theorem Through.alike (h : Through fd a b) : a.Alike b where
  names := h.names
  home := h.home
  device i dev hdev := by
    obtain ⟨dev', hdev', hb⟩ := h.device i dev hdev
    exact ⟨dev', hdev', hb.kind⟩
  missing := h.missing

theorem Drops.alike (h : Drops fd a b) : a.Alike b := .of_same h.device h.names h.home

theorem Alike.grows (h : a.Alike b) : a.Grows b :=
  ⟨h.home, ⟨[], by rw [h.names, List.append_nil]⟩, h.device⟩

theorem Alike.lookup (h : a.Alike b) : b.lookup place = a.lookup place := by
  unfold System.lookup
  rw [h.names]

theorem Alike.find (h : a.Alike b) : b.find path = .ok place ↔ a.find path = .ok place :=
  ⟨h.symm.grows.find, h.grows.find⟩

/-- `b` is `a` after calls that closed no descriptor but those in `lost`. -/
structure Stays (lost : Nat → Prop) (a b : System) : Prop where
  alike : a.Alike b
  descriptor : ∀ fd d, ¬ lost fd → a.descriptor? fd = some d →
    ∃ p, b.descriptor? fd = some { d with position := p }

theorem Stays.refl (lost : Nat → Prop) (a : System) : Stays lost a a :=
  ⟨.refl a, fun _ d _ hd => ⟨d.position, hd⟩⟩

theorem Stays.trans {lost : Nat → Prop} (h : Stays lost a b) (h' : Stays lost b c) : Stays lost a c where
  alike := h.alike.trans h'.alike
  descriptor fd d hfd hd := by
    obtain ⟨p, hp⟩ := h.descriptor fd d hfd hd
    obtain ⟨q, hq⟩ := h'.descriptor fd _ hfd hp
    exact ⟨q, hq⟩

theorem Stays.mono {lost lost' : Nat → Prop} (h : Stays lost a b) (hl : ∀ fd, lost fd → lost' fd) :
    Stays lost' a b := ⟨h.alike, fun fd d hfd hd => h.descriptor fd d (fun hyes => hfd (hl fd hyes)) hd⟩

theorem Through.stays (h : Through fd a b) (lost : Nat → Prop) : Stays lost a b where
  alike := h.alike
  descriptor j d _ hd := by
    by_cases hj : j = fd
    · subst hj
      exact h.own d hd
    · exact ⟨d.position, (h.others j hj).trans hd⟩

theorem Drops.stays (h : Drops fd a b) : Stays (· = fd) a b :=
  ⟨h.alike, fun j d hj hd => ⟨d.position, (h.others j hj).trans hd⟩⟩

theorem lookup_addName (content : Content) : (sys.addName made content).1.lookup there =
    (sys.lookup there).or (if there = made then some sys.devices.length else none) := by
  change (sys.names ++ [(made, sys.devices.length)]).lookup there = _
  rw [List.lookup_append]
  congr 1
  by_cases h : there = made
  · simp [h]
  · have hno : (there == made) = false := beq_false_of_ne h
    rw [List.lookup_cons, hno, if_neg h]
    rfl

theorem device?_addName (content : Content) : (sys.addName made content).1.device? i =
    if i = sys.devices.length then some { content } else sys.device? i := by
  change (sys.devices ++ [({ content } : Device)])[i]? = _
  by_cases h : i = sys.devices.length
  · simp [h]
  · rw [if_neg h, System.device?]
    by_cases hlt : i < sys.devices.length
    · rw [List.getElem?_append_left hlt]
    · rw [List.getElem?_eq_none (by simp; omega), List.getElem?_eq_none (by omega)]

/-- A directory was there before a file was made. -/
theorem isDirectory_of_addName (h : (sys.addName made (.regular data)).1.isDirectory dir = true)
    (hnew : sys.lookup made = none) : dir ≠ made ∧ sys.isDirectory dir = true := by
  obtain ⟨i, dev, hi, hdev, hcontent⟩ := isDirectory_iff.1 h
  rw [device?_addName] at hdev
  split at hdev
  · cases hdev
    cases hcontent
  rename_i hold
  rw [lookup_addName] at hi
  have hne : dir ≠ made := by
    rintro rfl
    rw [hnew, if_pos rfl] at hi
    exact hold (Option.some.inj hi).symm
  rw [if_neg hne, Option.or_none] at hi
  exact ⟨hne, isDirectory_iff.2 ⟨i, dev, hi, hdev, hcontent⟩⟩

/-- A walk goes the way it went before, or ends at the file that was made. -/
theorem walk_of_addName {names : List Name} (hnew : sys.lookup made = none)
    (h : names.foldlM (sys.addName made (.regular data)).1.enter dir = .ok there) :
    names.foldlM sys.enter dir = .ok there ∨ there = made := by
  induction names generalizing dir with
  | nil => exact .inl h
  | cons name rest ih =>
    obtain ⟨next, hstep, hrest⟩ := walk_cons.1 h
    by_cases hnext : next = made
    · -- There is no way on from a file.
      cases rest with
      | nil =>
        cases hrest
        exact .inr hnext
      | cons name' rest =>
        obtain ⟨_, hon, -⟩ := walk_cons.1 hrest
        exact absurd hnext (isDirectory_of_addName (enter_eq_ok.1 hon).1 hnew).1
    · obtain ⟨hdir, hmove⟩ := enter_eq_ok.1 hstep
      have hbefore := (isDirectory_of_addName hdir hnew).2
      refine (ih hrest).imp_left fun hwalk => walk_cons.2 ⟨next, enter_eq_ok.2 ⟨hbefore, ?_⟩, hwalk⟩
      cases hmove with
      | here => exact .here
      | up => exact .up
      | down hone htwo hshort hthere =>
        rw [lookup_addName, if_neg hnext, Option.or_none] at hthere
        exact .down hone htwo hshort hthere

theorem find_of_addName (hnew : sys.lookup made = none)
    (h : (sys.addName made (.regular data)).1.find path = .ok place) :
    sys.find path = .ok place ∨ place = made := by
  obtain ⟨hempty, hlong, hwalk, hslash⟩ := find_eq_ok.1 h
  refine (walk_of_addName hnew hwalk).imp_left fun hwalk => find_eq_ok.2 ⟨hempty, hlong, hwalk, fun hend => ?_⟩
  exact (isDirectory_of_addName (hslash hend) hnew).2

/-- Wherever a path leads, it is to something stored. -/
def LeadsToStored (sys : System) (path : Bytes) : Prop :=
  ∀ place i dev, sys.find path = .ok place → sys.lookup place = some i → sys.device? i = some dev →
    dev.content.IsStored

theorem LeadsToStored.alike (h : a.LeadsToStored path) (hs : a.Alike b) : b.LeadsToStored path := by
  intro place i dev' hfind hlookup hdev'
  obtain ⟨dev, hdev, hkind⟩ := hs.symm.device i dev' hdev'
  exact hkind.symm.isStored (h place i dev (hs.find.1 hfind) (hs.lookup.symm.trans hlookup) hdev)

theorem LeadsToStored.addName (h : sys.LeadsToStored path) (hnew : sys.lookup made = none) (data : Bytes) :
    (sys.addName made (.regular data)).1.LeadsToStored path := by
  intro place i dev hfind hlookup hdev
  rw [device?_addName] at hdev
  split at hdev
  · cases hdev
    trivial
  rename_i hold
  rw [lookup_addName] at hlookup
  rcases find_of_addName hnew hfind with hbefore | rfl
  · cases hknown : sys.lookup place with
    | none =>
      rw [hknown, Option.none_or] at hlookup
      split at hlookup
      · exact absurd (Option.some.inj hlookup).symm hold
      · cases hlookup
    | some k =>
      rw [hknown] at hlookup
      cases hlookup
      exact h place i dev hbefore hknown hdev
  · rw [hnew, if_pos rfl] at hlookup
    exact absurd (Option.some.inj hlookup).symm hold

/-- What opening a path in a mode does to the names and the devices, and the device it comes to. -/
inductive Opens (sys : System) (path : Bytes) (mode : OpenMode) : System → Nat → Prop
  | made {place : List Name} : mode.creates = true → sys.findOrMake path = .ok (.missing place) →
      Opens sys path mode (sys.addName place (.regular [])).1 sys.devices.length
  | found {place : List Name} {i : Nat} {dev : Device} :
      (if mode.creates then sys.findOrMake path else (sys.find path).map .existing) = .ok (.existing place) →
      sys.lookup place = some i → sys.device? i = some dev → Opens sys path mode sys i
  | emptied {place : List Name} {i : Nat} {dev : Device} {data : Bytes} : mode.truncates = true →
      (if mode.creates then sys.findOrMake path else (sys.find path).map .existing) = .ok (.existing place) →
      sys.lookup place = some i → sys.device? i = some dev → dev.content = .regular data →
      Opens sys path mode (sys.setDevice i { dev with content := .regular [] }) i

theorem openDevice_opens (e : sys.openDevice path mode = (sys', .ok i)) : sys.Opens path mode sys' i := by
  unfold openDevice at e
  dsimp only at e
  split at e
  · cases e
  · rename_i place hplace
    cases e
    cases hmake : mode.creates with
    | true =>
      rw [if_pos hmake] at hplace
      exact .made hmake hplace
    | false =>
      rw [if_neg (by rw [hmake]; exact Bool.false_ne_true)] at hplace
      cases hfind : sys.find path <;> rw [hfind] at hplace <;> cases hplace
  · rename_i place hplace
    split at e
    · cases e
    rename_i k hlookup
    split at e
    · cases e
    rename_i dev hdev
    split at e
    · cases e
    split at e
    · split at e
      · cases e
      · cases e
        exact .found hplace hlookup hdev
    · rename_i data hdata
      split at e
      · rename_i htrunc
        cases e
        exact .emptied htrunc hplace hlookup hdev hdata
      · cases e
        exact .found hplace hlookup hdev
    · cases e
      exact .found hplace hlookup hdev

/-- A path that is not opened leaves nothing but an error. -/
theorem openDevice_error {e : Errno} (h : sys.openDevice path mode = (sys', .error e)) :
    sys' = { sys with lastError := e } := by
  unfold openDevice at h
  dsimp only at h
  split at h
  · cases h
    rfl
  · cases h
  · split at h
    · cases h
      rfl
    split at h
    · cases h
      rfl
    split at h
    · cases h
      rfl
    split at h
    · split at h
      · cases h
        rfl
      · cases h
    · split at h <;> cases h
    · cases h

theorem Opens.descriptors (h : sys.Opens path mode sys' i) : sys'.descriptors = sys.descriptors := by
  cases h <;> rfl

theorem Opens.largestOffset (h : sys.Opens path mode sys' i) : sys'.largestOffset = sys.largestOffset := by
  cases h <;> rfl

/-- What is emptied stays a regular file. -/
theorem alike_emptied (hdev : sys.device? i = some dev) (hreg : dev.content = .regular data) :
    sys.Alike (sys.setDevice i { dev with content := .regular [] }) where
  names := rfl
  home := rfl
  device j dev' hj := by
    rw [device?_setDevice]
    by_cases hij : i = j
    · subst hij
      rw [hdev] at hj
      cases hj
      rw [if_pos ⟨rfl, lt_of_device? hdev⟩, hreg]
      exact ⟨_, rfl, trivial⟩
    · rw [if_neg fun h => hij h.1]
      exact ⟨dev', hj, .refl _⟩
  missing j hj := by
    rw [device?_setDevice]
    by_cases hij : i = j
    · subst hij
      rw [hdev] at hj
      cases hj
    · rw [if_neg fun h => hij h.1]
      exact hj

theorem Opens.leadsToStored {other : Bytes} (h : sys.Opens path mode sys' i) (hs : sys.LeadsToStored other) :
    sys'.LeadsToStored other := by
  cases h with
  | made _ hmissing => exact hs.addName (lookup_of_missing hmissing) []
  | found => exact hs
  | emptied _ _ _ hdev hreg => exact hs.alike (alike_emptied hdev hreg)

theorem Opens.device (h : sys.Opens path mode sys' i) {j : Nat} {dev : Device} (hdev : sys.device? j = some dev) :
    ∃ dev', sys'.device? j = some dev' ∧ dev.content.SameKind dev'.content := by
  cases h with
  | made =>
    rw [device?_addName, if_neg (Nat.ne_of_lt (lt_of_device? hdev))]
    exact ⟨dev, hdev, .refl _⟩
  | found => exact ⟨dev, hdev, .refl _⟩
  | emptied _ _ _ hdev₀ hreg => exact (alike_emptied hdev₀ hreg).device j dev hdev

/-- What a mode opens that makes files is there before under the path, or is a new file. -/
theorem Opens.origin (h : sys.Opens path mode sys' i) (hcreates : mode.creates = true) :
    (∃ place, sys.findOrMake path = .ok (.existing place) ∧ sys.lookup place = some i) ∨ sys.device? i = none := by
  cases h with
  | made => exact .inr (List.getElem?_eq_none (Nat.le_refl _))
  | found hplace hlookup =>
    rw [if_pos hcreates] at hplace
    exact .inl ⟨_, hplace, hlookup⟩
  | emptied _ hplace hlookup =>
    rw [if_pos hcreates] at hplace
    exact .inl ⟨_, hplace, hlookup⟩

/-- Opening for input changes nothing. -/
theorem Opens.input (h : sys.Opens path mode sys' i) (hcreates : mode.creates = false)
    (htruncates : mode.truncates = false) :
    sys' = sys ∧ ∃ place dev, sys.find path = .ok place ∧ sys.lookup place = some i ∧ sys.device? i = some dev := by
  cases h with
  | made hyes =>
    rw [hcreates] at hyes
    cases hyes
  | @found place _ dev hplace hlookup hdev =>
    rw [if_neg (by rw [hcreates]; exact Bool.false_ne_true)] at hplace
    refine ⟨rfl, place, dev, ?_, hlookup, hdev⟩
    cases hfind : sys.find path with
    | error e =>
      rw [hfind] at hplace
      cases hplace
    | ok there =>
      rw [hfind] at hplace
      cases hplace
      rfl
  | emptied hyes =>
    rw [htruncates] at hyes
    cases hyes

/-- `b` is `a` with one more stream, over the new descriptor `fd` of the device `i`. -/
structure Attaches (fd i : Nat) (a b : System) : Prop where
  free : a.descriptor? fd = none
  own : ∃ d, b.descriptor? fd = some d ∧ d.device = i
  others : ∀ j, j ≠ fd → b.descriptor? j = a.descriptor? j
  device : ∀ j, b.device? j = a.device? j
  names : b.names = a.names
  home : b.home = a.home
  largestOffset : b.largestOffset = a.largestOffset
  openStreams : b.openStreams = a.openStreams + 1

theorem seek_device? (sys : System) (fd : Nat) (origin : Origin) (offset : Int) (j : Nat) :
    (sys.seek fd origin offset).1.device? j = sys.device? j := by
  unfold seek
  split
  · rfl
  split
  · rfl
  · rfl
  · rfl
  · rfl
  · rfl
  · dsimp only
    split <;> split <;> rfl

theorem addDescriptor_openStreams (sys : System) (d : Descriptor) :
    (sys.addDescriptor d).1.openStreams = sys.openStreams := by
  unfold addDescriptor
  dsimp only
  split <;> rfl

/-- A new descriptor that its device may have been moved through. -/
private theorem attaches_of_through {d : Descriptor} (h : Through (sys.addDescriptor d).2 (sys.addDescriptor d).1 b)
    (hdevice : ∀ j, b.device? j = (sys.addDescriptor d).1.device? j) :
    Attaches (sys.addDescriptor d).2 d.device sys { b with openStreams := b.openStreams + 1 } := by
  obtain ⟨hnames, hhome⟩ := addDescriptor_names sys d
  obtain ⟨p, hp⟩ := h.own d (by rw [descriptor?_addDescriptor, if_pos rfl])
  refine ⟨?_, ⟨_, hp, rfl⟩, fun j hj => ?_, fun j => (hdevice j).trans (addDescriptor_device? sys d j),
    h.names.trans hnames, h.home.trans hhome, h.largestOffset.trans (addDescriptor_largestOffset sys d), ?_⟩
  · rw [addDescriptor_number]
    exact descriptor?_freeNumber sys
  · refine (h.others j hj).trans ?_
    rw [descriptor?_addDescriptor, if_neg hj]
  · exact congrArg (· + 1) (h.openStreams.trans (addDescriptor_openStreams sys d))

/-- A stream that was opened, over a descriptor that was free before it. -/
theorem openStream_ok {text : Bytes} {s : Stream} (e : sys.openStream path text = (sys', .ok s)) :
    ∃ mode sys₁ i, OpenMode.parse? OpenMode.pathReach text = some mode ∧ sys.Opens path mode sys₁ i ∧
      s = { fd := s.fd, reads := mode.reads, writes := mode.writes, appends := mode.appends } ∧
      Attaches s.fd i sys₁ sys' := by
  unfold openStream at e
  split at e
  · cases e
  split at e
  · cases e
  rename_i mode hmode
  unfold openPath at e
  rcases hdevice : sys.openDevice path mode with ⟨sys₁, er | i⟩ <;> rw [hdevice] at e
  · cases e
  dsimp only at e
  split at e
  · cases e
  · cases e
    refine ⟨mode, sys₁, i, hmode, openDevice_opens hdevice, rfl, ?_⟩
    dsimp only
    split
    · exact attaches_of_through (through_seek _ _ _ _) (seek_device? _ _ _ _)
    · exact attaches_of_through (.refl _ _) fun _ => rfl

/-- The same names lead to the same devices. -/
structure SameFiles (a b : System) : Prop where
  names : b.names = a.names
  home : b.home = a.home
  device : ∀ i, b.device? i = a.device? i

theorem SameFiles.trans (h : a.SameFiles b) (h' : b.SameFiles c) : a.SameFiles c :=
  ⟨h'.names.trans h.names, h'.home.trans h.home, fun i => (h'.device i).trans (h.device i)⟩

theorem Attaches.sameFiles {fd : Nat} (h : Attaches fd i a b) : a.SameFiles b := ⟨h.names, h.home, h.device⟩

theorem Drops.sameFiles {fd : Nat} (h : Drops fd a b) : a.SameFiles b := ⟨h.names, h.home, h.device⟩

/-- The same descriptors are open in the same places, and as many streams. -/
structure SameStreams (a b : System) : Prop where
  descriptor : ∀ fd, b.descriptor? fd = a.descriptor? fd
  count : b.openStreams = a.openStreams

theorem SameStreams.blamed (a : System) (e : Errno) : a.SameStreams { a with lastError := e } :=
  ⟨fun _ => rfl, rfl⟩

theorem SameStreams.trans (h : a.SameStreams b) (h' : b.SameStreams c) : a.SameStreams c :=
  ⟨fun fd => (h'.descriptor fd).trans (h.descriptor fd), h'.count.trans h.count⟩

theorem Opens.sameStreams (h : sys.Opens path mode sys' i) : sys.SameStreams sys' := by
  cases h <;> exact ⟨fun _ => rfl, rfl⟩

/-- A new descriptor that is closed again. -/
private theorem close_addDescriptor (sys : System) (d : Descriptor) :
    sys.SameFiles ((sys.addDescriptor d).1.close (sys.addDescriptor d).2).1 ∧
      sys.SameStreams ((sys.addDescriptor d).1.close (sys.addDescriptor d).2).1 := by
  obtain ⟨hnames, hhome⟩ := addDescriptor_names sys d
  obtain ⟨hdrops, hcount⟩ := (sys.addDescriptor d).1.drops_close (sys.addDescriptor d).2
  refine ⟨⟨hdrops.names.trans hnames, hdrops.home.trans hhome, fun j => ?_⟩, ⟨fun j => ?_, ?_⟩⟩
  · exact (hdrops.device j).trans (addDescriptor_device? sys d j)
  · by_cases hj : j = (sys.addDescriptor d).2
    · rw [hj, hdrops.gone, addDescriptor_number]
      exact (descriptor?_freeNumber sys).symm
    · rw [hdrops.others j hj, descriptor?_addDescriptor, if_neg hj]
  · exact hcount.trans (addDescriptor_openStreams sys d)

/-- A path was opened for a text, and closed again for the conversion that cannot be loaded. -/
def Unconverted (sys : System) (path text : Bytes) (sys' : System) : Prop :=
  ∃ mode opened i name, OpenMode.parse? OpenMode.pathReach text = some mode ∧ OpenMode.charset? text = some name ∧
    name ∉ sys.charsets ∧ sys.Opens path mode opened i ∧ opened.SameFiles sys' ∧ sys.SameStreams sys'

theorem lacks_eq_true {charset : Option Bytes} :
    sys.lacks charset = true ↔ ∃ name, charset = some name ∧ name ∉ sys.charsets := by
  cases charset <;> simp [lacks]

theorem Opens.charsets (h : sys.Opens path mode sys' i) : sys'.charsets = sys.charsets := by
  cases h <;> rfl

theorem addDescriptor_charsets (sys : System) (d : Descriptor) :
    (sys.addDescriptor d).1.charsets = sys.charsets := by
  unfold addDescriptor
  dsimp only
  split <;> rfl

/-- A path that is not opened as a stream leaves the last error, unless it was opened and then closed again. -/
theorem openStream_error {text : Bytes} {e : StreamError} (h : sys.openStream path text = (sys', .error e)) :
    (∃ errno, sys' = { sys with lastError := errno }) ∨
      e = .ofErrno "fopen" .invalidArgument ∧ sys.Unconverted path text sys' := by
  unfold openStream at h
  split at h
  · cases h
    exact .inl ⟨sys.lastError, rfl⟩
  split at h
  · cases h
    exact .inl ⟨_, rfl⟩
  rename_i mode hmode
  unfold openPath at h
  rcases hdevice : sys.openDevice path mode with ⟨sys₁, er | i⟩ <;> rw [hdevice] at h
  · cases h
    exact .inl ⟨er, openDevice_error hdevice⟩
  have hopens := openDevice_opens hdevice
  dsimp only at h
  split at h
  · rename_i hlacks
    cases h
    obtain ⟨name, hname, hmissing⟩ := lacks_eq_true.1 hlacks
    rw [addDescriptor_charsets, hopens.charsets] at hmissing
    obtain ⟨hfiles, hstreams⟩ := close_addDescriptor sys₁ ⟨i, mode.reads, mode.writes, mode.appends, 0⟩
    exact .inr ⟨rfl, mode, sys₁, i, name, hmode, hname, hmissing, hopens, ⟨hfiles.names, hfiles.home, hfiles.device⟩,
      hopens.sameStreams.trans ⟨hstreams.descriptor, hstreams.count⟩⟩
  · cases h

/-- A path that is not opened as a stream leaves the streams and the descriptors. -/
theorem openStream_sameStreams {text : Bytes} {e : StreamError}
    (h : sys.openStream path text = (sys', .error e)) : sys.SameStreams sys' := by
  obtain ⟨errno, rfl⟩ | ⟨-, _, _, _, _, -, -, -, -, -, hstreams⟩ := openStream_error h
  · exact .blamed sys errno
  · exact hstreams

/-- Where no conversion is asked for, nothing but the last error is left. -/
theorem openStream_error_plain {text : Bytes} {e : StreamError} (hplain : OpenMode.charset? text = none)
    (h : sys.openStream path text = (sys', .error e)) : ∃ errno, sys' = { sys with lastError := errno } := by
  refine (openStream_error h).resolve_right fun ⟨_, _, _, _, _, _, hname, _⟩ => ?_
  rw [hplain] at hname
  cases hname

end System

namespace Handle

variable {sys sys' : System} {path : Bytes} {text : String} {buffering : Option Int}

/-- A handle over an opened path. -/
theorem openPath_ok {h : Handle} (e : openPath sys path text buffering = (sys', .ok h)) :
    ∃ t mode sys₁ i, h.stream = some t ∧ t.Fresh ∧
      OpenMode.parse? OpenMode.pathReach (toBytes text) = some mode ∧ sys.Opens path mode sys₁ i ∧
      System.Attaches t.fd i sys₁ sys' := by
  unfold openPath at e
  split at e
  · cases e
  rename_i sys₂ stream hopen
  obtain ⟨rfl, t, ht, hfresh, hfd, -⟩ := ofStream_ok (System.openStream_fresh hopen).1 e
  obtain ⟨mode, sys₁, i, hmode, hopens, -, hattaches⟩ := System.openStream_ok hopen
  exact ⟨t, mode, sys₁, i, ht, hfresh, hmode, hopens, hfd ▸ hattaches⟩

/-- A path that is not opened with a buffering value that means something leaves nothing but an error. -/
theorem openPath_error {er : HandleError} (hb : Accepts buffering)
    (hplain : OpenMode.charset? (toBytes text) = none) (e : openPath sys path text buffering = (sys', .error er)) :
    ∃ errno, sys' = { sys with lastError := errno } := by
  unfold openPath at e
  split at e
  · rename_i hopen
    cases e
    exact System.openStream_error_plain hplain hopen
  · rename_i sys₂ stream hopen
    obtain ⟨t, hmade, -⟩ := ofStream_fresh (System.openStream_fresh hopen).1 hb (Text.lossy path) text
    rw [hmade] at e
    cases e

end Handle

end BufferedFiles
