import BufferedFiles.Proofs.Port

/-!
# Finding again

A system only grows: what a path leads to is there for good, and stays of its kind. A walk goes through
what is there, so whatever was found once is found again.
-/
namespace BufferedFiles.System

variable {a b c sys : System} {path : Bytes} {place dir : List Name} {name : Name} {fd i : Nat}

theorem isDirectory_iff : sys.isDirectory dir = true ↔
    ∃ i dev, sys.lookup dir = some i ∧ sys.device? i = some dev ∧ dev.content = .directory := by
  simp only [System.isDirectory, contentAt, beq_iff_eq, Option.bind_eq_some_iff, Option.map_eq_some_iff]
  constructor
  · rintro ⟨i, hi, dev, hdev, hcontent⟩
    exact ⟨i, dev, hi, hdev, hcontent⟩
  · rintro ⟨i, dev, hi, hdev, hcontent⟩
    exact ⟨i, hi, dev, hdev, hcontent⟩

/-- The steps a walk can take from a directory. -/
inductive Steps (sys : System) (dir : List Name) : Name → List Name → Prop
  | here : Steps sys dir [dot] dir
  | up : Steps sys dir [dot, dot] dir.dropLast
  | down {name : Name} : name ≠ [dot] → name ≠ [dot, dot] → name.length ≤ longestName →
      (sys.lookup (dir ++ [name])).isSome = true → Steps sys dir name (dir ++ [name])

theorem enter_eq_ok {there : List Name} :
    sys.enter dir name = .ok there ↔ sys.isDirectory dir = true ∧ sys.Steps dir name there := by
  unfold System.enter
  constructor
  · intro h
    split at h
    · cases h
    rename_i hdir
    refine ⟨by simpa using hdir, ?_⟩
    split at h
    · rename_i hone
      cases h
      exact hone ▸ .here
    rename_i hone
    split at h
    · rename_i htwo
      cases h
      exact htwo ▸ .up
    rename_i htwo
    split at h
    · cases h
    rename_i hshort
    split at h
    · rename_i hthere
      cases h
      exact .down hone htwo (Nat.not_lt.1 hshort) hthere
    · cases h
  · rintro ⟨hdir, hstep⟩
    simp only [hdir, Bool.not_true, Bool.false_eq_true, if_false]
    cases hstep with
    | here => rfl
    | up => rfl
    | down hone htwo hshort hthere =>
      rw [if_neg hone, if_neg htwo, if_neg (Nat.not_lt.2 hshort), if_pos hthere]

private theorem bind_eq_ok {α β : Type} {x : Except Errno α} {f : α → Except Errno β} {y : β} :
    x >>= f = .ok y ↔ ∃ v, x = .ok v ∧ f v = .ok y := by
  cases x with
  | error e => exact ⟨nofun, nofun⟩
  | ok v =>
    refine ⟨fun h => ⟨v, rfl, h⟩, ?_⟩
    rintro ⟨_, ⟨⟩, h⟩
    exact h

/-- A walk is a step and a walk. -/
theorem walk_cons {names there : List Name} : (name :: names).foldlM sys.enter dir = .ok there ↔
    ∃ next, sys.enter dir name = .ok next ∧ names.foldlM sys.enter next = .ok there := by
  rw [List.foldlM_cons]
  exact bind_eq_ok

theorem walk_concat {names there : List Name} : (names ++ [name]).foldlM sys.enter dir = .ok there ↔
    ∃ next, names.foldlM sys.enter dir = .ok next ∧ sys.enter next name = .ok there := by
  rw [List.foldlM_append, bind_eq_ok]
  refine exists_congr fun next => and_congr_right fun _ => ?_
  rw [walk_cons]
  constructor
  · rintro ⟨_, hstep, ⟨⟩⟩
    exact hstep
  · exact fun hstep => ⟨there, hstep, rfl⟩

/-- A path is found where its walk ends, and a slash at its end asks for a directory. -/
theorem find_eq_ok : sys.find path = .ok place ↔
    path.isEmpty = false ∧ path.length ≤ longestPath ∧
      (components path).foldlM sys.enter (sys.origin path) = .ok place ∧
      (path.getLast? = some slash → sys.isDirectory place = true) := by
  unfold System.find
  constructor
  · intro h
    split at h
    · cases h
    rename_i hempty
    split at h
    · cases h
    rename_i hlong
    obtain ⟨found, hwalk, hend⟩ := bind_eq_ok.1 h
    split at hend
    · cases hend
    rename_i hslash
    cases hend
    exact ⟨by simpa using hempty, Nat.not_lt.1 hlong, hwalk, fun hlast => by simpa [hlast] using hslash⟩
  · rintro ⟨hempty, hlong, hwalk, hslash⟩
    rw [if_neg (by rw [hempty]; exact Bool.false_ne_true), if_neg (Nat.not_lt.2 hlong)]
    refine bind_eq_ok.2 ⟨place, hwalk, if_neg fun hno => ?_⟩
    simp only [Bool.and_eq_true, decide_eq_true_eq, Bool.not_eq_true'] at hno
    rw [hslash hno.1] at hno
    cases hno.2

/-- `b` has all that `a` has. -/
structure Grows (a b : System) : Prop where
  home : b.home = a.home
  names : ∃ more, b.names = a.names ++ more
  device : ∀ i dev, a.device? i = some dev →
    ∃ dev', b.device? i = some dev' ∧ dev.content.SameKind dev'.content

theorem Grows.refl (a : System) : a.Grows a :=
  ⟨rfl, ⟨[], (List.append_nil _).symm⟩, fun _ dev h => ⟨dev, h, .refl _⟩⟩

theorem Grows.of_same (hdevice : ∀ i, b.device? i = a.device? i) (hnames : b.names = a.names)
    (hhome : b.home = a.home) : a.Grows b :=
  ⟨hhome, ⟨[], by rw [hnames, List.append_nil]⟩, fun i dev hi => ⟨dev, (hdevice i).trans hi, .refl _⟩⟩

theorem Grows.trans (h : a.Grows b) (h' : b.Grows c) : a.Grows c where
  home := h'.home.trans h.home
  names := by
    obtain ⟨more, hmore⟩ := h.names
    obtain ⟨more', hmore'⟩ := h'.names
    exact ⟨more ++ more', by rw [hmore', hmore, List.append_assoc]⟩
  device i dev hi := by
    obtain ⟨dev', hi', hkind⟩ := h.device i dev hi
    obtain ⟨dev'', hi'', hkind'⟩ := h'.device i dev' hi'
    exact ⟨dev'', hi'', hkind.trans hkind'⟩

theorem Through.grows (h : Through fd a b) : a.Grows b where
  home := h.home
  names := ⟨[], by rw [h.names, List.append_nil]⟩
  device i dev hi := by
    obtain ⟨dev', hi', hb⟩ := h.device i dev hi
    exact ⟨dev', hi', hb.kind⟩

theorem Grows.lookup (h : a.Grows b) (hi : a.lookup place = some i) : b.lookup place = some i := by
  obtain ⟨more, hmore⟩ := h.names
  unfold System.lookup at hi ⊢
  rw [hmore, List.lookup_append, hi]
  rfl

theorem Grows.isDirectory (h : a.Grows b) (hdir : a.isDirectory dir = true) : b.isDirectory dir = true := by
  obtain ⟨i, dev, hi, hdev, hcontent⟩ := isDirectory_iff.1 hdir
  obtain ⟨dev', hdev', hkind⟩ := h.device i dev hdev
  rw [hcontent] at hkind
  exact isDirectory_iff.2 ⟨i, dev', h.lookup hi, hdev', hkind.eq_directory⟩

theorem Grows.enter (h : a.Grows b) {there : List Name} (he : a.enter dir name = .ok there) :
    b.enter dir name = .ok there := by
  obtain ⟨hdir, hstep⟩ := enter_eq_ok.1 he
  refine enter_eq_ok.2 ⟨h.isDirectory hdir, ?_⟩
  cases hstep with
  | here => exact .here
  | up => exact .up
  | down hone htwo hshort hthere =>
    obtain ⟨i, hi⟩ := Option.isSome_iff_exists.1 hthere
    exact .down hone htwo hshort (by rw [h.lookup hi]; rfl)

theorem Grows.walk (h : a.Grows b) {names : List Name} {there : List Name}
    (hw : names.foldlM a.enter dir = .ok there) : names.foldlM b.enter dir = .ok there := by
  induction names generalizing dir with
  | nil => exact hw
  | cons name rest ih =>
    obtain ⟨next, hstep, hrest⟩ := walk_cons.1 hw
    exact walk_cons.2 ⟨next, h.enter hstep, ih hrest⟩

/-- What was found is found again. -/
theorem Grows.find (h : a.Grows b) (hf : a.find path = .ok place) : b.find path = .ok place := by
  have horigin : b.origin path = a.origin path := by
    unfold System.origin
    rw [h.home]
  obtain ⟨hempty, hlong, hwalk, hslash⟩ := find_eq_ok.1 hf
  exact find_eq_ok.2 ⟨hempty, hlong, horigin ▸ h.walk hwalk, fun hend => h.isDirectory (hslash hend)⟩

/-- A walk that ends at something that is no directory finds it when the last component may be made. -/
theorem findOrMake_of_find (h : sys.find path = .ok place) (hd : sys.isDirectory place = false) :
    sys.findOrMake path = .ok (.existing place) := by
  obtain ⟨hempty, hlong, hwalk, hslash⟩ := find_eq_ok.1 h
  have hplain : ¬ path.getLast? = some slash := fun hend => by
    rw [hslash hend] at hd
    cases hd
  unfold findOrMake
  rw [if_neg (by rw [hempty]; exact Bool.false_ne_true), if_neg (Nat.not_lt.2 hlong)]
  dsimp only
  split
  · rename_i hnone
    rw [List.getLast?_eq_none_iff] at hnone
    rw [hnone] at hwalk
    cases hwalk
    rfl
  · rename_i name hlast
    obtain ⟨front, hfront⟩ := List.getLast?_eq_some_iff.1 hlast
    rw [hfront] at hwalk
    obtain ⟨dir, hdir, hstep⟩ := walk_concat.1 hwalk
    obtain ⟨hin, hend⟩ := enter_eq_ok.1 hstep
    rw [hfront, List.dropLast_concat, hdir]
    simp only [bind, Except.bind, hin, Bool.not_true, Bool.false_eq_true, if_false]
    cases hend with
    | here =>
      rw [if_pos (by simp), hstep]
      rfl
    | up =>
      rw [if_pos (by simp), hstep]
      rfl
    | down hone htwo hshort hthere =>
      rw [if_neg (by simp [hone, htwo]), if_neg hplain, if_neg (Nat.not_lt.2 hshort), if_pos hthere]

/-- A place where a name can be made is not taken yet. -/
theorem lookup_of_missing (h : sys.findOrMake path = .ok (.missing place)) : sys.lookup place = none := by
  unfold findOrMake at h
  split at h
  · cases h
  split at h
  · cases h
  dsimp only at h
  split at h
  · cases h
  rename_i name hlast
  obtain ⟨dir, -, hmade⟩ := bind_eq_ok.1 h
  split at hmade
  · cases hmade
  split at hmade
  · -- A walk through a dot ends at something there.
    cases hstep : sys.enter dir name with
    | error e =>
      rw [hstep] at hmade
      cases hmade
    | ok there =>
      rw [hstep] at hmade
      cases hmade
  split at hmade
  · cases hmade
  split at hmade
  · cases hmade
  split at hmade
  · cases hmade
  · rename_i hnone
    cases hmade
    simpa using hnone

end BufferedFiles.System
