import BufferedFiles.Proofs.ConcatRuns
import BufferedFiles.Proofs.Termination

/-!
# Runs end

A run comes to one work for each of its inputs, as far as it gets. Where the inputs are files, or
standard input that has an end and is not fed by the run itself, the rounds of every work end, whatever
the output is: one of the inputs, too.
-/
namespace BufferedFiles

theorem Content.IsStored.hasEnd {content : Content} (h : content.IsStored) : content.HasEnd := by
  cases content <;> trivial

namespace System

variable {sys sys' : System} {path : Bytes} {mode : OpenMode} {fd i o limit : Nat} {d : Descriptor} {dev : Device}

/-- Opening makes no file longer. -/
theorem Opens.bounded (h : sys.Opens path mode sys' i) (hb : sys.Bounded limit) : sys'.Bounded limit := by
  refine ⟨h.largestOffset ▸ hb.largest, fun j dev hdev => ?_⟩
  cases h with
  | made =>
    rw [device?_addName] at hdev
    split at hdev
    · cases hdev
      exact Nat.zero_le _
    · exact hb.size j dev hdev
  | found => exact hb.size j dev hdev
  | emptied =>
    rw [device?_setDevice] at hdev
    split at hdev
    · cases hdev
      exact Nat.zero_le _
    · exact hb.size j dev hdev

theorem Attaches.bounded (h : Attaches fd i sys sys') (hb : sys.Bounded limit) : sys'.Bounded limit :=
  ⟨h.largestOffset ▸ hb.largest, fun j dev hdev => hb.size j dev ((h.device j).symm.trans hdev)⟩

theorem Drops.bounded (h : Drops fd sys sys') (hb : sys.Bounded limit) : sys'.Bounded limit :=
  ⟨h.largestOffset ▸ hb.largest, fun j dev hdev => hb.size j dev ((h.device j).symm.trans hdev)⟩

theorem Attaches.alike (h : Attaches fd i sys sys') : sys.Alike sys' := .of_same h.device h.names h.home

theorem Attaches.stays (h : Attaches fd i sys sys') (lost : Nat → Prop) : Stays lost sys sys' := by
  refine ⟨h.alike, fun j d _ hd => ⟨d.position, (h.others j ?_).trans hd⟩⟩
  rintro rfl
  rw [h.free] at hd
  cases hd

theorem Attaches.other (h : Attaches fd i sys sys') {j : Nat} (hd : sys.descriptor? j = some d) : j ≠ fd := by
  rintro rfl
  rw [h.free] at hd
  cases hd

end System

/-- A stream that was not used yet has an end if its device has. -/
theorem Stream.Fresh.finite {s : Stream} {sys : System} {d : Descriptor} {limit : Nat} (hs : s.Fresh)
    (hd : sys.descriptor? s.fd = some d) (he : ∀ dev, sys.device? d.device = some dev → dev.content.HasEnd)
    (hb : sys.Bounded limit) : (⟨s, sys⟩ : Connection).Finite limit := by
  refine ⟨⟨hs.writing, hs.pending⟩, fun d' dev ho => ?_, hb⟩
  obtain ⟨hd', hdev⟩ := System.opened?_eq_some.1 ho
  have hd' : sys.descriptor? s.fd = some d' := hd'
  rw [hd] at hd'
  cases hd'
  exact he dev hdev

namespace Concat

namespace Job

variable {s : Settings} {j j' : Job} {w : Work} {input : String} {inputs rest : List String} {limit o : Nat}

/-- The work on an input, unless that cannot be opened. -/
def begin? (j : Job) (input : String) : Option Work :=
  if input = standardMark then some (j.work j.standardInput)
  else match Handle.openPath j.system (toBytes input) "r" none with
  | (_, .error _) => none
  | (sys, .ok source) => some (({ j with system := sys }.tell (openEvents source)).work source)

/-- What a job makes of the work on an input once that has ended. -/
def endInput (j : Job) (input : String) : Work × Except Failure Nat → Job × Except Failure Nat
  | (w, result) =>
    if input = standardMark then ({ j.after w with standardInput := w.source }, result)
    else match result with
    | .error e => ((j.after w).releaseInput w.source, .error e)
    | .ok n =>
      match (j.after w).closeInput input w.source with
      | (j, .error e) => (j, .error e)
      | (j, .ok ()) => (j, .ok n)

/-- Copies one input, unless its rounds never end. -/
def takeInput? (s : Settings) (j : Job) (input : String) : Option (Job × Except Failure Nat) :=
  match j.begin? input with
  | none => some (j.takeInput s input)
  | some w => (w.rounds s 0).map (j.endInput input)

/-- Copies inputs in order, unless the rounds on one of them never end. -/
def takeInputs? (s : Settings) : Job → List String → Nat → Option (Job × Except Failure Nat)
  | j, [], total => some (j, .ok total)
  | j, input :: rest, total =>
    match j.takeInput? s input with
    | none => none
    | some (j, .error e) => some (j, .error e)
    | some (j, .ok n) => takeInputs? s j rest (total + n)

/-- The works that a job comes to on its inputs. -/
inductive Meets (s : Settings) : Job → List String → Work → Prop
  | first {j : Job} {input : String} {rest : List String} {w : Work} :
      j.begin? input = some w → Meets s j (input :: rest) w
  | later {j j' : Job} {input : String} {rest : List String} {w : Work} {n : Nat} :
      j.takeInput s input = (j', .ok n) → Meets s j' rest w → Meets s j (input :: rest) w

/-- An input is copied by the rounds of the work on it. -/
theorem takeInput_of_begin? (h : j.begin? input = some w) : j.takeInput s input = j.endInput input (w.copy s) := by
  unfold begin? at h
  split at h
  · rename_i hmark
    cases h
    simp only [takeInput, endInput, if_pos hmark]
  · rename_i hmark
    split at h
    · cases h
    rename_i sys source hopen
    cases h
    rcases hcopy : ((({ j with system := sys } : Job).tell (openEvents source)).work source).copy s with ⟨w, e | n⟩
    · simp only [takeInput, endInput, if_neg hmark, hopen, hcopy]
    · rcases hclose : (j.after w).closeInput input w.source with ⟨j', e | done⟩
      · simp only [takeInput, endInput, if_neg hmark, hopen, hcopy, hclose]
      · simp only [takeInput, endInput, if_neg hmark, hopen, hcopy, hclose]

theorem takeInput_refused (h : j.begin? input = none) :
    ∃ sys e, Handle.openPath j.system (toBytes input) "r" none = (sys, .error e) ∧
      j.takeInput s input = ({ j with system := sys }, .error (.openInput input e)) := by
  unfold begin? at h
  split at h
  · cases h
  rename_i hmark
  split at h
  · rename_i sys e hopen
    refine ⟨sys, e, hopen, ?_⟩
    simp only [takeInput, if_neg hmark, hopen]
  · cases h

theorem takeInput?_eq_some {r : Job × Except Failure Nat} (h : j.takeInput? s input = some r) :
    j.takeInput s input = r := by
  unfold takeInput? at h
  split at h
  · exact Option.some.inj h
  · rename_i w hbegin
    obtain ⟨ended, hrounds, hend⟩ := Option.map_eq_some_iff.1 h
    rw [takeInput_of_begin? hbegin, Work.copy, hrounds, Option.getD_some]
    exact hend

theorem takeInputs?_eq_some {r : Job × Except Failure Nat} {total : Nat}
    (h : j.takeInputs? s inputs total = some r) : j.takeInputs s inputs total = r := by
  induction inputs generalizing j total with
  | nil => exact Option.some.inj h
  | cons input rest ih =>
    unfold takeInputs? at h
    unfold takeInputs
    split at h
    · cases h
    · rename_i hone
      rw [takeInput?_eq_some hone]
      exact Option.some.inj h
    · rename_i hone
      rw [takeInput?_eq_some hone]
      exact ih h

/-- The inputs are copied exactly if the rounds of every work that the job comes to end. -/
theorem takeInputs?_isSome_iff {total : Nat} :
    (j.takeInputs? s inputs total).isSome = true ↔ ∀ w, Meets s j inputs w → (w.rounds s 0).isSome = true := by
  constructor
  · intro h w hw
    induction hw generalizing total with
    | @first j input rest w hbegin =>
      cases hrounds : w.rounds s 0 with
      | some ended => rfl
      | none =>
        simp only [takeInputs?, takeInput?, hbegin, hrounds] at h
        cases h
    | @later j j' input rest w n htake _ ih =>
      unfold takeInputs? at h
      split at h
      · cases h
      · rename_i hone
        rw [takeInput?_eq_some hone] at htake
        cases htake
      · rename_i hone
        rw [takeInput?_eq_some hone] at htake
        cases htake
        exact ih h
  · intro h
    induction inputs generalizing j total with
    | nil => rfl
    | cons input rest ih =>
      have hone : ∃ r, j.takeInput? s input = some r := by
        cases hbegin : j.begin? input with
        | none => exact ⟨j.takeInput s input, by simp only [takeInput?, hbegin]⟩
        | some w =>
          obtain ⟨ended, hrounds⟩ := Option.isSome_iff_exists.1 (h w (.first hbegin))
          exact ⟨j.endInput input ended, by simp only [takeInput?, hbegin, hrounds, Option.map_some]⟩
      obtain ⟨⟨j', result⟩, hone⟩ := hone
      simp only [takeInputs?, hone]
      cases result with
      | error e => rfl
      | ok n => exact ih fun w hw => h w (.later (takeInput?_eq_some hone) hw)

/-- The inputs still to come have an end, and the sink under the descriptor `o` does not feed standard
input. -/
structure Sound (limit o : Nat) (inputs : List String) (j : Job) : Prop where
  bounded : j.system.Bounded limit
  sink : ∃ t, j.sink.stream = some t ∧ t.fd = o
  opened : ∃ e, j.system.descriptor? o = some e
  files : ∀ input ∈ inputs, input ≠ standardMark → j.system.LeadsToStored (toBytes input)
  waits : standardMark ∈ inputs → ∃ u, j.standardInput.stream = some u ∧
    (⟨u, j.system⟩ : Connection).Finite limit ∧ j.system.Parted u.fd o

/-- A job goes on after anything that left its descriptors open. -/
theorem Sound.stays {lost : Nat → Prop} (h : j.Sound limit o inputs) (hs : j.system.Stays lost j'.system)
    (hb : j'.system.Bounded limit) (hsink : ∃ t, j'.sink.stream = some t ∧ t.fd = o) (ho : ¬ lost o)
    (hinput : j'.standardInput = j.standardInput)
    (hlost : ∀ fd d, j.system.descriptor? fd = some d → ¬ lost fd) : j'.Sound limit o inputs where
  bounded := hb
  sink := hsink
  opened := by
    obtain ⟨e, he⟩ := h.opened
    obtain ⟨p, hp⟩ := hs.descriptor o e ho he
    exact ⟨_, hp⟩
  files input hin hne := (h.files input hin hne).alike hs.alike
  waits hmark := by
    obtain ⟨u, hu, hfinite, hparted⟩ := h.waits hmark
    obtain ⟨d, e, hd, he, hpipe⟩ := id hparted.apart
    have hkept := hlost _ d hd
    exact ⟨u, hinput ▸ hu, hfinite.stays hs hkept hd hb, hparted.stays hs hkept ho⟩

theorem Sound.later (h : j.Sound limit o (input :: rest)) : j.Sound limit o rest where
  bounded := h.bounded
  sink := h.sink
  opened := h.opened
  files input hin := h.files input (List.mem_cons_of_mem _ hin)
  waits hmark := h.waits (List.mem_cons_of_mem _ hmark)

private theorem openInput_ok {sys : System} {source : Handle} (hne : input ≠ standardMark)
    (h : j.Sound limit o (input :: rest))
    (e : Handle.openPath j.system (toBytes input) "r" none = (sys, .ok source)) :
    ∃ u i, source.stream = some u ∧ System.Attaches u.fd i j.system sys ∧
      (⟨u, sys⟩ : Connection).Finite limit ∧ sys.Parted u.fd o := by
  obtain ⟨u, mode, sys₁, i, hu, hfresh, hmode, hopens, hattaches⟩ := Handle.openPath_ok e
  have hinput : OpenMode.parse? OpenMode.pathReach (toBytes "r") =
      some ⟨true, false, false, false, false, false⟩ := by decide
  rw [hinput] at hmode
  cases hmode
  obtain ⟨rfl, place, dev, hfind, hlookup, hdev⟩ := hopens.input rfl rfl
  have hstored := h.files input List.mem_cons_self hne place i dev hfind hlookup hdev
  obtain ⟨d, hd, rfl⟩ := hattaches.own
  obtain ⟨t, ht⟩ := h.opened
  have hdev' : ∀ dev', sys.device? d.device = some dev' → dev'.content.IsStored := by
    intro dev' hdev'
    rw [hattaches.device, hdev] at hdev'
    cases hdev'
    exact hstored
  refine ⟨u, _, hu, hattaches, hfresh.finite hd (fun dev' h' => (hdev' dev' h').hasEnd)
    (hattaches.bounded h.bounded), (hattaches.other ht).symm, d, t, hd,
    (hattaches.others o (hattaches.other ht)).trans ht, fun dev' queue _ h' hpipe => ?_⟩
  have hpiped := hdev' dev' h'
  rw [hpipe] at hpiped
  exact hpiped

private theorem Sound.begins (h : j.Sound limit o (input :: rest)) (e : j.begin? input = some w) :
    ∃ i, w.Copies limit i o := by
  obtain ⟨t, ht, hfd⟩ := id h.sink
  unfold begin? at e
  split at e
  · rename_i hmark
    cases e
    obtain ⟨u, hu, hfinite, hparted⟩ := h.waits (hmark ▸ List.mem_cons_self)
    exact ⟨u.fd, ⟨u, hu, rfl, hfinite⟩, ⟨t, ht, hfd⟩, hparted⟩
  · rename_i hne
    split at e
    · cases e
    rename_i sys source hopen
    cases e
    obtain ⟨u, i, hu, -, hfinite, hparted⟩ := openInput_ok hne h hopen
    exact ⟨u.fd, ⟨u, hu, rfl, hfinite⟩, ⟨t, ht, hfd⟩, hparted⟩

private theorem closeInput_drops {source : Handle} {u : Stream} {d : Descriptor} {n : Unit}
    (hu : source.stream = some u) (hidle : u.Idle) (hd : j.system.descriptor? u.fd = some d)
    (e : j.closeInput input source = (j', .ok n)) :
    System.Drops u.fd j.system j'.system ∧ j'.sink = j.sink ∧ j'.standardInput = j.standardInput := by
  rcases hclose : Connection.close ⟨u, j.system⟩ with ⟨sys, result⟩
  obtain ⟨rfl, hdrops⟩ := Connection.close_drained (c := ⟨u, j.system⟩) hidle.pending hd hclose
  simp only [closeInput, Handle.close, hu, hclose, Prod.mk.injEq] at e
  obtain ⟨rfl, -⟩ := e
  exact ⟨hdrops, rfl, rfl⟩

/-- After an input the job goes on with the others. -/
theorem takeInput_sound {n : Nat} (h : j.Sound limit o (input :: rest)) (e : j.takeInput s input = (j', .ok n)) :
    j'.Sound limit o rest := by
  obtain ⟨t, ht, hfd⟩ := id h.sink
  unfold takeInput at e
  split at e
  · rename_i hmark
    subst hmark
    obtain ⟨i, hcopies⟩ := h.begins (w := j.work j.standardInput) (if_pos rfl)
    obtain ⟨w, result, hrounds, hspends⟩ := Work.rounds_end s hcopies 0
    have hcopy : (j.work j.standardInput).copy s = (w, result) := by rw [Work.copy, hrounds, Option.getD_some]
    rw [hcopy] at e
    cases e
    obtain ⟨u, hu, rfl, hfinite⟩ := hspends.copies.source
    obtain ⟨d, e, -, he, -⟩ := hspends.copies.parted.apart
    exact ⟨hfinite.bounded, hspends.copies.sink, ⟨e, he⟩,
      fun input hin hne => (h.later.files input hin hne).alike hspends.stays.alike,
      fun _ => ⟨u, hu, hfinite, hspends.copies.parted⟩⟩
  · rename_i hne
    split at e
    · cases e
    rename_i sys source hopen
    obtain ⟨u, i, hu, hattaches, hfinite, hparted⟩ := openInput_ok hne h hopen
    have hcopies : ((({ j with system := sys }.tell (openEvents source)).work source)).Copies limit u.fd o :=
      ⟨⟨u, hu, rfl, hfinite⟩, ⟨t, ht, hfd⟩, hparted⟩
    obtain ⟨w, result, hrounds, hspends⟩ := Work.rounds_end s hcopies 0
    have hcopy : (({ j with system := sys }.tell (openEvents source)).work source).copy s = (w, result) := by
      rw [Work.copy, hrounds, Option.getD_some]
    rw [hcopy] at e
    cases result with
    | error er => cases e
    | ok moved =>
      dsimp only at e
      obtain ⟨u', hu', hfd', hfinite'⟩ := hspends.copies.source
      obtain ⟨d, f, hd, -, -⟩ := hspends.copies.parted.apart
      have hd : (j.after w).system.descriptor? u'.fd = some d := hfd' ▸ hd
      rcases hclose : (j.after w).closeInput input w.source with ⟨j₁, er | done⟩
      · rw [hclose] at e
        cases e
      rw [hclose] at e
      cases e
      obtain ⟨hdrops, hsink, hinput⟩ := closeInput_drops hu' hfinite'.idle hd hclose
      have hopened : System.Stays (· = u.fd) j.system sys := hattaches.stays _
      have hcopied : System.Stays (· = u.fd) sys w.system := hspends.stays.mono fun _ => False.elim
      have hclosed : System.Stays (· = u.fd) w.system j'.system := hfd' ▸ hdrops.stays
      have hlost : ∀ fd d, j.system.descriptor? fd = some d → ¬ fd = u.fd := fun fd d => hattaches.other
      obtain ⟨f, hf⟩ := h.opened
      exact h.later.stays (hopened.trans (hcopied.trans hclosed)) (hdrops.bounded hfinite'.bounded)
        (hsink ▸ hspends.copies.sink) (hlost o f hf) hinput hlost

/-- The rounds of every work that a job comes to end. -/
theorem Sound.meets (h : j.Sound limit o inputs) (hw : Meets s j inputs w) : (w.rounds s 0).isSome = true := by
  induction hw with
  | first hbegin =>
    obtain ⟨i, hcopies⟩ := h.begins hbegin
    obtain ⟨w', result, hrounds, -⟩ := Work.rounds_end s hcopies 0
    rw [hrounds, Option.isSome_some]
  | later htake _ ih => exact ih (takeInput_sound h htake)

end Job

namespace Settings

/-- The job that a run begins with, unless the output cannot be opened. -/
def job? (s : Settings) (sys : System) : Option Job :=
  match s.output with
  | none => some ⟨(Console.prepare {}).get .input, (Console.prepare {}).get .output, sys, []⟩
  | some path =>
    match Handle.openPath sys (toBytes path) s.sinkMode s.buffering with
    | (_, .error _) => none
    | (sys, .ok sink) => some ⟨(Console.prepare {}).get .input, sink, sys, (openEvents sink).reverse⟩

/-- What a run leaves when the job it began with has ended. -/
def finish (s : Settings) (console : Console) : Job × Except Failure Nat → Console × Ending
  | (j, result) =>
    match s.output with
    | some path =>
      let r := j.sink.close j.system
      (console.set .input j.standardInput,
        match result with
        | .error e => ⟨.error e, (releaseEvents j.sink r.result).reverse ++ j.events, r.system⟩
        | .ok n =>
          ⟨match r.result with
            | .error e => .error (.closeOutput path e)
            | .ok () => .ok n,
            (closeEvents j.sink (closeWell r.result)).reverse ++ j.events, r.system⟩)
    | none =>
      let console := console.set .input j.standardInput
      match result with
      | .error e => (console.set .output j.sink, ⟨.error e, j.events, j.system⟩)
      | .ok n =>
        let r := j.sink.flush j.system
        (console.set .output r.handle,
          match r.result with
          | .error e => ⟨.error (.flush r.handle.path e), j.events, r.system⟩
          | .ok () => ⟨.ok n, .flushed r.handle.path :: j.events, r.system⟩)

/-- A run is its job, and what it leaves of that. -/
theorem runChecked_of_job? {s : Settings} {sys : System} {j : Job} (hj : s.job? sys = some j) :
    runChecked s (Console.prepare {}) sys = s.finish (Console.prepare {}) (j.takeInputs s s.inputs 0) := by
  unfold job? at hj
  split at hj
  · rename_i hout
    cases hj
    unfold runChecked finish
    rewrite [hout]
    rfl
  · rename_i path hout
    split at hj
    · cases hj
    rename_i sys₁ sink hopen
    cases hj
    rcases htake : Job.takeInputs s ⟨(Console.prepare {}).get .input, sink, sys₁, (openEvents sink).reverse⟩ s.inputs 0
      with ⟨j, e | n⟩
    · simp only [runChecked, runTo, finish, hout, hopen, htake]
    · cases hclose : (j.sink.close j.system).result <;>
        simp only [runChecked, runTo, finish, hout, hopen, htake, hclose]

theorem runChecked_refused {s : Settings} {sys : System} (hj : s.job? sys = none) :
    ∃ path sys' e, s.output = some path ∧
      Handle.openPath sys (toBytes path) s.sinkMode s.buffering = (sys', .error e) ∧
      runChecked s (Console.prepare {}) sys = (Console.prepare {}, ⟨.error (.openOutput path e), [], sys'⟩) := by
  unfold job? at hj
  split at hj
  · cases hj
  rename_i path hout
  split at hj
  · rename_i sys' e hopen
    refine ⟨path, sys', e, hout, hopen, ?_⟩
    simp only [runChecked, runTo, hout, hopen]
  · cases hj

/-- Runs with settings that were checked, unless the rounds on one of the inputs never end. -/
def runChecked? (s : Settings) (sys : System) : Option (Console × Ending) :=
  match s.job? sys with
  | none => some (runChecked s (Console.prepare {}) sys)
  | some j => (j.takeInputs? s s.inputs 0).map (s.finish (Console.prepare {}))

/-- A run comes to what it leaves exactly if the rounds of every work it comes to end. -/
theorem runChecked?_iff {s : Settings} {sys : System} :
    s.runChecked? sys = some (runChecked s (Console.prepare {}) sys) ↔
      ∀ j w, s.job? sys = some j → j.Meets s s.inputs w → (w.rounds s 0).isSome = true := by
  unfold runChecked?
  split
  · rename_i hj
    refine ⟨fun _ j w hjob => ?_, fun _ => rfl⟩
    cases hj.symm.trans hjob
  · rename_i j hj
    rw [runChecked_of_job? hj]
    constructor
    · intro h j' w hj' hw
      rw [hj] at hj'
      cases hj'
      obtain ⟨r, htake, -⟩ := Option.map_eq_some_iff.1 h
      exact Job.takeInputs?_isSome_iff.1 (Option.isSome_of_eq_some htake) w hw
    · intro h
      obtain ⟨r, htake⟩ := Option.isSome_iff_exists.1 (Job.takeInputs?_isSome_iff.2 (h j · hj))
      rw [htake, Option.map_some, Job.takeInputs?_eq_some htake]

/-- The output is not the device `i`. -/
def Avoids (s : Settings) (sys : System) (i : Nat) : Prop :=
  match s.output with
  | none => ∀ e, sys.descriptor? 1 = some e → e.device ≠ i
  | some path => ∀ place, sys.findOrMake (toBytes path) = .ok (.existing place) → sys.lookup place ≠ some i

/-- Standard input is open and has an end. A pipe has none if the run puts into it what it takes out. -/
def InputEnds (s : Settings) (sys : System) : Prop :=
  ∃ d dev, sys.opened? 0 = some (d, dev) ∧ dev.content.HasEnd ∧
    ∀ queue, dev.content = .pipe queue → s.Avoids sys d.device

end Settings

section Runs

variable {s : Settings} {sys : System}

/-- A run to standard output begins with what its inputs need. -/
private theorem sound_standard {limit : Nat} {e : Descriptor} (hb : sys.Bounded limit) (hout : s.output = none)
    (hfiles : ∀ input ∈ s.inputs, input ≠ standardMark → sys.LeadsToStored (toBytes input))
    (hinput : standardMark ∈ s.inputs → s.InputEnds sys) (he : sys.descriptor? 1 = some e) :
    Job.Sound limit 1 s.inputs ⟨ConsoleName.initial .input, ConsoleName.initial .output, sys, []⟩ := by
  refine ⟨hb, ⟨_, rfl, rfl⟩, ⟨e, he⟩, hfiles, fun hmark => ?_⟩
  obtain ⟨d, dev, ho, hend, hpipe⟩ := hinput hmark
  obtain ⟨hd, hdev⟩ := System.opened?_eq_some.1 ho
  have hfresh : ConsoleName.inputStream.Fresh := ⟨rfl, rfl, rfl, rfl, rfl, rfl, Nat.zero_le 1⟩
  refine ⟨_, rfl, hfresh.finite hd (fun dev' hdev' => ?_) hb, by decide, d, e, hd, he,
    fun dev' queue hsame hdev' hc => ?_⟩
  · rw [hdev] at hdev'
    cases hdev'
    exact hend
  · rw [hdev] at hdev'
    cases hdev'
    have havoids := hpipe queue hc
    simp only [Settings.Avoids, hout] at havoids
    exact havoids e he hsame.symm

/-- So does a run to a file. -/
private theorem sound_file {limit : Nat} {path : String} {sys' : System} {sink : Handle} (events : List Event)
    (hb : sys.Bounded limit) (hout : s.output = some path)
    (hfiles : ∀ input ∈ s.inputs, input ≠ standardMark → sys.LeadsToStored (toBytes input))
    (hinput : standardMark ∈ s.inputs → s.InputEnds sys)
    (e : Handle.openPath sys (toBytes path) s.sinkMode s.buffering = (sys', .ok sink)) :
    ∃ o, Job.Sound limit o s.inputs ⟨ConsoleName.initial .input, sink, sys', events⟩ := by
  obtain ⟨t, mode, sys₁, i, ht, hfresh, hmode, hopens, hattaches⟩ := Handle.openPath_ok e
  rw [s.parse_sinkMode] at hmode
  cases hmode
  have hbounded := hattaches.bounded (hopens.bounded hb)
  have hkept : ∀ fd d, sys.descriptor? fd = some d → fd ≠ t.fd ∧ sys'.descriptor? fd = some d := by
    intro fd d hd
    have hd₁ : sys₁.descriptor? fd = some d := by
      rw [System.descriptor?, hopens.descriptors]
      exact hd
    have hne := hattaches.other hd₁
    exact ⟨hne, (hattaches.others fd hne).trans hd₁⟩
  have hdevice : ∀ k dev, sys.device? k = some dev →
      ∃ dev', sys'.device? k = some dev' ∧ dev.content.SameKind dev'.content := by
    intro k dev hdev
    obtain ⟨dev', hdev', hkind⟩ := hopens.device hdev
    exact ⟨dev', (hattaches.device k).trans hdev', hkind⟩
  obtain ⟨f, hf, hfi⟩ := hattaches.own
  refine ⟨t.fd, hbounded, ⟨t, ht, rfl⟩, ⟨f, hf⟩, fun input hin hne => ?_, fun hmark => ?_⟩
  · exact (hopens.leadsToStored (hfiles input hin hne)).alike hattaches.alike
  obtain ⟨d, dev, ho, hend, hpipe⟩ := hinput hmark
  obtain ⟨hd, hdev⟩ := System.opened?_eq_some.1 ho
  obtain ⟨hne, hd'⟩ := hkept 0 d hd
  obtain ⟨dev', hdev', hkind⟩ := hdevice d.device dev hdev
  have hfresh₀ : ConsoleName.inputStream.Fresh := ⟨rfl, rfl, rfl, rfl, rfl, rfl, Nat.zero_le 1⟩
  refine ⟨_, rfl, hfresh₀.finite hd' (fun dev₀ hdev₀ => ?_) hbounded, hne, d, f, hd', hf,
    fun dev₀ queue hsame hdev₀ hc => ?_⟩
  · rw [hdev'] at hdev₀
    cases hdev₀
    exact hkind.hasEnd hend
  · rw [hdev'] at hdev₀
    cases hdev₀
    rw [hc] at hkind
    obtain ⟨queue₀, hc₀⟩ := hkind.symm.eq_pipe
    have havoids := hpipe queue₀ hc₀
    simp only [Settings.Avoids, hout] at havoids
    rcases hopens.origin rfl with ⟨place, hplace, hlookup⟩ | hnew
    · exact havoids place hplace (hsame.trans hfi ▸ hlookup)
    · rw [← hfi, ← hsame, hdev] at hnew
      cases hnew

/-- A run comes to an end, and the rounds of every work on the way are finitely many. The inputs are files or
nothing, or standard input that has an end; the output is anything, one of the inputs too. Transfers may fail. -/
theorem run_ends
    (hfiles : ∀ input ∈ s.inputs, input ≠ standardMark → sys.LeadsToStored (toBytes input))
    (hinput : standardMark ∈ s.inputs → s.InputEnds sys)
    (hout : s.output = none → ∃ e, sys.descriptor? 1 = some e) :
    s.runChecked? sys = some (runChecked s (Console.prepare {}) sys) ∧
      ∀ j w, s.job? sys = some j → j.Meets s s.inputs w → (w.rounds s 0).isSome = true := by
  have hmeets : ∀ j w, s.job? sys = some j → j.Meets s s.inputs w → (w.rounds s 0).isSome = true := by
    intro j w hj hw
    obtain ⟨limit, hb⟩ := sys.exists_bounded
    unfold Settings.job? at hj
    split at hj
    · rename_i hnone
      cases hj
      obtain ⟨e, he⟩ := hout hnone
      exact (sound_standard hb hnone hfiles hinput he).meets hw
    · rename_i path hpath
      split at hj
      · cases hj
      rename_i sys' sink hopen
      cases hj
      obtain ⟨o, hsound⟩ := sound_file (openEvents sink).reverse hb hpath hfiles hinput hopen
      exact hsound.meets hw
  exact ⟨Settings.runChecked?_iff.2 hmeets, hmeets⟩

/-- A file that is appended to itself, and standard input behind it. -/
theorem run_ends_appending_to_input :
    ∃ s sys j w, s = (⟨["f", "-"], some "f", true, none, 1, false, 0, false⟩ : Settings) ∧
      sys = (System.withConsole (.regular [120])).addFile (toBytes "f") [97, 98] ∧
      s.runChecked? sys = some (runChecked s (Console.prepare {}) sys) ∧
      s.job? sys = some j ∧ j.Meets s ["f", "-"] w ∧ (w.rounds s 0).isSome = true := by
  generalize hsys : (System.withConsole (.regular [120])).addFile (toBytes "f") [97, 98] = sys
  generalize hs : (⟨["f", "-"], some "f", true, none, 1, false, 0, false⟩ : Settings) = s
  have hfiles : ∀ input ∈ s.inputs, input ≠ standardMark → sys.LeadsToStored (toBytes input) := by
    intro input hin hne place i dev hfind hlookup hdev
    have hinput : input = "f" := by
      subst hs
      rcases List.mem_cons.1 hin with rfl | hmark
      · rfl
      · exact absurd (by simpa [standardMark] using hmark) hne
    subst hinput
    have hplace : sys.find (toBytes "f") = .ok [toBytes "home", toBytes "f"] := by subst hsys; rfl
    rw [hplace] at hfind
    cases hfind
    have hnumber : sys.lookup [toBytes "home", toBytes "f"] = some 9 := by subst hsys; rfl
    rw [hnumber] at hlookup
    cases hlookup
    have hfile : sys.device? 9 = some { content := .regular [97, 98] } := by subst hsys; rfl
    rw [hfile] at hdev
    cases hdev
    trivial
  have hinput : standardMark ∈ s.inputs → s.InputEnds sys := by
    subst hsys
    exact fun _ => ⟨⟨6, true, false, false, 0⟩, { content := .regular [120] }, rfl, trivial, fun _ h => (by cases h)⟩
  obtain ⟨j, hj⟩ : ∃ j, s.job? sys = some j := by
    subst hs hsys
    exact ⟨_, rfl⟩
  obtain ⟨w, hw⟩ : ∃ w, j.begin? "f" = some w := by
    subst hs hsys
    cases hj
    exact ⟨_, rfl⟩
  have hmeets : j.Meets s s.inputs w := by
    subst hs
    exact .first hw
  have hout : s.output = none → ∃ e, sys.descriptor? 1 = some e := by
    subst hs
    exact fun h => by cases h
  obtain ⟨hran, hends⟩ := run_ends hfiles hinput hout
  refine ⟨s, sys, j, w, rfl, rfl, hran, hj, ?_, hends j w hj hmeets⟩
  subst hs
  exact hmeets

end Runs

end Concat

end BufferedFiles
