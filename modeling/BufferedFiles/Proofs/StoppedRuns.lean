import BufferedFiles.Proofs.Interruption

/-!
# Runs that stop early

The first input that cannot be opened or read stops a run. Nothing behind it is looked at, and once the
program has ended the output holds what was to stay in it, the inputs before that one, and what was read of
it: an exact start of what a run without the failure would have left.
-/
namespace BufferedFiles

/-- At the end of a program nothing is left but what standard output still has. -/
theorem Console.settle_eq {console : Console} (hmessages : console.get .messages = ConsoleName.initial .messages)
    (sys : System) : console.settle sys = ((console.get .output).flush sys).system := by
  unfold settle
  rw [hmessages]
  rfl

namespace Concat

namespace Work

variable {s : Settings} {w : Work} {r : Work × Except Failure Nat}

private theorem rounds_of_inputs (inputs : List String) (copied : Nat) (h : w.rounds s copied = some r) :
    w.rounds { s with inputs } copied = some r := by
  rw [rounds_eq_some_iff] at h ⊢
  induction h with
  | failed hround => exact .failed hround
  | drained hround => exact .drained hround
  | more hround _ ih => exact .more hround ih

theorem copy_of_inputs (s : Settings) (inputs : List String) (w : Work) : w.copy { s with inputs } = w.copy s := by
  unfold copy
  cases h : w.rounds s 0 with
  | some r => rw [rounds_of_inputs inputs 0 h]
  | none =>
    cases h' : w.rounds { s with inputs } 0 with
    | none => rfl
    | some r =>
      have hback : w.rounds s 0 = some r := rounds_of_inputs (s := { s with inputs }) s.inputs 0 h'
      rw [h] at hback
      cases hback

end Work

namespace Job

variable {s : Settings} {j j' : Job} {t : Stream} {o n : Nat} {content : String → Bytes} {waiting : Bytes}

theorem takeInputs_of_inputs (s : Settings) (given : List String) (j : Job) (inputs : List String) (total : Nat) :
    j.takeInputs { s with inputs := given } inputs total = j.takeInputs s inputs total := by
  induction inputs generalizing j total with
  | nil => rfl
  | cons input rest ih =>
    have hone : j.takeInput { s with inputs := given } input = j.takeInput s input := by
      simp only [takeInput, Work.copy_of_inputs]
    simp only [takeInputs, hone, ih]

end Job

section Runs

variable {s : Settings} {sys : System} {j j' : Job} {t : Stream} {o n : Nat} {content : String → Bytes}
  {waiting bytes : Bytes} {before : List String} {failure : Failure} {output : Outlet}

/-- The sink `t` on the device `o` begins with what is to stay in the output. -/
def Outlet.Begins (output : Outlet) (sys : System) (t : Stream) (o : Nat) : Prop :=
  match output with
  | .file place kept => sys.lookup place = some o ∧
      (⟨t, sys⟩ : Connection).account.file = some ⟨kept, kept.length⟩
  | .standard d dev => d.device = o ∧ (⟨t, sys⟩ : Connection).account = .ofPort d dev 0

theorem Settings.Reaches.begins (hcheck : s.check = .ok ())
    (hreach : s.Reaches sys ((joined content before waiting).length + n) output)
    (hfiles : ∀ input ∈ before, input ≠ standardMark → sys.Offers (output.Is sys) s.asked (toBytes input) (content input))
    (hinput : standardMark ∈ before → sys.Waits (output.Is sys) s.asked waiting) :
    ∃ j t o, s.job? sys = some j ∧ j.Serves s t o content waiting before n ∧ output.Begins j.system t o := by
  cases hreach with
  | @file path place data hout hpath hleads hroom =>
    rw [← s.opens_mode data] at hroom ⊢
    obtain ⟨sys₁, t, o, hopen, hready, hwrites, hwilling, hfile, hnamed, hdevice, hfree, hspares, hother⟩ :=
      openSink (Settings.accepts_of_check hcheck) hpath hleads hroom
    have hjob : s.job? sys = some ⟨ConsoleName.initial .input, ⟨Text.lossy (toBytes path), s.sinkMode, some t⟩, sys₁,
        (openEvents ⟨Text.lossy (toBytes path), s.sinkMode, some t⟩).reverse⟩ := by
      simp only [Settings.job?, hout, hopen]
      rfl
    refine ⟨_, t, o, hjob, Job.Serves.start _ _ rfl hready hwrites hdevice hwilling hspares hother (fun d hd heq => ?_)
      hfiles hinput, hnamed, hfile⟩
    rw [← heq, hd] at hfree
    cases hfree
  | @standard d dev hout ho hd hr hin hroom haddr =>
    have hfresh : ConsoleName.outputStream.Fresh := ⟨rfl, rfl, rfl, rfl, rfl, rfl, Nat.zero_le 1⟩
    obtain ⟨hready, -, haccount⟩ := hfresh.ready ho nofun hin
    exact ⟨_, ConsoleName.outputStream, d.device, by simp only [Settings.job?, hout]; rfl,
      Job.Serves.start (ConsoleName.initial .output) [] rfl hready rfl ⟨d, (System.opened?_eq_some.1 ho).1, rfl⟩
        (Connection.willing_output ho hd hr hroom haddr) (.refl _ _ sys) (fun i _ _ heq => heq.symm)
        (fun _ _ => nofun) hfiles hinput, rfl, haccount⟩

/-- A run to a file that an input stops lets go of the file. -/
private theorem run_file {path : String} {h : Handle} {sys' : System} (hout : s.output = some path)
    (hj : s.job? sys = some j) (htake : j.takeInputs s s.inputs 0 = (j', .error failure))
    (hclose : j'.sink.close j'.system = ⟨h, sys', .ok ()⟩) :
    runChecked s (Console.prepare {}) sys = ((Console.prepare {}).set .input j'.standardInput,
      ⟨.error failure, (releaseEvents j'.sink (.ok ())).reverse ++ j'.events, sys'⟩) := by
  rw [Settings.runChecked_of_job? hj, htake]
  simp only [Settings.finish, hout, hclose]

/-- A run to standard output that an input stops leaves what is pending to the end of the program. -/
private theorem run_standard (hout : s.output = none)
    (hj : s.job? sys = some j) (htake : j.takeInputs s s.inputs 0 = (j', .error failure)) :
    runChecked s (Console.prepare {}) sys =
      (((Console.prepare {}).set .input j'.standardInput).set .output j'.sink, ⟨.error failure, j'.events, j'.system⟩) := by
  rw [Settings.runChecked_of_job? hj, htake]
  simp only [Settings.finish, hout]

private theorem runChecked_of_inputs {inputs : List String} {r : Job × Except Failure Nat} (hj : s.job? sys = some j)
    (htake : j.takeInputs s s.inputs 0 = r) (htake' : j.takeInputs s inputs 0 = r) :
    runChecked { s with inputs } (Console.prepare {}) sys = runChecked s (Console.prepare {}) sys := by
  have hj' : ({ s with inputs } : Settings).job? sys = some j := hj
  rw [← Job.takeInputs_of_inputs s inputs] at htake'
  rw [Settings.runChecked_of_job? hj, Settings.runChecked_of_job? hj', htake, htake']
  rfl

/-- Once the program has ended, all that the sink of a job that was stopped stands for is in the output. -/
private theorem run_holds {t' : Stream} (hcheck : s.check = .ok ())
    (hreach : s.Reaches sys n output) (hj : s.job? sys = some j) (hbegins : output.Begins j.system t o)
    (htake : j.takeInputs s s.inputs 0 = (j', .error failure)) (hpasses : j.Passes t j' t' bytes)
    (h : j'.Serves s t' o content waiting [] 0) :
    ∃ console ending, runChecked s (Console.prepare {}) sys = (console, ending) ∧ ending.result = .error failure ∧
      output.Holds (run s sys).system bytes ∧ (run s sys).exitCode = 1 := by
  have hrun : ∀ {console ending}, runChecked s (Console.prepare {}) sys = (console, ending) →
      ending.result = .error failure →
      (run s sys).system = console.settle ending.system ∧ (run s sys).exitCode = 1 := by
    intro console ending hrun hresult
    simp only [run, hcheck, hrun, Ending.exitCode, hresult]
    exact ⟨trivial, trivial⟩
  cases hreach with
  | @file path place data hout =>
    obtain ⟨hnamed, hfile⟩ := hbegins
    have hfile' : (⟨t', j'.system⟩ : Connection).account.file = some (PlainFile.write
        ⟨if s.append then data else [], (if s.append then data else []).length⟩
        (⟨t, j.system⟩ : Connection).account.appending bytes) := by
      rw [hpasses.account, Account.lay, hfile, Option.map_some]
    obtain ⟨sys', hclose, hcontent⟩ := h.closes (hpasses.grows.lookup hnamed) hfile'
    rw [PlainFile.contents_write_length] at hcontent
    have hran := run_file hout hj htake hclose
    obtain ⟨hsystem, hexit⟩ := hrun hran rfl
    refine ⟨_, _, hran, rfl, ?_, hexit⟩
    rw [hsystem, Console.settle_eq rfl]
    exact hcontent
  | @standard d dev hout =>
    obtain ⟨rfl, haccount⟩ := hbegins
    obtain ⟨c, dev', hflush, hdev', hreceived, hfile⟩ := h.flushes
    have hran := run_standard hout hj htake
    obtain ⟨hsystem, hexit⟩ := hrun hran rfl
    refine ⟨_, _, hran, rfl, ?_, hexit⟩
    rw [hsystem, Console.settle_eq rfl, Console.get_set, if_pos rfl, hflush]
    refine ⟨dev', hdev', ?_, fun data hc => hfile _ ?_⟩
    · rw [hreceived, hpasses.account, haccount]
      rfl
    · rw [hpasses.account, haccount]
      simp only [Account.lay, Account.ofPort, hc, Content.file?, Option.map_some, Nat.sub_zero]

/-- A run that cannot open its output has looked at no input. A run that an input stops, because it cannot be
opened or read when it is its turn, has looked at no input behind it, fails with that failure, and leaves in
the output exactly the inputs before it and what was read of it. -/
theorem run_stops (hcheck : s.check = .ok ()) :
    (∀ {path sys' e}, s.output = some path →
      Handle.openPath sys (toBytes path) s.sinkMode s.buffering = (sys', .error e) →
      runChecked s (Console.prepare {}) sys = (Console.prepare {}, ⟨.error (.openOutput path e), [], sys'⟩) ∧
        (∃ errno, sys' = { sys with lastError := errno }) ∧ (run s sys).exitCode = 1) ∧
    (∀ {content waiting before input after part failure output j₀ j n},
      s.inputs = before ++ input :: after →
      s.Reaches sys ((joined content before waiting).length + part.length) output →
      (∀ file ∈ before, file ≠ standardMark → sys.Offers (output.Is sys) s.asked (toBytes file) (content file)) →
      (standardMark ∈ before → sys.Waits (output.Is sys) s.asked waiting) →
      s.job? sys = some j₀ → j₀.takeInputs s before 0 = (j, .ok n) →
      (∀ i, j.Reads input i → ¬ output.Is j.system i) → j.Denies s input part failure →
      ∃ console ending, runChecked s (Console.prepare {}) sys = (console, ending) ∧ ending.result = .error failure ∧
        (∀ later, runChecked { s with inputs := before ++ input :: later } (Console.prepare {}) sys = (console, ending)) ∧
        output.Holds (run s sys).system (joined content before waiting ++ part) ∧ (run s sys).exitCode = 1) := by
  refine ⟨fun {path sys' e} hout hopen => ?_, fun {content waiting before input after part failure output j₀ j n}
    hsplit hreach hfiles hinput hj hturn hapart hdenies => ?_⟩
  · have hran : runChecked s (Console.prepare {}) sys = (Console.prepare {}, ⟨.error (.openOutput path e), [], sys'⟩) := by
      simp only [runChecked, hout, runTo, hopen]
    refine ⟨hran, Handle.openPath_error (Settings.accepts_of_check hcheck) s.charset?_sinkMode hopen, ?_⟩
    simp only [run, hcheck, hran, Ending.exitCode]
  obtain ⟨j', t, o, hj', hserves, hbegins⟩ := hreach.begins hcheck hfiles hinput
  rw [hj] at hj'
  cases hj'
  obtain ⟨j', t₁, waiting₁, htake₁, hpasses₁, h₁⟩ := Job.takeInputs_serves (s := s) hserves 0
  rw [hturn] at htake₁
  cases htake₁
  have havoids : ¬ j.Reads input o := fun hreads => hapart o hreads (by
    cases output with
    | file place kept => exact hpasses₁.grows.lookup hbegins.1
    | standard d dev => exact hbegins.1)
  obtain ⟨j₂, t₂, hdenied, hpasses₂, h₂⟩ := Job.takeInput_denied (n := 0) h₁ hdenies havoids
  have hstop : ∀ later, j₀.takeInputs s (before ++ input :: later) 0 = (j₂, .error failure) :=
    fun later => Job.takeInputs_stop later hturn hdenied
  have hpasses := hpasses₁.trans hpasses₂
  obtain ⟨console, ending, hran, hresult, hholds, hexit⟩ :=
    run_holds hcheck hreach hj hbegins (hsplit ▸ hstop after) hpasses h₂
  exact ⟨console, ending, hran, hresult,
    fun later => (runChecked_of_inputs hj (hsplit ▸ hstop after) (hstop later)).trans hran, hholds, hexit⟩

/-- A file of two bytes is appended to another in a round, and the directory is next. -/
private theorem directory_next {s : Settings} {sys : System}
    (hs : s = ⟨["a", ".", "b"], some "o", true, none, 0, false, 0, false⟩)
    (hsys : sys = ((System.withConsole (.regular [])).addFile (toBytes "a") [0, 255]).addFile (toBytes "o") [97]) :
    ∃ j₀ j, s.job? sys = some j₀ ∧ j₀.takeInputs s ["a"] 0 = (j, .ok 2) ∧
      j.system.find (toBytes ".") = .ok [toBytes "home"] ∧ j.system.lookup [toBytes "home"] = some 5 ∧
      j.system.device? 5 = some { content := .directory } ∧
      j.system.lookup [toBytes "home", toBytes "o"] = some 10 ∧ ∀ i, j.Reads "." i → i = 5 := by
  obtain ⟨j₀, hj₀⟩ : ∃ j, s.job? sys = some j := by
    subst hs hsys
    exact ⟨_, rfl⟩
  obtain ⟨w, hbegin⟩ : ∃ w, j₀.begin? "a" = some w := by
    subst hs hsys
    cases hj₀
    exact ⟨_, rfl⟩
  obtain ⟨w₁, w₂, hfirst, hlast⟩ : ∃ w₁ w₂, w.round s = (w₁, .ok 2) ∧ w₁.round s = (w₂, .ok 0) := by
    subst hs hsys
    cases hj₀
    cases hbegin
    exact ⟨_, _, rfl, rfl⟩
  have hcopy : w.copy s = (w₂.tell [.drained w₂.source.path 2], .ok 2) := by
    rw [Work.copy, Work.rounds_of_more hfirst, Work.rounds_of_end hlast]
    rfl
  obtain ⟨j, hend⟩ : ∃ j, j₀.endInput "a" (w₂.tell [.drained w₂.source.path 2], .ok 2) = (j, .ok 2) := by
    subst hs hsys
    cases hj₀
    cases hbegin
    cases hfirst
    cases hlast
    exact ⟨_, rfl⟩
  have hturn : j₀.takeInputs s ["a"] 0 = (j, .ok 2) := by
    simp only [Job.takeInputs, Job.takeInput_of_begin? hbegin, hcopy, hend]
  refine ⟨j₀, j, hj₀, hturn, ?_⟩
  subst hs hsys
  cases hj₀
  cases hbegin
  cases hfirst
  cases hlast
  cases hend
  refine ⟨rfl, rfl, rfl, rfl, fun i hreads => ?_⟩
  obtain ⟨w₃, u, d, hbegin, hu, hd, rfl⟩ := hreads
  cases hbegin
  cases hu
  cases hd
  rfl

/-- A file is appended to another, and the directory behind it stops the run. Nothing is read for an output in
a directory that is not there. -/
theorem run_stops_at_directory :
    ∃ console ending,
      runChecked ⟨["a", ".", "b"], some "o", true, none, 0, false, 0, false⟩ (Console.prepare {})
        (((System.withConsole (.regular [])).addFile (toBytes "a") [0, 255]).addFile (toBytes "o") [97]) =
          (console, ending) ∧
      ending.result = .error (.read "." (.stream (.ofErrno "fread" .isDirectory))) ∧
      (run ⟨["a", ".", "b"], some "o", true, none, 0, false, 0, false⟩
        (((System.withConsole (.regular [])).addFile (toBytes "a") [0, 255]).addFile (toBytes "o") [97])).system.contentAt
          [toBytes "home", toBytes "o"] = some (.regular [97, 0, 255]) ∧
      (run ⟨["a"], some "none/o", false, none, 0, false, 0, false⟩ ((System.withConsole (.regular [])).addFile
        (toBytes "a") [0, 255])).exitCode = 1 := by
  generalize hsys : ((System.withConsole (.regular [])).addFile (toBytes "a") [0, 255]).addFile (toBytes "o") [97] = sys
  generalize hs : (⟨["a", ".", "b"], some "o", true, none, 0, false, 0, false⟩ : Settings) = s
  obtain ⟨j₀, j, hj₀, hturn, hfind, hat, hdir, hout, hreads⟩ := directory_next hs.symm hsys.symm
  have hreach : s.Reaches sys 2 (.file [toBytes "home", toBytes "o"] [97]) := by
    subst hs hsys
    exact @Settings.Reaches.file _ _ _ "o" _ [97] rfl rfl
      (@System.Leads.there _ _ _ _ 10 { content := .regular [97] } _ rfl rfl rfl rfl nofun (by decide)) (by decide)
  have hfile : sys.Offers ((Outlet.file [toBytes "home", toBytes "o"] [97]).Is sys) s.asked (toBytes "a") [0, 255] := by
    subst hsys hs
    refine ⟨rfl, ⟨[toBytes "home", toBytes "a"], 9, { content := .regular [0, 255] }, rfl, rfl, ?_, rfl, rfl, nofun,
      by decide⟩, by decide⟩
    exact fun heq => absurd (Option.some.inj heq) (by decide)
  have hfiles : ∀ file ∈ ["a"], file ≠ standardMark →
      sys.Offers ((Outlet.file [toBytes "home", toBytes "o"] [97]).Is sys) s.asked (toBytes file) [0, 255] := by
    rintro file hin -
    cases List.mem_singleton.1 hin
    exact hfile
  have hapart : ∀ i, j.Reads "." i → ¬ (Outlet.file [toBytes "home", toBytes "o"] [97]).Is j.system i := by
    rintro i hi hsame
    have hsame : j.system.lookup [toBytes "home", toBytes "o"] = some i := hsame
    rw [hout, hreads i hi] at hsame
    exact absurd (Option.some.inj hsame) (by decide)
  have hdenies := Job.denies_of_directory (s := s) (j := j) (by decide) rfl hfind hat hdir rfl rfl
    (by subst hs; decide)
  obtain ⟨-, hstops⟩ := @run_stops s sys (by subst hs; rfl)
  obtain ⟨console, ending, hran, hresult, -, hholds, -⟩ := @hstops (fun _ => [0, 255]) [] ["a"] "." ["b"] [] _ _ _ _ _
    (by subst hs; rfl) hreach hfiles (fun hmark => absurd hmark (by decide)) hj₀ hturn hapart hdenies
  subst hs
  have hshown : Text.lossy (toBytes ".") = "." := by decide +kernel
  rw [hshown] at hresult
  obtain ⟨hunopened, -⟩ := @run_stops ⟨["a"], some "none/o", false, none, 0, false, 0, false⟩
    ((System.withConsole (.regular [])).addFile (toBytes "a") [0, 255]) rfl
  exact ⟨console, ending, hran, hresult, hholds, (hunopened rfl rfl).2.2⟩

end Runs

end Concat

end BufferedFiles
