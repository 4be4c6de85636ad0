import BufferedFiles.Proofs.Arguments
import BufferedFiles.Proofs.ConcatRuns

/-!
# Arguments and settings that are refused

The rules are looked at in three places: where arguments are read, where settings are checked, and where the output
is opened. What the first admits is refused by the second for two reasons only, and what the second admits is never
refused by the third for its buffering value. The first two come before anything is opened, so that a refusal leaves
the system as it was; help and version are printed, and nothing else.
-/
namespace BufferedFiles

/-- What was there is still there: nothing was read out of a pipe or a channel, and no file was cut off. -/
def Content.Spared : Content → Content → Prop
  | .regular data, .regular data' => data.length ≤ data'.length
  | .pipe queue, .pipe queue' => queue <+: queue'
  | .channel coming arrivals, .channel coming' arrivals' => coming = coming' ∧ arrivals = arrivals'
  | .directory, .directory | .null, .null | .zero, .zero | .full, .full => True
  | _, _ => False

theorem Content.Spared.refl (content : Content) : content.Spared content := by
  cases content with
  | regular data => exact Nat.le_refl _
  | pipe queue => exact List.prefix_refl queue
  | channel coming arrivals => exact ⟨rfl, rfl⟩
  | _ => trivial

theorem Content.Spared.trans {a b c : Content} (h : a.Spared b) (h' : b.Spared c) : a.Spared c := by
  cases a <;> cases b <;> cases c <;>
    first
    | trivial
    | exact Nat.le_trans h h'
    | exact List.IsPrefix.trans h h'
    | exact ⟨h.1.trans h'.1, h.2.trans h'.2⟩

theorem Content.spared_laid (content : Content) (position : Nat) (bytes : Bytes) :
    content.Spared (content.laid position bytes) := by
  cases content with
  | regular data =>
    show data.length ≤ (overwrite data position bytes).length
    rw [length_overwrite]
    exact Nat.le_max_left _ _
  | pipe queue => exact List.prefix_append queue bytes
  | channel coming arrivals => exact ⟨rfl, rfl⟩
  | _ => trivial

/-- `b` is `a` after writes at the descriptor `fd`, and nothing else: no descriptor and no stream is opened, nothing
is created, cut off or read. -/
structure System.Printed (fd : Nat) (a b : System) : Prop where
  through : System.Through fd a b
  spared : ∀ i dev dev', a.device? i = some dev → b.device? i = some dev' → dev.content.Spared dev'.content

namespace System

variable {fd : Nat} {a b c sys : System}

theorem Printed.refl (fd : Nat) (a : System) : Printed fd a a where
  through := .refl fd a
  spared i dev dev' h h' := by
    cases h.symm.trans h'
    exact .refl _

theorem Printed.trans (h : Printed fd a b) (h' : Printed fd b c) : Printed fd a c where
  through := h.through.trans h'.through
  spared i dev dev'' ha hc := by
    obtain ⟨dev', hb, -⟩ := h.through.device i dev ha
    exact (h.spared i dev dev' ha hb).trans (h'.spared i dev' dev'' hb hc)

/-- Writes at an open descriptor that spare its device spare all. -/
theorem Printed.of_own {d d' : Descriptor} {dev dev' : Device} (h : Through fd a b) (ho : a.opened? fd = some (d, dev))
    (ho' : b.opened? fd = some (d', dev')) (hdevice : d'.device = d.device) (hspared : dev.content.Spared dev'.content) :
    Printed fd a b where
  through := h
  spared i e e' he he' := by
    obtain ⟨hdesc, hdev⟩ := opened?_eq_some.1 ho
    obtain ⟨-, hdev'⟩ := opened?_eq_some.1 ho'
    by_cases hi : d.device = i
    · rw [hdevice, hi] at hdev'
      rw [hi] at hdev
      cases hdev.symm.trans he
      cases hdev'.symm.trans he'
      exact hspared
    · have hsame : b.device? i = a.device? i := by
        refine h.foreign i fun d₀ hd₀ => ?_
        cases hdesc.symm.trans hd₀
        exact hi
      rw [hsame] at he'
      cases he.symm.trans he'
      exact .refl _

theorem printed_write (sys : System) (fd : Nat) (bytes : Bytes) : Printed fd sys (sys.write fd bytes).1 := by
  cases ho : sys.opened? fd with
  | none =>
    simp only [write, ho]
    exact ⟨.withError fd sys _, (Printed.refl fd sys).spared⟩
  | some port =>
    obtain ⟨d, dev⟩ := port
    rcases hw : sys.write fd bytes with ⟨sys', e | n⟩
    · obtain ⟨hthrough, dev', ho', hcontent, -⟩ := write_error ho hw
      exact .of_own hthrough ho ho' rfl (hcontent ▸ .refl _)
    · obtain ⟨hthrough, -, -, -, ho'⟩ := write_ok ho hw
      exact .of_own hthrough ho ho' rfl (Content.spared_laid _ _ _)

theorem printed_writeAll (fd fuel : Nat) (sys : System) (bytes : Bytes) :
    Printed fd sys (writeAll fd fuel sys bytes).1 := by
  induction fuel generalizing sys bytes with
  | zero => exact .refl fd sys
  | succ fuel ih =>
    have hstep := printed_write sys fd bytes
    simp only [writeAll]
    split
    · exact .refl fd sys
    · split <;> rename_i heq <;> rw [heq] at hstep
      · exact hstep
      · exact hstep.trans (ih _ _)

end System

namespace Handle

variable {value : Int} {buffering : Option Int}

theorem accepts_some_iff : Accepts (some value) ↔ value ∈ [-1, 0, 1] := by
  simp only [List.mem_cons, List.not_mem_nil, or_false]
  constructor
  · intro h
    obtain ⟨b, rfl⟩ := h value rfl
    cases b <;> decide
  · rintro (rfl | rfl | rfl) v hv <;> cases hv
    · exact ⟨.unchanged, rfl⟩
    · exact ⟨.unbuffered, rfl⟩
    · exact ⟨.lineBuffered, rfl⟩

theorem not_accepts_iff : ¬ Accepts buffering ↔ ∃ value, buffering = some value ∧ value ∉ [-1, 0, 1] := by
  cases buffering with
  | none => exact ⟨fun h => absurd accepts_none h, fun ⟨_, h, _⟩ => by cases h⟩
  | some value =>
    rw [accepts_some_iff]
    exact ⟨fun h => ⟨value, rfl, h⟩, fun ⟨_, heq, h⟩ => Option.some.inj heq ▸ h⟩

end Handle

theorem Buffering.ofInt_of_not_mem {value : Int} (h : value ∉ [-1, 0, 1]) :
    Buffering.ofInt value = .error (.invalidBuffering value) := by
  simp only [List.mem_cons, List.not_mem_nil, or_false, not_or] at h
  obtain ⟨hunchanged, hunbuffered, hline⟩ := h
  rw [Buffering.ofInt, if_neg hunchanged, if_neg hunbuffered, if_neg hline]

/-- A path is refused for a buffering value where the value means nothing, after the stream was opened. -/
theorem Handle.openPath_invalidBuffering_iff {sys : System} {path : Bytes} {mode : String} {buffering : Option Int}
    {value : Int} : (Handle.openPath sys path mode buffering).2 = .error (.invalidBuffering value) ↔
      buffering = some value ∧ value ∉ [-1, 0, 1] ∧ ∃ u, (sys.openStream path (toBytes mode)).2 = .ok u := by
  rcases hopen : sys.openStream path (toBytes mode) with ⟨sys', e | u⟩
  · have hrefused : (Handle.openPath sys path mode buffering).2 = .error (.stream e) := by
      rw [Handle.openPath, hopen]
    rw [hrefused]
    constructor
    · intro h
      cases h
    · rintro ⟨-, -, u, h⟩
      cases h
  · have hmade : Handle.openPath sys path mode buffering = Handle.ofStream (Text.lossy path) mode u buffering sys' := by
      rw [Handle.openPath, hopen]
    rw [hmade]
    by_cases hb : Handle.Accepts buffering
    · obtain ⟨t, hmade, -⟩ := ofStream_fresh (System.openStream_fresh hopen).1 hb (Text.lossy path) mode
      rw [hmade]
      constructor
      · intro h
        cases h
      · rintro ⟨hvalue, hno, -⟩
        exact absurd hb (Handle.not_accepts_iff.2 ⟨value, hvalue, hno⟩)
    · obtain ⟨other, rfl, hno⟩ := Handle.not_accepts_iff.1 hb
      have hrefused : (Handle.ofStream (Text.lossy path) mode u (some other) sys').2 =
          .error (.invalidBuffering other) := by
        simp only [Handle.ofStream, Buffering.ofInt_of_not_mem hno]
      rw [hrefused]
      constructor
      · intro h
        obtain rfl : other = value := HandleError.invalidBuffering.inj (Except.error.inj h)
        exact ⟨rfl, hno, u, rfl⟩
      · rintro ⟨heq, -, -⟩
        rw [Option.some.inj heq]

namespace Concat

namespace Settings

variable {s : Settings}

/-- A value that means nothing is refused, whatever else is wrong with settings that come from arguments. -/
theorem Declared.check_of_not_accepts {value : Int} (hs : s.Declared) (hvalue : s.buffering = some value)
    (hno : value ∉ [-1, 0, 1]) : s.check = .error (.buffering (.invalidBuffering value)) := by
  have hinputs : ¬ s.inputs.isEmpty = true := fun hempty => hs.inputs (List.isEmpty_iff.1 hempty)
  have hbuffering : s.checkBuffering = .error (.buffering (.invalidBuffering value)) := by
    simp only [checkBuffering, hvalue, Buffering.ofInt_of_not_mem hno]
  rw [check, if_neg hinputs, hbuffering]

/-- What is declared leaves one more reason to refuse settings. -/
theorem Declared.check_of_accepts (hs : s.Declared) (hb : Handle.Accepts s.buffering) :
    s.check = if s.quiet = true ∧ 0 < s.verbose then .error .quietAndVerbose else .ok () := by
  have hinputs : ¬ s.inputs.isEmpty = true := fun hempty => hs.inputs (List.isEmpty_iff.1 hempty)
  have hbuffering : s.checkBuffering = .ok () := by
    unfold checkBuffering
    split
    · rfl
    · rename_i value hvalue
      obtain ⟨b, rfl⟩ := hb value hvalue
      have houtput := hs.buffering (Option.isSome_iff_exists.2 ⟨_, hvalue⟩)
      rw [Buffering.ofInt_toInt]
      exact if_neg (by simpa using Option.isSome_iff_ne_none.1 houtput)
  have happend : ¬ (s.append && s.output.isNone) = true := by
    intro h
    obtain ⟨happend, hnone⟩ := Bool.and_eq_true_iff.1 h
    exact Option.isSome_iff_ne_none.1 (hs.append happend) (Option.isNone_iff_eq_none.1 hnone)
  rw [check, if_neg hinputs, hbuffering]
  dsimp only
  rw [if_neg happend]
  simp only [Bool.and_eq_true, decide_eq_true_eq]

/-- Settings that come from arguments are refused for the value of the buffering, or for being quiet and verbose. -/
theorem Declared.check_error (hs : s.Declared) {e : SettingsError} (he : s.check = .error e) :
    (∃ value, s.buffering = some value ∧ value ∉ [-1, 0, 1] ∧ e = .buffering (.invalidBuffering value)) ∨
      (s.quiet = true ∧ 0 < s.verbose) ∧ e = .quietAndVerbose := by
  by_cases hb : Handle.Accepts s.buffering
  · rw [hs.check_of_accepts hb] at he
    split at he
    · rename_i hboth
      cases he
      exact .inr ⟨hboth, rfl⟩
    · cases he
  · obtain ⟨value, hvalue, hno⟩ := Handle.not_accepts_iff.1 hb
    rw [hs.check_of_not_accepts hvalue hno] at he
    cases he
    exact .inl ⟨value, hvalue, hno, rfl⟩

theorem Declared.check_error_iff (hs : s.Declared) : (∃ e, s.check = .error e) ↔
    (∃ value, s.buffering = some value ∧ value ∉ [-1, 0, 1]) ∨ (s.quiet = true ∧ 0 < s.verbose) := by
  constructor
  · rintro ⟨e, he⟩
    rcases hs.check_error he with ⟨value, hvalue, hno, -⟩ | ⟨hboth, -⟩
    · exact .inl ⟨value, hvalue, hno⟩
    · exact .inr hboth
  · intro hcase
    by_cases hb : Handle.Accepts s.buffering
    · rcases hcase with hvalue | hboth
      · exact absurd hb (Handle.not_accepts_iff.2 hvalue)
      · exact ⟨_, (hs.check_of_accepts hb).trans (if_pos hboth)⟩
    · obtain ⟨value, hvalue, hno⟩ := Handle.not_accepts_iff.1 hb
      exact ⟨_, hs.check_of_not_accepts hvalue hno⟩

/-- Settings that were checked open no output that is refused for its buffering value. -/
theorem openPath_of_check (hcheck : s.check = .ok ()) (sys : System) (path : Bytes) (value : Int) :
    (Handle.openPath sys path s.sinkMode s.buffering).2 ≠ .error (.invalidBuffering value) := by
  intro h
  obtain ⟨hvalue, hno, -⟩ := Handle.openPath_invalidBuffering_iff.1 h
  exact Handle.not_accepts_iff.2 ⟨value, hvalue, hno⟩ (accepts_of_check hcheck)

end Settings

/-- Reading that stops leaves what was printed, and prints nothing but help and version. -/
theorem print_spared (stop : Stop) (sys : System) : System.Printed 1 sys (print stop.output sys) :=
  System.printed_writeAll _ _ _ _

theorem print_nothing {stop : Stop} (h : stop.exitCode ≠ 0) (sys : System) : print stop.output sys = sys := by
  have hnothing : stop.output = "" := by
    cases stop with
    | help | version => exact absurd rfl h
    | _ => rfl
  rw [hnothing]
  rfl

/-- For every argument vector: where the reading stops, nothing is opened, created, cut off or read, and nothing at all
is done unless help or the version is printed. Where settings come out, they are as declared: they have inputs, and
an output if they append or name a buffering value. They are refused for a buffering value that means nothing or for
being quiet and verbose, and for nothing else, and then nothing is done either; and settings that are not refused
open their output without a complaint about the buffering value. -/
theorem refusals_agree (arguments : List String) (sys : System) :
    (∀ stop, Settings.parse arguments = .error stop →
      (invoke arguments sys).exitCode = stop.exitCode ∧ System.Printed 1 sys (invoke arguments sys).system ∧
        (stop ≠ .help → stop ≠ .version → (invoke arguments sys).system = sys)) ∧
    ∀ s, Settings.parse arguments = .ok s →
      s.Declared ∧
      (∀ e, s.check = .error e → (invoke arguments sys).exitCode = 1 ∧ (invoke arguments sys).system = sys) ∧
      ((∃ e, s.check = .error e) ↔
        (∃ value, s.buffering = some value ∧ value ∉ [-1, 0, 1]) ∨ (s.quiet = true ∧ 0 < s.verbose)) ∧
      (∀ e, s.check = .error e → e ≠ .noInput ∧ e ≠ .bufferingWithoutOutput ∧ e ≠ .appendWithoutOutput) ∧
      (s.check = .ok () → ∀ (before : System) (path : Bytes) (value : Int),
        (Handle.openPath before path s.sinkMode s.buffering).2 ≠ .error (.invalidBuffering value)) := by
  refine ⟨fun stop hstop => ?_, fun s hparse => ?_⟩
  · have hinvoke : invoke arguments sys = ⟨stop.exitCode, stop.messages, print stop.output sys⟩ := by
      rw [invoke, hstop]
    rw [hinvoke]
    refine ⟨rfl, print_spared stop sys, fun hhelp hversion => print_nothing ?_ sys⟩
    cases stop with
    | help => exact absurd rfl hhelp
    | version => exact absurd rfl hversion
    | _ => exact Nat.succ_ne_zero 1
  · have hs := Settings.parse_declared arguments s hparse
    refine ⟨hs, fun e he => ?_, hs.check_error_iff, fun e he => ?_,
      Settings.openPath_of_check⟩
    · have hinvoke : invoke arguments sys = ⟨1, Failure.text (.settings e), sys⟩ := by
        simp only [invoke, hparse, run, he]
      rw [hinvoke]
      exact ⟨rfl, rfl⟩
    · rcases hs.check_error he with ⟨value, -, -, rfl⟩ | ⟨-, rfl⟩
      · exact ⟨SettingsError.noConfusion, SettingsError.noConfusion, SettingsError.noConfusion⟩
      · exact ⟨SettingsError.noConfusion, SettingsError.noConfusion, SettingsError.noConfusion⟩

/-- An option that needs an output, a buffering value that means nothing, and options that are all in order. -/
theorem refusals_agree_at_output :
    let sys := System.withConsole (.pipe [120])
    (invoke ["in", "--append"] sys).system = sys ∧
    ((invoke ["-o", "out", "--buffering", "2", "in"] sys).exitCode = 1 ∧
      (invoke ["-o", "out", "--buffering", "2", "in"] sys).system = sys) ∧
    ∃ s, Settings.parse ["-vvoout", "--append", "--buffering", "-1", "--", "--in"] = .ok s ∧
      s = { inputs := ["--in"], output := some "out", append := true, buffering := some (-1), verbose := 2 } ∧
      ∀ value, (Handle.openPath sys (toBytes "out") "a" (some (-1))).2 ≠ .error (.invalidBuffering value) := by
  intro sys
  obtain ⟨hstopped, -⟩ := refusals_agree ["in", "--append"] sys
  obtain ⟨-, hrefused⟩ := refusals_agree ["-o", "out", "--buffering", "2", "in"] sys
  obtain ⟨-, hopens⟩ := refusals_agree ["-vvoout", "--append", "--buffering", "-1", "--", "--in"] sys
  exact ⟨(hstopped .outputRequired rfl).2.2 nofun nofun, (hrefused _ rfl).2.1 _ rfl, _, rfl, rfl,
    fun value => (hopens _ rfl).2.2.2.2 rfl sys (toBytes "out") value⟩

end Concat

end BufferedFiles
