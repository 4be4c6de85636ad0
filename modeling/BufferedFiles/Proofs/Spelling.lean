import BufferedFiles.Proofs.Arguments
import Mathlib.Data.List.TakeWhile

/-!
# Settings spelled as arguments

Settings are spelled out by one argument for each option that is set, a value behind its option after an equals
sign, then two dashes, then the inputs. The options may come in any order: each of them changes a part of the draft
that no other one looks at, and repeated flags are counted. What is read back are the settings, whatever characters
stand in the inputs and in the output path.
-/
namespace BufferedFiles.Concat

theorem digits?_toDigits (n : Nat) : digits? (Nat.toDigits 10 n) = some n := by
  have hdigits : ∀ c ∈ Nat.toDigits 10 n, c.isDigit = true := fun c hc =>
    Nat.isDigit_of_mem_toDigits (by omega) (by omega) hc
  have hany : (Nat.toDigits 10 n).any (!·.isDigit) = false := by simpa using hdigits
  have hempty : (Nat.toDigits 10 n).isEmpty = false := by simp [Nat.toDigits_ne_nil]
  simp only [digits?, hany, hempty, Bool.or_self, Bool.false_eq_true, if_false]
  exact congrArg some (Nat.ofDigitChars_toDigits (by omega) (by omega))

/-- Digits are read without a sign. -/
theorem number?_toDigits (n : Nat) : number? (Nat.toDigits 10 n) = some (n : Int) := by
  have hdigits : ∀ c ∈ Nat.toDigits 10 n, c.isDigit = true := fun c hc =>
    Nat.isDigit_of_mem_toDigits (by omega) (by omega) hc
  have hread := digits?_toDigits n
  generalize Nat.toDigits 10 n = cs at hdigits hread
  unfold number?
  split
  · exact absurd (hdigits '-' (by simp)) (by decide)
  · exact absurd (hdigits '+' (by simp)) (by decide)
  · rw [hread]
    rfl

theorem number?_toString (n : Int) : number? (toString n).toList = some n := by
  cases n with
  | ofNat n =>
    have htext : (toString (Int.ofNat n)).toList = Nat.toDigits 10 n := Nat.toList_repr
    rw [htext, number?_toDigits]
    rfl
  | negSucc n =>
    have htext : (toString (Int.negSucc n)).toList = '-' :: Nat.toDigits 10 (n + 1) := by
      rw [← Nat.toList_repr]
      exact String.toList_append
    rw [htext]
    simp only [number?, digits?_toDigits]
    rfl

/-- A number is read back from its decimal text, up to the bounds of its type. -/
theorem numberWithin?_toString {low high n : Int} (hlow : low ≤ n) (hhigh : n ≤ high) :
    numberWithin? low high (toString n) = some n := by
  rw [numberWithin?, number?_toString]
  simp [hlow, hhigh]

/-- An option as it is spelled in one argument. -/
inductive Choice where
  | output (path : String)
  | append
  | buffering (value : Int)
  | chunkSize (size : Nat)
  | lines
  | verbose
  | quiet
  deriving DecidableEq, Repr

namespace Choice

def attached (name value : String) : String := "--" ++ name ++ "=" ++ value

def argument : Choice → String
  | .output path => attached "output" path
  | .append => "--append"
  | .buffering value => attached "buffering" (toString value)
  | .chunkSize size => attached "chunk-size" (toString size)
  | .lines => "--lines"
  | .verbose => "-v"
  | .quiet => "-q"

/-- What the option changes. -/
def put (d : Draft) : Choice → Draft
  | .output path => { d with output := some path }
  | .append => { d with append := true }
  | .buffering value => { d with buffering := some value }
  | .chunkSize size => { d with chunkSize := some size }
  | .lines => { d with lines := true }
  | .verbose => { d with verbose := d.verbose + 1 }
  | .quiet => { d with quiet := true }

/-- The option may still be given, and its value is one of its type. -/
def Fits (d : Draft) : Choice → Prop
  | .output path => d.output = none ∧ path ≠ ""
  | .append => d.append = false
  | .buffering value => d.buffering = none ∧ -0x80000000 ≤ value ∧ value ≤ 0x7FFFFFFF
  | .chunkSize size => d.chunkSize = none ∧ size ≤ 0xFFFFFFFF
  | .lines => d.lines = false
  | .verbose => d.verbose < countLimit
  | .quiet => d.quiet = false

end Choice

namespace Draft

variable {d d' d'' : Draft} {choice x y : Choice} {xs ys : List String}

theorem settle_of_nothing (hd : d.pending = .nothing) : d.settle = .ok d := by
  simp only [settle, hd]

/-- A value after an equals sign goes to its option, also where it holds further ones. -/
theorem addLong_attached {name value : List Char} {o : ValueOption} (hname : '=' ∉ name)
    (hknown : Known.ofLong? name = some (.option o)) (hd : d.pending = .nothing) :
    d.addLong (name ++ '=' :: value) = d.assign (String.ofList value) o := by
  have hnot : ∀ c ∈ name, (decide (c ≠ '=')) = true := fun c hc => by
    simpa using fun heq : c = '=' => hname (heq ▸ hc)
  have htake : (name ++ '=' :: value).takeWhile (· ≠ '=') = name := by
    rw [List.takeWhile_append_of_pos hnot]
    simp
  have hdrop : ((name ++ '=' :: value).dropWhile (· ≠ '=')).tail = value := by
    rw [List.dropWhile_append_of_pos hnot]
    simp
  have hattached : (name ++ '=' :: value).contains '=' = true := by simp
  simp only [addLong, htake, hdrop, hattached, hknown, if_true, settle_of_nothing hd, Except.bind]

/-- An argument with two dashes in front is a long option. -/
theorem addArgument_long {text : String} {long : List Char} (htext : text.toList = '-' :: '-' :: long)
    (hd : d.pending = .nothing) : d.addArgument text = d.addLong long := by
  simp only [addArgument, hd, htext, reduceCtorEq, if_false]

theorem addArgument_attached (name value : String) {o : ValueOption} (hname : '=' ∉ name.toList)
    (hknown : Known.ofLong? name.toList = some (.option o)) (hd : d.pending = .nothing) :
    d.addArgument (Choice.attached name value) = d.assign value o := by
  have hlist : (Choice.attached name value).toList = '-' :: '-' :: (name.toList ++ '=' :: value.toList) := by
    simp [Choice.attached]
  rw [addArgument_long hlist hd, addLong_attached hname hknown hd, String.ofList_toList]

theorem addArgument_flag (text : String) {name : List Char} {f : Flag} (htext : text.toList = '-' :: '-' :: name)
    (hname : '=' ∉ name) (hknown : Known.ofLong? name = some (.flag f)) (hd : d.pending = .nothing) :
    d.addArgument text = d.raise f := by
  have htake : name.takeWhile (· ≠ '=') = name :=
    List.takeWhile_eq_self_iff.2 fun c hc => by simpa using fun heq : c = '=' => hname (heq ▸ hc)
  have hattached : name.contains '=' = false := by simpa using hname
  rw [addArgument_long htext hd]
  simp only [addLong, htake, hattached, hknown, Bool.false_eq_true, if_false, settle_of_nothing hd, Except.bind]

theorem addArgument_short (text : String) {c : Char} {f : Flag} (htext : text.toList = ['-', c]) (hc : c ≠ '-')
    (hknown : Known.ofShort? c = some (.flag f)) (hd : d.pending = .nothing) :
    d.addArgument text = d.raise f := by
  have hplain : d.addArgument text = d.addShort [c] := by
    simp only [addArgument, hd, htext, reduceCtorEq, if_false]
  rw [hplain]
  simp only [addShort, hknown, settle_of_nothing hd, bind, Except.bind]
  cases d.raise f <;> rfl

/-- An option that fits is read from its argument. -/
theorem addArgument_choice (hd : d.pending = .nothing) (hfits : choice.Fits d) :
    d.addArgument choice.argument = .ok (choice.put d) := by
  cases choice with
  | output path =>
    obtain ⟨hnone, hpath⟩ := hfits
    have hadd := addArgument_attached "output" path (by decide) (o := .output) (by decide) hd
    have hvalue : path.isEmpty = false := by simpa using hpath
    simp only [assign, hnone, hvalue, Option.isSome_none, Bool.false_eq_true, if_false] at hadd
    exact hadd
  | append =>
    have hadd := addArgument_flag "--append" rfl (by decide) (f := .append) (by decide) hd
    simp only [raise, show d.append = false from hfits, Bool.false_eq_true, if_false] at hadd
    exact hadd
  | buffering value =>
    obtain ⟨hnone, hlow, hhigh⟩ := hfits
    have hadd := addArgument_attached "buffering" (toString value) (by decide) (o := .buffering) (by decide) hd
    rw [assign, hnone, numberWithin?_toString hlow hhigh] at hadd
    exact hadd
  | chunkSize size =>
    obtain ⟨hnone, hsize⟩ := hfits
    have hadd := addArgument_attached "chunk-size" (toString size) (by decide) (o := .chunkSize) (by decide) hd
    have hread : numberWithin? 0 0xFFFFFFFF (toString size) = some (size : Int) :=
      numberWithin?_toString (n := size) (by omega) (by omega)
    rw [assign, hnone, hread] at hadd
    exact hadd
  | lines =>
    have hadd := addArgument_flag "--lines" rfl (by decide) (f := .lines) (by decide) hd
    simp only [raise, show d.lines = false from hfits, Bool.false_eq_true, if_false] at hadd
    exact hadd
  | verbose =>
    have hadd := addArgument_short "-v" (c := 'v') rfl (by decide) (f := .verbose) (by decide) hd
    rw [raise, Nat.min_eq_left hfits] at hadd
    exact hadd
  | quiet =>
    have hadd := addArgument_short "-q" (c := 'q') rfl (by decide) (f := .quiet) (by decide) hd
    simp only [raise, show d.quiet = false from hfits, Bool.false_eq_true, if_false] at hadd
    exact hadd

theorem pending_put (d : Draft) (choice : Choice) : (choice.put d).pending = d.pending := by
  cases choice <;> rfl

/-- No option is spelled as the end of the options. -/
theorem argument_ne_end (choice : Choice) : choice.argument ≠ "--" := by
  intro heq
  have hlist : choice.argument.toList = ['-', '-'] := by rw [heq]; rfl
  cases choice with
  | output path | buffering value | chunkSize size => simp [Choice.argument, Choice.attached] at hlist
  | append | lines | verbose | quiet => simp [Choice.argument] at hlist

/-- Arguments that spell options which fit one after the other, and what they change in the end. -/
inductive Takes : Draft → List String → Draft → Prop
  | nil (d : Draft) : Takes d [] d
  | cons {d d' : Draft} {choice : Choice} {rest : List String} (hfits : choice.Fits d)
      (hrest : Takes (choice.put d) rest d') : Takes d (choice.argument :: rest) d'

theorem Takes.append (h : Takes d xs d') (h' : Takes d' ys d'') : Takes d (xs ++ ys) d'' := by
  induction h with
  | nil d => exact h'
  | cons hfits _ ih => exact .cons hfits (ih h')

theorem Takes.single (choice : Choice) (h : choice.Fits d) : Takes d [choice.argument] (choice.put d) := .cons h (.nil _)

/-- An option that fits after another one fits before it. -/
theorem fits_of_put (hy : y.Fits (x.put d)) : y.Fits d := by
  cases x <;> cases y <;> simp_all [Choice.Fits, Choice.put]
  omega

theorem fits_put (hx : x.Fits d) (hy : y.Fits (x.put d)) : x.Fits (y.put d) := by
  cases x <;> cases y <;> simp_all [Choice.Fits, Choice.put]

/-- Two options that may stand together do the same in either order. -/
theorem put_comm (hy : y.Fits (x.put d)) : y.put (x.put d) = x.put (y.put d) := by
  cases x <;> cases y <;> simp_all [Choice.Fits, Choice.put]

/-- The order of the options makes no difference. -/
theorem Takes.perm (hperm : xs.Perm ys) (h : Takes d xs d') : Takes d ys d' := by
  induction hperm generalizing d with
  | nil => exact h
  | cons x _ ih =>
    cases h with
    | cons hfits hrest => exact .cons hfits (ih hrest)
  | swap x y rest =>
    cases h with
    | cons hy hrest =>
      cases hrest with
      | cons hx hrest =>
        refine .cons (fits_of_put hx) (.cons (fits_put hy hx) ?_)
        rwa [← put_comm hx]
  | trans _ _ ih ih' => exact ih' (ih h)

/-- Arguments that spell options are read one after the other. -/
theorem Takes.addArguments (h : Takes d xs d') (hd : d.pending = .nothing) (rest : List String) :
    d'.pending = .nothing ∧ d.addArguments (xs ++ rest) = d'.addArguments rest := by
  induction h with
  | nil d => exact ⟨hd, rfl⟩
  | @cons d d' choice xs hfits _ ih =>
    obtain ⟨hpending, hread⟩ := ih ((pending_put d choice).trans hd)
    refine ⟨hpending, ?_⟩
    rw [List.cons_append, Draft.addArguments]
    simp only [argument_ne_end, decide_false, Bool.false_and, Bool.false_eq_true, if_false,
      addArgument_choice hd hfits, Except.bind]
    exact hread

/-- Behind the end of the options everything is an input. -/
theorem addInputs_eq (hd : d.pending = .nothing) (inputs : List String) :
    inputs.foldlM addInput d = .ok { d with inputs := d.inputs ++ inputs } := by
  induction inputs generalizing d with
  | nil => simp [pure, Except.pure]
  | cons input rest ih =>
    simp only [List.foldlM_cons, addInput, settle_of_nothing hd, Except.map, bind, Except.bind]
    refine (ih (d := { d with inputs := d.inputs ++ [input] }) hd).trans ?_
    simp

end Draft

namespace Settings

variable {s : Settings}

/-- The arguments that spell the options that are set. A chunk size of 0 is the default, and `sized` says whether
it is spelled all the same. -/
def options (s : Settings) (sized : Bool) : List String :=
  (s.output.map fun path => Choice.argument (.output path)).toList ++
    (if s.append then [Choice.argument .append] else []) ++
    (s.buffering.map fun value => Choice.argument (.buffering value)).toList ++
    (if sized || s.chunkSize ≠ 0 then [Choice.argument (.chunkSize s.chunkSize)] else []) ++
    (if s.lines then [Choice.argument .lines] else []) ++
    List.replicate s.verbose (Choice.argument .verbose) ++
    (if s.quiet then [Choice.argument .quiet] else [])

/-- The draft that the options come to. -/
def draft (s : Settings) (sized : Bool) : Draft where
  output := s.output
  append := s.append
  buffering := s.buffering
  chunkSize := if sized || s.chunkSize ≠ 0 then some s.chunkSize else none
  lines := s.lines
  verbose := s.verbose
  quiet := s.quiet

theorem takes_verbose {d : Draft} {n : Nat} (h : d.verbose + n ≤ countLimit) :
    d.Takes (List.replicate n (Choice.argument .verbose)) { d with verbose := d.verbose + n } := by
  induction n generalizing d with
  | zero => exact .nil d
  | succ n ih =>
    have hfits : Choice.Fits d .verbose := show d.verbose < countLimit by omega
    have hrest := ih (d := { d with verbose := d.verbose + 1 }) (show d.verbose + 1 + n ≤ countLimit by omega)
    rw [List.replicate_succ]
    refine .cons hfits ?_
    rwa [show d.verbose + (n + 1) = d.verbose + 1 + n by omega]

/-- Before its option comes every part of the draft is as at the start, so each option fits. -/
theorem takes_options (hs : s.Declared) (sized : Bool) : Draft.Takes {} (s.options sized) (s.draft sized) := by
  have houtput : Draft.Takes {} (s.output.map fun path => Choice.argument (.output path)).toList
      { output := s.output } := by
    cases hvalue : s.output with
    | none => exact .nil _
    | some path =>
      have hfits : Choice.Fits {} (.output path) := ⟨rfl, fun hempty => hs.output (hempty ▸ hvalue)⟩
      exact .single (.output path) hfits
  have happend : Draft.Takes { output := s.output } (if s.append then [Choice.argument .append] else [])
      { output := s.output, append := s.append } := by
    cases s.append with
    | false => exact .nil _
    | true => exact .single .append rfl
  have hbuffering : Draft.Takes { output := s.output, append := s.append }
      (s.buffering.map fun value => Choice.argument (.buffering value)).toList
      { output := s.output, append := s.append, buffering := s.buffering } := by
    cases hvalue : s.buffering with
    | none => exact .nil _
    | some value => exact .single (.buffering value) ⟨rfl, hs.value value hvalue⟩
  have hsize : Draft.Takes { output := s.output, append := s.append, buffering := s.buffering }
      (if sized || s.chunkSize ≠ 0 then [Choice.argument (.chunkSize s.chunkSize)] else [])
      { s.draft sized with lines := false, verbose := 0, quiet := false } := by
    unfold draft
    split
    · exact .single (.chunkSize s.chunkSize) ⟨rfl, hs.chunkSize⟩
    · exact .nil _
  have hlines : Draft.Takes { s.draft sized with lines := false, verbose := 0, quiet := false }
      (if s.lines then [Choice.argument .lines] else []) { s.draft sized with verbose := 0, quiet := false } := by
    unfold draft
    cases s.lines with
    | false => exact .nil _
    | true => exact .single .lines rfl
  have hverbose : Draft.Takes { s.draft sized with verbose := 0, quiet := false }
      (List.replicate s.verbose (Choice.argument .verbose)) { s.draft sized with quiet := false } := by
    have htakes := takes_verbose (d := { s.draft sized with verbose := 0, quiet := false }) (n := s.verbose)
      (by simpa using hs.verbose)
    simpa [draft] using htakes
  have hquiet : Draft.Takes { s.draft sized with quiet := false }
      (if s.quiet then [Choice.argument .quiet] else []) (s.draft sized) := by
    unfold draft
    cases s.quiet with
    | false => exact .nil _
    | true => exact .single .quiet rfl
  exact (((((houtput.append happend).append hbuffering).append hsize).append hlines).append hverbose).append hquiet

/-- What an output is needed for is there, so the draft and the inputs make the settings again. -/
theorem finish_draft (hs : s.Declared) (sized : Bool) :
    Draft.finish { s.draft sized with inputs := s.inputs } = .ok s := by
  have hneeded : ((s.append || s.buffering.isSome) && s.output.isNone) = false := by
    cases hvalue : s.output with
    | some path => simp
    | none =>
      have happend : s.append = false := by
        simpa [hvalue] using mt hs.append
      have hbuffering : s.buffering.isSome = false := by
        simpa [hvalue] using mt hs.buffering
      simp [happend, hbuffering]
  have hsize : (if sized || s.chunkSize ≠ 0 then some s.chunkSize else none).getD 0 = s.chunkSize := by
    split
    · rfl
    · rename_i hnot
      simp only [Bool.or_eq_true, decide_eq_true_eq, not_or, not_not] at hnot
      exact hnot.2.symm
  have hinputs : s.inputs.isEmpty = false := by simpa using hs.inputs
  rw [Draft.finish, Draft.settle_of_nothing rfl]
  simp only [bind, Except.bind, draft, hneeded, hsize, hinputs, Bool.false_eq_true, if_false]

/-- Settings that meet what is declared about them are read back from the arguments that spell them, whatever the
order of the options. -/
theorem parse_options (hs : s.Declared) (sized : Bool) {arguments : List String}
    (horder : arguments.Perm (s.options sized)) : parse (arguments ++ "--" :: s.inputs) = .ok s := by
  have htakes := (takes_options hs sized).perm horder.symm
  obtain ⟨hpending, hread⟩ := htakes.addArguments rfl ("--" :: s.inputs)
  have hend : (s.draft sized).addArguments ("--" :: s.inputs) = .ok { s.draft sized with inputs := s.inputs } := by
    rw [Draft.addArguments]
    simp only [hpending, decide_true, Bool.true_and, if_true, ne_eq, reduceCtorEq, not_false_eq_true]
    exact Draft.addInputs_eq hpending s.inputs
  rw [parse, hread, hend]
  exact finish_draft hs sized

/-- Settings at the ends of their types, with inputs that look like options. -/
def outlying : Settings where
  inputs := ["-v", "--", "a=b", "", "--output=c"]
  output := some "-o=--x="
  append := true
  buffering := some (-0x80000000)
  chunkSize := 0xFFFFFFFF
  lines := true
  verbose := 2
  quiet := true

theorem parse_outlying_options :
    outlying.Declared ∧
      ["-v", "-q", "--chunk-size=4294967295", "--buffering=-2147483648", "-v", "--append", "--output=-o=--x=",
        "--lines"].Perm (outlying.options false) ∧
      parse ["-v", "-q", "--chunk-size=4294967295", "--buffering=-2147483648", "-v", "--append", "--output=-o=--x=",
        "--lines", "--", "-v", "--", "a=b", "", "--output=c"] = .ok outlying := by
  have hdeclared : outlying.Declared :=
    ⟨by decide, by decide, by decide, by decide, fun value hvalue => by cases hvalue; decide, by decide, by decide⟩
  have horder : ["-v", "-q", "--chunk-size=4294967295", "--buffering=-2147483648", "-v", "--append",
      "--output=-o=--x=", "--lines"].Perm (outlying.options false) := by
    decide
  exact ⟨hdeclared, horder, parse_options hdeclared false horder⟩

end Settings

end BufferedFiles.Concat
