import BufferedFiles.Concat.Options

/-!
# What arguments are read as

Arguments change what they said so far in four ways only: an option gets its value, a flag is raised, an input is
added, and an option waits for its value. What these keep is kept by every argument vector, whatever the
spelling and the order of the options. So every value fits its type, and the settings that come out meet what is
declared about them.
-/
namespace BufferedFiles.Concat

/-- What comes out has the property, if anything does. -/
def Yields {α : Type} (P : α → Prop) (r : Except Stop α) : Prop := ∀ a, r = .ok a → P a

namespace Yields

variable {α β : Type} {P : α → Prop} {Q : β → Prop} {r : Except Stop α}

theorem ok {a : α} (h : P a) : Yields P (.ok a) := by
  intro b hb
  cases hb
  exact h

theorem error (stop : Stop) : Yields P (.error stop) := by
  intro b hb
  cases hb

theorem bind {f : α → Except Stop β} (h : Yields P r) (hf : ∀ a, P a → Yields Q (f a)) : Yields Q (r.bind f) := by
  cases r with
  | error stop => exact error stop
  | ok a => exact hf a (h a rfl)

theorem map {f : α → β} (h : Yields P r) (hf : ∀ a, P a → Q (f a)) : Yields Q (r.map f) := by
  cases r with
  | error stop => exact error stop
  | ok a => exact ok (hf a (h a rfl))

end Yields

namespace Draft

/-- A property of drafts that no part of an argument makes false. -/
structure Lasting (P : Draft → Prop) : Prop where
  assign : ∀ d value o, P d → Yields P (d.assign value o)
  raise : ∀ d f, P d → Yields P (d.raise f)
  input : ∀ d input, P d → P { d with inputs := d.inputs ++ [input] }
  pending : ∀ d pending, P d → P { d with pending }

namespace Lasting

variable {P : Draft → Prop} {d : Draft}

theorem settle (h : Lasting P) (hd : P d) : Yields P d.settle := by
  simp only [Draft.settle]
  split
  · exact .ok hd
  · exact .error _
  · exact h.assign _ _ _ (h.pending _ _ hd)

theorem addInput (h : Lasting P) (hd : P d) (input : String) : Yields P (d.addInput input) :=
  (h.settle hd).map fun d hd => h.input d input hd

theorem await (h : Lasting P) (hd : P d) (o : ValueOption) : Yields P (d.await o) :=
  (h.settle hd).map fun d hd => h.pending d _ hd

/-- A value that is attached to its option. -/
theorem attached (h : Lasting P) (hd : P d) (value : String) (o : ValueOption) :
    Yields P (d.settle.bind (·.assign value o)) :=
  (h.settle hd).bind fun d hd => h.assign d value o hd

theorem addLong (h : Lasting P) (hd : P d) (text : List Char) : Yields P (d.addLong text) := by
  simp only [Draft.addLong]
  split
  · exact .error _
  · split
    · exact h.attached hd _ _
    · exact h.await hd _
  · split
    · exact .error _
    · exact (h.settle hd).bind fun d hd => h.raise d _ hd

theorem addShort (h : Lasting P) (hd : P d) (text : List Char) : Yields P (d.addShort text) := by
  induction text generalizing d with
  | nil => exact .ok hd
  | cons c rest ih =>
    simp only [Draft.addShort]
    split
    · exact .error _
    · exact (h.settle hd).bind fun d hd => (h.raise d _ hd).bind fun _ => ih
    · split
      · exact h.await hd _
      · exact h.attached hd _ _
      · exact h.attached hd _ _

theorem addPlain (h : Lasting P) (hd : P d) (text : String) : Yields P (d.addPlain text) := by
  simp only [Draft.addPlain]
  split
  · exact .ok (h.pending _ _ hd)
  · exact h.addInput hd text

theorem addArgument (h : Lasting P) (hd : P d) (text : String) : Yields P (d.addArgument text) := by
  simp only [Draft.addArgument]
  split
  · exact h.addPlain hd text
  · split
    · exact h.addLong hd _
    · exact h.addShort hd _
    · exact h.addPlain hd text

/-- Inputs after the end of the options. -/
theorem addInputs (h : Lasting P) (hd : P d) (inputs : List String) : Yields P (inputs.foldlM Draft.addInput d) := by
  induction inputs generalizing d with
  | nil => exact .ok hd
  | cons input rest ih =>
    rw [List.foldlM_cons]
    exact (h.addInput hd input).bind fun _ => ih

/-- All arguments keep what every part of an argument keeps. -/
theorem addArguments (h : Lasting P) (hd : P d) (arguments : List String) : Yields P (d.addArguments arguments) := by
  induction arguments generalizing d with
  | nil => exact .ok hd
  | cons text rest ih =>
    simp only [Draft.addArguments]
    split
    · exact h.addInputs hd rest
    · exact (h.addArgument hd text).bind fun _ => ih

end Lasting

/-- Every value fits its type. -/
structure Typed (d : Draft) : Prop where
  output : d.output ≠ some ""
  buffering : ∀ value, d.buffering = some value → -0x80000000 ≤ value ∧ value ≤ 0x7FFFFFFF
  chunkSize : ∀ size, d.chunkSize = some size → size ≤ 0xFFFFFFFF
  verbose : d.verbose ≤ countLimit

end Draft

theorem numberWithin?_eq_some {low high n : Int} {s : String} (h : numberWithin? low high s = some n) :
    low ≤ n ∧ n ≤ high := by
  have hbounds := (Option.filter_eq_some_iff.1 h).2
  simpa using hbounds

namespace Draft

theorem typed_lasting : Lasting Typed where
  assign d value o hd := by
    cases o with
    | output =>
      simp only [assign]
      split
      · exact .error _
      · split
        · exact .error _
        · rename_i hvalue
          refine .ok { hd with output := fun heq => hvalue ?_ }
          rw [Option.some.inj heq]
          rfl
    | buffering =>
      simp only [assign]
      split
      · exact .error _
      · split
        · exact .error _
        · rename_i n hn
          refine .ok { hd with buffering := fun v hv => ?_ }
          cases hv
          exact numberWithin?_eq_some hn
    | chunkSize =>
      simp only [assign]
      split
      · exact .error _
      · split
        · exact .error _
        · rename_i n hn
          refine .ok { hd with chunkSize := fun size hsize => ?_ }
          cases hsize
          have hbounds := numberWithin?_eq_some hn
          omega
  raise d f hd := by
    cases f with
    | verbose => exact .ok { hd with verbose := Nat.min_le_right _ _ }
    | help => exact .error _
    | version => exact .error _
    | append | lines | quiet =>
      simp only [raise]
      split
      · exact .error _
      · exact .ok { hd with }
  input _ _ hd := { hd with }
  pending _ _ hd := { hd with }

end Draft

namespace Settings

/-- What is declared about settings that come from arguments: there are inputs, what needs an output has one, and
every value fits its type. -/
structure Declared (s : Settings) : Prop where
  inputs : s.inputs ≠ []
  append : s.append = true → s.output.isSome = true
  buffering : s.buffering.isSome = true → s.output.isSome = true
  output : s.output ≠ some ""
  value : ∀ value, s.buffering = some value → -0x80000000 ≤ value ∧ value ≤ 0x7FFFFFFF
  chunkSize : s.chunkSize ≤ 0xFFFFFFFF
  verbose : s.verbose ≤ countLimit

end Settings

/-- Where an option is given that needs an output, there is one. -/
theorem Draft.finish_declared {d : Draft} (hd : d.Typed) : Yields Settings.Declared d.finish := by
  refine (typed_lasting.settle hd).bind fun d hd => ?_
  split
  · exact .error _
  · rename_i hneeded
    have houtput : d.append = true ∨ d.buffering.isSome = true → d.output.isSome = true := by
      intro hgiven
      rw [Bool.or_eq_true_iff.2 hgiven, Bool.true_and] at hneeded
      exact Option.isSome_iff_ne_none.2 fun hnone => hneeded (Option.isNone_iff_eq_none.2 hnone)
    refine .ok ⟨?_, fun happend => houtput (.inl happend), fun hbuffering => houtput (.inr hbuffering),
      hd.output, hd.buffering, ?_, hd.verbose⟩
    · dsimp only
      split
      · exact List.cons_ne_nil _ _
      · rename_i hempty
        exact fun hnil => hempty (List.isEmpty_iff.2 hnil)
    · cases hchunk : d.chunkSize with
      | none => exact Nat.zero_le _
      | some size => exact hd.chunkSize size hchunk

namespace Settings

theorem parse_declared (arguments : List String) : Yields Declared (parse arguments) := by
  have hstart : Draft.Typed {} := ⟨by decide, by decide, by decide, by decide⟩
  exact (Draft.typed_lasting.addArguments hstart arguments).bind fun _ => Draft.finish_declared

end Settings

end BufferedFiles.Concat
