import BufferedFiles.Proofs.Concatenation

/-!
# Runs of the tool

Whatever the settings that are accepted, a run that finds its inputs and an output that takes them copies
all bytes of the inputs in their order, and reports how many there were. The size of the pieces, lines
and the buffering of the output make no difference.
-/
namespace BufferedFiles

open Concat

theorem System.Waits.gives {sys : System} {output : Nat → Prop} {k : Nat} {waiting : Bytes}
    (h : sys.Waits output k waiting) :
    (⟨ConsoleName.inputStream, sys⟩ : Connection).Gives ∧
      (⟨ConsoleName.inputStream, sys⟩ : Connection).Affords k ∧
      (⟨ConsoleName.inputStream, sys⟩ : Connection).supply = .bytes waiting ∧
      ∃ d, sys.descriptor? 0 = some d ∧ (∃ dev, sys.device? d.device = some dev) ∧ ¬ output d.device := by
  obtain ⟨d, dev, ho, hout, hsource, hsupply, hin, hreadable⟩ := h
  have hfresh : ConsoleName.inputStream.Fresh := ⟨rfl, rfl, rfl, rfl, rfl, rfl, Nat.zero_le 1⟩
  obtain ⟨hgives, hgiven, haccount⟩ := hfresh.gives rfl ho hsource nofun hin
  obtain ⟨hd, hdev⟩ := System.opened?_eq_some.1 ho
  refine ⟨hgives, fun f hf => ?_, hgiven.trans hsupply, d, hd, ⟨dev, hdev⟩, hout⟩
  rw [haccount] at hf
  obtain ⟨hc, hplace⟩ := Content.file?_eq_some hf
  have hfits := hreadable (by rw [hc]; rfl)
  rw [hc, Content.size] at hfits
  rw [hplace]
  exact hfits

theorem Connection.willing_output {sys : System} {d : Descriptor} {dev : Device} {n : Nat}
    (ho : sys.opened? 1 = some (d, dev)) (hd : d.writable = true) (hr : dev.Reliable)
    (hroom : dev.content.HasRoom (System.start d dev.content) n sys.largestOffset
      (sys.anyDescriptor d.device (·.readable)))
    (haddr : d.appending = true → dev.content.addresses d.position n = true) :
    (⟨ConsoleName.outputStream, sys⟩ : Connection).Willing n := by
  refine ⟨d, dev, ho, hd, hr, ?_, ?_⟩
  · change dev.content.HasRoom _ (0 + n) _ _
    rw [Nat.zero_add]
    exact hroom
  · change _ → dev.content.addresses _ (0 + n) = true
    rw [Nat.zero_add]
    exact haddr

namespace Concat

/-- Where the output goes: to a file at a place, with the bytes that stay in it, or to the device
behind a descriptor that is open. -/
inductive Outlet where
  | file (place : List Name) (before : Bytes)
  | standard (d : Descriptor) (dev : Device)

namespace Outlet

/-- The device `i` is the output. -/
def Is (output : Outlet) (sys : System) (i : Nat) : Prop :=
  match output with
  | .file place _ => sys.lookup place = some i
  | .standard d _ => d.device = i

/-- The output has got `bytes`, where it was to put them. -/
def Holds (output : Outlet) (sys : System) (bytes : Bytes) : Prop :=
  match output with
  | .file place before => sys.contentAt place = some (.regular (before ++ bytes))
  | .standard d dev => ∃ dev', sys.device? d.device = some dev' ∧ dev'.received = dev.received ++ bytes ∧
      ∀ data, dev.content = .regular data →
        dev'.content = .regular (PlainFile.write ⟨data, d.position⟩ d.appending bytes).contents

end Outlet

namespace Settings

/-- The mode the output is opened in. -/
def mode (s : Settings) : OpenMode := ⟨false, true, s.append, true, !s.append, false⟩

theorem parse_sinkMode (s : Settings) :
    OpenMode.parse? OpenMode.pathReach (toBytes s.sinkMode) = some s.mode := by
  unfold sinkMode mode
  cases s.append <;> decide

theorem sinkMode_plain (s : Settings) : (toBytes s.sinkMode).contains 0 = false := by
  unfold sinkMode
  cases s.append <;> decide

theorem charset?_sinkMode (s : Settings) : OpenMode.charset? (toBytes s.sinkMode) = none := by
  unfold sinkMode
  cases s.append <;> decide

theorem begins_mode (s : Settings) (data : Bytes) : s.mode.begins data = (s.mode.opens data).length := by
  unfold OpenMode.begins OpenMode.opens mode
  cases s.append <;> rfl

theorem opens_mode (s : Settings) (data : Bytes) : s.mode.opens data = if s.append then data else [] := by
  unfold OpenMode.opens mode
  cases s.append <;> rfl

/-- The settings lead to an output that never fails and takes `n` bytes. -/
inductive Reaches (s : Settings) (sys : System) (n : Nat) : Outlet → Prop
  | file {path : String} {place : List Name} {data : Bytes} :
      s.output = some path → (toBytes path).contains 0 = false → sys.Leads s.mode (toBytes path) place data →
      (if s.append then data else []).length + n ≤ sys.largestOffset →
      Reaches s sys n (.file place (if s.append then data else []))
  | standard {d : Descriptor} {dev : Device} :
      s.output = none → sys.opened? 1 = some (d, dev) → d.writable = true → dev.Reliable →
      dev.content.Within d.position sys.largestOffset →
      dev.content.HasRoom (System.start d dev.content) n sys.largestOffset
        (sys.anyDescriptor d.device (·.readable)) →
      (d.appending = true → dev.content.addresses d.position n = true) →
      Reaches s sys n (.standard d dev)

theorem accepts_of_check {s : Settings} (h : s.check = .ok ()) : Handle.Accepts s.buffering := by
  intro value hvalue
  unfold check checkBuffering at h
  rw [hvalue] at h
  cases hint : Buffering.ofInt value with
  | error e =>
    simp only [hint] at h
    split at h <;> cases h
  | ok b => exact ⟨b, Buffering.ofInt_eq_ok_iff.1 hint⟩

end Settings

namespace Job

variable {s : Settings} {content : String → Bytes} {waiting : Bytes} {inputs : List String} {o n : Nat}
  {j : Job} {t : Stream} {c : Connection}

/-- Once nothing is pending the device has all that the stream stands for. -/
theorem Serves.drained (h : j.Serves s t o content waiting [] n) (hl : (⟨t, j.system⟩ : Connection).Lays c [])
    (hp : c.stream.pending = []) :
    ∃ dev, c.system.device? o = some dev ∧
      dev.received = (⟨t, j.system⟩ : Connection).account.received ∧
      ∀ f, (⟨t, j.system⟩ : Connection).account.file = some f → dev.content = .regular f.contents := by
  obtain ⟨⟨d, dev, hon⟩, -⟩ := h.ready
  obtain ⟨e, he, heo⟩ := h.output
  obtain ⟨p, dev', ho', -⟩ := hl.through.opened hon.opened
  obtain ⟨hd, -⟩ := System.opened?_eq_some.1 hon.opened
  have hd : j.system.descriptor? t.fd = some d := hd
  rw [he] at hd
  cases hd
  have haccount := hl.account
  rw [Account.lay_nil, Connection.account_of_drained hp, Connection.standing_eq ho'] at haccount
  refine ⟨dev', heo ▸ (System.opened?_eq_some.1 ho').2, congrArg Account.received haccount, fun f hf => ?_⟩
  rw [← haccount] at hf
  exact (Content.file?_eq_some hf).1

/-- The output of a job is closed with all in it that the sink stands for. -/
theorem Serves.closes {place : List Name} {f : PlainFile} (h : j.Serves s t o content waiting [] n)
    (hnamed : j.system.lookup place = some o) (hfile : (⟨t, j.system⟩ : Connection).account.file = some f) :
    ∃ sys, j.sink.close j.system = ⟨{ j.sink with stream := none }, sys, .ok ()⟩ ∧
      sys.contentAt place = some (.regular f.contents) := by
  rcases hclose : Connection.close ⟨t, j.system⟩ with ⟨sys, result⟩
  obtain ⟨c, d, dev, hon, hthrough, hdrops, hcase⟩ := Connection.close_spec h.ready hclose
  rcases hcase with ⟨rfl, hlays, hpend⟩ | ⟨-, -, hno⟩
  · obtain ⟨dev', hdev', -, hcontent⟩ := h.drained hlays hpend
    refine ⟨sys, ?_, ?_⟩
    · simp only [Handle.close, h.sink, hclose]
      rfl
    · have hlookup : sys.lookup place = some o := by
        unfold System.lookup
        rw [hdrops.names, hthrough.system.names]
        exact hnamed
      rw [System.contentAt, hlookup, Option.bind_some, hdrops.device, hdev', Option.map_some, hcontent f hfile]
  · exact absurd (h.willing.mono (Nat.zero_le _)) hno

/-- A flush hands on all that the sink stands for. -/
theorem Serves.flushes (h : j.Serves s t o content waiting [] n) :
    ∃ c dev, j.sink.flush j.system = ⟨j.sink.holding c, c.system, .ok ()⟩ ∧ c.system.device? o = some dev ∧
      dev.received = (⟨t, j.system⟩ : Connection).account.received ∧
      ∀ f, (⟨t, j.system⟩ : Connection).account.file = some f → dev.content = .regular f.contents := by
  rcases hflush : (⟨t, j.system⟩ : Connection).flush with ⟨c, result⟩
  rcases Connection.flush_spec h.ready hflush with ⟨rfl, hlays, hpend, -⟩ | ⟨-, -, hno⟩
  · obtain ⟨dev, hdev, hreceived, hfile⟩ := h.drained hlays hpend
    have hcall := Handle.onStream_ok (h := j.sink) (c := ⟨t, j.system⟩) Connection.flush hflush
    rw [Handle.holding_self (c := ⟨t, j.system⟩) h.sink] at hcall
    exact ⟨c, dev, hcall, hdev, hreceived, hfile⟩
  · exact absurd (h.willing.mono (Nat.zero_le _)) hno

/-- A job begins with all inputs still to come. -/
theorem Serves.start {sys sys₁ : System} {output : Nat → Prop} (sink : Handle) (events : List Event)
    (hsink : sink.stream = some t) (hready : (⟨t, sys₁⟩ : Connection).Ready) (hwrites : t.writes = true)
    (hdevice : ∃ d, sys₁.descriptor? t.fd = some d ∧ d.device = o)
    (hwilling : (⟨t, sys₁⟩ : Connection).Willing ((joined content inputs waiting).length + n))
    (hspares : System.Spares (fun _ => False) (· = o) sys sys₁)
    (hout : ∀ i dev, sys.device? i = some dev → i = o → output i)
    (hfd : ∀ d, sys.descriptor? 0 = some d → 0 ≠ t.fd)
    (hfiles : ∀ input ∈ inputs, input ≠ standardMark → sys.Offers output s.asked (toBytes input) (content input))
    (hinput : standardMark ∈ inputs → sys.Waits output s.asked waiting) :
    Job.Serves s ⟨ConsoleName.initial .input, sink, sys₁, events⟩ t o content waiting inputs n := by
  refine ⟨hsink, hready, hwrites, hdevice, hwilling, fun input hin hne => ?_, fun hmark => ?_⟩
  · exact ((hfiles input hin hne).mono hout).spared hspares fun _ _ _ _ => id
  · obtain ⟨hgives, haffords, hsupply, d, hd, ⟨dev, hdev⟩, hno⟩ := (hinput hmark).gives
    have hapart : ¬ d.device = o := fun heq => hno (hout _ _ hdev heq)
    have helse : ∀ d', sys.descriptor? 0 = some d' → ¬ d'.device = o := fun d' hd' => by
      rw [hd] at hd'
      cases hd'
      exact hapart
    obtain ⟨hgives', hsupply'⟩ := hgives.spared hspares id helse
    exact ⟨_, rfl, hgives', haffords.spared hgives hspares id helse, hsupply'.trans hsupply, hfd d hd, d,
      hspares.descriptor 0 d id hd, hapart⟩

end Job

section Runs

variable {s : Settings} {content : String → Bytes} {waiting : Bytes} {sys : System} {path : String}
  {place : List Name} {data : Bytes} {n : Nat}

/-- The output is opened with what stays in it, and the next byte goes behind that. -/
theorem openSink (hb : Handle.Accepts s.buffering) (hpath : (toBytes path).contains 0 = false)
    (hleads : sys.Leads s.mode (toBytes path) place data)
    (hroom : (s.mode.opens data).length + n ≤ sys.largestOffset) :
    ∃ sys₁ t o, Handle.openPath sys (toBytes path) s.sinkMode s.buffering =
        (sys₁, .ok ⟨Text.lossy (toBytes path), s.sinkMode, some t⟩) ∧
      (⟨t, sys₁⟩ : Connection).Ready ∧ t.writes = true ∧ (⟨t, sys₁⟩ : Connection).Willing n ∧
      (⟨t, sys₁⟩ : Connection).account.file = some ⟨s.mode.opens data, (s.mode.opens data).length⟩ ∧
      sys₁.lookup place = some o ∧ (∃ d, sys₁.descriptor? t.fd = some d ∧ d.device = o) ∧
      sys.descriptor? t.fd = none ∧ System.Spares (fun _ => False) (· = o) sys sys₁ ∧
      ∀ i dev, sys.device? i = some dev → i = o → sys.lookup place = some i := by
  obtain ⟨sys₁, t, o, dev, hopen, hfresh, hmode, ho, hprovides, hfree, hothers⟩ :=
    Handle.openPath_leads hpath s.sinkMode_plain s.parse_sinkMode s.charset?_sinkMode rfl hb hleads
  have hsize := hleads.length_le
  rw [← hprovides.largest] at hsize hroom
  rw [s.begins_mode data] at ho
  obtain ⟨hready, -, haccount⟩ := hfresh.ready ho (fun hyes => hmode.appends.symm.trans hyes)
    (by rw [hprovides.content]; exact fun _ => ⟨hsize, hsize⟩)
  have hfile : (⟨t, sys₁⟩ : Connection).account.file =
      some ⟨s.mode.opens data, (s.mode.opens data).length⟩ := by
    rw [haccount]
    simp only [Account.ofPort, hprovides.content, Content.file?, Nat.sub_zero]
  refine ⟨sys₁, t, o, hopen, hready, hmode.writes, ?_, hfile, hprovides.named,
    ⟨_, (System.opened?_eq_some.1 ho).1, rfl⟩, hfree,
    hprovides.spares ho rfl hfree hothers fun _ => rfl, ?_⟩
  · refine (Connection.willing_file ho hfile).2 ⟨rfl, hprovides.reliable, ?_, fun _ => ?_⟩
    · have hstart : PlainFile.start ⟨s.mode.opens data, (s.mode.opens data).length⟩ s.mode.appends =
          (s.mode.opens data).length := ite_self _
      rw [hstart]
      exact hroom
    · have hpend : (⟨t, sys₁⟩ : Connection).stream.pending = [] := hfresh.pending
      rw [Connection.extent_eq ho (by rw [hprovides.content]; rfl), hprovides.content, hpend]
      simp only [Content.size, Nat.max_self, List.length_nil, Nat.add_zero]
      exact Nat.le_trans hroom sys₁.addressable
  · rintro i dev' hdev' rfl
    refine hprovides.origin.resolve_right fun hnone => ?_
    rw [hnone] at hdev'
    cases hdev'

/-- A run to a file leaves in it what was to stay there and all inputs. -/
private theorem runTo_copies (hb : Handle.Accepts s.buffering)
    (hpath : (toBytes path).contains 0 = false) (hleads : sys.Leads s.mode (toBytes path) place data)
    (hroom : (s.mode.opens data).length + (joined content s.inputs waiting).length ≤ sys.largestOffset)
    (hfiles : ∀ input ∈ s.inputs, input ≠ standardMark →
      sys.Offers (sys.lookup place = some ·) s.asked (toBytes input) (content input))
    (hinput : standardMark ∈ s.inputs → sys.Waits (sys.lookup place = some ·) s.asked waiting) :
    ∃ console ending, runTo s path (Console.prepare {}) sys = (console, ending) ∧
      ending.result = .ok (joined content s.inputs waiting).length ∧
      ending.system.contentAt place =
        some (.regular (s.mode.opens data ++ joined content s.inputs waiting)) := by
  obtain ⟨sys₁, t, o, hopen, hready, hwrites, hwilling, hfile, hnamed, hdevice, hfree, hspares, hout⟩ :=
    openSink hb hpath hleads hroom
  have hstart := Job.Serves.start (n := 0) ⟨Text.lossy (toBytes path), s.sinkMode, some t⟩
    (openEvents ⟨Text.lossy (toBytes path), s.sinkMode, some t⟩).reverse rfl hready hwrites hdevice hwilling
    hspares hout (fun d hd heq => by rw [← heq, hd] at hfree; cases hfree) hfiles hinput
  obtain ⟨j, t', waiting', htake, hpasses, h⟩ := Job.takeInputs_serves (s := s) hstart 0
  have htake : Job.takeInputs s ⟨(Console.prepare {}).get .input, ⟨_, _, some t⟩, sys₁, _⟩ s.inputs 0 = _ := htake
  have hfile' : (⟨t', j.system⟩ : Connection).account.file = some (PlainFile.write ⟨s.mode.opens data,
      (s.mode.opens data).length⟩ (⟨t, sys₁⟩ : Connection).account.appending (joined content s.inputs waiting)) := by
    rw [hpasses.account, Account.lay, hfile, Option.map_some]
  obtain ⟨sys₂, hsink, hcontent⟩ := h.closes (hpasses.grows.lookup hnamed) hfile'
  rw [PlainFile.contents_write_length] at hcontent
  obtain ⟨console, events, hrun⟩ : ∃ console events, runTo s path (Console.prepare {}) sys =
      (console, ⟨.ok (0 + (joined content s.inputs waiting).length), events, sys₂⟩) := by
    simp only [runTo, hopen, htake, hsink]
    exact ⟨_, _, rfl⟩
  exact ⟨console, _, hrun, congrArg Except.ok (Nat.zero_add _), hcontent⟩

private theorem runOut_copies {d : Descriptor} {dev : Device}
    (ho : sys.opened? 1 = some (d, dev)) (hd : d.writable = true) (hr : dev.Reliable)
    (hin : dev.content.Within d.position sys.largestOffset)
    (hroom : dev.content.HasRoom (System.start d dev.content) (joined content s.inputs waiting).length
      sys.largestOffset (sys.anyDescriptor d.device (·.readable)))
    (haddr : d.appending = true →
      dev.content.addresses d.position (joined content s.inputs waiting).length = true)
    (hfiles : ∀ input ∈ s.inputs, input ≠ standardMark →
      sys.Offers (d.device = ·) s.asked (toBytes input) (content input))
    (hinput : standardMark ∈ s.inputs → sys.Waits (d.device = ·) s.asked waiting) :
    ∃ console ending, runOut s (Console.prepare {}) sys = (console, ending) ∧
      ending.result = .ok (joined content s.inputs waiting).length ∧
      (Outlet.standard d dev).Holds ending.system (joined content s.inputs waiting) := by
  have hfresh : ConsoleName.outputStream.Fresh := ⟨rfl, rfl, rfl, rfl, rfl, rfl, Nat.zero_le 1⟩
  obtain ⟨hready, -, haccount⟩ := hfresh.ready ho nofun hin
  have hwilling := Connection.willing_output ho hd hr hroom haddr
  have hstart := Job.Serves.start (n := 0) (ConsoleName.initial .output) [] rfl hready rfl
    ⟨d, (System.opened?_eq_some.1 ho).1, rfl⟩ hwilling (.refl _ _ sys) (fun i _ _ heq => heq.symm)
    (fun _ _ => nofun) hfiles hinput
  obtain ⟨j, t, waiting', htake, hpasses, h⟩ := Job.takeInputs_serves (s := s) hstart 0
  have htake : Job.takeInputs s ⟨(Console.prepare {}).get .input, (Console.prepare {}).get .output, sys, []⟩
    s.inputs 0 = _ := htake
  obtain ⟨c, dev', hsink, hdev', hreceived, hfile⟩ := h.flushes
  obtain ⟨console, events, hrun⟩ : ∃ console events, runOut s (Console.prepare {}) sys =
      (console, ⟨.ok (0 + (joined content s.inputs waiting).length), events, c.system⟩) := by
    simp only [runOut, htake, hsink]
    exact ⟨_, _, rfl⟩
  refine ⟨console, _, hrun, congrArg Except.ok (Nat.zero_add _), dev', hdev', ?_, fun data hc => ?_⟩
  · rw [hreceived, hpasses.account, haccount]
    rfl
  · refine hfile _ ?_
    rw [hpasses.account, haccount]
    simp only [Account.lay, Account.ofPort, hc, Content.file?, Option.map_some, Nat.sub_zero]

/-- A run copies exactly: every input in its order, the first mark for all of standard input and marks
after it for nothing, behind what stays in the output, and nothing else. Its count is the number of bytes,
and the tool ends well. -/
theorem runChecked_copies {output : Outlet} (hcheck : s.check = .ok ())
    (hreach : s.Reaches sys (joined content s.inputs waiting).length output)
    (hfiles : ∀ input ∈ s.inputs, input ≠ standardMark →
      sys.Offers (output.Is sys) s.asked (toBytes input) (content input))
    (hinput : standardMark ∈ s.inputs → sys.Waits (output.Is sys) s.asked waiting) :
    ∃ console ending, runChecked s (Console.prepare {}) sys = (console, ending) ∧
      ending.result = .ok (joined content s.inputs waiting).length ∧
      output.Holds ending.system (joined content s.inputs waiting) ∧ (run s sys).exitCode = 0 := by
  have hexit : ∀ {console ending n}, runChecked s (Console.prepare {}) sys = (console, ending) →
      ending.result = .ok n → (run s sys).exitCode = 0 := by
    intro console ending n hrun hresult
    simp only [run, hcheck, hrun, Ending.exitCode, hresult]
  cases hreach with
  | @file path place data hout hpath hleads hroom =>
    rw [← s.opens_mode data] at hroom ⊢
    obtain ⟨console, ending, hrun, hresult, hcontent⟩ :=
      runTo_copies (Settings.accepts_of_check hcheck) hpath hleads hroom hfiles hinput
    have hrun : runChecked s (Console.prepare {}) sys = (console, ending) := by
      simp only [runChecked, hout, hrun]
    exact ⟨console, ending, hrun, hresult, hcontent, hexit hrun hresult⟩
  | standard hout ho hd hr hin hroom haddr =>
    obtain ⟨console, ending, hrun, hresult, hholds⟩ := runOut_copies ho hd hr hin hroom haddr hfiles hinput
    have hrun : runChecked s (Console.prepare {}) sys = (console, ending) := by
      simp only [runChecked, hout, hrun]
    exact ⟨console, ending, hrun, hresult, hholds, hexit hrun hresult⟩

/-- A file, standard input and standard input again are appended to a file, a byte at a time. -/
theorem run_appends_file_and_input :
    ∃ console ending,
      runChecked { inputs := ["a", "-", "-"], output := some "o", append := true, buffering := some 1, chunkSize := 1 }
        (Console.prepare {})
        (((System.withConsole (.regular [120, 10])).addFile (toBytes "a") [0, 255]).addFile (toBytes "o") [97]) =
          (console, ending) ∧
      ending.result = .ok 4 ∧
      ending.system.contentAt [toBytes "home", toBytes "o"] = some (.regular [97, 0, 255, 120, 10]) := by
  generalize hsys : ((System.withConsole (.regular [120, 10])).addFile (toBytes "a") [0, 255]).addFile
    (toBytes "o") [97] = sys
  generalize hs : (⟨["a", "-", "-"], some "o", true, some 1, 1, false, 0, false⟩ : Settings) = s
  have hreach : s.Reaches sys 4 (.file [toBytes "home", toBytes "o"] [97]) := by
    subst hs hsys
    exact @Settings.Reaches.file _ _ _ "o" _ [97] rfl rfl
      (@System.Leads.there _ _ _ _ 10 { content := .regular [97] } _ rfl rfl rfl rfl nofun (by decide)) (by decide)
  have hfile : sys.Offers ((Outlet.file [toBytes "home", toBytes "o"] [97]).Is sys) s.asked (toBytes "a") [0, 255] := by
    subst hsys hs
    refine ⟨rfl, ⟨[toBytes "home", toBytes "a"], 9, { content := .regular [0, 255] }, rfl, rfl, ?_, rfl, rfl, nofun,
      by decide⟩, by decide⟩
    exact fun heq => absurd (Option.some.inj heq) (by decide)
  have hwaits : sys.Waits ((Outlet.file [toBytes "home", toBytes "o"] [97]).Is sys) s.asked [120, 10] := by
    subst hsys hs
    refine ⟨⟨6, true, false, false, 0⟩, { content := .regular [120, 10] }, rfl, ?_, ⟨rfl, nofun, nofun, nofun⟩, rfl,
      fun _ => ⟨by decide, by decide⟩, fun _ => by decide⟩
    exact fun heq => absurd (Option.some.inj heq) (by decide)
  obtain ⟨console, ending, hrun, hresult, hholds, -⟩ :=
    @runChecked_copies s (fun _ => [0, 255]) [120, 10] sys (.file [toBytes "home", toBytes "o"] [97]) (by subst hs; rfl)
      (by subst hs; exact hreach) (fun input hin hne => by
        subst hs
        rcases List.mem_cons.1 hin with rfl | hmark
        · exact hfile
        · exact absurd (by simpa [standardMark] using hmark) hne) (fun _ => hwaits)
  exact ⟨console, ending, hrun, by subst hs; exact hresult, by subst hs; exact hholds⟩

end Runs

end Concat

end BufferedFiles
