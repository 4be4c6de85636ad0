import BufferedFiles.Proofs.AppendingRuns
import BufferedFiles.Proofs.FileRuns
import BufferedFiles.Proofs.OutputOrder

/-!
# What output is visible when

A stream that only gathers output behind the end of a file keeps the device at that end, so that the file
has at any time what it began with and then the bytes that were handed on. The discipline says what may still
be pending after a call: nothing, no line end, or anything. It never says what the file has in the end.
-/
namespace BufferedFiles

namespace System

variable {sys sys' : System} {fd : Nat} {base bytes : Bytes}

/-- The descriptor is on a file that begins with `base`, and the next write comes behind all it has. -/
def AtEnd (sys : System) (base : Bytes) (fd : Nat) : Prop :=
  ∃ d dev data, sys.opened? fd = some (d, dev) ∧ dev.content = .regular (base ++ data) ∧
    (d.appending = true ∨ d.position = (base ++ data).length)

/-- A write at the end leaves the descriptor at the end, whether or not it is carried out. -/
theorem AtEnd.write (h : sys.AtEnd base fd) (bytes : Bytes) : (sys.write fd bytes).1.AtEnd base fd := by
  obtain ⟨d, dev, data, ho, hc, hend⟩ := h
  rcases hw : sys.write fd bytes with ⟨sys', e | n⟩
  · obtain ⟨-, dev', ho', hc', -⟩ := write_error ho hw
    exact ⟨d, dev', data, ho', hc'.trans hc, hend⟩
  · obtain ⟨-, hle, -, -, ho'⟩ := write_ok ho hw
    have hstart : start d dev.content = (base ++ data).length := by
      rw [start, hc]
      rcases hend with happ | hpos
      · exact if_pos happ
      · rw [hpos]
        exact ite_self _
    refine ⟨_, _, data ++ bytes.take n, ho', ?_, .inr ?_⟩
    · show dev.content.laid _ _ = _
      rw [hstart, hc, Content.laid, overwrite_length, List.append_assoc]
    · show start d dev.content + n = _
      have hlen : (bytes.take n).length = n := by rw [List.length_take, Nat.min_eq_left hle]
      rw [hstart, ← List.append_assoc]
      exact (List.length_append.trans (congrArg _ hlen)).symm

theorem AtEnd.writeAll (h : sys.AtEnd base fd) (fuel : Nat) (bytes : Bytes) :
    (writeAll fd fuel sys bytes).1.AtEnd base fd := by
  induction fuel generalizing sys bytes with
  | zero => exact h
  | succ fuel ih =>
    have hwrite := h.write bytes
    simp only [System.writeAll]
    split
    · exact h
    · split <;> rename_i heq <;> rw [heq] at hwrite
      · exact hwrite
      · exact ih hwrite _

end System

/-- What is pending after a call, by the discipline: no line end, or nothing at all. -/
structure Stream.Tidy (s : Stream) : Prop where
  line : s.discipline = .line → newline ∉ s.pending
  unbuffered : s.discipline = .unbuffered → s.pending = []

theorem Stream.Tidy.of_nothing {s : Stream} (h : s.pending = []) : s.Tidy :=
  ⟨fun _ => h ▸ List.not_mem_nil, fun _ => h⟩

theorem Stream.Tidy.of_full {s : Stream} (h : s.discipline = .full) : s.Tidy :=
  ⟨fun hno => Discipline.noConfusion (h.symm.trans hno), fun hno => Discipline.noConfusion (h.symm.trans hno)⟩

namespace Connection

variable {c c' : Connection} {base bytes : Bytes}

/-- The stream gathers output behind the end of a file that begins with `base`, and read nothing of it. By
lines or unbuffered it puts byte after byte into its buffer, and none at once. -/
structure Extends (base : Bytes) (c : Connection) : Prop where
  window : c.stream.window = []
  cursor : c.stream.cursor = 0
  limit : c.stream.writing = true → c.stream.discipline ≠ .full → c.stream.limit = 0
  file : c.system.AtEnd base c.stream.fd

theorem extends_allocate (h : c.Extends base) : c.allocate.Extends base := by
  obtain ⟨d, dev, -, ho, -⟩ := id h.file
  obtain ⟨k, -, -, hallocate⟩ := allocate_spec ho
  rw [hallocate]
  exact ⟨h.window, h.cursor, h.limit, h.file⟩

theorem align_extends (h : c.Extends base) :
    ∃ offset, c.align = (⟨{ c.stream with offset }, c.system⟩, true) := by
  unfold align
  split
  · exact ⟨none, rfl⟩
  · rw [if_pos (by rw [h.window, h.cursor]; rfl)]
    exact ⟨c.stream.offset, rfl⟩

/-- A stream behind the end of a file is left with nothing pending by what is sent. -/
theorem extends_send (h : c.Extends base) (bytes : Bytes) :
    (c.send bytes).1.Extends base ∧ (c.send bytes).1.stream.pending = [] := by
  obtain ⟨offset, halign⟩ := align_extends h
  rw [send, halign]
  exact ⟨⟨rfl, rfl, fun _ hfull => if_neg hfull, h.file.writeAll _ _⟩, rfl⟩

theorem extends_drain (h : c.Extends base) : c.drain.1.Extends base ∧ c.drain.1.stream.pending = [] := by
  unfold drain
  split
  · rename_i hnil
    exact ⟨h, List.isEmpty_iff.1 hnil⟩
  · exact extends_send h _

theorem extends_turned (h : c.Extends base) : (c.update Stream.turned).Extends base := by
  have hcursor : c.stream.turned.cursor = 0 ∧ c.stream.turned.window = [] := by
    unfold Stream.turned
    split
    · exact ⟨rfl, rfl⟩
    · exact ⟨h.cursor, h.window⟩
  have hfd : c.stream.turned.fd = c.stream.fd := (through_turned c).stream.fd
  refine ⟨hcursor.2, hcursor.1, fun _ hfull => ?_, ?_⟩
  · have hfull : c.stream.turned.discipline ≠ .full := hfull
    have hfull : c.stream.discipline ≠ .full := (through_turned c).stream.discipline ▸ hfull
    show c.stream.turned.limit = 0
    unfold Stream.turned
    split
    · exact if_neg hfull
    · exact (if_neg hfull).trans h.cursor
  · show c.system.AtEnd base c.stream.turned.fd
    rw [hfd]
    exact h.file

theorem extends_makeRoom (h : c.Extends base) (hw : c.stream.writes = true) :
    c.makeRoom.1.Extends base ∧ c.makeRoom.1.stream.pending = [] := by
  unfold makeRoom
  rw [if_neg (by rw [hw]; exact Bool.false_ne_true)]
  refine extends_drain ?_
  split
  · exact extends_allocate h
  · exact extends_turned (extends_allocate h)

theorem extends_gathered (h : c.Extends base) (bytes : Bytes) :
    (c.update fun s => { s with pending := s.pending ++ bytes }).Extends base :=
  ⟨h.window, h.cursor, h.limit, h.file⟩

theorem extends_put (h : c.Extends base) (ht : c.stream.Tidy) (b : UInt8) :
    (c.put b).1.Extends base ∧ (c.put b).1.stream.Tidy := by
  have hfirst : (if c.stream.filled = c.stream.capacity then c.drain else (c, true)).1.Extends base ∧
      (if c.stream.filled = c.stream.capacity then c.drain else (c, true)).1.stream.Tidy := by
    split
    · obtain ⟨hdrain, hnone⟩ := extends_drain h
      exact ⟨hdrain, .of_nothing hnone⟩
    · exact ⟨h, ht⟩
  unfold put
  generalize (if c.stream.filled = c.stream.capacity then c.drain else (c, true)) = r at hfirst
  obtain ⟨c₁, _ | _⟩ := r
  · exact hfirst
  obtain ⟨h₁, ht₁⟩ := hfirst
  have hput := extends_gathered h₁ [b]
  dsimp only
  split
  · obtain ⟨hdrain, hnone⟩ := extends_drain hput
    exact ⟨hdrain, .of_nothing hnone⟩
  · rename_i hkeeps
    simp only [Bool.or_eq_true, Bool.and_eq_true, decide_eq_true_eq, not_or, not_and] at hkeeps
    refine ⟨hput, fun hline => ?_, fun hno => absurd hno hkeeps.1⟩
    show newline ∉ c₁.stream.pending ++ [b]
    rw [List.mem_append, List.mem_singleton]
    exact not_or.2 ⟨ht₁.line hline, fun heq => hkeeps.2 hline heq.symm⟩

theorem extends_putAll (h : c.Extends base) (ht : c.stream.Tidy) (bytes : Bytes) :
    (c.putAll bytes).1.Extends base ∧ (c.putAll bytes).1.stream.Tidy := by
  induction bytes generalizing c with
  | nil => exact ⟨h, ht⟩
  | cons b rest ih =>
    have hput := extends_put h ht b
    simp only [putAll]
    split <;> rename_i heq <;> rw [heq] at hput
    · exact hput
    · exact ih hput.1 hput.2

theorem extends_gather (h : c.Extends base) (ht : c.stream.Tidy) (hw : c.stream.writing = true)
    (bytes : Bytes) : (c.gather bytes).1.Extends base ∧ (c.gather bytes).1.stream.Tidy := by
  refine extends_putAll (extends_gathered h _) ?_ _
  by_cases hfull : c.stream.discipline = .full
  · exact .of_full hfull
  · -- There is no room to gather at once.
    have hnone : bytes.take (min (c.stream.limit - c.stream.filled) bytes.length) = [] := by
      rw [h.limit hw hfull, Nat.zero_sub, Nat.zero_min, List.take_zero]
    simp only [update, hnone, List.append_nil]
    exact ht

theorem extends_passOver (h : c.Extends base) (hnone : c.stream.pending = []) (hw : c.stream.writing = true)
    (bytes : Bytes) : (c.passOver bytes).1.Extends base ∧ (c.passOver bytes).1.stream.Tidy := by
  unfold passOver
  dsimp only
  split
  · exact extends_gather h (.of_nothing hnone) hw bytes
  · obtain ⟨hsend, hsent⟩ := extends_send h (bytes.take (c.stream.direct bytes.length))
    split
    · exact ⟨hsend, .of_nothing hsent⟩
    · exact extends_gather hsend (.of_nothing hsent) ((send_writing c _).trans hw) _

/-- What goes into the buffer at once and is not handed on has no line end, and is nothing where the stream is
unbuffered. -/
theorem tidy_of_room (h : c.Extends base) (ht : c.stream.Tidy) (hall : bytes.length ≤ (c.stream.room bytes).1)
    (hkeeps : (c.stream.room bytes).2 = false) :
    (c.update fun s => { s with pending := s.pending ++ bytes }).stream.Tidy := by
  unfold Stream.room at hall hkeeps
  split at hall
  · have hnil : bytes = [] := List.eq_nil_of_length_eq_zero (Nat.le_zero.1 hall)
    simp only [update, hnil, List.append_nil]
    exact ht
  rename_i hw
  rw [if_neg hw] at hkeeps
  have hw : c.stream.writing = true := by simpa using hw
  refine ⟨fun hline => ?_, fun hunbuffered => ?_⟩
  · have hline : c.stream.discipline = .line := hline
    simp only [if_pos hline] at hall hkeeps
    split at hkeeps
    · cases hkeeps
    rename_i hno
    rw [if_neg hno] at hall
    simp only [Bool.and_eq_true, decide_eq_true_eq, not_and, List.contains_iff_mem] at hno
    show newline ∉ c.stream.pending ++ bytes
    rw [List.mem_append]
    exact not_or.2 ⟨ht.line hline, hno hall⟩
  · have hunbuffered : c.stream.discipline = .unbuffered := hunbuffered
    have hline : c.stream.discipline ≠ .line := fun hno => Discipline.noConfusion (hunbuffered.symm.trans hno)
    have hfull : c.stream.discipline ≠ .full := fun hno => Discipline.noConfusion (hunbuffered.symm.trans hno)
    rw [if_neg hline, h.limit hw hfull, Nat.zero_sub] at hall
    show c.stream.pending ++ bytes = []
    rw [ht.unbuffered hunbuffered, List.eq_nil_of_length_eq_zero (Nat.le_zero.1 hall)]
    rfl

/-- Bytes that are taken for output leave pending what the discipline allows. -/
theorem extends_accept (h : c.Extends base) (ht : c.stream.Tidy) (hw : c.stream.writes = true) (bytes : Bytes) :
    (c.accept bytes).1.Extends base ∧ (c.accept bytes).1.stream.Tidy := by
  have htidy : bytes.length ≤ (c.stream.room bytes).1 → (c.stream.room bytes).2 = false →
      (c.update fun s => { s with pending := s.pending ++ bytes }).stream.Tidy := tidy_of_room h ht
  unfold accept
  generalize c.stream.room bytes = r at htidy
  obtain ⟨free, handOn⟩ := r
  dsimp only at htidy ⊢
  have hgathered := extends_gathered h (bytes.take (min free bytes.length))
  split
  · rename_i hall
    simp only [Bool.and_eq_true, decide_eq_true_eq, Bool.not_eq_true'] at hall
    refine ⟨hgathered, ?_⟩
    rw [hall.1, List.take_length]
    exact htidy (by omega) hall.2
  · have hroom := extends_makeRoom hgathered hw
    obtain ⟨-, hwriting⟩ :=
      hands_makeRoom (c.update fun s => { s with pending := s.pending ++ bytes.take (min free bytes.length) })
    split <;> rename_i heq <;> rw [heq] at hroom hwriting
    · exact ⟨hroom.1, .of_nothing hroom.2⟩
    · exact extends_passOver hroom.1 hroom.2 (hwriting rfl).2 _

theorem extends_write (h : c.Extends base) (ht : c.stream.Tidy) (hw : c.stream.writes = true) (bytes : Bytes) :
    (c.write bytes).1.Extends base ∧ (c.write bytes).1.stream.Tidy := by
  have haccept := extends_accept h ht hw bytes
  unfold write
  split
  · exact ⟨h, ht⟩
  dsimp only
  split
  · exact ⟨⟨haccept.1.window, haccept.1.cursor, haccept.1.limit, haccept.1.file⟩, haccept.2.line,
      haccept.2.unbuffered⟩
  · exact haccept

theorem extends_sync (h : c.Extends base) : c.sync.1.Extends base ∧ c.sync.1.stream.pending = [] := by
  have hdrain := extends_drain h
  unfold sync
  split <;> rename_i c₁ heq <;> rw [heq] at hdrain
  · exact hdrain
  · obtain ⟨h₁, hnone⟩ := hdrain
    have hahead : c₁.stream.ahead.isEmpty = true := by
      rw [Stream.ahead, h₁.window, List.drop_nil, ite_self]
      rfl
    rw [if_pos hahead]
    exact ⟨⟨h₁.window, h₁.cursor, h₁.limit, h₁.file⟩, hnone⟩

theorem extends_flush (h : c.Extends base) : c.flush.1.Extends base ∧ c.flush.1.stream.pending = [] := by
  have hsync := extends_sync h
  unfold flush
  split <;> rename_i heq <;> rw [heq] at hsync
  · exact hsync
  · exact ⟨⟨hsync.1.window, hsync.1.cursor, hsync.1.limit, hsync.1.file⟩, hsync.2⟩

end Connection

/-- The calls for output that do not move the stream. -/
def Call.isWriteOrFlush : Call → Bool
  | .write _ | .flush => true
  | _ => false

namespace PlainFile

variable {f : PlainFile} {limit : Nat} {appending : Bool} {mode : OpenMode} {bytes : Bytes} {calls : List Call}

/-- The next write comes behind all the file has. -/
def AtEnd (f : PlainFile) (appending : Bool) : Prop := appending = true ∨ f.position = f.contents.length

theorem AtEnd.start (h : f.AtEnd appending) : f.start appending = f.contents.length := by
  rcases h with rfl | hpos
  · rfl
  · rw [PlainFile.start, hpos]
    exact ite_self _

theorem AtEnd.write (h : f.AtEnd appending) (bytes : Bytes) :
    (f.write appending bytes).contents = f.contents ++ bytes ∧ (f.write appending bytes).AtEnd appending := by
  by_cases hb : bytes = []
  · rw [hb, write_nil, List.append_nil]
    exact ⟨rfl, h⟩
  · rw [write_of_ne_nil f appending hb, h.start, overwrite_length]
    exact ⟨rfl, .inr List.length_append.symm⟩

/-- A run of output puts all it gives behind the file, and is accepted in full. -/
theorem AtEnd.callAll (h : f.AtEnd appending) (hcalls : ∀ call ∈ calls, call.isWriteOrFlush = true) :
    (f.callAll limit appending calls).1.contents = f.contents ++ calls.flatMap Call.offered ∧
      (f.callAll limit appending calls).2 = calls.map Call.granted := by
  induction calls generalizing f with
  | nil => exact ⟨(List.append_nil _).symm, rfl⟩
  | cons call rest ih =>
    have hfirst := hcalls call List.mem_cons_self
    have hrest := fun call hcall => hcalls call (List.mem_cons_of_mem _ hcall)
    cases call with
    | write bytes =>
      obtain ⟨hcontents, hend⟩ := h.write bytes
      obtain ⟨hfile, hreplies⟩ := ih hend hrest
      refine ⟨hfile.trans ?_, congrArg (_ :: ·) hreplies⟩
      rw [hcontents, List.append_assoc]
      rfl
    | flush =>
      obtain ⟨hfile, hreplies⟩ := ih h hrest
      exact ⟨hfile, congrArg (_ :: ·) hreplies⟩
    | _ => cases hfirst

theorem AtEnd.position_write (h : f.AtEnd appending) (hplace : f.position ≤ f.contents.length) (bytes : Bytes) :
    (f.write appending bytes).position ≤ (f.write appending bytes).contents.length := by
  by_cases hb : bytes = []
  · rw [hb, write_nil]
    exact hplace
  · rw [write_of_ne_nil f appending hb, h.start, overwrite_length]
    exact Nat.le_of_eq List.length_append.symm

/-- A run of output is admitted as long as there is room for what it gives. -/
theorem AtEnd.admitsAll {output : Option Nat} (h : f.AtEnd mode.appends) (hwrites : mode.writes = true)
    (hplace : f.position ≤ f.contents.length) (houtput : output.getD f.position ≤ f.contents.length)
    (hcalls : ∀ call ∈ calls, call.isWriteOrFlush = true) (hlimit : limit ≤ largestPosition)
    (hroom : f.contents.length + (calls.flatMap Call.offered).length ≤ limit) :
    f.AdmitsAll limit mode output calls := by
  induction calls generalizing f output with
  | nil => trivial
  | cons call rest ih =>
    have hfirst := hcalls call List.mem_cons_self
    have hrest := fun call hcall => hcalls call (List.mem_cons_of_mem _ hcall)
    rw [List.flatMap_cons, List.length_append] at hroom
    cases call with
    | write bytes =>
      obtain ⟨hcontents, hend⟩ := h.write bytes
      have hlength : (f.write mode.appends bytes).contents.length = f.contents.length + bytes.length := by
        rw [hcontents, List.length_append]
      have hroom : f.contents.length + (bytes.length + (rest.flatMap Call.offered).length) ≤ limit := hroom
      refine ⟨⟨hwrites, by rw [h.start]; omega, fun _ => by omega⟩,
        ih hend (h.position_write hplace bytes) ?_ hrest ?_⟩
      · show ((Call.write bytes).leavesOutput f.position output).getD (f.write mode.appends bytes).position ≤
          (f.write mode.appends bytes).contents.length
        by_cases hb : bytes = []
        · subst hb
          rw [write_nil]
          exact houtput
        · rw [hlength, Call.leavesOutput, if_neg (by simpa using hb), Option.getD_some]
          omega
      · show (f.write mode.appends bytes).contents.length + _ ≤ _
        omega
    | flush =>
      have hroom : f.contents.length + (0 + (rest.flatMap Call.offered).length) ≤ limit := hroom
      refine ⟨trivial, ih h hplace hplace hrest ?_⟩
      show f.contents.length + _ ≤ _
      omega
    | _ => cases hfirst

end PlainFile

namespace Connection

variable {c c' : Connection} {base : Bytes} {calls : List Call}

theorem extends_perform (h : c.Extends base) (ht : c.stream.Tidy) (hw : c.stream.writes = true) {call : Call}
    (hcall : call.isWriteOrFlush = true) : (c.perform call).1.Extends base ∧ (c.perform call).1.stream.Tidy ∧
      (c.perform call).1.stream.writes = true ∧ (call = .flush → (c.perform call).1.stream.pending = []) := by
  cases call with
  | write bytes =>
    obtain ⟨hextends, htidy⟩ := extends_write h ht hw bytes
    exact ⟨hextends, htidy, (through_write c bytes).stream.writes.trans hw, nofun⟩
  | flush =>
    obtain ⟨hextends, hnone⟩ := extends_flush h
    exact ⟨hextends, .of_nothing hnone, (through_flush c).stream.writes.trans hw, fun _ => hnone⟩
  | _ => cases hcall

/-- A run of output leaves the stream behind the end of its file, with pending what its discipline allows,
and with nothing pending after a flush. -/
theorem extends_performAll (h : c.Extends base) (ht : c.stream.Tidy) (hw : c.stream.writes = true)
    (hcalls : ∀ call ∈ calls, call.isWriteOrFlush = true) :
    (c.performAll calls).1.Extends base ∧ (c.performAll calls).1.stream.Tidy ∧
      (calls.getLast? = some .flush → (c.performAll calls).1.stream.pending = []) := by
  induction calls generalizing c with
  | nil => exact ⟨h, ht, nofun⟩
  | cons call rest ih =>
    obtain ⟨hextends, htidy, hwrites, hnone⟩ := extends_perform h ht hw (hcalls call List.mem_cons_self)
    obtain ⟨hend, htidy', hlast⟩ :=
      ih hextends htidy hwrites fun call hcall => hcalls call (List.mem_cons_of_mem _ hcall)
    refine ⟨hend, htidy', fun hflush => ?_⟩
    cases rest with
    | nil =>
      rw [List.getLast?_singleton] at hflush
      exact hnone (Option.some.inj hflush)
    | cons next rest =>
      rw [List.getLast?_cons_cons] at hflush
      exact hlast hflush

/-- The file has what it began with and a prefix of the output; what is pending comes behind. The discipline
says what that may be. -/
theorem Extends.visible {f : PlainFile} {log : Bytes} (h : c.Extends base) (ht : c.stream.Tidy)
    (hf : c.account.file = some f) (hlog : f.contents = base ++ log) :
    ∃ d dev visible, c.system.opened? c.stream.fd = some (d, dev) ∧ dev.content = .regular (base ++ visible) ∧
      visible <+: log ∧ (c.stream.pending = [] → visible = log) ∧
      (c.stream.discipline = .unbuffered → visible = log) ∧
      (c.stream.discipline = .line → newline ∉ log.drop visible.length) := by
  obtain ⟨d, dev, visible, ho, hc, hend⟩ := h.file
  have hfile := account_file ho hc
  rw [hf, left_of_empty h.window] at hfile
  have hatEnd : PlainFile.AtEnd ⟨base ++ visible, d.position⟩ d.appending := hend
  have hbytes := (hatEnd.write c.stream.pending).1
  have hsplit : log = visible ++ c.stream.pending := by
    rw [← List.append_cancel_left_eq base, ← hlog, Option.some.inj hfile, ← List.append_assoc]
    exact hbytes
  have hall : c.stream.pending = [] → visible = log := fun hnone => by rw [hsplit, hnone, List.append_nil]
  refine ⟨d, dev, visible, ho, hc, ⟨_, hsplit.symm⟩, hall, fun hno => hall (ht.unbuffered hno), fun hline => ?_⟩
  rw [hsplit, List.drop_left]
  exact ht.line hline

theorem setDiscipline_discipline (c : Connection) (discipline : Discipline) :
    (c.setDiscipline discipline).1.stream.discipline = discipline := by
  cases discipline with
  | full => exact (through_allocate (c.update _)).stream.discipline
  | line => rfl
  | unbuffered =>
    have hsync := (through_sync (c.update ({ · with discipline := .unbuffered }))).stream.discipline
    simp only [setDiscipline]
    split <;> rename_i heq <;> rw [heq] at hsync <;> exact hsync

end Connection

/-- A mode that empties a file or appends to it starts at its end. -/
theorem OpenMode.begins_atEnd {mode : OpenMode} (h : mode.truncates = true ∨ mode.appends = true)
    (data : Bytes) : PlainFile.AtEnd ⟨mode.opens data, mode.begins data⟩ mode.appends := by
  cases happ : mode.appends with
  | true => exact .inl rfl
  | false =>
    have htruncates := h.resolve_right (by rw [happ]; exact Bool.false_ne_true)
    refine .inr ?_
    simp [OpenMode.opens, OpenMode.begins, happ, htruncates]

/-- A stream that was not used yet and is on the end of a file extends it. -/
theorem Stream.Fresh.extends {sys : System} {s : Stream} {base : Bytes} (hs : s.Fresh)
    (hend : sys.AtEnd base s.fd) : Connection.Extends base ⟨s, sys⟩ :=
  ⟨hs.window, hs.cursor, fun hw => Bool.noConfusion (hs.writing.symm.trans hw), hend⟩

namespace Handle

/-- The discipline of a stream that is opened with a buffering value. -/
def disciplineFor (buffering : Option Int) : Discipline :=
  if buffering = some 0 then .unbuffered else if buffering = some 1 then .line else .full

theorem openPath_discipline {sys sys' : System} {path : Bytes} {text : String} {buffering : Option Int}
    {h : Handle} {t : Stream} (e : openPath sys path text buffering = (sys', .ok h)) (ht : h.stream = some t) :
    t.discipline = disciplineFor buffering := by
  unfold openPath at e
  split at e
  · cases e
  rename_i sys₁ u hopen
  have hu : u.discipline = .full := by
    obtain ⟨mode, -, -, -, -, hu, -⟩ := System.openStream_ok hopen
    rw [hu]
  cases buffering with
  | none =>
    cases e
    cases ht
    exact hu
  | some value =>
    simp only [ofStream] at e
    cases hint : Buffering.ofInt value with
    | error er => simp only [hint] at e; cases e
    | ok b =>
      obtain rfl := Buffering.ofInt_eq_ok_iff.1 hint
      cases b with
      | unchanged =>
        cases e
        cases ht
        exact hu
      | unbuffered =>
        have hset := Connection.setDiscipline_discipline ⟨u, sys₁⟩ .unbuffered
        simp only [hint, Buffering.discipline?, onStream] at e
        split at e
        · cases e
          cases ht
          exact hset
        · cases e
      | lineBuffered =>
        cases e
        cases ht
        rfl

/-- What a handle on a regular file has handed on after any run of writes and flushes: the file has what it
began with, nothing where the mode empties it, and a prefix of all that was accepted. After a flush that is
all of it, and so it is after any call where the handle is unbuffered; by lines, it is all up to the last line
end at least. Once the handle is closed the file has all that was accepted, whatever the buffering. -/
theorem visible_by_buffering {before : System} {path data : Bytes} {text : String} {mode : OpenMode}
    {buffering : Option Int} {place : List Name} {calls : List Call}
    (hpath : path.contains 0 = false) (htext : (toBytes text).contains 0 = false)
    (hmode : OpenMode.parse? OpenMode.pathReach (toBytes text) = some mode)
    (hplain : OpenMode.charset? (toBytes text) = none)
    (hwrites : mode.writes = true) (hbehind : mode.truncates = true ∨ mode.appends = true)
    (hx : mode.exclusive = false) (hb : Accepts buffering) (hleads : before.Leads mode path place data)
    (hcalls : ∀ call ∈ calls, call.isWriteOrFlush = true)
    (hroom : (mode.opens data).length + (calls.flatMap Call.offered).length ≤ before.largestOffset) :
    ∃ sys h sys' h' sys'' visible, openPath before path text buffering = (sys, .ok h) ∧
      h.run sys (calls.map .call) = (h', sys', calls.map Call.granted) ∧
      sys'.contentAt place = some (.regular (mode.opens data ++ visible)) ∧
      visible <+: calls.flatMap Call.offered ∧
      (calls.getLast? = some .flush → visible = calls.flatMap Call.offered) ∧
      (buffering = some 0 → visible = calls.flatMap Call.offered) ∧
      (buffering = some 1 → newline ∉ (calls.flatMap Call.offered).drop visible.length) ∧
      h'.close sys' = ⟨{ h' with stream := none }, sys'', .ok ()⟩ ∧
      sys''.contentAt place = some (.regular (mode.opens data ++ calls.flatMap Call.offered)) := by
  obtain ⟨sys, t, d, dev, hopen, hfresh, hhas, ho, hnamed, hdata, -, happends, hposition, hlimit, hstands⟩ :=
    openPath_stands hpath htext hmode hplain hx hb hleads
  have hbegins := OpenMode.begins_atEnd hbehind data
  have hplace := mode.begins_le data
  rw [← hlimit] at hroom
  have hadmits : PlainFile.AdmitsAll ⟨mode.opens data, mode.begins data⟩ sys.largestOffset mode none calls :=
    hbegins.admitsAll hwrites hplace hplace hcalls sys.addressable hroom
  obtain ⟨hcontents, hreplies⟩ := hbegins.callAll hcalls
  -- The replies, and the file after the end, are those of a plain file.
  obtain ⟨c, sys'', hall, hthrough, hstood, hrun, hclose, -, hend⟩ :=
    run_stands (h := ⟨Text.lossy path, text, some t⟩) rfl hstands hhas hfresh.pending ho hnamed hadmits
  -- Meanwhile the file has what the plain file has, without what is pending.
  have hatEnd : sys.AtEnd (mode.opens data) t.fd := by
    refine ⟨d, dev, [], ho, by rw [List.append_nil, hdata], ?_⟩
    rw [List.append_nil, happends, hposition]
    exact hbegins
  obtain ⟨hextends, htidy, hflushed⟩ := Connection.extends_performAll (hfresh.extends hatEnd)
    (.of_nothing hfresh.pending) (hhas.writes.trans hwrites) hcalls
  rw [hall] at hextends htidy hflushed
  obtain ⟨d', dev', visible, ho', hcontent, hprefix, hnothing, hunbuffered, hline⟩ :=
    hextends.visible htidy hstood.file hcontents
  have hdiscipline : c.stream.discipline = disciplineFor buffering :=
    hthrough.stream.discipline.trans (openPath_discipline hopen rfl)
  refine ⟨sys, _, _, _, sys'', visible, hopen, hreplies ▸ hrun, ?_, hprefix,
    fun hflush => hnothing (hflushed hflush), fun hzero => hunbuffered ?_, fun hone => hline ?_, hclose,
    hcontents ▸ hend⟩
  · rw [hthrough.contentAt ho hnamed ho', hcontent]
  · rw [hdiscipline, hzero]
    rfl
  · rw [hdiscipline, hone]
    rfl

/-- A line and a half, by lines: the line is in the file, and the rest once the handle is closed. -/
theorem line_visible_before_close :
    ∃ sys h sys' h' sys'' visible,
      openPath (System.fresh.addFile (toBytes "t") [97]) (toBytes "t") "a" (some 1) = (sys, .ok h) ∧
      h.run sys ([.write [98], .write [99, 10, 100]].map .call) =
        (h', sys', [.answer (.count 1), .answer (.count 3)]) ∧
      sys'.contentAt [toBytes "home", toBytes "t"] = some (.regular ([97] ++ visible)) ∧
      visible <+: [98, 99, 10, 100] ∧ newline ∉ List.drop visible.length [98, 99, 10, 100] ∧
      h'.close sys' = ⟨{ h' with stream := none }, sys'', .ok ()⟩ ∧
      sys''.contentAt [toBytes "home", toBytes "t"] = some (.regular [97, 98, 99, 10, 100]) := by
  have hleads : (System.fresh.addFile (toBytes "t") [97]).Leads
      ⟨false, true, true, true, false, false⟩ (toBytes "t") [toBytes "home", toBytes "t"] [97] :=
    @System.Leads.there _ _ _ _ 6 { content := .regular [97] } _ rfl rfl rfl rfl nofun (by decide)
  have hmode : OpenMode.parse? OpenMode.pathReach (toBytes "a") =
      some ⟨false, true, true, true, false, false⟩ := by decide
  have hb : Accepts (some 1) := fun _ h => ⟨.lineBuffered, by cases h; rfl⟩
  obtain ⟨sys, h, sys', h', sys'', visible, hopen, hrun, hcontent, hprefix, -, -, hline, hclose, hend⟩ :=
    @visible_by_buffering _ _ _ _ _ _ _ [.write [98], .write [99, 10, 100]] (by decide) (by decide) hmode
      (by decide) rfl (.inr rfl) rfl hb hleads (by decide) (by decide)
  exact ⟨sys, h, sys', h', sys'', visible, hopen, hrun, hcontent, hprefix, hline rfl, hclose, hend⟩

end Handle

end BufferedFiles
