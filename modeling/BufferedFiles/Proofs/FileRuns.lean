import BufferedFiles.Proofs.HandleRun
import BufferedFiles.Proofs.PlainFileCalls
import BufferedFiles.Proofs.Reading

/-!
# Runs on a file

A handle on a regular file answers every run of calls as a plain file does, a file with its bytes and
a position and nothing in front of it, as long as input does not follow output at once. No discipline
can be told from another by the replies, and closing the handle leaves the bytes of the plain file.
-/
namespace BufferedFiles

namespace Connection

variable {c c' : Connection} {f : PlainFile} {bytes : Bytes}

/-- The stream stands for a plain file: the file is its account, its device takes and gives what it
was opened for, and where the stream remembers an end it is the end of the file. -/
structure Stands (c : Connection) (f : PlainFile) : Prop where
  ready : c.Ready
  calm : c.Calm
  file : c.account.file = some f
  appending : c.account.appending = c.stream.appends
  within : f.Within c.system.largestOffset
  buffer : c.stream.bufferSize ∣ blockSize
  quiet : c.stream.failed = false ∧ c.stream.held = none
  ended : c.stream.atEnd = true → f.contents.length ≤ f.position
  device : ∀ d dev, c.system.opened? c.stream.fd = some (d, dev) →
    (c.stream.reads = true → d.readable = true) ∧ (c.stream.writes = true → d.writable = true) ∧
      dev.Reliable

/-- What is pending, with `output` for how far it has come from where it started: nothing where no output is
under way, and bytes that are appended can be numbered. -/
structure Phase (c : Connection) (f : PlainFile) (output : Option Nat) : Prop where
  pending : c.stream.pending = [] ∨ output.isSome = true ∧ c.stream.writes = true
  extent : c.stream.appends = true → c.extent ≤ max (output.getD f.position) f.contents.length
  numbered : c.stream.appends = true → output.getD f.position ≤ largestPosition

theorem Phase.drained (h : c.Phase f none) : c.stream.pending = [] := h.pending.resolve_right nofun

theorem Stands.buffer_through (h : c.Stands f) (ht : c.Through c') : c'.stream.bufferSize ∣ blockSize := by
  obtain ⟨⟨d, dev, hon⟩, -⟩ := h.ready
  rw [ht.buffer d dev hon.opened]
  exact h.buffer

/-- A device that was there before operations still does what it did. -/
private theorem device_through (h : c.Stands f) (ht : c.Through c') :
    ∀ d dev, c'.system.opened? c'.stream.fd = some (d, dev) →
      (c'.stream.reads = true → d.readable = true) ∧ (c'.stream.writes = true → d.writable = true) ∧
        dev.Reliable := by
  intro d dev ho
  obtain ⟨⟨d₀, dev₀, hon⟩, -⟩ := h.ready
  obtain ⟨hreads, hwrites, hr⟩ := h.device d₀ dev₀ hon.opened
  obtain ⟨p, dev', ho', hb⟩ := ht.opened hon.opened
  rw [ho] at ho'
  cases ho'
  rw [ht.stream.reads, ht.stream.writes]
  exact ⟨hreads, hwrites, hb.reliable hr⟩

theorem Stands.lays (h : c.Stands f) (hl : c.Lays c' bytes) (hcalm : c'.Calm)
    (hroom : f.start c.stream.appends + bytes.length ≤ c.system.largestOffset) :
    c'.Stands (f.write c.stream.appends bytes) := by
  have hsigns := hl.signs
  simp only [Stream.signs, Prod.mk.injEq] at hsigns
  obtain ⟨hfailed, hend, hheld⟩ := hsigns
  refine ⟨hl.ready, hcalm, ?_, ?_, ?_, h.buffer_through hl.through, ?_, fun he => ?_,
    device_through h hl.through⟩
  · rw [hl.account, Account.lay, h.file, h.appending]
    rfl
  · rw [hl.account, hl.through.stream.appends]
    exact h.appending
  · rw [hl.through.system.largestOffset]
    exact h.within.write hroom
  · rw [hfailed, hheld]
    exact h.quiet
  · rw [hend] at he
    exact PlainFile.ended_write (h.ended he) bytes

theorem Stands.idles (h : c.Stands f) (hl : c.Lays c' []) (hcalm : c'.Calm) : c'.Stands f := by
  have h' := h.lays hl hcalm (h.within.start _)
  rwa [PlainFile.write_nil] at h'

theorem Stands.willing (h : c.Stands f) (hw : c.stream.writes = true)
    (hroom : f.start c.stream.appends + bytes.length ≤ c.system.largestOffset)
    (hextent : c.stream.appends = true → c.extent + bytes.length ≤ largestPosition) :
    c.Willing bytes.length := by
  obtain ⟨⟨d, dev, hon⟩, -⟩ := h.ready
  obtain ⟨-, hwritable, hr⟩ := h.device d dev hon.opened
  have happ := h.appending
  rw [account_appending hon.opened] at happ
  exact (willing_file hon.opened h.file).2
    ⟨hwritable hw, hr, by rw [happ]; exact hroom, fun hyes => hextent (happ ▸ hyes)⟩

theorem Phase.drains {output : Option Nat} (h : c.Phase f output) (hs : c.Stands f) :
    c.stream.pending = [] ∨ c.Willing 0 := by
  refine h.pending.imp_right fun ⟨_, hw⟩ => @Stands.willing c f [] hs hw (hs.within.start _) fun happ => ?_
  have hextent := h.extent happ
  have hnumbered := h.numbered happ
  have hsize := hs.within.1
  have hlimit := c.system.addressable
  rw [List.length_nil]
  omega

theorem Stands.phase (h : c.Stands f) (hpend : c.stream.pending = []) : c.Phase f none where
  pending := .inl hpend
  extent _ := by
    obtain ⟨⟨d, dev, hon⟩, -⟩ := h.ready
    exact hon.extent_le hpend h.file
  numbered _ := Nat.le_trans h.within.2 c.system.addressable

theorem Phase.keeps {output : Option Nat} (h : c.Phase f output) (hl : c.Lays c' [])
    (hpend : c'.stream.pending = c.stream.pending) : c'.Phase f output where
  pending := by
    rw [hpend, hl.through.stream.writes]
    exact h.pending
  extent happ := Nat.le_trans hl.extent (h.extent (hl.through.stream.appends ▸ happ))
  numbered happ := h.numbered (hl.through.stream.appends ▸ happ)

/-- Output goes on for as many bytes as were laid down. -/
theorem Phase.lays {output : Option Nat} (h : c.Phase f output) (hl : c.Lays c' bytes)
    (hw : c.stream.writes = true)
    (hroom : c.stream.appends = true → output.getD f.position + bytes.length ≤ largestPosition) :
    c'.Phase (f.write c.stream.appends bytes) (some (output.getD f.position + bytes.length)) where
  pending := .inr ⟨rfl, hl.through.stream.writes.trans hw⟩
  extent happ := by
    rw [hl.through.stream.appends] at happ
    have hextent := h.extent happ
    have hmore := hl.extent
    have hlen : (f.write c.stream.appends bytes).contents.length = f.contents.length + bytes.length := by
      rw [happ]
      exact f.start_write true bytes
    rw [hlen, Option.getD_some]
    omega
  numbered happ := hroom (hl.through.stream.appends ▸ happ)

private theorem Stands.port (h : c.Stands f) (hpend : c.stream.pending = []) :
    ∃ d dev, c.On d dev ∧ dev.content = .regular f.contents ∧
      f.position = d.position - c.stream.left.length ∧ d.appending = c.stream.appends := by
  obtain ⟨⟨d, dev, hon⟩, -⟩ := h.ready
  have hfile := h.file
  have happ := h.appending
  rw [account_of_drained hpend, standing_eq hon.opened] at hfile
  rw [account_appending hon.opened] at happ
  obtain ⟨hc, hplace⟩ := Content.file?_eq_some hfile
  exact ⟨d, dev, hon, hc, hplace, happ⟩

/-- A stream for input that stands for a file gives what is behind the position. -/
theorem Stands.gives (h : c.Stands f) (hpend : c.stream.pending = []) (hr : c.stream.reads = true) :
    c.Gives ∧ c.supply = .bytes f.rest := by
  obtain ⟨d, dev, hon, hc, -, happ⟩ := h.port hpend
  obtain ⟨hreads, -, hrel⟩ := h.device d dev hon.opened
  have hsupply := hon.supply_file hpend h.file
  refine ⟨⟨⟨d, dev, hon, ⟨hreads hr, hrel, by rw [hc]; exact nofun, by rw [hc]; exact nofun⟩, .inr happ⟩,
    hr, hpend, fun hw => h.calm hw hpend, h.quiet, fun he => ?_,
    Nat.le_of_dvd (by decide) h.buffer⟩, hsupply⟩
  rw [hsupply, PlainFile.rest, List.drop_eq_nil_of_le (h.ended he)]
  rfl

theorem Stands.reaches {n : Nat} (h : c.Stands f) (hn : f.position + n + blockSize ≤ largestPosition) :
    c.Reaches n := by
  intro g hg
  rw [h.file] at hg
  cases hg
  exact hn

/-- Input moves the position over what it took. -/
theorem Stands.draws (h : c.Stands f) (hpend : c.stream.pending = []) (hr : c.stream.reads = true)
    (hd : c.Draws c' bytes) : c'.Stands (f.advance bytes.length) := by
  obtain ⟨d, dev, hon, hc, -, -⟩ := h.port hpend
  obtain ⟨-, hsupply⟩ := h.gives hpend hr
  obtain ⟨d', dev', hon', -, -⟩ := hd.gives.on
  have hfile : c'.account.file = some (f.advance bytes.length) := by
    rw [hd.account, Account.advance, h.file]
    rfl
  have hready : c'.Ready :=
    ⟨⟨d', dev', hon'⟩, hd.through.seekable hon.opened (by rw [hc]; rfl)⟩
  refine ⟨hready, fun hw _ => hd.gives.calm hw, hfile, ?_, hready.within hd.gives.drained hfile,
    h.buffer_through hd.through, hd.gives.quiet, fun he => ?_, device_through h hd.through⟩
  · rw [hd.account, hd.through.stream.appends]
    exact h.appending
  · have hempty := hd.gives.ended he
    rw [hd.supply, hsupply] at hempty
    have hnil : f.rest.drop bytes.length = [] := Supply.bytes.inj hempty
    rw [PlainFile.rest, List.drop_drop, List.drop_eq_nil_iff] at hnil
    exact hnil

theorem Stands.moves {target : Int} (h : c.Stands f) (hm : c.Moves c' target) :
    c'.Stands { f with position := target.toNat } := by
  have hsigns := hm.signs
  simp only [Stream.signs, Prod.mk.injEq] at hsigns
  obtain ⟨hfailed, hend, hheld⟩ := hsigns
  obtain ⟨n, rfl, hfile⟩ := hm.file f h.file
  refine ⟨hm.ready, fun hw => ?_, hfile, ?_, hm.ready.within hm.pending hfile,
    h.buffer_through hm.through, ?_, fun he => ?_, device_through h hm.through⟩
  · rw [hm.writing] at hw
    cases hw
  · obtain ⟨⟨d, dev, hon⟩, -⟩ := h.ready
    obtain ⟨p, dev', ho, -⟩ := hm.through.opened hon.opened
    rw [account_appending ho, hm.through.stream.appends, ← h.appending, account_appending hon.opened]
  · rw [hfailed, hheld]
    exact h.quiet
  · rw [hend] at he
    cases he

theorem tell_stands {reply : Except StreamError Nat} (h : c.Stands f) (e : c.tell = (c', reply)) :
    c.Lays c' [] ∧ c'.Stands f ∧ reply = .ok f.position ∧ c'.stream.pending = c.stream.pending := by
  obtain ⟨hlays, ⟨hpend, -, hcalm⟩, hvalue⟩ := tell_spec h.ready e
  exact ⟨hlays, h.idles hlays (hcalm h.calm), hvalue f h.calm h.file h.appending, hpend⟩

theorem Stands.not_overreaches {origin : Origin} {offset : Int} (h : c.Stands f)
    (hmoves : f.Moves c.system.largestOffset c.stream.reads origin offset) :
    ¬ c.Overreaches (f.base origin + offset) :=
  fun ⟨hreads, hout, hnear⟩ => hout (hmoves.2 hreads (hnear.blockStart_of_dvd h.buffer (by decide)))

/-- A move of a file goes where the plain file goes, or both are refused. -/
theorem seek_stands {target : Target} {reply : Except StreamError Nat} (h : c.Stands f)
    (hdrains : c.stream.pending = [] ∨ c.Willing 0)
    (hmoves : ∀ parts, target.parts? = some parts →
      IsOffset parts.2 ∧ ¬ c.Overreaches (f.base parts.1 + parts.2))
    (e : c.seek target = (c', reply)) :
    c.Through c' ∧ c'.Stands (f.call c.system.largestOffset c.stream.appends (.seek target)).1 ∧
      .ofStream .count reply = (f.call c.system.largestOffset c.stream.appends (.seek target)).2 ∧
      (target.parts?.isSome = true → c'.stream.pending = []) ∧ (target.parts? = none → c' = c) := by
  unfold seek at e
  unfold PlainFile.call
  split at e
  · rename_i hparts
    cases e
    simp only [hparts]
    exact ⟨.refl c, h, rfl, nofun, fun _ => trivial⟩
  rename_i origin offset hparts
  simp only [hparts, PlainFile.goTo, Option.isSome_some, true_implies, reduceCtorEq, false_implies, and_true]
  obtain ⟨hoff, hnear⟩ := hmoves _ hparts
  rcases hmove : c.move origin offset with ⟨c₁, ok⟩
  obtain ⟨hreach, hout⟩ := move_regular h.ready h.file h.appending hoff hdrains hmove
  rw [hmove] at e
  by_cases hin : InReach c.system.largestOffset (f.base origin + offset)
  · have hok := hreach hin
    subst hok
    obtain ⟨target, hm, htarget⟩ := move_ok h.ready hmove
    rw [if_pos hin, ← htarget f h.file h.appending hoff]
    obtain ⟨hlays, h', rfl, hpend⟩ := tell_stands (h.moves hm) e
    exact ⟨hm.through.trans hlays.through, h', rfl, by rw [hpend, hm.pending]⟩
  · obtain ⟨rfl, herror, hstays⟩ := hout hin
    obtain ⟨hlays, hpend, hidle⟩ := hstays hnear
    cases e
    rw [if_neg hin]
    refine ⟨hlays.through, h.idles hlays fun hyes => ?_, ?_, hpend⟩
    · rw [hidle] at hyes
      cases hyes
    · simp only [failure, herror]
      rfl

/-- The bytes of a call for output are taken one way or the other. -/
theorem write_stands {reply : Except StreamError Nat} (h : c.Stands f) (hw : c.stream.writes = true)
    (hwilling : c.Willing bytes.length) (e : c.write bytes = (c', reply)) :
    c.Lays c' bytes ∧ c'.Stands (f.write c.stream.appends bytes) ∧ reply = .ok bytes.length ∧
      (bytes = [] → c' = c) := by
  by_cases hb : bytes = []
  · subst hb
    rw [write_nil] at e
    cases e
    rw [PlainFile.write_nil]
    exact ⟨.refl h.ready, h, rfl, fun _ => rfl⟩
  obtain ⟨⟨d, dev, hon⟩, -⟩ := h.ready
  obtain ⟨-, -, hroom, -⟩ := (willing_file hon.opened h.file).1 hwilling
  rw [← account_appending hon.opened, h.appending] at hroom
  rcases write_spec h.ready hw hb e with ⟨-, rfl, hlays, hcalm⟩ | ⟨-, -, hno⟩ | ⟨-, -, hfails, -⟩
  · exact ⟨hlays, h.lays hlays hcalm hroom, rfl, fun hnil => absurd hnil hb⟩
  · exact absurd hwilling hno
  · exact absurd hwilling hfails.unwilling

theorem flush_stands {reply : Except StreamError Unit} (h : c.Stands f)
    (hdrains : c.stream.pending = [] ∨ c.Willing 0) (e : c.flush = (c', reply)) :
    c.Through c' ∧ c'.Stands f ∧ reply = .ok () ∧ c'.stream.pending = [] := by
  rcases flush_spec h.ready e with ⟨rfl, hlays, hpend, hcalm⟩ | ⟨-, hne, hno⟩
  · exact ⟨hlays.through, h.idles hlays (hcalm h.calm), rfl, hpend⟩
  · exact absurd (hdrains.resolve_left hne) hno

/-- What a call on a stream leaves and answers is what it does to the plain file. -/
structure Follows (c : Connection) (r : Connection × Reply) (g : PlainFile × Reply)
    (output : Option Nat) : Prop where
  reply : r.2 = g.2
  through : c.Through r.1
  stands : r.1.Stands g.1
  phase : r.1.Phase g.1 output

private theorem Stands.input {n : Nat} (h : c.Stands f) (hphase : c.Phase f none)
    (hr : c.stream.reads = true) (hn : f.position + n + blockSize ≤ largestPosition)
    {op : Connection × Except StreamError Bytes} (out : Supply → Bytes)
    (hop : c.Gives → c.Reaches n → ∃ c', op = (c', .ok (out c.supply)) ∧ c.Draws c' (out c.supply)) :
    c.Follows (answered .bytes op) (f.give (out (.bytes f.rest))) none := by
  obtain ⟨hg, hsupply⟩ := h.gives hphase.drained hr
  obtain ⟨c', rfl, hdraws⟩ := hop hg (h.reaches hn)
  rw [hsupply] at hdraws ⊢
  have h' := h.draws hphase.drained hr hdraws
  exact ⟨rfl, hdraws.through, h', h'.phase hdraws.gives.drained⟩

private theorem Stands.output {output : Option Nat} (h : c.Stands f) (hphase : c.Phase f output)
    (hw : c.stream.writes = true)
    (hroom : f.start c.stream.appends + bytes.length ≤ c.system.largestOffset)
    (hnumbered : c.stream.appends = true → output.getD f.position + bytes.length ≤ largestPosition) :
    c.Follows (answered .count (c.write bytes)) (f.call c.system.largestOffset c.stream.appends (.write bytes))
      ((Call.write bytes).leavesOutput f.position output) := by
  have hwilling := h.willing hw hroom fun happ => by
    have hextent := hphase.extent happ
    have hlimit := c.system.addressable
    have hfar := hnumbered happ
    rw [happ] at hroom
    have hroom : f.contents.length + bytes.length ≤ c.system.largestOffset := hroom
    omega
  rcases e : c.write bytes with ⟨c', reply⟩
  obtain ⟨hlays, h', rfl, hnil⟩ := write_stands h hw hwilling e
  refine ⟨rfl, hlays.through, h', ?_⟩
  by_cases hb : bytes = []
  · subst hb
    cases hnil rfl
    rw [PlainFile.call, PlainFile.write_nil]
    exact hphase
  · rw [Call.leavesOutput, if_neg (by simpa using hb)]
    exact hphase.lays hlays hw hnumbered

/-- One call on a stream that stands for a file does what it does to the file. -/
theorem perform_stands {mode : OpenMode} {output : Option Nat} {call : Call} (h : c.Stands f)
    (hmode : c.stream.HasMode mode) (hphase : c.Phase f output)
    (hadmits : f.Admits c.system.largestOffset mode output call) :
    c.Follows (c.perform call) (f.call c.system.largestOffset mode.appends call)
      (call.leavesOutput f.position output) := by
  obtain ⟨hreads, hwrites, happends⟩ := hmode
  rw [← happends]
  cases call with
  | read max =>
    obtain ⟨hr, rfl, hn⟩ := hadmits
    exact h.input hphase (hreads.trans hr) hn (·.take _) read_gives
  | readLine max =>
    obtain ⟨hr, rfl, hn⟩ := hadmits
    exact h.input hphase (hreads.trans hr) hn (·.line _) readLine_gives
  | write bytes =>
    obtain ⟨hw, hroom, hnumbered⟩ := hadmits
    rw [← happends] at hroom hnumbered
    exact h.output hphase (hwrites.trans hw) hroom hnumbered
  | flush =>
    rcases e : c.flush with ⟨c', reply⟩
    obtain ⟨hthrough, h', rfl, hpend⟩ := flush_stands h (hphase.drains h) e
    simp only [perform, e]
    exact ⟨rfl, hthrough, h', h'.phase hpend⟩
  | seek target =>
    rcases e : c.seek target with ⟨c', reply⟩
    obtain ⟨hthrough, h', hreply, hpend, hsame⟩ :=
      seek_stands h (hphase.drains h)
        (fun parts hparts => ⟨(hadmits parts hparts).1, h.not_overreaches (hreads ▸ hadmits parts hparts)⟩) e
    simp only [perform, e]
    refine ⟨hreply, hthrough, h', ?_⟩
    cases hparts : target.parts? with
    | some parts =>
      rw [Call.leavesOutput, hparts]
      exact h'.phase (hpend (by rw [hparts]; rfl))
    | none =>
      cases hsame hparts
      rw [Call.leavesOutput, PlainFile.call, hparts]
      exact hphase
  | tell =>
    rcases e : c.tell with ⟨c', reply⟩
    obtain ⟨hlays, h', rfl, hpend⟩ := tell_stands h e
    simp only [perform, e]
    exact ⟨rfl, hlays.through, h', hphase.keeps hlays hpend⟩
  | close => exact hadmits.elim

/-- A run of calls on a stream that stands for a file does what it does to the file. -/
theorem performAll_stands {limit : Nat} {mode : OpenMode} {output : Option Nat} {calls : List Call}
    (hlimit : c.system.largestOffset = limit) (h : c.Stands f) (hmode : c.stream.HasMode mode)
    (hphase : c.Phase f output) (hadmits : f.AdmitsAll limit mode output calls) :
    ∃ c', c.performAll calls = (c', (f.callAll limit mode.appends calls).2) ∧
      c.Through c' ∧ c'.Stands (f.callAll limit mode.appends calls).1 ∧
      (c'.stream.pending = [] ∨ c'.Willing 0) := by
  induction calls generalizing c f output with
  | nil => exact ⟨c, rfl, .refl c, h, hphase.drains h⟩
  | cons call rest ih =>
    obtain ⟨hfirst, hrest⟩ := hadmits
    rw [← hlimit] at hfirst
    have hone := perform_stands h hmode hphase hfirst
    rw [hlimit] at hone
    rcases hperform : c.perform call with ⟨c₁, reply⟩
    rw [hperform] at hone
    obtain ⟨rfl, hthrough, h₁, hphase₁⟩ := hone
    obtain ⟨c₂, hperformAll, hthrough₂, h₂, hdrains⟩ :=
      ih (hthrough.system.largestOffset.trans hlimit) h₁ (hthrough.stream.hasMode hmode) hphase₁ hrest
    refine ⟨c₂, ?_, hthrough.trans hthrough₂, h₂, hdrains⟩
    simp only [performAll, hperform, hperformAll, PlainFile.callAll]

/-- A stream that stands for a file and is closed leaves the bytes of the file. -/
theorem close_stands {sys : System} {result : Except StreamError Unit} (h : c.Stands f)
    (hdrains : c.stream.pending = [] ∨ c.Willing 0) (e : c.close = (sys, result)) :
    result = .ok () ∧ ∃ c₁ d dev, c₁.system.opened? c.stream.fd = some (d, dev) ∧ c.Through c₁ ∧
      System.Drops c.stream.fd c₁.system sys ∧ dev.content = .regular f.contents := by
  obtain ⟨c₁, d, dev, hon, hthrough, hdrops, hcase⟩ := close_spec h.ready e
  rcases hcase with ⟨rfl, hlays, hpend⟩ | ⟨-, hne, hno⟩
  · refine ⟨rfl, c₁, d, dev, ?_, hthrough, hdrops, ?_⟩
    · rw [← hthrough.stream.fd, hon.opened]
    · have hfile := hlays.account
      rw [Account.lay_nil, account_of_drained hpend, standing_eq hon.opened] at hfile
      have hfile := congrArg Account.file hfile
      rw [h.file] at hfile
      exact (Content.file?_eq_some hfile).1
  · exact absurd (hdrains.resolve_left hne) hno

end Connection

theorem Stream.Fresh.stands {sys : System} {s : Stream} {d : Descriptor} {dev : Device}
    {data : Bytes} (hs : s.Fresh) (ho : sys.opened? s.fd = some (d, dev)) (happ : d.appending = s.appends)
    (hreads : s.reads = true → d.readable = true) (hwrites : s.writes = true → d.writable = true)
    (hreg : dev.content = .regular data) (hr : dev.Reliable)
    (hin : PlainFile.Within ⟨data, d.position⟩ sys.largestOffset) :
    (⟨s, sys⟩ : Connection).Stands ⟨data, d.position⟩ := by
  obtain ⟨hready, hcalm, haccount⟩ := hs.ready ho (fun hyes => happ.trans hyes)
    (fun _ => by rw [hreg]; exact hin)
  have hsigns := hs.signs
  simp only [Stream.signs, Prod.mk.injEq] at hsigns
  refine ⟨hready, hcalm, ?_, ?_, hin, hs.bufferSize_dvd, ⟨hsigns.1, hsigns.2.2⟩, fun hend => ?_,
    fun d₀ dev₀ ho₀ => ?_⟩
  · rw [haccount]
    simp only [Account.ofPort, hreg, Content.file?, Nat.sub_zero]
  · rw [haccount]
    exact happ
  · have hend : s.atEnd = true := hend
    rw [hsigns.2.1] at hend
    cases hend
  · have ho₀ : sys.opened? s.fd = some (d₀, dev₀) := ho₀
    rw [ho] at ho₀
    cases ho₀
    exact ⟨hreads, hwrites, hr⟩

/-- What is found, after operations of a stream, at the place of its device. -/
theorem Connection.Through.contentAt {c c' : Connection} {d d' : Descriptor} {dev dev' : Device}
    {place : List Name} (h : c.Through c') (ho : c.system.opened? c.stream.fd = some (d, dev))
    (hnamed : c.system.lookup place = some d.device) (ho' : c'.system.opened? c'.stream.fd = some (d', dev')) :
    c'.system.contentAt place = some dev'.content := by
  obtain ⟨p, dev₁, ho₁, -⟩ := h.opened ho
  cases ho'.symm.trans ho₁
  obtain ⟨-, hdev⟩ := System.opened?_eq_some.1 ho₁
  have hsame : c'.system.lookup place = some d.device := by
    rw [← hnamed, System.lookup, System.lookup, h.system.names]
  rw [System.contentAt, hsame, Option.bind_some, hdev, Option.map_some]

namespace Handle

/-- A path that leads to a file is opened as a stream that was not used yet, and that stands for the file. -/
theorem openPath_stands {before : System} {path data : Bytes} {text : String} {mode : OpenMode}
    {buffering : Option Int} {place : List Name}
    (hpath : path.contains 0 = false) (htext : (toBytes text).contains 0 = false)
    (hmode : OpenMode.parse? OpenMode.pathReach (toBytes text) = some mode)
    (hplain : OpenMode.charset? (toBytes text) = none) (hx : mode.exclusive = false)
    (hb : Accepts buffering) (hleads : before.Leads mode path place data) :
    ∃ sys t d dev, openPath before path text buffering = (sys, .ok ⟨Text.lossy path, text, some t⟩) ∧ t.Fresh ∧
      t.HasMode mode ∧ sys.opened? t.fd = some (d, dev) ∧ sys.lookup place = some d.device ∧
      dev.content = .regular (mode.opens data) ∧ d.readable = mode.reads ∧ d.appending = mode.appends ∧
      d.position = mode.begins data ∧ sys.largestOffset = before.largestOffset ∧
      (⟨t, sys⟩ : Connection).Stands ⟨mode.opens data, mode.begins data⟩ := by
  obtain ⟨sys, t, i, dev, hopen, hfresh, hhas, ho, hprovides, -, -⟩ :=
    openPath_leads hpath htext hmode hplain hx hb hleads
  have hsize := hleads.length_le
  have hin : PlainFile.Within ⟨mode.opens data, mode.begins data⟩ sys.largestOffset := by
    rw [hprovides.largest]
    exact ⟨hsize, Nat.le_trans (mode.begins_le data) hsize⟩
  exact ⟨sys, t, _, dev, hopen, hfresh, hhas, ho, hprovides.named, hprovides.content, rfl, rfl, rfl,
    hprovides.largest, hfresh.stands ho hhas.appends.symm
      (fun hyes => hhas.reads.symm.trans hyes) (fun hyes => hhas.writes.symm.trans hyes)
      hprovides.content hprovides.reliable hin⟩

/-- A handle that stands for the file at a place answers a run of calls as the plain file does. Its bytes are
there once the handle is closed or let go of. -/
theorem run_stands {sys : System} {h : Handle} {t : Stream} {d : Descriptor} {dev : Device} {f : PlainFile}
    {mode : OpenMode} {place : List Name} {calls : List Call} (ht : h.stream = some t)
    (hstands : Connection.Stands ⟨t, sys⟩ f) (hmode : t.HasMode mode) (hpend : t.pending = [])
    (ho : sys.opened? t.fd = some (d, dev)) (hnamed : sys.lookup place = some d.device)
    (hadmits : f.AdmitsAll sys.largestOffset mode none calls) :
    ∃ c sys', Connection.performAll ⟨t, sys⟩ calls =
        (c, (f.callAll sys.largestOffset mode.appends calls).2) ∧
      Connection.Through ⟨t, sys⟩ c ∧ c.Stands (f.callAll sys.largestOffset mode.appends calls).1 ∧
      h.run sys (calls.map .call) =
        ({ h with stream := some c.stream }, c.system, (f.callAll sys.largestOffset mode.appends calls).2) ∧
      Handle.close { h with stream := some c.stream } c.system = ⟨{ h with stream := none }, sys', .ok ()⟩ ∧
      Handle.release { h with stream := some c.stream } c.system = sys' ∧
      sys'.contentAt place =
        some (.regular (f.callAll sys.largestOffset mode.appends calls).1.contents) := by
  obtain ⟨c, hall, hthrough, hend, hdrains⟩ :=
    Connection.performAll_stands rfl hstands hmode (hstands.phase hpend) hadmits
  have hrun := @run_performAll sys h t ht calls hadmits.close_notMem
  rw [hall] at hrun
  rcases hclose : c.close with ⟨sys', result⟩
  obtain ⟨rfl, c₁, d₁, dev₁, ho₁, hthrough₁, hdrops, hcontent⟩ :=
    Connection.close_stands hend hdrains hclose
  have hclose : Connection.close ⟨c.stream, c.system⟩ = _ := hclose
  refine ⟨c, sys', hall, hthrough, hend, hrun, ?_, ?_, ?_⟩
  · simp only [close, hclose]
    rfl
  · simp only [release, close, hclose]
  · have hplace := (hthrough.trans hthrough₁).contentAt ho hnamed (by rw [hthrough₁.stream.fd]; exact ho₁)
    have hsame : sys'.contentAt place = c₁.system.contentAt place := by
      simp only [System.contentAt, System.lookup, hdrops.names, hdrops.device]
    rw [hsame, hplace, hcontent]

/-- A handle on a regular file that never fails is told from the plain file by nothing: whatever its
mode and its buffering and however far files can reach, every run of calls is answered as the plain file
answers it, a position or a failure included, and the file has the bytes of the plain file once the handle
is closed or let go of. -/
theorem refines_plainFile {before : System} {path data : Bytes} {text : String} {mode : OpenMode}
    {buffering : Option Int} {place : List Name} {calls : List Call}
    (hpath : path.contains 0 = false) (htext : (toBytes text).contains 0 = false)
    (hmode : OpenMode.parse? OpenMode.pathReach (toBytes text) = some mode)
    (hplain : OpenMode.charset? (toBytes text) = none) (hx : mode.exclusive = false) (hb : Accepts buffering)
    (hleads : before.Leads mode path place data)
    (hadmits : PlainFile.AdmitsAll ⟨mode.opens data, mode.begins data⟩ before.largestOffset mode none calls) :
    ∃ sys h sys' h' sys'', openPath before path text buffering = (sys, .ok h) ∧
      h.run sys (calls.map .call) = (h', sys', (PlainFile.callAll ⟨mode.opens data, mode.begins data⟩
        before.largestOffset mode.appends calls).2) ∧
      h'.close sys' = ⟨{ h' with stream := none }, sys'', .ok ()⟩ ∧ h'.release sys' = sys'' ∧
      sys''.contentAt place = some (.regular (PlainFile.callAll ⟨mode.opens data, mode.begins data⟩
        before.largestOffset mode.appends calls).1.contents) := by
  obtain ⟨sys, t, d, dev, hopen, hfresh, hhas, ho, hnamed, -, -, -, -, hlimit, hstands⟩ :=
    openPath_stands hpath htext hmode hplain hx hb hleads
  rw [← hlimit] at hadmits ⊢
  obtain ⟨c, sys', -, -, -, hrun, hclose, hrelease, hend⟩ :=
    run_stands (h := ⟨Text.lossy path, text, some t⟩) rfl hstands hhas hfresh.pending ho hnamed hadmits
  exact ⟨sys, _, c.system, _, sys', hopen, hrun, hclose, hrelease, hend⟩

/-- An update of a short file that leaves a gap behind its end, line buffered. -/
theorem update_refines_plainFile :
    ∃ sys h sys' h' sys'',
      openPath (System.fresh.addFile (toBytes "t") [97, 10, 98]) (toBytes "t") "r+" (some 1) =
        (sys, .ok h) ∧
      h.run sys ([.write [99], .seek (.current 1), .read none, .seek (.finish 1), .write [100, 10],
          .tell].map .call) =
        (h', sys', [.answer (.count 1), .answer (.count 2), .answer (.bytes [98]), .answer (.count 4),
          .answer (.count 2), .answer (.count 6)]) ∧
      h'.close sys' = ⟨{ h' with stream := none }, sys'', .ok ()⟩ ∧ h'.release sys' = sys'' ∧
      sys''.contentAt [toBytes "home", toBytes "t"] = some (.regular [99, 10, 98, 0, 100, 10]) := by
  have hleads : (System.fresh.addFile (toBytes "t") [97, 10, 98]).Leads
      ⟨true, true, false, false, false, false⟩ (toBytes "t") [toBytes "home", toBytes "t"] [97, 10, 98] :=
    @System.Leads.there _ _ _ _ 6 { content := .regular [97, 10, 98] } _ rfl rfl rfl rfl nofun (by decide)
  have hadmits : PlainFile.AdmitsAll ⟨[97, 10, 98], 0⟩ 0xFFFFFFFF000
      ⟨true, true, false, false, false, false⟩ none
      [.write [99], .seek (.current 1), .read none, .seek (.finish 1), .write [100, 10], .tell] := by
    refine ⟨⟨rfl, by decide, nofun⟩, ?_, ⟨rfl, rfl, by decide⟩, ?_, ⟨rfl, by decide, nofun⟩, trivial, trivial⟩
    all_goals
      intro parts hparts
      cases hparts
      exact ⟨⟨by decide, by decide⟩, fun _ _ => by decide⟩
  have hcalls : PlainFile.callAll ⟨OpenMode.opens ⟨true, true, false, false, false, false⟩ [97, 10, 98],
      OpenMode.begins ⟨true, true, false, false, false, false⟩ [97, 10, 98]⟩ 0xFFFFFFFF000 false
      [.write [99], .seek (.current 1), .read none, .seek (.finish 1), .write [100, 10], .tell] =
        (⟨[99, 10, 98, 0, 100, 10], 6⟩, [.answer (.count 1), .answer (.count 2), .answer (.bytes [98]),
          .answer (.count 4), .answer (.count 2), .answer (.count 6)]) := by decide +kernel
  have hmode : OpenMode.parse? OpenMode.pathReach (toBytes "r+") =
      some ⟨true, true, false, false, false, false⟩ := by decide
  have hb : Accepts (some 1) := fun _ h => ⟨.lineBuffered, by cases h; rfl⟩
  have hrun := refines_plainFile (by decide) (by decide) hmode (by decide) rfl hb hleads hadmits
  have hlimit : (System.fresh.addFile (toBytes "t") [97, 10, 98]).largestOffset = 0xFFFFFFFF000 := rfl
  rw [hlimit, hcalls] at hrun
  exact hrun

/-- The replies to calls on a path that is opened for them. -/
def repliesAt (before : System) (path : Bytes) (text : String) (buffering : Option Int) (calls : List Call) :
    List Reply :=
  match openPath before path text buffering with
  | (sys, .ok h) => (h.run sys (calls.map .call)).2.2
  | (_, .error e) => [.refused e]

def shortFile : System := System.fresh.addFile (toBytes "t") [97]

/-- The file where files reach as far as offsets do. -/
def farFile : System := { shortFile with largestOffset := largestPosition, addressable := Nat.le_refl _ }

/-- No handle stands for a plain file without an end. A move past what an offset can be is refused. Near there a
read is refused, and only if it has to fill a buffer, so that the buffering can be told; and so are bytes that are
appended. Where files end before that a move past their end is refused, but a stream for input is left at the block
boundary before it, and bytes past the end are refused. -/
theorem endless_plainFile_not_refined :
    (¬ ∀ n, repliesAt shortFile (toBytes "t") "r" none [.seek (.start n)] = [.answer (.count n)]) ∧
    (¬ ∀ buffering other calls, Accepts buffering → Accepts other →
      repliesAt farFile (toBytes "t") "r" buffering calls = repliesAt farFile (toBytes "t") "r" other calls) ∧
    repliesAt farFile (toBytes "t") "a+" (some 0) [.seek (.start 0x7FFFFFFFFFFFFFFF), .write [98]] =
      [.answer (.count 0x7FFFFFFFFFFFFFFF), .refused (.stream (.ofErrno "fwrite" .invalidArgument))] ∧
    repliesAt shortFile (toBytes "t") "r" none [.seek (.start 0xFFFFFFFF00A), .tell, .read none] =
      [PlainFile.unreachable, .answer (.count 0xFFFFFFFF000), .answer (.bytes [])] ∧
    repliesAt shortFile (toBytes "t") "r+" (some 0) [.seek (.start 0xFFFFFFFF000), .write [98]] =
      [.answer (.count 0xFFFFFFFF000), .refused (.stream (.ofErrno "fwrite" .fileTooLarge))] := by
  have hpast : repliesAt shortFile (toBytes "t") "r" none [.seek (.start 0x8000000000000000)] =
      [PlainFile.unreachable] := rfl
  have hbuffered : repliesAt farFile (toBytes "t") "r" none [.seek (.start 0x7FFFFFFFFFFFF05F), .read (some 127)] =
      [.answer (.count 0x7FFFFFFFFFFFF05F), .refused (.stream (.ofErrno "fread" .invalidArgument))] := rfl
  have hbare : repliesAt farFile (toBytes "t") "r" (some 0) [.seek (.start 0x7FFFFFFFFFFFF05F), .read (some 127)] =
      [.answer (.count 0x7FFFFFFFFFFFF05F), .answer (.bytes [])] := rfl
  have hunbuffered : Accepts (some 0) := fun _ h => ⟨.unbuffered, by cases h; rfl⟩
  refine ⟨fun h => ?_, fun h => ?_, rfl, rfl, rfl⟩
  · exact absurd (hpast.symm.trans (h 0x8000000000000000)) (by decide)
  · exact absurd (hbuffered.symm.trans ((h none (some 0) _ accepts_none hunbuffered).trans hbare)) (by decide)

end Handle

end BufferedFiles
