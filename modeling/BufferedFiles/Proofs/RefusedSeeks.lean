import BufferedFiles.Proofs.PipeOperations

/-!
# Refused seeks

A seek goes exactly to the offsets that are there, and is refused for every other one and on every pipe. What is
seen of the stream after a refused seek, by replies, by a close and on its device, is what would have been seen
without it, with three exceptions. A later operation may throw output away that the refused seek had handed on
already, or report the last error there was before it, which the refused seek has replaced. And a seek for less than
a block past the last offset leaves the device of a stream for input at the last block boundary.
-/
namespace BufferedFiles

/-- What a device shows: the bytes of a file, and of anything else what it was given. -/
def Device.shown (dev : Device) : Bytes :=
  match dev.content with
  | .regular data => data
  | _ => dev.received

theorem Device.shown_of_irregular {dev : Device} (h : dev.content.isRegular = false) :
    dev.shown = dev.received := by
  cases hc : dev.content with
  | regular data =>
    rw [hc] at h
    cases h
  | _ => simp only [shown, hc]

namespace Connection

variable {c c' : Connection} {d : Descriptor} {dev : Device} {f : PlainFile} {op : Operation} {ops : List Operation}

/-- The replies to operations, one after the other. -/
def replies (c : Connection) : List Operation → List Reply
  | [] => []
  | op :: ops => (c.operate op).2 :: (c.operate op).1.replies ops

/-- The number of the device behind the descriptor. -/
def deviceNumber (c : Connection) : Option Nat := (c.system.descriptor? c.stream.fd).map Descriptor.device

/-- What is seen of a stream that is closed: the result of that, and what its device shows then. -/
def parting (c : Connection) : Except StreamError Unit × Option Bytes :=
  (c.close.2, c.deviceNumber.bind fun i => (c.close.1.device? i).map Device.shown)

/-- What is seen of a stream from now on: the replies to operations, and what is seen when it is closed after
them. -/
def future (c : Connection) (ops : List Operation) : List Reply × Except StreamError Unit × Option Bytes :=
  (c.replies ops, (c.operateAll ops).parting)

/-- No operation wastes anything or goes to the limits, and none reports the last error there was before it. -/
def Unspoiled (c : Connection) : List Operation → Prop
  | [] => True
  | op :: ops => op.Fits ∧ ¬ c.Wastes op ∧ ¬ c.Exceeds op ∧ ¬ c.BorrowsBy op ∧ (c.operate op).1.Unspoiled ops

theorem Through.deviceNumber (h : c.Through c') (ho : c.system.opened? c.stream.fd = some (d, dev)) :
    c'.deviceNumber = some d.device := by
  obtain ⟨p, dev', ho', -⟩ := h.opened ho
  simp only [Connection.deviceNumber, (System.opened?_eq_some.1 ho').1, Option.map_some]

/-- Two streams on one device that stand for the same: the same file, the same bytes given to a pipe, or the same
bytes to come out of one. -/
inductive Alike (c c' : Connection) : Prop
  | file {f : PlainFile} : c.OnFile f → c'.OnFile f → c'.stream.purpose = c.stream.purpose →
      c'.system.largestOffset = c.system.largestOffset → c'.deviceNumber = c.deviceNumber → Alike c c'
  | given {out : Bytes} : c.PipesOut out → c'.PipesOut out → c'.deviceNumber = c.deviceNumber → Alike c c'
  | taken : c.PipesIn → c.Shadows c' → Alike c c'

theorem OnFile.opened (h : c.OnFile f) : ∃ d dev, c.system.opened? c.stream.fd = some (d, dev) := by
  obtain ⟨⟨d, dev, hon⟩, -⟩ := h.stands.ready
  exact ⟨d, dev, hon.opened⟩

theorem deviceNumber_operate (ho : c.system.opened? c.stream.fd = some (d, dev)) (hop : op.Fits) :
    (c.operate op).1.deviceNumber = c.deviceNumber := by
  rw [(through_operate c hop).deviceNumber ho, (Through.refl c).deviceNumber ho]

/-- One operation. -/
theorem Alike.operate (h : Alike c c') (hop : op.Fits) (hkeep : ¬ c.Wastes op) (hkeep' : ¬ c'.Wastes op)
    (hin : ¬ c.Exceeds op) (hin' : ¬ c'.Exceeds op) (hown : ¬ c'.BorrowsBy op) :
    (c'.operate op).2 = (c.operate op).2 ∧ Alike (c.operate op).1 (c'.operate op).1 := by
  cases h with
  | file h h' hpurpose hlimit hnumber =>
    obtain ⟨d, dev, ho⟩ := h.opened
    obtain ⟨d', dev', ho'⟩ := h'.opened
    have hn := deviceNumber_operate ho hop
    have hn' := deviceNumber_operate ho' hop
    have hk := through_operate c hop
    have hk' := through_operate c' hop
    obtain ⟨q, e, hq⟩ := h.operate hop hkeep hin
    obtain ⟨q', e', hq'⟩ := h'.operate hop hkeep' hin'
    rw [e] at hn hk
    rw [e'] at hn' hk'
    rw [hpurpose, hlimit] at hq' e'
    rw [e, e']
    exact ⟨rfl, .file hq hq' (by rw [hk.stream.purpose, hk'.stream.purpose, hpurpose])
      (by rw [hk.system.largestOffset, hk'.system.largestOffset, hlimit]) (by rw [hn, hn', hnumber])⟩
  | given h h' hnumber =>
    obtain ⟨d, dev, ho, -⟩ := h.placeless.pipe
    obtain ⟨d', dev', ho', -⟩ := h'.placeless.pipe
    have hn := deviceNumber_operate ho hop
    have hn' := deviceNumber_operate ho' hop
    obtain ⟨q, e, hq⟩ := h.operate hop hkeep
    obtain ⟨q', e', hq'⟩ := h'.operate hop hkeep'
    rw [e] at hn
    rw [e'] at hn'
    rw [e, e']
    exact ⟨rfl, .given hq hq' (by rw [hn, hn', hnumber])⟩
  | taken h hshadow =>
    obtain ⟨hreply, hnext⟩ := hshadow.operate h hop hown
    exact ⟨hreply, .taken (h.operate hop) hnext⟩

/-- A stream on a file hands on what is pending when it is closed. -/
theorem OnFile.parting (h : c.OnFile f) : c.parting = (.ok (), some f.contents) := by
  rcases e : c.close with ⟨sys, result⟩
  obtain ⟨rfl, c₁, d₁, dev₁, ho₁, hthrough, hdrops, hcontent⟩ := close_stands h.stands h.drains e
  obtain ⟨d, dev, ho⟩ := h.opened
  obtain ⟨p, dev', ho', -⟩ := hthrough.opened ho
  rw [hthrough.stream.fd, ho₁] at ho'
  cases ho'
  have hdevice : sys.device? d.device = some dev₁ :=
    (hdrops.device d.device).trans (System.opened?_eq_some.1 ho₁).2
  simp only [Connection.parting, e, (Through.refl c).deviceNumber ho, Option.bind_some, hdevice, Option.map_some,
    Device.shown, hcontent]

/-- A pipe has been given everything when the stream that puts bytes into it is closed. -/
theorem PipesOut.parting {out : Bytes} (h : c.PipesOut out) : c.parting = (.ok (), some out) := by
  rcases e : c.close with ⟨sys, result⟩
  obtain ⟨c₁, d₁, dev₁, hon₁, hthrough, hdrops, ⟨rfl, hl, hpend⟩ | ⟨-, hne, hno⟩⟩ := close_spec h.ready e
  · obtain ⟨d, dev, ho, hpipe⟩ := h.placeless.pipe
    obtain ⟨p, dev', ho', hb⟩ := hthrough.opened ho
    rw [hon₁.opened] at ho'
    cases ho'
    have hpipe' := Content.isRegular_of_immobile (hb.kind.isMobile.trans hpipe)
    have hdevice : sys.device? d.device = some dev₁ :=
      (hdrops.device d.device).trans (System.opened?_eq_some.1 hon₁.opened).2
    have hout : dev₁.received = out := by
      have hreceived := account_received hon₁.opened
      rw [hl.account, Account.lay_nil, h.received, hpend, List.append_nil] at hreceived
      exact hreceived.symm
    simp only [Connection.parting, e, (Through.refl c).deviceNumber ho, Option.bind_some, hdevice, Option.map_some,
      Device.shown_of_irregular hpipe', hout]
  · exact absurd (h.drains.resolve_left hne) hno

/-- A stream that is not in the middle of output is closed without another look at its device. -/
theorem parting_idle (hw : c.stream.writing = false) (ho : c.system.opened? c.stream.fd = some (d, dev)) :
    c.parting = (.ok (), some dev.shown) := by
  obtain ⟨hdesc, hdevice⟩ := System.opened?_eq_some.1 ho
  have hclose : c.close.2 = .ok () ∧ c.close.1.device? d.device = some dev := by
    simp only [Connection.close, finish, hw, Bool.false_eq_true, if_false, System.close, hdesc]
    exact ⟨rfl, hdevice⟩
  simp only [Connection.parting, hclose, (Through.refl c).deviceNumber ho, Option.bind_some, Option.map_some]

theorem Alike.parting (h : Alike c c') : c'.parting = c.parting := by
  cases h with
  | file h h' => rw [h.parting, h'.parting]
  | given h h' => rw [h.parting, h'.parting]
  | taken h hshadow =>
    obtain ⟨d, dev, ho, -⟩ := h.placeless.pipe
    have hw := h.sided.output h.direction.2
    have hkeep : c'.stream.fd = c.stream.fd ∧ c'.stream.writing = false := by
      rcases hshadow.stream with e | e <;> rw [e]
      · exact ⟨rfl, hw⟩
      · rw [h.placeless.allocate]
        exact ⟨rfl, hw⟩
    have ho' : c'.system.opened? c'.stream.fd = some (d, dev) := by
      rw [hkeep.1, hshadow.same.opened, ho]
    rw [parting_idle hw ho, parting_idle hkeep.2 ho']

/-- Streams that are alike are not told apart by anything that is not spoiled. -/
theorem Alike.future (h : Alike c c') (hkeep : c.Unspoiled ops) (hkeep' : c'.Unspoiled ops) :
    c'.future ops = c.future ops := by
  induction ops generalizing c c' with
  | nil => exact congrArg (Prod.mk []) h.parting
  | cons op ops ih =>
    obtain ⟨hop, hwaste, hin, -, hrest⟩ := hkeep
    obtain ⟨-, hwaste', hin', hown', hrest'⟩ := hkeep'
    obtain ⟨hreply, hnext⟩ := h.operate hop hwaste hwaste' hin hin' hown'
    have hlater := ih hnext hrest hrest'
    simp only [Connection.future, Prod.mk.injEq] at hlater
    simp only [Connection.future, replies, operateAll, hreply, hlater]

/-- A stream in one of the states that are reached on files and pipes. -/
inductive Steady (c : Connection) : Prop
  | file {f : PlainFile} : c.OnFile f → Steady c
  | given {out : Bytes} : c.PipesOut out → Steady c
  | taken : c.PipesIn → Steady c

theorem Steady.operate (h : c.Steady) (hop : op.Fits) (hkeep : ¬ c.Strays op) (hin : ¬ c.Exceeds op) :
    (c.operate op).1.Steady := by
  cases h with
  | file h => exact (h.remains hop hkeep hin).elim fun _ => .file
  | given h => exact (h.remains hop hkeep).elim fun _ => .given
  | taken h => exact .taken (h.operate hop)

theorem Steady.tell (h : c.Steady) (hf : c.account.file = some f) : c.tell.2 = .ok f.position := by
  cases h with
  | @file g h =>
    obtain rfl : g = f := Option.some.inj (h.stands.file.symm.trans hf)
    exact (tell_stands h.stands rfl).2.2.1
  | given h => cases h.placeless.file.symm.trans hf
  | taken h => cases h.placeless.file.symm.trans hf

/-- A move that is asked for in vain: it is refused with the failure that is meant for it, and leaves a stream that
is like the one before, unless the target overreaches. -/
structure Refuses (c : Connection) (target : Target) : Prop where
  outside : ∀ f, c.account.file = some f → ¬ InReach c.system.largestOffset (f.aim target)
  result : (c.seek target).2 = .error (.ofErrno "fseeko"
    (if c.account.file.isSome ∨ target.parts? = none then .invalidArgument else .notSeekable))
  alike : ¬ c.Exceeds (.seek target) → Alike c (c.seek target).1

/-- A move out of reach is refused, also where the target overreaches. -/
theorem OnFile.seek_refused {target : Target} (h : c.OnFile f) (hfits : target.Fits)
    (hout : ¬ InReach c.system.largestOffset (f.aim target)) :
    (c.seek target).2 = .error (.ofErrno "fseeko" .invalidArgument) := by
  unfold Connection.seek
  split
  · rfl
  rename_i origin offset hparts
  rcases hmove : c.move origin offset with ⟨c₁, ok⟩
  rw [← f.base_add hparts] at hout
  obtain ⟨-, hrefused⟩ :=
    move_regular h.stands.ready h.stands.file h.stands.appending (hfits.isOffset hparts) h.drains hmove
  obtain ⟨rfl, herror, -⟩ := hrefused hout
  simp only [failure, herror]
  rfl

/-- A file is moved to the place within reach, or not at all. -/
theorem OnFile.seek {target : Target} (h : c.OnFile f) (hfits : target.Fits) :
    (InReach c.system.largestOffset (f.aim target) ∧ (c.seek target).2 = .ok (f.aim target).toNat) ∨
      c.Refuses target := by
  have hfile := h.stands.file
  obtain ⟨d, dev, ho⟩ := h.opened
  have hthrough := through_seek c target
  have hserves : ¬ c.Overreaches (f.aim target) →
      (c.seek target).1.OnFile (f.goTo c.system.largestOffset (f.aim target)).1 ∧
        Reply.ofStream .count (c.seek target).2 = (f.goTo c.system.largestOffset (f.aim target)).2 := by
    intro hnear
    obtain ⟨c', e, h'⟩ := h.serves_seek hfits hnear
    rcases hseek : c.seek target with ⟨c₁, result⟩
    rw [Connection.operate, hseek] at e
    obtain ⟨rfl, hreply⟩ := Prod.mk.inj e
    exact ⟨h', hreply⟩
  by_cases hin : InReach c.system.largestOffset (f.aim target)
  · obtain ⟨-, hreply⟩ := hserves fun hover => hover.2.1 hin
    rw [PlainFile.goTo, if_pos hin] at hreply
    refine .inl ⟨hin, ?_⟩
    cases hresult : (c.seek target).2 with
    | ok n =>
      rw [hresult] at hreply
      cases hreply
      rfl
    | error e =>
      rw [hresult] at hreply
      cases hreply
  · refine .inr ⟨fun g hg => ?_, ?_, fun hnear => ?_⟩
    · rw [hfile] at hg
      cases hg
      exact hin
    · rw [h.seek_refused hfits hin, hfile, if_pos (.inl rfl)]
    · obtain ⟨h', -⟩ := hserves fun hover => hnear ⟨f, hfile, hover⟩
      rw [PlainFile.goTo, if_neg hin] at h'
      refine .file h h' hthrough.stream.purpose hthrough.system.largestOffset ?_
      rw [hthrough.deviceNumber ho, (Through.refl c).deviceNumber ho]

/-- A pipe is not moved. -/
theorem Placeless.refuses {target : Target} (h : c.Placeless)
    (e : c.seek target = (c', .error (Operation.immovable target))) (halike : Alike c c') : c.Refuses target := by
  have hfile := h.file
  refine ⟨fun f hf => ?_, ?_, fun _ => by rwa [e]⟩
  · rw [hfile] at hf
    cases hf
  · rw [e, hfile, Operation.immovable]
    simp only [Option.isSome_none, Bool.false_eq_true, false_or]

/-- A seek goes to the exact place, or is refused and leaves a stream that is like the one before. -/
theorem Steady.seek {target : Target} (h : c.Steady) (hfits : target.Fits) :
    (∃ f, c.account.file = some f ∧ InReach c.system.largestOffset (f.aim target) ∧
        (c.seek target).2 = .ok (f.aim target).toNat) ∨
      c.Refuses target := by
  cases h with
  | @file f h => exact (h.seek hfits).imp_left fun hwent => ⟨f, h.stands.file, hwent⟩
  | given h =>
    obtain ⟨c', e, h'⟩ := h.seek target
    obtain ⟨d, dev, ho, -⟩ := h.placeless.pipe
    have hthrough := (through_seek c target).of_eq e
    refine .inr (h.placeless.refuses e (.given h h' ?_))
    rw [hthrough.deviceNumber ho, (Through.refl c).deviceNumber ho]
  | taken h =>
    obtain ⟨c', e, hshadow⟩ := h.seek target
    exact .inr (h.placeless.refuses e (.taken h hshadow))

end Connection

/-- `b` is `a` after others were at work. They left the descriptor alone and what it leads to; but a pipe may have
been filled or emptied, and its other ends opened or closed. -/
structure System.Attended (fd : Nat) (a b : System) : Prop where
  largestOffset : b.largestOffset = a.largestOffset
  opened : ∀ d dev, a.opened? fd = some (d, dev) → ∃ dev', b.opened? fd = some (d, dev') ∧
    (dev' = dev ∨ dev.content.isMobile = false ∧ dev'.content.isMobile = false)

/-- What a stream is for agrees with what it is in front of: a file that never fails and is within a limit, or one
end of a pipe. -/
inductive Stream.Suits (s : Stream) (limit : Nat) (d : Descriptor) (dev : Device) : Prop
  | file {data : Bytes} : dev.content = .regular data → dev.Reliable → PlainFile.Within ⟨data, d.position⟩ limit →
      d.appending = s.appends → (s.reads = true → d.readable = true) → (s.writes = true → d.writable = true) →
      Suits s limit d dev
  | source : dev.content.isMobile = false → s.reads = true → s.writes = false → Suits s limit d dev
  | sink : dev.content.isMobile = false → s.reads = false → s.writes = true → Suits s limit d dev

namespace Connection

variable {c : Connection} {f : PlainFile} {b : System}

theorem OnFile.attended (h : c.OnFile f) (hb : System.Attended c.stream.fd c.system b) :
    (⟨c.stream, b⟩ : Connection).OnFile f := by
  obtain ⟨⟨⟨d, dev, hon⟩, halign⟩, hcalm, hfile, happ, hin, hbuffer, hquiet, hended, hdevice⟩ := h.stands
  obtain ⟨dev', ho, rfl | ⟨hpipe, -⟩⟩ := hb.opened d dev hon.opened
  · have hsame : b.opened? c.stream.fd = c.system.opened? c.stream.fd := ho.trans hon.opened.symm
    have haccount : (⟨c.stream, b⟩ : Connection).account = c.account := by
      simp only [account, standing, hsame]
    have hon' : (⟨c.stream, b⟩ : Connection).On d dev' :=
      ⟨⟨ho, hon.appending, by rw [hb.largestOffset]; exact hon.within⟩, hon.fits⟩
    refine ⟨⟨⟨⟨d, dev', hon'⟩, halign.imp_right fun hp d₀ dev₀ ho₀ => hp d₀ dev₀ (hsame.symm.trans ho₀)⟩, hcalm,
      haccount ▸ hfile, haccount ▸ happ, by rw [hb.largestOffset]; exact hin, hbuffer, hquiet, hended,
      fun d₀ dev₀ ho₀ => hdevice d₀ dev₀ (hsame.symm.trans ho₀)⟩, h.drains.imp_right fun hw => ?_, h.sided⟩
    obtain ⟨hwritable, hr, hroom, hextent⟩ := (willing_file hon.opened hfile).1 hw
    refine (willing_file hon'.opened (haccount ▸ hfile)).2 ⟨hwritable, hr, ?_, fun hyes => ?_⟩
    · rw [hb.largestOffset]
      exact hroom
    · have hkept : (⟨c.stream, b⟩ : Connection).extent = c.extent := by simp only [extent, hsame]
      rw [hkept]
      exact hextent hyes
  · exact Bool.noConfusion ((isRegular_of_file hon.opened hfile).symm.trans (Content.isRegular_of_immobile hpipe))

theorem Placeless.attended (h : c.Placeless) (hb : System.Attended c.stream.fd c.system b) :
    (⟨c.stream, b⟩ : Connection).Placeless := by
  obtain ⟨d, dev, ho, hpipe⟩ := h.pipe
  obtain ⟨dev', ho', rfl | ⟨-, hpipe'⟩⟩ := hb.opened d dev ho
  · exact ⟨h.offset, d, dev', ho', hpipe⟩
  · exact ⟨h.offset, d, dev', ho', hpipe'⟩

theorem PipesOut.attended {out : Bytes} (h : c.PipesOut out) (hb : System.Attended c.stream.fd c.system b)
    (hdrains : c.stream.pending = [] ∨ (⟨c.stream, b⟩ : Connection).Willing 0) :
    (⟨c.stream, b⟩ : Connection).PipesOut (⟨c.stream, b⟩ : Connection).account.received := by
  obtain ⟨⟨d, dev, hon⟩, -⟩ := h.ready
  have hplace := h.placeless.attended hb
  obtain ⟨d', dev', ho', hpipe'⟩ := hplace.pipe
  have hd : d' = d := by
    obtain ⟨dev₁, ho₁, -⟩ := hb.opened d dev hon.opened
    have ho' : b.opened? c.stream.fd = some (d', dev') := ho'
    rw [ho₁] at ho'
    cases ho'
    rfl
  subst hd
  have hirregular := Content.isRegular_of_immobile hpipe'
  have hfits : c.stream.Fits d' dev'.content :=
    { cursor := hon.fits.cursor
      window := hon.fits.window
      input := hon.fits.input
      covers := .inr (Content.covers_immobile hpipe' _ _)
      offset := fun p _ hreg => Bool.noConfusion (hirregular.symm.trans hreg) }
  have hon' : (⟨c.stream, b⟩ : Connection).On d' dev' :=
    ⟨⟨ho', hon.appending, fun hreg => Bool.noConfusion (hirregular.symm.trans hreg)⟩, hfits⟩
  exact ⟨⟨⟨d', dev', hon'⟩, .inl (h.sided.input h.direction.1)⟩, hplace, h.direction, h.sided, h.quiet, hdrains, rfl⟩

theorem Steady.attended (h : c.Steady) (hb : System.Attended c.stream.fd c.system b)
    (hdrains : c.stream.pending = [] ∨ (⟨c.stream, b⟩ : Connection).Willing 0) :
    (⟨c.stream, b⟩ : Connection).Steady := by
  cases h with
  | file h => exact .file (h.attended hb)
  | given h => exact .given (h.attended hb hdrains)
  | taken h => exact .taken ⟨h.placeless.attended hb, h.direction, h.sided, h.untouched⟩

end Connection

/-- A stream that was not used yet is steady on what it suits. -/
theorem Stream.Fresh.steady {s : Stream} {sys : System} {d : Descriptor} {dev : Device} (hs : s.Fresh)
    (ho : sys.opened? s.fd = some (d, dev)) (happ : s.appends = true → d.appending = true)
    (hsuits : s.Suits sys.largestOffset d dev) :
    Connection.Steady ⟨s, sys⟩ := by
  have hsigns := hs.signs
  simp only [Stream.signs, Prod.mk.injEq] at hsigns
  obtain ⟨hfailed, hend, hheld⟩ := hsigns
  have hsided : s.Sided := ⟨fun _ => hs.window, fun _ => hend, fun _ => hs.writing⟩
  cases hsuits with
  | file hreg hr hin happ hreads hwrites =>
    exact .file ⟨hs.stands ho happ hreads hwrites hreg hr hin, .inl hs.pending, hsided⟩
  | source hpipe hreads hwrites =>
    exact .taken ⟨⟨hs.offset, d, dev, ho, hpipe⟩, ⟨hreads, hwrites⟩, hsided, fun _ => hs⟩
  | sink hpipe hreads hwrites =>
    obtain ⟨hready, -, -⟩ := hs.ready ho happ fun hreg =>
      Bool.noConfusion ((Content.isRegular_of_immobile hpipe).symm.trans hreg)
    exact .given ⟨hready, ⟨hs.offset, d, dev, ho, hpipe⟩, ⟨hreads, hwrites⟩, hsided, ⟨hfailed, hheld⟩,
      .inl hs.pending, rfl⟩

namespace Handle

variable {sys : System} {h : Handle}

/-- The states of a handle on a file or a pipe that takes what is written. Between the operations others may be at
work, as long as a pipe still takes what is pending. -/
inductive Live : System → Handle → Prop
  | made {sys : System} {h : Handle} {s : Stream} {d : Descriptor} {dev : Device} :
      Made sys h → h.stream = some s → sys.opened? s.fd = some (d, dev) →
      s.Suits sys.largestOffset d dev → Live sys h
  | operated {sys : System} {h : Handle} {s : Stream} {op : Operation} :
      Live sys h → h.stream = some s → op.Fits → ¬ Connection.Strays ⟨s, sys⟩ op →
      ¬ Connection.Exceeds ⟨s, sys⟩ op →
      Live (Connection.operate ⟨s, sys⟩ op).1.system
        { h with stream := some (Connection.operate ⟨s, sys⟩ op).1.stream }
  | meanwhile {before sys : System} {h : Handle} {s : Stream} :
      Live before h → h.stream = some s → System.Attended s.fd before sys →
      (s.pending = [] ∨ Connection.Willing ⟨s, sys⟩ 0) → Live sys h

theorem Live.steady (hl : Live sys h) : ∃ s, h.stream = some s ∧ Connection.Steady ⟨s, sys⟩ := by
  induction hl with
  | made hm hs ho hsuits =>
    obtain ⟨t, ht, hfresh, happ⟩ := hm.stream
    rw [hs] at ht
    cases ht
    exact ⟨_, hs, hfresh.steady ho (happ _ _ ho) hsuits⟩
  | @operated sys h s op _ hs hop hkeep hin ih =>
    obtain ⟨t, ht, hsteady⟩ := ih
    rw [hs] at ht
    cases ht
    exact ⟨_, rfl, hsteady.operate hop hkeep hin⟩
  | @meanwhile before sys h s _ hs hb hdrains ih =>
    obtain ⟨t, ht, hsteady⟩ := ih
    rw [hs] at ht
    cases ht
    exact ⟨s, hs, hsteady.attended hb hdrains⟩

/-- A seek succeeds exactly where the target is an offset of a file, and returns it. Everywhere else, and on every
pipe, it is refused, and then nothing tells the handle from one that was not asked: not a position, nor any later
reply, nor the result of a close, nor what is on the device then. What can bring it out are later operations that
waste what the seek had handed on, or report the last error there was before them; and a target less than a block
past the last offset, which moves the device of a stream for input. Input up to the last position there is is left
out, since it fails or not as the buffer has it. -/
theorem refused_seek_unseen (hl : Live sys h) {target : Target} (hfits : target.Fits) :
    ∃ s, h.stream = some s ∧
      (∀ f, h.file? sys = some f → (h.tell sys).result = .ok f.position) ∧
      (∀ n : Nat, (h.seek sys target).result = .ok n ↔
        ∃ f, h.file? sys = some f ∧ f.aim target = n ∧ n ≤ sys.largestOffset) ∧
      ∀ e, (h.seek sys target).result = .error e →
        e = .stream (.ofErrno "fseeko" (if (h.file? sys).isSome ∨ target.parts? = none then .invalidArgument
          else .notSeekable)) ∧
        ∃ s', (h.seek sys target).handle = { h with stream := some s' } ∧
          (¬ Connection.Exceeds ⟨s, sys⟩ (.seek target) → ∀ ops, Connection.Unspoiled ⟨s, sys⟩ ops →
            Connection.Unspoiled ⟨s', (h.seek sys target).system⟩ ops →
            Connection.future ⟨s', (h.seek sys target).system⟩ ops = Connection.future ⟨s, sys⟩ ops) := by
  obtain ⟨s, hs, hsteady⟩ := hl.steady
  have hfile : h.file? sys = (Connection.account ⟨s, sys⟩).file := by
    rw [file?, hs]
    rfl
  have htell : ∀ f, h.file? sys = some f → (h.tell sys).result = .ok f.position := by
    intro f hf
    rw [hfile] at hf
    have hposition := hsteady.tell hf
    simp only [tell, onStream, hs, hposition]
    rfl
  have hseek : h.seek sys target = ⟨{ h with stream := some (Connection.seek ⟨s, sys⟩ target).1.stream },
      (Connection.seek ⟨s, sys⟩ target).1.system, (Connection.seek ⟨s, sys⟩ target).2.mapError .stream⟩ := by
    simp only [seek, onStream, hs]
  refine ⟨s, hs, htell, ?_⟩
  rw [hfile, hseek]
  obtain ⟨f, hf, ⟨hnonneg, hbound⟩, hok⟩ | ⟨hout, hrefused, halike⟩ := hsteady.seek hfits
  · rw [hok]
    refine ⟨fun n => ⟨fun hn => ?_, ?_⟩, fun e he => by cases he⟩
    · cases hn
      have hbound : f.aim target ≤ sys.largestOffset := hbound
      exact ⟨f, hf, by omega, by omega⟩
    · rintro ⟨g, hg, haim, -⟩
      rw [hf] at hg
      cases hg
      rw [haim]
      rfl
  · rw [hrefused]
    refine ⟨fun n => ⟨fun hn => (by cases hn), ?_⟩, fun e he => ?_⟩
    · rintro ⟨g, hg, haim, hle⟩
      have hle : n ≤ sys.largestOffset := hle
      exact absurd (show Connection.InReach sys.largestOffset (g.aim target) from ⟨by omega, by omega⟩) (hout g hg)
    · cases he
      exact ⟨rfl, _, rfl, fun hnear ops => (halike hnear).future⟩

/-- A line was cut short at a pipe with nothing more in it yet, and then the writer went. A read at the end reports
what kept the line back, or, after a seek was refused, the failure of that. -/
theorem refused_seek_renames_failure :
    ∃ early cut sys h, early = (System.fresh.makePipe.1.write 1 [97, 98, 99]).1 ∧
      cut = (Connection.operate ⟨{ fd := 0, reads := true, writes := false, appends := false },
        { early with openStreams := 1 }⟩ (.readLine 5)).1 ∧
      sys = (cut.system.close 1).1 ∧ h = ⟨"p", "r", some cut.stream⟩ ∧ Live sys h ∧
      (h.seek sys (.current 0)).result = .error (.stream (.ofErrno "fseeko" .notSeekable)) ∧
      ∃ s', (h.seek sys (.current 0)).handle = { h with stream := some s' } ∧
        Connection.replies ⟨cut.stream, sys⟩ [.read 10] = [.refused (.stream (.ofErrno "fread" .wouldBlock))] ∧
        Connection.replies ⟨s', (h.seek sys (.current 0)).system⟩ [.read 10] =
          [.refused (.stream (.ofErrno "fread" .notSeekable))] ∧
        ¬ (Connection.Unspoiled ⟨cut.stream, sys⟩ [.read 10] ∧
          Connection.Unspoiled ⟨s', (h.seek sys (.current 0)).system⟩ [.read 10]) := by
  have hadopt : adopt (System.fresh.makePipe.1.write 1 [97, 98, 99]).1 0 "r" "p" none =
      ({ (System.fresh.makePipe.1.write 1 [97, 98, 99]).1 with openStreams := 1 },
        .ok ⟨"p", "r", some { fd := 0, reads := true, writes := false, appends := false }⟩) := rfl
  have hline : Operation.Fits (.readLine 5) := trivial
  have hfits : Target.Fits (.current 0) := ⟨by decide, by decide⟩
  have hmade := Live.made (made_adopt hadopt) rfl rfl (.source rfl rfl rfl)
  have hcut := hmade.operated rfl hline id (Connection.not_exceeds rfl _)
  refine ⟨_, _, _, _, rfl, rfl, rfl, rfl, ?_⟩
  refine (fun (hlive : Live _ _) => ⟨hlive, rfl, ?_⟩) ?_
  · refine hcut.meanwhile rfl ⟨rfl, fun d dev ho => ?_⟩ (.inl rfl)
    cases ho
    exact ⟨_, rfl, .inr ⟨rfl, rfl⟩⟩
  · obtain ⟨s, hs, -, -, hrefused⟩ := refused_seek_unseen hlive hfits
    cases hs
    obtain ⟨-, s', hs', hfuture⟩ := hrefused _ rfl
    cases hs'
    refine ⟨_, rfl, rfl, rfl, ?_⟩
    rintro ⟨hkeep, hkeep'⟩
    have hsame := congrArg Prod.fst (hfuture (Connection.not_exceeds rfl _) _ hkeep hkeep')
    revert hsame
    decide

end Handle

end BufferedFiles
