import BufferedFiles.Proofs.HandleRun

/-!
# Delivery

A handle that was asked for nothing but output, and that reported no failure up to its close, has
delivered every byte it accepted, in order. The one way to lose bytes without a report is a line that
is counted before it is handed on: the count is full, so the failure of the device is not looked at,
and the buffer is empty after it.
-/
namespace BufferedFiles

/-- The calls that read nothing and leave the handle open. -/
def Call.isOutput : Call → Bool
  | .write _ | .flush | .seek _ | .tell => true
  | .read _ | .readLine _ | .close => false

def Reply.isAnswer : Reply → Bool
  | .answer _ => true
  | _ => false

/-- The bytes a reply reports as taken. -/
def Call.taken : Call → Reply → Bytes
  | .write bytes, .answer (.count n) => bytes.take n
  | _, _ => []

/-- The bytes the replies to a run report as taken. -/
def accepted (calls : List Call) (replies : List Reply) : Bytes :=
  (List.zipWith Call.taken calls replies).flatten

theorem accepted_cons (call : Call) (reply : Reply) (calls : List Call) (replies : List Reply) :
    accepted (call :: calls) (reply :: replies) = call.taken reply ++ accepted calls replies := by
  simp only [accepted, List.zipWith_cons_cons, List.flatten_cons]

namespace Connection

variable {c c' : Connection} {call : Call} {calls : List Call}

/-- A call that takes bytes, counts all of them and loses some. -/
def SwallowsOn (c : Connection) : Call → Prop
  | .write bytes => c.Swallows bytes
  | _ => False

/-- A call of a run does so. -/
def SwallowsIn (c : Connection) : List Call → Prop
  | [] => False
  | call :: rest => c.SwallowsOn call ∨ (c.perform call).1.SwallowsIn rest

/-- `b` is `a` after `bytes` were counted. They are laid down, unless some of them were swallowed. -/
structure Delivers (a b : Connection) (bytes : Bytes) (swallowed : Prop) : Prop where
  through : a.Through b
  ready : b.Ready
  all : ¬ swallowed → b.account.received = a.account.received ++ bytes
  short : swallowed → b.account.received.length < a.account.received.length + bytes.length

variable {a b : Connection} {xs ys : Bytes} {p q : Prop}

theorem Delivers.refl (h : a.Ready) : a.Delivers a [] False :=
  ⟨.refl a, h, fun _ => (List.append_nil _).symm, False.elim⟩

theorem Delivers.length_le (h : a.Delivers b xs p) :
    b.account.received.length ≤ a.account.received.length + xs.length := by
  by_cases hp : p
  · exact Nat.le_of_lt (h.short hp)
  · exact Nat.le_of_eq (by rw [h.all hp, List.length_append])

theorem Delivers.trans (h : a.Delivers b xs p) (h' : b.Delivers c ys q) :
    a.Delivers c (xs ++ ys) (p ∨ q) where
  through := h.through.trans h'.through
  ready := h'.ready
  all hno := by
    rw [not_or] at hno
    rw [h'.all hno.2, h.all hno.1, List.append_assoc]
  short hyes := by
    have hle := h.length_le
    have hle' := h'.length_le
    rw [List.length_append]
    rcases hyes with hp | hq
    · have := h.short hp
      omega
    · have := h'.short hq
      omega

theorem Lays.delivers (h : a.Lays b xs) (hp : ¬ p) : a.Delivers b xs p where
  through := h.through
  ready := h.ready
  all _ := congrArg Account.received h.account
  short hyes := absurd hyes hp

/-- What one call for output leaves when it reports no failure. -/
private theorem perform_delivers {reply : Reply} (h : c.Ready) (hw : c.stream.writes = true)
    (hout : call.isOutput = true) (e : c.perform call = (c', reply)) (hok : reply.isAnswer = true) :
    c.Delivers c' (call.taken reply) (c.SwallowsOn call) := by
  cases call with
  | write bytes =>
    rcases hop : c.write bytes with ⟨c₁, r⟩
    simp only [perform, answered, hop, Prod.mk.injEq] at e
    obtain ⟨rfl, rfl⟩ := e
    by_cases hb : bytes = []
    · subst hb
      rw [write_nil] at hop
      cases hop
      exact (Lays.refl h).delivers fun hs => nomatch hs.2.2.2.1
    have hall : Call.taken (.write bytes) (Reply.ofStream .count (.ok bytes.length)) = bytes := by
      simp only [Reply.ofStream, Call.taken, List.take_length]
    rcases write_spec h hw hb hop with ⟨hquiet, rfl, hlays, -⟩ | ⟨-, ⟨er, rfl⟩, -⟩ |
      ⟨hs, rfl, hfails, hlost⟩
    · rw [hall]
      exact hlays.delivers hquiet
    · cases hok
    · rw [hall]
      exact ⟨hfails.through, hfails.ready, fun hquiet => absurd hs hquiet, fun _ => hlost⟩
  | flush =>
    rcases hop : c.flush with ⟨c₁, r⟩
    simp only [perform, answered, hop, Prod.mk.injEq] at e
    obtain ⟨rfl, rfl⟩ := e
    rcases flush_spec h hop with ⟨rfl, hlays, -, -⟩ | ⟨⟨er, rfl⟩, -, -⟩
    · exact hlays.delivers id
    · cases hok
  | seek target =>
    rcases hop : c.seek target with ⟨c₁, r⟩
    simp only [perform, answered, hop, Prod.mk.injEq] at e
    obtain ⟨rfl, rfl⟩ := e
    cases r with
    | error er => cases hok
    | ok n =>
      obtain ⟨hthrough, hready, hreceived⟩ := seek_ok h hop
      exact ⟨hthrough, hready, fun _ => hreceived.trans (List.append_nil _).symm, False.elim⟩
  | tell =>
    rcases hop : c.tell with ⟨c₁, r⟩
    simp only [perform, answered, hop, Prod.mk.injEq] at e
    obtain ⟨rfl, rfl⟩ := e
    obtain ⟨hlays, -, -⟩ := tell_spec h hop
    have hnone : Call.taken .tell (Reply.ofStream .count r) = [] := by cases r <;> rfl
    rw [hnone]
    exact hlays.delivers id
  | _ => cases hout

/-- What a run of calls for output leaves when none of them reports a failure. -/
theorem performAll_delivers {replies : List Reply} (h : c.Ready) (hw : c.stream.writes = true)
    (hout : ∀ call ∈ calls, call.isOutput = true) (e : c.performAll calls = (c', replies))
    (hok : ∀ reply ∈ replies, reply.isAnswer = true) :
    c.Delivers c' (accepted calls replies) (c.SwallowsIn calls) := by
  induction calls generalizing c replies with
  | nil =>
    cases e
    exact .refl h
  | cons call rest ih =>
    rcases hfirst : c.perform call with ⟨c₁, reply⟩
    rcases hrest : c₁.performAll rest with ⟨c₂, later⟩
    simp only [performAll, hfirst, hrest, Prod.mk.injEq] at e
    obtain ⟨rfl, rfl⟩ := e
    have h₁ := perform_delivers h hw (hout call List.mem_cons_self) hfirst (hok reply List.mem_cons_self)
    have h₂ := ih h₁.ready (h₁.through.stream.writes.trans hw)
      (fun call hc => hout call (List.mem_cons_of_mem _ hc)) hrest
      (fun reply hr => hok reply (List.mem_cons_of_mem _ hr))
    rw [accepted_cons, SwallowsIn, hfirst]
    exact h₁.trans h₂

end Connection

namespace Handle

/-- Some write of a run swallows bytes. -/
def SwallowsIn (h : Handle) (sys : System) (calls : List Call) : Prop :=
  ∃ s, h.stream = some s ∧ Connection.SwallowsIn ⟨s, sys⟩ calls

/-- A handle that puts out bytes and reports no failure up to its close has delivered what it
accepted, all of it and in order, if and only if no write swallowed any of it. This holds for every
device, also one that fails wherever its plan says so. -/
theorem delivers_iff_not_swallowsIn {sys sys' sys'' : System} {h h' h'' : Handle} {s : Stream}
    {d : Descriptor} {dev : Device} {calls : List Call} {replies : List Reply} (hm : Made sys h)
    (hs : h.stream = some s) (hw : s.writes = true) (ho : sys.opened? s.fd = some (d, dev))
    (hin : dev.content.Within d.position sys.largestOffset)
    (hout : ∀ call ∈ calls, call.isOutput = true)
    (hrun : h.run sys (calls.map .call) = (h', sys', replies))
    (hok : ∀ reply ∈ replies, reply.isAnswer = true)
    (hclose : h'.close sys' = ⟨h'', sys'', .ok ()⟩) :
    (∃ dev', sys''.device? d.device = some dev' ∧
      dev'.received = dev.received ++ accepted calls replies) ↔ ¬ h.SwallowsIn sys calls := by
  obtain ⟨s₀, hs₀, hfresh, happ⟩ := hm.stream
  rw [hs] at hs₀
  cases hs₀
  obtain ⟨hready, -, haccount⟩ := hfresh.ready ho (happ d dev ho) hin
  have hnoclose : Call.close ∉ calls := fun hc => by
    have := hout _ hc
    cases this
  rcases hall : Connection.performAll ⟨s, sys⟩ calls with ⟨c, answers⟩
  simp only [run_performAll hs hnoclose, hall, Prod.mk.injEq] at hrun
  obtain ⟨rfl, rfl, rfl⟩ := hrun
  obtain ⟨hthrough, hready', hquiet, hlost⟩ :=
    Connection.performAll_delivers hready hw hout hall hok
  rcases hend : Connection.close c with ⟨last, result⟩
  obtain ⟨c₁, d₁, dev₁, hon, hthrough₁, hdrops, hcase⟩ := Connection.close_spec hready' hend
  have hdev : last.device? d₁.device = some dev₁ :=
    (hdrops.device _).trans (System.opened?_eq_some.1 hon.opened).2
  simp only [close, hend, Outcome.mk.injEq] at hclose
  obtain ⟨-, rfl, hresult⟩ := hclose
  have hdelivered : c₁.account = c.account ∧ c₁.stream.pending = [] := by
    rcases hcase with ⟨-, hlays, hpend⟩ | ⟨hne, -, -⟩
    · exact ⟨by rw [hlays.account, Account.lay_nil], hpend⟩
    · cases result with
      | ok u => exact absurd rfl hne
      | error er => cases hresult
  have hreceived : dev₁.received = c.account.received := by
    rw [← hdelivered.1, Connection.account_of_drained hdelivered.2, Connection.standing_eq hon.opened]
    rfl
  have hsame : d₁.device = d.device := by
    obtain ⟨p, dev', ho', -⟩ := (hthrough.trans hthrough₁).opened ho
    rw [hon.opened] at ho'
    cases ho'
    rfl
  rw [hsame] at hdev
  have hstart : (⟨s, sys⟩ : Connection).account.received = dev.received := by
    rw [haccount]
    rfl
  have hiff : h.SwallowsIn sys calls ↔ Connection.SwallowsIn ⟨s, sys⟩ calls := by
    constructor
    · rintro ⟨t, ht, hswallow⟩
      rw [hs] at ht
      cases ht
      exact hswallow
    · exact fun hswallow => ⟨s, hs, hswallow⟩
  rw [hiff]
  constructor
  · rintro ⟨dev', hdev', hall'⟩ hswallow
    rw [hdev] at hdev'
    cases hdev'
    have hshort := hlost hswallow
    rw [← hreceived, hall', hstart, List.length_append] at hshort
    omega
  · intro hno
    exact ⟨dev₁, hdev, by rw [hreceived, hquiet hno, hstart]⟩

/-- A line on a device that is always full: both writes are counted, the close reports nothing, and
the device has received nothing. -/
theorem line_on_full_device_is_lost :
    ∃ sys h h' sys' h'' sys'',
      openPath .fresh (toBytes "/dev/full") "w" (some 1) = (sys, .ok h) ∧
      h.run sys ([.write [97], .write [10]].map .call) =
        (h', sys', [.answer (.count 1), .answer (.count 1)]) ∧
      h'.close sys' = ⟨h'', sys'', .ok ()⟩ ∧
      ¬ ∃ dev, sys''.device? 4 = some dev ∧ dev.received = [97, 10] := by
  have hopen : openPath .fresh (toBytes "/dev/full") "w" (some 1) =
      ((System.fresh.openStream (toBytes "/dev/full") (toBytes "w")).1,
        .ok ⟨Text.lossy (toBytes "/dev/full"), "w",
          some { fd := 0, reads := false, writes := true, appends := false, discipline := .line }⟩) := rfl
  have hout : ∀ call ∈ [Call.write [97], .write [10]], call.isOutput = true := by decide
  have hok : ∀ reply ∈ [Reply.answer (.count 1), .answer (.count 1)], reply.isAnswer = true := by decide
  generalize hs : (System.fresh.openStream (toBytes "/dev/full") (toBytes "w")).1 = sys at hopen
  have ho : sys.opened? 0 = some (⟨4, false, true, false, 0⟩, { content := .full }) := by rw [← hs]; rfl
  refine ⟨sys, _, _, _, _, _, hopen, by subst hs; rfl, by subst hs; rfl, ?_⟩
  have hiff := @delivers_iff_not_swallowsIn _ _ _ _ _ _ _ _ _ _ _ (made_openPath hopen) rfl rfl ho
    (fun hreg => by cases hreg) hout (by subst hs; rfl) hok (by subst hs; rfl)
  refine fun hall => hiff.1 hall ⟨_, rfl, .inr (.inl ?_)⟩
  subst hs
  exact ⟨rfl, rfl, by decide, rfl, rfl⟩

end Handle

end BufferedFiles
