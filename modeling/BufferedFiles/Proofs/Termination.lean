import BufferedFiles.Concat.Run
import BufferedFiles.Proofs.Places
import BufferedFiles.Proofs.Stock

/-!
# Copies end

A copy reads until a read gets nothing, and what it reads may be what it has written. But every round
takes something from the stock of its source, and no write adds to a stock: a file that grows has that
growth counted from the start, and a pipe the copy feeds itself is no source with an end. So the rounds
of every copy end, on every device, whether the transfers fail or not.
-/
namespace BufferedFiles

namespace System

variable {sys sys' : System} {i o j limit : Nat}

/-- Two open descriptors, of which one reads nothing from a pipe that the other is on. -/
structure Parted (sys : System) (i o : Nat) : Prop where
  fds : i ≠ o
  apart : ∃ d e, sys.descriptor? i = some d ∧ sys.descriptor? o = some e ∧
    ∀ dev queue, d.device = e.device → sys.device? d.device = some dev → dev.content ≠ .pipe queue

theorem Parted.stays {lost : Nat → Prop} (h : sys.Parted i o) (hs : Stays lost sys sys') (hi : ¬ lost i)
    (ho : ¬ lost o) : sys'.Parted i o := by
  obtain ⟨d, e, hd, he, hpipe⟩ := h.apart
  obtain ⟨p, hp⟩ := hs.descriptor i d hi hd
  obtain ⟨q, hq⟩ := hs.descriptor o e ho he
  refine ⟨h.fds, _, _, hp, hq, fun dev' queue hsame hdev' hc => ?_⟩
  obtain ⟨dev, hdev, hkind⟩ := hs.alike.symm.device _ dev' hdev'
  rw [hc] at hkind
  obtain ⟨queue', hc'⟩ := hkind.eq_pipe
  exact hpipe dev queue' hsame hdev hc'

/-- Nothing can be read through one descriptor that comes through another that is parted from it. -/
theorem stock_through (h : sys.Parted i o) (ht : Through o sys sys') :
    sys'.stock limit i ≤ sys.stock limit i := by
  obtain ⟨d, e, hd, he, hpipe⟩ := h.apart
  have hd' := (ht.others i h.fds).trans hd
  cases hdev : sys.device? d.device with
  | none =>
    simp only [stock, opened?, hd, hd', hdev, ht.missing _ hdev, Option.map_none]
    exact Nat.le_refl _
  | some dev =>
    by_cases hsame : d.device = e.device
    · obtain ⟨dev', hdev', hb⟩ := ht.device _ dev hdev
      rw [stock_eq (opened?_eq_some.2 ⟨hd, hdev⟩), stock_eq (opened?_eq_some.2 ⟨hd', hdev'⟩)]
      have hkind := hb.kind
      have hcoming := hb.coming
      cases hc : dev.content with
      | pipe queue => exact absurd hc (hpipe dev queue hsame hdev)
      | _ =>
        rw [hc] at hkind hcoming
        cases hc' : dev'.content <;> rw [hc'] at hkind hcoming <;>
          first | exact hcoming | exact Nat.le_refl _ | cases hkind
    · have hdev' := (ht.foreign d.device fun e' he' => by
        rw [he] at he'
        cases he'
        exact Ne.symm hsame).trans hdev
      exact Nat.le_of_eq ((stock_eq (opened?_eq_some.2 ⟨hd', hdev'⟩)).trans
        (stock_eq (opened?_eq_some.2 ⟨hd, hdev⟩)).symm)

theorem HasEnd.stays {lost : Nat → Prop} {d : Descriptor} (h : sys.HasEnd i) (hs : Stays lost sys sys')
    (hi : ¬ lost i) (hd : sys.descriptor? i = some d) : sys'.HasEnd i := by
  intro d' dev' ho'
  obtain ⟨hd', hdev'⟩ := opened?_eq_some.1 ho'
  obtain ⟨p, hp⟩ := hs.descriptor i d hi hd
  rw [hp] at hd'
  cases hd'
  obtain ⟨dev, hdev, hkind⟩ := hs.alike.symm.device _ dev' hdev'
  exact hkind.symm.hasEnd (h d dev (opened?_eq_some.2 ⟨hd, hdev⟩))

end System

/-- A stream with an end still has one after calls that left it its descriptor. -/
theorem Connection.Finite.stays {u : Stream} {sys sys' : System} {lost : Nat → Prop} {limit : Nat}
    {d : Descriptor} (h : (⟨u, sys⟩ : Connection).Finite limit) (hs : System.Stays lost sys sys')
    (hu : ¬ lost u.fd) (hd : sys.descriptor? u.fd = some d) (hb : sys'.Bounded limit) :
    (⟨u, sys'⟩ : Connection).Finite limit :=
  ⟨h.idle, System.HasEnd.stays h.hasEnd hs hu hd, hb⟩

theorem Handle.onStream_some {α : Type} {h : Handle} {u : Stream} {sys : System} (hs : h.stream = some u)
    (op : Connection → Connection × Except StreamError α) :
    h.onStream sys op = ⟨{ h with stream := some (op ⟨u, sys⟩).1.stream }, (op ⟨u, sys⟩).1.system,
      (op ⟨u, sys⟩).2.mapError .stream⟩ := by
  rcases hop : op ⟨u, sys⟩ with ⟨c, result⟩
  simp only [onStream, hs, hop]

namespace Concat

namespace Work

variable {s : Settings} {w w' w'' : Work} {limit i o n m : Nat}

/-- Rounds that end, one after the other, and what they come to. -/
inductive Ends (s : Settings) : Work → Nat → Work × Except Failure Nat → Prop
  | failed {w w' : Work} {copied : Nat} {e : Failure} :
      w.round s = (w', .error e) → Ends s w copied (w', .error e)
  | drained {w w' : Work} {copied : Nat} :
      w.round s = (w', .ok 0) → Ends s w copied (w'.tell [.drained w'.source.path copied], .ok copied)
  | more {w w' : Work} {copied n : Nat} {r : Work × Except Failure Nat} :
      w.round s = (w', .ok (n + 1)) → Ends s w' (copied + (n + 1)) r → Ends s w copied r

/-- Rounds come to what finitely many of them come to, and to nothing else. -/
theorem rounds_eq_some_iff {copied : Nat} {r : Work × Except Failure Nat} :
    w.rounds s copied = some r ↔ Ends s w copied r := by
  constructor
  · refine rounds.partial_correctness s (fun w copied r => Ends s w copied r) ?_ w copied r
    intro rounds ih w copied r h
    rcases hround : w.round s with ⟨w', e | n⟩ <;> rw [hround] at h
    · cases h
      exact .failed hround
    cases n with
    | zero =>
      cases h
      exact .drained hround
    | succ n => exact .more hround (ih _ _ _ h)
  · intro h
    induction h with
    | failed hround => exact rounds_of_failure hround
    | drained hround => exact rounds_of_end hround
    | more hround _ ih => exact (rounds_of_more hround).trans ih

/-- A source with an end under the descriptor `i`, and a sink under the descriptor `o` that does not
feed it. -/
structure Copies (limit i o : Nat) (w : Work) : Prop where
  source : ∃ u, w.source.stream = some u ∧ u.fd = i ∧ (⟨u, w.system⟩ : Connection).Finite limit
  sink : ∃ t, w.sink.stream = some t ∧ t.fd = o
  parted : w.system.Parted i o

/-- What the source can still give. -/
def stock (limit : Nat) (w : Work) : Nat :=
  match w.source.stream with
  | some u => Connection.stock limit ⟨u, w.system⟩
  | none => 0

/-- `b` is `a` after at least `n` bytes were taken from the stock. -/
structure Spends (limit i o : Nat) (a b : Work) (n : Nat) : Prop where
  copies : b.Copies limit i o
  stays : a.system.Stays (fun _ => False) b.system
  stock : b.stock limit + n ≤ a.stock limit

theorem Spends.refl (h : w.Copies limit i o) : Spends limit i o w w 0 :=
  ⟨h, .refl _ _, Nat.le_refl _⟩

theorem Spends.trans (h : Spends limit i o w w' n) (h' : Spends limit i o w' w'' m) :
    Spends limit i o w w'' (n + m) where
  copies := h'.copies
  stays := h.stays.trans h'.stays
  stock := by
    have := h.stock
    have := h'.stock
    omega

theorem Spends.tell (h : Spends limit i o w w' n) (events : List Event) :
    Spends limit i o w (w'.tell events) n :=
  ⟨⟨h.copies.source, h.copies.sink, h.copies.parted⟩, h.stays, h.stock⟩

private theorem Copies.draw {u : Stream} {c : Connection} (h : w.Copies limit i o)
    (hu : w.source.stream = some u) (hc : (⟨u, w.system⟩ : Connection).Spends limit c n) :
    Spends limit i o w { w with source := { w.source with stream := some c.stream }, system := c.system } n := by
  obtain ⟨u', hu', hfd, -⟩ := h.source
  rw [hu] at hu'
  cases hu'
  have hstays := hc.through.system.stays (fun _ => False)
  refine ⟨⟨⟨c.stream, rfl, hc.through.stream.fd.trans hfd, hc.finite⟩, h.sink, h.parted.stays hstays id id⟩, hstays, ?_⟩
  simp only [stock, hu]
  exact hc.stock

/-- A read takes something from the stock, unless it gets nothing. -/
theorem next_spends (s : Settings) (h : w.Copies limit i o) :
    Spends limit i o w (w.next s).1 0 ∧
      ∀ chunk, (w.next s).2 = .ok chunk → chunk ≠ [] → Spends limit i o w (w.next s).1 1 := by
  obtain ⟨u, hu, hfd, hfinite⟩ := id h.source
  have hread : ∃ c : Connection × Except StreamError Bytes,
      (if s.lines then w.source.readLine w.system s.bound else w.source.read w.system s.bound) =
        ⟨{ w.source with stream := some c.1.stream }, c.1.system, c.2.mapError .stream⟩ ∧
      (⟨u, w.system⟩ : Connection).Spends limit c.1 0 ∧
      ∀ got, c.2 = .ok got → got ≠ [] → (⟨u, w.system⟩ : Connection).Spends limit c.1 1 := by
    cases s.lines with
    | true =>
      obtain ⟨hany, hsome⟩ := Connection.spends_readLine hfinite (boundFor (s.bound.map Int.ofNat))
      exact ⟨_, Handle.onStream_some hu (·.readLine _), hany, hsome⟩
    | false =>
      obtain ⟨hany, hsome⟩ := Connection.spends_read hfinite (boundFor (s.bound.map Int.ofNat))
      exact ⟨_, Handle.onStream_some hu (·.read _), hany, fun got hgot hne =>
        (hsome got hgot).mono (List.length_pos_iff.2 hne)⟩
  obtain ⟨⟨c, result⟩, hcall, hany, hsome⟩ := hread
  unfold next
  simp only [hcall]
  cases result with
  | error e => exact ⟨h.draw hu hany, nofun⟩
  | ok chunk =>
    refine ⟨(h.draw hu hany).tell _, fun got hgot hne => ?_⟩
    cases hgot
    exact (h.draw hu (hsome chunk rfl hne)).tell _

/-- What is written adds nothing to the stock. -/
theorem deliver_spends (writes : Nat) (chunk : Bytes) (h : w.Copies limit i o) :
    Spends limit i o w (w.deliver writes chunk).1 0 := by
  induction writes generalizing w chunk with
  | zero => exact .refl h
  | succ writes ih =>
    obtain ⟨t, ht, hfd⟩ := id h.sink
    obtain ⟨u, hu, hufd, hfinite⟩ := id h.source
    have hthrough := Connection.through_write ⟨t, w.system⟩ chunk
    have hbounded := (Connection.steps_write ⟨t, w.system⟩ chunk).lasting (System.lasting_bounded limit) hfinite.bounded
    have hsystem : System.Through o w.system (Connection.write ⟨t, w.system⟩ chunk).1.system := hfd ▸ hthrough.system
    have hstays := hsystem.stays (fun _ => False)
    obtain ⟨d, e, hd, he, -⟩ := h.parted.apart
    have hone : Spends limit i o w { w with
        sink := { w.sink with stream := some (Connection.write ⟨t, w.system⟩ chunk).1.stream }
        system := (Connection.write ⟨t, w.system⟩ chunk).1.system } 0 := by
      refine ⟨⟨⟨u, hu, hufd, hfinite.stays hstays id (hufd ▸ hd) hbounded⟩,
        ⟨_, rfl, hthrough.stream.fd.trans hfd⟩, h.parted.stays hstays id id⟩, hstays, ?_⟩
      simp only [stock, hu, Connection.stock, hufd]
      exact Nat.add_le_add_left (System.stock_through h.parted hsystem) _
    simp only [deliver, Handle.write, Handle.onStream_some ht]
    split
    · exact .refl h
    cases (Connection.write ⟨t, w.system⟩ chunk).2 with
    | error e => exact hone
    | ok n =>
      have hcount : (Except.ok n : Except StreamError Nat).mapError HandleError.stream = .ok n := rfl
      rw [hcount]
      dsimp only
      split
      · exact hone.tell _
      · exact (hone.tell _).trans (ih (chunk.drop n) (hone.tell _).copies)

/-- A round takes something from the stock, unless it moves nothing. -/
theorem round_spends (s : Settings) (h : w.Copies limit i o) :
    Spends limit i o w (w.round s).1 0 ∧
      ∀ n, (w.round s).2 = .ok n → n ≠ 0 → Spends limit i o w (w.round s).1 1 := by
  obtain ⟨hany, hsome⟩ := next_spends s h
  unfold round
  rcases hnext : w.next s with ⟨w₁, e | chunk⟩ <;> rw [hnext] at hany hsome
  · exact ⟨hany, nofun⟩
  · have hdeliver := deliver_spends chunk.length chunk hany.copies
    dsimp only
    rcases hwrite : w₁.deliver chunk.length chunk with ⟨w₂, e | done⟩ <;> rw [hwrite] at hdeliver
    · exact ⟨hany.trans hdeliver, nofun⟩
    · refine ⟨hany.trans hdeliver, fun n hn hne => ?_⟩
      cases hn
      exact (hsome chunk rfl fun hnil => hne (congrArg List.length hnil)).trans hdeliver

/-- The rounds of a copy end. -/
theorem rounds_end (s : Settings) (h : w.Copies limit i o) (copied : Nat) :
    ∃ w' result, w.rounds s copied = some (w', result) ∧ Spends limit i o w w' 0 := by
  -- every round but the last leaves less in stock for the rounds after it
  induction hstock : w.stock limit using Nat.strongRecOn generalizing w copied with
  | ind size ih =>
    subst hstock
    obtain ⟨hany, hsome⟩ := round_spends s h
    rcases hround : w.round s with ⟨w₁, e | n⟩ <;> rw [hround] at hany hsome
    · exact ⟨_, _, rounds_of_failure hround, hany⟩
    cases n with
    | zero => exact ⟨_, _, rounds_of_end hround, hany.tell _⟩
    | succ n =>
      have hless := (hsome (n + 1) rfl (Nat.succ_ne_zero n)).stock
      dsimp only at hless
      obtain ⟨w₂, result, hrest, hspends⟩ := ih (w₁.stock limit) (by omega) hany.copies (copied + (n + 1)) rfl
      exact ⟨w₂, result, (rounds_of_more hround).trans hrest, hany.trans hspends⟩

end Work

end Concat

end BufferedFiles
