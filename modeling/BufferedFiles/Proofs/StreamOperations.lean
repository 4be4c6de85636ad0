import BufferedFiles.Proofs.StreamPosition

/-!
# Operations that put out and move

What a write, a flush, a move and a question for the position leave, by their results.
-/
namespace BufferedFiles

namespace Connection

variable {c c' : Connection} {bytes : Bytes}

/-- A write is counted in full and laid down, or reported, or swallowed. -/
theorem write_spec {r : Except StreamError Nat} (h : c.Ready) (hw : c.stream.writes = true)
    (hb : bytes ≠ []) (e : c.write bytes = (c', r)) :
    (¬ c.Swallows bytes ∧ r = .ok bytes.length ∧ c.Lays c' bytes ∧ c'.Calm) ∨
      (¬ c.Swallows bytes ∧ (∃ er, r = .error er) ∧ ¬ c.Willing bytes.length) ∨
      (c.Swallows bytes ∧ r = .ok bytes.length ∧ c.Fails c' bytes.length ∧
        c'.account.received.length < c.account.received.length + bytes.length) := by
  have hne : ¬ bytes.isEmpty = true := by simpa using hb
  rcases haccept : c.accept bytes with ⟨c₁, n⟩
  rw [write, if_neg hne, haccept] at e
  dsimp only at e
  rcases accept_spec h hw hb haccept with ⟨hquiet, hn, hlays, hcalm⟩ | ⟨hquiet, hn, hfails⟩ |
    ⟨hs, hn, hfails, hlost⟩
  · have hfull : ¬ (decide (n < bytes.length) && c₁.stream.failed) = true := by
      rw [hn]
      simp
    rw [if_neg hfull] at e
    cases e
    exact .inl ⟨hquiet, by rw [hn], hlays, hcalm⟩
  · have hshort : (decide (n < bytes.length) && c₁.stream.failed) = true := by
      simp [hn, hfails.failed]
    rw [if_pos hshort] at e
    cases e
    exact .inr (.inl ⟨hquiet, ⟨_, rfl⟩, hfails.unwilling⟩)
  · have hfull : ¬ (decide (n < bytes.length) && c₁.stream.failed) = true := by
      rw [hn]
      simp
    rw [if_neg hfull] at e
    cases e
    exact .inr (.inr ⟨hs, by rw [hn], hfails, hlost⟩)

theorem write_nil (c : Connection) : c.write [] = (c, .ok 0) := rfl

theorem flush_spec {r : Except StreamError Unit} (h : c.Ready) (e : c.flush = (c', r)) :
    (r = .ok () ∧ c.Lays c' [] ∧ c'.stream.pending = [] ∧ (c.Calm → c'.Calm)) ∨
      ((∃ er, r = .error er) ∧ c.stream.pending ≠ [] ∧ ¬ c.Willing 0) := by
  rcases hsync : c.sync with ⟨c₁, ok⟩
  obtain ⟨hdone, hfails⟩ := sync_spec h hsync
  cases ok with
  | true =>
    simp only [flush, hsync, Prod.mk.injEq] at e
    obtain ⟨rfl, rfl⟩ := e
    exact .inl ⟨rfl, hdone rfl⟩
  | false =>
    simp only [flush, hsync, fault, Prod.mk.injEq] at e
    obtain ⟨rfl, rfl⟩ := e
    obtain ⟨hf, hne⟩ := hfails rfl
    exact .inr ⟨⟨_, rfl⟩, hne, hf.unwilling⟩

theorem tell_spec {r : Except StreamError Nat} (h : c.Ready) (e : c.tell = (c', r)) :
    c.Lays c' [] ∧ (c'.stream.pending = c.stream.pending ∧ c'.stream.writing = c.stream.writing ∧
        (c.Calm → c'.Calm)) ∧
      ∀ f, c.Calm → c.account.file = some f → c.account.appending = c.stream.appends →
        r = .ok f.position := by
  rcases hpos : c.position with ⟨c₁, place⟩
  obtain ⟨hlays, hkeep, hvalue⟩ := position_spec h hpos
  cases place with
  | some p =>
    simp only [tell, hpos, Prod.mk.injEq] at e
    obtain ⟨rfl, rfl⟩ := e
    refine ⟨hlays, hkeep, fun f hcalm hf hknown => ?_⟩
    rw [Option.some.inj (hvalue f hcalm hf hknown)]
  | none =>
    simp only [tell, hpos, Prod.mk.injEq] at e
    obtain ⟨rfl, rfl⟩ := e
    refine ⟨hlays, hkeep, fun f hcalm hf hknown => ?_⟩
    cases hvalue f hcalm hf hknown

/-- A move that is not reported as a failure has put nothing in the account but a position. -/
theorem seek_ok {target : Target} {n : Nat} (h : c.Ready) (e : c.seek target = (c', .ok n)) :
    c.Through c' ∧ c'.Ready ∧ c'.account.received = c.account.received := by
  unfold seek at e
  split at e
  · cases e
  · rename_i origin offset hparts
    split at e
    · cases e
    · rename_i c₁ hmove
      obtain ⟨x, hmoves, -⟩ := move_ok h hmove
      obtain ⟨hlays, -, -⟩ := tell_spec hmoves.ready e
      refine ⟨hmoves.through.trans hlays.through, hlays.ready, ?_⟩
      rw [hlays.account, Account.lay_nil, hmoves.received]

end Connection

end BufferedFiles
