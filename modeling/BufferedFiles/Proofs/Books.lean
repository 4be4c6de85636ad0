import BufferedFiles.Proofs.Tokens
import Mathlib.Algebra.Order.Group.Multiset
import Mathlib.Data.Multiset.Count
import Mathlib.Data.Multiset.MapFold

/-!
# Books of the streams that live

The books name every stream that lives. A stream is entered when it begins and struck out when it ends,
together with its descriptor; a descriptor is also closed where a program asks for that. Nothing else ends a
descriptor or changes the number of streams, so that number is that of the counted streams in the books.

A program is fair if it leaves the descriptors of streams to them: it puts no second stream on one, and does
not close one behind the back of its stream. Then the streams are on open descriptors of their own, and on
each descriptor beginnings and ends take turns.
-/
namespace BufferedFiles

/-- How many of the streams are counted. -/
def Token.number (tokens : Multiset Token) : Nat := tokens.countP fun t => t.counted = true

theorem Token.number_cons (t : Token) (tokens : Multiset Token) :
    number (t ::ₘ tokens) = number tokens + if t.counted then 1 else 0 :=
  Multiset.countP_cons _ _ _

/-- What the streams of a list are known by. -/
def Stream.tokens (streams : List Stream) : Multiset Token := ↑(streams.map Stream.token)

@[simp] theorem Stream.tokens_nil : tokens [] = 0 := rfl

@[simp] theorem Stream.tokens_append (xs ys : List Stream) : tokens (xs ++ ys) = tokens xs + tokens ys := by
  simp only [tokens, List.map_append, Multiset.coe_add]

theorem Stream.tokens_perm {xs ys : List Stream} (h : xs.Perm ys) : tokens xs = tokens ys :=
  Multiset.coe_eq_coe.2 (h.map _)

/-- A system, and the streams that live in it. -/
structure Books where
  system : System
  tokens : Multiset Token

/-- A stream begins on a descriptor, the stream on a descriptor ends, or a descriptor is closed that is left
to the program. -/
inductive Deed where
  | begins (fd : Nat)
  | ends (fd : Nat)
  | closes (fd : Nat)
  deriving DecidableEq

namespace Books

variable {fair : Prop} {a b c : Books} {deeds deeds' : List Deed} {sys : System} {tokens : Multiset Token} {t : Token}
  {fd : Nat}

/-- `b` is `a` after the deeds, one after the other. If they are fair, no stream that lives is on a
descriptor on which one begins, or on one that is closed. -/
inductive Does (fair : Prop) : Books → List Deed → Books → Prop
  | nothing (a : Books) : Does fair a [] a
  | works {a b : Books} {sys : System} {deeds : List Deed} : a.system.Retains sys →
      Does fair ⟨sys, a.tokens⟩ deeds b → Does fair a deeds b
  | begins {a b : Books} {sys : System} {fd : Nat} {deeds : List Deed} : (fair → ∀ t ∈ a.tokens, t.fd ≠ fd) →
      System.Begins fd a.system sys → Does fair ⟨sys, ⟨fd, true⟩ ::ₘ a.tokens⟩ deeds b →
      Does fair a (.begins fd :: deeds) b
  | ends {a b : Books} {sys : System} {t : Token} {tokens : Multiset Token} {deeds : List Deed} :
      a.tokens = t ::ₘ tokens → System.Ends t a.system sys → Does fair ⟨sys, tokens⟩ deeds b →
      Does fair a (.ends t.fd :: deeds) b
  | closes {a b : Books} {sys : System} {fd : Nat} {deeds : List Deed} : (fair → ∀ t ∈ a.tokens, t.fd ≠ fd) →
      System.Ends ⟨fd, false⟩ a.system sys → Does fair ⟨sys, a.tokens⟩ deeds b → Does fair a (.closes fd :: deeds) b

theorem Does.trans (h : a.Does fair deeds b) (h' : b.Does fair deeds' c) : a.Does fair (deeds ++ deeds') c := by
  induction h with
  | nothing a => exact h'
  | works hretains _ ih => exact .works hretains (ih h')
  | begins hfree hbegins _ ih => exact .begins hfree hbegins (ih h')
  | ends htokens hends _ ih => exact .ends htokens hends (ih h')
  | closes hfree hcloses _ ih => exact .closes hfree hcloses (ih h')

/-- What is done can be parted anywhere. -/
theorem Does.split (h : a.Does fair (deeds ++ deeds') c) : ∃ b, a.Does fair deeds b ∧ b.Does fair deeds' c := by
  generalize hall : deeds ++ deeds' = all at h
  induction h generalizing deeds with
  | nothing a =>
    obtain ⟨rfl, rfl⟩ := List.append_eq_nil_iff.1 hall
    exact ⟨a, .nothing a, .nothing a⟩
  | works hretains _ ih =>
    obtain ⟨b, hfirst, hrest⟩ := ih hall
    exact ⟨b, .works hretains hfirst, hrest⟩
  | @begins a c sys fd later hfree hbegins hdoes ih =>
    cases deeds with
    | nil =>
      rw [List.nil_append] at hall
      exact ⟨a, .nothing a, hall ▸ .begins hfree hbegins hdoes⟩
    | cons deed deeds =>
      obtain ⟨rfl, hsame⟩ := List.cons_eq_cons.1 hall
      obtain ⟨b, hfirst, hrest⟩ := ih hsame
      exact ⟨b, .begins hfree hbegins hfirst, hrest⟩
  | @ends a c sys t tokens later htokens hends hdoes ih =>
    cases deeds with
    | nil =>
      rw [List.nil_append] at hall
      exact ⟨a, .nothing a, hall ▸ .ends htokens hends hdoes⟩
    | cons deed deeds =>
      obtain ⟨rfl, hsame⟩ := List.cons_eq_cons.1 hall
      obtain ⟨b, hfirst, hrest⟩ := ih hsame
      exact ⟨b, .ends htokens hends hfirst, hrest⟩
  | @closes a c sys fd later hfree hcloses hdoes ih =>
    cases deeds with
    | nil =>
      rw [List.nil_append] at hall
      exact ⟨a, .nothing a, hall ▸ .closes hfree hcloses hdoes⟩
    | cons deed deeds =>
      obtain ⟨rfl, hsame⟩ := List.cons_eq_cons.1 hall
      obtain ⟨b, hfirst, hrest⟩ := ih hsame
      exact ⟨b, .closes hfree hcloses hfirst, hrest⟩

/-- Work that ends no descriptor and makes no stream. -/
theorem does_of_retains (tokens : Multiset Token) {sys' : System} (h : sys.Retains sys') :
    Does fair ⟨sys, tokens⟩ [] ⟨sys', tokens⟩ :=
  .works h (.nothing _)

/-- The streams are counted right, and on open descriptors of their own if the program is fair. -/
structure Sound (fair : Prop) (a : Books) : Prop where
  distinct : fair → (a.tokens.map Token.fd).Nodup
  live : fair → ∀ t ∈ a.tokens, ∃ d, a.system.descriptor? t.fd = some d
  count : a.system.openStreams = Token.number a.tokens

theorem Sound.works (h : a.Sound fair) (hretains : a.system.Retains sys) : Sound fair ⟨sys, a.tokens⟩ where
  distinct := h.distinct
  live hfair t ht := by
    obtain ⟨d, hd⟩ := h.live hfair t ht
    obtain ⟨d', hd', -⟩ := hretains.stays t.fd d hd
    exact ⟨d', hd'⟩
  count := hretains.count.trans h.count

theorem Sound.begins (h : a.Sound fair) (hfree : fair → ∀ t ∈ a.tokens, t.fd ≠ fd)
    (hbegins : System.Begins fd a.system sys) : Sound fair ⟨sys, ⟨fd, true⟩ ::ₘ a.tokens⟩ where
  distinct hfair := by
    rw [Multiset.map_cons, Multiset.nodup_cons]
    refine ⟨fun hmem => ?_, h.distinct hfair⟩
    obtain ⟨t, ht, hfd⟩ := Multiset.mem_map.1 hmem
    exact hfree hfair t ht hfd
  live hfair t ht := by
    rcases Multiset.mem_cons.1 ht with rfl | ht
    · exact hbegins.own
    · obtain ⟨d, hd⟩ := h.live hfair t ht
      obtain ⟨d', hd', -⟩ := hbegins.others t.fd (hfree hfair t ht) d hd
      exact ⟨d', hd'⟩
  count := by
    rw [hbegins.count, h.count, Token.number_cons]
    rfl

theorem Sound.ends (h : a.Sound fair) (htokens : a.tokens = t ::ₘ tokens) (hends : System.Ends t a.system sys) :
    Sound fair ⟨sys, tokens⟩ := by
  obtain ⟨hdistinct, hlive, hcount⟩ := h
  rw [htokens] at hdistinct hlive hcount
  rw [Multiset.map_cons, Multiset.nodup_cons] at hdistinct
  refine ⟨fun hfair => (hdistinct hfair).2, fun hfair r hr => ?_, ?_⟩
  · obtain ⟨d, hd⟩ := hlive hfair r (Multiset.mem_cons_of_mem hr)
    have hne : r.fd ≠ t.fd := fun heq => (hdistinct hfair).1 (heq ▸ Multiset.mem_map_of_mem Token.fd hr)
    obtain ⟨d', hd', -⟩ := hends.others r.fd hne d hd
    exact ⟨d', hd'⟩
  · rw [hends.count, hcount, Token.number_cons]
    dsimp only
    split <;> omega

theorem Sound.closes (h : a.Sound fair) (hfree : fair → ∀ t ∈ a.tokens, t.fd ≠ fd)
    (hcloses : System.Ends ⟨fd, false⟩ a.system sys) : Sound fair ⟨sys, a.tokens⟩ where
  distinct := h.distinct
  live hfair t ht := by
    obtain ⟨d, hd⟩ := h.live hfair t ht
    obtain ⟨d', hd', -⟩ := hcloses.others t.fd (hfree hfair t ht) d hd
    exact ⟨d', hd'⟩
  count := hcloses.count.trans h.count

theorem Does.sound (h : a.Does fair deeds b) (ha : a.Sound fair) : b.Sound fair := by
  induction h with
  | nothing => exact ha
  | works hretains _ ih => exact ih (ha.works hretains)
  | begins hfree hbegins _ ih => exact ih (ha.begins hfree hbegins)
  | ends htokens hends _ ih => exact ih (ha.ends htokens hends)
  | closes hfree hcloses _ ih => exact ih (ha.closes hfree hcloses)

/-- How many streams live on a descriptor. -/
def on (a : Books) (fd : Nat) : Nat := (a.tokens.map Token.fd).count fd

theorem Sound.on_le_one (h : a.Sound fair) (hfair : fair) (fd : Nat) : a.on fd ≤ 1 :=
  Multiset.nodup_iff_count_le_one.1 (h.distinct hfair) fd

/-- What began on a descriptor has ended or is there. -/
theorem Does.balance (h : a.Does fair deeds b) (fd : Nat) :
    deeds.count (.begins fd) + a.on fd = deeds.count (.ends fd) + b.on fd := by
  induction h with
  | nothing => rfl
  | works _ _ ih => exact ih
  | @begins a b sys new deeds _ _ _ ih =>
    have hnew : (⟨sys, ⟨new, true⟩ ::ₘ a.tokens⟩ : Books).on fd = a.on fd + if fd = new then 1 else 0 := by
      rw [on, Multiset.map_cons, Multiset.count_cons, on]
    rw [hnew] at ih
    rw [List.count_cons, List.count_cons]
    by_cases hfd : fd = new
    · subst hfd
      simp at ih ⊢
      omega
    · have hne : ¬ new = fd := fun heq => hfd heq.symm
      simp [hfd, hne] at ih ⊢
      omega
  | @ends a b sys t tokens deeds htokens _ _ ih =>
    have hold : a.on fd = (⟨sys, tokens⟩ : Books).on fd + if fd = t.fd then 1 else 0 := by
      rw [on, htokens, Multiset.map_cons, Multiset.count_cons, on]
    rw [hold, List.count_cons, List.count_cons]
    by_cases hfd : fd = t.fd
    · subst hfd
      simp at ih ⊢
      omega
    · have hne : ¬ t.fd = fd := fun heq => hfd heq.symm
      simp [hfd, hne] at ih ⊢
      omega
  | closes _ _ _ ih =>
    simp only [List.count_cons, beq_iff_eq, reduceCtorEq, if_false, Nat.add_zero]
    exact ih

/-- On every descriptor beginnings and ends take turns: up to any moment, either as many streams have
ended as there were, or one less. -/
theorem Does.alternates (h : a.Does fair deeds b) (ha : a.Sound fair) (hfair : fair) {past : List Deed}
    (hpast : past <+: deeds) (fd : Nat) :
    past.count (.ends fd) ≤ past.count (.begins fd) + a.on fd ∧
      past.count (.begins fd) + a.on fd ≤ past.count (.ends fd) + 1 := by
  obtain ⟨later, rfl⟩ := hpast
  obtain ⟨c, hdone, -⟩ := h.split
  have hbalance := hdone.balance fd
  have hone := (hdone.sound ha).on_le_one hfair fd
  omega

end Books

namespace Stream.Turns

variable {s s' : Option Stream} {sys sys' : System}

/-- What becomes of a stream is entered in the books, and nothing else is closed. -/
theorem does (h : Turns s sys s' sys') (fair : Prop) (others : Multiset Token) :
    ∃ deeds, Books.Does fair ⟨sys, tokens s.toList + others⟩ deeds ⟨sys', tokens s'.toList + others⟩ ∧
      ∀ fd, Deed.closes fd ∉ deeds := by
  cases h with
  | keeps htoken hretains =>
    have hsame : tokens s'.toList = tokens s.toList := by
      cases s <;> cases s' <;> simp_all [tokens]
    rw [hsame]
    exact ⟨[], Books.does_of_retains _ hretains, fun _ => List.not_mem_nil⟩
  | @ends s _ _ hends =>
    refine ⟨[.ends s.token.fd], .ends ?_ hends (.nothing _), nofun⟩
    rw [Option.toList_none, tokens_nil, zero_add]
    rfl

/-- A stream that is still there is counted if it was. -/
theorem counted (h : Turns s sys s' sys') {b : Bool} (hs : ∀ u ∈ s.toList, u.counted = b) :
    ∀ u ∈ s'.toList, u.counted = b := by
  cases h with
  | keeps htoken _ =>
    intro u' hu'
    rw [Option.mem_toList] at hu'
    rw [hu', Option.map_some] at htoken
    obtain ⟨u, hu, hsame⟩ := Option.map_eq_some_iff.1 htoken.symm
    rw [← hs u (Option.mem_toList.2 hu)]
    exact (congrArg Token.counted hsame).symm
  | ends _ => exact fun _ hu => absurd hu List.not_mem_nil

end Stream.Turns

end BufferedFiles
