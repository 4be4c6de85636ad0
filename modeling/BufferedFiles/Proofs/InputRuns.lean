import BufferedFiles.Proofs.HandleRun
import BufferedFiles.Proofs.Reading

/-!
# Runs of input

A handle that is asked for nothing but input answers from the supply of its source, request after
request: no byte is lost between two requests, none is given twice, and the order is kept.
-/
namespace BufferedFiles

def Reply.bytes : Reply → Bytes
  | .answer (.bytes bytes) => bytes
  | _ => []

theorem boundFor_pos (requested : Option Int) : 0 < boundFor requested := by
  unfold boundFor
  split
  · split
    · omega
    · decide
  · decide

namespace Supply

/-- All of a supply that ends. -/
def all : Supply → Bytes
  | .bytes rest => rest
  | .zeros => []

/-- The bytes a request takes. -/
def portion (s : Supply) : Request → Bytes
  | .call (.read max) => s.take (boundFor (max.map Int.ofNat))
  | .call (.readLine max) => s.line (min (boundFor (max.map Int.ofNat)) lineLimit)
  | .transfer (.readSome n) | .transfer (.readExact n) => s.take n
  | .transfer .readToEnd => s.all
  | _ => []

/-- The reply to a request. Where an exact number of bytes is not there, none are returned. -/
def reply (s : Supply) : Request → Reply
  | .transfer (.readExact n) =>
    if (s.take n).length < n then .failed .endOfData else .answer (.bytes (s.take n))
  | request => .answer (.bytes (s.portion request))

/-- The supply after requests. -/
def after (s : Supply) : List Request → Supply
  | [] => s
  | request :: rest => (s.drop (s.portion request).length).after rest

def replies (s : Supply) : List Request → List Reply
  | [] => []
  | request :: rest => s.reply request :: (s.drop (s.portion request).length).replies rest

/-- The most bytes a request asks a device for at once. -/
def asks (s : Supply) : Request → Nat
  | .call (.read max) => boundFor (max.map Int.ofNat)
  | .call (.readLine max) => min (boundFor (max.map Int.ofNat)) lineLimit
  | .transfer (.readSome n) | .transfer (.readExact n) => n
  | .transfer .readToEnd => max Handle.probeSize s.all.length
  | _ => 0

/-- A supply with an end, and no longer than a file can be. -/
def Ends (s : Supply) : Prop := ∃ rest, s = .bytes rest ∧ rest.length ≤ largestPosition

variable {s : Supply} {request : Request} {requests : List Request}

theorem Ends.drop (h : s.Ends) (n : Nat) : (s.drop n).Ends := by
  obtain ⟨rest, rfl, hlen⟩ := h
  exact ⟨rest.drop n, rfl, Nat.le_trans (List.drop_sublist n rest).length_le hlen⟩

theorem IsEmpty.take (h : s.IsEmpty) (n : Nat) : s.take n = [] := take_eq_nil_iff.2 (.inr h)

theorem IsEmpty.after (h : s.IsEmpty) (requests : List Request) : (s.after requests).IsEmpty := by
  induction requests generalizing s with
  | nil => exact h
  | cons request rest ih => exact ih (h.drop _)

/-- A line is empty only where nothing is left. -/
theorem line_eq_nil_iff {n : Nat} (hn : n ≠ 0) : s.line n = [] ↔ s.IsEmpty := by
  rw [line_eq]
  constructor
  · intro hnil
    by_cases htake : s.take n = []
    · exact (take_eq_nil_iff.1 htake).resolve_left hn
    · exact absurd hnil (firstLine_ne_nil htake)
  · intro hempty
    rw [hempty.take]
    rfl

end Supply

namespace Handle

variable {sys : System} {h : Handle} {s : Stream} {c c' : Connection} {calls : Nat}

/-- The handle after an operation of its stream. -/
def holding (h : Handle) (c : Connection) : Handle := { h with stream := some c.stream }

theorem holding_self (hs : h.stream = some c.stream) : h.holding c = h := by
  rw [holding, ← hs]

end Handle

/-- A stream that was not used yet gives what its source has. -/
theorem Stream.Fresh.gives {sys : System} {s : Stream} {d : Descriptor} {dev : Device} (hs : s.Fresh)
    (hr : s.reads = true) (ho : sys.opened? s.fd = some (d, dev)) (hsource : sys.Source d dev)
    (happ : s.appends = true → d.appending = true)
    (hin : dev.content.Within d.position sys.largestOffset) :
    (⟨s, sys⟩ : Connection).Gives ∧
      (⟨s, sys⟩ : Connection).supply = dev.content.supply d.position ∧
      (⟨s, sys⟩ : Connection).account = .ofPort d dev 0 := by
  obtain ⟨hready, hcalm, haccount⟩ := hs.ready ho happ hin
  obtain ⟨⟨d₀, dev₀, hon⟩, -⟩ := hready
  have ho₀ := hon.opened
  have ho : (⟨s, sys⟩ : Connection).system.opened? (⟨s, sys⟩ : Connection).stream.fd = some (d, dev) := ho
  rw [ho] at ho₀
  cases ho₀
  have hsigns := hs.signs
  simp only [Stream.signs, Prod.mk.injEq] at hsigns
  have hleft : (⟨s, sys⟩ : Connection).stream.left = [] := Connection.left_of_empty hs.window
  refine ⟨⟨⟨d, dev, hon, hsource, .inl hs.offset⟩, hr, hs.pending, fun hw => hcalm hw hs.pending,
    ⟨hsigns.1, hsigns.2.2⟩, fun hend => ?_, Nat.le_of_dvd (by decide) hs.bufferSize_dvd⟩, ?_, haccount⟩
  · have hend : s.atEnd = true := hend
    rw [hsigns.2.1] at hend
    cases hend
  · rw [Connection.supply_eq ho, hleft, Supply.behind_nil]

namespace Handle

end Handle

end BufferedFiles
