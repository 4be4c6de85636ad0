import BufferedFiles.Session.Request
import BufferedFiles.Proofs.StreamMoves

/-!
# Calls on a plain file

What reads, writes and moves do to a file with its bytes and a position and nothing in front of it, and
which of them a stream in a mode may be asked for one after another.
-/
namespace BufferedFiles

/-- The offset of a move is one of the 64-bit offsets, if a relative one is. -/
theorem Target.isOffset_of_parts {target : Target} {origin : Origin} {offset : Int}
    (h : ∀ n, target = .current n ∨ target = .finish n → Connection.IsOffset n)
    (hparts : target.parts? = some (origin, offset)) : Connection.IsOffset offset := by
  cases target with
  | start n =>
    unfold Target.parts? largestPosition at hparts
    dsimp only at hparts
    split at hparts
    · cases hparts
      exact ⟨by omega, by omega⟩
    · cases hparts
  | current n =>
    cases hparts
    exact h offset (.inl rfl)
  | finish n =>
    cases hparts
    exact h offset (.inr rfl)

namespace PlainFile

/-- The failure of a move to where no position is. -/
def unreachable : Reply := .refused (.stream (.ofErrno "fseeko" .invalidArgument))

def give (f : PlainFile) (bytes : Bytes) : PlainFile × Reply :=
  (f.advance bytes.length, .answer (.bytes bytes))

def goTo (f : PlainFile) (limit : Nat) (target : Int) : PlainFile × Reply :=
  if Connection.InReach limit target then
    ({ f with position := target.toNat }, .answer (.count target.toNat))
  else (f, unreachable)

/-- What a call does to a plain file where files reach as far as `limit`, and its reply. -/
def call (f : PlainFile) (limit : Nat) (appending : Bool) : Call → PlainFile × Reply
  | .read max => f.give (f.rest.take (boundFor (max.map Int.ofNat)))
  | .readLine max => f.give (Supply.line (.bytes f.rest) (min (boundFor (max.map Int.ofNat)) lineLimit))
  | .write bytes => (f.write appending bytes, .answer (.count bytes.length))
  | .flush => (f, .answer .done)
  | .seek target =>
    match target.parts? with
    | none => (f, unreachable)
    | some (origin, offset) => f.goTo limit (f.base origin + offset)
  | .tell => (f, .answer (.count f.position))
  | .close => (f, .senseless)

def callAll (f : PlainFile) (limit : Nat) (appending : Bool) : List Call → PlainFile × List Reply
  | [] => (f, [])
  | call :: rest =>
    let (f, reply) := f.call limit appending call
    let (f, replies) := f.callAll limit appending rest
    (f, reply :: replies)

/-- A move by a 64-bit offset, and not one that a stream for input refuses at the target after it
reached the block boundary before it. -/
def Moves (f : PlainFile) (limit : Nat) (reads : Bool) (origin : Origin) (offset : Int) : Prop :=
  Connection.IsOffset offset ∧ (reads = true →
    Connection.InReach limit (Connection.blockStart blockSize (f.base origin + offset)) →
      Connection.InReach limit (f.base origin + offset))

/-- A call a stream in a mode may be asked for: it is in a direction the mode allows, and no input follows
output at once. A read stays a block short of the largest position. Bytes end where a file can reach, and
those that are appended can also be numbered from where the stream stood: output that is under way tells
how far it has come from there. -/
def Admits (f : PlainFile) (limit : Nat) (mode : OpenMode) (output : Option Nat) : Call → Prop
  | .read max => mode.reads = true ∧ output = none ∧
      f.position + boundFor (max.map Int.ofNat) + blockSize ≤ largestPosition
  | .readLine max => mode.reads = true ∧ output = none ∧
      f.position + min (boundFor (max.map Int.ofNat)) lineLimit + blockSize ≤ largestPosition
  | .write bytes => mode.writes = true ∧ f.start mode.appends + bytes.length ≤ limit ∧
      (mode.appends = true → output.getD f.position + bytes.length ≤ largestPosition)
  | .seek target => ∀ parts, target.parts? = some parts → f.Moves limit mode.reads parts.1 parts.2
  | .flush | .tell => True
  | .close => False

end PlainFile

/-- How far output that is under way after a call has come from where it started, at `position` or as far
as it was before; a flush or a move ends it. -/
def Call.leavesOutput (position : Nat) (output : Option Nat) : Call → Option Nat
  | .write bytes => if bytes.isEmpty then output else some (output.getD position + bytes.length)
  | .flush => none
  | .seek target => if target.parts?.isSome then none else output
  | _ => output

/-- The calls of a run may be asked for one after another. -/
def PlainFile.AdmitsAll (f : PlainFile) (limit : Nat) (mode : OpenMode) (output : Option Nat) :
    List Call → Prop
  | [] => True
  | call :: rest => f.Admits limit mode output call ∧
      (f.call limit mode.appends call).1.AdmitsAll limit mode (call.leavesOutput f.position output) rest

namespace PlainFile

theorem ended_write {f : PlainFile} {appending : Bool} (h : f.contents.length ≤ f.position)
    (bytes : Bytes) :
    (f.write appending bytes).contents.length ≤ (f.write appending bytes).position := by
  by_cases hb : bytes = []
  · rw [hb, write_nil]
    exact h
  · have hlen := f.length_write appending bytes
    rw [write_of_ne_nil f appending hb] at hlen ⊢
    have hstart : f.contents.length ≤ f.start appending := by
      cases appending with
      | true => exact Nat.le_refl _
      | false => exact h
    simp only at hlen ⊢
    omega

/-- A file and a position within a limit. -/
def Within (f : PlainFile) (limit : Nat) : Prop := f.contents.length ≤ limit ∧ f.position ≤ limit

theorem Within.start {f : PlainFile} {limit : Nat} (h : f.Within limit) (appending : Bool) :
    f.start appending ≤ limit := by
  cases appending with
  | true => exact h.1
  | false => exact h.2

theorem Within.write {f : PlainFile} {limit : Nat} {appending : Bool} {bytes : Bytes} (h : f.Within limit)
    (hroom : f.start appending + bytes.length ≤ limit) : (f.write appending bytes).Within limit := by
  by_cases hb : bytes = []
  · rw [hb, write_nil]
    exact h
  · have hlen := f.length_write appending bytes
    have hsize := h.1
    rw [write_of_ne_nil f appending hb] at hlen ⊢
    simp only at hlen
    exact ⟨by simp only; omega, hroom⟩

end PlainFile

theorem PlainFile.AdmitsAll.close_notMem {f : PlainFile} {limit : Nat} {mode : OpenMode}
    {output : Option Nat} {calls : List Call} (h : f.AdmitsAll limit mode output calls) :
    Call.close ∉ calls := by
  induction calls generalizing f output with
  | nil => exact List.not_mem_nil
  | cons call rest ih =>
    obtain ⟨hfirst, hrest⟩ := h
    rw [List.mem_cons, not_or]
    refine ⟨?_, ih hrest⟩
    rintro rfl
    exact hfirst

end BufferedFiles
