import BufferedFiles.Proofs.Rejection
import BufferedFiles.Proofs.RequestOperations
import BufferedFiles.Session.Command

/-!
# Calls on another thread

Threads share the system, but each has a last error of its own. What is opened, asked or let go on another thread
leaves a system that differs in nothing but the last error, and what comes of it is the same, unless something is
asked that borrows its failure from the last error before it.
-/
namespace BufferedFiles

namespace Handle

variable {h : Handle} {sys : System} {e : Errno}

theorem release_blamed (h : Handle) (sys : System) (e : Errno) :
    ∃ e', h.release (sys.blamed e) = (h.release sys).blamed e' := by
  unfold release close
  cases h.stream with
  | none => exact ⟨e, rfl⟩
  | some s => exact Connection.release_blamed ⟨s, sys⟩ e

theorem openPath_blamed (sys : System) (e : Errno) (path : Bytes) (mode : String) (buffering : Option Int) :
    ∃ e', openPath (sys.blamed e) path mode buffering =
      ((openPath sys path mode buffering).1.blamed e', (openPath sys path mode buffering).2) := by
  obtain ⟨left, hleft⟩ := sys.openStream_blamed e path (toBytes mode)
  unfold openPath
  rw [hleft]
  rcases hopen : sys.openStream path (toBytes mode) with ⟨sys₁, er | u⟩
  · exact ⟨left, rfl⟩
  dsimp only
  by_cases hb : Accepts buffering
  · obtain ⟨t, hmade, -⟩ := ofStream_fresh (System.openStream_fresh hopen).1 hb (Text.lossy path) mode
    exact ⟨left, by rw [hmade, hmade]⟩
  · -- The stream is let go again.
    obtain ⟨value, rfl, hvalue⟩ := not_accepts_iff.1 hb
    simp only [ofStream, Buffering.ofInt_of_not_mem hvalue]
    obtain ⟨last, hlast⟩ := release_blamed ⟨Text.lossy path, mode, some u⟩ sys₁ left
    exact ⟨last, by rw [hlast]⟩

theorem sameFor_blamed (sys : System) (e : Errno) (fd : Nat) : System.SameFor fd sys (sys.blamed e) :=
  (System.SameFor.refl fd sys).withErrors sys.lastError e

/-- What a call leaves on another thread, whether it borrows or not. -/
theorem call_blamed (h : Handle) (sys : System) (e : Errno) (call : Call) :
    ∃ e', (h.call (sys.blamed e) call).2.1 = (h.call sys call).2.1.blamed e' := by
  cases hs : h.stream with
  | none =>
    rw [(call_closed hs sys sys call).2.1, (call_closed hs (sys.blamed e) sys call).2.1]
    exact ⟨e, rfl⟩
  | some s => exact ⟨_, (call_moves hs (sameFor_blamed sys e s.fd) call).matches.eq⟩

/-- A call on another thread comes to the same, unless it borrows, and finds another last error there. -/
theorem sameIn_blamed (h : Handle) (sys : System) (e : Errno) (call : Call) :
    h.SameIn sys (sys.blamed e) call ↔ (h.Borrows sys call → (sys.blamed e).cause = sys.cause) :=
  sameIn_iff (fun s _ => sameFor_blamed sys e s.fd) call

theorem respond_blamed (h : Handle) (sys : System) (e : Errno) (request : Request)
    (hown : e = sys.lastError ∨ ¬ h.BorrowsWithin sys [request]) :
    ∃ e', h.respond (sys.blamed e) none request =
      ((h.respond sys none request).1, (h.respond sys none request).2.1.blamed e', (h.respond sys none request).2.2) := by
  rcases hown with rfl | hown
  · exact ⟨_, rfl⟩
  by_cases hrequest : request = .call .close
  · subst hrequest
    obtain ⟨left, hleft⟩ := h.call_blamed sys e .close
    obtain ⟨hhandle, hreply⟩ := (h.sameIn_blamed sys e .close).2 fun ⟨_, _, hb⟩ => hb.elim
    exact ⟨left, Prod.ext hhandle (Prod.ext hleft hreply)⟩
  cases hs : h.stream with
  | none =>
    rw [respond_closed hs, respond_closed hs]
    exact ⟨e, rfl⟩
  | some s =>
    rw [BorrowsWithin, not_or] at hown
    have hsame := sameFor_blamed sys e s.fd
    obtain ⟨hhandle, hreply, hafter⟩ := respond_same (wraps_of_stream hs sys) hsame fun hb => hown.1 ⟨s, hs, hb⟩
    obtain ⟨c, hw, hhands⟩ := respond_hands (wraps_of_stream hs sys) hrequest
    obtain ⟨c', hw', hhands'⟩ := respond_hands (wraps_of_stream hs (sys.blamed e)) hrequest
    have hmid := hafter c.stream hw.stream
    rw [hhands.through.stream.fd, hw.system, hw'.system] at hmid
    have hmatches := (hhands.through.system.moves hhands'.through.system hmid).matches
    rw [← hw.system, ← hw'.system] at hmatches
    exact ⟨(h.respond (sys.blamed e) none request).2.1.lastError, Prod.ext hhandle (Prod.ext hmatches.eq hreply)⟩

end Handle

/-- A command on the system, the console and descriptors. -/
def Command.aside : Command → Bool
  | .askConsole _ _ | .prepareConsole | .openDescriptor _ _ _ _ | .makePipe _ _ | .writeDescriptor _ _
  | .closeDescriptor _ | .isOpen _ | .peek _ | .peekConsole _ | .count => true
  | _ => false

namespace Session

variable {f : Session} {e : Errno} {slots : List Slot} {pool : List Handle} {workers : Workers}

/-- A session with other names, another pool and other threads, for which the caller's last error is another. -/
def beside (f : Session) (e : Errno) (slots : List Slot) (pool : List Handle) (workers : Workers) : Session :=
  { f with system := f.system.blamed e, slots, pool, workers }

theorem number?_beside (descriptor : DescriptorRef) :
    (f.beside e slots pool workers).number? descriptor = f.number? descriptor := by
  cases descriptor <;> rfl

theorem onDescriptor_beside {α : Type} (descriptor : DescriptorRef) (op : String) (answer : α → Answer)
    (g : System → Nat → System × Except Errno α)
    (hg : ∀ sys e fd, g (sys.blamed e) fd = System.carried e (g sys fd)) :
    ∃ e', (f.beside e slots pool workers).onDescriptor descriptor op answer g =
      ((f.onDescriptor descriptor op answer g).1.beside e' slots pool workers,
        (f.onDescriptor descriptor op answer g).2) := by
  unfold onDescriptor
  rw [number?_beside]
  split
  · exact ⟨e, rfl⟩
  split
  · exact ⟨e, rfl⟩
  rename_i n _ _
  rw [show (f.beside e slots pool workers).system = f.system.blamed e from rfl, hg]
  rcases g f.system n.toNat with ⟨sys, x | a⟩
  · exact ⟨_, rfl⟩
  · exact ⟨e, rfl⟩

/-- Commands aside look at neither the names nor the pool, and leave both. -/
theorem step_beside (f : Session) (slots : List Slot) (pool : List Handle) (workers : Workers) {command : Command}
    (h : command.aside = true) (hown : e = f.system.lastError ∨ ∀ name request, command = .askConsole name request →
      ¬ (f.console.get name).BorrowsWithin f.system [request]) :
    ∃ e', (f.beside e slots pool workers).step command =
      ((f.step command).1.beside e' slots pool workers, (f.step command).2) := by
  cases command with
  | askConsole name request =>
    obtain ⟨left, hleft⟩ := (f.console.get name).respond_blamed f.system e request
      (hown.imp_right fun hno => hno name request rfl)
    have hleft : (f.console.get name).respond (f.beside e slots pool workers).system none request = _ := hleft
    refine ⟨left, ?_⟩
    simp only [step, askConsole]
    rw [show (f.beside e slots pool workers).console = f.console from rfl, hleft]
    rfl
  | openDescriptor name path reads writes =>
    simp only [step]
    rw [show (f.beside e slots pool workers).system = f.system.blamed e from rfl, System.openPath_blamed]
    rcases f.system.openPath path (plainMode reads writes) with ⟨sys, x | fd⟩
    · exact ⟨_, rfl⟩
    · exact ⟨e, rfl⟩
  | makePipe reader writer =>
    refine ⟨e, ?_⟩
    simp only [step, System.makePipe]
    rw [show (f.beside e slots pool workers).system = f.system.blamed e from rfl,
      show (f.system.blamed e).addDevice { content := .pipe [] } =
        ((f.system.addDevice { content := .pipe [] }).1.blamed e, (f.system.addDevice { content := .pipe [] }).2) from rfl]
    simp only [System.addDescriptor_blamed]
    rfl
  | writeDescriptor descriptor bytes =>
    exact onDescriptor_beside descriptor "write" .count (·.write · bytes) fun sys e fd => sys.write_blamed e fd bytes
  | closeDescriptor descriptor =>
    exact onDescriptor_beside descriptor "close" (fun _ => .done) System.close System.close_blamed
  | isOpen descriptor =>
    simp only [step, number?_beside]
    split <;> exact ⟨e, rfl⟩
  | peek path =>
    simp only [step, System.contents]
    rw [show (f.beside e slots pool workers).system = f.system.blamed e from rfl,
      show (f.system.blamed e).find path = f.system.find path from rfl]
    split
    · exact ⟨_, rfl⟩
    rename_i place _
    rw [show (f.system.blamed e).contentAt place = f.system.contentAt place from rfl]
    split <;> exact ⟨_, rfl⟩
  | prepareConsole => exact ⟨e, rfl⟩
  | peekConsole name => exact ⟨e, rfl⟩
  | count => exact ⟨e, rfl⟩
  | _ => cases h

end Session

end BufferedFiles
