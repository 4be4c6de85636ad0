import BufferedFiles.Proofs.LastError
import BufferedFiles.Proofs.Places
import BufferedFiles.Proofs.Rejection
import BufferedFiles.Session.Command

/-!
# Paths that are not opened

A path that is refused leaves no stream and no descriptor behind. Where the path or the mode is refused,
only the last error changes. The name of a conversion and a buffering value are looked at when the path is
open: where the one cannot be loaded or the other means nothing the path is closed again, and the files are
what opening it made of them.
-/
namespace BufferedFiles

namespace System

variable {a b c sys sys' : System} {path : Bytes} {mode : OpenMode} {place : List Name} {i : Nat}

theorem SameFiles.blamed (h : a.SameFiles b) (e e' : Errno) : (a.blamed e).SameFiles (b.blamed e') :=
  ⟨h.names, h.home, h.device⟩

theorem SameFiles.contentAt (h : a.SameFiles b) (place : List Name) :
    b.contentAt place = a.contentAt place := by
  simp only [System.contentAt, lookup, h.names, h.device]

theorem contentAt_addName (sys : System) (made place : List Name) (content : Content) :
    (sys.addName made content).1.contentAt place = sys.contentAt place ∨
      (sys.addName made content).1.contentAt place = some content ∧ sys.contentAt place = none := by
  simp only [System.contentAt, lookup_addName]
  cases sys.lookup place with
  | some k =>
    rw [Option.some_or, Option.bind_some, Option.bind_some, device?_addName]
    split
    · -- The name was there before, but its device was not.
      rename_i hdangling
      have hnone : sys.device? k = none := List.getElem?_eq_none (Nat.le_of_eq hdangling.symm)
      exact .inr ⟨rfl, by rw [hnone]; rfl⟩
    · exact .inl rfl
  | none =>
    rw [Option.none_or]
    split
    · rw [Option.bind_some, device?_addName, if_pos rfl]
      exact .inr ⟨rfl, rfl⟩
    · exact .inl rfl

theorem contentAt_setDevice {dev : Device} (hdev : sys.device? i = some dev) (dev' : Device) (place : List Name) :
    (sys.setDevice i dev').contentAt place = sys.contentAt place ∨
      (sys.setDevice i dev').contentAt place = some dev'.content ∧ sys.contentAt place = some dev.content := by
  have hsame : (sys.setDevice i dev').lookup place = sys.lookup place := rfl
  simp only [System.contentAt, hsame]
  cases sys.lookup place with
  | none => exact .inl rfl
  | some k =>
    rw [Option.bind_some, Option.bind_some, device?_setDevice]
    split
    · rename_i hk
      rw [← hk.1, hdev]
      exact .inr ⟨rfl, rfl⟩
    · exact .inl rfl

/-- What opening a path does to what is found at a place: an empty file is there where nothing was, or in
the place of a file that had bytes. -/
theorem Opens.contentAt (h : sys.Opens path mode sys' i) (place : List Name) :
    sys'.contentAt place = sys.contentAt place ∨ sys'.contentAt place = some (.regular []) ∧
      (mode.creates = true ∧ sys.contentAt place = none ∨
        mode.truncates = true ∧ ∃ data, sys.contentAt place = some (.regular data)) := by
  cases h with
  | found => exact .inl rfl
  | @made new hcreates =>
    refine (contentAt_addName sys new place (.regular [])).imp_right fun ⟨hnew, hnone⟩ => ?_
    exact ⟨hnew, .inl ⟨hcreates, hnone⟩⟩
  | @emptied _ _ dev data htruncates _ _ hdev hcontent =>
    refine (contentAt_setDevice hdev { dev with content := .regular [] } place).imp_right fun ⟨hnew, hold⟩ => ?_
    exact ⟨hnew, .inr ⟨htruncates, data, hold.trans (congrArg some hcontent)⟩⟩

/-- What opening a path does is the same whatever failed before. -/
theorem Opens.blamed (h : sys.Opens path mode sys' i) (e : Errno) :
    (sys.blamed e).Opens path mode (sys'.blamed e) i := by
  cases h with
  | made hcreates hplace => exact .made hcreates hplace
  | found hplace hlookup hdev => exact .found hplace hlookup hdev
  | emptied htruncates hplace hlookup hdev hcontent => exact .emptied htruncates hplace hlookup hdev hcontent

/-- A stream that was opened and is closed unused leaves what opening its path made of the files. -/
theorem openStream_close {text : Bytes} {s : Stream} (h : sys.openStream path text = (sys', .ok s)) :
    ∃ mode opened i, OpenMode.parse? OpenMode.pathReach text = some mode ∧ sys.Opens path mode opened i ∧
      opened.SameFiles (Connection.close ⟨s, sys'⟩).1 ∧ sys.SameStreams (Connection.close ⟨s, sys'⟩).1 := by
  obtain ⟨mode, opened, i, hmode, hopens, hs, hattaches⟩ := openStream_ok h
  obtain ⟨d, hd, -⟩ := hattaches.own
  have hpending : s.pending = [] := by rw [hs]
  have hcounted : s.counted = true := by rw [hs]
  obtain ⟨-, -, -, hcount⟩ := Connection.close_drops ⟨s, sys'⟩
  rcases hclose : Connection.close ⟨s, sys'⟩ with ⟨sys₁, result⟩
  obtain ⟨-, hdrops⟩ := Connection.close_drained (c := ⟨s, sys'⟩) hpending hd hclose
  rw [hclose] at hcount
  refine ⟨mode, opened, i, hmode, hopens, hattaches.sameFiles.trans hdrops.sameFiles,
    hopens.sameStreams.trans ⟨fun fd => ?_, ?_⟩⟩
  · by_cases hfd : fd = s.fd
    · subst hfd
      rw [hdrops.gone, hattaches.free]
    · exact (hdrops.others fd hfd).trans (hattaches.others fd hfd)
  · refine hcount.trans ?_
    rw [if_pos hcounted, hattaches.openStreams, Int.add_sub_cancel]

end System

namespace Handle

variable {sys sys' : System} {path : Bytes} {mode : String} {buffering : Option Int} {e : HandleError}

/-- The files after a path was opened in a mode, and closed again unused. -/
structure OpenedInVain (sys : System) (path : Bytes) (mode : OpenMode) (sys' : System) : Prop where
  opened : ∃ opened i, sys.Opens path mode opened i ∧ opened.SameFiles sys'
  content : ∀ place, sys'.contentAt place = sys.contentAt place ∨ sys'.contentAt place = some (.regular []) ∧
    (mode.creates = true ∧ sys.contentAt place = none ∨
      mode.truncates = true ∧ ∃ data, sys.contentAt place = some (.regular data))
  spared : mode.creates = false → mode.truncates = false → sys.SameFiles sys'

theorem openedInVain {mode : OpenMode} {opened : System} {i : Nat} (hopens : sys.Opens path mode opened i)
    (hsame : opened.SameFiles sys') : OpenedInVain sys path mode sys' where
  opened := ⟨opened, i, hopens, hsame⟩
  content place := by
    rw [hsame.contentAt place]
    exact hopens.contentAt place
  spared hcreates htruncates := (hopens.input hcreates htruncates).1 ▸ hsame

theorem OpenedInVain.blamed {mode : OpenMode} (h : OpenedInVain sys path mode sys') (e e' : Errno) :
    OpenedInVain (sys.blamed e) path mode (sys'.blamed e') where
  opened := by
    obtain ⟨opened, i, hopens, hsame⟩ := h.opened
    exact ⟨opened.blamed e, i, hopens.blamed e, hsame.blamed e e'⟩
  content := h.content
  spared hcreates htruncates := (h.spared hcreates htruncates).blamed e e'

/-- Which failure a stream that is not opened reports. -/
theorem openStream_refusal {text : Bytes} {er : StreamError}
    (h : sys.openStream path text = (sys', .error er)) :
    er = .interiorNul "fopen" ∧ (0 ∈ path ∨ 0 ∈ text) ∨ ∃ errno, er = .ofErrno "fopen" errno := by
  unfold System.openStream at h
  split at h
  · rename_i hnul
    cases h
    refine .inl ⟨rfl, ?_⟩
    simpa only [Bool.or_eq_true, List.contains_iff_mem] using hnul
  · split at h
    · cases h
      exact .inr ⟨_, rfl⟩
    · split at h
      · cases h
        exact .inr ⟨_, rfl⟩
      · split at h
        · cases h
          exact .inr ⟨_, rfl⟩
        · cases h

/-- What a refused path leaves, by the reason it is refused for. -/
theorem openPath_refused (h : openPath sys path mode buffering = (sys', .error e)) :
    sys.SameStreams sys' ∧
      ((∃ errno, sys' = { sys with lastError := errno }) ∧
          (e = .stream (.interiorNul "fopen") ∧ (0 ∈ path ∨ 0 ∈ toBytes mode) ∨
            ∃ errno, e = .stream (.ofErrno "fopen" errno)) ∨
        ∃ m, OpenMode.parse? OpenMode.pathReach (toBytes mode) = some m ∧ OpenedInVain sys path m sys' ∧
          ((e = .stream (.ofErrno "fopen" .invalidArgument) ∧
              ∃ name, OpenMode.charset? (toBytes mode) = some name ∧ name ∉ sys.charsets) ∨
            ∃ value, e = .invalidBuffering value ∧ buffering = some value ∧ value ∉ [-1, 0, 1])) := by
  rcases hopen : sys.openStream path (toBytes mode) with ⟨sys₁, er | u⟩
  · rw [openPath, hopen] at h
    cases h
    refine ⟨System.openStream_sameStreams hopen, ?_⟩
    rcases System.openStream_error hopen with hblamed | ⟨rfl, m, opened, i, name, hmode, hname, hmissing, hopens, hfiles, -⟩
    · refine .inl ⟨hblamed, ?_⟩
      rcases openStream_refusal hopen with ⟨rfl, hnul⟩ | ⟨number, rfl⟩
      · exact .inl ⟨rfl, hnul⟩
      · exact .inr ⟨number, rfl⟩
    · exact .inr ⟨m, hmode, openedInVain hopens hfiles, .inl ⟨rfl, name, hname, hmissing⟩⟩
  · have hmake : openPath sys path mode buffering = ofStream (Text.lossy path) mode u buffering sys₁ := by
      rw [openPath, hopen]
    rw [hmake] at h
    -- Of a stream that was just opened, a buffering value that means something makes a handle.
    have hb : ¬ Accepts buffering := fun hb => by
      obtain ⟨t, hmade, -⟩ := ofStream_fresh (System.openStream_fresh hopen).1 hb (Text.lossy path) mode
      rw [hmade] at h
      cases h
    obtain ⟨value, rfl, hvalue⟩ := not_accepts_iff.1 hb
    simp only [ofStream, Buffering.ofInt_of_not_mem hvalue] at h
    cases h
    obtain ⟨m, opened, i, hmode, hopens, hfiles, hstreams⟩ := System.openStream_close hopen
    exact ⟨hstreams, .inr ⟨m, hmode, openedInVain hopens hfiles, .inr ⟨value, rfl, rfl, hvalue⟩⟩⟩

end Handle

/-- Opening empties a file, and the buffering value is refused after that. -/
theorem Handle.refused_open_empties :
    ¬ ∀ (sys sys' : System) (path : Bytes) (mode : String) (buffering : Option Int) (e : HandleError),
      openPath sys path mode buffering = (sys', .error e) → sys.SameFiles sys' := by
  intro h
  have hsame := (h (System.fresh.addFile (toBytes "o.txt") (toBytes "old")) _ (toBytes "o.txt") "w" (some 2) _
    rfl).contentAt (System.homePath ++ [toBytes "o.txt"])
  exact absurd hsame (by decide)

namespace Session

variable {s s' : Session} {command : Command} {name mode : String} {path : Bytes} {buffering : Option Int}
  {e : HandleError}

/-- A command that opens a path leaves of the session, where it is refused, what opening the path leaves. -/
theorem refused_step
    (hcommand : command = .openHandle name path mode buffering ∨ command = .share name path mode buffering)
    (h : s.step command = (s', .refused e)) :
    ∃ sys, Handle.openPath s.system path mode buffering = (sys, .error e) ∧ s' = { s with system := sys } := by
  rcases hopen : Handle.openPath s.system path mode buffering with ⟨sys, er | u⟩
  · rcases hcommand with rfl | rfl <;>
    · simp only [step, register, registerShared, hopen] at h
      cases h
      exact ⟨sys, rfl, rfl⟩
  · rcases hcommand with rfl | rfl <;>
    · simp only [step, register, registerShared, hopen] at h
      cases h

/-- A path that is opened on another thread leaves that thread its last error, and the caller its own. -/
theorem refused_openShared (h : s.step (.openShared name path mode buffering) = (s', .refused e)) :
    ∃ sys, Handle.openPath s.worker path mode buffering = (sys, .error e) ∧
      s' = { s with
        system := sys.blamed s.system.lastError
        workers := s.workers.advance sys.lastError } := by
  rcases hopen : Handle.openPath s.worker path mode buffering with ⟨sys, er | u⟩
  · simp only [step, offload, registerShared, hopen] at h
    cases h
    exact ⟨sys, rfl, rfl⟩
  · simp only [step, offload, registerShared, hopen] at h
    cases h

/-- For every session, path, mode and buffering value: a path that is not opened, for a handle or for a
share, leaves the names, the handles and the console of the session, and every descriptor and the number of
open streams. It is refused for its path or mode, and then nothing but the last error changes, that of another
thread where the path is opened on one; or, once the path was opened, for a conversion that cannot be loaded or a
buffering value that means nothing, and then the files are what opening it left: as they were, or with one file
made or emptied as the mode says. -/
theorem refused_open_leaves
    (hcommand : command = .openHandle name path mode buffering ∨ command = .share name path mode buffering ∨
      command = .openShared name path mode buffering)
    (h : s.step command = (s', .refused e)) :
    s' = { s with system := s'.system, workers := s'.workers } ∧
      (s'.workers = s.workers ∨ command = .openShared name path mode buffering) ∧
      s.system.SameStreams s'.system ∧
      ((∃ errno, s'.system = { s.system with lastError := errno }) ∧
          (e = .stream (.interiorNul "fopen") ∧ (0 ∈ path ∨ 0 ∈ toBytes mode) ∨
            ∃ errno, e = .stream (.ofErrno "fopen" errno)) ∨
        ∃ m, OpenMode.parse? OpenMode.pathReach (toBytes mode) = some m ∧
          Handle.OpenedInVain s.system path m s'.system ∧
          ((e = .stream (.ofErrno "fopen" .invalidArgument) ∧
              ∃ name, OpenMode.charset? (toBytes mode) = some name ∧ name ∉ s.system.charsets) ∨
            ∃ value, e = .invalidBuffering value ∧ buffering = some value ∧ value ∉ [-1, 0, 1])) := by
  rw [← or_assoc] at hcommand
  rcases hcommand with hcaller | rfl
  · obtain ⟨sys, hopen, rfl⟩ := refused_step hcaller h
    exact ⟨rfl, .inl rfl, Handle.openPath_refused hopen⟩
  · obtain ⟨sys, hopen, rfl⟩ := refused_openShared h
    obtain ⟨hstreams, hcase⟩ := Handle.openPath_refused hopen
    refine ⟨rfl, .inr rfl, ⟨hstreams.descriptor, hstreams.count⟩, ?_⟩
    rcases hcase with ⟨⟨errno, rfl⟩, hreason⟩ | ⟨m, hmode, hvain, hreason⟩
    · exact .inl ⟨⟨s.system.lastError, rfl⟩, hreason⟩
    · exact .inr ⟨m, hmode, hvain.blamed s.system.lastError s.system.lastError, hreason⟩

/-- A file is read with a buffering value that means nothing: it is as it was. -/
theorem refused_read_leaves :
    let s : Session := { system := System.fresh.addFile (toBytes "o.txt") (toBytes "old") }
    ∃ s', s.step (.openShared "f" (toBytes "o.txt") "r" (some 2)) = (s', .refused (.invalidBuffering 2)) ∧
      s.system.SameStreams s'.system ∧ s.system.SameFiles s'.system := by
  intro s
  obtain ⟨-, -, hstreams, hcase⟩ :=
    @refused_open_leaves s _ (.openShared "f" (toBytes "o.txt") "r" (some 2)) _ _ _ _ _ (.inr (.inr rfl)) rfl
  refine ⟨_, rfl, hstreams, ?_⟩
  rcases hcase with ⟨-, ⟨hno, -⟩ | ⟨_, hno⟩⟩ | ⟨m, hmode, hvain, -⟩
  · cases hno
  · cases hno
  · cases hmode
    exact hvain.spared rfl rfl

end Session

end BufferedFiles
