import BufferedFiles.Proofs.ClosedHandles
import BufferedFiles.Proofs.Independence
import BufferedFiles.Proofs.OutputOrder

/-!
# Requests as operations

What is asked of an open handle comes to operations of its stream, one after the other: one operation for a
call, a series of reads or of writes for a transfer. What holds of every operation so holds of a request: it
hands on bytes in order, and in a system the stream cannot tell apart it does the same, unless an operation of
it borrows the last error.
-/
namespace BufferedFiles

namespace Connection

variable {c : Connection} {b : System} {ops : List Operation}

/-- A connection after operations, one after the other. -/
def operateAll (c : Connection) : List Operation → Connection
  | [] => c
  | op :: ops => (c.operate op).1.operateAll ops

/-- Each of the operations is carried out in full. -/
def CompletesAll (c : Connection) : List Operation → Prop
  | [] => True
  | op :: ops => c.Completes op ∧ (c.operate op).1.CompletesAll ops

/-- An operation that takes its failure from what was the last error before it. -/
def BorrowsBy (c : Connection) : Operation → Prop
  | .read n => c.BorrowsBytes n
  | .readLine max => c.BorrowsLine max
  | _ => False

/-- One of the operations borrows. -/
def BorrowsAmong (c : Connection) : List Operation → Prop
  | [] => False
  | op :: ops => c.BorrowsBy op ∨ (c.operate op).1.BorrowsAmong ops

theorem hands_operateAll (h : ∀ op ∈ ops, op.Ordinary) :
    c.Hands (c.operateAll ops) (ops.flatMap Operation.given) (c.CompletesAll ops) := by
  induction ops generalizing c with
  | nil => exact .refl c
  | cons op ops ih =>
    rw [List.forall_mem_cons] at h
    exact (hands_operate c h.1).trans (ih h.2)

end Connection

/-- Two outcomes are the same, in systems a stream on the descriptor cannot tell apart. -/
structure Outcome.Same {ε α : Type} (fd : Nat) (r r' : Outcome ε α) : Prop where
  handle : r'.handle = r.handle
  result : r'.result = r.result
  system : System.SameFor fd r.system r'.system

namespace Outcome

variable {α β : Type} {fd : Nat}

theorem Same.toTransfer {r r' : Outcome HandleError α} (h : r.Same fd r') : r.toTransfer.Same fd r'.toTransfer :=
  ⟨h.handle, congrArg (Except.mapError TransferError.ofHandleError) h.result, h.system⟩

theorem Same.replyTransfer {r r' : Outcome TransferError α} (h : r.Same fd r') (f : α → Answer) :
    (r'.replyTransfer f).1 = (r.replyTransfer f).1 ∧ (r'.replyTransfer f).2.2 = (r.replyTransfer f).2.2 ∧
      System.SameFor fd (r.replyTransfer f).2.1 (r'.replyTransfer f).2.1 :=
  ⟨h.handle, congrArg (Reply.ofTransfer f) h.result, h.system⟩

end Outcome

namespace Handle

variable {h : Handle} {sys a b : System} {c : Connection} {bytes : Bytes} {n : Nat}

/-- The reads of a transfer of an exact number of bytes. -/
def exactReads : Nat → Handle → System → Nat → List Operation
  | 0, _, _, _ => []
  | calls + 1, h, sys, n =>
    if n = 0 then [] else
    let r := h.readSome sys n
    .read n :: match r.result with
      | .error e => if e.kind = .interrupted then exactReads calls r.handle r.system n else []
      | .ok [] => []
      | .ok bytes => exactReads calls r.handle r.system (n - bytes.length)

/-- The reads of a transfer to the end. -/
def endReads : Nat → Handle → System → Nat → List Operation
  | 0, _, _, _ => []
  | calls + 1, h, sys, got =>
    let r := h.readSome sys (max probeSize got)
    .read (max probeSize got) :: match r.result with
      | .error e => if e.kind = .interrupted then endReads calls r.handle r.system got else []
      | .ok [] => []
      | .ok bytes => endReads calls r.handle r.system (got + bytes.length)

/-- The writes of a transfer. One that is interrupted is made again with the same bytes. -/
def allWrites : Nat → Handle → System → Bytes → List Operation
  | 0, _, _, _ => []
  | calls + 1, h, sys, bytes =>
    if bytes.isEmpty then [] else
    let r := h.writeSome sys bytes
    .write bytes :: match r.result with
      | .error e => if e.kind = .interrupted then allWrites calls r.handle r.system bytes else []
      | .ok 0 => []
      | .ok n => allWrites calls r.handle r.system (bytes.drop n)

/-- The operations a request to an open handle comes to. A close first hands on what is pending, as a flush does. -/
def operations (h : Handle) (sys : System) : Request → List Operation
  | .call (.read max) => [.read (boundFor (max.map Int.ofNat))]
  | .call (.readLine max) => [.readLine (boundFor (max.map Int.ofNat))]
  | .call (.write bytes) | .transfer (.writeSome bytes) => [.write bytes]
  | .call .flush | .call .close | .transfer .flush => [.flush]
  | .call (.seek target) | .transfer (.seek target) => [.seek target]
  | .call .tell => [.tell]
  | .transfer (.readSome n) => [.read n]
  | .transfer (.readExact n) => exactReads callLimit h sys n
  | .transfer .readToEnd | .transfer .readText => endReads callLimit h sys 0
  | .transfer (.writeAll bytes) => allWrites callLimit h sys bytes
  | .transfer .rewind => [.seek (.start 0)]
  | .transfer .position => [.seek (.current 0)]
  | .query _ | .fillBuffer _ | .setDiscipline _ => []

/-- The handle is over the stream of a connection, in its system. -/
structure Wraps (h : Handle) (sys : System) (c : Connection) : Prop where
  stream : h.stream = some c.stream
  system : sys = c.system

theorem wraps_of_stream {s : Stream} (hs : h.stream = some s) (sys : System) : h.Wraps sys ⟨s, sys⟩ := ⟨hs, rfl⟩

/-- What a handle does through its stream is done to the connection. -/
theorem Wraps.onStream {α : Type} (hw : h.Wraps sys c) (f : Connection → Connection × Except StreamError α) :
    (h.onStream sys f).handle.Wraps (h.onStream sys f).system (f c).1 := by
  obtain ⟨hs, rfl⟩ := hw
  simp only [Handle.onStream, hs]
  exact ⟨rfl, rfl⟩

theorem Wraps.readSome (hw : h.Wraps sys c) (n : Nat) :
    (h.readSome sys n).handle.Wraps (h.readSome sys n).system (c.operate (.read n)).1 := hw.onStream _

theorem Wraps.writeSome (hw : h.Wraps sys c) (bytes : Bytes) :
    (h.writeSome sys bytes).handle.Wraps (h.writeSome sys bytes).system (c.operate (.write bytes)).1 := hw.onStream _

theorem Wraps.readExact (calls : Nat) (hw : h.Wraps sys c) (n : Nat) :
    (readExact calls h sys n).handle.Wraps (readExact calls h sys n).system
      (c.operateAll (exactReads calls h sys n)) := by
  induction calls generalizing h sys c n with
  | zero => exact hw
  | succ calls ih =>
    have hone := hw.readSome n
    unfold Handle.readExact exactReads
    split
    · exact hw
    rcases hresult : (h.readSome sys n).result with e | _ | ⟨x, xs⟩ <;> simp only [hresult]
    · split
      · exact ih hone n
      · exact hone
    · exact hone
    · exact ih hone _

theorem Wraps.readToEnd (calls : Nat) (hw : h.Wraps sys c) (got : Nat) :
    (readToEnd calls h sys got).handle.Wraps (readToEnd calls h sys got).system
      (c.operateAll (endReads calls h sys got)) := by
  induction calls generalizing h sys c got with
  | zero => exact hw
  | succ calls ih =>
    have hone := hw.readSome (max probeSize got)
    unfold Handle.readToEnd endReads
    rcases hresult : (h.readSome sys (max probeSize got)).result with e | _ | ⟨x, xs⟩ <;> simp only [hresult]
    · split
      · exact ih hone got
      · exact hone
    · exact hone
    · exact ih hone _

theorem Wraps.writeAll (calls : Nat) (hw : h.Wraps sys c) (bytes : Bytes) :
    (writeAll calls h sys bytes).handle.Wraps (writeAll calls h sys bytes).system
      (c.operateAll (allWrites calls h sys bytes)) := by
  induction calls generalizing h sys c bytes with
  | zero => exact hw
  | succ calls ih =>
    have hone := hw.writeSome bytes
    unfold Handle.writeAll allWrites
    split
    · exact hw
    rcases hresult : (h.writeSome sys bytes).result with e | _ | n <;> simp only [hresult]
    · split
      · exact ih hone bytes
      · exact hone
    · exact hone
    · exact ih hone _

/-- A request to an open handle does its operations, one after the other. -/
theorem respond_wraps (hw : h.Wraps sys c) {request : Request} (hrequest : request ≠ .call .close) :
    (h.respond sys none request).1.Wraps (h.respond sys none request).2.1 (c.operateAll (h.operations sys request)) := by
  rcases request with call | query | transfer | buffer | discipline
  · cases call with
    | close => exact absurd rfl hrequest
    | _ => exact hw.onStream _
  · exact hw
  · cases transfer with
    | readExact n => exact hw.readExact callLimit n
    | readToEnd => exact hw.readToEnd callLimit 0
    | readText => exact hw.readToEnd callLimit 0
    | writeAll bytes => exact hw.writeAll callLimit bytes
    | _ => exact hw.onStream _
  · exact hw
  · exact hw

theorem exactReads_ordinary (calls : Nat) (h : Handle) (sys : System) (n : Nat) :
    ∀ op ∈ exactReads calls h sys n, op.Ordinary := by
  induction calls generalizing h sys n with
  | zero => exact fun _ hop => absurd hop List.not_mem_nil
  | succ calls ih =>
    unfold exactReads
    split
    · exact fun _ hop => absurd hop List.not_mem_nil
    refine List.forall_mem_cons.2 ⟨trivial, ?_⟩
    rcases (h.readSome sys n).result with e | _ | ⟨x, xs⟩
    · dsimp only
      split
      · exact ih _ _ _
      · exact fun _ hop => absurd hop List.not_mem_nil
    · exact fun _ hop => absurd hop List.not_mem_nil
    · exact ih _ _ _

theorem endReads_ordinary (calls : Nat) (h : Handle) (sys : System) (got : Nat) :
    ∀ op ∈ endReads calls h sys got, op.Ordinary := by
  induction calls generalizing h sys got with
  | zero => exact fun _ hop => absurd hop List.not_mem_nil
  | succ calls ih =>
    unfold endReads
    refine List.forall_mem_cons.2 ⟨trivial, ?_⟩
    rcases (h.readSome sys (max probeSize got)).result with e | _ | ⟨x, xs⟩
    · dsimp only
      split
      · exact ih _ _ _
      · exact fun _ hop => absurd hop List.not_mem_nil
    · exact fun _ hop => absurd hop List.not_mem_nil
    · exact ih _ _ _

theorem allWrites_ordinary (calls : Nat) (h : Handle) (sys : System) (bytes : Bytes) :
    ∀ op ∈ allWrites calls h sys bytes, op.Ordinary := by
  induction calls generalizing h sys bytes with
  | zero => exact fun _ hop => absurd hop List.not_mem_nil
  | succ calls ih =>
    unfold allWrites
    split
    · exact fun _ hop => absurd hop List.not_mem_nil
    refine List.forall_mem_cons.2 ⟨trivial, ?_⟩
    rcases (h.writeSome sys bytes).result with e | _ | n
    · dsimp only
      split
      · exact ih _ _ _
      · exact fun _ hop => absurd hop List.not_mem_nil
    · exact fun _ hop => absurd hop List.not_mem_nil
    · exact ih _ _ _

/-- No request comes to a change of the discipline. -/
theorem operations_ordinary (h : Handle) (sys : System) (request : Request) :
    ∀ op ∈ h.operations sys request, op.Ordinary := by
  have hone : ∀ {op : Operation}, op.Ordinary → ∀ op' ∈ [op], op'.Ordinary := fun hop op' hmem =>
    List.mem_singleton.1 hmem ▸ hop
  have hnone : ∀ op ∈ ([] : List Operation), op.Ordinary := fun _ hop => absurd hop List.not_mem_nil
  rcases request with call | query | transfer | buffer | discipline
  · cases call <;> exact hone trivial
  · exact hnone
  · cases transfer with
    | readExact n => exact exactReads_ordinary callLimit h sys n
    | readToEnd => exact endReads_ordinary callLimit h sys 0
    | readText => exact endReads_ordinary callLimit h sys 0
    | writeAll bytes => exact allWrites_ordinary callLimit h sys bytes
    | _ => exact hone trivial
  · exact hnone
  · exact hnone

/-- A request to an open handle hands on what was pending and what it writes. -/
theorem respond_hands (hw : h.Wraps sys c) {request : Request} (hrequest : request ≠ .call .close) :
    ∃ c', (h.respond sys none request).1.Wraps (h.respond sys none request).2.1 c' ∧
      c.Hands c' ((h.operations sys request).flatMap Operation.given) (c.CompletesAll (h.operations sys request)) :=
  ⟨_, respond_wraps hw hrequest, Connection.hands_operateAll (operations_ordinary h sys request)⟩

theorem onStream_same {α : Type} {f : Connection → Connection × Except StreamError α} (hw : h.Wraps a c)
    (hf : (f ⟨c.stream, b⟩).1.stream = (f c).1.stream ∧ (f ⟨c.stream, b⟩).2 = (f c).2)
    (hafter : System.SameFor c.stream.fd (f c).1.system (f ⟨c.stream, b⟩).1.system) :
    Outcome.Same c.stream.fd (h.onStream a f) (h.onStream b f) := by
  obtain ⟨hs, rfl⟩ := hw
  simp only [onStream, hs]
  refine ⟨?_, ?_, hafter⟩
  · rw [hf.1]
  · rw [hf.2]

theorem readSome_same (hw : h.Wraps a c) (hsame : System.SameFor c.stream.fd a b) (hown : ¬ c.BorrowsBytes n) :
    Outcome.Same c.stream.fd (h.readSome a n) (h.readSome b n) := by
  obtain ⟨hs, rfl⟩ := hw
  have hf := (Connection.read_same_iff hsame n).2 fun hb => absurd hb hown
  exact (onStream_same ⟨hs, rfl⟩ hf (Connection.read_sameFor hsame n)).toTransfer

/-- Where operations cannot tell the systems apart, neither can the handle. -/
theorem concurs_same {α : Type} {f : Connection → Connection × Except StreamError α} (hw : h.Wraps a c)
    (hf : c.Concurs b (fun _ => True) (f c) (f ⟨c.stream, b⟩)) (hthrough : c.Through (f c).1) :
    Outcome.Same c.stream.fd (h.onStream a f) (h.onStream b f) :=
  onStream_same hw hf.same (hf.sameFor hthrough)

theorem writeSome_same (hw : h.Wraps a c) (hsame : System.SameFor c.stream.fd a b) (bytes : Bytes) :
    Outcome.Same c.stream.fd (h.writeSome a bytes) (h.writeSome b bytes) := by
  obtain ⟨hs, rfl⟩ := hw
  exact (concurs_same ⟨hs, rfl⟩ (Connection.concurs_write hsame bytes) (Connection.through_write c bytes)).toTransfer

theorem seek_same (hw : h.Wraps a c) (hsame : System.SameFor c.stream.fd a b) (target : Target) :
    Outcome.Same c.stream.fd (h.seek a target) (h.seek b target) := by
  obtain ⟨hs, rfl⟩ := hw
  exact concurs_same ⟨hs, rfl⟩ (Connection.concurs_seek hsame target) (Connection.through_seek c target)

theorem readExact_same (calls : Nat) (hw : h.Wraps a c) (hsame : System.SameFor c.stream.fd a b)
    (hown : ¬ c.BorrowsAmong (exactReads calls h a n)) :
    Outcome.Same c.stream.fd (readExact calls h a n) (readExact calls h b n) := by
  induction calls generalizing h a b c n with
  | zero => exact ⟨rfl, rfl, hsame⟩
  | succ calls ih =>
    unfold exactReads at hown
    unfold readExact
    by_cases hn : n = 0
    · rw [if_pos hn, if_pos hn]
      exact ⟨rfl, rfl, hsame⟩
    rw [if_neg hn, Connection.BorrowsAmong, not_or] at hown
    rw [if_neg hn, if_neg hn]
    obtain ⟨hhandle, hresult, hsystem⟩ := readSome_same hw hsame hown.1
    have hnext := hw.readSome n
    have hfd : (c.operate (.read n)).1.stream.fd = c.stream.fd := (Connection.through_read c n).stream.fd
    rw [← hfd] at hsystem ⊢
    rcases hfirst : (h.readSome a n).result with e | _ | ⟨x, xs⟩ <;> rw [hfirst] at hresult hown <;>
      simp only [hfirst, hresult, hhandle]
    · by_cases he : e.kind = .interrupted
      · have hown := hown.2
        dsimp only at hown
        rw [if_pos he] at hown
        rw [if_pos he, if_pos he]
        exact ih hnext hsystem hown
      · rw [if_neg he, if_neg he]
        exact ⟨rfl, rfl, hsystem⟩
    · exact ⟨rfl, rfl, hsystem⟩
    · obtain ⟨hhandle', hresult', hsystem'⟩ := ih hnext hsystem hown.2
      exact ⟨hhandle', congrArg (Except.map (x :: xs ++ ·)) hresult', hsystem'⟩

theorem readToEnd_same (calls : Nat) {got : Nat} (hw : h.Wraps a c) (hsame : System.SameFor c.stream.fd a b)
    (hown : ¬ c.BorrowsAmong (endReads calls h a got)) :
    Outcome.Same c.stream.fd (readToEnd calls h a got) (readToEnd calls h b got) := by
  induction calls generalizing h a b c got with
  | zero => exact ⟨rfl, rfl, hsame⟩
  | succ calls ih =>
    unfold endReads at hown
    unfold readToEnd
    rw [Connection.BorrowsAmong, not_or] at hown
    obtain ⟨hhandle, hresult, hsystem⟩ := readSome_same hw hsame hown.1
    have hnext := hw.readSome (max probeSize got)
    have hfd : (c.operate (.read (max probeSize got))).1.stream.fd = c.stream.fd :=
      (Connection.through_read c _).stream.fd
    rw [← hfd] at hsystem ⊢
    rcases hfirst : (h.readSome a (max probeSize got)).result with e | _ | ⟨x, xs⟩ <;>
      rw [hfirst] at hresult hown <;> simp only [hfirst, hresult, hhandle]
    · by_cases he : e.kind = .interrupted
      · have hown := hown.2
        dsimp only at hown
        rw [if_pos he] at hown
        rw [if_pos he, if_pos he]
        exact ih hnext hsystem hown
      · rw [if_neg he, if_neg he]
        exact ⟨rfl, rfl, hsystem⟩
    · exact ⟨rfl, rfl, hsystem⟩
    · obtain ⟨hhandle', hresult', hsystem'⟩ := ih hnext hsystem hown.2
      exact ⟨hhandle', congrArg (Except.map (x :: xs ++ ·)) hresult', hsystem'⟩

theorem writeAll_same (calls : Nat) (hw : h.Wraps a c) (hsame : System.SameFor c.stream.fd a b) :
    Outcome.Same c.stream.fd (writeAll calls h a bytes) (writeAll calls h b bytes) := by
  induction calls generalizing h a b c bytes with
  | zero => exact ⟨rfl, rfl, hsame⟩
  | succ calls ih =>
    unfold writeAll
    by_cases hb : bytes.isEmpty = true
    · rw [if_pos hb, if_pos hb]
      exact ⟨rfl, rfl, hsame⟩
    rw [if_neg hb, if_neg hb]
    obtain ⟨hhandle, hresult, hsystem⟩ := writeSome_same hw hsame bytes
    have hnext := hw.writeSome bytes
    have hfd : (c.operate (.write bytes)).1.stream.fd = c.stream.fd := (Connection.through_write c bytes).stream.fd
    rw [← hfd] at hsystem ⊢
    rcases hfirst : (h.writeSome a bytes).result with e | _ | n <;> rw [hfirst] at hresult <;>
      simp only [hfirst, hresult, hhandle]
    · by_cases he : e.kind = .interrupted
      · rw [if_pos he, if_pos he]
        exact ih hnext hsystem
      · rw [if_neg he, if_neg he]
        exact ⟨rfl, rfl, hsystem⟩
    · exact ⟨rfl, rfl, hsystem⟩
    · exact ih hnext hsystem

/-- What becomes of a handle and the system when something is asked of it. A closed one is left as it is, a close leaves
none open, and anything else is done to the stream that is there. -/
theorem respond_cases (h : Handle) (sys : System) (request : Request) :
    (h.stream = none ∧ (h.respond sys none request).1 = h ∧ (h.respond sys none request).2.1 = sys) ∨
    (∃ s, h.stream = some s ∧ request = .call .close ∧ (h.respond sys none request).1.stream = none ∧
      (h.respond sys none request).2.1 = (Connection.close ⟨s, sys⟩).1) ∨
    (∃ s c, h.stream = some s ∧ request ≠ .call .close ∧
      (h.respond sys none request).1.Wraps (h.respond sys none request).2.1 c ∧
      Connection.Hands ⟨s, sys⟩ c ((h.operations sys request).flatMap Operation.given)
        (Connection.CompletesAll ⟨s, sys⟩ (h.operations sys request))) := by
  cases hs : h.stream with
  | none => exact .inl ⟨rfl, by rw [respond_closed hs], by rw [respond_closed hs]⟩
  | some s =>
    by_cases hrequest : request = .call .close
    · subst hrequest
      rw [respond, call_close hs]
      exact .inr (.inl ⟨s, rfl, rfl, rfl, rfl⟩)
    · obtain ⟨c, hw, hhands⟩ := respond_hands (wraps_of_stream hs sys) hrequest
      exact .inr (.inr ⟨s, c, rfl, hrequest, hw, hhands⟩)

theorem borrows_iff (hw : h.Wraps a c) (call : Call) : h.Borrows a call ↔ c.BorrowsAmong (h.operations a (.call call)) := by
  obtain ⟨hs, rfl⟩ := hw
  have hborrows : h.Borrows c.system call ↔ c.Borrows call := by
    constructor
    · rintro ⟨t, ht, hb⟩
      cases hs.symm.trans ht
      exact hb
    · exact fun hb => ⟨c.stream, hs, hb⟩
  rw [hborrows]
  cases call <;> simp [operations, Connection.BorrowsAmong, Connection.BorrowsBy, Connection.Borrows]

theorem transfer_same (hw : h.Wraps a c) (hsame : System.SameFor c.stream.fd a b) {t : Transfer}
    (hown : ¬ c.BorrowsAmong (h.operations a (.transfer t))) :
    (h.transfer b t).1 = (h.transfer a t).1 ∧ (h.transfer b t).2.2 = (h.transfer a t).2.2 ∧
      System.SameFor c.stream.fd (h.transfer a t).2.1 (h.transfer b t).2.1 := by
  cases t with
  | readSome n => exact (readSome_same hw hsame fun hb => hown (.inl hb)).replyTransfer _
  | readExact n => exact (readExact_same callLimit hw hsame hown).replyTransfer _
  | readToEnd => exact (readToEnd_same callLimit hw hsame hown).replyTransfer _
  | readText =>
    obtain ⟨hhandle, hresult, hsystem⟩ := readToEnd_same callLimit hw hsame hown
    have htext : Outcome.Same c.stream.fd (h.readText a) (h.readText b) := by
      refine ⟨hhandle, ?_, hsystem⟩
      simp only [readText, hresult]
    exact htext.replyTransfer _
  | writeSome bytes => exact (writeSome_same hw hsame bytes).replyTransfer _
  | writeAll bytes => exact (writeAll_same callLimit hw hsame).replyTransfer _
  | flush =>
    obtain ⟨hs, rfl⟩ := hw
    have hflush : Outcome.Same c.stream.fd (h.flush c.system) (h.flush b) :=
      concurs_same ⟨hs, rfl⟩ (Connection.concurs_flush hsame) (Connection.through_flush c)
    exact hflush.toTransfer.replyTransfer _
  | seek target => exact (seek_same hw hsame target).toTransfer.replyTransfer _
  | rewind => exact (seek_same hw hsame (.start 0)).toTransfer.replyTransfer _
  | position => exact (seek_same hw hsame (.current 0)).toTransfer.replyTransfer _

/-- A request to an open handle does the same in systems its stream cannot tell apart, unless an operation of it
borrows. -/
theorem respond_same (hw : h.Wraps a c) (hsame : System.SameFor c.stream.fd a b) {request : Request}
    (hown : ¬ c.BorrowsAmong (h.operations a request)) :
    (h.respond b none request).1 = (h.respond a none request).1 ∧
      (h.respond b none request).2.2 = (h.respond a none request).2.2 ∧
      ∀ t, (h.respond a none request).1.stream = some t →
        System.SameFor t.fd (h.respond a none request).2.1 (h.respond b none request).2.1 := by
  have hstream : ∀ s, h.stream = some s → System.SameFor s.fd a b := fun s hs => by
    cases hs.symm.trans hw.stream
    exact hsame
  have hkeep : ∀ t, h.stream = some t → System.SameFor t.fd a b := hstream
  rcases request with call | query | transfer | buffer | discipline
  · obtain ⟨⟨hhandle, hreply⟩, hafter⟩ := call_same hstream fun hb => hown ((borrows_iff hw call).1 hb)
    exact ⟨hhandle, hreply, hafter⟩
  · exact ⟨rfl, rfl, hkeep⟩
  · obtain ⟨hhandle, hreply, hsystem⟩ := transfer_same hw hsame hown
    have hopen : Request.transfer transfer ≠ .call .close := nofun
    obtain ⟨c', hw', hhands⟩ := respond_hands hw hopen
    refine ⟨hhandle, hreply, fun t ht => ?_⟩
    cases ht.symm.trans hw'.stream
    rw [hhands.through.stream.fd]
    exact hsystem
  · exact ⟨rfl, rfl, hkeep⟩
  · exact ⟨rfl, rfl, hkeep⟩

/-- A request to a handle changes nothing a stream can tell whose descriptor is apart. -/
theorem respond_sameFor {fd : Nat} (hapart : ∀ s, h.stream = some s → sys.Apart fd s.fd) (request : Request) :
    System.SameFor fd sys (h.respond sys none request).2.1 := by
  obtain ⟨-, -, hsystem⟩ | ⟨s, -, rfl, -⟩ | ⟨s, c', hs, -, hw', hhands⟩ := h.respond_cases sys request
  · rw [hsystem]
    exact .refl fd sys
  · exact call_sameFor hapart .close
  · rw [hw'.system]
    exact hhands.through.system.sameFor (hapart s hs)

/-- An operation of one of the requests borrows. -/
def BorrowsWithin (h : Handle) (sys : System) : List Request → Prop
  | [] => False
  | request :: rest =>
    (∃ s, h.stream = some s ∧ Connection.BorrowsAmong ⟨s, sys⟩ (h.operations sys request)) ∨
      (h.respond sys none request).1.BorrowsWithin (h.respond sys none request).2.1 rest

/-- Requests that do not borrow get the same replies in systems the stream of the handle cannot tell apart. -/
theorem run_same (requests : List Request) (hsame : ∀ s, h.stream = some s → System.SameFor s.fd a b)
    (hown : ¬ h.BorrowsWithin a requests) :
    (h.run b requests).1 = (h.run a requests).1 ∧ (h.run b requests).2.2 = (h.run a requests).2.2 := by
  induction requests generalizing h a b with
  | nil => exact ⟨rfl, rfl⟩
  | cons request rest ih =>
    rw [BorrowsWithin, not_or] at hown
    have hfirst : (h.respond b none request).1 = (h.respond a none request).1 ∧
        (h.respond b none request).2.2 = (h.respond a none request).2.2 ∧
        ∀ t, (h.respond a none request).1.stream = some t →
          System.SameFor t.fd (h.respond a none request).2.1 (h.respond b none request).2.1 := by
      cases hs : h.stream with
      | none =>
        rw [respond_closed hs, respond_closed hs]
        refine ⟨rfl, rfl, fun t ht => ?_⟩
        rw [hs] at ht
        cases ht
      | some s => exact respond_same (wraps_of_stream hs a) (hsame s hs) fun hb => hown.1 ⟨s, hs, hb⟩
    obtain ⟨hhandle, hreply, hafter⟩ := hfirst
    obtain ⟨hfinal, hreplies⟩ := ih hafter hown.2
    simp only [run, hhandle, hreply]
    exact ⟨hfinal, congrArg _ hreplies⟩

end Handle

end BufferedFiles
