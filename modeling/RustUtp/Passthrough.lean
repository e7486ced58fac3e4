import RustUtp.Handles

/-! # Datagrams of others

    Whatever does not look like uTP is kept for `recv_from`, which hands the
    datagrams out in the order in which they came in, each once and cut to the
    size of its buffer.  The engine takes no notice of them. -/

namespace UtpPassthrough

open UtpPacket UtpUtil UtpConnShared UtpEngine UtpActs UtpSocket UtpHandles

/-! ## Which datagrams are kept -/

/-- The datagram does not look like uTP. -/
def Foreign (buf : Bytes) (addr : SocketAddr) : Prop :=
  buf.length < headerSize ∨ addr.port = 0 ∨ wireVersion buf ≠ 1

instance (buf : Bytes) (addr : SocketAddr) : Decidable (Foreign buf addr) :=
  inferInstanceAs (Decidable (_ ∨ _))

/-- The datagrams that are kept when a call is made: foreign ones, while there
    is room. -/
def kept (g : Inner) : Call → List (Bytes × SocketAddr)
  | .received buf addr _ _ =>
      if Foreign buf addr ∧ g.nonUtp.length < nonUtpBacklog then [(buf, addr)] else []
  | _ => []

variable {g g' : Inner} {ctx : Context} {buf : Bytes} {addr : SocketAddr}
  {firewall : SocketAddr → Bool}

/-- The engine hands back what is no datagram of this protocol and keeps its
    state. -/
theorem processUdp_foreign (h : Foreign buf addr) :
    ctx.processUdp buf addr firewall = (ctx, .notUtp) := by
  unfold Context.processUdp
  dsimp only
  split
  · rfl
  · rename_i hlong
    split
    · rfl
    · rename_i hport
      exact if_pos ((h.resolve_left hlong).resolve_left hport)

/-- It hands back nothing else. -/
theorem processUdp_native (h : ¬ Foreign buf addr) :
    (ctx.processUdp buf addr firewall).2 ≠ .notUtp := by
  unfold Foreign at h
  rw [not_or, not_or, ne_eq, not_not] at h
  obtain ⟨hlong, hport, hversion⟩ := h
  unfold Context.processUdp
  dsimp only
  rw [if_neg hlong, if_neg hport, if_neg (not_not.mpr hversion)]
  split
  · split <;> exact ProcessUdp.noConfusion
  · split
    · exact ProcessUdp.noConfusion
    · split
      · exact ProcessUdp.noConfusion
      · split
        · exact ProcessUdp.noConfusion
        · split
          · exact ProcessUdp.noConfusion
          · split <;> exact ProcessUdp.noConfusion

/-- A datagram that the engine hands back waits for `recv_from`, if there is
    room. -/
theorem kept_processDatagram (g : Inner) (buf : Bytes) (addr : SocketAddr)
    (firewall : SocketAddr → Bool) (order : List Key) :
    (g.processDatagram buf addr firewall).nonUtp
        = g.nonUtp ++ kept g (.received buf addr firewall order)
      ∧ (g.processDatagram buf addr firewall).closed = g.closed := by
  unfold Inner.processDatagram
  -- what is not uTP is queued while there is room
  by_cases hforeign : Foreign buf addr
  · rw [processUdp_foreign hforeign]
    unfold kept
    dsimp only
    by_cases hroom : g.nonUtp.length < nonUtpBacklog
    · rw [if_pos hroom, if_pos ⟨hforeign, hroom⟩]
      exact ⟨rfl, rfl⟩
    · rw [if_neg hroom, if_neg (fun h => hroom h.2)]
      exact ⟨(List.append_nil _).symm, rfl⟩
  · -- everything else leaves the queue
    have hnil : kept g (.received buf addr firewall order) = [] :=
      if_neg (fun h => hforeign h.1)
    have hne : (g.ctx.processUdp buf addr firewall).2 ≠ .notUtp := processUdp_native hforeign
    rw [hnil, List.append_nil]
    generalize g.ctx.processUdp buf addr firewall = r at hne ⊢
    dsimp only
    split
    · rename_i heq
      exact absurd heq hne
    · exact ⟨rfl, rfl⟩
    · split <;> exact ⟨rfl, rfl⟩

/-- The datagrams that a call hands out. -/
def handed (g : Inner) : Call → List (Bytes × SocketAddr)
  | .recvFrom len =>
      match (g.recvFrom len).2 with
      | .datagram buf addr => [(buf, addr)]
      | _ => []
  | _ => []

/-- The sizes of the buffers that a call fills. -/
def filled (g : Inner) : Call → List Nat
  | .recvFrom len =>
      match (g.recvFrom len).2 with
      | .datagram _ _ => [len]
      | _ => []
  | _ => []

/-- What a call that hands nothing out does to the datagrams that wait. -/
inductive Queues (g g' : Inner) (new : List (Bytes × SocketAddr)) : Prop where
  | keeps (hqueue : g'.nonUtp = g.nonUtp ++ new) (hclosed : g'.closed = g.closed)
      (hopen : new = [] ∨ g.closed = false) (hroom : (g.nonUtp ++ new).length ≤ nonUtpBacklog)
  | closes (hqueue : g'.nonUtp = []) (hclosed : g'.closed = true) (hnew : new = [])

/-- A call that touches neither the queue nor the flag. -/
theorem Queues.same (hroom : g.nonUtp.length ≤ nonUtpBacklog) (hqueue : g'.nonUtp = g.nonUtp)
    (hclosed : g'.closed = g.closed) : Queues g g' [] :=
  .keeps (hqueue.trans (List.append_nil _).symm) hclosed (.inl rfl)
    (by rw [List.append_nil]; exact hroom)

/-- The limit is checked before a datagram is kept. -/
theorem length_kept (hroom : g.nonUtp.length ≤ nonUtpBacklog) (call : Call) :
    (g.nonUtp ++ kept g call).length ≤ nonUtpBacklog := by
  rw [List.length_append]
  cases call with
  | received =>
      unfold kept
      dsimp only
      split
      · rename_i h
        exact h.2
      · exact hroom
  | _ => exact hroom

/-- **ONE CALL** keeps the queue and adds what came in, or empties it for good;
    `recv_from` stands apart. -/
theorem queues_step (hroom : g.nonUtp.length ≤ nonUtpBacklog) {call : Call}
    (hstep : g.step call = some g') :
    (∃ len, call = .recvFrom len)
      ∨ handed g call = [] ∧ filled g call = [] ∧ Queues g g' (kept g call) := by
  cases call with
  | recvFrom len => exact .inl ⟨len, rfl⟩
  | received buf addr firewall order =>
      obtain ⟨⟨hopen, -⟩, hstep⟩ := Option.ite_none_right_eq_some.mp hstep
      obtain rfl := Option.some.inj hstep
      obtain ⟨hqueue, hclosed⟩ := kept_processDatagram g buf addr firewall order
      exact .inr ⟨rfl, rfl, .keeps hqueue hclosed (.inr hopen) (length_kept hroom _)⟩
  | timeout =>
      obtain ⟨-, hstep⟩ := Option.ite_none_right_eq_some.mp hstep
      obtain rfl := Option.some.inj hstep
      exact .inr ⟨rfl, rfl, .same hroom rfl rfl⟩
  | connect addr fuel =>
      obtain ⟨⟨g₁, conn⟩, hconn, rfl⟩ := Option.map_eq_some_iff.mp hstep
      unfold Inner.connect at hconn
      split at hconn
      · exact nomatch hconn
      · obtain ⟨_, -, heq⟩ := Option.map_eq_some_iff.mp hconn
        obtain ⟨rfl, -⟩ := Prod.mk.inj heq
        exact .inr ⟨rfl, rfl, .same hroom rfl rfl⟩
  | connectRound conn late =>
      obtain rfl := Option.some.inj hstep
      rcases connectRound_eq g conn late with heq | heq
      · rw [heq]
        exact .inr ⟨rfl, rfl, .same hroom rfl rfl⟩
      · rw [heq]
        exact .inr ⟨rfl, rfl, .same hroom rfl rfl⟩
  | send conn buf =>
      obtain rfl := Option.some.inj hstep
      unfold Inner.send
      split <;> exact .inr ⟨rfl, rfl, .same hroom rfl rfl⟩
  | drop conn =>
      obtain rfl := Option.some.inj hstep
      unfold Inner.drop
      split <;> exact .inr ⟨rfl, rfl, .same hroom rfl rfl⟩
  | close order =>
      obtain ⟨-, hstep⟩ := Option.ite_none_right_eq_some.mp hstep
      obtain rfl := Option.some.inj hstep
      unfold Inner.close
      -- closing empties the queue, once
      split
      · exact .inr ⟨rfl, rfl, .same hroom rfl rfl⟩
      · exact .inr ⟨rfl, rfl, .closes rfl rfl rfl⟩
  | accept =>
      obtain rfl := Option.some.inj hstep
      exact .inr ⟨rfl, rfl, .same hroom (accept_same g).2.1 (accept_same g).2.2⟩
  | elapse | setSendBufferSize | setRecvBufferSize | setTargetDelay | recv | closeConn =>
      obtain rfl := Option.some.inj hstep
      exact .inr ⟨rfl, rfl, .same hroom rfl rfl⟩

/-! ## Runs with a record -/

/-- A datagram in a buffer of `len` bytes. -/
def cut (len : Nat) (d : Bytes × SocketAddr) : Bytes × SocketAddr := (d.1.take len, d.2)

/-- The states of a socket, with the sizes of the buffers that `recv_from` has
    filled, the datagrams that were kept and those that it has returned. -/
inductive PassRun : List Nat → List (Bytes × SocketAddr) → List (Bytes × SocketAddr) → Inner →
    Prop where
  | new (clock : Clock) (rng : Rng) (transport : Nat → Option ErrorKind) (fpu : Fpu)
      (users : UserId → ConnCell) : PassRun [] [] [] (Inner.new clock rng transport fpu users)
  | step {lens : List Nat} {came out : List (Bytes × SocketAddr)} {g g' : Inner} (call : Call)
      (h : PassRun lens came out g) (hstep : g.step call = some g') :
      PassRun (lens ++ filled g call) (came ++ kept g call) (out ++ handed g call) g'

/-- The datagrams that were kept are those that have been returned and those
    that wait. -/
structure Passing (lens : List Nat) (came out : List (Bytes × SocketAddr)) (g : Inner) :
    Prop where
  parts : ∃ taken rest, came = taken ++ rest ∧ lens.length = taken.length
    ∧ out = List.zipWith cut lens taken ∧ (g.closed = false → g.nonUtp = rest)
  room : g.nonUtp.length ≤ nonUtpBacklog
  shut : g.closed = true → g.nonUtp = []

variable {lens : List Nat} {came out : List (Bytes × SocketAddr)}

/-- A call other than `recv_from` keeps the record. -/
theorem Passing.call (h : Passing lens came out g) {new : List (Bytes × SocketAddr)}
    (hqueues : Queues g g' new) : Passing lens (came ++ new) out g' := by
  obtain ⟨taken, rest, hcame, hlen, hout, hrest⟩ := h.parts
  refine ⟨⟨taken, rest ++ new, ?_, hlen, hout, fun hopen => ?_⟩, ?_, fun hshut => ?_⟩
  · rw [hcame, List.append_assoc]
  · cases hqueues with
    | keeps hqueue hclosed => rw [hqueue, hrest (hclosed.symm.trans hopen)]
    | closes _ hclosed => exact nomatch hopen.symm.trans hclosed
  · cases hqueues with
    | keeps hqueue _ _ hroom => rw [hqueue]; exact hroom
    | closes hqueue => rw [hqueue]; exact Nat.zero_le _
  · cases hqueues with
    | keeps hqueue hclosed hopen =>
        have hshut' := hclosed.symm.trans hshut
        rcases hopen with rfl | hopen
        · rw [hqueue, List.append_nil]
          exact h.shut hshut'
        · exact nomatch hopen.symm.trans hshut'
    | closes hqueue => exact hqueue

/-- The datagram that `recv_from` returns moves from those that wait to those
    that are taken. -/
theorem Passing.recvFrom (h : Passing lens came out g) (len : Nat) :
    Passing (lens ++ filled g (.recvFrom len)) came (out ++ handed g (.recvFrom len))
      (g.recvFrom len).1 := by
  cases hqueue : g.nonUtp with
  | cons head tail =>
    obtain ⟨b, src⟩ := head
    obtain ⟨taken, rest, hcame, hlen, hout, hrest⟩ := h.parts
    have hopen : g.closed = false := by
      refine Bool.of_not_eq_true (fun hshut => ?_)
      exact nomatch hqueue.symm.trans (h.shut hshut)
    have htail : rest = (b, src) :: tail := (hrest hopen).symm.trans hqueue
    unfold filled handed Inner.recvFrom
    rw [hqueue]
    refine ⟨⟨taken ++ [(b, src)], tail, ?_, ?_, ?_, fun _ => rfl⟩, ?_,
      fun hshut => nomatch hopen.symm.trans hshut⟩
    · rw [hcame, htail, List.append_assoc]
      rfl
    · rw [List.length_append, List.length_append, hlen]
      rfl
    · have hcut : b.take (min b.length len) = b.take len := by
        rw [Nat.min_comm]
        exact List.take_eq_take_min.symm
      show out ++ [(b.take (min b.length len), src)]
        = List.zipWith cut (lens ++ [len]) (taken ++ [(b, src)])
      rw [List.zipWith_append hlen, hout, hcut]
      rfl
    · have hroom := h.room
      rw [hqueue] at hroom
      exact Nat.le_of_succ_le hroom
  | nil =>
    -- nothing waits: closed or not, nothing is handed out
    unfold filled handed Inner.recvFrom
    rw [hqueue]
    cases hshut : g.closed
    all_goals
      show Passing (_ ++ []) _ (_ ++ []) _
      rw [List.append_nil, List.append_nil]
      exact h

/-- The record is true in every run. -/
theorem passing_run (h : PassRun lens came out g) : Passing lens came out g := by
  induction h with
  | new => exact ⟨⟨[], [], rfl, rfl, rfl, fun _ => rfl⟩, Nat.zero_le _, fun h => nomatch h⟩
  | step call _ hstep ih =>
      rcases queues_step ih.room hstep with ⟨len, rfl⟩ | ⟨hnone, hfill, hqueues⟩
      · obtain rfl := Option.some.inj hstep
        show Passing _ (_ ++ []) _ _
        rw [List.append_nil]
        exact ih.recvFrom len
      · rw [hnone, hfill, List.append_nil, List.append_nil]
        exact ih.call hqueues

/-- **DATAGRAMS OF OTHERS ARE PASSED ON IN ORDER**: of the datagrams that were
    kept, `recv_from` has returned the first ones, each once and cut to its
    buffer, and the others wait, unless the socket is closed. -/
theorem passed_in_order (h : PassRun lens came out g) :
    (∃ taken rest, came = taken ++ rest ∧ lens.length = taken.length
      ∧ out = List.zipWith cut lens taken ∧ (g.closed = false → g.nonUtp = rest))
      ∧ g.nonUtp.length ≤ 100 ∧ (g.closed = true → g.nonUtp = []) :=
  ⟨(passing_run h).parts, (passing_run h).room, (passing_run h).shut⟩

/-- Two datagrams come in that are too short, and the first is fetched. -/
theorem passed_in_order_short : ∃ lens came out g, PassRun lens came out g
    ∧ came = [([1, 2, 3], peerAddr), ([4], peerAddr)] ∧ out = [([1, 2], peerAddr)]
    ∧ g.nonUtp = [([4], peerAddr)] ∧ ∃ taken, out = List.zipWith cut lens taken := by
  have hstart := PassRun.new ⟨0⟩ ⟨0⟩ (fun _ => none) idleFpu (fun _ => ConnCell.new (.v4 0 0))
  have hfirst := hstart.step (.received [1, 2, 3] peerAddr (fun _ => false) []) rfl
  have hsecond := hfirst.step (.received [4] peerAddr (fun _ => false) []) rfl
  have hrun := hsecond.step (.recvFrom 2) rfl
  obtain ⟨⟨taken, -, -, -, hout, -⟩, -⟩ := passed_in_order hrun
  exact ⟨_, _, _, _, hrun, rfl, rfl, rfl, taken, hout⟩

end UtpPassthrough
