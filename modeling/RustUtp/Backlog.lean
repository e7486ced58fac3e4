import RustUtp.Handles

/-! # The backlog

    Connections that come in wait in the backlog until `accept` collects them.
    `AcceptRun` keeps a record of the connections that have come in and of those
    that `accept` has returned.  They are returned in the order in which they
    came in, each once, and none is forgotten: one for which there is no room is
    closed at once. -/

namespace UtpBacklog

open UtpPacket UtpUtil UtpConnShared UtpEngine UtpEngine.Detached UtpActs UtpSocket UtpHandles
  LabelledPath

/-! ## Runs with a record -/

/-- The connections that come in with a call. -/
def incoming (g : Inner) : Call → List Conn
  | .received buf addr firewall _ => acceptedBy (g.ctx.processUdp buf addr firewall)
  | _ => []

/-- The connections that a call returns. -/
def returned (g : Inner) : Call → List Conn
  | .accept =>
      match g.accept.2 with
      | .accepted conn => [conn]
      | _ => []
  | _ => []

/-- The states of a socket, with all connections created, those of them that came
    in and those that `accept` has returned. -/
inductive AcceptRun : List Conn → List Conn → List Conn → Inner → Prop where
  | new (clock : Clock) (rng : Rng) (transport : Nat → Option ErrorKind) (fpu : Fpu)
      (users : UserId → ConnCell) : AcceptRun [] [] [] (Inner.new clock rng transport fpu users)
  | step {created came out : List Conn} {g g' : Inner} (call : Call)
      (h : AcceptRun created came out g)
      (howned : ∀ conn, call.conn = some conn → conn ∈ created) (hstep : g.step call = some g') :
      AcceptRun (created ++ g.creates call) (came ++ incoming g call) (out ++ returned g call) g'

variable {created came out : List Conn} {g g' : Inner} {ctx ctx' ctx'' : Context}

/-- A run with a record is a run. -/
theorem AcceptRun.socketRun (h : AcceptRun created came out g) : SocketRun created g := by
  induction h with
  | new clock rng transport fpu users => exact .new clock rng transport fpu users
  | step call _ howned hstep ih => exact ih.step call howned hstep

/-- What comes in was created by the call. -/
theorem incoming_creates (g : Inner) (call : Call) : (incoming g call).Sublist (g.creates call) := by
  cases call with
  | received => exact List.Sublist.refl _
  | _ => exact List.nil_sublist _

/-- What has come in was created. -/
theorem AcceptRun.came_created (h : AcceptRun created came out g) : came.Sublist created := by
  induction h with
  | new => exact List.Sublist.refl _
  | step call _ _ _ ih => exact ih.append (incoming_creates _ call)

/-! ## Closed cells -/

/-- Cells that are closed stay closed. -/
structure StaysClosed (ctx ctx' : Context) : Prop where
  next : ctx.nextUser ≤ ctx'.nextUser
  closed : ∀ u, u < ctx.nextUser → (ctx.users u).closed = true → (ctx'.users u).closed = true

namespace StaysClosed

theorem refl (ctx : Context) : StaysClosed ctx ctx := ⟨Nat.le_refl _, fun _ _ h => h⟩

theorem trans (h : StaysClosed ctx ctx') (h' : StaysClosed ctx' ctx'') : StaysClosed ctx ctx'' :=
  ⟨h.next.trans h'.next, fun u hu hc =>
    h'.closed u (Nat.lt_of_lt_of_le hu h.next) (h.closed u hu hc)⟩

/-- A step that leaves the flags. -/
theorem of_same (hnext : ctx'.nextUser = ctx.nextUser)
    (hread : readings ConnCell.closed ctx' = readings ConnCell.closed ctx) :
    StaysClosed ctx ctx' := by
  refine ⟨Nat.le_of_eq hnext.symm, fun u _ hc => ?_⟩
  have hsame : (ctx'.users u).closed = (ctx.users u).closed := congrFun hread u
  rw [hsame]
  exact hc

/-- A new cell leaves the others alone. -/
theorem born {key : Key} {m : Detached} (hnext : m.ctx.nextUser = ctx.nextUser + 1)
    (husers : ∃ addr, m.ctx.users = Function.update ctx.users ctx.nextUser (ConnCell.new addr)) :
    StaysClosed ctx (Context.attach key m) := by
  obtain ⟨addr, husers⟩ := husers
  refine ⟨(Nat.le_succ _).trans (Nat.le_of_eq hnext.symm), fun u hu hc => ?_⟩
  show (m.ctx.users u).closed = true
  rw [husers, Function.update_of_ne (Nat.ne_of_lt hu)]
  exact hc

end StaysClosed

/-- Closing one more cell. -/
theorem staysClosed_mark (ctx : Context) (user : UserId) :
    StaysClosed ctx (ctx.onUser user (fun c => { c with closed := true })) := by
  refine ⟨Nat.le_refl _, fun u _ hc => ?_⟩
  show (Function.update ctx.users user _ u).closed = true
  by_cases hu : u = user
  · rw [hu, Function.update_self]
  · rw [Function.update_of_ne hu]
    exact hc

/-- Destroying a socket leaves the flag of its owner. -/
theorem closed_destroySock (m : Detached) :
    readings ConnCell.closed (Context.destroySock m) = readings ConnCell.closed m.ctx := by
  have hlist : readings ConnCell.closed (Context.destroySock m)
      = readings ConnCell.closed (m.notify (·.onDestroying)).ctx := readings_ackListRemove _
  rw [hlist]
  exact readings_onUser _ _ (fun _ => rfl)

/-- Answering an unknown connection leaves all flags. -/
theorem closed_rejectUnknown (ctx : Context) (addr : SocketAddr) (id : UInt32) (seqNr : UInt16) :
    readings ConnCell.closed (ctx.rejectUnknown addr id seqNr) = readings ConnCell.closed ctx := by
  unfold Context.rejectUnknown
  dsimp only
  split
  · rfl
  · split <;> rfl

/-- One act of the engine opens no cell again. -/
theorem staysClosed_act {occ : Occasion} {l : Bytes} (h : EngineAct occ l ctx ctx') :
    StaysClosed ctx ctx' := by
  cases h with
  | sock key hout hstep =>
      exact .of_same (congrArg Surroundings.nextUser hstep.surroundings_eq)
        (readings_act deaf_closed hstep)
  | dial _ addr seed rng => exact .born (dialled_user ctx addr seed rng).2 ⟨addr, rfl⟩
  | accept _ buf addr => exact .born (accepting_user ctx buf addr).2 ⟨addr, rfl⟩
  | remove key m => exact .of_same (destroySock_nextUser m) (closed_destroySock m)
  | reject => exact .of_same (rejectUnknown_nextUser ..) (closed_rejectUnknown ..)
  | settings => exact .of_same rfl rfl
  | takeAcks => exact .of_same rfl rfl
  | consume _ user len => exact .of_same rfl (readings_onUser ctx user (fun _ => rfl))
  | markClosed _ user => exact staysClosed_mark ctx user

theorem staysClosed_step (op : Op) (hstep : ctx.step op = some ctx') : StaysClosed ctx ctx' :=
  Steps.lift StaysClosed.refl (fun _ _ _ => StaysClosed.trans) (fun _ _ _ => staysClosed_act)
    (path_step hstep)

/-! ## The record -/

/-- What the backlog has to do with the record. -/
structure Tracked (came out : List Conn) (g : Inner) : Prop where
  order : (out ++ g.backlog).Sublist came
  kept : ∀ conn ∈ came, conn ∈ out ∨ conn ∈ g.backlog ∨ (g.cell conn).closed = true
    ∨ g.closed = true
  known : ∀ conn ∈ came, conn.user < g.ctx.nextUser
  room : g.backlog.length ≤ backlogLimit
  others : g.nonUtp.length ≤ nonUtpBacklog
  shut : g.closed = true → g.backlog = [] ∧ g.nonUtp = []

/-- Only the engine moves. -/
theorem Tracked.quiet (h : Tracked came out g) (hback : g'.backlog = g.backlog)
    (hother : g'.nonUtp = g.nonUtp) (hclosed : g'.closed = g.closed)
    (hstays : StaysClosed g.ctx g'.ctx) : Tracked came out g' := by
  refine ⟨by rw [hback]; exact h.order, fun conn hc => ?_,
    fun conn hc => Nat.lt_of_lt_of_le (h.known conn hc) hstays.next, by rw [hback]; exact h.room,
    by rw [hother]; exact h.others, by rw [hclosed, hback, hother]; exact h.shut⟩
  rw [hback, hclosed]
  rcases h.kept conn hc with hout | hin | hmark | hshut
  · exact .inl hout
  · exact .inr (.inl hin)
  · exact .inr (.inr (.inl (hstays.closed _ (h.known conn hc) hmark)))
  · exact .inr (.inr (.inr hshut))

/-- A new connection waits for `accept`. -/
theorem Tracked.waits (h : Tracked came out g) (hopen : g.closed = false) {conn : Conn}
    (hknown : conn.user < g.ctx.nextUser) (hroom : g.backlog.length < backlogLimit) :
    Tracked (came ++ [conn]) out { g with backlog := g.backlog ++ [conn] } := by
  refine ⟨?_, fun c hc => ?_, fun c hc => ?_, ?_, h.others,
    fun hshut => nomatch hopen.symm.trans hshut⟩
  · show (out ++ (g.backlog ++ [conn])).Sublist _
    rw [← List.append_assoc]
    exact h.order.append (List.Sublist.refl _)
  · rcases List.mem_append.mp hc with hc | hc
    · rcases h.kept c hc with hout | hin | hrest
      · exact .inl hout
      · exact .inr (.inl (List.mem_append_left _ hin))
      · exact .inr (.inr hrest)
    · exact .inr (.inl (List.mem_append_right _ hc))
  · rcases List.mem_append.mp hc with hc | hc
    · exact h.known c hc
    · rw [List.mem_singleton.mp hc]
      exact hknown
  · show (g.backlog ++ [conn]).length ≤ backlogLimit
    rw [List.length_append]
    exact hroom

/-- A new connection for which there is no room is closed. -/
theorem Tracked.turnedAway (h : Tracked came out g) {conn : Conn}
    (hknown : conn.user < g.ctx.nextUser) :
    Tracked (came ++ [conn]) out
      { g with
        ctx := (g.ctx.onUser conn.user (fun c => { c with closed := true })).close conn.key } := by
  have hclose : StaysClosed g.ctx
      ((g.ctx.onUser conn.user (fun c => { c with closed := true })).close conn.key) :=
    (staysClosed_mark g.ctx conn.user).trans (staysClosed_step (.close conn.key) rfl)
  have hrest : Tracked came out
      { g with
        ctx := (g.ctx.onUser conn.user (fun c => { c with closed := true })).close conn.key } :=
    h.quiet rfl rfl rfl hclose
  refine ⟨hrest.order.trans (List.sublist_append_left _ _), fun c hc => ?_, fun c hc => ?_,
    hrest.room, hrest.others, hrest.shut⟩
  · rcases List.mem_append.mp hc with hc | hc
    · exact hrest.kept c hc
    · refine .inr (.inr (.inl ?_))
      rw [List.mem_singleton.mp hc]
      refine (staysClosed_step (.close conn.key) rfl).closed conn.user hknown ?_
      show (Function.update g.ctx.users conn.user _ conn.user).closed = true
      rw [Function.update_self]
  · rcases List.mem_append.mp hc with hc | hc
    · exact hrest.known c hc
    · rw [List.mem_singleton.mp hc]
      exact Nat.lt_of_lt_of_le hknown hclose.next

/-- A connection that comes in waits, or is closed for lack of room. -/
theorem tracked_processDatagram (h : Tracked came out g) (hagree : Agree created g.ctx)
    (hopen : g.closed = false) (buf : Bytes) (addr : SocketAddr) (firewall : SocketAddr → Bool) :
    Tracked (came ++ acceptedBy (g.ctx.processUdp buf addr firewall)) out
      (g.processDatagram buf addr firewall) := by
  have hstays : StaysClosed g.ctx (g.ctx.processUdp buf addr firewall).1 :=
    staysClosed_step (.processUdp buf addr firewall) rfl
  have hagree' := (agree_processUdp buf addr firewall hagree).2
  have hbase : Tracked came out { g with ctx := (g.ctx.processUdp buf addr firewall).1 } :=
    h.quiet rfl rfl rfl hstays
  unfold acceptedBy at hagree' ⊢
  unfold Inner.processDatagram
  dsimp only
  generalize g.ctx.processUdp buf addr firewall = r at hagree' hbase ⊢
  cases hr : r.2 with
  | handled =>
      dsimp only
      rw [List.append_nil]
      exact hbase
  | notUtp =>
      dsimp only
      rw [List.append_nil]
      split
      · rename_i hroom
        refine ⟨hbase.order, hbase.kept, hbase.known, hbase.room, ?_,
          fun hshut => nomatch hopen.symm.trans hshut⟩
        show (g.nonUtp ++ [(buf, addr)]).length ≤ nonUtpBacklog
        rw [List.length_append]
        exact hroom
      · exact hbase
  | accepted key user =>
      rw [hr] at hagree'
      have hknown : user < r.1.nextUser :=
        @Agree.user_lt _ _ hagree' ⟨key, user⟩
          (List.mem_append_right _ (List.mem_singleton_self _))
      dsimp only
      split
      · exact hbase.turnedAway hknown
      · rename_i hroom
        exact hbase.waits hopen hknown (Nat.lt_of_not_le hroom)

/-- Closing the socket forgets those that wait; their sockets are destroyed. -/
theorem tracked_close (h : Tracked came out g) {order : List Key} (henum : g.ctx.Enumerates order) :
    Tracked came out (g.close order) := by
  have hstays : StaysClosed g.ctx (g.ctx.destroyAll order) :=
    staysClosed_step (.destroyAll order) (if_pos henum)
  unfold Inner.close
  split
  · exact h
  · refine ⟨?_, fun _ _ => .inr (.inr (.inr rfl)),
      fun conn hc => Nat.lt_of_lt_of_le (h.known conn hc) hstays.next, Nat.zero_le _,
      Nat.zero_le _, fun _ => ⟨rfl, rfl⟩⟩
    exact (List.Sublist.append_left (List.nil_sublist g.backlog) out).trans h.order

/-- What `accept` returns was the first of those that wait. -/
theorem accept_takes (g : Inner) : returned g .accept ++ g.accept.1.backlog = g.backlog := by
  unfold returned Inner.accept
  cases hback : g.backlog with
  | cons conn rest => rfl
  | nil => cases g.closed <;> exact hback

/-- A connection that is returned moves from those that wait. -/
theorem tracked_accept (h : Tracked came out g) :
    Tracked came (out ++ returned g .accept) g.accept.1 := by
  -- accepting takes the head of the queue
  have hsplit := accept_takes g
  obtain ⟨hctx, hother, hclosed⟩ := accept_same g
  refine ⟨?_, fun conn hc => ?_, ?_, ?_, by rw [hother]; exact h.others, fun hshut => ?_⟩
  · rw [List.append_assoc, hsplit]
    exact h.order
  · unfold Inner.cell
    rw [hctx, hclosed]
    -- handed out before, still waiting, or closed
    rcases h.kept conn hc with hout | hin | hrest
    · exact .inl (List.mem_append_left _ hout)
    · rw [← hsplit] at hin
      rcases List.mem_append.mp hin with hhead | htail
      · exact .inl (List.mem_append_right _ hhead)
      · exact .inr (.inl htail)
    · exact .inr (.inr hrest)
  · rw [hctx]
    exact h.known
  · have hlen := congrArg List.length hsplit
    rw [List.length_append] at hlen
    exact (Nat.le_of_add_left_le (Nat.le_of_eq hlen)).trans h.room
  · -- after closing the queue is empty
    rw [hclosed] at hshut
    obtain ⟨hback, hnone⟩ := h.shut hshut
    rw [hback] at hsplit
    exact ⟨(List.append_eq_nil_iff.mp hsplit).2, hother.trans hnone⟩

/-- `recv_from` takes no connection. -/
theorem tracked_recvFrom (h : Tracked came out g) (len : Nat) :
    Tracked came out (g.recvFrom len).1 := by
  obtain ⟨hctx, hback, hclosed⟩ := recvFrom_same g len
  have hless : (g.recvFrom len).1.nonUtp.length ≤ g.nonUtp.length := by
    unfold Inner.recvFrom
    split
    · rename_i hqueue
      rw [hqueue]
      exact Nat.le_succ _
    · split <;> exact Nat.le_refl _
  refine ⟨by rw [hback]; exact h.order, fun conn hc => ?_, by rw [hctx]; exact h.known,
    by rw [hback]; exact h.room, hless.trans h.others, fun hshut => ?_⟩
  · unfold Inner.cell
    rw [hctx, hback, hclosed]
    exact h.kept conn hc
  · rw [hclosed] at hshut
    obtain ⟨hnone, hother⟩ := h.shut hshut
    rw [hother] at hless
    exact ⟨hback.trans hnone, List.eq_nil_of_length_eq_zero (Nat.le_zero.mp hless)⟩

/-- A call of which the engine makes one operation, or none. -/
theorem Tracked.plain (h : Tracked came out g) (op : Op) (hstep : g.ctx.step op = some g'.ctx)
    (hback : g'.backlog = g.backlog) (hother : g'.nonUtp = g.nonUtp)
    (hclosed : g'.closed = g.closed) : Tracked (came ++ []) (out ++ []) g' := by
  rw [List.append_nil, List.append_nil]
  exact h.quiet hback hother hclosed (staysClosed_step op hstep)

/-- A call that does nothing. -/
theorem Tracked.same (h : Tracked came out g) : Tracked (came ++ []) (out ++ []) g := by
  rw [List.append_nil, List.append_nil]
  exact h

/-- A round of `connect` closes its own connection at most. -/
theorem tracked_connectRound (h : Tracked came out g) (conn : Conn) (late : Bool) :
    Tracked (came ++ []) (out ++ []) (g.connectRound conn late).1 := by
  rcases connectRound_eq g conn late with heq | heq
  · rw [heq]
    exact h.same
  · rw [heq]
    exact h.plain (.closeConn conn.key conn.user) rfl rfl rfl rfl

/-- **EVERY CALL KEEPS THE RECORD.** -/
theorem tracked_step (h : Tracked came out g) (hagree : Agree created g.ctx) {call : Call}
    (hstep : g.step call = some g') :
    Tracked (came ++ incoming g call) (out ++ returned g call) g' := by
  cases call with
  | elapse clock =>
      obtain rfl := Option.some.inj hstep
      exact h.plain (.elapse clock) rfl rfl rfl rfl
  | setSendBufferSize bytes =>
      obtain rfl := Option.some.inj hstep
      exact h.plain (.setSendBufferSize bytes) rfl rfl rfl rfl
  | setRecvBufferSize bytes =>
      obtain rfl := Option.some.inj hstep
      exact h.plain (.setRecvBufferSize bytes) rfl rfl rfl rfl
  | setTargetDelay micros =>
      obtain rfl := Option.some.inj hstep
      exact h.plain (.setTargetDelay micros) rfl rfl rfl rfl
  | received buf addr firewall order =>
      obtain ⟨⟨hopen, henum⟩, hstep⟩ := Option.ite_none_right_eq_some.mp hstep
      obtain rfl := Option.some.inj hstep
      -- a datagram may add a connection, the sweep behind it adds none
      have hnew := tracked_processDatagram h hagree hopen buf addr firewall
      have hacks : Tracked _ out (g.received buf addr firewall) :=
        hnew.quiet rfl rfl rfl (staysClosed_step .issueDeferredAcks rfl)
      show Tracked _ (out ++ []) _
      rw [List.append_nil]
      exact hacks.quiet rfl rfl rfl (staysClosed_step (.checkTimeouts order) (if_pos henum))
  | timeout order =>
      obtain ⟨⟨-, henum⟩, hstep⟩ := Option.ite_none_right_eq_some.mp hstep
      obtain rfl := Option.some.inj hstep
      exact h.plain (.checkTimeouts order) (if_pos henum) rfl rfl rfl
  | connect addr fuel =>
      obtain ⟨⟨g₁, conn⟩, hconn, rfl⟩ := Option.map_eq_some_iff.mp hstep
      unfold Inner.connect at hconn
      split at hconn
      · exact nomatch hconn
      · obtain ⟨⟨ctx', key, user⟩, hctx, heq⟩ := Option.map_eq_some_iff.mp hconn
        obtain ⟨rfl, -⟩ := Prod.mk.inj heq
        refine h.plain (.connect addr fuel) ?_ rfl rfl rfl
        show (g.ctx.connect addr fuel).map (·.1) = _
        rw [hctx]
        rfl
  | connectRound conn late =>
      obtain rfl := Option.some.inj hstep
      exact tracked_connectRound h conn late
  | accept =>
      obtain rfl := Option.some.inj hstep
      show Tracked (came ++ []) _ _
      rw [List.append_nil]
      exact tracked_accept h
  | recvFrom len =>
      obtain rfl := Option.some.inj hstep
      show Tracked (came ++ []) (out ++ []) _
      rw [List.append_nil, List.append_nil]
      exact tracked_recvFrom h len
  | send conn buf =>
      obtain rfl := Option.some.inj hstep
      unfold Inner.send
      split
      · exact h.plain (.write conn.key buf) rfl rfl rfl rfl
      · exact h.same
  | recv conn len =>
      obtain rfl := Option.some.inj hstep
      exact h.plain (.recv conn.key conn.user len) rfl rfl rfl rfl
  | closeConn conn =>
      obtain rfl := Option.some.inj hstep
      exact h.plain (.closeConn conn.key conn.user) rfl rfl rfl rfl
  | drop conn =>
      obtain rfl := Option.some.inj hstep
      unfold Inner.drop
      split
      · -- a handle that is closed already is dropped without a call
        exact h.same
      · exact h.plain (.closeConn conn.key conn.user) rfl rfl rfl rfl
  | close order =>
      obtain ⟨henum, hstep⟩ := Option.ite_none_right_eq_some.mp hstep
      obtain rfl := Option.some.inj hstep
      show Tracked (came ++ []) (out ++ []) _
      rw [List.append_nil, List.append_nil]
      exact tracked_close h henum

/-- The record is true in every run. -/
theorem tracked_run (h : AcceptRun created came out g) : Tracked came out g := by
  induction h with
  | new =>
      exact ⟨List.Sublist.refl _, fun _ hc => (List.not_mem_nil hc).elim,
        fun _ hc => (List.not_mem_nil hc).elim, Nat.zero_le _, Nat.zero_le _, fun h => nomatch h⟩
  | step call h _ hstep ih => exact tracked_step ih (sound_run h.socketRun).agree hstep

/-- A run and its record. -/
structure Record where
  created : List Conn
  came : List Conn
  out : List Conn
  inner : Inner

/-- A call that is not made on a handle. -/
def Record.call (r : Record) (call : Call) : Option Record :=
  if call.conn = none then
    (r.inner.step call).map (fun g => ⟨r.created ++ r.inner.creates call,
      r.came ++ incoming r.inner call, r.out ++ returned r.inner call, g⟩)
  else none

/-- A list of calls leads from runs to runs. -/
theorem run_calls (calls : List Call) {r r' : Record}
    (h : AcceptRun r.created r.came r.out r.inner) (hcalls : calls.foldlM Record.call r = some r') :
    AcceptRun r'.created r'.came r'.out r'.inner := by
  induction calls generalizing r with
  | nil =>
      obtain rfl := Option.some.inj hcalls
      exact h
  | cons call rest ih =>
      obtain ⟨r₁, hcall, hrest⟩ := Option.bind_eq_some_iff.mp hcalls
      refine ih ?_ hrest
      unfold Record.call at hcall
      split at hcall
      · rename_i hnone
        obtain ⟨g, hstep, rfl⟩ := Option.map_eq_some_iff.mp hcall
        exact h.step call (fun _ hc => nomatch hnone.symm.trans hc) hstep
      · exact nomatch hcall

/-- A socket that nothing has happened to. -/
def freshRecord : Record :=
  ⟨[], [], [], Inner.new ⟨0⟩ ⟨0⟩ (fun _ => none) idleFpu (fun _ => ConnCell.new (.v4 0 0))⟩

/-- The SYN with wire id `1000 * (n + 1)` comes in, after `n` others. -/
def knock (n : Nat) : Call :=
  .received (datagram stSyn (UInt16.ofNat (1000 * (n + 1))) 1 0 []) peerAddr (fun _ => false)
    ((List.range (n + 1)).map (fun k => ⟨peerAddr, UInt32.ofNat (1000 * (k + 1) + 1)⟩))

/-- Six connections come in, and one of them is accepted. -/
def sixCalls : List Call := (List.range 6).map knock ++ [.accept]

/-- **CONNECTIONS ARE ACCEPTED IN ORDER**: `accept` returns connections in the
    order in which they came in, each once; one that has come in waits, has been
    returned or has been closed, and neither queue outgrows its limit. -/
theorem accepted_in_order (h : AcceptRun created came out g) :
    (out ++ g.backlog).Sublist came ∧ came.Nodup
      ∧ (∀ conn ∈ came, conn ∈ out ∨ conn ∈ g.backlog ∨ (g.cell conn).closed = true
        ∨ g.closed = true)
      ∧ g.backlog.length ≤ 5 ∧ g.nonUtp.length ≤ 100
      ∧ (g.closed = true → g.backlog = [] ∧ g.nonUtp = []) := by
  have htracked := tracked_run h
  have hnodup : created.Nodup := by
    refine List.Nodup.of_map Conn.user ?_
    rw [(sound_run h.socketRun).agree.numbered]
    exact List.nodup_range
  exact ⟨htracked.order, h.came_created.nodup hnodup, htracked.kept, htracked.room,
    htracked.others, htracked.shut⟩

/-- There is no room for the last. -/
theorem accepted_in_order_six : ∃ created came out g, AcceptRun created came out g
    ∧ came.length = 6 ∧ out.length = 1 ∧ g.backlog.length = 4
    ∧ (out ++ g.backlog).Sublist came := by
  have hdec : (sixCalls.foldlM Record.call freshRecord).map (fun r : Record =>
      decide (r.came.length = 6 ∧ r.out.length = 1 ∧ r.inner.backlog.length = 4)) = some true := by
    decide +kernel
  obtain ⟨r, hr, hfacts⟩ := Option.map_eq_some_iff.mp hdec
  obtain ⟨hcame, hout, hback⟩ := of_decide_eq_true hfacts
  have hstart : AcceptRun freshRecord.created freshRecord.came freshRecord.out freshRecord.inner :=
    .new ..
  have h := run_calls _ hstart hr
  exact ⟨_, _, _, _, h, hcame, hout, hback, (accepted_in_order h).1⟩

end UtpBacklog
