import RustUtp.Acts.Engine

/-! # Between operations

    Some properties of a socket break in the middle of an operation and are
    restored before it returns.  They are no invariants of single acts: what
    has to keep them is each whole function that an operation runs on a socket,
    and `KeptOn` asks just that. -/

namespace UtpActs

open UtpCircular UtpPacket UtpUtil UtpConnShared UtpEngine UtpEngine.Detached LabelledPath

/-- Every function of the engine but `process_incoming` keeps `P`. -/
structure KeptQuiet (P : UtpSock → Prop) : Prop where
  reset : ∀ m : Detached, P m.sock → P (Context.resetSock m).sock
  write : ∀ (m : Detached) (buf : Bytes), P m.sock → P (m.writeEngine buf).1.sock
  drained : ∀ m : Detached, P m.sock → P m.readDrained.sock
  close : ∀ m : Detached, P m.sock → P m.closeEngine.sock
  timers : ∀ m : Detached, P m.sock → P m.checkTimeouts.sock
  ack : ∀ m : Detached, P m.sock →
    P (Detached.sendAck { m with sock := { m.sock with inAckList := false } } false).sock

/-- Every function that an operation runs on a socket keeps `P`. -/
structure KeptOn (P : UtpSock → Prop) : Prop extends KeptQuiet P where
  incoming : ∀ (m : Detached) (buf : Bytes), P m.sock → P (m.processIncoming buf false).1.sock

/-- The sockets that an engine can add to its table have `P`. -/
structure BornWith (P : UtpSock → Prop) (ctx : Context) : Prop where
  dialled : ∀ (addr : SocketAddr) (seed : UInt32) (rng : Rng),
    P (Context.dialledSent ctx addr seed rng).sock
  accepted : ∀ (buf : Bytes) (addr : SocketAddr), P (ctx.acceptSyn buf addr).sock

variable {P : UtpSock → Prop} {ctx : Context} {key : Key}

/-! ## What loops leave alone -/

/-- A part of the socket that single acks, the packet count and the assertions
    leave alone, the cumulative ack leaves alone. -/
theorem ackCumulative_keeps {α : Type} (π : UtpSock → α)
    (hack : ∀ (m : Detached) (seq : UInt16), π (m.ackPacket seq).1.sock = π m.sock)
    (hcwp : ∀ (s : UtpSock) (n : Nat), π { s with curWindowPackets := n } = π s)
    (hfault : ∀ (s : UtpSock) (b : Bool), π { s with windowFault := b } = π s)
    (acks : Nat) (m : Detached) : π (ackCumulative acks m).sock = π m.sock := by
  -- both loops are runs of two updates the view does not see
  have hloop : ∀ n (m : Detached), π (ackLoop n m).sock = π m.sock := by
    intro n
    induction n with
    | zero => intro m; rfl
    | succ n ih =>
        intro m
        rw [ackLoop]
        split
        · exact hack m _
        · rw [ih]
          exact (hcwp _ _).trans (hack m _)
  have hshrink : ∀ n (m : Detached), π (shrinkLoop n m).sock = π m.sock := by
    intro n
    induction n with
    | zero => intro m; rfl
    | succ n ih =>
        intro m
        rw [shrinkLoop]
        split
        · rw [ih]
          exact hcwp _ _
        · rfl
  unfold ackCumulative
  exact (hfault _ _).trans ((hshrink _ _).trans (hloop _ _))

/-- What the transmission of a packet and the look at the window leave alone,
    a flush leaves alone. -/
theorem flushLoop_keeps {α : Type} (π : Detached → α)
    (hsend : ∀ (m : Detached) (seq : UInt16), π (m.sendPacketAt seq) = π m)
    (hfull : ∀ m : Detached, π (m.isFull none).1 = π m) (packetSize n : Nat) :
    ∀ (i : UInt16) (m : Detached), π (flushLoop packetSize n i m).1 = π m := by
  induction n with
  | zero => intro i m; rfl
  | succ n ih =>
      intro i m
      rw [flushLoop]
      split
      · exact ih (i + 1) m
      · split
        · exact hfull m
        · split
          · exact (ih (i + 1) _).trans (hsend m i)
          · exact ih (i + 1) m

/-! ## The cached clock reading -/

/-- Leaving the ack list reads no clock. -/
theorem currentMs_ackListRemove (m : Detached) :
    m.ackListRemove.ctx.currentMs = m.ctx.currentMs := by
  unfold ackListRemove
  split <;> rfl

/-- Sending reads the clock into the datagram, not into the cached time. -/
theorem currentMs_sendData (m : Detached) (written : Nat) (buf : Bytes) :
    (m.sendData written buf).ctx.currentMs = m.ctx.currentMs := by
  unfold sendData
  dsimp only
  rw [currentMs_ackListRemove]
  split <;> rfl

theorem currentMs_sendAck (m : Detached) (synack : Bool) :
    (m.sendAck synack).ctx.currentMs = m.ctx.currentMs := by
  unfold sendAck
  rw [currentMs_ackListRemove, currentMs_sendData]
  rfl

theorem currentMs_sendPacketAt (m : Detached) (seq : UInt16) :
    (m.sendPacketAt seq).ctx.currentMs = m.ctx.currentMs := by
  unfold sendPacketAt
  split
  · rfl
  · exact currentMs_sendData _ _ _

theorem currentMs_deliver (m : Detached) (data : Bytes) :
    (m.deliver data).ctx.currentMs = m.ctx.currentMs := by
  unfold deliver
  split <;> rfl

/-- The cached reading stays, or is renewed from the clock. -/
def ClockKept (m m' : Detached) : Prop :=
  m'.ctx.clock = m.ctx.clock
    ∧ (m'.ctx.currentMs = m.ctx.currentMs ∨ m'.ctx.currentMs = m.ctx.clock.millis)

theorem ClockKept.refl (m : Detached) : ClockKept m m := ⟨rfl, .inl rfl⟩

theorem ClockKept.trans (m₁ m₂ m₃ : Detached) (h : ClockKept m₁ m₂) (h' : ClockKept m₂ m₃) :
    ClockKept m₁ m₃ := by
  refine ⟨h'.1.trans h.1, ?_⟩
  rcases h'.2 with hsame | hread
  · rw [hsame]
    exact h.2
  · rw [hread, h.1]
    exact .inr rfl

/-- A quiet step reads no clock. -/
theorem Quiet.currentMs {m m' : Detached} (h : Quiet m m') :
    m'.ctx.currentMs = m.ctx.currentMs := by
  obtain ⟨_, _, _, _, _, rfl⟩ := h
  rfl

/-- Bookkeeping leaves the cached time or refreshes it from the clock. -/
theorem currentMs_bookkeeping {inp : Option Bytes} {m m' : Detached}
    (h : Bookkeeping inp m m') :
    m'.ctx.currentMs = m.ctx.currentMs ∨ m'.ctx.currentMs = m.ctx.clock.millis := by
  cases h with
  | readClock => exact .inr rfl
  | measure buf selack => exact .inl (quiet_measure m buf selack _).currentMs
  | noteWindow buf => exact .inl (quiet_noteWindow m buf).currentMs
  | updateFastResend buf => exact .inl (quiet_updateFastResend m _).currentMs
  | reopenWindow => exact .inl (quiet_reopenWindow m).currentMs
  | _ => exact .inl rfl

/-- A drain reads no clock. -/
theorem currentMs_drainAct {l : Bytes} {m m' : Detached} (h : DrainAct l m m') :
    m'.ctx.currentMs = m.ctx.currentMs := by
  cases h with
  | drain => exact currentMs_deliver _ _
  | reach => rfl
  | ackFin => exact currentMs_sendAck m false
  | dropStragglers => rfl

/-- **NO ACT** puts anything but a reading of the clock into the cached time. -/
theorem clockKept_act {occ : Occasion} {l : Bytes} {m m' : Detached} (h : Act occ l m m') :
    ClockKept m m' := by
  refine ⟨congrArg Surroundings.clock h.surroundings_eq, ?_⟩
  cases h with
  | tx h =>
      cases h with
      | quiet _ _ _ _ _ _ _ _ hbook => exact currentMs_bookkeeping hbook
      | sendPacket => exact .inl (currentMs_sendPacketAt m _)
      | ackCum => rw [ctx_ackCumulative]; exact .inl rfl
      | ackSel => rw [ctx_ackPacket]; exact .inl rfl
      | lose => rw [ctx_markLost]; exact .inl rfl
      | _ => exact .inl rfl
  | inOrder _ _ _ _ _ _ _ hdrain =>
      refine .inl (DrainPath.lift
        (S := fun a b : Detached => b.ctx.currentMs = a.ctx.currentMs) (fun _ => rfl)
        (fun _ _ _ hab hbc => hbc.trans hab) (fun _ _ _ hab => currentMs_drainAct hab)
        (currentMs_deliver m _) hdrain)
  | ack => exact .inl (currentMs_sendAck m _)
  | schedule => unfold scheduleAck; split <;> exact .inl rfl
  | keepAlive => exact .inl (currentMs_sendAck _ _)
  | _ => exact .inl rfl

theorem clockKept_path {occ : Occasion} {l : Bytes} {m m' : Detached} (h : ActPath occ l m m') :
    ClockKept m m' :=
  Steps.lift ClockKept.refl ClockKept.trans (fun _ _ _ ha => clockKept_act ha) h

/-! ## From functions to operations -/

/-- The acts of a detached socket leave the table. -/
theorem sockets_of_path {occ : Occasion} {l : Bytes} {m m' : Detached} (h : ActPath occ l m m') :
    m'.ctx.sockets = m.ctx.sockets :=
  congrArg Surroundings.sockets
    (Steps.lift (S := fun a b : Detached => surroundings b.ctx = surroundings a.ctx)
      (fun _ => rfl) (fun _ _ _ hab hbc => hbc.trans hab) (fun _ _ _ h => h.surroundings_eq) h)

/-- A socket found beside the detached one was there before. -/
theorem lookup_of_detach {sock s : UtpSock} {k : Key}
    (h : (ctx.detach key sock).ctx.sockets.lookup k = some s) :
    ctx.sockets.lookup k = some s := by
  have hk : k ≠ key := by
    rintro rfl
    rw [lookup_detach] at h
    exact nomatch h
  exact (Finmap.lookup_erase_ne hk).symm.trans h

/-- The other sockets of a table stay when one of them is put back changed. -/
theorem everySock_putBack {sock : UtpSock} {m : Detached} (h : EverySock P ctx)
    (hsockets : m.ctx.sockets = (ctx.detach key sock).ctx.sockets) (hm : P m.sock) :
    EverySock P (Context.attach key m) := by
  refine everySock_attach.mpr ⟨hm, fun k s _ hs => h k s ?_⟩
  rw [hsockets] at hs
  exact lookup_of_detach hs

/-- A new socket that meets `P` joins a table that does. -/
theorem everySock_new {m : Detached} (h : EverySock P ctx) (hsockets : m.ctx.sockets = ctx.sockets)
    (hm : P m.sock) : EverySock P (Context.attach key m) := by
  refine everySock_attach.mpr ⟨hm, fun k s _ hs => h k s ?_⟩
  rw [← hsockets]
  exact hs

/-- Transmitting a packet leaves the table. -/
theorem sendPacketAt_sockets (m : Detached) (seq : UInt16) :
    (m.sendPacketAt seq).ctx.sockets = m.ctx.sockets :=
  congrArg Surroundings.sockets (surroundings_sendPacketAt m seq)

/-- A dial leaves the table to its caller. -/
theorem dialledSent_sockets (ctx : Context) (addr : SocketAddr) (seed : UInt32) (rng : Rng) :
    (Context.dialledSent ctx addr seed rng).ctx.sockets = ctx.sockets :=
  (sendPacketAt_sockets _ _).trans (dialled_sockets ctx addr seed rng)

theorem acceptSyn_sockets (ctx : Context) (buf : Bytes) (addr : SocketAddr) :
    (ctx.acceptSyn buf addr).ctx.sockets = ctx.sockets := by
  have hnew := accepting_sockets ctx buf addr
  unfold Context.acceptSyn
  generalize ctx.accepting buf addr = m at hnew ⊢
  have hpath : ActPath ⟨some buf, true, true⟩ [] m (m.processIncoming buf true).1 :=
    path_processIncoming m buf true rfl
  exact (congrArg Surroundings.sockets (surroundings_sendAck _ true)).trans
    ((sockets_of_path hpath).trans hnew)

/-- One socket is taken out of the table, changed and put back. -/
theorem everySock_withOne {occ : Occasion} {f : Detached → Detached} (h : EverySock P ctx)
    (hpath : ∀ m, ActPath occ [] m (f m))
    (hf : ∀ sock, ctx.sockets.lookup key = some sock → P sock → P (f (ctx.detach key sock)).sock) :
    EverySock P (ctx.withSock key f) := by
  unfold Context.withSock
  split
  · exact h
  · rename_i sock hsock
    exact everySock_putBack h (sockets_of_path (hpath _)) (hf sock hsock (h key sock hsock))

/-- The others stay as they are. -/
theorem lookup_withSock {occ : Occasion} {f : Detached → Detached} {s : UtpSock} (k : Key)
    (hpath : ∀ m, ActPath occ [] m (f m)) (hs : ctx.sockets.lookup key = some s) :
    (ctx.withSock k f).sockets.lookup key = some s
      ∨ key = k ∧ ctx.withSock k f = Context.attach key (f (ctx.detach key s))
        ∧ (ctx.withSock k f).sockets.lookup key = some (f (ctx.detach key s)).sock := by
  unfold Context.withSock
  split
  · exact .inl hs
  · rename_i sock hsock
    rw [lookup_attach]
    split
    · rename_i hkey
      subst hkey
      obtain rfl := Option.some.inj (hs.symm.trans hsock)
      exact .inr ⟨rfl, rfl, rfl⟩
    · rename_i hkey
      rw [sockets_of_path (hpath _)]
      exact .inl ((Finmap.lookup_erase_ne hkey).trans hs)

/-- An operation on one socket that keeps `P` there keeps it everywhere. -/
theorem everySock_withSock {occ : Occasion} {f : Detached → Detached} (h : EverySock P ctx)
    (hpath : ∀ m, ActPath occ [] m (f m)) (hf : ∀ m, P m.sock → P (f m).sock) :
    EverySock P (ctx.withSock key f) :=
  everySock_withOne h hpath (fun sock _ => hf (ctx.detach key sock))

theorem everySock_foldl {f : Context → Key → Context}
    (hf : ∀ ctx key, EverySock P ctx → EverySock P (f ctx key)) (keys : List Key) :
    ∀ ctx, EverySock P ctx → EverySock P (keys.foldl f ctx) := by
  induction keys with
  | nil => exact fun _ h => h
  | cons key rest ih => exact fun ctx h => ih _ (hf ctx key h)

/-! ## The keys of new sockets -/

/-- Transmitting a packet leaves the key. -/
theorem key_sendPacketAt (m : Detached) (seq : UInt16) :
    (m.sendPacketAt seq).sock.key = m.sock.key := by
  have hsend : ActPath (anyOccasion none) [] m (m.sendPacketAt seq) :=
    Steps.single (.tx (.sendPacket m _))
  exact congrArg Ident.key hsend.ident_eq

/-- A dialling socket is listed under the id it drew. -/
theorem key_dialledSent (ctx : Context) (addr : SocketAddr) (seed : UInt32) (rng : Rng) :
    (Context.dialledSent ctx addr seed rng).sock.key = { addr := addr, recvId := seed } :=
  (key_sendPacketAt _ _).trans (dialled_key ctx addr seed rng)

/-- Answering a SYN leaves the key. -/
theorem key_synAcked (m : Detached) (buf : Bytes) :
    ((m.processIncoming buf true).1.sendAck true).sock.key = m.sock.key := by
  have hpath : ActPath (anyOccasion (some buf)) [] m ((m.processIncoming buf true).1.sendAck true) :=
    (path_processIncoming m buf true rfl).silent (Steps.single (.ack _ true (.due rfl)))
  exact congrArg Ident.key hpath.ident_eq

/-- An accepted socket is listed under the id after the one of the SYN. -/
theorem key_acceptSyn (ctx : Context) (buf : Bytes) (addr : SocketAddr) :
    (ctx.acceptSyn buf addr).sock.key
      = { addr := addr, recvId := (connId buf).toUInt32 + 1 } :=
  (key_synAcked _ buf).trans (accepting_key ctx buf addr)

/-! ## The cells of new sockets -/

/-- A dial gets a fresh cell. -/
theorem dialled_users (ctx : Context) (addr : SocketAddr) (seed : UInt32) (rng : Rng) :
    (ctx.dialled addr seed rng).ctx.users
      = Function.update ctx.users ctx.nextUser (ConnCell.new addr) := rfl

/-- An accepted connection gets a fresh cell. -/
theorem accepting_users (ctx : Context) (buf : Bytes) (addr : SocketAddr) :
    (ctx.accepting buf addr).ctx.users
      = Function.update ctx.users ctx.nextUser (ConnCell.new addr) := rfl

/-- If the datagram goes to a socket of the table, `process_incoming` keeps `P`
    of that socket. -/
def KeptHere (P : UtpSock → Prop) (ctx : Context) (op : Op) : Prop :=
  ∀ buf addr firewall, op = .processUdp buf addr firewall → packetType buf ≠ stSyn →
    ∀ sock, ctx.sockets.lookup { addr := addr, recvId := (connId buf).toUInt32 } = some sock →
      P sock → P ((ctx.detach { addr := addr, recvId := (connId buf).toUInt32 } sock).processIncoming
        buf false).1.sock

namespace KeptQuiet

/-- Issuing one deferred ack. -/
theorem issueAck (hP : KeptQuiet P) (ctx : Context) (key : Key) (h : EverySock P ctx) :
    EverySock P (ctx.issueAck key) :=
  @everySock_withSock _ _ _ (anyOccasion none) _ h
    (fun m => (Steps.single (Act.unlist m rfl)).silent (Steps.single (.ack _ false (.due rfl))))
    hP.ack

/-- Issuing all of them. -/
theorem issueDeferredAcks (hP : KeptQuiet P) (h : EverySock P ctx) :
    EverySock P ctx.issueDeferredAcks :=
  everySock_foldl hP.issueAck ctx.ackList _ h

/-- The timers of one socket. A socket that is destroyed takes nothing along. -/
theorem checkSock (hP : KeptQuiet P) (ctx : Context) (key : Key) (h : EverySock P ctx) :
    EverySock P (ctx.checkSock key) := by
  unfold Context.checkSock
  split
  · exact h
  · rename_i sock hsock
    have hsockets := sockets_of_path
      (@path_checkTimeouts (anyOccasion none) (ctx.detach key sock) rfl)
    dsimp only
    split
    · intro k s hs
      rw [destroySock_sockets, hsockets] at hs
      exact h k s (lookup_of_detach hs)
    · exact everySock_putBack h hsockets (hP.timers _ (h key sock hsock))

/-- The timers of all sockets. -/
theorem checkTimeouts (hP : KeptQuiet P) (order : List Key) (h : EverySock P ctx) :
    EverySock P (ctx.checkTimeouts order) := by
  unfold Context.checkTimeouts
  dsimp only
  split
  · exact h
  · exact everySock_foldl hP.checkSock order _ h

/-- A write. -/
theorem engineWrite (hP : KeptQuiet P) (key : Key) (buf : Bytes) (h : EverySock P ctx) :
    EverySock P (ctx.write key buf).1 := by
  unfold Context.write
  split
  · exact h
  · rename_i sock hsock
    have hpath : ActPath (anyOccasion none) _ _ _ :=
      ActPath.ofTx (path_writeEngine (ctx.detach key sock) buf).2.1
    exact everySock_putBack h (sockets_of_path hpath) (hP.write _ buf (h key sock hsock))

/-- A datagram: the one socket it is for, a new one, or none. -/
theorem processUdp (hP : KeptQuiet P)
    (haccept : ∀ (buf : Bytes) (addr : SocketAddr), P (ctx.acceptSyn buf addr).sock) (buf : Bytes)
    (addr : SocketAddr) (firewall : SocketAddr → Bool) (hin : KeptHere P ctx (.processUdp buf addr firewall))
    (h : EverySock P ctx) :
    EverySock P (ctx.processUdp buf addr firewall).1 := by
  unfold Context.processUdp
  dsimp only
  split
  · exact h
  · split
    · exact h
    · split
      · exact h
      · split
        · rename_i hrst
          -- an RST goes to its connection, if there is one
          split
          · exact @everySock_withSock _ _ _ (anyOccasion (some buf)) _ h
              (fun m => Steps.single (.reset m buf rfl hrst)) hP.reset
          · exact h
        · split
          · -- a known connection
            rename_i hsome
            exact @everySock_withOne _ _ _ (anyOccasion (some buf)) _ h
              (fun m => path_processIncoming m buf false rfl) (hin buf addr firewall rfl hsome.1)
          · split
            · intro k s hs
              rw [rejectUnknown_sockets] at hs
              exact h k s hs
            · -- what remains is a SYN from an address without a connection
              split
              · exact h
              · split
                · exact h
                · split
                  · exact h
                  · exact everySock_new h (acceptSyn_sockets ctx buf addr)
                      (haccept buf addr)

/-- One operation, from what it does to the socket it accepts, dials or hands a
    datagram to. -/
theorem step (hP : KeptQuiet P)
    (haccept : ∀ (buf : Bytes) (addr : SocketAddr), P (ctx.acceptSyn buf addr).sock)
    {ctx' : Context} {op : Op}
    (hdial : ∀ addr fuel seed rng, op = .connect addr fuel →
      ctx.drawSeed addr fuel ctx.rng = some (seed, rng) →
      P (Context.dialledSent ctx addr seed rng).sock)
    (hin : KeptHere P ctx op) (hstep : ctx.step op = some ctx') (h : EverySock P ctx) :
    EverySock P ctx' := by
  -- the three things an operation does to one socket
  have hread : ∀ ctx key, EverySock P ctx → EverySock P (Context.readDrained ctx key) :=
    fun ctx key h => @everySock_withSock _ _ _ (anyOccasion none) _ h path_readDrained hP.drained
  have hclose : ∀ ctx key, EverySock P ctx → EverySock P (Context.close ctx key) :=
    fun ctx key h => @everySock_withSock _ _ _ (anyOccasion none) _ h (fun m => path_closeEngine m rfl) hP.close
  cases op with
  | connect addr fuel =>
      obtain ⟨⟨ctx₁, key, user⟩, hconn, rfl⟩ := Option.map_eq_some_iff.mp hstep
      obtain ⟨seed, rng, hdraw, hctx⟩ := connect_spec hconn
      rw [hctx]
      exact everySock_new h (dialledSent_sockets ctx addr seed rng)
        (hdial addr fuel seed rng rfl hdraw)
  | processUdp buf addr firewall =>
      obtain rfl := Option.some.inj hstep
      exact hP.processUdp haccept buf addr firewall hin h
  | issueDeferredAcks =>
      obtain rfl := Option.some.inj hstep
      exact hP.issueDeferredAcks h
  | checkTimeouts order =>
      obtain ⟨-, hstep⟩ := Option.ite_none_right_eq_some.mp hstep
      obtain rfl := Option.some.inj hstep
      exact hP.checkTimeouts order h
  | write key buf =>
      obtain rfl := Option.some.inj hstep
      exact hP.engineWrite key buf h
  | readDrained key =>
      obtain rfl := Option.some.inj hstep
      exact hread ctx key h
  | close key =>
      obtain rfl := Option.some.inj hstep
      exact hclose ctx key h
  | recv key user len =>
      obtain rfl := Option.some.inj hstep
      unfold Context.recv
      dsimp only
      split
      · split
        · exact hP.issueDeferredAcks (hread _ key h)
        · exact h
      · exact h
  | closeConn key user =>
      obtain rfl := Option.some.inj hstep
      unfold Context.closeConn
      dsimp only
      split
      · exact hclose _ key h
      · exact h
  | destroyAll order =>
      obtain ⟨-, hstep⟩ := Option.ite_none_right_eq_some.mp hstep
      obtain rfl := Option.some.inj hstep
      intro k s hs
      refine h k s ?_
      have hall : (order.foldl Context.destroyOne ctx).sockets.lookup k = some s := hs
      -- a destroyed socket is not in the table any more
      rw [lookup_destroyEach] at hall
      split at hall
      · exact nomatch hall
      · exact hall
  | _ =>
      obtain rfl := Option.some.inj hstep
      exact h

end KeptQuiet

/-- **ONE OPERATION** keeps what its parts keep. -/
theorem KeptOn.step (hP : KeptOn P) (hborn : BornWith P ctx) {ctx' : Context} {op : Op}
    (hstep : ctx.step op = some ctx') (h : EverySock P ctx) : EverySock P ctx' :=
  hP.toKeptQuiet.step hborn.accepted (fun addr _ seed rng _ _ => hborn.dialled addr seed rng)
    (fun buf addr _ _ _ sock _ => hP.incoming (ctx.detach ⟨addr, (connId buf).toUInt32⟩ sock) buf)
    hstep h

/-- **THE INVARIANT RULE BETWEEN OPERATIONS**: what new sockets have and every
    function of the engine keeps, every socket of every reachable engine has. -/
theorem Reachable.keptOn (hP : KeptOn P) (hborn : ∀ ctx, BornWith P ctx) (h : Reachable ctx) :
    EverySock P ctx := by
  induction h with
  | new clock rng transport fpu users =>
      intro k s hs
      exact nomatch (Finmap.lookup_empty k).symm.trans hs
  | step op _ hstep ih => exact hP.step (hborn _) hstep ih

/-- What every act keeps, every function keeps. -/
theorem KeptOn.of_act (hact : ∀ occ l m m', Act occ l m m' → P m.sock → P m'.sock) :
    KeptOn P := by
  have hpath : ∀ {occ l m m'}, ActPath occ l m m' → P m.sock → P m'.sock := fun h hm =>
    Steps.invariant (P := fun m : Detached => P m.sock) (fun _ _ _ ha => hact _ _ _ _ ha) h hm
  exact {
    incoming := fun m buf => hpath (@path_processIncoming (anyOccasion (some buf)) m buf
      false rfl)
    reset := fun m => hpath (Steps.single (@Act.reset (anyOccasion (some
      (Context.rstDatagram 0 0 0))) m (Context.rstDatagram 0 0 0) rfl (by decide +kernel)))
    write := fun m buf => hpath (@ActPath.ofTx (anyOccasion none) _ _ _
      (path_writeEngine m buf).2.1)
    drained := fun m => hpath (@path_readDrained (anyOccasion none) m)
    close := fun m => hpath (@path_closeEngine (anyOccasion none) m rfl)
    timers := fun m => hpath (@path_checkTimeouts (anyOccasion none) m rfl)
    ack := fun m => hpath ((Steps.single (@Act.unlist (anyOccasion none) m rfl)).silent
      (Steps.single (.ack _ false (.due rfl)))) }

/-! ## What the sockets leave alone

    A part of the context that no act of a socket touches changes only where an
    operation sets it itself. -/

/-- No act and no change of the table, the ack list or the cells touches the
    view `V`. -/
structure Aside {β : Type} (V : Context → β) : Prop where
  act : ∀ occ l m m', Act occ l m m' → V m'.ctx = V m.ctx
  sockets : ∀ (ctx : Context) (table : Finmap (fun _ : Key => UtpSock)),
    V { ctx with sockets := table } = V ctx
  ackList : ∀ (ctx : Context) (keys : List Key), V { ctx with ackList := keys } = V ctx
  users : ∀ (ctx : Context) (user : UserId) (f : ConnCell → ConnCell),
    V (ctx.onUser user f) = V ctx

/-- Nor does the allocation of a new socket. -/
structure AsideNew {β : Type} (V : Context → β) : Prop extends Aside V where
  dial : ∀ ctx addr seed rng, V (Context.dialled ctx addr seed rng).ctx = V ctx
  accept : ∀ ctx buf addr, V (Context.accepting ctx buf addr).ctx = V ctx

/-- A datagram that is neither a SYN nor an RST and whose socket is not in the
    table. -/
def Strays (ctx : Context) (buf : Bytes) (addr : SocketAddr) : Prop :=
  headerSize ≤ buf.length ∧ addr.port ≠ 0 ∧ wireVersion buf = 1
    ∧ packetType buf ≠ stReset ∧ packetType buf ≠ stSyn
    ∧ ctx.sockets.lookup { addr := addr, recvId := (connId buf).toUInt32 } = none

instance (ctx : Context) (buf : Bytes) (addr : SocketAddr) : Decidable (Strays ctx buf addr) :=
  inferInstanceAs (Decidable (_ ∧ _))

/-- A SYN whose connection is not in the table. -/
def Knocks (ctx : Context) (buf : Bytes) (addr : SocketAddr) : Prop :=
  packetType buf = stSyn
    ∧ ctx.sockets.lookup { addr := addr, recvId := (connId buf).toUInt32 + 1 } = none

/-- The operations that reach the context through sockets of the table only. -/
def Op.plain : Op → Bool
  | .elapse _ | .setSendBufferSize _ | .setRecvBufferSize _ | .setTargetDelay _
  | .connect _ _ | .processUdp _ _ _ | .checkTimeouts _ | .destroyAll _ => false
  | _ => true

namespace Aside

variable {β : Type} {V : Context → β}

/-- What no act changes, no path changes. -/
theorem path (hV : Aside V) {occ : Occasion} {l : Bytes} {m m' : Detached}
    (h : ActPath occ l m m') : V m'.ctx = V m.ctx :=
  Steps.lift (S := fun a b : Detached => V b.ctx = V a.ctx) (fun _ => rfl)
    (fun _ _ _ hab hbc => hbc.trans hab) (fun _ _ _ ha => hV.act _ _ _ _ ha) h

/-- Putting a socket into the table is none of its business. -/
theorem attach (hV : Aside V) (key : Key) (m : Detached) :
    V (Context.attach key m) = V m.ctx := hV.sockets m.ctx _

theorem detach (hV : Aside V) (ctx : Context) (key : Key) (sock : UtpSock) :
    V (ctx.detach key sock).ctx = V ctx := hV.sockets ctx _

theorem putBack (hV : Aside V) {occ : Occasion} {l : Bytes} {sock : UtpSock} {m : Detached}
    (h : ActPath occ l (ctx.detach key sock) m) : V (Context.attach key m) = V ctx := by
  rw [hV.attach, hV.path h, hV.detach]

/-- An operation on one socket leaves the value. -/
theorem withSock (hV : Aside V) {occ : Occasion} {f : Detached → Detached}
    (hpath : ∀ m, ActPath occ [] m (f m)) : V (ctx.withSock key f) = V ctx := by
  unfold Context.withSock
  split
  · rfl
  · exact hV.putBack (hpath _)

theorem foldl {f : Context → Key → Context} (hf : ∀ ctx key, V (f ctx key) = V ctx)
    (keys : List Key) : ∀ ctx, V (keys.foldl f ctx) = V ctx := by
  induction keys with
  | nil => exact fun _ => rfl
  | cons key rest ih => exact fun ctx => (ih _).trans (hf ctx key)

/-- Destroying a socket leaves the value. -/
theorem destroySock (hV : Aside V) (m : Detached) : V (Context.destroySock m) = V m.ctx := by
  have hnotify : V (m.notify (·.onDestroying)).ctx = V m.ctx := hV.users _ _ _
  unfold Context.destroySock ackListRemove
  split
  · exact (hV.ackList _ _).trans hnotify
  · exact hnotify

/-- The timers of one socket. A socket that is destroyed takes nothing along. -/
theorem checkSock (hV : Aside V) (ctx : Context) (key : Key) : V (ctx.checkSock key) = V ctx := by
  unfold Context.checkSock
  split
  · rfl
  · rename_i sock _
    have hpath := @path_checkTimeouts (anyOccasion none) (ctx.detach key sock) rfl
    dsimp only
    split
    · rw [hV.destroySock, hV.path hpath, hV.detach]
    · exact hV.putBack hpath

/-- Issuing all of them. -/
theorem issueDeferredAcks (hV : Aside V) (ctx : Context) : V ctx.issueDeferredAcks = V ctx := by
  unfold Context.issueDeferredAcks
  rw [foldl (f := Context.issueAck) (fun _ _ => @hV.withSock _ _ _ _ (anyOccasion none) _ (fun m =>
    (Steps.single (Act.unlist m rfl)).silent (Steps.single (.ack _ false (.due rfl)))))]
  exact hV.ackList _ _

theorem destroyOne (hV : Aside V) (ctx : Context) (key : Key) :
    V (ctx.destroyOne key) = V ctx := by
  unfold Context.destroyOne
  split
  · rfl
  · rw [hV.destroySock, hV.detach]

/-- A datagram for no socket and the SYN of a new connection are all that
    reaches the rest of the context. -/
theorem processUdp (hV : Aside V) (ctx : Context) (buf : Bytes) (addr : SocketAddr)
    (firewall : SocketAddr → Bool) :
    (V (ctx.processUdp buf addr firewall).1 = V ctx
        ∧ ∀ key user, (ctx.processUdp buf addr firewall).2 ≠ .accepted key user)
      ∨ (Strays ctx buf addr ∧ ctx.processUdp buf addr firewall
          = (ctx.rejectUnknown addr (connId buf).toUInt32 (seqNr buf), .handled))
      ∨ Knocks ctx buf addr ∧ ctx.processUdp buf addr firewall
          = (Context.attach (ctx.acceptSyn buf addr).sock.key (ctx.acceptSyn buf addr),
            .accepted (ctx.acceptSyn buf addr).sock.key (ctx.acceptSyn buf addr).sock.user) := by
  unfold Context.processUdp
  dsimp only
  split
  · exact .inl ⟨rfl, nofun⟩
  · rename_i hlen
    split
    · exact .inl ⟨rfl, nofun⟩
    · rename_i hport
      split
      · exact .inl ⟨rfl, nofun⟩
      · rename_i hversion
        split
        · rename_i hrst
          split
          · exact .inl ⟨@hV.withSock _ _ _ _ (anyOccasion (some buf)) _
              (fun m => Steps.single (.reset m buf rfl hrst)), nofun⟩
          · exact .inl ⟨rfl, nofun⟩
        · rename_i hrst
          split
          · -- handled by the socket it is for
            exact .inl ⟨@hV.withSock _ _ _ _ (anyOccasion (some buf)) _
              (fun m => path_processIncoming m buf false rfl), nofun⟩
          · rename_i hknown
            split
            · rename_i hsyn
              -- no connection and no SYN
              rw [not_and] at hknown
              exact .inr (.inl ⟨⟨not_lt.mp hlen, hport, not_not.mp hversion, hrst, hsyn,
                Option.not_isSome_iff_eq_none.mp (hknown hsyn)⟩, rfl⟩)
            · rename_i hsyn
              split
              · exact .inl ⟨rfl, nofun⟩
              · rename_i hfree
                split
                · exact .inl ⟨rfl, nofun⟩
                · split
                  · exact .inl ⟨rfl, nofun⟩
                  · -- a SYN that is let in
                    exact .inr (.inr ⟨⟨not_not.mp hsyn,
                      Option.not_isSome_iff_eq_none.mp hfree⟩, rfl⟩)

/-- A sweep sets the clock reading and, unless it is rate-limited, the time of
    the sweep and the RST cache. -/
theorem checkTimeouts (hV : Aside V) (ctx : Context) (order : List Key) :
    V (ctx.checkTimeouts order)
      = V (if ctx.rateLimited then { ctx with currentMs := ctx.clock.millis }
        else
          { ctx with
            currentMs := ctx.clock.millis
            lastCheck := ctx.clock.millis
            rstInfo :=
              Context.purgeRst ctx.clock.millis ctx.rstInfo.length 0 ctx.rstInfo }) := by
  unfold Context.checkTimeouts
  dsimp only
  split
  · rfl
  · exact foldl hV.checkSock order _

/-- **THE OTHER OPERATIONS LEAVE THE REST OF THE CONTEXT ALONE.** -/
theorem step (hV : Aside V) {ctx' : Context} {op : Op} (hstep : ctx.step op = some ctx')
    (hop : Op.plain op = true) : V ctx' = V ctx := by
  have hread : ∀ ctx key, V (Context.readDrained ctx key) = V ctx :=
    fun ctx key => @hV.withSock _ _ _ _ (anyOccasion none) _ path_readDrained
  have hclose : ∀ ctx key, V (Context.close ctx key) = V ctx :=
    fun ctx key => @hV.withSock _ _ _ _ (anyOccasion none) _ (fun m => path_closeEngine m rfl)
  cases op with
  | elapse => exact nomatch hop
  | setSendBufferSize => exact nomatch hop
  | setRecvBufferSize => exact nomatch hop
  | setTargetDelay => exact nomatch hop
  | processUdp => exact nomatch hop
  | checkTimeouts => exact nomatch hop
  | connect => exact nomatch hop
  | destroyAll => exact nomatch hop
  | issueDeferredAcks =>
      obtain rfl := Option.some.inj hstep
      exact hV.issueDeferredAcks ctx
  | write key buf =>
      obtain rfl := Option.some.inj hstep
      unfold Context.write
      split
      · rfl
      · rename_i sock _
        exact hV.putBack (@ActPath.ofTx (anyOccasion none) _ _ _
          (path_writeEngine (ctx.detach key sock) buf).2.1)
  | readDrained key => obtain rfl := Option.some.inj hstep; exact hread ctx key
  | close key => obtain rfl := Option.some.inj hstep; exact hclose ctx key
  | recv key user len =>
      obtain rfl := Option.some.inj hstep
      unfold Context.recv
      dsimp only
      have hconsume : V (ctx.consume user len) = V ctx := hV.users _ _ _
      split
      · split
        · exact (hV.issueDeferredAcks _).trans ((hread _ key).trans hconsume)
        · exact hconsume
      · rfl
  | closeConn key user =>
      obtain rfl := Option.some.inj hstep
      unfold Context.closeConn
      dsimp only
      split
      · exact (hclose _ key).trans (hV.users _ _ _)
      · exact hV.users _ _ _

theorem destroyAll (hV : Aside V) (ctx : Context) (order : List Key) :
    V (ctx.destroyAll order) = V ctx :=
  (hV.ackList _ _).trans (foldl hV.destroyOne order ctx)

end Aside

namespace AsideNew

variable {β : Type} {V : Context → β}

/-- A dial leaves the value. -/
theorem dialledSent (hV : AsideNew V) (ctx : Context) (addr : SocketAddr) (seed : UInt32)
    (rng : Rng) : V (Context.dialledSent ctx addr seed rng).ctx = V ctx := by
  have hsend : ActPath (anyOccasion none) [] (ctx.dialled addr seed rng)
      (Context.dialledSent ctx addr seed rng) := Steps.single (.tx (.sendPacket _ _))
  rw [hV.path hsend, hV.dial]

theorem connect (hV : AsideNew V) {ctx' : Context} {addr : SocketAddr} {fuel : Nat}
    (hstep : ctx.step (.connect addr fuel) = some ctx') : V ctx' = V ctx := by
  obtain ⟨⟨ctx₁, key, user⟩, hconn, rfl⟩ := Option.map_eq_some_iff.mp hstep
  obtain ⟨seed, rng, -, hctx⟩ := connect_spec hconn
  rw [hctx]
  exact (hV.attach _ _).trans (hV.dialledSent ctx addr seed rng)

theorem acceptSyn (hV : AsideNew V) (ctx : Context) (buf : Bytes) (addr : SocketAddr) :
    V (ctx.acceptSyn buf addr).ctx = V ctx := by
  have hsyn : ActPath (anyOccasion (some buf)) [] (ctx.accepting buf addr)
      (ctx.acceptSyn buf addr) :=
    (path_processIncoming _ buf true rfl).silent (Steps.single (.ack _ true (.due rfl)))
  rw [hV.path hsyn, hV.accept]

/-- A datagram for no socket is all that reaches the rest of the context. -/
theorem processUdp (hV : AsideNew V) (ctx : Context) (buf : Bytes) (addr : SocketAddr)
    (firewall : SocketAddr → Bool) :
    V (ctx.processUdp buf addr firewall).1 = V ctx
      ∨ Strays ctx buf addr
        ∧ (ctx.processUdp buf addr firewall).1
          = ctx.rejectUnknown addr (connId buf).toUInt32 (seqNr buf) := by
  rcases hV.toAside.processUdp ctx buf addr firewall with ⟨hsame, -⟩ | ⟨hstray, heq⟩ | ⟨-, heq⟩
  · exact .inl hsame
  · exact .inr ⟨hstray, congrArg Prod.fst heq⟩
  · rw [heq]
    exact .inl ((hV.attach _ _).trans (hV.acceptSyn ctx buf addr))

end AsideNew

/-! ## A sweep, socket by socket -/

/-- Destroying a socket reads no clock. -/
theorem destroySock_clock (m : Detached) :
    (Context.destroySock m).clock = m.ctx.clock
      ∧ (Context.destroySock m).currentMs = m.ctx.currentMs :=
  ⟨congrArg Surroundings.clock (surroundings_ackListRemove (m.notify (·.onDestroying))),
    currentMs_ackListRemove (m.notify (·.onDestroying))⟩

/-- A visit of the sweep finds the time it leaves. -/
theorem checkSock_clock (ctx : Context) (key : Key) (hread : ctx.currentMs = ctx.clock.millis) :
    (ctx.checkSock key).clock = ctx.clock ∧ (ctx.checkSock key).currentMs = ctx.currentMs := by
  unfold Context.checkSock
  split
  · exact ⟨rfl, rfl⟩
  · rename_i sock hsock
    obtain ⟨hclock, hms⟩ := clockKept_path
      (@path_checkTimeouts (anyOccasion none) (ctx.detach key sock) rfl)
    have hms' : (ctx.detach key sock).checkTimeouts.ctx.currentMs = ctx.currentMs :=
      hms.elim id (fun h => h.trans hread.symm)
    dsimp only
    split
    · obtain ⟨hc, hm⟩ := destroySock_clock (ctx.detach key sock).checkTimeouts
      exact ⟨hc.trans hclock, hm.trans hms'⟩
    · exact ⟨hclock, hms'⟩

/-- A visit leaves the other sockets. -/
theorem checkSock_other {k : Key} (hne : key ≠ k) :
    (ctx.checkSock k).sockets.lookup key = ctx.sockets.lookup key := by
  unfold Context.checkSock
  split
  · rfl
  · rename_i sock hsock
    have hsocks := sockets_of_path
      (@path_checkTimeouts (anyOccasion none) (ctx.detach k sock) rfl)
    dsimp only
    split
    · rw [destroySock_sockets, hsocks]
      exact Finmap.lookup_erase_ne hne
    · rw [lookup_attach, if_neg hne, hsocks]
      exact Finmap.lookup_erase_ne hne

/-- A sweep leaves the sockets it does not visit. -/
theorem sweep_other (order : List Key) :
    ∀ ctx : Context, key ∉ order →
      (order.foldl Context.checkSock ctx).sockets.lookup key = ctx.sockets.lookup key := by
  induction order with
  | nil => intro ctx _; rfl
  | cons k rest ih =>
      intro ctx hmem
      obtain ⟨hk, hrest⟩ := not_or.mp (fun h => hmem (List.mem_cons.mpr h))
      rw [List.foldl_cons, ih _ hrest, checkSock_other hk]

/-- In a sweep every socket is looked at once, at the time of the sweep. -/
theorem sweep_lookup {s : UtpSock} (order : List Key) :
    ∀ ctx : Context, order.Nodup → key ∈ order → ctx.sockets.lookup key = some s →
      ctx.currentMs = ctx.clock.millis →
      ∃ ctx₁ : Context, ctx₁.clock = ctx.clock ∧ ctx₁.currentMs = ctx.currentMs
        ∧ ctx₁.sockets.lookup key = some s
        ∧ (order.foldl Context.checkSock ctx).sockets.lookup key
          = (ctx₁.checkSock key).sockets.lookup key := by
  induction order with
  | nil => intro ctx _ hmem; exact nomatch hmem
  | cons k rest ih =>
      intro ctx hnodup hmem hs hread
      obtain ⟨hk, hnodup⟩ := List.nodup_cons.mp hnodup
      rw [List.foldl_cons]
      -- its own turn, or that of another socket
      by_cases hkey : key = k
      · subst hkey
        exact ⟨ctx, rfl, rfl, hs, sweep_other rest _ hk⟩
      · obtain ⟨hclock, hms⟩ := checkSock_clock ctx k hread
        obtain ⟨ctx₁, hc₁, hm₁, hs₁, heq⟩ := ih (ctx.checkSock k) hnodup
          ((List.mem_cons.mp hmem).resolve_left hkey) ((checkSock_other hkey).trans hs)
          (by rw [hms, hclock]; exact hread)
        exact ⟨ctx₁, hc₁.trans hclock, hm₁.trans hms, hs₁, heq⟩

end UtpActs
