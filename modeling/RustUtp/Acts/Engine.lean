import RustUtp.Acts.Socket

/-! # What an engine can do

    `EngineAct` lifts the acts of a socket to the table it lives in and adds
    what happens to the table itself: sockets appear by dialling and accepting,
    disappear by teardown, and unknown datagrams are answered.  Every operation
    of an engine is a path of such acts, so what every act keeps holds in every
    reachable state. -/

namespace UtpActs

open UtpCircular UtpPacket UtpUtil UtpConnShared UtpEngine LabelledPath

/-- Taking a socket out and putting it back changes nothing. -/
theorem attach_detach {ctx : Context} {key : Key} {sock : UtpSock}
    (h : ctx.sockets.lookup key = some sock) :
    Context.attach key (ctx.detach key sock) = ctx := by
  have hsame : (ctx.sockets.erase key).insert key sock = ctx.sockets := by
    refine Finmap.ext_lookup (fun k => ?_)
    by_cases hk : k = key
    · subst hk
      rw [Finmap.lookup_insert, h]
    · rw [Finmap.lookup_insert_of_ne _ hk, Finmap.lookup_erase_ne hk]
  show ({ ctx with sockets := (ctx.sockets.erase key).insert key sock } : Context) = ctx
  rw [hsame]

/-- One act of an engine. -/
inductive EngineAct (occ : Occasion) : Bytes → Context → Context → Prop where
  | sock (key : Key) {l : Bytes} {m m' : Detached} (hout : m.ctx.sockets.lookup key = none)
      (h : Act occ l m m') : EngineAct occ l (Context.attach key m) (Context.attach key m')
  | dial (ctx : Context) (addr : SocketAddr) (seed : UInt32) (rng : Rng)
      (hseed : seed < 0x10000)
      (hfree : ctx.sockets.lookup { addr := addr, recvId := seed } = none) :
      EngineAct occ [] ctx
        (Context.attach { addr := addr, recvId := seed } (ctx.dialled addr seed rng))
  | accept (ctx : Context) (buf : Bytes) (addr : SocketAddr) (hdat : occ.datagram = some buf)
      (hty : packetType buf = stSyn)
      (hfree : ctx.sockets.lookup { addr := addr, recvId := (connId buf).toUInt32 + 1 } = none) :
      EngineAct occ [] ctx
        (Context.attach { addr := addr, recvId := (connId buf).toUInt32 + 1 }
          (ctx.accepting buf addr))
  | remove (key : Key) (m : Detached) (htear : occ.tearing = true)
      (hout : m.ctx.sockets.lookup key = none) :
      EngineAct occ [] (Context.attach key m) (Context.destroySock m)
  | reject (ctx : Context) (buf : Bytes) (addr : SocketAddr) (hdat : occ.datagram = some buf)
      (hty : packetType buf ≠ stSyn) (hrst : packetType buf ≠ stReset)
      (hnone : ctx.sockets.lookup { addr := addr, recvId := (connId buf).toUInt32 } = none) :
      EngineAct occ [] ctx (ctx.rejectUnknown addr (connId buf).toUInt32 (seqNr buf))
  | settings (ctx : Context) (clock : Clock) (currentMs lastCheck targetDelay optSndbuf
      optRcvbuf : Nat) (rstInfo : List RstInfo) :
      EngineAct occ [] ctx
        { ctx with
          clock := clock
          currentMs := currentMs
          lastCheck := lastCheck
          targetDelay := targetDelay
          optSndbuf := optSndbuf
          optRcvbuf := optRcvbuf
          rstInfo := rstInfo }
  /-- the list is taken when the acks on it are due, or when no socket is left -/
  | takeAcks (ctx : Context) (hwhy : occ.issuing = true ∨ ctx.sockets = ∅) :
      EngineAct occ [] ctx { ctx with ackList := [] }
  | consume (ctx : Context) (user : UserId) (len : Nat) :
      EngineAct occ [] ctx (ctx.consume user len)
  | markClosed (ctx : Context) (user : UserId) :
      EngineAct occ [] ctx (ctx.onUser user (fun c => { c with closed := true }))

/-- A path of acts of an engine. -/
abbrev EnginePath (occ : Occasion) : Bytes → Context → Context → Prop := Steps (EngineAct occ)

variable {occ : Occasion}

/-! ## From sockets to the table -/

/-- The acts of a socket that is out of the table, as acts of the engine. -/
theorem EnginePath.ofActs (key : Key) {l : Bytes} {m m' : Detached}
    (hout : m.ctx.sockets.lookup key = none) (h : ActPath occ l m m') :
    EnginePath occ l (Context.attach key m) (Context.attach key m')
      ∧ m'.ctx.sockets.lookup key = none := by
  induction h with
  | refl m => exact ⟨Steps.refl _, hout⟩
  | tail _ hstep ih =>
      obtain ⟨hpath, hout'⟩ := ih hout
      have hsame := congrArg Surroundings.sockets hstep.surroundings_eq
      exact ⟨hpath.tail (.sock key hout' hstep),
        (congrArg (Finmap.lookup key) hsame).trans hout'⟩

/-- A detached socket is out of the table. -/
theorem lookup_detach (ctx : Context) (key : Key) (sock : UtpSock) :
    (ctx.detach key sock).ctx.sockets.lookup key = none :=
  Finmap.lookup_erase key ctx.sockets

/-- An operation on one socket is a path of the engine. -/
theorem path_withSock (ctx : Context) (key : Key) (f : Detached → Detached)
    (hf : ∀ m, ActPath occ [] m (f m)) : EnginePath occ [] ctx (ctx.withSock key f) := by
  unfold Context.withSock
  split
  · exact Steps.refl ctx
  · rename_i sock hsock
    have h := (EnginePath.ofActs key (lookup_detach ctx key sock)
      (hf (ctx.detach key sock))).1
    rwa [attach_detach hsock] at h

/-! ## The operations -/

/-- Issuing one deferred ack. -/
theorem path_issueAck (ctx : Context) (key : Key) (hdue : occ.issuing = true) :
    EnginePath occ [] ctx (ctx.issueAck key) :=
  path_withSock ctx key _ (fun m =>
    (Steps.single (Act.unlist m hdue)).silent (Steps.single (.ack _ false (.due hdue))))

/-- One operation after the other. The induction is on the keys. -/
theorem path_foldl {f : Context → Key → Context}
    (hf : ∀ ctx key, EnginePath occ [] ctx (f ctx key)) (keys : List Key) :
    ∀ ctx, EnginePath occ [] ctx (keys.foldl f ctx) := by
  induction keys with
  | nil => intro ctx; exact Steps.refl ctx
  | cons key rest ih => intro ctx; exact (hf ctx key).silent (ih _)

/-- Issuing all deferred acks. -/
theorem path_issueDeferredAcks (ctx : Context) (hdue : occ.issuing = true) :
    EnginePath occ [] ctx ctx.issueDeferredAcks :=
  (Steps.single (.takeAcks ctx (.inl hdue))).silent
    (path_foldl (fun ctx key => path_issueAck ctx key hdue) ctx.ackList _)

/-- The timers of one socket, which may tear it down. -/
theorem path_checkSock (hnone : occ.datagram = none) (htear : occ.tearing = true) (ctx : Context)
    (key : Key) :
    EnginePath occ [] ctx (ctx.checkSock key) := by
  unfold Context.checkSock
  split
  · exact Steps.refl ctx
  · rename_i sock hsock
    have hacts : ActPath occ [] _ _ := path_checkTimeouts (ctx.detach key sock) hnone
    obtain ⟨hpath, hout⟩ := EnginePath.ofActs key (lookup_detach ctx key sock) hacts
    rw [attach_detach hsock] at hpath
    dsimp only
    split
    · exact hpath.silent (Steps.single (.remove key _ htear hout))
    · exact hpath

/-- Reading the clock. -/
theorem path_setClock (ctx : Context) (t : Nat) :
    EnginePath occ [] ctx { ctx with currentMs := t } :=
  Steps.single (.settings ctx ctx.clock t ctx.lastCheck ctx.targetDelay ctx.optSndbuf
    ctx.optRcvbuf ctx.rstInfo)

/-- The timers of all sockets, once the last sweep is long enough ago. -/
theorem path_engineCheckTimeouts (ctx : Context) (order : List Key)
    (hnone : occ.datagram = none) (htear : occ.tearing = true) :
    EnginePath occ [] ctx (ctx.checkTimeouts order) := by
  unfold Context.checkTimeouts
  dsimp only
  split
  · exact path_setClock ctx _
  · refine Steps.silent ?_ (path_foldl (path_checkSock hnone htear) order _)
    exact Steps.single (.settings ctx ctx.clock ctx.clock.millis _ ctx.targetDelay
      ctx.optSndbuf ctx.optRcvbuf _)

/-- Destroying the socket under a key. -/
theorem path_destroyOne (htear : occ.tearing = true) (ctx : Context) (key : Key) :
    EnginePath occ [] ctx (ctx.destroyOne key) := by
  unfold Context.destroyOne
  split
  · exact Steps.refl ctx
  · rename_i sock hsock
    have h : EnginePath occ [] _ _ := Steps.single (.remove key (ctx.detach key sock) htear
      (lookup_detach ctx key sock))
    rwa [attach_detach hsock] at h

/-- A destroyed socket is out of the table already. -/
theorem destroySock_sockets (m : Detached) : (Context.destroySock m).sockets = m.ctx.sockets :=
  congrArg Surroundings.sockets (surroundings_ackListRemove (m.notify (·.onDestroying)))

/-- Destroying one key removes its socket and no other. -/
theorem lookup_destroyOne (ctx : Context) (key k : Key) :
    (ctx.destroyOne key).sockets.lookup k
      = if k = key then none else ctx.sockets.lookup k := by
  unfold Context.destroyOne
  split
  · rename_i hnone
    split
    · rename_i hk
      rw [hk, hnone]
    · rfl
  · rw [destroySock_sockets]
    show (ctx.sockets.erase key).lookup k = _
    split
    · rename_i hk
      rw [hk, Finmap.lookup_erase]
    · rename_i hk
      rw [Finmap.lookup_erase_ne hk]

/-- Destroying the keys of a list removes their sockets and no other. -/
theorem lookup_destroyEach (order : List Key) (k : Key) :
    ∀ ctx : Context, (order.foldl Context.destroyOne ctx).sockets.lookup k
      = if k ∈ order then none else ctx.sockets.lookup k := by
  induction order with
  | nil => intro ctx; rw [if_neg (by simp)]; rfl
  | cons key rest ih =>
      intro ctx
      rw [List.foldl_cons, ih, lookup_destroyOne]
      by_cases hk : k = key
      · simp [hk]
      · simp [hk]

/-- Tearing down every socket leaves none. -/
theorem destroyAll_sockets {ctx : Context} {order : List Key} (h : ctx.Enumerates order) :
    (order.foldl Context.destroyOne ctx).sockets = ∅ := by
  refine Finmap.ext_lookup (fun k => ?_)
  rw [lookup_destroyEach, Finmap.lookup_empty]
  split
  · rfl
  · rename_i hk
    rw [Finmap.lookup_eq_none, ← Finmap.mem_keys, ← h.2, List.mem_toFinset]
    exact hk

/-- The bytes a write accepts. -/
def Context.accepted (ctx : Context) (key : Key) (buf : Bytes) : Bytes :=
  buf.take ((ctx.write key buf).2.getD 0)

/-- A write, with the bytes that were accepted. -/
theorem path_write (ctx : Context) (key : Key) (buf : Bytes) :
    EnginePath occ (Context.accepted ctx key buf) ctx (ctx.write key buf).1 := by
  unfold Context.accepted Context.write
  split
  · exact Steps.refl ctx
  · rename_i sock hsock
    have htx : TxPath occ.datagram _ _ _ := (path_writeEngine (ctx.detach key sock) buf).2.1
    have h := (EnginePath.ofActs key (lookup_detach ctx key sock) (ActPath.ofTx htx)).1
    rwa [attach_detach hsock] at h

/-- The seed search returns an id of 16 bits under which no socket is listed. -/
theorem drawSeed_spec (ctx : Context) (addr : SocketAddr) (fuel : Nat) :
    ∀ rng seed rng', ctx.drawSeed addr fuel rng = some (seed, rng') →
      seed < 0x10000 ∧ ctx.sockets.lookup { addr := addr, recvId := seed } = none := by
  induction fuel with
  | zero => intro rng seed rng' h; exact nomatch h
  | succ fuel ih =>
      intro rng seed rng' h
      rw [Context.drawSeed] at h
      split at h
      · rename_i hnone
        obtain ⟨rfl, -⟩ := Prod.mk.inj (Option.some.inj h)
        refine ⟨?_, Option.isNone_iff_eq_none.mp hnone⟩
        rw [UInt32.lt_iff_toNat_lt, UInt32.toNat_and]
        exact Nat.lt_of_le_of_lt Nat.and_le_right (by decide)
      · exact ih _ _ _ h

/-- A dialling socket receives on the id it drew. -/
theorem dialled_key (ctx : Context) (addr : SocketAddr) (seed : UInt32) (rng : Rng) :
    (ctx.dialled addr seed rng).sock.key = { addr := addr, recvId := seed } := by
  show Key.mk addr (0 + seed) = _
  rw [UInt32.zero_add]

/-- Preparing a dial leaves the table. -/
theorem dialled_sockets (ctx : Context) (addr : SocketAddr) (seed : UInt32) (rng : Rng) :
    (ctx.dialled addr seed rng).ctx.sockets = ctx.sockets := rfl

/-- The socket `connect` puts into the table: dialled, with its SYN sent. -/
def Context.dialledSent (ctx : Context) (addr : SocketAddr) (seed : UInt32) (rng : Rng) :
    Detached :=
  (ctx.dialled addr seed rng).sendPacketAt ((ctx.dialled addr seed rng).sock.seqNr - 1)

/-- What `connect` returns, and the state it leaves. -/
theorem connect_result {ctx ctx' : Context} {addr : SocketAddr} {fuel : Nat} {key : Key}
    {user : UserId} (hconn : ctx.connect addr fuel = some (ctx', key, user)) :
    ∃ seed rng, ctx.drawSeed addr fuel ctx.rng = some (seed, rng)
      ∧ key = (Context.dialledSent ctx addr seed rng).sock.key
      ∧ user = (Context.dialledSent ctx addr seed rng).sock.user
      ∧ ctx' = Context.attach key (Context.dialledSent ctx addr seed rng) := by
  unfold Context.connect at hconn
  split at hconn
  · exact nomatch hconn
  · rename_i seed rng hseed
    obtain ⟨hctx, hrest⟩ := Prod.mk.inj (Option.some.inj hconn)
    obtain ⟨hkey, huser⟩ := Prod.mk.inj hrest
    have hkey : (Context.dialledSent ctx addr seed rng).sock.key = key := hkey
    refine ⟨seed, rng, hseed, hkey.symm, huser.symm, ?_⟩
    rw [← hkey]
    exact hctx.symm

/-- A dial lists its socket after the SYN has left. -/
theorem connect_spec {ctx ctx' : Context} {addr : SocketAddr} {fuel : Nat} {key : Key}
    {user : UserId} (h : ctx.connect addr fuel = some (ctx', key, user)) :
    ∃ seed rng, ctx.drawSeed addr fuel ctx.rng = some (seed, rng)
      ∧ ctx' = Context.attach (Context.dialledSent ctx addr seed rng).sock.key
        (Context.dialledSent ctx addr seed rng) := by
  obtain ⟨seed, rng, hseed, hkey, -, hctx⟩ := connect_result h
  rw [hkey] at hctx
  exact ⟨seed, rng, hseed, hctx⟩

/-- A socket that is in the table under its own key sends a packet. -/
theorem path_sendNew {ctx : Context} {key : Key} (m : Detached) (seq : UInt16)
    (hnew : EnginePath occ [] ctx (Context.attach key m)) (hkey : m.sock.key = key)
    (hout : m.ctx.sockets.lookup key = none) :
    EnginePath occ [] ctx
      (Context.attach (m.sendPacketAt seq).sock.key (m.sendPacketAt seq)) := by
  have hsend : ActPath occ [] m (m.sendPacketAt seq) := Steps.single (.tx (.sendPacket m _))
  have hkey' : (m.sendPacketAt seq).sock.key = key :=
    (congrArg Ident.key hsend.ident_eq).trans hkey
  rw [hkey']
  exact hnew.silent (EnginePath.ofActs _ hout hsend).1

/-- A dial: a new socket is born and sends its SYN. -/
theorem path_connect {ctx ctx' : Context} {addr : SocketAddr} {fuel : Nat} {key : Key}
    {user : UserId} (h : ctx.connect addr fuel = some (ctx', key, user)) :
    EnginePath occ [] ctx ctx' := by
  obtain ⟨seed, rng, hseed, hctx⟩ := connect_spec h
  obtain ⟨hlt, hfree⟩ := drawSeed_spec ctx addr fuel _ _ _ hseed
  have hdial : EnginePath occ [] ctx _ := Steps.single (.dial ctx addr seed rng hlt hfree)
  have hout : (ctx.dialled addr seed rng).ctx.sockets.lookup
      { addr := addr, recvId := seed } = none := by
    rw [dialled_sockets]
    exact hfree
  rw [hctx]
  exact path_sendNew _ _ hdial (dialled_key ctx addr seed rng) hout

/-- An accepted socket receives on the id after the one of the SYN. -/
theorem accepting_key (ctx : Context) (buf : Bytes) (addr : SocketAddr) :
    (ctx.accepting buf addr).sock.key
      = { addr := addr, recvId := (connId buf).toUInt32 + 1 } := rfl

/-- Preparing to accept leaves the table. -/
theorem accepting_sockets (ctx : Context) (buf : Bytes) (addr : SocketAddr) :
    (ctx.accepting buf addr).ctx.sockets = ctx.sockets := rfl

/-- A SYN is accepted: a new socket is born, takes the SYN in and acks it. -/
theorem path_acceptSyn (ctx : Context) (buf : Bytes) (addr : SocketAddr)
    (hdat : occ.datagram = some buf) (hty : packetType buf = stSyn)
    (hfree : ctx.sockets.lookup { addr := addr, recvId := (connId buf).toUInt32 + 1 } = none) :
    EnginePath occ [] ctx
      (Context.attach (ctx.acceptSyn buf addr).sock.key (ctx.acceptSyn buf addr)) := by
  have haccept : EnginePath occ [] ctx _ := Steps.single (.accept ctx buf addr hdat hty hfree)
  have hkey := accepting_key ctx buf addr
  have hout : (ctx.accepting buf addr).ctx.sockets.lookup
      { addr := addr, recvId := (connId buf).toUInt32 + 1 } = none := by
    rw [accepting_sockets]
    exact hfree
  unfold Context.acceptSyn
  generalize ctx.accepting buf addr = m at haccept hkey hout ⊢
  -- the new socket takes the SYN and answers it
  have hsyn : ActPath occ [] m ((m.processIncoming buf true).1.sendAck true) :=
    (path_processIncoming m buf true hdat).silent
      (Steps.single (.ack _ true (.synack buf hdat hty)))
  have hkey' : ((m.processIncoming buf true).1.sendAck true).sock.key
      = { addr := addr, recvId := (connId buf).toUInt32 + 1 } :=
    (congrArg Ident.key hsyn.ident_eq).trans hkey
  rw [hkey']
  exact haccept.silent (EnginePath.ofActs _ hout hsyn).1

/-- A datagram from the network, whatever it is. -/
theorem path_processUdp (ctx : Context) (buf : Bytes) (addr : SocketAddr)
    (firewall : SocketAddr → Bool) (hdat : occ.datagram = some buf) :
    EnginePath occ [] ctx (ctx.processUdp buf addr firewall).1 := by
  unfold Context.processUdp
  dsimp only
  split
  · exact Steps.refl ctx
  · split
    · exact Steps.refl ctx
    · split
      · exact Steps.refl ctx
      · split
        · rename_i hrst
          split
          · exact path_withSock ctx _ _ (fun m => Steps.single (.reset m buf hdat hrst))
          · exact Steps.refl ctx
        · rename_i hrst
          split
          · exact path_withSock ctx _ _ (fun m => path_processIncoming m buf false hdat)
          · rename_i hknown
            split
            · rename_i hsyn
              -- an unknown connection is answered by an RST
              refine Steps.single (.reject ctx buf addr hdat hsyn hrst ?_)
              rw [not_and] at hknown
              exact Option.not_isSome_iff_eq_none.mp (hknown hsyn)
            · rename_i hsyn
              split
              · exact Steps.refl ctx
              · rename_i hfree
                split
                · exact Steps.refl ctx
                · split
                  · exact Steps.refl ctx
                  · -- a SYN opens a connection
                    exact path_acceptSyn ctx buf addr hdat (not_not.mp hsyn)
                      (Option.not_isSome_iff_eq_none.mp hfree)

/-- A read, and what it triggers. -/
theorem path_recv (ctx : Context) (key : Key) (user : UserId) (len : Nat)
    (hdue : occ.issuing = true) : EnginePath occ [] ctx (ctx.recv key user len).1 := by
  unfold Context.recv
  dsimp only
  split
  · have hread : EnginePath occ [] ctx _ := Steps.single (.consume ctx user len)
    split
    · exact (hread.silent (path_withSock _ key _ (fun m => path_readDrained m))).silent
        (path_issueDeferredAcks _ hdue)
    · exact hread
  · exact Steps.refl ctx

/-- A close of the handle. -/
theorem path_closeConn (ctx : Context) (key : Key) (user : UserId) (hnone : occ.datagram = none) :
    EnginePath occ [] ctx (ctx.closeConn key user) := by
  unfold Context.closeConn
  dsimp only
  have hmark : EnginePath occ [] ctx _ := Steps.single (.markClosed ctx user)
  split
  · exact hmark.silent (path_withSock _ key _ (fun m => path_closeEngine m hnone))
  · exact hmark

/-- The occasion of an operation. -/
def Op.occasion : Op → Occasion
  | .processUdp buf _ _ => ⟨some buf, false, false⟩
  | .issueDeferredAcks => ⟨none, true, false⟩
  | .recv _ _ _ => ⟨none, true, false⟩
  | .checkTimeouts _ => ⟨none, false, true⟩
  | .destroyAll _ => ⟨none, false, true⟩
  | _ => ⟨none, false, false⟩

/-- The bytes an operation adds to a stream. -/
def Op.accepted (ctx : Context) : Op → Bytes
  | .write key buf => Context.accepted ctx key buf
  | _ => []

/-- **EVERY OPERATION IS A PATH OF ACTS.** -/
theorem path_step {ctx ctx' : Context} {op : Op} (h : ctx.step op = some ctx') :
    EnginePath (Op.occasion op) (Op.accepted ctx op) ctx ctx' := by
  cases op with
  | elapse clock =>
      obtain rfl := Option.some.inj h
      exact Steps.single (.settings ctx clock ctx.currentMs ctx.lastCheck ctx.targetDelay
        ctx.optSndbuf ctx.optRcvbuf ctx.rstInfo)
  | setSendBufferSize bytes =>
      obtain rfl := Option.some.inj h
      exact Steps.single (.settings ctx ctx.clock ctx.currentMs ctx.lastCheck ctx.targetDelay
        bytes ctx.optRcvbuf ctx.rstInfo)
  | setRecvBufferSize bytes =>
      obtain rfl := Option.some.inj h
      exact Steps.single (.settings ctx ctx.clock ctx.currentMs ctx.lastCheck ctx.targetDelay
        ctx.optSndbuf bytes ctx.rstInfo)
  | setTargetDelay micros =>
      obtain rfl := Option.some.inj h
      exact Steps.single (.settings ctx ctx.clock ctx.currentMs ctx.lastCheck micros
        ctx.optSndbuf ctx.optRcvbuf ctx.rstInfo)
  | connect addr fuel =>
      obtain ⟨⟨ctx₁, key, user⟩, hconn, rfl⟩ := Option.map_eq_some_iff.mp h
      exact path_connect hconn
  | processUdp buf addr firewall =>
      obtain rfl := Option.some.inj h
      exact path_processUdp ctx buf addr firewall rfl
  | issueDeferredAcks =>
      obtain rfl := Option.some.inj h
      exact path_issueDeferredAcks ctx rfl
  | checkTimeouts order =>
      obtain ⟨-, h⟩ := Option.ite_none_right_eq_some.mp h
      obtain rfl := Option.some.inj h
      exact path_engineCheckTimeouts ctx order rfl rfl
  | write key buf =>
      obtain rfl := Option.some.inj h
      exact path_write ctx key buf
  | readDrained key =>
      obtain rfl := Option.some.inj h
      exact path_withSock ctx key _ (fun m => path_readDrained m)
  | close key =>
      obtain rfl := Option.some.inj h
      exact path_withSock ctx key _ (fun m => path_closeEngine m rfl)
  | recv key user len =>
      obtain rfl := Option.some.inj h
      exact path_recv ctx key user len rfl
  | closeConn key user =>
      obtain rfl := Option.some.inj h
      exact path_closeConn ctx key user rfl
  | destroyAll order =>
      obtain ⟨henum, h⟩ := Option.ite_none_right_eq_some.mp h
      obtain rfl := Option.some.inj h
      exact (path_foldl (path_destroyOne rfl) order ctx).silent
        (Steps.single (.takeAcks _ (.inr (destroyAll_sockets henum))))

/-! ## Invariants of every socket -/

/-- What the table holds after a socket is put back. -/
theorem lookup_attach (key k : Key) (m : Detached) :
    (Context.attach key m).sockets.lookup k
      = if k = key then some m.sock else m.ctx.sockets.lookup k := by
  show (m.ctx.sockets.insert key m.sock).lookup k = _
  by_cases hk : k = key
  · rw [if_pos hk, hk, Finmap.lookup_insert]
  · rw [if_neg hk, Finmap.lookup_insert_of_ne _ hk]

/-- Answering an unknown connection leaves the table. -/
theorem rejectUnknown_sockets (ctx : Context) (addr : SocketAddr) (id : UInt32)
    (seqNr : UInt16) : (ctx.rejectUnknown addr id seqNr).sockets = ctx.sockets := by
  unfold Context.rejectUnknown
  dsimp only
  split
  · rfl
  · split <;> rfl

/-- Every socket of the table satisfies `P`. -/
def EverySock (P : UtpSock → Prop) (ctx : Context) : Prop :=
  ∀ key s, ctx.sockets.lookup key = some s → P s

/-- A property of all sockets, after one is put back. -/
theorem everySock_attach {P : UtpSock → Prop} {key : Key} {m : Detached} :
    EverySock P (Context.attach key m)
      ↔ P m.sock ∧ ∀ k s, k ≠ key → m.ctx.sockets.lookup k = some s → P s := by
  constructor
  · intro h
    refine ⟨h key m.sock (by rw [lookup_attach, if_pos rfl]), fun k s hk hs => h k s ?_⟩
    rw [lookup_attach, if_neg hk, hs]
  · intro h k s hs
    rw [lookup_attach] at hs
    split at hs
    · obtain rfl := Option.some.inj hs
      exact h.1
    · rename_i hk
      exact h.2 k s hk hs

/-- What every act keeps and every new socket has, every act of the engine
    keeps of all sockets. -/
theorem EngineAct.everySock {P : UtpSock → Prop}
    (hact : ∀ occ l m m', Act occ l m m' → P m.sock → P m'.sock)
    (hdial : ∀ ctx addr seed rng, P (Context.dialled ctx addr seed rng).sock)
    (haccept : ∀ ctx buf addr, P (Context.accepting ctx buf addr).sock)
    {l : Bytes} {ctx ctx' : Context} (h : EngineAct occ l ctx ctx') :
    EverySock P ctx → EverySock P ctx' := by
  intro hP
  cases h with
  | sock key hout hstep =>
      rw [everySock_attach] at hP ⊢
      have hsame := congrArg Surroundings.sockets hstep.surroundings_eq
      refine ⟨hact _ _ _ _ hstep hP.1, fun k s hk hs => hP.2 k s hk ?_⟩
      exact (congrArg (Finmap.lookup k) hsame).symm.trans hs
  | dial _ addr seed rng _ _ =>
      exact everySock_attach.mpr ⟨hdial ctx addr seed rng, fun k s _ hs => hP k s hs⟩
  | accept _ buf addr _ _ _ =>
      exact everySock_attach.mpr ⟨haccept ctx buf addr, fun k s _ hs => hP k s hs⟩
  | remove key m htear hout =>
      intro k s hs
      rw [destroySock_sockets] at hs
      refine (everySock_attach.mp hP).2 k s (fun hk => ?_) hs
      rw [hk, hout] at hs
      exact nomatch hs
  | reject =>
      intro k s hs
      rw [rejectUnknown_sockets] at hs
      exact hP k s hs
  | settings => exact hP
  | takeAcks => exact hP
  | consume => exact hP
  | markClosed => exact hP

/-- **THE INVARIANT RULE FOR SOCKETS**: what every act keeps and every new
    socket has, every socket of every reachable engine has. -/
theorem Reachable.everySock {P : UtpSock → Prop}
    (hact : ∀ occ l m m', Act occ l m m' → P m.sock → P m'.sock)
    (hdial : ∀ ctx addr seed rng, P (Context.dialled ctx addr seed rng).sock)
    (haccept : ∀ ctx buf addr, P (Context.accepting ctx buf addr).sock)
    {ctx : Context} (h : Reachable ctx) : EverySock P ctx := by
  induction h with
  | new clock rng transport fpu users =>
      intro k s hs
      exact nomatch (Finmap.lookup_empty k).symm.trans hs
  | step op _ hstep ih =>
      exact Steps.invariant (P := EverySock P)
        (fun _ _ _ ha => EngineAct.everySock hact hdial haccept ha) (path_step hstep) ih

/-! ## The history of every socket

    A cell is allocated for every new socket and never again, so it tells the
    sockets that use one key after another apart. -/

/-- Every socket of `ctx'` is new or was there in `ctx`, in a state that `R`
    relates to its present one. -/
def Traces (R : UtpSock → UtpSock → Prop) (ctx ctx' : Context) : Prop :=
  ctx.nextUser ≤ ctx'.nextUser ∧
    ∀ key s', ctx'.sockets.lookup key = some s' →
      (ctx.nextUser ≤ s'.user ∧ s'.user < ctx'.nextUser)
      ∨ ∃ s, ctx.sockets.lookup key = some s ∧ s.user = s'.user ∧ R s s'

theorem Traces.refl {R : UtpSock → UtpSock → Prop} (hR : ∀ s, R s s) (ctx : Context) :
    Traces R ctx ctx :=
  ⟨Nat.le_refl _, fun _ s' hs => .inr ⟨s', hs, rfl, hR s'⟩⟩

theorem Traces.trans {R : UtpSock → UtpSock → Prop}
    (hR : ∀ s₁ s₂ s₃, R s₁ s₂ → R s₂ s₃ → R s₁ s₃) {ctx₁ ctx₂ ctx₃ : Context}
    (h : Traces R ctx₁ ctx₂) (h' : Traces R ctx₂ ctx₃) : Traces R ctx₁ ctx₃ := by
  refine ⟨h.1.trans h'.1, fun key s₃ hs₃ => ?_⟩
  rcases h'.2 key s₃ hs₃ with hnew | ⟨s₂, hs₂, hu₂, hR₂⟩
  · exact .inl ⟨h.1.trans hnew.1, hnew.2⟩
  · rcases h.2 key s₂ hs₂ with hnew | ⟨s₁, hs₁, hu₁, hR₁⟩
    · rw [hu₂] at hnew
      exact .inl ⟨hnew.1, Nat.lt_of_lt_of_le hnew.2 h'.1⟩
    · exact .inr ⟨s₁, hs₁, hu₁.trans hu₂, hR _ _ _ hR₁ hR₂⟩

/-- Answering an unknown connection allocates nothing. -/
theorem rejectUnknown_nextUser (ctx : Context) (addr : SocketAddr) (id : UInt32)
    (seqNr : UInt16) : (ctx.rejectUnknown addr id seqNr).nextUser = ctx.nextUser := by
  unfold Context.rejectUnknown
  dsimp only
  split
  · rfl
  · split <;> rfl

theorem destroySock_nextUser (m : Detached) :
    (Context.destroySock m).nextUser = m.ctx.nextUser :=
  congrArg Surroundings.nextUser (surroundings_ackListRemove (m.notify (·.onDestroying)))

/-- A dial uses the next free cell. -/
theorem dialled_user (ctx : Context) (addr : SocketAddr) (seed : UInt32) (rng : Rng) :
    (ctx.dialled addr seed rng).sock.user = ctx.nextUser
      ∧ (ctx.dialled addr seed rng).ctx.nextUser = ctx.nextUser + 1 := ⟨rfl, rfl⟩

/-- Accepting uses the next free cell. -/
theorem accepting_user (ctx : Context) (buf : Bytes) (addr : SocketAddr) :
    (ctx.accepting buf addr).sock.user = ctx.nextUser
      ∧ (ctx.accepting buf addr).ctx.nextUser = ctx.nextUser + 1 := ⟨rfl, rfl⟩

/-- A socket that is new in the table. -/
theorem traces_new {R : UtpSock → UtpSock → Prop} (hR : ∀ s, R s s) {ctx : Context} {key : Key}
    {m : Detached} (hsocks : m.ctx.sockets = ctx.sockets) (huser : m.sock.user = ctx.nextUser)
    (hnext : m.ctx.nextUser = ctx.nextUser + 1) : Traces R ctx (Context.attach key m) := by
  refine ⟨(Nat.le_succ _).trans (Nat.le_of_eq hnext.symm), fun k s' hs' => ?_⟩
  rw [lookup_attach] at hs'
  split at hs'
  · obtain rfl := Option.some.inj hs'
    refine .inl ⟨Nat.le_of_eq huser.symm, ?_⟩
    rw [huser]
    exact Nat.lt_of_lt_of_eq (Nat.lt_succ_self _) hnext.symm
  · rw [hsocks] at hs'
    exact .inr ⟨s', hs', rfl, hR s'⟩

/-- One act of the engine, if every act of a socket keeps to `R`. -/
theorem EngineAct.traces {R : UtpSock → UtpSock → Prop} (hR : ∀ s, R s s)
    (hact : ∀ l m m', Act occ l m m' → R m.sock m'.sock) {l : Bytes} {ctx ctx' : Context}
    (h : EngineAct occ l ctx ctx') : Traces R ctx ctx' := by
  cases h with
  | @sock key _ m m' hout hstep =>
      have hsocks := congrArg Surroundings.sockets hstep.surroundings_eq
      have hnext := congrArg Surroundings.nextUser hstep.surroundings_eq
      refine ⟨Nat.le_of_eq hnext.symm, fun k s' hs' => .inr ?_⟩
      rw [lookup_attach] at hs'
      split at hs'
      · rename_i hk
        obtain rfl := Option.some.inj hs'
        exact ⟨m.sock, by rw [lookup_attach, if_pos hk],
          (congrArg Ident.user hstep.ident_eq).symm, hact _ _ _ hstep⟩
      · rename_i hk
        refine ⟨s', ?_, rfl, hR s'⟩
        rw [lookup_attach, if_neg hk]
        exact (congrArg (Finmap.lookup k) hsocks).symm.trans hs'
  | dial _ addr seed rng _ _ =>
      exact traces_new hR (dialled_sockets ctx addr seed rng) (dialled_user ctx addr seed rng).1
        (dialled_user ctx addr seed rng).2
  | accept _ buf addr _ _ _ =>
      exact traces_new hR (accepting_sockets ctx buf addr) (accepting_user ctx buf addr).1
        (accepting_user ctx buf addr).2
  | remove key m htear hout =>
      refine ⟨Nat.le_of_eq (destroySock_nextUser m).symm, fun k s' hs' => .inr ?_⟩
      rw [destroySock_sockets] at hs'
      refine ⟨s', ?_, rfl, hR s'⟩
      rw [lookup_attach, if_neg (fun hk => by rw [hk, hout] at hs'; exact nomatch hs')]
      exact hs'
  | reject =>
      refine ⟨Nat.le_of_eq (rejectUnknown_nextUser ..).symm, fun k s' hs' => .inr ?_⟩
      rw [rejectUnknown_sockets] at hs'
      exact ⟨s', hs', rfl, hR s'⟩
  | settings => exact ⟨Nat.le_refl _, fun _ s' hs' => .inr ⟨s', hs', rfl, hR s'⟩⟩
  | takeAcks => exact Traces.refl hR _
  | consume => exact ⟨Nat.le_refl _, fun _ s' hs' => .inr ⟨s', hs', rfl, hR s'⟩⟩
  | markClosed => exact ⟨Nat.le_refl _, fun _ s' hs' => .inr ⟨s', hs', rfl, hR s'⟩⟩

/-- **THE HISTORY RULE FOR SOCKETS**: a reflexive and transitive relation that
    every act respects relates every socket to its earlier states. -/
theorem EnginePath.traces {R : UtpSock → UtpSock → Prop} (hR : ∀ s, R s s)
    (htrans : ∀ s₁ s₂ s₃, R s₁ s₂ → R s₂ s₃ → R s₁ s₃)
    (hact : ∀ l m m', Act occ l m m' → R m.sock m'.sock) {l : Bytes} {ctx ctx' : Context}
    (h : EnginePath occ l ctx ctx') : Traces R ctx ctx' :=
  Steps.lift (S := Traces R) (Traces.refl hR) (fun _ _ _ => Traces.trans htrans)
    (fun _ _ _ ha => EngineAct.traces hR hact ha) h

/-- No socket is lost. -/
def Keeps (ctx ctx' : Context) : Prop :=
  ∀ key s, ctx.sockets.lookup key = some s →
    ∃ s', ctx'.sockets.lookup key = some s' ∧ s'.user = s.user

/-- An act that does not tear down keeps every socket listed. -/
theorem EngineAct.keeps (htear : occ.tearing = false) {l : Bytes} {ctx ctx' : Context}
    (h : EngineAct occ l ctx ctx') : Keeps ctx ctx' := by
  intro k s hs
  cases h with
  | @sock key _ m m' hout hstep =>
      have hsocks := congrArg Surroundings.sockets hstep.surroundings_eq
      rw [lookup_attach] at hs
      rw [lookup_attach]
      split at hs
      · rename_i hk
        obtain rfl := Option.some.inj hs
        exact ⟨m'.sock, if_pos hk, congrArg Ident.user hstep.ident_eq⟩
      · rename_i hk
        exact ⟨s, by rw [if_neg hk]; exact (congrArg (Finmap.lookup k) hsocks).trans hs, rfl⟩
  | dial _ addr seed rng _ hfree =>
      refine ⟨s, ?_, rfl⟩
      rw [lookup_attach, if_neg (fun hk => by rw [hk, hfree] at hs; exact nomatch hs),
        dialled_sockets, hs]
  | accept _ buf addr _ _ hfree =>
      refine ⟨s, ?_, rfl⟩
      rw [lookup_attach, if_neg (fun hk => by rw [hk, hfree] at hs; exact nomatch hs),
        accepting_sockets, hs]
  | remove _ _ h => exact absurd h (by rw [htear]; exact Bool.false_ne_true)
  | reject => exact ⟨s, by rw [rejectUnknown_sockets]; exact hs, rfl⟩
  | settings => exact ⟨s, hs, rfl⟩
  | takeAcks => exact ⟨s, hs, rfl⟩
  | consume => exact ⟨s, hs, rfl⟩
  | markClosed => exact ⟨s, hs, rfl⟩

theorem EnginePath.keeps (htear : occ.tearing = false) {l : Bytes} {ctx ctx' : Context}
    (h : EnginePath occ l ctx ctx') : Keeps ctx ctx' := by
  refine Steps.lift (S := Keeps) (fun _ _ s hs => ⟨s, hs, rfl⟩) (fun _ _ _ h h' k s hs => ?_)
    (fun _ _ _ ha => EngineAct.keeps htear ha) h
  obtain ⟨s₁, hs₁, hu₁⟩ := h k s hs
  obtain ⟨s₂, hs₂, hu₂⟩ := h' k s₁ hs₁
  exact ⟨s₂, hs₂, hu₂.trans hu₁⟩

/-- The cells of all sockets have been allocated. -/
theorem reachable_users {ctx : Context} (h : Reachable ctx) :
    ∀ key s, ctx.sockets.lookup key = some s → s.user < ctx.nextUser := by
  induction h with
  | new clock rng transport fpu users =>
      intro k s hs
      exact nomatch (Finmap.lookup_empty k).symm.trans hs
  | step op _ hstep ih =>
      refine Steps.invariant
        (P := fun ctx : Context => ∀ key s, ctx.sockets.lookup key = some s →
          s.user < ctx.nextUser) (fun _ a b ha hP key s hs => ?_) (path_step hstep) ih
      have htr := EngineAct.traces (R := fun _ _ => True) (fun _ => trivial)
        (fun _ _ _ _ => trivial) ha
      rcases htr.2 key s hs with hnew | ⟨s₀, hs₀, hu, -⟩
      · exact hnew.2
      · rw [← hu]
        exact Nat.lt_of_lt_of_le (hP key s₀ hs₀) htr.1

/-! ## Runs that avoid something -/

/-- Operations one after another, none of which is bad in the state it meets. -/
abbrev RunAvoiding (bad : Context → Op → Prop) : Context → Context → Prop :=
  AvoidingRun Context.step bad

/-- A run that avoids something starts and ends in reachable states. -/
theorem RunAvoiding.reachable {bad : Context → Op → Prop} {ctx ctx' : Context}
    (h : RunAvoiding bad ctx ctx') : Reachable ctx → Reachable ctx' :=
  AvoidingRun.invariant (fun _ op _ _ hstep hr => hr.step op hstep) h

/-- Cells are allocated and never given back. -/
theorem step_nextUser {ctx ctx' : Context} {op : Op} (h : ctx.step op = some ctx') :
    ctx.nextUser ≤ ctx'.nextUser :=
  (EnginePath.traces (R := fun _ _ => True) (fun _ => trivial) (fun _ _ _ _ _ => trivial)
    (fun _ _ _ _ => trivial) (path_step h)).1

/-! ## A concrete engine -/

/-- A controller that leaves the window where it is. -/
def idleFpu : Fpu where
  ledbatCwnd := fun maxWindow _ _ _ _ => maxWindow
  ssCwnd := fun maxWindow _ _ => maxWindow
  nearTarget := fun _ _ => true

/-- A fresh engine over a transport that never fails, with the given state of
    its generator. -/
def freshEngine (state : UInt64) : Context :=
  Context.new ⟨0⟩ ⟨state⟩ (fun _ => none) idleFpu (fun _ => ConnCell.new (.v4 0 0))

/-- The address of its peer. -/
def peerAddr : SocketAddr := .v4 0x7f000001 4000

/-- The key of the first connection that `freshEngine 0` dials. -/
def firstKey : Key := ⟨peerAddr, 0xcdaf⟩

/-- A list of operations leads from reachable states to reachable ones. -/
theorem reachable_run (ops : List Op) :
    ∀ {ctx ctx' : Context}, Reachable ctx → ctx.run ops = some ctx' → Reachable ctx' := by
  induction ops with
  | nil =>
      intro ctx ctx' h hrun
      obtain rfl := Option.some.inj hrun
      exact h
  | cons op rest ih =>
      intro ctx ctx' h hrun
      obtain ⟨ctx₁, hstep, hrest⟩ := Option.bind_eq_some_iff.mp hrun
      exact ih (h.step op hstep) hrest

/-- The socket under `key` after a run of a fresh engine. -/
def sockAfter (state : UInt64) (ops : List Op) (key : Key) : Option UtpSock :=
  ((freshEngine state).run ops).bind (fun ctx => ctx.sockets.lookup key)

/-- What an evaluated run says about its socket. -/
theorem sockAfter_spec {state : UInt64} {ops : List Op} {key : Key} {s : UtpSock}
    (h : sockAfter state ops key = some s) :
    ∃ ctx, (freshEngine state).run ops = some ctx ∧ Reachable ctx
      ∧ ctx.sockets.lookup key = some s := by
  obtain ⟨ctx, hrun, hs⟩ := Option.bind_eq_some_iff.mp h
  exact ⟨ctx, hrun, reachable_run ops (.new _ _ _ _ _) hrun, hs⟩

/-- A datagram without extensions. -/
def datagram (kind : UInt8) (id seq ack : UInt16) (payload : Bytes) : Bytes :=
  setAckNr (setSeqNr (setConnId (setVersionType (List.replicate headerSize 0) 1 kind) id) seq) ack
    ++ payload

/-- The datagram arrives from the peer, past a firewall that blocks nothing. -/
def arrives (buf : Bytes) : Op := .processUdp buf peerAddr (fun _ => false)

/-- The run in which `freshEngine 0` accepts a connection with wire id 1000 whose
    SYN has number 1, and takes the first data packet. -/
def acceptOps : List Op :=
  [arrives (datagram stSyn 1000 1 0 []), arrives (datagram stData 1001 2 52654 [7])]

/-- The key of the connection it accepts. -/
def acceptedKey : Key := ⟨peerAddr, 1001⟩

/-- The socket under `key` after a run, taken out of the table. -/
def detachedAfter (state : UInt64) (ops : List Op) (key : Key) : Option Detached :=
  ((freshEngine state).run ops).bind (fun ctx => (ctx.sockets.lookup key).map (ctx.detach key))

/-- The same, with the engine around it. -/
theorem detachedAfter_spec {state : UInt64} {ops : List Op} {key : Key} {m : Detached}
    (h : detachedAfter state ops key = some m) :
    ∃ ctx s, Reachable ctx ∧ ctx.sockets.lookup key = some s ∧ m = ctx.detach key s := by
  obtain ⟨ctx, hrun, hm⟩ := Option.bind_eq_some_iff.mp h
  obtain ⟨s, hs, rfl⟩ := Option.map_eq_some_iff.mp hm
  exact ⟨ctx, s, reachable_run ops (.new _ _ _ _ _) hrun, hs, rfl⟩

/-- A property that evaluation finds of the detached socket. -/
theorem detachedAfter_of (state : UInt64) (ops : List Op) (key : Key) {Q : Detached → Prop}
    [DecidablePred Q]
    (h : (detachedAfter state ops key).map (fun m => decide (Q m)) = some true) :
    ∃ ctx s, Reachable ctx ∧ ctx.sockets.lookup key = some s ∧ Q (ctx.detach key s) := by
  obtain ⟨m, hm, hq⟩ := Option.map_eq_some_iff.mp h
  obtain ⟨ctx, s, hreach, hs, rfl⟩ := detachedAfter_spec hm
  exact ⟨ctx, s, hreach, hs, of_decide_eq_true hq⟩

/-- A property that evaluation finds of the detached socket after a run whose
    steps pass a check. -/
theorem checkedAfter_of {bad : Context → Op → Prop} {ok : Context → Op → Bool}
    (hok : ∀ ctx op, ok ctx op = true → ¬ bad ctx op) (state : UInt64) (ops : List Op) (key : Key)
    {Q : Detached → Prop} [DecidablePred Q]
    (h : ((runChecked Context.step ok (freshEngine state) ops).bind
        (fun ctx => (ctx.sockets.lookup key).map (ctx.detach key))).map (fun m => decide (Q m))
      = some true) :
    ∃ ctx s, RunAvoiding bad (freshEngine state) ctx ∧ ctx.sockets.lookup key = some s
      ∧ Q (ctx.detach key s) := by
  obtain ⟨m, hm, hq⟩ := Option.map_eq_some_iff.mp h
  obtain ⟨ctx, hrun, hm⟩ := Option.bind_eq_some_iff.mp hm
  obtain ⟨s, hs, rfl⟩ := Option.map_eq_some_iff.mp hm
  exact ⟨ctx, s, AvoidingRun.checked hok ops (.refl _) hrun, hs, of_decide_eq_true hq⟩

end UtpActs
