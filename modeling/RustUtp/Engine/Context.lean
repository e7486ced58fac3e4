import RustUtp.Engine.Timeouts

/-! # The context — dispatch, connection setup and the table of sockets

    The operations of `Context`, and on top of them the runs of one engine:
    `Op` lists everything that can happen to it and `Reachable` the states that
    any sequence of such events leads to.  A hash map has no order of its own:
    where the source iterates over one, the order is an argument. -/

namespace UtpEngine

open UtpCircular UtpPacket UtpUtil UtpConnShared UtpDelayHist

inductive ProcessUdp where
  /-- not recognized as uTP; hand to the non-uTP path -/
  | notUtp
  | handled
  /-- a new incoming connection was accepted; push it to the backlog -/
  | accepted (key : Key) (user : UserId)
  deriving DecidableEq

namespace Context

/-- A socket taken out of the table. -/
def detach (ctx : Context) (key : Key) (sock : UtpSock) : Detached :=
  { ctx := { ctx with sockets := ctx.sockets.erase key }, sock := sock }

/-- A socket put (back) into the table. -/
def attach (key : Key) (m : Detached) : Context :=
  { m.ctx with sockets := m.ctx.sockets.insert key m.sock }

/-- Detach a socket, run `f` on it, then reinsert it. -/
def withSock (ctx : Context) (key : Key) (f : Detached → Detached) : Context :=
  match ctx.sockets.lookup key with
  | none => ctx
  | some sock => attach key (f (ctx.detach key sock))

/-- Tear down a socket that has left the table; its buffers are dropped. -/
def destroySock (m : Detached) : Context :=
  (m.notify (·.onDestroying)).ackListRemove.ctx

/-- The datagram of `send_rst`. -/
def rstDatagram (connIdSend : UInt32) (ackNr seqNr : UInt16) : Bytes :=
  let b := List.replicate headerSize 0
  let b := setVersionType b 1 stReset
  let b := setConnId b connIdSend.toUInt16
  let b := setAckNr b ackNr
  let b := setSeqNr b seqNr
  setWindowSize b 0

def sendRst (ctx : Context) (addr : SocketAddr) (connIdSend : UInt32)
    (ackNr seqNr : UInt16) : Context :=
  (ctx.sendToAddr none none (rstDatagram connIdSend ackNr seqNr) addr).1

/-! ## New sockets -/

/-- The seed loop of `utp_initialize_socket`: draw until the id is free. The
    source loops without a bound; `none` means that `fuel` draws were not
    enough. -/
def drawSeed (ctx : Context) (addr : SocketAddr) : Nat → Rng → Option (UInt32 × Rng)
  | 0, _ => none
  | fuel + 1, rng =>
      let seed := (rng.nextU32).1 &&& 0xffff
      if (ctx.sockets.lookup { addr := addr, recvId := seed }).isNone then
        some (seed, (rng.nextU32).2)
      else drawSeed ctx addr fuel (rng.nextU32).2

/-- `utp_initialize_socket` once the seed is chosen. -/
def initializeSocket (ctx : Context) (sock : UtpSock) (addr : SocketAddr)
    (seed recv send : UInt32) : Detached :=
  let now : Nat := ctx.clock.millis
  let ctx : Context := { ctx with currentMs := now }
  let sock : UtpSock :=
    { sock with
      state := .idle
      connSeed := seed
      connIdRecv := recv
      connIdSend := send
      key := { addr := addr, recvId := recv }
      timers :=
        { sock.timers with
          lastGotPacket := now
          lastSentPacket := now
          rttHist := DelayHist.new now }
      delay :=
        { sock.delay with
          lastMeasuredDelay := now + 0x70000000
          averageSampleTime := now + 5000
          ourHist := DelayHist.new now
          theirHist := DelayHist.new now }
      cwnd := { sock.cwnd with lastRwinDecay := (now : Int) - maxWindowDecay } }
  -- initialize MTU floor and ceiling
  let sock := sock.mtuReset ctx.clock.millis
  let sock := { sock with mtu := { sock.mtu with last := sock.mtu.ceiling } }
  -- we need to fit one packet in the window when we start the connection
  { ctx := ctx
    sock := { sock with cwnd := { sock.cwnd with maxWindow := sock.getPacketSize } } }

/-- The SYN packet. SYN packets are special and have the receive ID in the
    connid field, instead of conn_id_send. -/
def synPacket (sock : UtpSock) : OutgoingPacket where
  payload := 0
  timeSent := 0
  transmissions := 0
  needResend := false
  data :=
    let b := List.replicate headerSize 0
    let b := setVersionType b 1 stSyn
    let b := setConnId b sock.connIdRecv.toUInt16
    let b := setWindowSize b (UInt32.ofNat sock.lastRcvWin)
    setSeqNr b sock.seqNr
  -- a new connection has received nothing yet
  unread := 0

/-- The dialling socket just before its SYN is sent: timer armed, random
    initial sequence number, the SYN in the queue. -/
def dialSocket (m : Detached) : Detached :=
  let ctx : Context :=
    { m.ctx with currentMs := m.ctx.clock.millis, rng := (m.ctx.rng.nextU32).2 }
  let sock : UtpSock :=
    { m.sock with
      state := .synSent
      timers :=
        { m.sock.timers with
          retransmitTimeout := 3000
          rtoTimeout := ctx.currentMs + 3000 }
      lastRcvWin := m.getRcvWindow
      seqNr := (m.ctx.rng.nextU32).1.toUInt16 }
  let sock :=
    { sock with
      outbuf := (sock.outbuf.ensureSize sock.seqNr.toNat sock.curWindowPackets).put
        sock.seqNr.toNat (some (synPacket sock))
      seqNr := sock.seqNr + 1
      curWindowPackets := sock.curWindowPackets + 1 }
  { ctx := ctx, sock := sock }

/-- A dialling socket with seed `seed`: ids `seed` to receive and `seed + 1` to
    send. -/
def dialled (ctx : Context) (addr : SocketAddr) (seed : UInt32) (rng : Rng) : Detached :=
  let alloc := ctx.allocUser addr
  let sock := UtpSock.new alloc.2 addr alloc.1
  dialSocket (({ alloc.2 with rng := rng }).initializeSocket sock addr seed (0 + seed) (1 + seed))

/-- utp_create_socket + utp_connect fused. -/
def connect (ctx : Context) (addr : SocketAddr) (fuel : Nat) :
    Option (Context × Key × UserId) :=
  match ctx.drawSeed addr fuel ctx.rng with
  | none => none
  | some (seed, rng) =>
      let m := ctx.dialled addr seed rng
      let m := m.sendPacketAt (m.sock.seqNr - 1)
      some (attach m.sock.key m, m.sock.key, m.sock.user)

/-! ## Incoming datagrams -/

/-- The socket an RST with id `id` from `addr` is meant for: id is either our
    recv id or our send id, and we have to check every case. -/
def rstTarget (ctx : Context) (addr : SocketAddr) (id : UInt32) : Option Key :=
  let k0 : Key := { addr := addr, recvId := id }
  let k1 : Key := { addr := addr, recvId := id + 1 }
  let k2 : Key := { addr := addr, recvId := id - 1 }
  let sendsOn (k : Key) : Bool := match ctx.sockets.lookup k with
    | some s => s.connIdSend = id
    | none => false
  if (ctx.sockets.lookup k0).isSome then some k0
  else if sendsOn k1 then some k1
  else if sendsOn k2 then some k2
  else none

/-- What an RST does to the socket it hits. -/
def resetSock (m : Detached) : Detached :=
  ({ m with
      sock :=
        { m.sock with
          state := if m.sock.closeRequested then .destroy else .reset } }).notify
    (·.onError .connectionReset)

/-- Reject a packet without a socket, replying with an RST (at most once per
    stream). -/
def rejectUnknown (ctx : Context) (addr : SocketAddr) (id : UInt32) (seqNr : UInt16) :
    Context :=
  let ctx : Context := { ctx with currentMs := ctx.clock.millis }
  let hit (r : RstInfo) : Bool := r.connid = id && r.addr = addr && r.ackNr = seqNr
  match ctx.rstInfo.findIdx? hit with
  | some i =>
      { ctx with
        rstInfo := ctx.rstInfo.modify i (fun r => { r with timestamp := ctx.currentMs }) }
  | none =>
      if ctx.rstInfo.length > rstInfoLimit then ctx
      else
        let ctx : Context :=
          { ctx with
            rstInfo := ctx.rstInfo ++
              [{ addr := addr, connid := id, ackNr := seqNr, timestamp := ctx.currentMs }] }
        let draw := ctx.rng.nextU32
        ({ ctx with rng := draw.2 }).sendRst addr id seqNr draw.1.toUInt16

/-- The socket for a SYN: the id on the wire is the one to send on, the next one
    is the one to receive on. -/
def accepting (ctx : Context) (buf : Bytes) (addr : SocketAddr) : Detached :=
  let id : UInt32 := (connId buf).toUInt32
  let alloc := ctx.allocUser addr
  let sock := UtpSock.new alloc.2 addr alloc.1
  let m := alloc.2.initializeSocket sock addr id (id + 1) id
  let draw := m.ctx.rng.nextU32
  { ctx := { m.ctx with rng := draw.2 }
    sock :=
      { m.sock with
        ackNr := seqNr buf
        seqNr := draw.1.toUInt16
        resend := { m.sock.resend with fastResendSeqNr := draw.1.toUInt16 }
        state := .synRecv } }

/-- The socket for a SYN, answered with a syn-ack. -/
def acceptSyn (ctx : Context) (buf : Bytes) (addr : SocketAddr) : Detached :=
  ((ctx.accepting buf addr).processIncoming buf true).1.sendAck true

/-- `utp_process_udp`. Returns whether the datagram was recognized as uTP, and
    surfaces accepted connections to the caller. -/
def processUdp (ctx : Context) (buf : Bytes) (addr : SocketAddr)
    (firewall : SocketAddr → Bool) : Context × ProcessUdp :=
  if buf.length < headerSize then (ctx, .notUtp)
  else if addr.port = 0 then (ctx, .notUtp)
  else if wireVersion buf ≠ 1 then (ctx, .notUtp)
  else
    let id : UInt32 := (connId buf).toUInt32
    let flags := packetType buf
    if flags = stReset then
      match ctx.rstTarget addr id with
      | some key => (ctx.withSock key resetSock, .handled)
      | none => (ctx, .handled)
    else if flags ≠ stSyn ∧ (ctx.sockets.lookup { addr := addr, recvId := id }).isSome then
      (ctx.withSock { addr := addr, recvId := id } (fun m => (m.processIncoming buf false).1),
        .handled)
    else if flags ≠ stSyn then (ctx.rejectUnknown addr id (seqNr buf), .handled)
    -- Incoming connection (ST_SYN): does it already exist?
    else if (ctx.sockets.lookup { addr := addr, recvId := id + 1 }).isSome then (ctx, .handled)
    else if ctx.sockets.keys.card > 3000 then (ctx, .handled)
    -- true means yes, block connection. false means no, don't block.
    else if firewall addr then (ctx, .handled)
    else
      let m := ctx.acceptSyn buf addr
      (attach m.sock.key m, .accepted m.sock.key m.sock.user)

/-! ## Deferred acks and timers -/

/-- One entry of the ack list. -/
def issueAck (ctx : Context) (key : Key) : Context :=
  ctx.withSock key
    (fun m => ({ m with sock := { m.sock with inAckList := false } }).sendAck false)

def issueDeferredAcks (ctx : Context) : Context :=
  ctx.ackList.foldl issueAck { ctx with ackList := [] }

/-- The purge loop over `rst_info`: `swap_remove` puts the last entry into the
    hole and looks at the same index again. The counter is the number of
    entries not looked at yet. -/
def purgeRst (now : Nat) : Nat → Nat → List RstInfo → List RstInfo
  | 0, _, l => l
  | n + 1, i, l =>
      match l[i]? with
      | none => l
      | some r =>
          if asI32 (msSub now r.timestamp) ≥ rstInfoTimeout then
            purgeRst now n i ((l.set i (l.getLastD r)).dropLast)
          else purgeRst now n (i + 1) l

/-- One socket's share of `utp_check_timeouts`: run its timers, then destroy
    it or put it back. -/
def checkSock (ctx : Context) (key : Key) : Context :=
  match ctx.sockets.lookup key with
  | none => ctx
  | some sock =>
      let m := (ctx.detach key sock).checkTimeouts
      if m.sock.state = .destroy then destroySock m else attach key m

/-- Is a `check_timeouts` at the current clock reading rate-limited? -/
def rateLimited (ctx : Context) : Bool :=
  msSub ctx.clock.millis ctx.lastCheck < timeoutCheckInterval

/-- `utp_check_timeouts`, internally rate limited to every 500ms. The keys of
    the table come in the order `order`. -/
def checkTimeouts (ctx : Context) (order : List Key) : Context :=
  let limited := ctx.rateLimited
  let ctx : Context := { ctx with currentMs := ctx.clock.millis }
  if limited then ctx
  else
    let ctx : Context :=
      { ctx with
        lastCheck := ctx.currentMs
        rstInfo := purgeRst ctx.currentMs ctx.rstInfo.length 0 ctx.rstInfo }
    order.foldl checkSock ctx

/-! ## The application's calls -/

/-- utp_writev on the socket identified by `key`. Returns `none` if the engine
    socket no longer exists. -/
def write (ctx : Context) (key : Key) (buf : Bytes) : Context × Option Nat :=
  match ctx.sockets.lookup key with
  | none => (ctx, none)
  | some sock =>
      let r := (ctx.detach key sock).writeEngine buf
      (attach key r.1, some r.2)

def readDrained (ctx : Context) (key : Key) : Context := ctx.withSock key (·.readDrained)

def close (ctx : Context) (key : Key) : Context := ctx.withSock key (·.closeEngine)

/-- One socket of `utp_destroy`. -/
def destroyOne (ctx : Context) (key : Key) : Context :=
  match ctx.sockets.lookup key with
  | none => ctx
  | some sock => destroySock (ctx.detach key sock)

/-- utp_destroy: tear down every socket immediately. The keys of the table come
    in the order `order`. -/
def destroyAll (ctx : Context) (order : List Key) : Context :=
  { order.foldl destroyOne ctx with ackList := [] }

end Context

/-! ## The connection handle's reads and closes -/

inductive RecvResult where
  | data (bytes : Bytes)
  | eof
  | error (kind : ErrorKind)
  | destroyed
  | closed
  /-- nothing to report yet: the caller waits on the condition variable -/
  | wait
  deriving DecidableEq

/-- What one look of `Conn::recv` at its cell finds; order matters. -/
def ConnCell.look (c : ConnCell) (len : Nat) : RecvResult :=
  if c.readBuf ≠ [] then .data (c.readBuf.take len)
  else if c.gotEof then .eof
  else match c.error with
    | some kind => .error kind
    | none => if c.destroyed then .destroyed else if c.closed then .closed else .wait

namespace Context

/-- The reader of a cell takes up to `len` bytes out of its buffer. -/
def consume (ctx : Context) (user : UserId) (len : Nat) : Context :=
  ctx.onUser user (fun c => { c with readBuf := c.readBuf.drop len })

/-- One round of `Conn::recv` with a non-empty buffer of `len` bytes. A read
    that empties the buffer reopens the receive window and lets the engine ack
    it. -/
def recv (ctx : Context) (key : Key) (user : UserId) (len : Nat) : Context × RecvResult :=
  let result := ConnCell.look (ctx.users user) len
  match result with
  | .data _ =>
      let ctx := ctx.consume user len
      if (ctx.users user).readBuf = [] ∧ (ctx.users user).destroyed = false then
        ((ctx.readDrained key).issueDeferredAcks, result)
      else (ctx, result)
  | _ => (ctx, result)

/-- `Conn::close`, also performed when the handle is dropped. -/
def closeConn (ctx : Context) (key : Key) (user : UserId) : Context :=
  let needEngineClose : Bool :=
    !(ctx.users user).destroyed && !(ctx.users user).closed
  let ctx := ctx.onUser user (fun c => { c with closed := true })
  if needEngineClose then ctx.close key else ctx

end Context

/-! ## Runs -/

/-- Everything that can happen to an engine. -/
inductive Op where
  /-- the clock shows another reading -/
  | elapse (clock : Clock)
  | setSendBufferSize (bytes : Nat)
  | setRecvBufferSize (bytes : Nat)
  | setTargetDelay (micros : Nat)
  | connect (addr : SocketAddr) (fuel : Nat)
  | processUdp (buf : Bytes) (addr : SocketAddr) (firewall : SocketAddr → Bool)
  | issueDeferredAcks
  | checkTimeouts (order : List Key)
  | write (key : Key) (buf : Bytes)
  | readDrained (key : Key)
  | close (key : Key)
  | recv (key : Key) (user : UserId) (len : Nat)
  | closeConn (key : Key) (user : UserId)
  | destroyAll (order : List Key)

/-- `order` lists the keys of the table, each once. -/
def Context.Enumerates (ctx : Context) (order : List Key) : Prop :=
  order.Nodup ∧ order.toFinset = ctx.sockets.keys

instance (ctx : Context) (order : List Key) : Decidable (ctx.Enumerates order) :=
  inferInstanceAs (Decidable (_ ∧ _))

/-- One operation; `none` when it is not one the engine can perform: a seed
    search that ran out of draws, or an order that is not one of the table. -/
def Context.step (ctx : Context) : Op → Option Context
  | .elapse clock => some { ctx with clock := clock }
  | .setSendBufferSize bytes => some { ctx with optSndbuf := bytes }
  | .setRecvBufferSize bytes => some { ctx with optRcvbuf := bytes }
  | .setTargetDelay micros => some { ctx with targetDelay := micros }
  | .connect addr fuel => (ctx.connect addr fuel).map (·.1)
  | .processUdp buf addr firewall => some (ctx.processUdp buf addr firewall).1
  | .issueDeferredAcks => some ctx.issueDeferredAcks
  | .checkTimeouts order => if ctx.Enumerates order then some (ctx.checkTimeouts order) else none
  | .write key buf => some (ctx.write key buf).1
  | .readDrained key => some (ctx.readDrained key)
  | .close key => some (ctx.close key)
  | .recv key user len => some (ctx.recv key user len).1
  | .closeConn key user => some (ctx.closeConn key user)
  | .destroyAll order => if ctx.Enumerates order then some (ctx.destroyAll order) else none

/-- A sequence of operations. -/
def Context.run (ctx : Context) : List Op → Option Context
  | [] => some ctx
  | op :: rest => (ctx.step op).bind (·.run rest)

/-- The states any run leads to. -/
inductive Reachable : Context → Prop where
  | new (clock : Clock) (rng : Rng) (transport : Nat → Option ErrorKind) (fpu : Fpu)
      (users : UserId → ConnCell) : Reachable (Context.new clock rng transport fpu users)
  | step {ctx ctx' : Context} (op : Op) (h : Reachable ctx)
      (hstep : ctx.step op = some ctx') : Reachable ctx'

end UtpEngine
