import RustUtp.Engine.Context

/-! # The socket — engine, backlog and handles under one mutex

    `Inner` is what the mutex guards.  Every function below is one critical
    section: the reader thread with a datagram or a timeout, and one round of
    each call of the application, which either returns or goes back to waiting
    on a condition variable. -/

namespace UtpSocket

open UtpPacket UtpUtil UtpConnShared UtpEngine

/-- Pending incoming connections held before `accept` collects them. -/
def backlogLimit : Nat := 5
/-- Buffered non-uTP datagrams. -/
def nonUtpBacklog : Nat := 100

/-- A `Conn`: the key of its engine socket and the cell it shares with it. -/
structure Conn where
  key : Key
  user : UserId
  deriving DecidableEq

structure Inner where
  ctx : Context
  backlog : List Conn
  nonUtp : List (Bytes × SocketAddr)
  closed : Bool

namespace Inner

/-- `Socket::with_transport` -/
def new (clock : Clock) (rng : Rng) (transport : Nat → Option ErrorKind) (fpu : Fpu)
    (users : UserId → ConnCell) : Inner where
  ctx := Context.new clock rng transport fpu users
  backlog := []
  nonUtp := []
  closed := false

/-- The cell of a handle. -/
def cell (g : Inner) (conn : Conn) : ConnCell := g.ctx.users conn.user

/-! ## The reader thread -/

def processDatagram (g : Inner) (buf : Bytes) (addr : SocketAddr)
    (firewall : SocketAddr → Bool) : Inner :=
  let r := g.ctx.processUdp buf addr firewall
  let g : Inner := { g with ctx := r.1 }
  match r.2 with
  | .notUtp =>
      if g.nonUtp.length < nonUtpBacklog then { g with nonUtp := g.nonUtp ++ [(buf, addr)] }
      else g
  | .handled => g
  | .accepted key user =>
      if g.backlog.length ≥ backlogLimit then
        -- No room; close it immediately.
        { g with ctx := (g.ctx.onUser user (fun c => { c with closed := true })).close key }
      else { g with backlog := g.backlog ++ [⟨key, user⟩] }

/-- A datagram has come in: it is processed, deferred acks are flushed and the
    timeouts get a chance to run. -/
def received (g : Inner) (buf : Bytes) (addr : SocketAddr) (firewall : SocketAddr → Bool) :
    Inner :=
  let g := g.processDatagram buf addr firewall
  { g with ctx := g.ctx.issueDeferredAcks }

/-! ## The application's calls -/

/-- `Conn::close_locked` -/
def closeLocked (g : Inner) (conn : Conn) : Inner :=
  { g with ctx := g.ctx.closeConn conn.key conn.user }

inductive ConnectResult where
  | connected
  | failed (kind : ErrorKind)
  | destroyed
  | closed
  | socketClosed
  | timedOut
  /-- nothing to report yet: the caller waits on the condition variable -/
  | wait

/-- One look of `connect_deadline` at the cell of its connection; `late` tells
    that the deadline has passed. -/
def connectRound (g : Inner) (conn : Conn) (late : Bool) : Inner × ConnectResult :=
  match (g.cell conn).error with
  | some kind => (g.closeLocked conn, .failed kind)
  | none =>
      if (g.cell conn).gotConnect then (g, .connected)
      else if (g.cell conn).destroyed then (g, .destroyed)
      else if (g.cell conn).closed then (g, .closed)
      else if g.closed then (g, .socketClosed)
      else if late then (g.closeLocked conn, .timedOut)
      else (g, .wait)

/-- Does `Conn::send` get as far as the engine? -/
def sendAllowed (g : Inner) (conn : Conn) : Bool :=
  (g.cell conn).error.isNone && !(g.cell conn).closed && !(g.cell conn).destroyed

/-- One round of `Conn::send` with a non-empty buffer; `none` means that it
    fails or waits. -/
def send (g : Inner) (conn : Conn) (buf : Bytes) : Inner × Option Nat :=
  if g.sendAllowed conn then
    let r := g.ctx.write conn.key buf
    ({ g with ctx := r.1 }, r.2.filter (· > 0))
  else (g, none)

/-- One round of `Conn::recv` with a buffer of `len` bytes. -/
def recv (g : Inner) (conn : Conn) (len : Nat) : Inner × RecvResult :=
  let r := g.ctx.recv conn.key conn.user len
  ({ g with ctx := r.1 }, r.2)

/-- Dropping a `Conn`. -/
def drop (g : Inner) (conn : Conn) : Inner :=
  if (g.cell conn).closed || (g.cell conn).destroyed then g else g.closeLocked conn

/-- `Socket::connect` up to its first look at the new connection. -/
def connect (g : Inner) (addr : SocketAddr) (fuel : Nat) : Option (Inner × Conn) :=
  if g.closed then none
  else (g.ctx.connect addr fuel).map (fun r => ({ g with ctx := r.1 }, ⟨r.2.1, r.2.2⟩))

inductive AcceptResult where
  | accepted (conn : Conn)
  | socketClosed
  /-- the caller waits on the condition variable -/
  | wait

/-- One round of `Socket::accept`. -/
def accept (g : Inner) : Inner × AcceptResult :=
  match g.backlog with
  | conn :: rest => ({ g with backlog := rest }, .accepted conn)
  | [] => if g.closed then (g, .socketClosed) else (g, .wait)

inductive RecvFromResult where
  | datagram (buf : Bytes) (addr : SocketAddr)
  | socketClosed
  /-- the caller waits on the condition variable -/
  | wait

/-- One round of `Socket::recv_from` with a buffer of `len` bytes. -/
def recvFrom (g : Inner) (len : Nat) : Inner × RecvFromResult :=
  match g.nonUtp with
  | (b, src) :: rest => ({ g with nonUtp := rest }, .datagram (b.take (min b.length len)) src)
  | [] => if g.closed then (g, .socketClosed) else (g, .wait)

/-- `Shared::close`. The keys of the table come in the order `order`. -/
def close (g : Inner) (order : List Key) : Inner :=
  if g.closed then g
  else { ctx := g.ctx.destroyAll order, backlog := [], nonUtp := [], closed := true }

end Inner

/-! ## Runs -/

/-- Everything that can happen under the mutex. -/
inductive Call where
  | elapse (clock : Clock)
  | setSendBufferSize (bytes : Nat)
  | setRecvBufferSize (bytes : Nat)
  | setTargetDelay (micros : Nat)
  | received (buf : Bytes) (addr : SocketAddr) (firewall : SocketAddr → Bool)
      (order : List Key)
  | timeout (order : List Key)
  | connect (addr : SocketAddr) (fuel : Nat)
  | connectRound (conn : Conn) (late : Bool)
  | accept
  | recvFrom (len : Nat)
  | send (conn : Conn) (buf : Bytes)
  | recv (conn : Conn) (len : Nat)
  | closeConn (conn : Conn)
  | drop (conn : Conn)
  | close (order : List Key)

/-- The handle a call is made on. -/
def Call.conn : Call → Option Conn
  | .connectRound conn _ | .send conn _ | .recv conn _ | .closeConn conn | .drop conn =>
      some conn
  | _ => none

/-- One call; `none` when it cannot be made or returns without touching
    anything. The reader thread is gone once the socket is closed. -/
def Inner.step (g : Inner) : Call → Option Inner
  | .elapse clock => some { g with ctx := { g.ctx with clock := clock } }
  | .setSendBufferSize bytes => some { g with ctx := { g.ctx with optSndbuf := bytes } }
  | .setRecvBufferSize bytes => some { g with ctx := { g.ctx with optRcvbuf := bytes } }
  | .setTargetDelay micros => some { g with ctx := { g.ctx with targetDelay := micros } }
  | .received buf addr firewall order =>
      let g₁ := g.received buf addr firewall
      if g.closed = false ∧ g₁.ctx.Enumerates order then
        some { g₁ with ctx := g₁.ctx.checkTimeouts order }
      else none
  | .timeout order =>
      if g.closed = false ∧ g.ctx.Enumerates order then
        some { g with ctx := g.ctx.checkTimeouts order }
      else none
  | .connect addr fuel => (g.connect addr fuel).map (·.1)
  | .connectRound conn late => some (g.connectRound conn late).1
  | .accept => some g.accept.1
  | .recvFrom len => some (g.recvFrom len).1
  | .send conn buf => some (g.send conn buf).1
  | .recv conn len => some (g.recv conn len).1
  | .closeConn conn => some (g.closeLocked conn)
  | .drop conn => some (g.drop conn)
  | .close order => if g.ctx.Enumerates order then some (g.close order) else none

/-- The connections that a call creates, with the keys they were created with. -/
def Inner.creates (g : Inner) : Call → List Conn
  | .received buf addr firewall _ =>
      match (g.ctx.processUdp buf addr firewall).2 with
      | .accepted key user => [⟨key, user⟩]
      | _ => []
  | .connect addr fuel =>
      match g.connect addr fuel with
      | some r => [r.2]
      | none => []
  | _ => []

/-- The states of a socket with all connections created so far. The application
    makes calls on these only. -/
inductive SocketRun : List Conn → Inner → Prop where
  | new (clock : Clock) (rng : Rng) (transport : Nat → Option ErrorKind) (fpu : Fpu)
      (users : UserId → ConnCell) : SocketRun [] (Inner.new clock rng transport fpu users)
  | step {created : List Conn} {g g' : Inner} (call : Call) (h : SocketRun created g)
      (howned : ∀ conn, call.conn = some conn → conn ∈ created)
      (hstep : g.step call = some g') : SocketRun (created ++ g.creates call) g'

end UtpSocket
