import RustUtp.Acts.Boundary
import RustUtp.Engine.Socket

/-! # Handles and the engine agree

    Every connection has a cell that its handle and its engine socket share.
    As long as the cell does not say that the socket is gone, the socket is in
    the table under the key of the handle; once it says so, no socket has the
    cell any more.  Keys are drawn anew and used again, so this is what keeps a
    handle from reaching the connection of another. -/

namespace UtpHandles

open UtpCircular UtpPacket UtpUtil UtpConnShared UtpEngine UtpEngine.Detached UtpActs UtpSocket
  LabelledPath

/-! ## Cells that are not told anything

    A part of the cell that no callback but `on_destroying` touches, no act of
    a socket touches. -/

/-- The callbacks of a living socket leave `φ` alone. -/
structure Deaf {β : Type} (φ : ConnCell → β) : Prop where
  onRead : ∀ c data, φ (c.onRead data) = φ c
  onWritable : ∀ c, φ c.onWritable = φ c
  onConnect : ∀ c, φ c.onConnect = φ c
  onEof : ∀ c, φ c.onEof = φ c
  onError : ∀ c kind, φ (c.onError kind) = φ c

/-- What `φ` reads of every cell. -/
def readings {β : Type} (φ : ConnCell → β) (ctx : Context) : UserId → β :=
  fun u => φ (ctx.users u)

section Readings

variable {β : Type} {φ : ConnCell → β}

/-- A reading that `f` leaves is the same everywhere. -/
theorem readings_onUser (ctx : Context) (user : UserId) {f : ConnCell → ConnCell}
    (hf : ∀ c, φ (f c) = φ c) : readings φ (ctx.onUser user f) = readings φ ctx := by
  funext u
  show φ (Function.update ctx.users user (f (ctx.users user)) u) = φ (ctx.users u)
  by_cases hu : u = user
  · rw [hu, Function.update_self]
    exact hf _
  · rw [Function.update_of_ne hu]

/-- Leaving the ack list tells no cell. -/
theorem readings_ackListRemove (m : Detached) :
    readings φ m.ackListRemove.ctx = readings φ m.ctx := by
  unfold ackListRemove
  split <;> rfl

/-- Sending tells at most of a failure, which a deaf reading does not hear. -/
theorem readings_sendData (hφ : Deaf φ) (m : Detached) (written : Nat) (buf : Bytes) :
    readings φ (m.sendData written buf).ctx = readings φ m.ctx := by
  unfold sendData
  dsimp only
  rw [readings_ackListRemove]
  split
  · exact readings_onUser _ _ (fun c => hφ.onError c _)
  · exact readings_onUser _ _ (fun c => hφ.onError c _)
  · rfl

theorem readings_sendAck (hφ : Deaf φ) (m : Detached) (synack : Bool) :
    readings φ (m.sendAck synack).ctx = readings φ m.ctx := by
  unfold sendAck
  rw [readings_ackListRemove, readings_sendData hφ]
  rfl

theorem readings_deliver (hφ : Deaf φ) (m : Detached) (data : Bytes) :
    readings φ (m.deliver data).ctx = readings φ m.ctx := by
  unfold deliver
  split
  · exact readings_onUser _ _ (fun c => hφ.onRead c data)
  · rfl

/-- A deaf reading hears nothing of the send side. -/
theorem readings_tx (hφ : Deaf φ) {inp : Option Bytes} {l : Bytes} {m m' : Detached}
    (h : TxAct inp l m m') : readings φ m'.ctx = readings φ m.ctx := by
  cases h with
  | sendPacket _ seq =>
      unfold sendPacketAt
      split
      · rfl
      · exact readings_sendData hφ _ _ _
  | ackCum => rw [ctx_ackCumulative]
  | ackSel => rw [ctx_ackPacket]
  | lose => rw [ctx_markLost]
  | established => exact readings_onUser _ _ hφ.onWritable
  | dialed => exact readings_onUser _ _ hφ.onConnect
  | becomeWritable => exact readings_onUser _ _ hφ.onWritable
  | _ => rfl

theorem readings_drain (hφ : Deaf φ) {l : Bytes} {m m' : Detached} (h : DrainAct l m m') :
    readings φ m'.ctx = readings φ m.ctx := by
  cases h with
  | drain _ p => exact readings_deliver hφ _ p
  | reach => exact readings_onUser _ _ hφ.onEof
  | ackFin => exact readings_sendAck hφ m false
  | dropStragglers => rfl

/-- **ONLY THE LAST CALLBACK IS HEARD**. -/
theorem readings_act (hφ : Deaf φ) {occ : Occasion} {l : Bytes} {m m' : Detached}
    (h : Act occ l m m') : readings φ m'.ctx = readings φ m.ctx := by
  cases h with
  | tx h => exact readings_tx hφ h
  | inOrder _ _ buf data _ _ _ hdrain =>
      exact DrainPath.lift (S := fun a b : Detached => readings φ b.ctx = readings φ a.ctx)
        (fun _ => rfl) (fun _ _ _ hab hbc => hbc.trans hab) (fun _ _ _ => readings_drain hφ)
        (readings_deliver hφ m data) hdrain
  | giveUp => exact readings_onUser _ _ (fun c => hφ.onError c _)
  | reset => exact readings_onUser _ _ (fun c => hφ.onError c _)
  | ack => exact readings_sendAck hφ m _
  | schedule => unfold scheduleAck; split <;> rfl
  | keepAlive => exact readings_sendAck hφ _ _
  | _ => rfl

end Readings

/-- Which sockets are said to be gone. -/
def gone (ctx : Context) : UserId → Bool := readings ConnCell.destroyed ctx

/-- No callback of a living socket marks its cell destroyed. -/
theorem deaf_destroyed : Deaf ConnCell.destroyed := by
  constructor <;> intros <;> rfl

/-! ## The agreement -/

/-- `created` lists all connections so far, with their keys and in the order of
    their cells. -/
structure Agree (created : List Conn) (ctx : Context) : Prop where
  numbered : created.map Conn.user = List.range ctx.nextUser
  alive : ∀ conn ∈ created, gone ctx conn.user = false →
    ∃ s, ctx.sockets.lookup conn.key = some s ∧ s.user = conn.user
  known : ∀ key s, ctx.sockets.lookup key = some s →
    ⟨key, s.user⟩ ∈ created ∧ gone ctx s.user = false

/-- The cells of handles are allocated. -/
theorem Agree.user_lt {created : List Conn} {ctx : Context} (h : Agree created ctx) {conn : Conn}
    (hc : conn ∈ created) : conn.user < ctx.nextUser := by
  rw [← List.mem_range, ← h.numbered]
  exact List.mem_map_of_mem hc

/-- A cell belongs to one key. -/
theorem Agree.key_unique {created : List Conn} {ctx : Context} (h : Agree created ctx)
    {k₁ k₂ : Key} {u : UserId} (h₁ : ⟨k₁, u⟩ ∈ created) (h₂ : ⟨k₂, u⟩ ∈ created) : k₁ = k₂ := by
  have hnodup : (created.map Conn.user).Nodup := by
    rw [h.numbered]
    exact List.nodup_range
  exact congrArg Conn.key (List.inj_on_of_nodup_map hnodup h₁ h₂ rfl)

/-- At the start there are no handles. -/
theorem agree_new (clock : Clock) (rng : Rng) (transport : Nat → Option ErrorKind) (fpu : Fpu)
    (users : UserId → ConnCell) : Agree [] (Context.new clock rng transport fpu users) := by
  constructor
  · rfl
  · intro conn hc
    exact nomatch hc
  · intro key s hs
    exact nomatch (Finmap.lookup_empty key).symm.trans hs

/-- Only the table, the cells' flags and their number matter. -/
theorem Agree.of_same {created : List Conn} {ctx ctx' : Context} (h : Agree created ctx)
    (hsocks : ctx'.sockets = ctx.sockets) (hnext : ctx'.nextUser = ctx.nextUser)
    (hgone : gone ctx' = gone ctx) : Agree created ctx' := by
  constructor
  · rw [hnext]
    exact h.numbered
  · rw [hsocks, hgone]
    exact h.alive
  · rw [hsocks, hgone]
    exact h.known

/-- A socket acts. -/
theorem Agree.own {created : List Conn} {key : Key} {m m' : Detached}
    (h : Agree created (Context.attach key m)) (huser : m'.sock.user = m.sock.user)
    (hsur : surroundings m'.ctx = surroundings m.ctx) (hgone : gone m'.ctx = gone m.ctx) :
    Agree created (Context.attach key m') := by
  have hsocks : m'.ctx.sockets = m.ctx.sockets := congrArg Surroundings.sockets hsur
  -- the key still leads to the same user
  have hlook : ∀ k, ((Context.attach key m').sockets.lookup k).map UtpSock.user
      = ((Context.attach key m).sockets.lookup k).map UtpSock.user := by
    intro k
    rw [lookup_attach, lookup_attach, hsocks]
    split
    · rw [Option.map_some, Option.map_some, huser]
    · rfl
  constructor
  · exact h.numbered.trans (congrArg List.range (congrArg Surroundings.nextUser hsur).symm)
  · intro conn hc halive
    obtain ⟨s, hs, hu⟩ := h.alive conn hc ((congrFun hgone conn.user).symm.trans halive)
    have hmap := hlook conn.key
    rw [hs, Option.map_some] at hmap
    obtain ⟨s', hs', hu'⟩ := Option.map_eq_some_iff.mp hmap
    exact ⟨s', hs', hu'.trans hu⟩
  · intro k s' hs'
    have hmap := hlook k
    rw [hs', Option.map_some] at hmap
    obtain ⟨s, hs, hu⟩ := Option.map_eq_some_iff.mp hmap.symm
    rw [← hu]
    obtain ⟨hmem, halive⟩ := h.known k s hs
    exact ⟨hmem, (congrFun hgone s.user).trans halive⟩

/-- A socket that is new in the table, with a new cell. -/
theorem Agree.born {created : List Conn} {ctx : Context} {key : Key} {m : Detached}
    (h : Agree created ctx) (hfree : ctx.sockets.lookup key = none)
    (hsocks : m.ctx.sockets = ctx.sockets) (huser : m.sock.user = ctx.nextUser)
    (hnext : m.ctx.nextUser = ctx.nextUser + 1)
    (haddr : ∃ addr, m.ctx.users
      = Function.update ctx.users ctx.nextUser (ConnCell.new addr)) :
    Agree (created ++ [⟨key, ctx.nextUser⟩]) (Context.attach key m) := by
  obtain ⟨addr, husers⟩ := haddr
  have hold : ∀ u, u ≠ ctx.nextUser → gone (Context.attach key m) u = gone ctx u := by
    intro u hu
    show (m.ctx.users u).destroyed = (ctx.users u).destroyed
    rw [husers, Function.update_of_ne hu]
  have hnew : gone (Context.attach key m) ctx.nextUser = false := by
    show (m.ctx.users ctx.nextUser).destroyed = false
    rw [husers, Function.update_self]
    rfl
  constructor
  · rw [List.map_append, h.numbered]
    show _ = List.range m.ctx.nextUser
    rw [hnext, List.range_succ]
    rfl
  · intro conn hc halive
    rw [lookup_attach]
    -- an old connection, or the one just made
    rcases List.mem_append.mp hc with hmem | hlast
    · rw [hold _ (Nat.ne_of_lt (h.user_lt hmem))] at halive
      obtain ⟨s, hs, hu⟩ := h.alive conn hmem halive
      refine ⟨s, ?_, hu⟩
      -- it cannot stand under the fresh key
      rw [if_neg (fun hk => by rw [hk, hfree] at hs; exact nomatch hs), hsocks]
      exact hs
    · rw [List.mem_singleton.mp hlast, if_pos rfl]
      exact ⟨m.sock, rfl, huser⟩
  · intro k s hs
    rw [lookup_attach] at hs
    split at hs
    · rename_i hk
      obtain rfl := Option.some.inj hs
      rw [hk, huser]
      exact ⟨List.mem_append_right _ (List.mem_singleton_self _), hnew⟩
    · rw [hsocks] at hs
      obtain ⟨hmem, halive⟩ := h.known k s hs
      refine ⟨List.mem_append_left _ hmem, ?_⟩
      rw [hold _ (Nat.ne_of_lt (h.user_lt hmem))]
      exact halive

/-- Destroying a socket marks its cell. -/
theorem gone_destroySock (m : Detached) :
    gone (Context.destroySock m) = Function.update (gone m.ctx) m.sock.user true := by
  have hlist : gone (Context.destroySock m) = gone (m.notify (·.onDestroying)).ctx :=
    readings_ackListRemove _
  rw [hlist]
  funext u
  show (Function.update m.ctx.users m.sock.user m.cell.onDestroying u).destroyed = _
  by_cases hu : u = m.sock.user
  · rw [hu, Function.update_self, Function.update_self]
    rfl
  · rw [Function.update_of_ne hu, Function.update_of_ne hu]
    rfl

/-- A socket leaves the table and its cell is told. -/
theorem Agree.remove {created : List Conn} {key : Key} {m : Detached}
    (h : Agree created (Context.attach key m)) (hout : m.ctx.sockets.lookup key = none) :
    Agree created (Context.destroySock m) := by
  have hself : (Context.attach key m).sockets.lookup key = some m.sock := by
    rw [lookup_attach, if_pos rfl]
  have hother : ∀ k, k ≠ key →
      (Context.attach key m).sockets.lookup k = m.ctx.sockets.lookup k := by
    intro k hk
    rw [lookup_attach, if_neg hk]
  constructor
  · rw [destroySock_nextUser]
    exact h.numbered
  · intro conn hc halive
    rw [gone_destroySock] at halive
    rw [destroySock_sockets]
    -- the connection that is told it is gone, or another
    by_cases hu : conn.user = m.sock.user
    · rw [hu, Function.update_self] at halive
      exact nomatch halive
    · rw [Function.update_of_ne hu] at halive
      obtain ⟨s, hs, hsu⟩ := h.alive conn hc halive
      refine ⟨s, ?_, hsu⟩
      -- two sockets of one key are one, so their users agree
      by_cases hk : conn.key = key
      · rw [hk, hself] at hs
        obtain rfl := Option.some.inj hs
        exact absurd hsu.symm hu
      · rw [← hother _ hk]
        exact hs
  · intro k s hs
    rw [destroySock_sockets] at hs
    have hk : k ≠ key := by
      rintro rfl
      exact nomatch hout.symm.trans hs
    rw [← hother k hk] at hs
    obtain ⟨hmem, halive⟩ := h.known k s hs
    refine ⟨hmem, ?_⟩
    have hu : s.user ≠ m.sock.user := by
      intro hu
      rw [hu] at hmem
      exact hk (h.key_unique hmem (h.known key _ hself).1)
    rw [gone_destroySock, Function.update_of_ne hu]
    exact halive

/-- Answering an unknown connection marks none. -/
theorem gone_rejectUnknown (ctx : Context) (addr : SocketAddr) (id : UInt32) (seqNr : UInt16) :
    gone (ctx.rejectUnknown addr id seqNr) = gone ctx := by
  unfold Context.rejectUnknown
  dsimp only
  split
  · rfl
  · split <;> rfl

/-- **EVERY ACT KEEPS HANDLES AND ENGINE TOGETHER**, and may create a
    connection. -/
theorem agree_engineAct {occ : Occasion} {l : Bytes} {created : List Conn} {ctx ctx' : Context}
    (hact : EngineAct occ l ctx ctx') (h : Agree created ctx) :
    ∃ born, Agree (created ++ born) ctx' := by
  -- most acts create no connection
  have hsame : Agree created ctx' → ∃ born, Agree (created ++ born) ctx' := by
    intro h'
    refine ⟨[], ?_⟩
    rw [List.append_nil]
    exact h'
  cases hact with
  | sock key hout hstep =>
      exact hsame (h.own (congrArg Ident.user hstep.ident_eq) hstep.surroundings_eq
        (readings_act deaf_destroyed hstep))
  | dial _ addr seed rng _ hfree =>
      obtain ⟨huser, hnext⟩ := dialled_user ctx addr seed rng
      exact ⟨_, h.born hfree (dialled_sockets ctx addr seed rng) huser hnext ⟨addr, rfl⟩⟩
  | accept _ buf addr _ _ hfree =>
      obtain ⟨huser, hnext⟩ := accepting_user ctx buf addr
      exact ⟨_, h.born hfree (accepting_sockets ctx buf addr) huser hnext ⟨addr, rfl⟩⟩
  | remove key m _ hout => exact hsame (h.remove hout)
  | reject =>
      exact hsame (h.of_same (rejectUnknown_sockets ..) (rejectUnknown_nextUser ..)
        (gone_rejectUnknown ..))
  | settings => exact hsame (h.of_same rfl rfl rfl)
  | takeAcks => exact hsame (h.of_same rfl rfl rfl)
  | consume _ user len =>
      exact hsame (h.of_same rfl rfl (readings_onUser ctx user (fun _ => rfl)))
  | markClosed _ user =>
      exact hsame (h.of_same rfl rfl (readings_onUser ctx user (fun _ => rfl)))

/-- A path of the engine keeps the agreement, with the connections it creates.
    -/
theorem agree_path {occ : Occasion} {l : Bytes} {created : List Conn} {ctx ctx' : Context}
    (hpath : EnginePath occ l ctx ctx') (h : Agree created ctx) :
    ∃ born, Agree (created ++ born) ctx' := by
  induction hpath with
  | refl =>
      refine ⟨[], ?_⟩
      rw [List.append_nil]
      exact h
  | tail _ hact ih =>
      obtain ⟨born, hborn⟩ := ih h
      obtain ⟨more, hmore⟩ := agree_engineAct hact hborn
      refine ⟨born ++ more, ?_⟩
      rw [← List.append_assoc]
      exact hmore

/-! ## What an operation creates -/

/-- A path that allocates no cell creates no connection. -/
theorem agree_quiet {occ : Occasion} {l : Bytes} {created : List Conn} {ctx ctx' : Context}
    (hpath : EnginePath occ l ctx ctx') (hnext : ctx'.nextUser = ctx.nextUser)
    (h : Agree created ctx) : Agree created ctx' := by
  obtain ⟨born, hborn⟩ := agree_path hpath h
  have hlen := congrArg List.length hborn.numbered
  have hlen₀ := congrArg List.length h.numbered
  rw [List.length_map, List.length_append, List.length_range, hnext] at hlen
  rw [List.length_map, List.length_range] at hlen₀
  have hnil : born = [] := List.eq_nil_of_length_eq_zero (by omega)
  rw [hnil, List.append_nil] at hborn
  exact hborn

/-- A path that allocates one cell creates one connection: the one that uses
    the cell afterwards. -/
theorem agree_one {occ : Occasion} {l : Bytes} {created : List Conn} {ctx ctx' : Context}
    (hpath : EnginePath occ l ctx ctx') (hnext : ctx'.nextUser = ctx.nextUser + 1)
    {key : Key} {s : UtpSock} (hs : ctx'.sockets.lookup key = some s)
    (huser : s.user = ctx.nextUser) (h : Agree created ctx) :
    Agree (created ++ [⟨key, s.user⟩]) ctx' := by
  obtain ⟨born, hborn⟩ := agree_path hpath h
  have hlen := congrArg List.length hborn.numbered
  have hlen₀ := congrArg List.length h.numbered
  rw [List.length_map, List.length_append, List.length_range, hnext] at hlen
  rw [List.length_map, List.length_range] at hlen₀
  obtain ⟨conn, hconn⟩ := List.length_eq_one_iff.mp (show born.length = 1 by omega)
  have hmem := (hborn.known key s hs).1
  rw [hconn] at hmem hborn
  rcases List.mem_append.mp hmem with hold | hnew
  · have hlt := h.user_lt hold
    exact absurd huser (Nat.ne_of_lt hlt)
  · rw [List.mem_singleton.mp hnew]
    exact hborn

/-- The acts of sockets allocate no cell. -/
theorem aside_nextUser : Aside Context.nextUser where
  act := fun _ _ _ _ h => congrArg Surroundings.nextUser h.surroundings_eq
  sockets := fun _ _ => rfl
  ackList := fun _ _ => rfl
  users := fun _ _ _ => rfl

theorem checkTimeouts_nextUser (ctx : Context) (order : List Key) :
    (ctx.checkTimeouts order).nextUser = ctx.nextUser := by
  rw [aside_nextUser.checkTimeouts]
  split <;> rfl

/-- An operation that creates nothing keeps the agreement. -/
theorem agree_step {created : List Conn} {ctx ctx' : Context} (op : Op)
    (hstep : ctx.step op = some ctx') (hnext : ctx'.nextUser = ctx.nextUser)
    (h : Agree created ctx) : Agree created ctx' :=
  agree_quiet (path_step hstep) hnext h

/-- A socket keeps its cell. -/
theorem path_user {occ : Occasion} {l : Bytes} {m m' : Detached} (h : ActPath occ l m m') :
    m'.sock.user = m.sock.user := congrArg Ident.user h.ident_eq

/-- `connect` draws a key that is free and creates one connection. -/
theorem agree_connect {created : List Conn} {ctx ctx' : Context} {addr : SocketAddr} {fuel : Nat}
    {key : Key} {user : UserId} (hconn : ctx.connect addr fuel = some (ctx', key, user))
    (h : Agree created ctx) :
    ctx.sockets.lookup key = none ∧ Agree (created ++ [⟨key, user⟩]) ctx' := by
  have hpath : EnginePath (anyOccasion none) [] ctx ctx' := path_connect hconn
  obtain ⟨seed, rng, hseed, hkey, huser, hctx⟩ := connect_result hconn
  have hsend : ActPath (anyOccasion none) [] (ctx.dialled addr seed rng)
      (Context.dialledSent ctx addr seed rng) := Steps.single (.tx (.sendPacket _ _))
  obtain ⟨hown, hnext⟩ := dialled_user ctx addr seed rng
  constructor
  · rw [hkey, key_dialledSent]
    exact (drawSeed_spec ctx addr fuel _ _ _ hseed).2
  · rw [huser]
    refine agree_one hpath ?_ ?_ ((path_user hsend).trans hown) h
    · rw [hctx, aside_nextUser.attach, aside_nextUser.path hsend, hnext]
    · rw [hctx, lookup_attach, if_pos rfl]

/-- An accepted connection gets the next cell. -/
theorem acceptSyn_user (ctx : Context) (buf : Bytes) (addr : SocketAddr) :
    (ctx.acceptSyn buf addr).sock.user = ctx.nextUser
      ∧ (ctx.acceptSyn buf addr).ctx.nextUser = ctx.nextUser + 1 := by
  have hsyn : ActPath (anyOccasion (some buf)) [] (ctx.accepting buf addr)
      (ctx.acceptSyn buf addr) :=
    (path_processIncoming _ buf true rfl).silent (Steps.single (.ack _ true (.due rfl)))
  obtain ⟨hown, hnext⟩ := accepting_user ctx buf addr
  exact ⟨(path_user hsyn).trans hown, (aside_nextUser.path hsyn).trans hnext⟩

/-- What `process_udp` reports as accepted. -/
def acceptedBy (r : Context × ProcessUdp) : List Conn :=
  match r.2 with
  | .accepted key user => [⟨key, user⟩]
  | _ => []

/-- A datagram creates the connection it reports as accepted, under a key that
    was free. -/
theorem agree_processUdp {created : List Conn} {ctx : Context} (buf : Bytes) (addr : SocketAddr)
    (firewall : SocketAddr → Bool) (h : Agree created ctx) :
    (∀ key user, (ctx.processUdp buf addr firewall).2 = .accepted key user →
        ctx.sockets.lookup key = none)
      ∧ Agree (created ++ acceptedBy (ctx.processUdp buf addr firewall))
        (ctx.processUdp buf addr firewall).1 := by
  have hpath : EnginePath (anyOccasion (some buf)) [] ctx (ctx.processUdp buf addr firewall).1 :=
    path_processUdp ctx buf addr firewall rfl
  have hquiet : (ctx.processUdp buf addr firewall).1.nextUser = ctx.nextUser →
      (∀ key user, (ctx.processUdp buf addr firewall).2 ≠ .accepted key user) →
      Agree (created ++ acceptedBy (ctx.processUdp buf addr firewall))
        (ctx.processUdp buf addr firewall).1 := by
    intro hnext hnone
    -- without a new connection nothing is added to the list
    have hnil : acceptedBy (ctx.processUdp buf addr firewall) = [] := by
      unfold acceptedBy
      split
      · rename_i key user heq
        exact absurd heq (hnone key user)
      · rfl
    rw [hnil, List.append_nil]
    exact agree_quiet hpath hnext h
  -- no new user, an answer to an unknown connection, or an accepted SYN
  rcases aside_nextUser.processUdp ctx buf addr firewall with
    ⟨hnext, hnone⟩ | ⟨-, heq⟩ | ⟨⟨-, hfree⟩, heq⟩
  · exact ⟨fun key user hacc => absurd hacc (hnone key user), hquiet hnext hnone⟩
  · rw [heq] at hquiet ⊢
    exact ⟨(fun key user hacc => nomatch hacc),
      hquiet (rejectUnknown_nextUser ..) (fun _ _ hacc => nomatch hacc)⟩
  · obtain ⟨huser, hnext⟩ := acceptSyn_user ctx buf addr
    rw [heq] at hpath ⊢
    constructor
    · rintro key user hacc
      injection hacc with hkey
      rw [← hkey, key_acceptSyn]
      exact hfree
    · refine agree_one hpath ((aside_nextUser.attach _ _).trans hnext) ?_ huser h
      rw [lookup_attach, if_pos rfl]

/-! ## The whole socket -/

/-- Handles and engine agree, and a closed socket has emptied its table. -/
structure Sound (created : List Conn) (g : Inner) : Prop where
  agree : Agree created g.ctx
  shut : g.closed = true → g.ctx.sockets = ∅

/-- An empty table stays empty as long as no cell is allocated. -/
theorem empty_step {ctx ctx' : Context} {op : Op} (hstep : ctx.step op = some ctx')
    (hnext : ctx'.nextUser = ctx.nextUser) (hempty : ctx.sockets = ∅) : ctx'.sockets = ∅ := by
  have htr : Traces (fun _ _ => True) ctx ctx' :=
    EnginePath.traces (fun _ => trivial) (fun _ _ _ _ _ => trivial) (fun _ _ _ _ => trivial)
      (path_step hstep)
  refine Finmap.ext_lookup fun key => ?_
  rw [Finmap.lookup_empty]
  refine Option.eq_none_iff_forall_not_mem.mpr fun s hs => ?_
  rcases htr.2 key s hs with hnew | ⟨s₀, hs₀, -⟩
  · rw [hnext] at hnew
    exact absurd hnew.1 (Nat.not_le_of_lt hnew.2)
  · rw [hempty, Finmap.lookup_empty] at hs₀
    exact nomatch hs₀

/-- An operation of the engine that creates nothing. -/
theorem Sound.quiet {created : List Conn} {g g' : Inner} (h : Sound created g) (op : Op)
    (hstep : g.ctx.step op = some g'.ctx) (hnext : g'.ctx.nextUser = g.ctx.nextUser)
    (hclosed : g'.closed = g.closed) : Sound created g' where
  agree := agree_step op hstep hnext h.agree
  shut := fun hshut => empty_step hstep hnext (h.shut (hclosed.symm.trans hshut))

/-- A call that is one operation of the engine. -/
theorem Sound.plain {created : List Conn} {g g' : Inner} (h : Sound created g) (op : Op)
    (hop : Op.plain op = true) (hstep : g.ctx.step op = some g'.ctx)
    (hclosed : g'.closed = g.closed) : Sound created g' :=
  h.quiet op hstep (aside_nextUser.step hstep hop) hclosed

/-- Closing a handle. -/
theorem Sound.closeLocked {created : List Conn} {g : Inner} (h : Sound created g) (conn : Conn) :
    Sound created (g.closeLocked conn) :=
  h.plain (.closeConn conn.key conn.user) rfl rfl rfl

/-- The cell of a connection is marked, whatever becomes of its socket. -/
theorem agree_markClosed {created : List Conn} {ctx : Context} (h : Agree created ctx)
    (user : UserId) : Agree created (ctx.onUser user (fun c => { c with closed := true })) :=
  h.of_same rfl rfl (readings_onUser ctx user (fun _ => rfl))

/-- A datagram keeps the agreement, with the connection it brings. -/
theorem agree_processDatagram {created : List Conn} {g : Inner} (buf : Bytes) (addr : SocketAddr)
    (firewall : SocketAddr → Bool) (h : Agree created g.ctx) :
    Agree (created ++ acceptedBy (g.ctx.processUdp buf addr firewall))
      (g.processDatagram buf addr firewall).ctx := by
  have hrun := (agree_processUdp buf addr firewall h).2
  unfold Inner.processDatagram
  dsimp only
  split
  · split <;> exact hrun
  · exact hrun
  · rename_i key user _
    split
    · exact agree_step (.close key) rfl
        (aside_nextUser.step (show Context.step _ (.close key) = some _ from rfl) rfl) (agree_markClosed hrun user)
    · exact hrun

/-- A datagram does not close the socket. -/
theorem closed_processDatagram (g : Inner) (buf : Bytes) (addr : SocketAddr)
    (firewall : SocketAddr → Bool) :
    (g.processDatagram buf addr firewall).closed = g.closed := by
  unfold Inner.processDatagram
  dsimp only
  split
  · split <;> rfl
  · rfl
  · split <;> rfl

/-- The same with the acks that are issued afterwards. -/
theorem agree_received {created : List Conn} {g : Inner} (buf : Bytes) (addr : SocketAddr)
    (firewall : SocketAddr → Bool) (h : Agree created g.ctx) :
    Agree (created ++ acceptedBy (g.ctx.processUdp buf addr firewall))
      (g.received buf addr firewall).ctx :=
  agree_step (.issueDeferredAcks) rfl (aside_nextUser.issueDeferredAcks _)
    (agree_processDatagram buf addr firewall h)

/-- A sweep keeps the agreement: it destroys socket and cell together. -/
theorem agree_checkTimeouts {created : List Conn} {ctx : Context} {order : List Key}
    (henum : ctx.Enumerates order) (h : Agree created ctx) :
    Agree created (ctx.checkTimeouts order) :=
  agree_step (.checkTimeouts order) (if_pos henum) (checkTimeouts_nextUser ctx order) h

/-- At the start all is well. -/
theorem sound_new (clock : Clock) (rng : Rng) (transport : Nat → Option ErrorKind) (fpu : Fpu)
    (users : UserId → ConnCell) : Sound [] (Inner.new clock rng transport fpu users) where
  agree := agree_new clock rng transport fpu users
  shut := fun h => nomatch h

/-- Writing through a handle. -/
theorem sound_send {created : List Conn} {g : Inner} (h : Sound created g) (conn : Conn)
    (buf : Bytes) : Sound created (g.send conn buf).1 := by
  unfold Inner.send
  split
  · exact h.plain (.write conn.key buf) rfl rfl rfl
  · exact h

/-- A look at the cell changes nothing, or closes the connection. -/
theorem connectRound_eq (g : Inner) (conn : Conn) (late : Bool) :
    (g.connectRound conn late).1 = g ∨ (g.connectRound conn late).1 = g.closeLocked conn := by
  unfold Inner.connectRound
  split
  · exact .inr rfl
  · split
    · exact .inl rfl
    · split
      · exact .inl rfl
      · split
        · exact .inl rfl
        · split
          · exact .inl rfl
          · split
            · exact .inr rfl
            · exact .inl rfl

/-- One round of `connect`. -/
theorem sound_connectRound {created : List Conn} {g : Inner} (h : Sound created g) (conn : Conn)
    (late : Bool) : Sound created (g.connectRound conn late).1 := by
  rcases connectRound_eq g conn late with heq | heq
  · rw [heq]
    exact h
  · rw [heq]
    exact h.closeLocked conn

/-- Dropping a handle. -/
theorem sound_drop {created : List Conn} {g : Inner} (h : Sound created g) (conn : Conn) :
    Sound created (g.drop conn) := by
  unfold Inner.drop
  split
  · exact h
  · exact h.closeLocked conn

/-- A dial creates one connection. -/
theorem sound_connect {created : List Conn} {g g' : Inner} {addr : SocketAddr} {fuel : Nat}
    {conn : Conn} (hconn : g.connect addr fuel = some (g', conn)) (h : Sound created g) :
    g.ctx.sockets.lookup conn.key = none ∧ Sound (created ++ [conn]) g' := by
  unfold Inner.connect at hconn
  split at hconn
  · exact nomatch hconn
  · rename_i hopen
    obtain ⟨⟨ctx', key, user⟩, hctx, heq⟩ := Option.map_eq_some_iff.mp hconn
    obtain ⟨rfl, rfl⟩ := Prod.mk.inj heq
    obtain ⟨hfree, hagree⟩ := agree_connect hctx h.agree
    exact ⟨hfree, hagree, fun hshut => absurd hshut hopen⟩

/-- The calls that only take from a queue leave the engine alone. -/
theorem accept_same (g : Inner) : g.accept.1.ctx = g.ctx ∧ g.accept.1.nonUtp = g.nonUtp
    ∧ g.accept.1.closed = g.closed := by
  unfold Inner.accept
  split
  · exact ⟨rfl, rfl, rfl⟩
  · split <;> exact ⟨rfl, rfl, rfl⟩

/-- `recv_from` touches the queue of other datagrams only. -/
theorem recvFrom_same (g : Inner) (len : Nat) : (g.recvFrom len).1.ctx = g.ctx
    ∧ (g.recvFrom len).1.backlog = g.backlog ∧ (g.recvFrom len).1.closed = g.closed := by
  unfold Inner.recvFrom
  split
  · exact ⟨rfl, rfl, rfl⟩
  · split <;> exact ⟨rfl, rfl, rfl⟩

/-- A call that leaves the engine. -/
theorem Sound.of_same {created : List Conn} {g g' : Inner} (h : Sound created g)
    (hctx : g'.ctx = g.ctx) (hclosed : g'.closed = g.closed) : Sound created g' :=
  ⟨by rw [hctx]; exact h.agree, by rw [hctx, hclosed]; exact h.shut⟩

/-- **EVERY CALL KEEPS HANDLES AND ENGINE TOGETHER.** -/
theorem sound_step {created : List Conn} {g g' : Inner} {call : Call} (h : Sound created g)
    (hstep : g.step call = some g') : Sound (created ++ g.creates call) g' := by
  -- most calls create no connection
  have hquiet : g.creates call = [] → Sound created g' → Sound (created ++ g.creates call) g' := by
    intro hnone hsound
    rw [hnone, List.append_nil]
    exact hsound
  cases call with
  | elapse clock =>
      obtain rfl := Option.some.inj hstep
      exact hquiet rfl (h.quiet (.elapse clock) rfl rfl rfl)
  | setSendBufferSize bytes =>
      obtain rfl := Option.some.inj hstep
      exact hquiet rfl (h.quiet (.setSendBufferSize bytes) rfl rfl rfl)
  | setRecvBufferSize bytes =>
      obtain rfl := Option.some.inj hstep
      exact hquiet rfl (h.quiet (.setRecvBufferSize bytes) rfl rfl rfl)
  | setTargetDelay micros =>
      obtain rfl := Option.some.inj hstep
      exact hquiet rfl (h.quiet (.setTargetDelay micros) rfl rfl rfl)
  | received buf addr firewall order =>
      obtain ⟨⟨hopen, henum⟩, hstep⟩ := Option.ite_none_right_eq_some.mp hstep
      obtain rfl := Option.some.inj hstep
      constructor
      · -- the datagram, and the sweep that follows it
        exact agree_checkTimeouts henum (agree_received buf addr firewall h.agree)
      · intro hshut
        have hsame : (g.received buf addr firewall).closed = false :=
          (closed_processDatagram g buf addr firewall).trans hopen
        exact nomatch hsame.symm.trans hshut
  | timeout order =>
      obtain ⟨⟨-, henum⟩, hstep⟩ := Option.ite_none_right_eq_some.mp hstep
      obtain rfl := Option.some.inj hstep
      exact hquiet rfl (h.quiet (.checkTimeouts order) (if_pos henum)
        (checkTimeouts_nextUser g.ctx order) rfl)
  | connect addr fuel =>
      obtain ⟨⟨g₁, conn⟩, hconn, rfl⟩ := Option.map_eq_some_iff.mp hstep
      have hcreates : g.creates (.connect addr fuel) = [conn] := by
        simp only [Inner.creates, hconn]
      rw [hcreates]
      exact (sound_connect hconn h).2
  | connectRound conn late =>
      obtain rfl := Option.some.inj hstep
      exact hquiet rfl (sound_connectRound h conn late)
  | accept =>
      obtain rfl := Option.some.inj hstep
      exact hquiet rfl (h.of_same (accept_same g).1 (accept_same g).2.2)
  | recvFrom len =>
      obtain rfl := Option.some.inj hstep
      exact hquiet rfl (h.of_same (recvFrom_same g len).1 (recvFrom_same g len).2.2)
  | send conn buf =>
      obtain rfl := Option.some.inj hstep
      exact hquiet rfl (sound_send h conn buf)
  | recv conn len =>
      obtain rfl := Option.some.inj hstep
      exact hquiet rfl (h.plain (.recv conn.key conn.user len) rfl rfl rfl)
  | closeConn conn =>
      obtain rfl := Option.some.inj hstep
      exact hquiet rfl (h.closeLocked conn)
  | drop conn =>
      obtain rfl := Option.some.inj hstep
      exact hquiet rfl (sound_drop h conn)
  | close order =>
      obtain ⟨henum, hstep⟩ := Option.ite_none_right_eq_some.mp hstep
      obtain rfl := Option.some.inj hstep
      -- closing twice does nothing the second time
      refine hquiet rfl ?_
      unfold Inner.close
      split
      · exact h
      · constructor
        · exact agree_step (.destroyAll order) (if_pos henum)
            (aside_nextUser.destroyAll g.ctx order) h.agree
        · -- every socket is destroyed, so none is left that was not told
          intro _
          exact destroyAll_sockets henum

/-- **HANDLES AND SOCKETS AGREE** in every run. -/
theorem sound_run {created : List Conn} {g : Inner} (h : SocketRun created g) :
    Sound created g := by
  induction h with
  | new clock rng transport fpu users => exact sound_new clock rng transport fpu users
  | step call _ _ hstep ih => exact sound_step ih hstep

/-! ## What a handle can reach -/

/-- The sockets of other connections stay as they are. -/
def OthersKept (user : UserId) (ctx ctx' : Context) : Prop :=
  ∀ key s, ctx.sockets.lookup key = some s → s.user ≠ user → ctx'.sockets.lookup key = some s

/-- An operation on the own socket leaves those of others. -/
theorem othersKept_withSock (ctx : Context) {key : Key} {user : UserId}
    {f : Detached → Detached} (hpath : ∀ m, ActPath (anyOccasion none) [] m (f m))
    (hown : ∀ s, ctx.sockets.lookup key = some s → s.user = user) :
    OthersKept user ctx (ctx.withSock key f) := by
  intro k s hs hother
  rcases lookup_withSock key hpath hs with hsame | ⟨rfl, -, -⟩
  · exact hsame
  · exact absurd (hown s hs) hother

theorem othersKept_write {ctx : Context} {key : Key} {user : UserId} (buf : Bytes)
    (hown : ∀ s, ctx.sockets.lookup key = some s → s.user = user) :
    OthersKept user ctx (ctx.write key buf).1 := by
  intro k s hs hother
  unfold Context.write
  split
  · exact hs
  · rename_i sock hsock
    have hpath : ActPath (anyOccasion none) _ _ _ :=
      ActPath.ofTx (path_writeEngine (ctx.detach key sock) buf).2.1
    have hk : k ≠ key := by
      rintro rfl
      exact hother (hown s hs)
    rw [lookup_attach, if_neg hk, sockets_of_path hpath]
    exact (Finmap.lookup_erase_ne hk).trans hs

/-- The socket a living handle reaches is its own. -/
theorem Sound.own {created : List Conn} {g : Inner} (h : Sound created g) {conn : Conn}
    (hc : conn ∈ created) (halive : (g.cell conn).destroyed = false) :
    ∀ s, g.ctx.sockets.lookup conn.key = some s → s.user = conn.user := by
  intro s hs
  obtain ⟨s', hs', huser⟩ := h.agree.alive conn hc halive
  rw [hs] at hs'
  obtain rfl := Option.some.inj hs'
  exact huser

/-- Writing through a handle reaches its own socket only. -/
theorem othersKept_send {created : List Conn} {g : Inner} (h : Sound created g) {conn : Conn}
    (hc : conn ∈ created) (buf : Bytes) : OthersKept conn.user g.ctx (g.send conn buf).1.ctx := by
  unfold Inner.send
  split
  · rename_i hallowed
    refine othersKept_write buf (h.own hc ?_)
    unfold Inner.sendAllowed at hallowed
    rw [Bool.and_eq_true, Bool.not_eq_true'] at hallowed
    exact hallowed.2
  · exact fun _ _ hs _ => hs

theorem othersKept_closeLocked {created : List Conn} {g : Inner} (h : Sound created g)
    {conn : Conn} (hc : conn ∈ created) :
    OthersKept conn.user g.ctx (g.closeLocked conn).ctx := by
  unfold Inner.closeLocked Context.closeConn
  dsimp only
  split
  · rename_i hneeded
    rw [Bool.and_eq_true, Bool.not_eq_true'] at hneeded
    exact othersKept_withSock (g.ctx.onUser conn.user (fun c => { c with closed := true }))
      (fun m => path_closeEngine m rfl) (h.own hc hneeded.1)
  · exact fun _ _ hs _ => hs

theorem othersKept_drop {created : List Conn} {g : Inner} (h : Sound created g) {conn : Conn}
    (hc : conn ∈ created) : OthersKept conn.user g.ctx (g.drop conn).ctx := by
  unfold Inner.drop
  split
  · exact fun _ _ hs _ => hs
  · exact othersKept_closeLocked h hc

theorem othersKept_readDrained {created : List Conn} {g : Inner} (h : Sound created g)
    {conn : Conn} (hc : conn ∈ created) (len : Nat)
    (halive : (g.cell conn).destroyed = false) :
    OthersKept conn.user g.ctx ((g.ctx.consume conn.user len).readDrained conn.key) :=
  othersKept_withSock (g.ctx.consume conn.user len) path_readDrained (h.own hc halive)

/-- No callback closes a handle. -/
theorem deaf_closed : Deaf ConnCell.closed := by
  constructor <;> intros <;> rfl

theorem readings_withSock {β : Type} {φ : ConnCell → β} (hφ : Deaf φ) (ctx : Context) (key : Key)
    {f : Detached → Detached} (hpath : ∀ m, ActPath (anyOccasion none) [] m (f m)) :
    readings φ (ctx.withSock key f) = readings φ ctx := by
  unfold Context.withSock
  split
  · rfl
  · rename_i sock _
    exact Steps.lift (S := fun a b : Detached => readings φ b.ctx = readings φ a.ctx)
      (fun _ => rfl) (fun _ _ _ hab hbc => hbc.trans hab) (fun _ _ _ ha => readings_act hφ ha)
      (hpath (ctx.detach key sock))

/-- A closed handle is closed. -/
theorem closed_closeLocked (g : Inner) (conn : Conn) :
    ((g.closeLocked conn).cell conn).closed = true := by
  have hmark : (g.ctx.onUser conn.user (fun c => { c with closed := true })).users conn.user
      = { g.ctx.users conn.user with closed := true } := Function.update_self ..
  unfold Inner.cell Inner.closeLocked Context.closeConn
  dsimp only
  split
  · have hread := congrFun (readings_withSock deaf_closed
      (g.ctx.onUser conn.user (fun c => { c with closed := true })) conn.key
      (fun m => path_closeEngine m rfl)) conn.user
    exact hread.trans (congrArg ConnCell.closed hmark)
  · exact congrArg ConnCell.closed hmark

/-- The table of a closed socket is empty, so every cell has been told. -/
theorem Sound.all_gone {created : List Conn} {g : Inner} (h : Sound created g)
    (hshut : g.closed = true) {conn : Conn} (hc : conn ∈ created) :
    (g.cell conn).destroyed = true := by
  by_contra halive
  obtain ⟨s, hs, -⟩ := h.agree.alive conn hc (Bool.eq_false_iff.mpr halive)
  rw [h.shut hshut, Finmap.lookup_empty] at hs
  exact nomatch hs

/-- Every exit of `connect_deadline` but a success leaves its connection closed
    or destroyed. -/
theorem connectRound_exit {created : List Conn} {g : Inner} (h : Sound created g) {conn : Conn}
    (hc : conn ∈ created) (late : Bool) :
    (g.connectRound conn late).2 = .connected ∨ (g.connectRound conn late).2 = .wait
      ∨ ((g.connectRound conn late).1.cell conn).closed = true
      ∨ ((g.connectRound conn late).1.cell conn).destroyed = true := by
  unfold Inner.connectRound
  split
  · exact .inr (.inr (.inl (closed_closeLocked g conn)))
  · split
    · exact .inl rfl
    · split
      · rename_i hgone
        exact .inr (.inr (.inr hgone))
      · split
        · rename_i hclosed
          exact .inr (.inr (.inl hclosed))
        · rename_i hthere _
          split
          · rename_i hshut
            exact absurd (h.all_gone hshut hc) hthere
          · split
            · exact .inr (.inr (.inl (closed_closeLocked g conn)))
            · exact .inr (.inl rfl)

/-- A socket that was in the table is still there under its key, or its cell
    has been told that it is gone: nothing was put in its place. -/
theorem Sound.stays_or_told {created : List Conn} {g g' : Inner} {call : Call}
    (h : Sound created g) (hstep : g.step call = some g') {key : Key} {s : UtpSock}
    (hs : g.ctx.sockets.lookup key = some s) :
    (∃ s', g'.ctx.sockets.lookup key = some s' ∧ s'.user = s.user)
      ∨ (g'.ctx.users s.user).destroyed = true := by
  have hmem := (h.agree.known key s hs).1
  cases htold : (g'.ctx.users s.user).destroyed with
  | true => exact .inr rfl
  | false =>
      exact .inl ((sound_step h hstep).agree.alive ⟨key, s.user⟩
        (List.mem_append_left _ hmem) htold)

/-- **HANDLES AND ENGINE AGREE**: in every state of a socket, a connection that
    is not said to be destroyed has its engine socket under the key of its
    handle, and one that is has none.  So a handle's write, close and drained
    read reach no other socket, new sockets get free keys and none is put in the
    place of another, a closed socket has told all its connections, and a
    failing `connect` leaves nothing that dropping the handle would close. -/
theorem handles_agree {created : List Conn} {g : Inner} (h : SocketRun created g) :
    (∀ conn ∈ created,
      ((g.cell conn).destroyed = false →
        ∃ s, g.ctx.sockets.lookup conn.key = some s ∧ s.user = conn.user)
      ∧ ((g.cell conn).destroyed = true →
        ∀ key s, g.ctx.sockets.lookup key = some s → s.user ≠ conn.user)
      ∧ (∀ buf, OthersKept conn.user g.ctx (g.send conn buf).1.ctx)
      ∧ OthersKept conn.user g.ctx (g.closeLocked conn).ctx
      ∧ OthersKept conn.user g.ctx (g.drop conn).ctx
      ∧ (∀ len, (g.cell conn).destroyed = false →
        OthersKept conn.user g.ctx ((g.ctx.consume conn.user len).readDrained conn.key))
      ∧ (g.closed = true → (g.cell conn).destroyed = true)
      ∧ ∀ late, (g.connectRound conn late).2 = .connected ∨ (g.connectRound conn late).2 = .wait
        ∨ ((g.connectRound conn late).1.cell conn).closed = true
        ∨ ((g.connectRound conn late).1.cell conn).destroyed = true)
    ∧ (∀ addr fuel r, g.connect addr fuel = some r → g.ctx.sockets.lookup r.2.key = none)
    ∧ (∀ buf addr firewall key user,
      (g.ctx.processUdp buf addr firewall).2 = .accepted key user →
        g.ctx.sockets.lookup key = none)
    ∧ ∀ call g' key s, g.step call = some g' → g.ctx.sockets.lookup key = some s →
      (∃ s', g'.ctx.sockets.lookup key = some s' ∧ s'.user = s.user)
        ∨ (g'.ctx.users s.user).destroyed = true := by
  have hsound := sound_run h
  refine ⟨fun conn hc => ⟨hsound.agree.alive conn hc, ?_, othersKept_send hsound hc,
    othersKept_closeLocked hsound hc, othersKept_drop hsound hc,
    othersKept_readDrained hsound hc, fun hshut => hsound.all_gone hshut hc,
    connectRound_exit hsound hc⟩, ?_, ?_, ?_⟩
  · -- a cell that says the socket is gone has no socket
    intro htold key s hs huser
    have hthere := (hsound.agree.known key s hs).2
    rw [huser] at hthere
    exact nomatch hthere.symm.trans htold
  · intro addr fuel r hconn
    exact (sound_connect hconn hsound).1
  · intro buf addr firewall
    exact (agree_processUdp buf addr firewall hsound.agree).1
  · intro call g' key s hstep hs
    exact hsound.stays_or_told hstep hs

/-- A call, and the connections created so far, on which it may be made. -/
def callOn (r : List Conn × Inner) (call : Call) : Option (List Conn × Inner) :=
  if call.conn.all (fun conn => decide (conn ∈ r.1)) then
    (r.2.step call).map (fun g => (r.1 ++ r.2.creates call, g))
  else none

/-- A list of calls leads from runs to runs. -/
theorem run_callOn (calls : List Call) {r r' : List Conn × Inner} (h : SocketRun r.1 r.2)
    (hcalls : calls.foldlM callOn r = some r') : SocketRun r'.1 r'.2 := by
  induction calls generalizing r with
  | nil =>
      obtain rfl := Option.some.inj hcalls
      exact h
  | cons call rest ih =>
      obtain ⟨r₁, hcall, hrest⟩ := Option.bind_eq_some_iff.mp hcalls
      obtain ⟨hmay, hcall⟩ := Option.ite_none_right_eq_some.mp hcall
      obtain ⟨g, hstep, rfl⟩ := Option.map_eq_some_iff.mp hcall
      refine ih (h.step call (fun conn hconn => ?_) hstep) hrest
      rw [hconn, Option.all_some] at hmay
      exact of_decide_eq_true hmay

/-- Two connections are dialled, and the first is closed and swept away. -/
def dialCalls : List Call :=
  [.connect peerAddr 1, .connect peerAddr 1, .closeConn ⟨firstKey, 0⟩, .elapse ⟨1000000⟩,
    .timeout [firstKey, ⟨peerAddr, 17743⟩]]

/-- No socket is left of the first; the second has its own. -/
theorem handles_agree_dialled :
    ∃ created g s, SocketRun created g ∧ created = [⟨firstKey, 0⟩, ⟨⟨peerAddr, 17743⟩, 1⟩]
      ∧ (∀ key s, g.ctx.sockets.lookup key = some s → s.user ≠ 0)
      ∧ g.ctx.sockets.lookup ⟨peerAddr, 17743⟩ = some s ∧ s.user = 1 := by
  have hstart : SocketRun [] (Inner.new ⟨0⟩ ⟨0⟩ (fun _ => none) idleFpu
      (fun _ => ConnCell.new (.v4 0 0))) := .new _ _ _ _ _
  have heval : (dialCalls.foldlM callOn ([], Inner.new ⟨0⟩ ⟨0⟩ (fun _ => none) idleFpu
      (fun _ => ConnCell.new (.v4 0 0)))).map (fun r =>
        decide (r.1 = [⟨firstKey, 0⟩, ⟨⟨peerAddr, 17743⟩, 1⟩]
          ∧ (r.2.cell ⟨firstKey, 0⟩).destroyed = true
          ∧ (r.2.cell ⟨⟨peerAddr, 17743⟩, 1⟩).destroyed = false)) = some true := by
    decide +kernel
  obtain ⟨⟨created, g⟩, hcalls, hfacts⟩ := Option.map_eq_some_iff.mp heval
  obtain ⟨hcreated, hgone, hlive⟩ := of_decide_eq_true hfacts
  have hrun : SocketRun created g := run_callOn dialCalls hstart hcalls
  have hagree := (handles_agree hrun).1
  have hcreated : created = [⟨firstKey, 0⟩, ⟨⟨peerAddr, 17743⟩, 1⟩] := hcreated
  have hfirst := (hagree ⟨firstKey, 0⟩ (by rw [hcreated]; decide)).2.1 hgone
  obtain ⟨s, hs, huser⟩ := (hagree ⟨⟨peerAddr, 17743⟩, 1⟩ (by rw [hcreated]; decide)).1 hlive
  exact ⟨created, g, s, hrun, hcreated, hfirst, hs, huser⟩

end UtpHandles
