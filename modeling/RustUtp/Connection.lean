import RustUtp.Emissions
import RustUtp.Eof
import RustUtp.AckList

/-! # One connection among many

    An engine runs many connections side by side.  `Local` is what one of them
    amounts to: its socket, the stream of its cell and the datagrams it has
    sent.  `Follows` says that the connection of cell `u` sits under `key`, if
    it still has a socket, and that its part of the engine satisfies `P`.  Acts
    of other sockets do not count, so an invariant of one connection asks
    something of its own acts only. -/

namespace UtpConnection

open UtpCircular UtpPacket UtpUtil UtpConnShared UtpEngine UtpEngine.Detached UtpActs
  UtpReceive UtpEof UtpEmissions UtpAckList LabelledPath

/-- What the socket of cell `u` has passed to `send_to`. -/
def sentBy (u : UserId) (ctx : Context) : List Bytes :=
  (ctx.wire.filter (fun d => d.src = some u)).map (·.bytes)

/-- One more datagram on the wire, in the log of its sender. -/
theorem sentBy_append {u : UserId} {ctx ctx' : Context} {d : Sent}
    (h : ctx'.wire = ctx.wire ++ [d]) :
    sentBy u ctx' = sentBy u ctx ++ if d.src = some u then [d.bytes] else [] := by
  unfold sentBy
  rw [h, List.filter_append, List.map_append]
  by_cases hd : d.src = some u
  · rw [if_pos hd, List.filter_cons_of_pos (by simpa using hd)]
    rfl
  · rw [if_neg hd, List.filter_cons_of_neg (by simpa using hd)]
    rfl

/-- Where nothing was sent, no log grows. -/
theorem sentBy_same {u : UserId} {ctx ctx' : Context} (h : ctx'.wire = ctx.wire) :
    sentBy u ctx' = sentBy u ctx := by
  unfold sentBy
  rw [h]

structure Local where
  sock : UtpSock
  stream : Stream
  log : List Bytes

def localOf (m : Detached) : Local := ⟨m.sock, stream m, sentBy m.sock.user m.ctx⟩

/-! ## Acts of another socket -/

/-- An act sends in the name of its own cell. -/
theorem effect_log {occ : Occasion} {m m' : Detached} (h : Effect occ m m') {u : UserId}
    (hu : u ≠ m.sock.user) : sentBy u m'.ctx = sentBy u m.ctx := by
  rcases h.wire with hsame | ⟨src, -, hgrown⟩
  · exact sentBy_same hsame
  · have hsrc : (src.sent m).src ≠ some u := fun h => hu (Option.some.inj h).symm
    rw [sentBy_append hgrown, if_neg hsrc, List.append_nil]

/-- What a socket leaves of the connection of cell `u`. -/
structure Elsewhere (u : UserId) (m m' : Detached) : Prop where
  user : m'.sock.user = m.sock.user
  around : surroundings m'.ctx = surroundings m.ctx
  stream : u ≠ m.sock.user → streams m'.ctx u = streams m.ctx u
  log : u ≠ m.sock.user → sentBy u m'.ctx = sentBy u m.ctx

namespace Elsewhere

theorem refl (u : UserId) (m : Detached) : Elsewhere u m m :=
  ⟨rfl, rfl, fun _ => rfl, fun _ => rfl⟩

theorem trans (u : UserId) (m₁ m₂ m₃ : Detached) (h : Elsewhere u m₁ m₂)
    (h' : Elsewhere u m₂ m₃) : Elsewhere u m₁ m₃ := by
  refine ⟨h'.user.trans h.user, h'.around.trans h.around, fun hu => ?_, fun hu => ?_⟩
  · exact (h'.stream (by rw [h.user]; exact hu)).trans (h.stream hu)
  · exact (h'.log (by rw [h.user]; exact hu)).trans (h.log hu)

end Elsewhere

/-- The drain of another socket sends for its own cell. -/
theorem log_drain {l : Bytes} {m m' : Detached} (h : DrainPath l m m') {u : UserId}
    (hu : u ≠ m.sock.user) : sentBy u m'.ctx = sentBy u m.ctx := by
  have hlift := Steps.lift
    (S := fun a b : Detached => u ≠ a.sock.user →
      u ≠ b.sock.user ∧ sentBy u b.ctx = sentBy u a.ctx)
    (fun _ ha => ⟨ha, rfl⟩)
    (fun _ _ _ hab hbc ha =>
      ⟨(hbc (hab ha).1).1, (hbc (hab ha).1).2.trans (hab ha).2⟩)
    (fun _ a b hab ha => by
      have heff : Effect ⟨none, false, false⟩ a b := DrainAct.effect hab
      refine ⟨?_, effect_log heff ha⟩
      rw [show b.sock.user = a.sock.user from congrArg Ident.user hab.ident_eq]
      exact ha) h
  exact (hlift hu).2

/-- **AN ACT OF ANOTHER SOCKET** leaves cell and log. -/
theorem elsewhere_act {occ : Occasion} {l : Bytes} {m m' : Detached} (h : Act occ l m m')
    (u : UserId) : Elsewhere u m m' := by
  have hown := ownCell_act h
  refine ⟨hown.user, h.surroundings_eq, hown.others u, fun hu => ?_⟩
  rcases Act.effect h with heff | ⟨data, hst, hdrain⟩
  · exact effect_log heff hu
  · rw [log_drain hdrain (by rw [acceptNext_sock]; exact hu)]
    exact sentBy_same (silent_deliver m data).1

theorem elsewhere_path {occ : Occasion} {l : Bytes} {m m' : Detached} (h : ActPath occ l m m')
    (u : UserId) : Elsewhere u m m' :=
  Steps.lift (Elsewhere.refl u) (Elsewhere.trans u) (fun _ _ _ hab => elsewhere_act hab u) h

/-! ## Following one connection -/

/-- The connection of cell `u`: its socket, as long as it has one, is under `key`. -/
structure Follows (key : Key) (u : UserId) (P : Local → Prop) (ctx : Context) : Prop where
  allocated : u < ctx.nextUser
  found : ∃ s, (∀ k s', ctx.sockets.lookup k = some s' → s'.user = u → k = key ∧ s' = s)
    ∧ P ⟨s, streams ctx u, sentBy u ctx⟩

variable {key : Key} {u : UserId} {P Q : Local → Prop} {ctx ctx' : Context} {occ : Occasion}

/-- A weaker property is followed as well. -/
theorem Follows.mono (h : Follows key u P ctx) (hPQ : ∀ v, P v → Q v) : Follows key u Q ctx := by
  obtain ⟨s, hs, hP⟩ := h.found
  exact ⟨h.allocated, s, hs, hPQ _ hP⟩

/-- The socket of the connection, when it is there. -/
theorem Follows.here (h : Follows key u P ctx) {k : Key} {s : UtpSock}
    (hs : ctx.sockets.lookup k = some s) (hu : s.user = u) :
    k = key ∧ P ⟨s, streams ctx u, sentBy u ctx⟩ := by
  obtain ⟨s₀, hfound, hP⟩ := h.found
  obtain ⟨hk, rfl⟩ := hfound k s hs hu
  exact ⟨hk, hP⟩

/-- Nothing happens to the connection. -/
theorem Follows.same (h : Follows key u P ctx) (hnext : ctx.nextUser ≤ ctx'.nextUser)
    (hsocks : ∀ k s, ctx'.sockets.lookup k = some s → s.user = u →
      ctx.sockets.lookup k = some s)
    (hstream : streams ctx' u = streams ctx u) (hlog : sentBy u ctx' = sentBy u ctx) :
    Follows key u P ctx' := by
  obtain ⟨s, hfound, hP⟩ := h.found
  refine ⟨Nat.lt_of_lt_of_le h.allocated hnext, s, fun k s' hs' hu => ?_, ?_⟩
  · exact hfound k s' (hsocks k s' hs' hu) hu
  · rw [hstream, hlog]
    exact hP

/-- Its own socket acts. -/
theorem Follows.own {k : Key} {l : Bytes} {m m' : Detached}
    (h : Follows key u P (Context.attach k m)) (hu : m.sock.user = u)
    (hpath : ActPath occ l m m')
    (hPQ : P (localOf m) → Q (localOf m')) : Follows key u Q (Context.attach k m') := by
  have helse := elsewhere_path hpath u
  have hsocks : m'.ctx.sockets = m.ctx.sockets := congrArg Surroundings.sockets helse.around
  have hnext : m'.ctx.nextUser = m.ctx.nextUser := congrArg Surroundings.nextUser helse.around
  obtain ⟨s, hfound, hP⟩ := h.found
  -- the socket followed is this one
  obtain ⟨hk, hs⟩ := hfound k m.sock (by rw [lookup_attach, if_pos rfl]) hu
  subst hs
  have hu' : m'.sock.user = u := helse.user.trans hu
  refine ⟨Nat.lt_of_lt_of_eq h.allocated hnext.symm, m'.sock, fun k' s' hs' hu₁ => ?_, ?_⟩
  · rw [lookup_attach] at hs'
    split at hs'
    · rename_i hk'
      exact ⟨hk'.trans hk, (Option.some.inj hs').symm⟩
    · rename_i hk'
      rw [hsocks] at hs'
      -- another socket of the same user would stand under the same key
      refine absurd ((hfound k' s' ?_ hu₁).1.trans hk.symm) hk'
      rw [lookup_attach, if_neg hk', hs']
  · have hloc : P (localOf m) := by
      unfold localOf stream
      rw [hu]
      exact hP
    have hnew := hPQ hloc
    unfold localOf stream at hnew
    rw [hu'] at hnew
    exact hnew

/-- Another socket acts. -/
theorem Follows.other {k : Key} {l : Bytes} {m m' : Detached}
    (h : Follows key u P (Context.attach k m)) (hu : m.sock.user ≠ u)
    (hpath : ActPath occ l m m') : Follows key u P (Context.attach k m') := by
  have helse := elsewhere_path hpath u
  have hsocks : m'.ctx.sockets = m.ctx.sockets := congrArg Surroundings.sockets helse.around
  have hnext : m'.ctx.nextUser = m.ctx.nextUser := congrArg Surroundings.nextUser helse.around
  refine h.same (Nat.le_of_eq hnext.symm) (fun k' s' hs' hu' => ?_) (helse.stream hu.symm)
    (helse.log hu.symm)
  rw [lookup_attach] at hs' ⊢
  split at hs'
  · obtain rfl := Option.some.inj hs'
    exact absurd (helse.user.symm.trans hu') hu
  · rename_i hk'
    rw [if_neg hk']
    exact (congrArg (Finmap.lookup k') hsocks).symm.trans hs'

/-- An operation runs on the socket of one key. -/
theorem Follows.withSock (h : Follows key u P ctx) (k : Key) {f : Detached → Detached}
    (hpath : ∀ m, ActPath occ [] m (f m)) (hPQ : ∀ v, P v → Q v)
    (hP : ∀ s, ctx.sockets.lookup k = some s → s.user = u → P (localOf (ctx.detach k s)) →
      Q (localOf (f (ctx.detach k s)))) : Follows key u Q (ctx.withSock k f) := by
  unfold Context.withSock
  split
  · exact h.mono hPQ
  · rename_i sock hsock
    have hatt := h
    rw [← attach_detach hsock] at hatt
    by_cases hu : sock.user = u
    · exact hatt.own hu (hpath _) (hP sock hsock hu)
    · exact (hatt.other hu (hpath _)).mono hPQ

/-- A socket that is new in the table has a cell of its own. -/
theorem Follows.born (h : Follows key u P ctx) {k : Key} {m : Detached}
    (hsocks : m.ctx.sockets = ctx.sockets) (huser : m.sock.user = ctx.nextUser)
    (hnext : m.ctx.nextUser = ctx.nextUser + 1) (hwire : m.ctx.wire = ctx.wire)
    (husers : ∃ addr, m.ctx.users = Function.update ctx.users ctx.nextUser (ConnCell.new addr)) :
    Follows key u P (Context.attach k m) := by
  have hne : u ≠ ctx.nextUser := Nat.ne_of_lt h.allocated
  obtain ⟨addr, husers⟩ := husers
  refine h.same ?_ (fun k' s' hs' hu' => ?_) ?_ (sentBy_same hwire)
  · show ctx.nextUser ≤ m.ctx.nextUser
    rw [hnext]
    exact Nat.le_succ _
  · rw [lookup_attach] at hs'
    split at hs'
    · obtain rfl := Option.some.inj hs'
      exact absurd (hu'.symm.trans huser) hne
    · rw [hsocks] at hs'
      exact hs'
  · show streams m.ctx u = _
    unfold streams
    rw [husers, Function.update_of_ne hne]

/-- An RST is in nobody's log. -/
theorem sentBy_rejectUnknown (ctx : Context) (addr : SocketAddr) (id : UInt32) (seq : UInt16) :
    sentBy u (ctx.rejectUnknown addr id seq) = sentBy u ctx := by
  unfold Context.rejectUnknown
  dsimp only
  split
  · rfl
  · split
    · rfl
    · exact (sentBy_append rfl).trans (List.append_nil _)

/-- A datagram for nobody is answered. -/
theorem Follows.reject (h : Follows key u P ctx) (addr : SocketAddr) (id : UInt32)
    (seq : UInt16) : Follows key u P (ctx.rejectUnknown addr id seq) := by
  refine h.same (Nat.le_of_eq (rejectUnknown_nextUser ..).symm) (fun k' s' hs' _ => ?_)
    (congrFun (streams_rejectUnknown ..) u) (sentBy_rejectUnknown ..)
  rw [rejectUnknown_sockets] at hs'
  exact hs'

/-- Another connection is accepted. -/
theorem Follows.accepted (h : Follows key u P ctx) {buf : Bytes} (addr : SocketAddr)
    (hty : packetType buf = stSyn) :
    Follows key u P (Context.attach (ctx.acceptSyn buf addr).sock.key
      (ctx.acceptSyn buf addr)) := by
  have hborn := h.born (k := (ctx.acceptSyn buf addr).sock.key)
    (accepting_sockets ctx buf addr) (accepting_user ctx buf addr).1
    (accepting_user ctx buf addr).2 rfl ⟨addr, (accepting_fresh ctx buf addr).2⟩
  have hpath : ActPath ⟨some buf, false, false⟩ [] (ctx.accepting buf addr)
      (ctx.acceptSyn buf addr) :=
    (path_processIncoming _ buf true rfl).silent
      (Steps.single (.ack _ true (.synack buf rfl hty)))
  exact hborn.other (Nat.ne_of_gt h.allocated) hpath

/-- What a reader of the cell leaves of a connection. -/
def Local.read (v : Local) (n : Nat) : Local :=
  { v with stream := { v.stream with readBuf := v.stream.readBuf.drop n } }

/-- What the own acts of a connection and its reader keep, every act of the
    engine keeps. -/
theorem Follows.act {l : Bytes} (h : Follows key u P ctx) (ha : EngineAct occ l ctx ctx')
    (hact : ∀ m m', Act occ l m m' → m.sock.user = u → P (localOf m) → P (localOf m'))
    (hread : ∀ v n, P v → P (v.read n)) : Follows key u P ctx' := by
  cases ha with
  | @sock k _ m m' hout hstep =>
      by_cases hu : m.sock.user = u
      · exact h.own hu (Steps.single hstep) (hact m m' hstep hu)
      · exact h.other hu (Steps.single hstep)
  | dial _ addr seed rng _ _ =>
      exact h.born (dialled_sockets ctx addr seed rng) (dialled_user ctx addr seed rng).1
        (dialled_user ctx addr seed rng).2 rfl ⟨addr, (dialled_fresh ctx addr seed rng).2⟩
  | accept _ buf addr _ _ _ =>
      exact h.born (accepting_sockets ctx buf addr) (accepting_user ctx buf addr).1
        (accepting_user ctx buf addr).2 rfl ⟨addr, (accepting_fresh ctx buf addr).2⟩
  | remove k m _ hout =>
      refine h.same (Nat.le_of_eq (destroySock_nextUser m).symm) (fun k' s' hs' _ => ?_)
        (congrFun (streams_destroySock m) u) (sentBy_same (wire_ackListRemove _))
      rw [destroySock_sockets] at hs'
      rw [lookup_attach, if_neg (fun hk => by rw [hk, hout] at hs'; exact nomatch hs')]
      exact hs'
  | reject _ buf addr _ _ _ => exact h.reject addr _ _
  | settings => exact h.same (Nat.le_refl _) (fun _ _ hs _ => hs) rfl rfl
  | takeAcks => exact h.same (Nat.le_refl _) (fun _ _ hs _ => hs) rfl rfl
  | consume _ user n =>
      -- reading takes bytes from the front of what waits
      obtain ⟨s, hfound, hP⟩ := h.found
      refine ⟨h.allocated, s, hfound, ?_⟩
      show P ⟨s, streams (ctx.onUser user _) u, _⟩
      rw [streams_onUser]
      split
      · rename_i hu
        rw [← hu]
        exact hread _ n hP
      · exact hP
  | markClosed _ user =>
      exact h.same (Nat.le_refl _) (fun _ _ hs _ => hs) (congrFun (streams_markClosed ctx user) u)
        rfl

/-- The same for a path of acts that add nothing to any stream. -/
theorem Follows.path {l : Bytes} (h : Follows key u P ctx) (hp : EnginePath occ l ctx ctx')
    (hact : ∀ m m', Act occ [] m m' → m.sock.user = u → P (localOf m) → P (localOf m'))
    (hread : ∀ v n, P v → P (v.read n)) : l = [] → Follows key u P ctx' := by
  induction hp with
  | refl _ => exact fun _ => h
  | tail _ hstep ih =>
      intro hnil
      obtain ⟨hl, rfl⟩ := List.append_eq_nil_iff.mp hnil
      exact (ih h hl).act hstep hact hread

/-! ## Operations -/

/-- The bytes an operation adds to the stream of the connection. -/
def saidBy (u : UserId) (ctx : Context) : Op → Bytes
  | .write k buf => if userAt ctx k = some u then Context.accepted ctx k buf else []
  | _ => []

/-- Does the operation hand the socket a datagram that is no reset? -/
def Hands (u : UserId) (ctx : Context) : Op → Prop
  | .processUdp buf addr _ => packetType buf ≠ stReset ∧ packetType buf ≠ stSyn
      ∧ userAt ctx { addr := addr, recvId := (connId buf).toUInt32 } = some u
  | _ => False

/-- What the acts of cell `u` on such occasions, resets and its reader keep of the
    bytes given to the connection so far and of the connection. -/
structure OwnActs (u : UserId) (when : Occasion → Prop) (P : Bytes → Local → Prop) : Prop where
  act : ∀ occ acc l m m', when occ → Act occ l m m' → m.sock.user = u → P acc (localOf m) →
    P (acc ++ l) (localOf m')
  reset : ∀ acc m, m.sock.user = u → P acc (localOf m) → P acc (localOf (Context.resetSock m))
  read : ∀ acc v n, P acc v → P acc (v.read n)

/-- An act of the own socket that accepts no bytes. -/
theorem OwnActs.silent {when : Occasion → Prop} {P : Bytes → Local → Prop} (h : OwnActs u when P)
    (hocc : when occ) (acc : Bytes) {m m' : Detached} (ha : Act occ [] m m')
    (hu : m.sock.user = u) (hP : P acc (localOf m)) : P acc (localOf m') := by
  have hnew := h.act occ acc [] m m' hocc ha hu hP
  rwa [List.append_nil] at hnew

/-- A path of own acts. -/
theorem OwnActs.path {when : Occasion → Prop} {P : Bytes → Local → Prop} (h : OwnActs u when P)
    (hocc : when occ) {l : Bytes} {m m' : Detached} (hp : ActPath occ l m m')
    (hu : m.sock.user = u) : ∀ acc, P acc (localOf m) → P (acc ++ l) (localOf m') := by
  induction hp with
  | refl _ =>
      intro acc hP
      rwa [List.append_nil]
  | tail hprev hstep ih =>
      intro acc hP
      rw [← List.append_assoc]
      refine h.act _ _ _ _ _ hocc hstep ?_ (ih hu acc hP)
      exact (elsewhere_path hprev u).user.trans hu

/-- A datagram comes in: it is for somebody else, or a reset, or handed over. -/
theorem follows_processUdp {buf : Bytes} {addr : SocketAddr} {firewall : SocketAddr → Bool}
    (h : Follows key u P ctx) (hPQ : ∀ v, P v → Q v)
    (hreset : packetType buf = stReset → ∀ m, m.sock.user = u → P (localOf m) →
      Q (localOf (Context.resetSock m)))
    (hin : Hands u ctx (.processUdp buf addr firewall) → ∀ m, m.sock.user = u →
      P (localOf m) → Q (localOf (m.processIncoming buf false).1)) :
    Follows key u Q (ctx.processUdp buf addr firewall).1 := by
  have hsame : Follows key u Q ctx := h.mono hPQ
  unfold Context.processUdp
  dsimp only
  split
  · exact hsame
  · split
    · exact hsame
    · split
      · exact hsame
      · split
        · -- an RST ends it
          rename_i hrst
          split
          · have hpath : ∀ m : Detached,
                ActPath ⟨some buf, false, false⟩ [] m (Context.resetSock m) :=
              fun m => Steps.single (Act.reset m buf rfl hrst)
            exact h.withSock _ hpath hPQ (fun s _ hu hP => hreset hrst _ hu hP)
          · exact hsame
        · rename_i hrst
          split
          · -- the datagram is handed to it, or to another connection
            rename_i hknown
            have hpath : ∀ m : Detached,
                ActPath ⟨some buf, false, false⟩ [] m (m.processIncoming buf false).1 :=
              fun m => path_processIncoming m buf false rfl
            refine h.withSock _ hpath hPQ (fun s hs hu hP => ?_)
            refine hin ⟨hrst, hknown.1, ?_⟩ _ hu hP
            show (ctx.sockets.lookup _).map _ = _
            rw [hs, Option.map_some, hu]
          · split
            · exact hsame.reject addr _ _
            · rename_i hsyn
              split
              · exact hsame
              · split
                · exact hsame
                · split
                  · -- a SYN makes another user
                    exact hsame
                  · exact hsame.accepted addr (not_not.mp hsyn)

/-- No datagram reaches the socket. -/
def Calm (occ : Occasion) : Prop := occ.datagram = none

/-- A write: it is for the own socket, or for another one. -/
theorem follows_write {when : Occasion → Prop} {P : Bytes → Local → Prop} {acc : Bytes}
    (h : Follows key u (P acc) ctx) (hown : OwnActs u when P) (hwhen : when ⟨none, false, false⟩)
    (k : Key) (buf : Bytes) :
    Follows key u (P (acc ++ saidBy u ctx (.write k buf))) (ctx.write k buf).1 := by
  unfold saidBy userAt Context.accepted Context.write
  cases hs : ctx.sockets.lookup k with
  | none =>
      simp only [hs, Option.map_none, reduceCtorEq, if_false, List.append_nil]
      exact h
  | some sock =>
      have hatt := h
      rw [← attach_detach hs] at hatt
      have hpath : ActPath ⟨none, false, false⟩ _ (ctx.detach k sock)
          ((ctx.detach k sock).writeEngine buf).1 :=
        ActPath.ofTx (path_writeEngine (ctx.detach k sock) buf).2.1
      simp only [hs, Option.map_some, Option.getD_some]
      by_cases hu : sock.user = u
      · rw [if_pos (congrArg some hu)]
        exact hatt.own hu hpath (hown.path hwhen hpath hu acc)
      · rw [if_neg (fun he => hu (Option.some.inj he)), List.append_nil]
        exact hatt.other hu hpath

/-- **THE RULE FOR ONE CONNECTION**: what its own acts keep, every operation
    keeps that hands its socket no datagram. -/
theorem follows_step {when : Occasion → Prop} {P : Bytes → Local → Prop} {acc : Bytes} {op : Op}
    (h : Follows key u (P acc) ctx) (hown : OwnActs u when P)
    (hwhen : Calm (Op.occasion op) → when (Op.occasion op))
    (hstep : ctx.step op = some ctx') (hfree : ¬ Hands u ctx op) :
    Follows key u (P (acc ++ saidBy u ctx op)) ctx' := by
  have hquiet : Calm (Op.occasion op) → Op.accepted ctx op = [] →
      Follows key u (P (acc ++ [])) ctx' := by
    intro hcalm hnil
    have hpath := path_step hstep
    rw [hnil] at hpath
    rw [List.append_nil]
    exact h.path hpath (fun m m' ha hu => hown.silent (hwhen hcalm) acc ha hu) (hown.read acc) rfl
  cases op with
  | processUdp buf addr firewall =>
      obtain rfl := Option.some.inj hstep
      show Follows key u (P (acc ++ [])) _
      rw [List.append_nil]
      exact follows_processUdp h (fun _ => id) (fun _ m => hown.reset acc m)
        (fun hin => absurd hin hfree)
  | write k buf =>
      obtain rfl := Option.some.inj hstep
      exact follows_write h hown (hwhen rfl) k buf
  | _ => exact hquiet rfl rfl

/-! ## Connections without a socket -/

/-- No socket serves cell `u`. -/
def Gone (u : UserId) (ctx : Context) : Prop :=
  ∀ k s, ctx.sockets.lookup k = some s → s.user ≠ u

/-- The connection of cell `u` has no socket any more, and had `P`. -/
def Past (u : UserId) (P : Local → Prop) (v : Local) : Prop :=
  v.sock.user ≠ u ∧ ∃ s, P { v with sock := s }

/-- A connection that is gone is followed by what it was. -/
theorem Follows.past (h : Follows key u P ctx) (hgone : Gone u ctx) :
    Follows key u (Past u P) ctx := by
  obtain ⟨s, -, hP⟩ := h.found
  refine ⟨h.allocated, { s with user := u + 1 }, fun k s' hs' hu => absurd hu (hgone k s' hs'),
    Nat.succ_ne_self u, s, hP⟩

theorem Follows.of_past (h : Follows key u (Past u P) ctx) :
    Follows key u P ctx ∧ Gone u ctx := by
  obtain ⟨s, hfound, hu, s', hP⟩ := h.found
  have hgone : Gone u ctx := by
    rintro k s₁ hs₁ rfl
    exact hu (congrArg UtpSock.user (hfound k s₁ hs₁ rfl).2).symm
  exact ⟨⟨h.allocated, s', fun k s₁ hs₁ hu₁ => absurd hu₁ (hgone k s₁ hs₁), hP⟩, hgone⟩

/-- A connection that is gone acts no more. -/
theorem past_acts (when : Occasion → Prop) (hread : ∀ v n, P v → P (v.read n)) :
    OwnActs u when (fun _ => Past u P) where
  act := fun _ _ _ _ _ _ _ hu h => absurd hu h.1
  reset := fun _ _ hu h => absurd hu h.1
  read := fun _ v n h => ⟨h.1, h.2.imp (fun s hP => hread { v with sock := s } n hP)⟩

/-- Nothing brings it back. -/
theorem gone_step {op : Op} (h : Follows key u P ctx) (hgone : Gone u ctx)
    (hread : ∀ v n, P v → P (v.read n)) (hstep : ctx.step op = some ctx') :
    Follows key u P ctx' ∧ Gone u ctx' := by
  refine Follows.of_past (@follows_step key u ctx ctx' Calm (fun _ => Past u P) [] op
    (h.past hgone) (past_acts Calm hread) id hstep ?_)
  cases op with
  | processUdp buf addr firewall =>
      rintro ⟨-, -, hat⟩
      obtain ⟨s, hs, hu⟩ := Option.map_eq_some_iff.mp hat
      exact hgone _ s hs hu
  | _ => exact id

/-- The sweep over the ack list passes by a connection that is not on it. -/
theorem Follows.sweep (h : Follows key u P ctx) (hlisted : Listed ctx)
    (hflag : ∀ v, P v → v.sock.inAckList = false) : Follows key u P ctx.issueDeferredAcks := by
  have hloop : ∀ {R : Local → Prop} (keys : List Key) (c : Context),
      (∀ k ∈ keys, ∀ m : Detached, k = key → m.sock.user = u → ¬ R (localOf m)) →
      Follows key u R c → Follows key u R (keys.foldl Context.issueAck c) := by
    intro R keys
    induction keys with
    | nil => exact fun _ _ hc => hc
    | cons k rest ih =>
        intro c hnot hc
        refine ih _ (fun k' hk' => hnot k' (List.mem_cons_of_mem _ hk')) ?_
        have hpath : ∀ m : Detached, ActPath ⟨none, true, false⟩ [] m
            (({ m with sock := { m.sock with inAckList := false } }).sendAck false) :=
          fun m => (Steps.single (Act.unlist m rfl)).silent
            (Steps.single (.ack _ false (.due rfl)))
        refine hc.withSock k hpath (fun _ => id) (fun s hs hu hR => ?_)
        exact absurd hR (hnot k (List.mem_cons_self ..) _ (hc.here hs hu).1 hu)
  have hstart : ∀ {R : Local → Prop}, Follows key u R ctx →
      Follows key u R { ctx with ackList := [] } :=
    fun hR => hR.same (Nat.le_refl _) (fun _ _ hs _ => hs) rfl rfl
  by_cases hkey : key ∈ ctx.ackList
  · -- the key belongs to another socket by now
    obtain ⟨s, hs, hon⟩ := (hlisted.mem key).mp hkey
    have hgone : Gone u ctx := by
      intro k s' hs' hu
      obtain ⟨rfl, hP⟩ := h.here hs' hu
      obtain rfl := Option.some.inj (hs.symm.trans hs')
      exact nomatch (hflag _ hP).symm.trans hon
    refine (Follows.of_past (hloop ctx.ackList _ (fun _ _ m _ hu hR => hR.1 hu)
      (hstart (h.past hgone)))).1
  · exact hloop ctx.ackList _ (fun k hk _ he => absurd (he ▸ hk) hkey) (hstart h)

end UtpConnection
