import RustUtp.Calling
import RustUtp.Handles

/-! # Two engines and a network

    A connection between two engines: one side dials, the other accepts the SYN
    of that dial.  Both engines go on with all their other business, and the
    network loses, delays, duplicates and reorders datagrams as it likes.  What
    the two ends of the connection are handed is what their peers have sent,
    and not too late: a 16-bit number says little after `2 ^ 16` packets.  SYNs
    and resets may come from anybody.

    In every run of the two, what one application has been handed is a prefix
    of what the other has written. -/

namespace UtpLink

open UtpCircular UtpPacket UtpUtil UtpConnShared UtpEngine UtpEngine.Detached UtpActs
  UtpDatagrams UtpEmissions UtpSendQueue UtpRecvQueue UtpReceive UtpEof UtpSends UtpTakes
  UtpConnection UtpLifecycle UtpEnds UtpAckList UtpCalling UtpHandles LabelledPath SlidingWindow

/-! ## The two sides -/

/-- A datagram a socket has sent, with the packets the socket had queued and
    taken before the operation that sent it. -/
structure Parcel where
  bytes : Bytes
  queued : Nat
  taken : Nat

/-- An engine with one of its connections, and what has been observed of it. -/
structure Side where
  ctx : Context
  key : Key
  user : UserId
  /-- the packets that its socket has queued so far -/
  queued : Nat
  /-- the packets that its socket has taken in order so far -/
  taken : Nat
  /-- the bytes that its writes have accepted so far -/
  said : Bytes
  /-- everything that its socket has sent so far -/
  sent : List Parcel

namespace Side

/-- A connection right after the operation that made it. -/
def new (ctx : Context) (key : Key) (user : UserId) : Side where
  ctx := ctx
  key := key
  user := user
  queued := 0
  taken := 0
  said := []
  sent := (sentBy user ctx).map (fun d => ⟨d, 0, 0⟩)

/-- The socket of the connection, as long as there is one. -/
def socket (a : Side) (ctx : Context) : Option UtpSock :=
  (ctx.sockets.lookup a.key).filter (fun s => s.user = a.user)

/-- How far `seq_nr` gets. -/
def queuedBy : Option UtpSock → Option UtpSock → Nat
  | some s, some s' => (s'.seqNr - s.seqNr).toNat
  | _, _ => 0

/-- How far `ack_nr` gets, which means nothing before the dial is answered. -/
def takenBy : Option UtpSock → Option UtpSock → Nat
  | some s, some s' => if s.state = .synSent then 0 else (s'.ackNr - s.ackNr).toNat
  | _, _ => 0

/-- The side after operation `op`, which led to `ctx'`. -/
def after (a : Side) (op : Op) (ctx' : Context) : Side :=
  { a with
    ctx := ctx'
    queued := a.queued + queuedBy (a.socket a.ctx) (a.socket ctx')
    taken := a.taken + takenBy (a.socket a.ctx) (a.socket ctx')
    said := a.said ++ saidBy a.user a.ctx op
    sent := a.sent ++ ((sentBy a.user ctx').drop (sentBy a.user a.ctx).length).map
      (fun d => ⟨d, a.queued, a.taken⟩) }

/-- All bytes that its application has been handed. -/
def got (a : Side) : Bytes := (streams a.ctx a.user).bytes

/-- How often its application has been told of the end of the stream. -/
def eofs (a : Side) : Nat := (streams a.ctx a.user).eofs

end Side

/-- Its sender has not got too far ahead since. -/
def Parcel.Fresh (e : Parcel) (sender : Side) : Prop :=
  sender.queued ≤ e.queued + 32768 ∧ sender.taken ≤ e.taken + 32768

instance (e : Parcel) (sender : Side) : Decidable (e.Fresh sender) :=
  inferInstanceAs (Decidable (_ ∧ _))

/-- The datagram that comes in is one that `sender` has sent. -/
def Genuine (sender : Side) : Op → Prop
  | .processUdp buf _ _ => ∃ e ∈ sender.sent, e.bytes = buf ∧ e.Fresh sender
  | _ => True

/-- A dialled side that has not been handed anything. -/
inductive Dials : Side → Prop where
  | connect {ctx ctx' : Context} {addr : SocketAddr} {fuel : Nat} {key : Key} {user : UserId}
      (hreach : Reachable ctx) (h : ctx.connect addr fuel = some (ctx', key, user)) :
      Dials (Side.new ctx' key user)
  | step {a : Side} {ctx' : Context} (op : Op) (h : Dials a) (hstep : a.ctx.step op = some ctx')
      (hfree : ¬ Hands a.user a.ctx op) : Dials (a.after op ctx')

/-- A side that has accepted a SYN of `a`. -/
inductive Accepts (a : Side) : Side → Prop where
  | syn {ctx : Context} {e : Parcel} {addr : SocketAddr} {firewall : SocketAddr → Bool} {key : Key}
      {user : UserId} (hreach : Reachable ctx) (hsent : e ∈ a.sent)
      (h : (ctx.processUdp e.bytes addr firewall).2 = .accepted key user) :
      Accepts a (Side.new (ctx.processUdp e.bytes addr firewall).1 key user)

/-- The runs of a connection: `a` dials, `b` accepts, and both go on, in any
    order. -/
inductive Runs : Side → Side → Prop where
  | start {a b : Side} (ha : Dials a) (hb : Accepts a b) : Runs a b
  | left {a b : Side} {ctx' : Context} (op : Op) (h : Runs a b) (hstep : a.ctx.step op = some ctx')
      (hnet : Hands a.user a.ctx op → Genuine b op) : Runs (a.after op ctx') b
  | right {a b : Side} {ctx' : Context} (op : Op) (h : Runs a b)
      (hstep : b.ctx.step op = some ctx') (hnet : Hands b.user b.ctx op → Genuine a op) :
      Runs a (b.after op ctx')

/-! ## What a side has sent -/

variable {a b : Side} {ctx ctx' : Context} {op : Op} {key : Key} {u : UserId}
  {tout tin tout' tin' : Transfer UInt8} {P Q : Local → Prop}

/-- What was sent stays sent. -/
theorem sentBy_grows (hstep : ctx.step op = some ctx') (u : UserId) :
    sentBy u ctx <+: sentBy u ctx' :=
  ((explained_path (path_step hstep)).grows.filter _).map _

/-- The parcels are what the socket has sent. -/
def Side.Logged (a : Side) : Prop := a.sent.map (·.bytes) = sentBy a.user a.ctx

/-- A side starts with an empty log. -/
theorem Side.Logged.new (ctx : Context) (key : Key) (user : UserId) :
    (Side.new ctx key user).Logged := by
  unfold Side.Logged Side.new
  rw [List.map_map]
  exact List.map_id _

/-- The log goes along with an operation. -/
theorem Side.Logged.after (h : a.Logged) (hstep : a.ctx.step op = some ctx') :
    (a.after op ctx').Logged := by
  obtain ⟨new, hnew⟩ := sentBy_grows hstep a.user
  show (a.sent ++ _).map _ = sentBy a.user ctx'
  rw [← hnew, List.drop_left, List.map_append, h, List.map_map]
  exact congrArg (sentBy a.user a.ctx ++ ·) (List.map_id _)

/-- A parcel is an old one, or has just been sent. -/
theorem Side.mem_after {new : List Bytes} {e : Parcel}
    (hnew : sentBy a.user ctx' = sentBy a.user a.ctx ++ new)
    (he : e ∈ (a.after op ctx').sent) :
    e ∈ a.sent ∨ e.bytes ∈ new ∧ e.queued = a.queued ∧ e.taken = a.taken := by
  change e ∈ a.sent ++ _ at he
  rw [hnew, List.drop_left] at he
  rcases List.mem_append.mp he with hold | hfresh
  · exact .inl hold
  · obtain ⟨d, hd, rfl⟩ := List.mem_map.mp hfresh
    exact .inr ⟨hd, rfl, rfl⟩

/-- A parcel of the log was sent. -/
theorem Side.Logged.mem (h : a.Logged) {e : Parcel} (he : e ∈ a.sent) :
    e.bytes ∈ sentBy a.user a.ctx := by
  rw [← h]
  exact List.mem_map_of_mem he

/-! ## What a side has queued and taken -/

/-- The socket of a side is listed under its key and has its cell. -/
theorem Side.socket_eq {s : UtpSock} :
    a.socket ctx = some s ↔ ctx.sockets.lookup a.key = some s ∧ s.user = a.user := by
  unfold Side.socket
  rw [Option.filter_eq_some_iff, decide_eq_true_eq]

/-- The connection of a side is under its key, or has no socket. -/
theorem Side.gone (h : Follows a.key a.user P ctx) (hnone : a.socket ctx = none) :
    Gone a.user ctx := by
  intro k s hs hu
  obtain ⟨rfl, -⟩ := h.here hs hu
  exact nomatch hnone.symm.trans (Side.socket_eq.mpr ⟨hs, hu⟩)

/-- A side whose connection is gone has no socket. -/
theorem Side.socket_gone (hgone : Gone a.user ctx) : a.socket ctx = none := by
  refine Option.eq_none_iff_forall_not_mem.mpr (fun s hs => ?_)
  obtain ⟨hlook, hu⟩ := Side.socket_eq.mp hs
  exact hgone _ s hlook hu

/-- The 16-bit numbers of an end that stands abbreviate those of its transfers.
    -/
theorem Stood.numbers {acc : Bytes} {v : Local} (h : Stood tout tin acc v) :
    v.sock.seqNr = UInt16.ofNat tout.next ∧ v.sock.ackNr = UInt16.ofNat tin.ack := by
  obtain ⟨lo, f, hq⟩ := h.1.sends
  obtain ⟨g, hbody, -⟩ := h.1.takes
  refine ⟨?_, hbody.ack⟩
  rw [hq.next]
  exact hq.seq

/-- How far a number gets that stays close. -/
theorem ofNat_diff {x y : Nat} (hle : x ≤ y) (hnear : y < x + 65536) :
    (UInt16.ofNat y - UInt16.ofNat x).toNat = y - x := by
  rw [SeqNum.toNat_ofNat_sub hle]
  exact Nat.mod_eq_of_lt (by omega)

/-- The packets that may go uncounted when the socket goes. -/
def Side.slack (a : Side) : Nat := if (a.socket a.ctx).isSome then 0 else 2100

/-- The two counts of a side are those of its transfers. -/
structure Counted (tout tin : Transfer UInt8) (a : Side) : Prop where
  queued : tout.first + 1 + a.queued ≤ tout.next
  taken : tin.first + a.taken ≤ tin.ack
  lateQueued : tout.next ≤ tout.first + 1 + a.queued + a.slack
  lateTaken : tin.ack ≤ tin.first + a.taken + a.slack

/-- How far an operation of one end moves the numbers. -/
theorem grown_near (hout : SenderGrows tout tout') (hin : ReceiverGrows tin tin')
    (hsout : Sound 1024 tout) (hsout' : Sound 1024 tout') (hsin : Sound 1024 tin)
    (hsin' : Sound 1024 tin') :
    tout'.next ≤ tout.next + 2049 ∧ tin'.ack ≤ tin.ack + 2049 := by
  have hnear := hsout'.near
  have hbehind := hsout.behind
  have hbehind' := hsin'.behind
  have hnear' := hsin.near
  rw [hout.ack] at hnear
  rw [hin.next] at hbehind'
  omega

/-- The counters go along with an operation: no step moves a number by half its
    space. -/
theorem Counted.after (h : Counted tout tin a) (hout : SenderGrows tout tout')
    (hin : ReceiverGrows tin tin')
    (hnear : tout'.next ≤ tout.next + 2049 ∧ tin'.ack ≤ tin.ack + 2049)
    (hbefore : (a.socket a.ctx).isSome = true)
    (hcounts : ∀ s', a.socket ctx' = some s' →
      Side.queuedBy (a.socket a.ctx) (a.socket ctx') = tout'.next - tout.next
        ∧ Side.takenBy (a.socket a.ctx) (a.socket ctx') = tin'.ack - tin.ack) :
    Counted tout' tin' (a.after op ctx') := by
  obtain ⟨hqueued, htaken, hlateQ, hlateT⟩ := h
  rw [show a.slack = 0 from if_pos hbefore] at hlateQ hlateT
  have hnext := hout.next
  have hack := hin.ack
  rw [← hout.first] at hqueued hlateQ
  rw [← hin.first] at htaken hlateT
  have hq : (a.after op ctx').queued
      = a.queued + Side.queuedBy (a.socket a.ctx) (a.socket ctx') := rfl
  have ht : (a.after op ctx').taken = a.taken + Side.takenBy (a.socket a.ctx) (a.socket ctx') := rfl
  cases hs' : a.socket ctx' with
  | none =>
      -- the connection has ended: its counters stop, and the slack takes over
      have hslack : (a.after op ctx').slack = 2100 := if_neg (by
        show ¬ (a.socket ctx').isSome = true
        rw [hs']
        exact Bool.false_ne_true)
      have hq₀ : Side.queuedBy (a.socket a.ctx) (a.socket ctx') = 0 := by
        rw [hs']
        cases a.socket a.ctx <;> rfl
      have ht₀ : Side.takenBy (a.socket a.ctx) (a.socket ctx') = 0 := by
        rw [hs']
        cases a.socket a.ctx <;> rfl
      constructor <;> omega
  | some s' =>
      -- it lives on: the counters move exactly with the numbers
      obtain ⟨hq₁, ht₁⟩ := hcounts s' hs'
      have hslack : (a.after op ctx').slack = 0 := if_pos (by
        show (a.socket ctx').isSome = true
        rw [hs']
        rfl)
      constructor <;> omega

/-! ## A side that stands -/

/-- The side is the sending end of `tout` and the receiving end of `tin`, and
    its datagrams are true. -/
structure Kept (tout tin : Transfer UInt8) (a : Side) : Prop where
  follows : Follows a.key a.user (Stood tout tin a.said) a.ctx
  logged : a.Logged
  honest : ∀ e ∈ a.sent,
    Honest tout tin (tout.first + 1 + e.queued) (tin.first + e.taken) e.bytes
  counted : Counted tout tin a

/-- Both transfers of a side are sound. -/
theorem Kept.sound (h : Kept tout tin a) : Sound 1024 tout ∧ Sound 1024 tin := by
  obtain ⟨s, -, hstands, -⟩ := h.follows.found
  exact ⟨hstands.soundOut, hstands.soundIn⟩

/-- What the socket is, as long as it is there. -/
theorem follows_socket (h : Follows a.key a.user P ctx) {s : UtpSock}
    (hs : a.socket ctx = some s) : P ⟨s, streams ctx a.user, sentBy a.user ctx⟩ := by
  obtain ⟨hlook, hu⟩ := Side.socket_eq.mp hs
  exact (h.here hlook hu).2

/-- Without a socket the application can write nothing. -/
theorem saidBy_gone (hgone : Gone u ctx) (op : Op) : saidBy u ctx op = [] := by
  unfold saidBy
  split
  · rename_i k buf
    refine if_neg (fun hat => ?_)
    obtain ⟨s, hs, hu⟩ := Option.map_eq_some_iff.mp hat
    exact hgone k s hs hu
  · rfl

/-- A read leaves the transfers. -/
theorem Stood.read {acc : Bytes} {v : Local} (h : Stood tout tin acc v) (n : Nat) :
    Stood tout tin acc (v.read n) :=
  ⟨{ h.1 with takes := h.1.takes.of_view rfl rfl rfl }, h.2⟩

/-- An old parcel stays true, and so is a new one. -/
theorem Kept.honest_after (h : Kept tout tin a) (hout : SenderGrows tout tout')
    (hin : ReceiverGrows tin tin') {new : List Bytes}
    (hnew : sentBy a.user ctx' = sentBy a.user a.ctx ++ new)
    (hhonest : ∀ d ∈ new, Honest tout' tin' tout.next tin.ack d) {e : Parcel}
    (he : e ∈ (a.after op ctx').sent) :
    Honest tout' tin' (tout'.first + 1 + e.queued) (tin'.first + e.taken) e.bytes := by
  rw [hout.first, hin.first]
  rcases Side.mem_after hnew he with hold | ⟨hd, hq, ht⟩
  · exact (h.honest e hold).own h.sound.1 hout hin
  · rw [hq, ht]
    exact (hhonest _ hd).older h.counted.queued h.counted.taken

/-- A connection without a socket stays as it is. -/
theorem Kept.idle (h : Kept tout tin a) (hnone : a.socket a.ctx = none)
    (hstep : a.ctx.step op = some ctx') : Kept tout tin (a.after op ctx') := by
  have hgone := Side.gone h.follows hnone
  have hstart : Follows a.key a.user
      (fun v => Stood tout tin a.said v ∧ v.log = sentBy a.user a.ctx) a.ctx := by
    obtain ⟨s, hfound, hP⟩ := h.follows.found
    exact ⟨h.follows.allocated, s, hfound, hP, rfl⟩
  -- nobody holds the key, and nobody will hold it for this user again
  obtain ⟨hnew, hgone'⟩ := gone_step hstart hgone (fun _ n hv => ⟨Stood.read hv.1 n, hv.2⟩) hstep
  obtain ⟨s, hfound, hstood, hlog⟩ := hnew.found
  have hnone' := Side.socket_gone hgone'
  have hcounts : (a.after op ctx').queued = a.queued ∧ (a.after op ctx').taken = a.taken := by
    show a.queued + Side.queuedBy (a.socket a.ctx) (a.socket ctx') = _
      ∧ a.taken + Side.takenBy (a.socket a.ctx) (a.socket ctx') = _
    rw [hnone]
    exact ⟨rfl, rfl⟩
  have hslack : (a.after op ctx').slack = a.slack := by
    show (if (a.socket ctx').isSome then 0 else 2100) = if _ then _ else _
    rw [hnone, hnone']
  refine ⟨⟨hnew.allocated, s, hfound, ?_⟩, h.logged.after hstep, fun e he => ?_, ?_⟩
  · show Stood tout tin (a.said ++ saidBy a.user a.ctx op) _
    rw [saidBy_gone hgone, List.append_nil]
    exact hstood
  · -- a removed connection sends nothing
    have hsame : sentBy a.user ctx' = sentBy a.user a.ctx ++ [] :=
      hlog.trans (List.append_nil _).symm
    exact h.honest_after (SenderGrows.refl _) (ReceiverGrows.refl _) hsame
      (fun d hd => (List.not_mem_nil hd).elim) he
  · obtain ⟨hq, ht, hlq, hlt⟩ := h.counted
    constructor
    · rw [hcounts.1]
      exact hq
    · rw [hcounts.2]
      exact ht
    · rw [hcounts.1, hslack]
      exact hlq
    · rw [hcounts.2, hslack]
      exact hlt

/-- **A SIDE THAT STANDS KEEPS STANDING**, and moves the two transfers on. -/
theorem Kept.step (h : Kept tout tin a) (hstep : a.ctx.step op = some ctx')
    (htrue : Truthfully a.user tout tin a.ctx op) :
    ∃ tout' tin', SenderGrows tout tout' ∧ ReceiverGrows tin tin'
      ∧ Kept tout' tin' (a.after op ctx') := by
  cases hs : a.socket a.ctx with
  | none => exact ⟨tout, tin, SenderGrows.refl _, ReceiverGrows.refl _, h.idle hs hstep⟩
  | some s =>
      obtain ⟨tout', tin', hout, hin, hfollows, new, hnew, hhonest⟩ :=
        stood_step h.follows hstep htrue
      obtain ⟨s₁, -, hstood₁⟩ := hfollows.found
      have hnear := grown_near hout hin h.sound.1 hstood₁.1.soundOut h.sound.2 hstood₁.1.soundIn
      have hold := follows_socket h.follows hs
      refine ⟨tout', tin', hout, hin, hfollows, h.logged.after hstep,
        fun e he => h.honest_after hout hin hnew hhonest he,
        h.counted.after hout hin hnear (by rw [hs]; rfl) (fun s' hs' => ?_)⟩
      -- the distance of the 16-bit numbers is the unbounded one, for one step moves them little
      obtain ⟨hseq, hack⟩ := Stood.numbers hold
      obtain ⟨hseq', hack'⟩ :=
        Stood.numbers (follows_socket hfollows hs')
      rw [hs, hs']
      constructor
      · show (s'.seqNr - s.seqNr).toNat = _
        rw [show s'.seqNr = _ from hseq', show s.seqNr = _ from hseq]
        exact ofNat_diff hout.next (by omega)
      · -- not in SynSent, so the number taken is a real one
        show (if s.state = .synSent then 0 else (s'.ackNr - s.ackNr).toNat) = _
        rw [if_neg hold.2, show s'.ackNr = _ from hack', show s.ackNr = _ from hack]
        exact ofNat_diff hin.ack (by omega)

/-- What the peer does moves the transfers on, too. -/
theorem Kept.peer (h : Kept tin tout b) (hout : SenderGrows tout tout')
    (hin : ReceiverGrows tin tin') (hsout : Sound 1024 tout') (hsin : Sound 1024 tin') :
    Kept tin' tout' b := by
  have hsound := h.sound
  refine ⟨h.follows.mono (fun v hv => ⟨⟨hsin, hsout, ?_, hv.1.sends.receiver hin,
      hv.1.takes.sender hsound.2 hout, ?_, fun hst => absurd hst hv.2⟩, hv.2⟩), h.logged,
    fun e he => ?_, ?_⟩
  · rw [hout.first]
    exact hv.1.positive
  · exact hin.said.trans hv.1.said
  · rw [hout.first, hin.first]
    exact (h.honest e he).peer hin hout
  · obtain ⟨hq, ht, hlq, hlt⟩ := h.counted
    constructor
    · rw [hin.first, hin.next]
      exact hq
    · rw [hout.first, hout.ack]
      exact ht
    · rw [hin.first, hin.next]
      exact hlq
    · rw [hout.first, hout.ack]
      exact hlt

/-- A datagram of a side that stands tells its peer the truth, unless it is too
    old. -/
theorem Kept.delivered (h : Kept tout tin a) {e : Parcel} (he : e ∈ a.sent) (hfresh : e.Fresh a)
    (hty : packetType e.bytes ≠ stSyn) : Delivered tin tout e.bytes := by
  obtain ⟨hlateQ, hlateT⟩ := And.intro h.counted.lateQueued h.counted.lateTaken
  have hslack : a.slack ≤ 2100 := by
    unfold Side.slack
    split <;> omega
  obtain ⟨hfreshQ, hfreshT⟩ := hfresh
  rcases h.honest e he with hsyn | htrue
  · exact absurd hsyn hty
  · obtain ⟨k, hnum, hle, hnear, hmask⟩ := htrue.acks
    refine ⟨⟨k, hnum, hle, by omega, hmask⟩, fun hne => ?_⟩
    obtain ⟨n, hships, hclose⟩ := htrue.carries hne
    exact ⟨n, hships, by omega⟩

/-! ## A side that calls -/

/-- The side has dialled and has not been answered: it has sent its SYN, and
    nothing else. -/
structure Calling (t : Transfer UInt8) (a : Side) : Prop where
  reach : Reachable a.ctx
  sound : Sound 1024 t
  one : t.next = t.first + 1
  follows : Follows a.key a.user (Called t a.said) a.ctx
  logged : a.Logged
  uncounted : a.queued = 0 ∧ a.taken = 0

/-- What it has sent are SYNs. -/
theorem Calling.syn (h : Calling tout a) {e : Parcel} (he : e ∈ a.sent) :
    packetType e.bytes = stSyn ∧ seqNr e.bytes = UInt16.ofNat tout.first := by
  obtain ⟨s, -, -, hcalls⟩ := h.follows.found
  exact hcalls.log _ (h.logged.mem he)

/-- The 16-bit numbers of an end that calls. -/
theorem Calls.numbers {v : Local} (h : Calls tout v) :
    v.sock.seqNr = UInt16.ofNat tout.next ∧ v.sock.ackNr = 0 := by
  obtain ⟨lo, f, hq⟩ := h.sends
  refine ⟨?_, congrArg TakeView.ackNr h.fresh⟩
  rw [hq.next]
  exact hq.seq

/-- A side that calls on is still uncounted. -/
theorem Calling.uncounted_after (h : Calling tout a) {acc : Bytes}
    (hnew : Follows a.key a.user (Called tout acc) ctx') :
    (a.after op ctx').queued = 0 ∧ (a.after op ctx').taken = 0 := by
  have hzero : Side.queuedBy (a.socket a.ctx) (a.socket ctx') = 0
      ∧ Side.takenBy (a.socket a.ctx) (a.socket ctx') = 0 := by
    cases hs : a.socket a.ctx with
    | none => exact ⟨rfl, rfl⟩
    | some s =>
        cases hs' : a.socket ctx' with
        | none => exact ⟨rfl, rfl⟩
        | some s' =>
            obtain ⟨hseq, hack⟩ := Calls.numbers (follows_socket h.follows hs).2
            obtain ⟨hseq', hack'⟩ := Calls.numbers (follows_socket hnew hs').2
            constructor
            · show (s'.seqNr - s.seqNr).toNat = 0
              rw [show s'.seqNr = _ from hseq', show s.seqNr = _ from hseq, UInt16.sub_self]
              rfl
            · show (if s.state = .synSent then 0 else (s'.ackNr - s.ackNr).toNat) = 0
              rw [show s'.ackNr = _ from hack', show s.ackNr = _ from hack]
              split <;> rfl
  show a.queued + Side.queuedBy (a.socket a.ctx) (a.socket ctx') = 0
    ∧ a.taken + Side.takenBy (a.socket a.ctx) (a.socket ctx') = 0
  rw [hzero.1, hzero.2, h.uncounted.1, h.uncounted.2]
  exact ⟨rfl, rfl⟩

/-- A side that calls goes on calling until it hears something. -/
theorem Calling.step (h : Calling tout a) (hstep : a.ctx.step op = some ctx')
    (hfree : ¬ Hands a.user a.ctx op) : Calling tout (a.after op ctx') := by
  have hnew := called_step h.reach h.follows h.sound h.one hstep hfree
  exact ⟨h.reach.step op hstep, h.sound, h.one, hnew, h.logged.after hstep,
    h.uncounted_after hnew⟩

/-- What the accepting end does. -/
theorem Calling.peer (h : Calling tout a) (hgrow : ReceiverGrows tout tout')
    (hsound : Sound 1024 tout') : Calling tout' a := by
  refine ⟨h.reach, hsound, ?_, h.follows.mono (fun v hv => ⟨hv.1, ?_⟩), h.logged, h.uncounted⟩
  · rw [hgrow.next, hgrow.first]
    exact h.one
  · have hcalls := hv.2
    refine ⟨hcalls.state, hcalls.sends.receiver hgrow, hcalls.fresh, hcalls.nothing,
      hcalls.window, hcalls.unlisted, ?_⟩
    rw [hgrow.first]
    exact hcalls.log

/-! ## The answer -/

/-- A connection, together with what it is at the moment. -/
theorem Follows.pinned (h : Follows key u P ctx) :
    Follows key u (fun v => P v ∧ v.log = sentBy u ctx
      ∧ ∀ k s, ctx.sockets.lookup k = some s → s.user = u → v.sock = s) ctx := by
  obtain ⟨s, hfound, hP⟩ := h.found
  exact ⟨h.allocated, s, hfound, hP, rfl, fun k s' hs' hu => (hfound k s' hs' hu).2.symm⟩

/-- What a dialled side makes of the answer: it calls on, or stands. -/
def Answered (t₁ t₂ : Transfer UInt8) (a : Side) (v : Local) : Prop :=
  Called t₁ a.said v
    ∨ Heard t₁ t₂ (sentBy a.user a.ctx) v ∧ a.said = []
      ∧ ∀ s, a.socket a.ctx = some s → s.state = .synSent

/-- The answer turns a side that calls into one that stands. -/
theorem Calling.hears (h : Calling tout a) (htin : Untouched tin) {buf : Bytes}
    (hans : Answers tout tin buf) (addr : SocketAddr) (firewall : SocketAddr → Bool) :
    Follows a.key a.user (Answered tout tin a) (a.ctx.processUdp buf addr firewall).1 := by
  refine follows_processUdp (Follows.pinned h.follows) (fun v hv => .inl hv.1)
    (fun _ m _ hm => .inl (called_reset hm.1)) (fun _ m hu hm => ?_)
  obtain ⟨⟨hacc, hcalls⟩, hlog, hpin⟩ := hm
  rcases calls_hear hcalls h.sound h.one htin hans with hnew | ⟨hst, hnew⟩
  · exact .inl ⟨hacc, hnew⟩
  · rw [hlog] at hnew
    refine .inr ⟨hnew, hacc, fun s hs => ?_⟩
    obtain ⟨hlook, hus⟩ := Side.socket_eq.mp hs
    have hsame : m.sock = s := hpin _ s hlook hus
    rw [← hsame]
    exact hst

/-- The counts, before anything has been queued or taken. -/
theorem Counted.zero (hq : a.queued = 0) (ht : a.taken = 0) (hone : tout.next = tout.first + 1)
    (hack : tin.ack = tin.first) : Counted tout tin a := by
  constructor <;> omega

/-- A side that calls has counted nothing yet. -/
theorem Calling.counted (h : Calling tout a) (htin : Untouched tin) : Counted tout tin a :=
  Counted.zero h.uncounted.1 h.uncounted.2 h.one htin.ack

/-- The dialled side once it stands. -/
theorem Calling.stands (h : Calling tout a) (htin : Untouched tin) {tout' tin' : Transfer UInt8}
    (hstep : a.ctx.step op = some ctx') (hsaid : a.said ++ saidBy a.user a.ctx op = [])
    (hnew : Follows a.key a.user (fun v => Progress Takes ⟨tout, tin, sentBy a.user a.ctx⟩ tout'
      tin' [] v ∧ v.sock.state ≠ .synSent ∧ v.sock.ackNr = UInt16.ofNat tin.first) ctx')
    {s : UtpSock} (hs : a.socket a.ctx = some s) (hst : s.state = .synSent) :
    Kept tout' tin' (a.after op ctx') := by
  obtain ⟨s₁, hfound, hprog, hlate, hnum⟩ := hnew.found
  have hnear : tout'.next ≤ tout.next + 2049 ∧ tin'.ack ≤ tin.ack + 2049 :=
    grown_near hprog.out hprog.inn h.sound hprog.soundOut htin.sound hprog.soundIn
  -- the answer to the SYN only fixes the number, nothing is taken by it
  have hack : tin'.ack = tin.ack := by
    obtain ⟨g, hbody, -⟩ := hprog.takes
    have hle : tin.ack ≤ tin'.ack := hprog.inn.ack
    have huntouched := htin.ack
    exact SeqNum.eq_of_ofNat_eq (by rw [← hbody.ack, hnum, huntouched]) (by omega) (by omega)
  refine ⟨⟨hnew.allocated, s₁, hfound, ?_, hlate⟩, h.logged.after hstep, fun e he => ?_,
    (h.counted htin).after hprog.out hprog.inn hnear (by rw [hs]; rfl) (fun s' hs' => ?_)⟩
  · show Stands Takes tout' tin' (a.said ++ saidBy a.user a.ctx op) _
    rw [hsaid]
    exact hprog.toStands
  · obtain ⟨new, hlog, hhonest⟩ := hprog.log
    -- what was sent before is the SYN
    rcases Side.mem_after hlog he with hold | ⟨hd, hq, ht⟩
    · exact .inl (h.syn hold).1
    · rw [hq, ht, hprog.out.first, hprog.inn.first]
      have hcounted := h.counted htin
      exact (hhonest _ hd).older hcounted.queued hcounted.taken
  · obtain ⟨lo, f, hq⟩ := (follows_socket hnew hs').1.sends
    have hseq' : s'.seqNr = UInt16.ofNat tout'.next := by
      rw [hq.next]
      exact hq.seq
    have hseq : s.seqNr = UInt16.ofNat tout.next :=
      (Calls.numbers (follows_socket h.follows hs).2).1
    rw [hs, hs']
    constructor
    · show (s'.seqNr - s.seqNr).toNat = _
      rw [hseq', hseq]
      exact ofNat_diff hprog.out.next (by omega)
    · -- in SynSent nothing counts as taken
      show (if s.state = .synSent then 0 else _) = _
      rw [if_pos hst, hack, Nat.sub_self]

/-- **THE ANSWER** leaves a dialled side calling, or makes it stand. -/
theorem Calling.answered (h : Calling tout a) (htin : Untouched tin) {buf : Bytes}
    {addr : SocketAddr} {firewall : SocketAddr → Bool}
    (hstep : a.ctx.step (.processUdp buf addr firewall) = some ctx')
    (hhands : Hands a.user a.ctx (.processUdp buf addr firewall))
    (hans : Answers tout tin buf) :
    Calling tout (a.after (.processUdp buf addr firewall) ctx')
      ∨ ∃ tout' tin', SenderGrows tout tout' ∧ ReceiverGrows tin tin'
        ∧ Kept tout' tin' (a.after (.processUdp buf addr firewall) ctx') := by
  have hnew := h.hears htin hans addr firewall
  have hctx : (a.ctx.processUdp buf addr firewall).1 = ctx' := Option.some.inj hstep
  rw [hctx] at hnew
  -- still calling, or answered
  obtain ⟨s₁, hfound, hcalled | ⟨⟨⟨⟨tout', tin', hprog⟩, hlate⟩, hnum⟩, hsaid, hsyn⟩⟩ := hnew.found
  · have hcalls : Follows a.key a.user (Called tout a.said) ctx' :=
      ⟨hnew.allocated, s₁, hfound, hcalled⟩
    refine .inl ⟨h.reach.step _ hstep, h.sound, h.one, ?_, h.logged.after hstep,
      h.uncounted_after hcalls⟩
    show Follows a.key a.user (Called tout (a.said ++ [])) ctx'
    rw [List.append_nil]
    exact hcalls
  · obtain ⟨s, hlook, hu⟩ := Option.map_eq_some_iff.mp hhands.2.2
    obtain ⟨hkey, -⟩ := h.follows.here hlook hu
    have hs : a.socket a.ctx = some s := Side.socket_eq.mpr ⟨by rw [← hkey]; exact hlook, hu⟩
    refine .inr ⟨tout', tin', hprog.out, hprog.inn, h.stands htin hstep ?_
      ⟨hnew.allocated, s₁, hfound, hprog, hlate, hnum⟩ hs (hsyn s hs)⟩
    rw [hsaid]
    rfl

/-! ## Both sides -/

/-- What holds in every run of a connection: both sides stand, as the two ends
    of two transfers, or the dialled one still calls. -/
inductive Linked (a b : Side) : Prop where
  | calling (t₁ t₂ : Transfer UInt8) (ha : Calling t₁ a) (hfree : Untouched t₂)
      (hb : Kept t₂ t₁ b)
      (hwaits : Follows b.key b.user
        (fun v => b.said = [] ∧ Waits (UInt16.ofNat (t₂.first + 1)) v) b.ctx)
  | standing (t₁ t₂ : Transfer UInt8) (ha : Kept t₁ t₂ a) (hb : Kept t₂ t₁ b)

variable {t₁ t₂ : Transfer UInt8}

/-- One of two sides that stand goes on. -/
theorem Kept.both (ha : Kept t₁ t₂ a) (hb : Kept t₂ t₁ b) (hstep : a.ctx.step op = some ctx')
    (hnet : Hands a.user a.ctx op → Genuine b op) :
    ∃ t₁' t₂', Kept t₁' t₂' (a.after op ctx') ∧ Kept t₂' t₁' b := by
  obtain ⟨t₁', t₂', hout, hin, hnew⟩ := ha.step hstep (fun hhands buf addr firewall hop => by
    subst hop
    obtain ⟨e, he, rfl, hfresh⟩ := hnet hhands
    exact hb.delivered he hfresh hhands.2.1)
  exact ⟨t₁', t₂', hnew, hb.peer hout hin hnew.sound.1 hnew.sound.2⟩

/-- The answer of a side that waits. -/
theorem Kept.answers (h : Kept t₂ t₁ b) {acc : Bytes}
    (hwaits : Follows b.key b.user (fun v => acc = [] ∧ Waits (UInt16.ofNat (t₂.first + 1)) v)
      b.ctx) {e : Parcel} (he : e ∈ b.sent) (hfresh : e.Fresh b) : Answers t₁ t₂ e.bytes := by
  obtain ⟨s, -, -, hw⟩ := hwaits.found
  obtain ⟨hty, hseq⟩ := hw.log _ (h.logged.mem he)
  refine ⟨hty, hseq, (h.delivered he hfresh ?_).acks⟩
  rw [hty]
  decide

/-- **ONE STEP OF THE FIRST SIDE** keeps both linked. -/
theorem linked_left (h : Linked a b) (hstep : a.ctx.step op = some ctx')
    (hnet : Hands a.user a.ctx op → Genuine b op) : Linked (a.after op ctx') b := by
  cases h with
  | standing t₁ t₂ ha hb =>
      obtain ⟨t₁', t₂', ha', hb'⟩ := ha.both hb hstep hnet
      exact .standing t₁' t₂' ha' hb'
  | calling t₁ t₂ ha hfree hb hwaits =>
      by_cases hhands : Hands a.user a.ctx op
      · cases op with
        | processUdp buf addr firewall =>
            obtain ⟨e, he, rfl, hfresh⟩ := hnet hhands
            rcases ha.answered hfree hstep hhands (hb.answers hwaits he hfresh) with
              hcalls | ⟨t₁', t₂', hout, hin, hnew⟩
            · exact .calling t₁ t₂ hcalls hfree hb hwaits
            · exact .standing t₁' t₂' hnew (hb.peer hout hin hnew.sound.1 hnew.sound.2)
        | _ => exact hhands.elim
      · exact .calling t₁ t₂ (ha.step hstep hhands) hfree hb hwaits

theorem linked_right (h : Linked a b) (hstep : b.ctx.step op = some ctx')
    (hnet : Hands b.user b.ctx op → Genuine a op) : Linked a (b.after op ctx') := by
  cases h with
  | standing t₁ t₂ ha hb =>
      obtain ⟨t₂', t₁', hb', ha'⟩ := hb.both ha hstep hnet
      exact .standing t₁' t₂' ha' hb'
  | calling t₁ t₂ ha hfree hb hwaits =>
      -- the SYNs of the dialled side do not reach the socket
      have hnone : ¬ Hands b.user b.ctx op := by
        intro hhands
        cases op with
        | processUdp buf addr firewall =>
            obtain ⟨e, he, rfl, -⟩ := hnet hhands
            exact hhands.2.1 (ha.syn he).1
        | _ => exact hhands.elim
      have hwaits' := follows_step hwaits (waits_acts _ b.user) id hstep hnone
      obtain ⟨t₂', t₁', hout, hin, hnew⟩ := hb.step hstep (fun hhands => absurd hhands hnone)
      refine .calling t₁' t₂' (ha.peer hin hnew.sound.2) ⟨hnew.sound.1, ?_, ?_, ?_⟩ hnew ?_
      · rw [hout.first]
        exact hfree.positive
      · rw [hout.ack, hout.first]
        exact hfree.ack
      · rw [hout.held]
        exact hfree.held
      · rw [hout.first]
        exact hwaits'

/-! ## The start -/

/-- A new socket has a connection of its own. -/
theorem follows_new (hcell : CellInv ctx) (k : Key) {m : Detached}
    (hsocks : m.ctx.sockets = ctx.sockets) (huser : m.sock.user = ctx.nextUser)
    (hnext : m.ctx.nextUser = ctx.nextUser + 1) (hP : P (localOf m)) :
    Follows k m.sock.user P (Context.attach k m) := by
  refine ⟨?_, m.sock, fun k' s' hs' hu => ?_, hP⟩
  · show m.sock.user < m.ctx.nextUser
    rw [huser, hnext]
    exact Nat.lt_succ_self _
  · rw [lookup_attach] at hs'
    split at hs'
    · rename_i hk
      exact ⟨hk, (Option.some.inj hs').symm⟩
    · rw [hsocks] at hs'
      have hlt := hcell.allocated k' s' hs'
      rw [hu, huser] at hlt
      exact absurd hlt (Nat.lt_irrefl _)

/-- A side that dials calls. -/
theorem dials_calling (h : Dials a) : ∃ y, Calling (startAfter y) a := by
  induction h with
  | @connect ctx ctx' addr fuel key user hreach hconn =>
      obtain ⟨seed, rng, -, hkey, huser, hctx⟩ := connect_result hconn
      obtain ⟨y, hcalls⟩ := dialled_calls (reachable_unsent hreach) addr seed rng
      have hreach' : Reachable ctx' := by
        refine hreach.step (.connect addr fuel) ?_
        show (ctx.connect addr fuel).map (·.1) = _
        rw [hconn]
        rfl
      have hsend : ActPath ⟨none, false, false⟩ [] (ctx.dialled addr seed rng)
          (Context.dialledSent ctx addr seed rng) := Steps.single (.tx (.sendPacket _ _))
      obtain ⟨hown, hnext⟩ := dialled_user ctx addr seed rng
      have hsocks := dialledSent_sockets ctx addr seed rng
      have hfollows := follows_new (P := Called (startAfter y) []) (reachable_cellInv hreach) key
        hsocks ((path_user hsend).trans hown) ((aside_nextUser.path hsend).trans hnext)
        ⟨rfl, hcalls⟩
      rw [← hctx, ← huser] at hfollows
      exact ⟨y, hreach', Sound.start .., rfl, hfollows, Side.Logged.new .., rfl, rfl⟩
  | step op _ hstep hfree ih =>
      obtain ⟨y, hcalling⟩ := ih
      exact ⟨y, hcalling.step hstep hfree⟩

/-- The two sides are linked when the second has accepted. -/
theorem linked_start (ha : Dials a) (hb : Accepts a b) : Linked a b := by
  obtain ⟨y, hcalling⟩ := dials_calling ha
  cases hb with
  | @syn ctx e addr firewall key user hreach hsent hacc =>
      -- a fresh key: the SYN is refused, rejected or accepted
      rcases aside_nextUser.processUdp ctx e.bytes addr firewall with
        ⟨-, hno⟩ | ⟨-, heq⟩ | ⟨-, heq⟩
      · exact absurd hacc (hno key user)
      · rw [heq] at hacc
        exact nomatch hacc
      · rw [heq] at hacc ⊢
        obtain ⟨rfl, rfl⟩ := ProcessUdp.accepted.inj hacc
        obtain ⟨hown, hnext⟩ := acceptSyn_user ctx e.bytes addr
        obtain ⟨x, hprog, hwaits, hlate⟩ := accepted_stands (reachable_unsent hreach) e.bytes addr
        -- the first number accepted is the one the dialled side used
        have hy : seqNr e.bytes = y := (hcalling.syn hsent).2.trans (ofNat_numberOf y)
        rw [hy] at hprog
        have hx : UInt16.ofNat ((startAt x).first + 1) = x := ofNat_numberOf x
        have hsocks := acceptSyn_sockets ctx e.bytes addr
        generalize ctx.acceptSyn e.bytes addr = m at hown hnext hprog hwaits hlate hsocks
        have hnew : ∀ {P : Local → Prop}, P (localOf m) →
            Follows m.sock.key m.sock.user P (Context.attach m.sock.key m) :=
          fun hP => follows_new (reachable_cellInv hreach) m.sock.key hsocks hown hnext hP
        refine .calling (startAfter y) (startAt x) hcalling
          ⟨Sound.start .., Nat.succ_pos _, rfl, rfl⟩
          ⟨hnew ⟨hprog.toStands, hlate⟩, Side.Logged.new .., fun d hd => ?_,
            Counted.zero rfl rfl rfl rfl⟩ (hnew ⟨rfl, by rw [hx]; exact hwaits⟩)
        obtain ⟨new, hlog, hhonest⟩ := hprog.log
        change d ∈ (sentBy m.sock.user (Context.attach m.sock.key m)).map _ at hd
        obtain ⟨c, hc, rfl⟩ := List.mem_map.mp hd
        refine hhonest c ?_
        change (localOf m).log = [] ++ new at hlog
        rw [List.nil_append] at hlog
        rw [← hlog]
        exact hc

/-- **EVERY RUN** keeps the two sides linked. -/
theorem linked (h : Runs a b) : Linked a b := by
  induction h with
  | start ha hb => exact linked_start ha hb
  | left op _ hstep hnet ih => exact linked_left ih hstep hnet
  | right op _ hstep hnet ih => exact linked_right ih hstep hnet

/-! ## A conversation -/

/-- One operation of a side, which its peer `b` may have caused. -/
def Next (a b a' : Side) : Prop :=
  ∃ op ctx', a.ctx.step op = some ctx' ∧ a' = a.after op ctx'
    ∧ (Hands a.user a.ctx op → Genuine b op)

/-- A run goes on with a step of the first side. -/
theorem Runs.next_left {a' : Side} (h : Runs a b) (hnext : Next a b a') : Runs a' b := by
  obtain ⟨op, ctx', hstep, rfl, hnet⟩ := hnext
  exact h.left op hstep hnet

theorem Runs.next_right {b' : Side} (h : Runs a b) (hnext : Next b a b') : Runs a b' := by
  obtain ⟨op, ctx', hstep, rfl, hnet⟩ := hnext
  exact h.right op hstep hnet

/-- A datagram of the peer comes in. -/
def Side.receive (a : Side) (buf : Bytes) : Side :=
  a.after (.processUdp buf a.key.addr (fun _ => false))
    (a.ctx.processUdp buf a.key.addr (fun _ => false)).1

/-- The last datagram that `b` has sent comes in at `a`. -/
def Side.hear (a b : Side) : Option Side :=
  b.sent.getLast?.bind (fun e => if e.Fresh b then some (a.receive e.bytes) else none)

/-- Hearing the parcels of the other side is a step. -/
theorem next_hear {a' : Side} (h : a.hear b = some a') : Next a b a' := by
  obtain ⟨e, he, hif⟩ := Option.bind_eq_some_iff.mp h
  split at hif
  · rename_i hfresh
    obtain rfl := Option.some.inj hif
    exact ⟨_, _, rfl, rfl, fun _ => ⟨e, List.mem_of_getLast? he, rfl, hfresh⟩⟩
  · exact nomatch hif

/-- An operation without a datagram. -/
def Side.act (a : Side) (op : Op) : Option Side :=
  if (Op.occasion op).datagram = none then (a.ctx.step op).map (a.after op) else none

theorem next_act {a' : Side} (h : a.act op = some a') : Next a b a' := by
  unfold Side.act at h
  split at h
  · rename_i hcalm
    obtain ⟨ctx', hstep, rfl⟩ := Option.map_eq_some_iff.mp h
    refine ⟨op, ctx', hstep, rfl, fun hhands => ?_⟩
    cases op with
    | processUdp => exact nomatch hcalm
    | _ => exact hhands.elim
  · exact nomatch h

/-- A turn of one of two sides. -/
inductive Turn where
  | left (op : Side → Op)
  | right (op : Side → Op)
  | hearLeft
  | hearRight

def Turn.apply (r : Side × Side) : Turn → Option (Side × Side)
  | .left op => (r.1.act (op r.1)).map (·, r.2)
  | .right op => (r.2.act (op r.2)).map (r.1, ·)
  | .hearLeft => (r.1.hear r.2).map (·, r.2)
  | .hearRight => (r.2.hear r.1).map (r.1, ·)

/-- One turn of a conversation. -/
theorem runs_apply {r r' : Side × Side} {t : Turn} (h : Runs r.1 r.2)
    (ht : t.apply r = some r') : Runs r'.1 r'.2 := by
  cases t with
  | left op =>
      obtain ⟨a', ha', rfl⟩ := Option.map_eq_some_iff.mp ht
      exact h.next_left (next_act ha')
  | right op =>
      obtain ⟨b', hb', rfl⟩ := Option.map_eq_some_iff.mp ht
      exact h.next_right (next_act hb')
  | hearLeft =>
      obtain ⟨a', ha', rfl⟩ := Option.map_eq_some_iff.mp ht
      exact h.next_left (next_hear ha')
  | hearRight =>
      obtain ⟨b', hb', rfl⟩ := Option.map_eq_some_iff.mp ht
      exact h.next_right (next_hear hb')

/-- A whole conversation. -/
theorem runs_turns (ts : List Turn) {r r' : Side × Side} (h : Runs r.1 r.2)
    (hts : ts.foldlM Turn.apply r = some r') : Runs r'.1 r'.2 := by
  induction ts generalizing r with
  | nil =>
      obtain rfl := Option.some.inj hts
      exact h
  | cons t rest ih =>
      obtain ⟨r₁, ht, hrest⟩ := Option.bind_eq_some_iff.mp hts
      exact ih (runs_apply h ht) hrest

/-- A fresh engine accepts the last datagram of a side. -/
def Side.knock (a : Side) (addr : SocketAddr) : Option Side :=
  a.sent.getLast?.bind (fun e =>
    match ((freshEngine 1).processUdp e.bytes addr (fun _ => false)).2 with
    | .accepted key user =>
        some (Side.new ((freshEngine 1).processUdp e.bytes addr (fun _ => false)).1 key user)
    | _ => none)

/-- A fresh engine dials another. -/
def meet : Option (Side × Side) :=
  ((freshEngine 0).connect peerAddr 1).bind (fun r =>
    ((Side.new r.1 r.2.1 r.2.2).knock (.v4 0x7f000001 5000)).map
      (Side.new r.1 r.2.1 r.2.2, ·))

/-- The start of a conversation. -/
theorem runs_meet {r : Side × Side} (h : meet = some r) : Runs r.1 r.2 := by
  obtain ⟨⟨ctx, key, user⟩, hconn, hrest⟩ := Option.bind_eq_some_iff.mp h
  obtain ⟨b, hknock, rfl⟩ := Option.map_eq_some_iff.mp hrest
  obtain ⟨e, he, hmatch⟩ := Option.bind_eq_some_iff.mp hknock
  refine .start (.connect (.new _ _ _ _ _) hconn) ?_
  split at hmatch
  · rename_i hacc
    obtain rfl := Option.some.inj hmatch
    exact .syn (.new _ _ _ _ _) (List.mem_of_getLast? he) hacc
  · exact nomatch hmatch

/-- What evaluation finds of a conversation. -/
theorem runs_talk (ts : List Turn) {Q : Side → Side → Prop} [∀ a b, Decidable (Q a b)]
    (h : (meet.bind (ts.foldlM Turn.apply)).map (fun r => decide (Q r.1 r.2)) = some true) :
    ∃ a b, Runs a b ∧ Q a b := by
  obtain ⟨r, hr, hdec⟩ := Option.map_eq_some_iff.mp h
  obtain ⟨r₀, hmeet, hts⟩ := Option.bind_eq_some_iff.mp hr
  exact ⟨r.1, r.2, runs_turns ts (runs_meet hmeet) hts, of_decide_eq_true hdec⟩

/-- The dialled side is answered and writes two bytes. -/
def greeting : List Turn := [.hearLeft, .left (fun a => .write a.key [104, 105])]

/-- Its bytes get across, and it closes. -/
def farewell : List Turn :=
  [.hearRight, .right (fun _ => .issueDeferredAcks), .hearLeft,
    .left (fun a => .closeConn a.key a.user), .hearRight, .right (fun _ => .issueDeferredAcks),
    .hearLeft, .hearRight, .right (fun _ => .issueDeferredAcks), .hearLeft]

/-! ## What the applications see -/

/-- The side is the sending end of `t`. -/
structure Feeds (t : Transfer UInt8) (a : Side) : Prop where
  said : t.said = a.said
  sends : ∀ s, a.socket a.ctx = some s → Sends t s

/-- A side that calls has said nothing. -/
theorem Calling.feeds (h : Calling t₁ a) : Feeds t₁ a := by
  obtain ⟨s, -, hsaid, -⟩ := h.follows.found
  refine ⟨?_, fun s hs => (follows_socket h.follows hs).2.sends⟩
  unfold Transfer.said
  rw [h.one, Nat.add_sub_cancel, hsaid]
  exact Reassembly.segment_self _ _

/-- A side that stands has said what its transfer carries. -/
theorem Kept.feeds (h : Kept t₁ t₂ a) : Feeds t₁ a := by
  obtain ⟨s, -, hstands, -⟩ := h.follows.found
  exact ⟨hstands.said, fun s hs => (follows_socket h.follows hs).1.sends⟩

/-- The two sides are the two ends of one transfer, or nothing has been said. -/
inductive Fed (a b : Side) : Prop where
  | transfer (t t' : Transfer UInt8) (ha : Feeds t a) (hb : Kept t' t b)
  | silent (hsaid : a.said = []) (hgot : b.got = []) (heofs : b.eofs = 0)

/-- Both sides feed each other. -/
theorem Linked.fed (h : Linked a b) : Fed a b ∧ Fed b a := by
  cases h with
  | standing t₁ t₂ ha hb => exact ⟨.transfer t₁ t₂ ha.feeds hb, .transfer t₂ t₁ hb.feeds ha⟩
  | calling t₁ t₂ ha hfree hb hwaits =>
      obtain ⟨s, -, hcalls⟩ := ha.follows.found
      obtain ⟨s', -, hsaid, -⟩ := hwaits.found
      exact ⟨.transfer t₁ t₂ ha.feeds hb, .silent hsaid hcalls.2.nothing.2.1
        hcalls.2.nothing.2.2⟩

/-- What the receiving end of `t` has been handed. -/
theorem Kept.handed (h : Kept t₂ t₁ b) : ∃ s g, TakesBody t₁ s (streams b.ctx b.user) g
    ∧ t₁.ack + 1 ∉ t₁.held ∧ ∀ s', b.socket b.ctx = some s' → s' = s := by
  obtain ⟨s, hfound, hstands, -⟩ := h.follows.found
  obtain ⟨g, hbody, hnext⟩ := hstands.takes
  refine ⟨s, g, hbody, fun hheld => ?_, fun s' hs' => ?_⟩
  · rw [hbody.buffered, hnext] at hheld
    exact nomatch hheld
  · obtain ⟨hlook, hu⟩ := Side.socket_eq.mp hs'
    exact (hfound _ s' hlook hu).2

/-- The socket is there, and every packet it has sent is acked. -/
def Side.Drained (a : Side) : Prop :=
  ∃ s, a.socket a.ctx = some s ∧ s.curWindowPackets = 0

/-- The socket is there, and its application has not shut reading down. -/
def Side.Reads (a : Side) : Prop := ∃ s, a.socket a.ctx = some s ∧ s.readShutdown = false

/-- While it reads it has been handed whatever has been taken. -/
theorem Kept.reads (h : Kept t₂ t₁ b) (hreads : b.Reads) :
    b.got = Reassembly.segment t₁.content t₁.first t₁.ack := by
  obtain ⟨s, g, hbody, -, hsame⟩ := h.handed
  obtain ⟨s', hs', hopen⟩ := hreads
  obtain rfl := hsame s' hs'
  obtain ⟨e, -, -, hbytes, he⟩ := hbody.delivered
  rw [he hopen] at hbytes
  exact hbytes

/-- What is read was said, in order. -/
theorem Fed.ordered (h : Fed a b) : b.got <+: a.said := by
  cases h with
  | transfer t t' ha hb =>
      obtain ⟨s, g, hbody, -, -⟩ := hb.handed
      obtain ⟨e, hlo, hhi, hbytes, -⟩ := hbody.delivered
      rw [show b.got = _ from hbytes, ← ha.said]
      exact hb.sound.2.segment_said hlo hhi
  | silent _ hgot _ =>
      rw [hgot]
      exact ⟨a.said, List.nil_append _⟩

/-- With an empty queue and a reader nothing is missing. -/
theorem Fed.drained (h : Fed a b) (hdrained : a.Drained) (hreads : b.Reads) :
    b.got = a.said := by
  cases h with
  | transfer t t' ha hb =>
      obtain ⟨s, g, hbody, hgap, -⟩ := hb.handed
      obtain ⟨s₁, hs₁, hcwp⟩ := hdrained
      obtain ⟨lo, f, hq⟩ := ha.sends s₁ hs₁
      rw [hb.reads hreads, ← ha.said]
      refine hb.sound.2.complete hgap (fun n hlo hhi => ?_)
      rcases hq.kept n hlo hhi with hsome | hreceived
      · -- the queue is empty
        obtain ⟨p, hp⟩ := Option.isSome_iff_exists.mp hsome
        have hlive := hq.live n p hp
        have hsupport := (hq.ring.support n p hp).1
        omega
      · exact hreceived
  | silent hsaid hgot _ => rw [hsaid, hgot]

/-- The end is told once, and after everything. -/
theorem Fed.eof (h : Fed a b) : b.eofs ≤ 1 ∧ (b.eofs ≠ 0 → b.Reads → b.got = a.said) := by
  cases h with
  | transfer t t' ha hb =>
      obtain ⟨s, g, hbody, -, -⟩ := hb.handed
      have htold : b.eofs = if s.gotFinReached then 1 else 0 := hbody.told
      cases hreached : s.gotFinReached with
      | false =>
          rw [hreached, if_neg Bool.false_ne_true] at htold
          exact ⟨by omega, fun hne => absurd htold hne⟩
      | true =>
          rw [hreached, if_pos rfl] at htold
          refine ⟨Nat.le_of_eq htold, fun _ hreads => ?_⟩
          rw [hb.reads hreads, ← ha.said]
          exact (hb.sound.2.ended (hbody.reached hreached)).2
  | silent _ _ heofs => exact ⟨by omega, fun hne => absurd heofs hne⟩

/-- **WHAT ONE APPLICATION HAS BEEN HANDED** is a prefix of what the other has
    written, in every run. -/
theorem in_order (h : Runs a b) : b.got <+: a.said ∧ a.got <+: b.said :=
  ⟨(linked h).fed.1.ordered, (linked h).fed.2.ordered⟩

theorem in_order_talk : ∃ a b, Runs a b ∧ b.got = [104, 105] ∧ b.got <+: a.said := by
  obtain ⟨a, b, h, hgot⟩ := runs_talk (greeting ++ farewell)
    (Q := fun _ b => b.got = [104, 105]) (by decide +kernel)
  exact ⟨a, b, h, hgot, (in_order h).1⟩

/-- **NOTHING GETS LOST**: once every packet of a side is acked, its peer, as
    long as it reads, has been handed all that was written. -/
theorem nothing_lost (h : Runs a b) : (a.Drained → b.Reads → b.got = a.said)
    ∧ (b.Drained → a.Reads → a.got = b.said) :=
  ⟨(linked h).fed.1.drained, (linked h).fed.2.drained⟩

theorem nothing_lost_talk : ∃ a b, Runs a b ∧ a.said = [104, 105] ∧ b.got = a.said := by
  obtain ⟨a, b, h, hsaid, hempty, hopen⟩ := runs_talk (greeting ++ farewell)
    (Q := fun a b => a.said = [104, 105]
      ∧ (a.socket a.ctx).map (·.curWindowPackets) = some 0
      ∧ (b.socket b.ctx).map (·.readShutdown) = some false) (by decide +kernel)
  exact ⟨a, b, h, hsaid, (nothing_lost h).1 (Option.map_eq_some_iff.mp hempty)
    (Option.map_eq_some_iff.mp hopen)⟩

/-- **THE END OF THE STREAM** is told once at most, and not before all that the
    peer has written has been handed over. -/
theorem told_at_end (h : Runs a b) : (b.eofs ≤ 1 ∧ (b.eofs ≠ 0 → b.Reads → b.got = a.said))
    ∧ a.eofs ≤ 1 ∧ (a.eofs ≠ 0 → a.Reads → a.got = b.said) :=
  ⟨(linked h).fed.1.eof, (linked h).fed.2.eof⟩

theorem told_at_end_talk : ∃ a b, Runs a b ∧ b.eofs = 1 ∧ b.got = a.said := by
  obtain ⟨a, b, h, heofs, hopen⟩ := runs_talk (greeting ++ farewell)
    (Q := fun _ b => b.eofs = 1 ∧ (b.socket b.ctx).map (·.readShutdown) = some false)
    (by decide +kernel)
  have hne : b.eofs ≠ 0 := by
    rw [heofs]
    exact Nat.one_ne_zero
  exact ⟨a, b, h, heofs, (told_at_end h).1.2 hne (Option.map_eq_some_iff.mp hopen)⟩

/-- The peer has taken the packet that ends the stream. -/
theorem Kept.ended (h : Kept t₂ t₁ b) (heof : b.eofs ≠ 0) : t₁.last = some t₁.ack := by
  obtain ⟨s, g, hbody, -, -⟩ := h.handed
  refine hbody.reached (Bool.of_not_eq_false (fun hno => heof ?_))
  have htold : b.eofs = if s.gotFinReached then 1 else 0 := hbody.told
  rw [hno, if_neg Bool.false_ne_true] at htold
  exact htold

/-- A side whose peer was told the end says nothing more. -/
theorem Kept.final (ha : Kept t₁ t₂ a) (hb : Kept t₂ t₁ b) (heof : b.eofs ≠ 0) (op : Op) :
    saidBy a.user a.ctx op = [] := by
  cases op with
  | write k buf =>
      have hstep : a.ctx.step (.write k buf) = some (a.ctx.write k buf).1 := rfl
      obtain ⟨t₁', t₂', hout, -, hnew⟩ := ha.step hstep (fun h => h.elim)
      have hsaid : t₁'.said = a.said ++ saidBy a.user a.ctx (.write k buf) := hnew.feeds.said
      rw [hout.final ha.sound.1 hnew.sound.1 (hb.ended heof), ha.feeds.said] at hsaid
      exact List.self_eq_append_right.mp hsaid
  | _ => rfl

/-- **THE END IS THE END**: once an application has been told of the end of the
    stream, its peer has nothing more accepted. -/
theorem said_final (h : Runs a b) (op : Op) : (b.eofs ≠ 0 → saidBy a.user a.ctx op = [])
    ∧ (a.eofs ≠ 0 → saidBy b.user b.ctx op = []) := by
  cases linked h with
  | standing t₁ t₂ ha hb => exact ⟨fun heof => ha.final hb heof op, fun heof => hb.final ha heof op⟩
  | calling t₁ t₂ ha hfree hb hwaits =>
      constructor
      · intro heof
        have hclose := hb.sound.2.closing _ (hb.ended heof)
        have hone := ha.one
        omega
      · intro heof
        obtain ⟨s, -, -, hcalls⟩ := ha.follows.found
        exact absurd hcalls.nothing.2.2 heof

theorem said_final_talk :
    ∃ a b, Runs a b ∧ b.eofs = 1 ∧ saidBy a.user a.ctx (.write a.key [33]) = [] := by
  obtain ⟨a, b, h, heofs⟩ := runs_talk (greeting ++ farewell)
    (Q := fun _ b => b.eofs = 1) (by decide +kernel)
  have hne : b.eofs ≠ 0 := by
    rw [heofs]
    exact Nat.one_ne_zero
  exact ⟨a, b, h, heofs, (said_final h (.write a.key [33])).1 hne⟩

/-- The peer waits for a packet of the queue, which carries what comes next. -/
def Awaited (a b : Side) (s s' : UtpSock) : Prop :=
  b.got = a.said ∨ ∃ p, s.outbuf.get (s'.ackNr + 1).toNat = some p
    ∧ seqNr p.data = s'.ackNr + 1 ∧ b.got ++ body p.data <+: a.said

/-- The number that the reader waits for is in the queue of the writer, or
    everything has arrived. -/
theorem Fed.awaited (h : Fed a b) {s s' : UtpSock} (hs : a.socket a.ctx = some s)
    (hs' : b.socket b.ctx = some s') (hopen : s'.readShutdown = false) : Awaited a b s s' := by
  cases h with
  | silent hsaid hgot _ =>
      rw [← hsaid] at hgot
      exact .inl hgot
  | transfer t t' ha hb =>
      obtain ⟨s₁, g, hbody, hgap, hsame⟩ := hb.handed
      obtain rfl := hsame s' hs'
      obtain ⟨lo, f, hq⟩ := ha.sends s hs
      have hgot := hb.reads ⟨s', hs', hopen⟩
      -- either all was handed on, or the next number is missing and the sender keeps it
      have hsound := hb.sound.2
      have hbehind := hsound.behind
      have hbegun := hsound.begun
      have hnum : s'.ackNr + 1 = UInt16.ofNat (t.ack + 1) := by
        rw [hbody.ack, SeqNum.ofNat_add_one]
      rcases Nat.lt_or_eq_of_le hbehind with hlt | heq
      · right
        have hmissing : ¬ t.Received (t.ack + 1) := by
          rintro (hle | hheld)
          · omega
          · exact hgap hheld
        have hsome := (hq.kept (t.ack + 1) (by omega) hlt).resolve_right hmissing
        obtain ⟨p, hp⟩ := Option.isSome_iff_exists.mp hsome
        obtain ⟨hpk, hfit⟩ := hq.good _ p hp
        have hsupport := (hq.ring.support _ p hp).1
        have hget := hq.get_number hsupport (hq.live _ p hp)
        refine ⟨p, ?_, ?_, ?_⟩
        · rw [hnum, hget, hp]
        · rw [hnum]
          exact hpk.seq
        · -- the SYN carries no byte of the stream
          rcases hfit with ⟨hsyn, -⟩ | ⟨hbears, -⟩
          · omega
          · rw [hbears.body, hgot, ← Reassembly.segment_succ _ hbegun, ← ha.said]
            have hle : t.ack + 1 ≤ t.next - 1 := by omega
            exact ⟨_, Reassembly.segment_append t.content (Nat.le_succ_of_le hbegun) hle⟩
      · -- nothing is on its way: what was handed on is all that was said
        left
        rw [hgot, ← ha.said]
        unfold Transfer.said
        rw [← heq, Nat.succ_sub_one]

/-- **THE PACKET A PEER WAITS FOR** has not been given up: it is in the queue of
    the sender, under the number the peer expects, and its payload continues
    what the peer has been handed. -/
theorem awaited_queued (h : Runs a b) {s s' : UtpSock} (hs : a.socket a.ctx = some s)
    (hs' : b.socket b.ctx = some s') :
    (s'.readShutdown = false → Awaited a b s s')
      ∧ (s.readShutdown = false → Awaited b a s' s) :=
  ⟨(linked h).fed.1.awaited hs hs', (linked h).fed.2.awaited hs' hs⟩

/-- The two bytes are still on their way. -/
theorem awaited_queued_talk : ∃ a b s s', Runs a b ∧ a.said = [104, 105] ∧ b.got = []
    ∧ Awaited a b s s' := by
  obtain ⟨a, b, h, hsaid, hgot, hthere, hopen⟩ := runs_talk (greeting ++ farewell.take 3)
    (Q := fun a b => a.said = [104, 105] ∧ b.got = [] ∧ (a.socket a.ctx).isSome = true
      ∧ (b.socket b.ctx).map (·.readShutdown) = some false) (by decide +kernel)
  obtain ⟨s, hs⟩ := Option.isSome_iff_exists.mp hthere
  obtain ⟨s', hs', hreads⟩ := Option.map_eq_some_iff.mp hopen
  exact ⟨a, b, s, s', h, hsaid, hgot, (awaited_queued h hs hs').1 hreads⟩

/-! ## What goes over the network -/

/-- The datagram carries a packet of the stream. -/
def Parcel.Carries (e : Parcel) : Prop := packetType e.bytes ≠ stState ∧ packetType e.bytes ≠ stSyn

instance (e : Parcel) : Decidable e.Carries := inferInstanceAs (Decidable (_ ∧ _))

/-- Two recent datagrams of a side that carry packets of the same number. -/
structure Resends (a : Side) (e e' : Parcel) : Prop where
  sent : e ∈ a.sent ∧ e' ∈ a.sent
  fresh : e.Fresh a ∧ e'.Fresh a
  carries : e.Carries ∧ e'.Carries
  seq : seqNr e.bytes = seqNr e'.bytes

/-- The packet that a recent datagram carries. -/
theorem Kept.ships (h : Kept tout tin a) {e : Parcel} (he : e ∈ a.sent) (hfresh : e.Fresh a)
    (hcarries : e.Carries) : ∃ n, Ships tout n e.bytes ∧ n < tout.next ∧ tout.next ≤ n + 40000 := by
  have hdel := h.delivered he hfresh hcarries.2
  obtain ⟨n, harr⟩ := hdel.carries hcarries.1
  exact ⟨n, harr.ships, (h.sound.1.inside n harr.ships.sent).2, harr.fresh⟩

/-- Two fresh parcels under one number bear the same. -/
theorem Kept.resent (h : Kept tout tin a) {e e' : Parcel} (hres : Resends a e e') :
    packetType e.bytes = packetType e'.bytes ∧ body e.bytes = body e'.bytes := by
  obtain ⟨n, hships, hlt, hnear⟩ := h.ships hres.sent.1 hres.fresh.1 hres.carries.1
  obtain ⟨n', hships', hlt', hnear'⟩ := h.ships hres.sent.2 hres.fresh.2 hres.carries.2
  have hnum : UInt16.ofNat n = UInt16.ofNat n' := by
    rw [← hships.seq, ← hships'.seq]
    exact hres.seq
  obtain rfl := SeqNum.eq_of_ofNat_eq hnum (by omega) (by omega)
  exact ⟨hships.bears.kind.trans hships'.bears.kind.symm,
    hships.bears.body.trans hships'.bears.body.symm⟩

/-- **A PACKET IS WHAT IT IS**: whatever is sent again under a number is of the
    same kind and carries the same bytes. -/
theorem resent_same (h : Runs a b) {e e' : Parcel} (hres : Resends a e e' ∨ Resends b e e') :
    packetType e.bytes = packetType e'.bytes ∧ body e.bytes = body e'.bytes := by
  cases linked h with
  | standing t₁ t₂ ha hb =>
      rcases hres with hres | hres
      · exact ha.resent hres
      · exact hb.resent hres
  | calling t₁ t₂ ha hfree hb hwaits =>
      rcases hres with hres | hres
      · exact absurd (ha.syn hres.sent.1).1 hres.carries.1.2
      · exact hb.resent hres

/-- The bytes are lost, and sent again when the timer runs out. -/
theorem resent_same_talk : ∃ a b e e', Runs a b ∧ e ∈ a.sent ∧ e' ∈ a.sent ∧ e.bytes ≠ e'.bytes
    ∧ body e.bytes = [104, 105] ∧ body e'.bytes = [104, 105] := by
  obtain ⟨a, b, h, hlen, hcarry, hne⟩ := runs_talk (greeting ++ farewell.take 3
      ++ [.left (fun _ => .elapse ⟨10000000⟩), .left (fun a => .checkTimeouts [a.key])])
    (Q := fun a _ => a.sent.length = 4
      ∧ (∀ e ∈ a.sent.drop 2, e.Fresh a ∧ e.Carries ∧ seqNr e.bytes = 26102)
      ∧ ∃ e ∈ a.sent.drop 2, ∃ e' ∈ a.sent.drop 2, e.bytes ≠ e'.bytes ∧ body e.bytes = [104, 105])
    (by decide +kernel)
  obtain ⟨e, he, e', he', hbytes, hbody⟩ := hne
  obtain ⟨hfresh, hcarries, hseq⟩ := hcarry e he
  obtain ⟨hfresh', hcarries', hseq'⟩ := hcarry e' he'
  have hin := List.mem_of_mem_drop he
  have hin' := List.mem_of_mem_drop he'
  have hsame := resent_same h (.inl ⟨⟨hin, hin'⟩, ⟨hfresh, hfresh'⟩, ⟨hcarries, hcarries'⟩,
    hseq.trans hseq'.symm⟩)
  exact ⟨a, b, e, e', h, hin, hin', hbytes, hbody, hsame.2.symm.trans hbody⟩

/-- The sender of a transfer is not far ahead of its receiver. -/
theorem ahead_near {s : UtpSock} (hsound : Sound 1024 t₁) (hsends : Sends t₁ s)
    (hgap : t₁.ack + 1 ∉ t₁.held) : t₁.next ≤ t₁.ack + 1025 := by
  obtain ⟨lo, f, hq⟩ := hsends
  have hcwp := hq.cwp_le
  have hnext := hq.next
  have hlo : lo ≤ t₁.ack + 1 := by
    refine hsound.gap hgap (fun n hfirst hn => ?_)
    rcases hq.kept n hfirst (by omega) with hsome | hreceived
    · obtain ⟨p, hp⟩ := Option.isSome_iff_exists.mp hsome
      have hsupport := (hq.ring.support n p hp).1
      omega
    · exact hreceived
  omega

/-- The counters are those of the transfers. -/
theorem Counted.exact (h : Counted tout tin a) {s : UtpSock} (hs : a.socket a.ctx = some s) :
    tout.next = tout.first + 1 + a.queued ∧ tin.ack = tin.first + a.taken := by
  obtain ⟨hq, ht, hlateQ, hlateT⟩ := h
  have hslack : a.slack = 0 := if_pos (by rw [hs]; rfl)
  omega

/-- **THE TWO ENDS STAY TOGETHER**: while both sockets are there, neither has
    taken a packet that the other has not queued, nor queued more than 1024
    packets that the other has not taken. -/
theorem within_window (h : Runs a b) {s s' : UtpSock} (hs : a.socket a.ctx = some s)
    (hs' : b.socket b.ctx = some s') :
    (b.taken ≤ a.queued ∧ a.queued ≤ b.taken + 1024)
      ∧ a.taken ≤ b.queued ∧ b.queued ≤ a.taken + 1024 := by
  cases linked h with
  | standing t₁ t₂ ha hb =>
      -- both stand: each side is held within the other's window
      obtain ⟨-, -, -, hgap₁, -⟩ := hb.handed
      obtain ⟨-, -, -, hgap₂, -⟩ := ha.handed
      have hnear₁ := ahead_near ha.sound.1 (ha.feeds.sends s hs) hgap₁
      have hnear₂ := ahead_near ha.sound.2 (hb.feeds.sends s' hs') hgap₂
      obtain ⟨hq, ht⟩ := ha.counted.exact hs
      obtain ⟨hq', ht'⟩ := hb.counted.exact hs'
      have hbehind₁ := ha.sound.1.behind
      have hbehind₂ := ha.sound.2.behind
      omega
  | calling t₁ t₂ ha hfree hb hwaits =>
      -- the dialled side has only its SYN out
      have hgap : t₂.ack + 1 ∉ t₂.held := by
        rw [hfree.held]
        exact id
      have hnear := ahead_near hfree.sound (hb.feeds.sends s' hs') hgap
      obtain ⟨hq, ht⟩ := ha.uncounted
      obtain ⟨hq', ht'⟩ := hb.counted.exact hs'
      have hone := ha.one
      have hack := hfree.ack
      have hbehind := hb.sound.2.behind
      omega

theorem within_window_talk : ∃ a b, Runs a b ∧ a.queued = 2 ∧ b.taken = 1
    ∧ a.queued ≤ b.taken + 1024 := by
  obtain ⟨a, b, h, hq, ht, hthere, hthere'⟩ := runs_talk (greeting ++ farewell.take 3)
    (Q := fun a b => a.queued = 2 ∧ b.taken = 1 ∧ (a.socket a.ctx).isSome = true
      ∧ (b.socket b.ctx).isSome = true) (by decide +kernel)
  obtain ⟨s, hs⟩ := Option.isSome_iff_exists.mp hthere
  obtain ⟨s', hs'⟩ := Option.isSome_iff_exists.mp hthere'
  exact ⟨a, b, h, hq, ht, (within_window h hs hs').1.2⟩

end UtpLink
