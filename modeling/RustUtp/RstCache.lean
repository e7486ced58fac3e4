import RustUtp.Acts.Boundary
import RustUtp.Emissions
import RustUtp.Lib.ReplyCache

/-! # The RST cache — one reset for a stray stream

    A datagram for a socket that does not exist is answered with an RST once:
    its address, connection id and number are kept with a time stamp, later
    copies only refresh the stamp, and `check_timeouts` purges what has been
    silent for ten seconds, with a `swap_remove` loop that reorders the entries
    while it scans them.

    `ReplyCache` has the abstract cache with the log of all requests; here every
    operation of the engine is shown to take no or one step of it. -/

namespace UtpRstCache

open UtpCircular UtpPacket UtpUtil UtpConnShared UtpEngine UtpEngine.Detached UtpActs UtpEmissions
open LabelledPath ReplyCache

/-- What an RST is sent for at most once. -/
structure Stream where
  addr : SocketAddr
  connid : UInt32
  ackNr : UInt16
  deriving DecidableEq

def streamOf (r : RstInfo) : Stream := ⟨r.addr, r.connid, r.ackNr⟩

/-- The cache as keys with stamps. -/
def entriesOf (l : List RstInfo) : List (Stream × Nat) := l.map (fun r => (streamOf r, r.timestamp))

def streamsOf (l : List RstInfo) : List Stream := l.map streamOf

/-- The RSTs on the wire: the datagrams that no socket sent. -/
def resets (ctx : Context) : List Sent := ctx.wire.filter (·.src = none)

/-- The stream of a datagram that finds no socket. -/
def strayOf (ctx : Context) : Op → Option Stream
  | .processUdp buf addr _ =>
      if Strays ctx buf addr then some ⟨addr, (connId buf).toUInt32, seqNr buf⟩ else none
  | _ => none

/-- The request that an operation from `ctx` to `ctx'` makes, answered or not. -/
def noted (ctx ctx' : Context) (op : Op) : List (Request Stream) :=
  match strayOf ctx op with
  | some k => [⟨k, ctx.clock.millis, decide (resets ctx' ≠ resets ctx)⟩]
  | none => []

/-- Any sequence of operations while the clock does not run backwards, with the
    log of the socket-less datagrams. -/
inductive Traffic : List (Request Stream) → Context → Prop where
  | new (clock : Clock) (rng : Rng) (transport : Nat → Option ErrorKind) (fpu : Fpu)
      (users : UserId → ConnCell) : Traffic [] (Context.new clock rng transport fpu users)
  | step {log : List (Request Stream)} {ctx ctx' : Context} (op : Op) (h : Traffic log ctx)
      (hstep : ctx.step op = some ctx') (hclock : ctx.clock.millis ≤ ctx'.clock.millis) :
      Traffic (log ++ noted ctx ctx' op) ctx'

/-! ## The purge loop -/

/-- Is the entry as old as the loop wants it to be? -/
def expired (now : Nat) (r : RstInfo) : Bool := asI32 (msSub now r.timestamp) ≥ rstInfoTimeout

/-- One `swap_remove`: the last entry fills the hole. -/
theorem swapRemove_eq (pre : List RstInfo) (r : RstInfo) (post : List RstInfo) :
    ∃ post', ((pre ++ r :: post).set pre.length ((pre ++ r :: post).getLastD r)).dropLast
        = pre ++ post' ∧ post'.Perm post := by
  rcases List.eq_nil_or_concat post with rfl | ⟨mid, last, rfl⟩
  · refine ⟨[], ?_, List.Perm.refl _⟩
    rw [List.set_append_right _ _ (Nat.le_refl _)]
    simp
  · refine ⟨last :: mid, ?_, ?_⟩
    · have hlast : (pre ++ r :: (mid.concat last)).getLastD r = last := by
        rw [List.concat_eq_append, ← List.cons_append, ← List.append_assoc]
        exact List.getLastD_concat
      rw [hlast, List.set_append_right _ _ (Nat.le_refl _), Nat.sub_self]
      simp [List.dropLast_append_of_ne_nil, List.dropLast_cons_of_ne_nil]
    · rw [List.concat_eq_append]
      exact (List.perm_append_singleton last mid).symm

/-- The loop keeps what it has passed and filters the rest. -/
theorem purgeRst_from (now n : Nat) : ∀ pre post : List RstInfo, post.length = n →
    (Context.purgeRst now n pre.length (pre ++ post)).Perm
      (pre ++ post.filter (fun r => !expired now r)) := by
  induction n with
  | zero =>
      intro pre post hlen
      rw [List.length_eq_zero_iff.mp hlen, Context.purgeRst]
      exact List.Perm.refl _
  | succ n ih =>
      intro pre post hlen
      cases post with
      | nil => exact nomatch hlen
      | cons r post =>
          have hn : post.length = n := Nat.succ.inj hlen
          have hget : (pre ++ r :: post)[pre.length]? = some r := by simp
          rw [Context.purgeRst, hget]
          dsimp only
          split
          · -- `swap_remove` moves the last record into the gap, so the loop looks at the same place again
            rename_i hold
            obtain ⟨post', heq, hperm⟩ := swapRemove_eq pre r post
            have hdrop : (r :: post).filter (fun r => !expired now r)
                = post.filter (fun r => !expired now r) :=
              List.filter_cons_of_neg (by simpa [expired] using hold)
            rw [heq, hdrop]
            exact (ih pre post' (hperm.length_eq.trans hn)).trans
              ((hperm.filter _).append_left pre)
          · -- young records join those that were looked at
            rename_i hyoung
            have hkeep : (r :: post).filter (fun r => !expired now r)
                = r :: post.filter (fun r => !expired now r) :=
              List.filter_cons_of_pos (by simpa [expired] using hyoung)
            have hnext := ih (pre ++ [r]) post hn
            rw [List.length_append, List.length_singleton, List.append_assoc, List.append_assoc,
              List.singleton_append, List.singleton_append] at hnext
            rw [hkeep]
            exact hnext

/-- **THE PURGE IS A FILTER**, up to the order of the entries. -/
theorem purgeRst_perm (now : Nat) (l : List RstInfo) :
    (Context.purgeRst now l.length 0 l).Perm (l.filter (fun r => !expired now r)) :=
  purgeRst_from now l.length [] l rfl

/-- What the loop calls expired is old. -/
theorem old_of_expired {now : Nat} {r : RstInfo} (hle : r.timestamp ≤ now)
    (h : expired now r = true) : r.timestamp + 10000 ≤ now := by
  have hage : asI32 (msSub now r.timestamp) ≥ 10000 := of_decide_eq_true h
  unfold asI32 msSub at hage
  split at hage <;> omega

/-- As long as the age fits the signed 32 bits, old entries are expired. -/
theorem expired_iff {now : Nat} {r : RstInfo} (hle : r.timestamp ≤ now)
    (hage : now - r.timestamp < 2 ^ 31) :
    expired now r = true ↔ 10000 ≤ now - r.timestamp := by
  have hsub : msSub now r.timestamp = now - r.timestamp := by
    unfold msSub
    omega
  unfold expired
  rw [hsub, decide_eq_true_iff]
  unfold asI32 rstInfoTimeout
  rw [Nat.mod_eq_of_lt (by omega), if_pos hage]
  omega

/-! ## What the sockets leave alone -/

/-- The cache, the RSTs on the wire and the clock. -/
def rstView (ctx : Context) : List RstInfo × List Sent × Clock :=
  (ctx.rstInfo, resets ctx, ctx.clock)

/-- What a socket sends is no reset. -/
theorem resets_of_wire {m m' : Detached} {src : Source}
    (hwire : m'.ctx.wire = m.ctx.wire ++ [src.sent m]) : resets m'.ctx = resets m.ctx := by
  unfold resets
  rw [hwire, List.filter_append]
  exact List.append_nil _

theorem resets_effect {occ : Occasion} {m m' : Detached} (h : UtpEmissions.Effect occ m m') :
    resets m'.ctx = resets m.ctx := by
  rcases h.wire with hsame | ⟨src, -, hwire⟩
  · unfold resets
    rw [hsame]
  · exact resets_of_wire hwire

/-- No act of a socket does. -/
theorem resets_act {occ : Occasion} {l : Bytes} {m m' : Detached} (h : Act occ l m m') :
    resets m'.ctx = resets m.ctx := by
  rcases Act.effect h with heff | ⟨data, -, hdrain⟩
  · exact resets_effect heff
  · refine DrainPath.lift (S := fun a b : Detached => resets b.ctx = resets a.ctx)
      (fun _ => rfl) (fun _ _ _ hab hbc => hbc.trans hab)
      (fun _ _ _ hab => @resets_effect occ _ _ (DrainAct.effect hab)) ?_ hdrain
    exact @resets_effect occ _ _ (effect_acceptNext m data)

/-- The sockets leave the cache of resets. -/
theorem aside_rst : AsideNew rstView where
  act := by
    intro occ l m m' h
    have hsame := h.surroundings_eq
    unfold rstView
    rw [resets_act h, show m'.ctx.rstInfo = _ from congrArg Surroundings.rstInfo hsame,
      show m'.ctx.clock = _ from congrArg Surroundings.clock hsame]
    rfl
  sockets := fun _ _ => rfl
  ackList := fun _ _ => rfl
  users := fun _ _ _ => rfl
  dial := fun _ _ _ _ => rfl
  accept := fun _ _ _ => rfl

/-! ## A stray datagram -/

/-- The streams of the entries. -/
theorem map_fst_entriesOf (l : List RstInfo) : (entriesOf l).map Prod.fst = streamsOf l := by
  simp [entriesOf, streamsOf]

/-- What `rejectUnknown` makes of the stream `k` at time `now`. -/
inductive Rejected (ctx ctx' : Context) (k : Stream) : Prop where
  | refreshed (pre : List RstInfo) (r : RstInfo) (post : List RstInfo) (hr : streamOf r = k)
      (hctx : ctx.rstInfo = pre ++ r :: post)
      (hctx' : ctx'.rstInfo = pre ++ { r with timestamp := ctx.clock.millis } :: post)
      (hresets : resets ctx' = resets ctx)
  | ignored (hnew : k ∉ streamsOf ctx.rstInfo) (hsame : ctx'.rstInfo = ctx.rstInfo)
      (hresets : resets ctx' = resets ctx)
  | reset (hnew : k ∉ streamsOf ctx.rstInfo) (hroom : ctx.rstInfo.length ≤ rstInfoLimit)
      (hpush : ctx'.rstInfo
        = ctx.rstInfo ++ [⟨k.addr, k.connid, k.ackNr, ctx.clock.millis⟩])
      (seqNr : UInt16)
      (hresets : resets ctx' = resets ctx
        ++ [⟨none, k.addr, Context.rstDatagram k.connid k.ackNr seqNr, none⟩])

/-- Changing one entry of a list. -/
theorem modify_append (pre : List RstInfo) (r : RstInfo) (post : List RstInfo)
    (f : RstInfo → RstInfo) : (pre ++ r :: post).modify pre.length f = pre ++ f r :: post := by
  induction pre with
  | nil => rfl
  | cons x pre ih =>
      show x :: (pre ++ r :: post).modify pre.length f = _
      rw [ih]
      rfl

/-- **A STRAY IS ANSWERED ONLY IF ITS STREAM IS NOT CACHED**. -/
theorem rejected (ctx : Context) (addr : SocketAddr) (id : UInt32) (seqNr : UInt16) :
    Rejected ctx (ctx.rejectUnknown addr id seqNr) ⟨addr, id, seqNr⟩ := by
  unfold Context.rejectUnknown
  dsimp only
  split
  · -- the stream has a record: its time is renewed, no RST goes out
    rename_i i hfind
    obtain ⟨hlt, hhit, -⟩ := List.findIdx?_eq_some_iff_getElem.mp hfind
    have hsplit : ctx.rstInfo = ctx.rstInfo.take i ++ ctx.rstInfo[i] :: ctx.rstInfo.drop (i + 1) := by
      rw [← List.drop_eq_getElem_cons hlt, List.take_append_drop]
    have hlen : (ctx.rstInfo.take i).length = i := List.length_take_of_le (Nat.le_of_lt hlt)
    refine .refreshed (ctx.rstInfo.take i) ctx.rstInfo[i] (ctx.rstInfo.drop (i + 1)) ?_ hsplit ?_ rfl
    · simp only [Bool.and_eq_true, decide_eq_true_eq] at hhit
      unfold streamOf
      rw [hhit.1.1, hhit.1.2, hhit.2]
    · have hmod := modify_append (ctx.rstInfo.take i) ctx.rstInfo[i] (ctx.rstInfo.drop (i + 1))
        (fun r => { r with timestamp := ctx.clock.millis })
      rw [← hsplit, hlen] at hmod
      exact hmod
  · rename_i hnone
    -- no record means a stream that was not answered yet
    have hnew : (⟨addr, id, seqNr⟩ : Stream) ∉ streamsOf ctx.rstInfo := by
      intro hmem
      obtain ⟨r, hr, heq⟩ := List.mem_map.mp hmem
      have hmiss := List.findIdx?_eq_none_iff.mp hnone r hr
      obtain ⟨haddr, hid, hack⟩ := Stream.mk.inj heq
      simp [haddr, hid, hack] at hmiss
    split
    · -- too many records: neither answered nor noted
      exact .ignored hnew rfl rfl
    · rename_i hroom
      refine .reset hnew (Nat.le_of_not_lt hroom) rfl (ctx.rng.nextU32).1.toUInt16 ?_
      show (ctx.wire ++ [_]).filter (fun d : Sent => d.src = none) = _
      rw [List.filter_append]
      rfl

/-- Answering an unknown connection reads the clock and leaves it. -/
theorem rejectUnknown_clock (ctx : Context) (addr : SocketAddr) (id : UInt32) (seqNr : UInt16) :
    (ctx.rejectUnknown addr id seqNr).clock = ctx.clock := by
  unfold Context.rejectUnknown
  dsimp only
  split
  · rfl
  · split <;> rfl

/-- A stray datagram comes to the cache. -/
theorem processUdp_of_stray {ctx : Context} {buf : Bytes} {addr : SocketAddr}
    {firewall : SocketAddr → Bool} (h : Strays ctx buf addr) :
    (ctx.processUdp buf addr firewall).1
      = ctx.rejectUnknown addr (connId buf).toUInt32 (seqNr buf) := by
  obtain ⟨hlen, hport, hversion, hrst, hsyn, hnone⟩ := h
  unfold Context.processUdp
  rw [if_neg (Nat.not_lt.mpr hlen), if_neg hport, if_neg (not_not.mpr hversion)]
  dsimp only
  rw [if_neg hrst, hnone, if_neg (fun h => nomatch h.2), if_pos hsyn]

/-! ## The engine is a reply cache -/

def stateOf (log : List (Request Stream)) (ctx : Context) : State Stream :=
  ⟨log, entriesOf ctx.rstInfo, ctx.clock.millis⟩

/-- A step that the cache does not see. -/
theorem step_of_view {log : List (Request Stream)} {ctx ctx' : Context} {op : Op}
    (hview : rstView ctx' = rstView ctx) (hquiet : noted ctx ctx' op = []) :
    Step 10000 rstInfoLimit (stateOf log ctx) (stateOf (log ++ noted ctx ctx' op) ctx') := by
  obtain ⟨hinfo, hpair⟩ := Prod.mk.inj hview
  obtain ⟨-, hclock⟩ := Prod.mk.inj hpair
  unfold stateOf
  rw [hquiet, List.append_nil, hinfo, hclock]
  exact .wait _ _ (Nat.le_refl _)

/-- It is a request for its stream. -/
theorem noted_of_stray {ctx ctx' : Context} {buf : Bytes} {addr : SocketAddr}
    {firewall : SocketAddr → Bool} (h : Strays ctx buf addr) :
    noted ctx ctx' (.processUdp buf addr firewall)
      = [⟨⟨addr, (connId buf).toUInt32, seqNr buf⟩, ctx.clock.millis,
          decide (resets ctx' ≠ resets ctx)⟩] := by
  have hstray : strayOf ctx (.processUdp buf addr firewall)
      = some ⟨addr, (connId buf).toUInt32, seqNr buf⟩ := if_pos h
  unfold noted
  rw [hstray]

/-- Any other datagram is none. -/
theorem noted_of_known {ctx ctx' : Context} {buf : Bytes} {addr : SocketAddr}
    {firewall : SocketAddr → Bool} (h : ¬Strays ctx buf addr) :
    noted ctx ctx' (.processUdp buf addr firewall) = [] := by
  have hknown : strayOf ctx (.processUdp buf addr firewall) = none := if_neg h
  unfold noted
  rw [hknown]

/-- A stray datagram refreshes, passes by or enters the cache. -/
theorem step_of_rejected {log : List (Request Stream)} {ctx ctx' : Context} {k : Stream}
    (hclock : ctx'.clock = ctx.clock) (h : Rejected ctx ctx' k) :
    Step 10000 rstInfoLimit (stateOf log ctx)
      (stateOf (log ++ [⟨k, ctx.clock.millis, decide (resets ctx' ≠ resets ctx)⟩]) ctx') := by
  unfold stateOf
  rw [hclock]
  cases h with
  | refreshed pre r post hr hctx hctx' hresets =>
      rw [hctx, hctx', decide_eq_false (not_not.mpr hresets), ← hr]
      unfold entriesOf
      rw [List.map_append, List.map_append, List.map_cons, List.map_cons]
      exact .refresh _ _ _ (streamOf r) _ _
  | ignored hnew hsame hresets =>
      rw [hsame, decide_eq_false (not_not.mpr hresets)]
      rw [← map_fst_entriesOf] at hnew
      exact .ignore _ _ hnew
  | reset hnew hroom hpush seqNr hresets =>
      have hsent : resets ctx' ≠ resets ctx := by
        rw [hresets]
        exact fun h => absurd (congrArg List.length h) (by simp)
      rw [hpush, decide_eq_true hsent]
      rw [← map_fst_entriesOf] at hnew
      unfold entriesOf
      rw [List.map_append]
      refine .answer _ _ hnew ?_
      rw [List.length_map]
      exact hroom

/-- The purge forgets old entries only. -/
theorem step_of_purge {log : List (Request Stream)} (now : Nat) {l : List RstInfo}
    (hpast : ∀ r ∈ l, r.timestamp ≤ now) :
    Step 10000 rstInfoLimit ⟨log, entriesOf l, now⟩
      ⟨log, entriesOf (Context.purgeRst now l.length 0 l), now⟩ := by
  have hperm := purgeRst_perm now l
  refine .purge log ?_ (fun e he hgone => ?_)
  · exact ((hperm.map _).subperm).trans (List.filter_sublist.map _).subperm
  · obtain ⟨r, hr, rfl⟩ := List.mem_map.mp he
    have hexp : expired now r = true := by
      by_contra hyoung
      refine hgone (List.mem_map_of_mem (hperm.mem_iff.mpr (List.mem_filter.mpr ⟨hr, ?_⟩)))
      simpa using hyoung
    exact old_of_expired (hpast r hr) hexp

/-- **EVERY OPERATION IS A STEP OF THE CACHE**. -/
theorem cache_step {log : List (Request Stream)} {ctx ctx' : Context} {op : Op}
    (hsound : Sound 10000 rstInfoLimit (stateOf log ctx)) (hstep : ctx.step op = some ctx')
    (hclock : ctx.clock.millis ≤ ctx'.clock.millis) :
    Step 10000 rstInfoLimit (stateOf log ctx) (stateOf (log ++ noted ctx ctx' op) ctx') := by
  cases op with
  | elapse clock =>
      obtain rfl := Option.some.inj hstep
      unfold stateOf
      rw [show noted ctx _ (.elapse clock) = [] from rfl, List.append_nil]
      exact .wait _ _ hclock
  | setSendBufferSize => obtain rfl := Option.some.inj hstep; exact step_of_view rfl rfl
  | setRecvBufferSize => obtain rfl := Option.some.inj hstep; exact step_of_view rfl rfl
  | setTargetDelay => obtain rfl := Option.some.inj hstep; exact step_of_view rfl rfl
  | processUdp buf addr firewall =>
      obtain rfl := Option.some.inj hstep
      -- only stray datagrams touch the cache
      by_cases hstray : Strays ctx buf addr
      · rw [noted_of_stray hstray, processUdp_of_stray hstray]
        exact step_of_rejected (rejectUnknown_clock _ _ _ _) (rejected _ _ _ _)
      · rcases aside_rst.processUdp ctx buf addr firewall with hsame | ⟨hstray', -⟩
        · exact step_of_view hsame (noted_of_known hstray)
        · exact absurd hstray' hstray
  | checkTimeouts order =>
      obtain ⟨-, hstep⟩ := Option.ite_none_right_eq_some.mp hstep
      obtain rfl := Option.some.inj hstep
      have hview := aside_rst.checkTimeouts ctx order
      by_cases hlimited : ctx.rateLimited = true
      · rw [if_pos hlimited] at hview
        exact step_of_view hview rfl
      · rw [if_neg hlimited] at hview
        obtain ⟨hinfo, hpair⟩ := Prod.mk.inj hview
        obtain ⟨-, hclock⟩ := Prod.mk.inj hpair
        unfold stateOf
        rw [show noted ctx _ (.checkTimeouts order) = [] from rfl, List.append_nil, hinfo, hclock]
        -- a sweep that is not rate limited purges
        exact step_of_purge ctx.clock.millis
          (fun r hr => hsound.past (streamOf r, r.timestamp) (List.mem_map_of_mem hr))
  | connect => exact step_of_view (aside_rst.connect hstep) rfl
  | destroyAll order =>
      obtain ⟨-, hstep⟩ := Option.ite_none_right_eq_some.mp hstep
      obtain rfl := Option.some.inj hstep
      exact step_of_view (aside_rst.destroyAll ctx order) rfl
  | _ => exact step_of_view (aside_rst.step hstep rfl) rfl

/-- **THE ENGINE IS A SOUND CACHE** in every run. -/
theorem Traffic.sound {log : List (Request Stream)} {ctx : Context} (h : Traffic log ctx) :
    Sound 10000 rstInfoLimit (stateOf log ctx) := by
  induction h with
  | new => exact sound_empty _ _ _
  | step op _ hstep hclock ih => exact ih.step (cache_step ih hstep hclock)

/-! ## The result -/

/-- The RSTs that one operation sends. -/
theorem resets_step {ctx ctx' : Context} {op : Op} (hstep : ctx.step op = some ctx') :
    resets ctx' = resets ctx
      ∨ ∃ k seqNr, strayOf ctx op = some k ∧ k ∉ streamsOf ctx.rstInfo
        ∧ resets ctx' = resets ctx ++ [⟨none, k.addr, Context.rstDatagram k.connid k.ackNr seqNr, none⟩] := by
  have hview : rstView ctx' = rstView ctx → resets ctx' = resets ctx := fun h =>
    (Prod.mk.inj (Prod.mk.inj h).2).1
  cases op with
  | elapse => obtain rfl := Option.some.inj hstep; exact .inl rfl
  | setSendBufferSize => obtain rfl := Option.some.inj hstep; exact .inl rfl
  | setRecvBufferSize => obtain rfl := Option.some.inj hstep; exact .inl rfl
  | setTargetDelay => obtain rfl := Option.some.inj hstep; exact .inl rfl
  | processUdp buf addr firewall =>
      obtain rfl := Option.some.inj hstep
      rcases aside_rst.processUdp ctx buf addr firewall with hsame | ⟨hstray, heq⟩
      · exact .inl (hview hsame)
      · have hrej := rejected ctx addr (connId buf).toUInt32 (seqNr buf)
        rw [← heq] at hrej
        -- only a new stream below the limit is answered
        cases hrej with
        | refreshed _ _ _ _ _ _ hresets => exact .inl hresets
        | ignored _ _ hresets => exact .inl hresets
        | reset hnew _ _ seq hresets => exact .inr ⟨_, seq, if_pos hstray, hnew, hresets⟩
  | checkTimeouts order =>
      obtain ⟨-, hstep⟩ := Option.ite_none_right_eq_some.mp hstep
      obtain rfl := Option.some.inj hstep
      refine .inl ((Prod.mk.inj (Prod.mk.inj (aside_rst.checkTimeouts ctx order)).2).1.trans ?_)
      split <;> rfl
  | connect => exact .inl (hview (aside_rst.connect hstep))
  | destroyAll order =>
      obtain ⟨-, hstep⟩ := Option.ite_none_right_eq_some.mp hstep
      obtain rfl := Option.some.inj hstep
      exact .inl (hview (aside_rst.destroyAll ctx order))
  | _ => exact .inl (hview (aside_rst.step hstep rfl))

/-- What a sweep keeps of the cache. -/
theorem mem_swept {ctx : Context} (order : List Key) (hdue : ctx.rateLimited = false)
    (r : RstInfo) :
    r ∈ (ctx.checkTimeouts order).rstInfo
      ↔ r ∈ ctx.rstInfo ∧ expired ctx.clock.millis r = false := by
  have hview := aside_rst.checkTimeouts ctx order
  rw [hdue, if_neg Bool.false_ne_true] at hview
  rw [show (ctx.checkTimeouts order).rstInfo = _ from (Prod.mk.inj hview).1,
    (purgeRst_perm _ _).mem_iff, List.mem_filter, Bool.not_eq_true']

/-- **A STRAY STREAM IS RESET ONCE, UNTIL IT HAS BEEN SILENT**: after any
    traffic, no two entries of the cache are for one stream and it has at most
    1001; an RST is sent only for a stray datagram whose stream is not cached;
    a sweep that is not rate-limited removes exactly the entries whose last
    stray datagram is ten seconds old; and between two RSTs for one stream
    there were ten seconds without a stray datagram of it. -/
theorem rst_suppressed {log : List (Request Stream)} {ctx : Context} (h : Traffic log ctx) :
    (streamsOf ctx.rstInfo).Nodup
      ∧ ctx.rstInfo.length ≤ 1001
      ∧ (∀ op ctx', ctx.step op = some ctx' → resets ctx' = resets ctx
        ∨ ∃ k seqNr, strayOf ctx op = some k ∧ k ∉ streamsOf ctx.rstInfo
          ∧ resets ctx'
            = resets ctx ++ [⟨none, k.addr, Context.rstDatagram k.connid k.ackNr seqNr, none⟩])
      ∧ (∀ order, ctx.rateLimited = false →
        (∀ r ∈ (ctx.checkTimeouts order).rstInfo, r ∈ ctx.rstInfo)
          ∧ ∀ r ∈ ctx.rstInfo, ∃ last, lastSeen (streamOf r) log = some last
            ∧ last ≤ ctx.clock.millis
            ∧ (ctx.clock.millis - last < 2 ^ 31 →
              (r ∈ (ctx.checkTimeouts order).rstInfo ↔ ctx.clock.millis - last < 10000)))
      ∧ ∀ k pre r mid r' post, requests k log = pre ++ r :: mid ++ r' :: post →
        r.answered = true → r'.answered = true → Silence 10000 (r :: mid ++ [r']) := by
  have hsound := h.sound
  refine ⟨?_, ?_, fun op ctx' hstep => resets_step hstep, fun order hdue => ⟨fun r hr => ?_,
    fun r hr => ?_⟩, hsound.separated⟩
  · rw [← map_fst_entriesOf]
    exact hsound.nodup
  · have hlen := hsound.bounded
    unfold stateOf entriesOf at hlen
    rw [List.length_map] at hlen
    exact hlen
  · exact ((mem_swept order hdue r).mp hr).1
  · -- the record tells when its stream was last seen
    have hentry : (streamOf r, r.timestamp) ∈ entriesOf ctx.rstInfo := List.mem_map_of_mem hr
    have hpast : r.timestamp ≤ ctx.clock.millis := hsound.past _ hentry
    refine ⟨r.timestamp, hsound.stamped _ hentry, hpast, fun hage => ?_⟩
    rw [mem_swept order hdue]
    constructor
    · rintro ⟨-, hyoung⟩
      by_contra hold
      rw [(expired_iff hpast hage).mpr (by omega)] at hyoung
      exact nomatch hyoung
    · intro hyoung
      refine ⟨hr, Bool.eq_false_iff.mpr (fun hold => ?_)⟩
      have := (expired_iff hpast hage).mp hold
      omega

/-- A sweep does not move the clock. -/
theorem Traffic.sweep {log : List (Request Stream)} {ctx : Context} (h : Traffic log ctx)
    {order : List Key} (horder : ctx.Enumerates order) :
    Traffic (log ++ []) (ctx.checkTimeouts order) := by
  have hclock : (ctx.checkTimeouts order).clock = ctx.clock := by
    refine (Prod.mk.inj (Prod.mk.inj (aside_rst.checkTimeouts ctx order)).2).2.trans ?_
    split <;> rfl
  exact h.step (.checkTimeouts order) (if_pos horder) (Nat.le_of_eq (by rw [hclock]))

/-- A datagram of a connection that nobody knows arrives, ten seconds pass with
    a sweep at their end, and it arrives again. -/
theorem rst_suppressed_again :
    ∃ log ctx, Traffic log ctx
      ∧ log = [⟨⟨peerAddr, 77, 5⟩, 1000, true⟩, ⟨⟨peerAddr, 77, 5⟩, 11000, true⟩]
      ∧ Silence 10000 log := by
  have hstart : Traffic [] (freshEngine 0) := .new _ _ _ _ _
  have hfirst := hstart.step (arrives (datagram stData 77 5 0 [])) rfl (by decide +kernel)
  have hwait := hfirst.step (.elapse ⟨10000000⟩) rfl (by decide +kernel)
  have hsweep := @Traffic.sweep _ _ hwait [] (by decide +kernel)
  have hagain := hsweep.step (arrives (datagram stData 77 5 0 [])) rfl (by decide +kernel)
  refine ⟨_, _, hagain, by decide +kernel, ?_⟩
  exact (rst_suppressed hagain).2.2.2.2 ⟨peerAddr, 77, 5⟩ [] ⟨⟨peerAddr, 77, 5⟩, 1000, true⟩ []
    ⟨⟨peerAddr, 77, 5⟩, 11000, true⟩ [] (by decide +kernel) rfl rfl

end UtpRstCache
