import RustUtp.Emissions
import RustUtp.Datagrams
import RustUtp.Eof

/-! # The ack list — a flag in the socket and a key in the engine

    An ack that can wait is noted twice: the socket's `in_ack_list` flag is set
    and its key joins `ack_list`.  `Listed` says that the two agree.  Every act
    keeps them in step, the sweep that issues the acks clears both, and an ack
    that is owed stays owed until a datagram of the same connection covers it. -/

namespace UtpAckList

open UtpCircular UtpPacket UtpUtil UtpConnShared UtpEngine UtpEngine.Detached UtpActs
  UtpDatagrams UtpEmissions LabelledPath

structure Listed (ctx : Context) : Prop where
  keys : ∀ k s, ctx.sockets.lookup k = some s → s.key = k
  nodup : ctx.ackList.Nodup
  mem : ∀ k, k ∈ ctx.ackList ↔ ∃ s, ctx.sockets.lookup k = some s ∧ s.inAckList = true

/-! ## One socket -/

/-- The list holds the key of a detached socket exactly when its flag is set. -/
structure Tidy (m : Detached) : Prop where
  nodup : m.ctx.ackList.Nodup
  own : m.sock.key ∈ m.ctx.ackList ↔ m.sock.inAckList = true

/-- A socket keeps the list tidy and leaves the keys of others alone. -/
structure Tidies (m m' : Detached) : Prop where
  key : m'.sock.key = m.sock.key
  tidy : Tidy m → Tidy m'
  others : ∀ k, k ≠ m.sock.key → (k ∈ m'.ctx.ackList ↔ k ∈ m.ctx.ackList)

namespace Tidies

theorem refl (m : Detached) : Tidies m m := ⟨rfl, id, fun _ _ => Iff.rfl⟩

theorem trans (m₁ m₂ m₃ : Detached) (h : Tidies m₁ m₂) (h' : Tidies m₂ m₃) : Tidies m₁ m₃ := by
  refine ⟨h'.key.trans h.key, fun ht => h'.tidy (h.tidy ht), fun k hk => ?_⟩
  exact (h'.others k (by rw [h.key]; exact hk)).trans (h.others k hk)

end Tidies

/-- Removing a key leaves the others. -/
theorem mem_unlisted_of_ne {m : Detached} {k : Key} (hk : k ≠ m.sock.key) :
    k ∈ unlisted m ↔ k ∈ m.ctx.ackList := by
  unfold unlisted
  split
  · simp [hk]
  · exact Iff.rfl

/-- The removed key is gone: it stood there once at most. -/
theorem not_mem_unlisted {m : Detached} (h : Tidy m) : m.sock.key ∉ unlisted m := by
  unfold unlisted
  split
  · simp
  · rename_i hflag
    rw [h.own]
    exact hflag

/-- Removing keeps the list free of duplicates. -/
theorem nodup_unlisted {m : Detached} (h : Tidy m) : (unlisted m).Nodup := by
  unfold unlisted
  split
  · exact h.nodup.filter _
  · exact h.nodup

/-- Scheduling an ack lists the key once, with the flag. -/
theorem tidies_scheduleAck (m : Detached) : Tidies m m.scheduleAck := by
  unfold scheduleAck
  split
  · exact Tidies.refl m
  · rename_i hflag
    refine ⟨rfl, fun ht => ⟨?_, ?_⟩, fun k hk => ?_⟩
    · have hnot : m.sock.key ∉ m.ctx.ackList := fun hmem => hflag (ht.own.mp hmem)
      exact List.nodup_append.mpr ⟨ht.nodup, List.nodup_singleton _, fun a ha b hb hab =>
        hnot ((List.mem_singleton.mp hb) ▸ hab ▸ ha)⟩
    · simp
    · simp [hk]

/-- A datagram pays the ack and takes the key off the list. -/
theorem tidies_of_effect {occ : Occasion} (hissue : occ.issuing = false) {m m' : Detached}
    (hkey : m'.sock.key = m.sock.key) (h : Effect occ m m') : Tidies m m' := by
  cases h with
  | silent _ hlist hflag =>
      refine ⟨hkey, fun ht => ⟨?_, ?_⟩, fun k _ => by rw [hlist]⟩
      · rw [hlist]
        exact ht.nodup
      · rw [hlist, hkey, hflag]
        exact ht.own
  | sends src _ _ hlist hflag =>
      refine ⟨hkey, fun ht => ⟨?_, ?_⟩, fun k hk => ?_⟩
      · rw [hlist]
        exact nodup_unlisted ht
      · rw [hlist, hkey, hflag]
        exact ⟨fun hmem => absurd hmem (not_mem_unlisted ht), fun hf => nomatch hf⟩
      · rw [hlist]
        exact mem_unlisted_of_ne hk
  | defers heq =>
      rw [heq]
      exact tidies_scheduleAck m
  | unlists hdue => exact absurd hdue (by rw [hissue]; exact Bool.false_ne_true)

/-- What every effect relates, every act relates. -/
theorem lift_act {occ : Occasion} {S : Detached → Detached → Prop} (hrefl : ∀ m, S m m)
    (htrans : ∀ a b c, S a b → S b c → S a c)
    (heff : ∀ m m', ident m'.sock = ident m.sock → Effect occ m m' → S m m')
    {l : Bytes} {m m' : Detached} (h : Act occ l m m') : S m m' := by
  rcases Act.effect h with he | ⟨data, -, hdrain⟩
  · exact heff m m' h.ident_eq he
  · exact DrainPath.lift hrefl htrans (fun _ a b hab => heff a b hab.ident_eq (DrainAct.effect hab))
      (heff _ _ (ident_acceptNext m data) (effect_acceptNext m data)) hdrain

/-- **EVERY ACT** but the sweep keeps flag and list together. -/
theorem tidies_act {occ : Occasion} (hissue : occ.issuing = false) {l : Bytes}
    {m m' : Detached} (h : Act occ l m m') : Tidies m m' :=
  lift_act Tidies.refl Tidies.trans
    (fun _ _ hid he => tidies_of_effect hissue (congrArg Ident.key hid) he) h

/-! ## The table -/

/-- A table that has a socket under `key` agrees with the list when the socket
    does and all the others do. -/
theorem listed_attach {key : Key} {m : Detached} (hout : m.ctx.sockets.lookup key = none) :
    Listed (Context.attach key m) ↔ m.sock.key = key ∧ Tidy m
      ∧ (∀ k s, m.ctx.sockets.lookup k = some s → s.key = k)
      ∧ ∀ k, k ≠ key → (k ∈ m.ctx.ackList
        ↔ ∃ s, m.ctx.sockets.lookup k = some s ∧ s.inAckList = true) := by
  have hlist : (Context.attach key m).ackList = m.ctx.ackList := rfl
  constructor
  · intro h
    -- the attached socket stands under its own key
    have hkey : m.sock.key = key := h.keys key m.sock (by rw [lookup_attach, if_pos rfl])
    refine ⟨hkey, ⟨h.nodup, ?_⟩, fun k s hs => h.keys k s ?_, fun k hk => ?_⟩
    · have hmem := h.mem key
      simp only [lookup_attach, if_pos, hlist] at hmem
      rw [hkey, hmem]
      simp
    · rw [lookup_attach, if_neg (fun hk => by rw [hk, hout] at hs; exact nomatch hs), hs]
    · have hmem := h.mem k
      simp only [lookup_attach, if_neg hk, hlist] at hmem
      exact hmem
  · rintro ⟨hkey, htidy, hkeys, hmem⟩
    refine ⟨fun k s hs => ?_, htidy.nodup, fun k => ?_⟩
    · rw [lookup_attach] at hs
      split at hs
      · rename_i hk
        rw [← Option.some.inj hs, hk, hkey]
      · exact hkeys k s hs
    · rw [hlist]
      -- the attached key by the flag of the socket, every other key as before
      by_cases hk : k = key
      · subst hk
        rw [← hkey, htidy.own, hkey]
        simp [lookup_attach]
      · simp only [lookup_attach, if_neg hk]
        exact hmem k hk

/-- A socket that is new in the table and not flagged. -/
theorem listed_new {ctx : Context} {key : Key} {m : Detached} (h : Listed ctx)
    (hfree : ctx.sockets.lookup key = none) (hsocks : m.ctx.sockets = ctx.sockets)
    (hlist : m.ctx.ackList = ctx.ackList) (hkey : m.sock.key = key)
    (hflag : m.sock.inAckList = false) : Listed (Context.attach key m) := by
  have hnot : key ∉ ctx.ackList := by
    rw [h.mem, hfree]
    rintro ⟨s, hs, -⟩
    exact nomatch hs
  refine (listed_attach (by rw [hsocks]; exact hfree)).mpr ⟨hkey, ⟨?_, ?_⟩, ?_, ?_⟩
  · rw [hlist]
    exact h.nodup
  · rw [hlist, hkey, hflag]
    exact ⟨fun hmem => absurd hmem hnot, fun hf => nomatch hf⟩
  · rw [hsocks]
    exact h.keys
  · intro k _
    rw [hsocks, hlist]
    exact h.mem k

/-- The list is about the table and itself. -/
theorem listed_same {ctx ctx' : Context} (h : Listed ctx) (hsocks : ctx'.sockets = ctx.sockets)
    (hlist : ctx'.ackList = ctx.ackList) : Listed ctx' := by
  refine ⟨?_, ?_, ?_⟩
  · rw [hsocks]
    exact h.keys
  · rw [hlist]
    exact h.nodup
  · rw [hsocks, hlist]
    exact h.mem

/-- Answering an unknown connection leaves the list. -/
theorem ackList_rejectUnknown (ctx : Context) (addr : SocketAddr) (id : UInt32)
    (seqNr : UInt16) : (ctx.rejectUnknown addr id seqNr).ackList = ctx.ackList := by
  unfold Context.rejectUnknown
  dsimp only
  split
  · rfl
  · split <;> rfl

/-- One act of the engine keeps the list true. -/
theorem listed_engineAct {occ : Occasion} (hissue : occ.issuing = false) {l : Bytes}
    {ctx ctx' : Context} (hact : EngineAct occ l ctx ctx') (h : Listed ctx) : Listed ctx' := by
  cases hact with
  | @sock key _ m m' hout hact =>
      have ht := tidies_act hissue hact
      have hsocks : m'.ctx.sockets = m.ctx.sockets :=
        congrArg Surroundings.sockets hact.surroundings_eq
      -- inside one act only the entry of its own key can change
      obtain ⟨hkey, htidy, hkeys, hmem⟩ := (listed_attach hout).mp h
      refine (listed_attach (by rw [hsocks]; exact hout)).mpr
        ⟨ht.key.trans hkey, ht.tidy htidy, ?_, fun k hk => ?_⟩
      · rw [hsocks]
        exact hkeys
      · rw [hsocks, ht.others k (by rw [hkey]; exact hk)]
        exact hmem k hk
  | dial _ addr seed rng _ hfree =>
      exact listed_new h hfree (dialled_sockets ctx addr seed rng) rfl
        (dialled_key ctx addr seed rng) rfl
  | accept _ buf addr _ _ hfree => exact listed_new h hfree rfl rfl rfl rfl
  | remove key m _ hout =>
      obtain ⟨hkey, htidy, hkeys, hmem⟩ := (listed_attach hout).mp h
      -- destroying a socket takes it off the list
      have hlist : (Context.destroySock m).ackList = unlisted m :=
        ackList_ackListRemove (m.notify (·.onDestroying))
      refine ⟨?_, ?_, fun k => ?_⟩
      · rw [destroySock_sockets]
        exact hkeys
      · rw [hlist]
        exact nodup_unlisted htidy
      · rw [destroySock_sockets, hlist]
        by_cases hk : k = key
        · rw [hk, hout, ← hkey]
          exact ⟨fun hin => absurd hin (not_mem_unlisted htidy), fun ⟨_, hs, _⟩ => nomatch hs⟩
        · rw [mem_unlisted_of_ne (by rw [hkey]; exact hk)]
          exact hmem k hk
  | reject _ buf addr =>
      exact listed_same h (rejectUnknown_sockets ..) (ackList_rejectUnknown ..)
  | settings => exact listed_same h rfl rfl
  | takeAcks _ hwhy =>
      -- the list is taken for the sweep, or it was empty
      rcases hwhy with hdue | hempty
      · exact absurd hdue (by rw [hissue]; exact Bool.false_ne_true)
      · refine ⟨h.keys, List.nodup_nil, fun k => ?_⟩
        show k ∈ [] ↔ ∃ s, ctx.sockets.lookup k = some s ∧ s.inAckList = true
        rw [hempty]
        simp
  | consume => exact listed_same h rfl rfl
  | markClosed => exact listed_same h rfl rfl

theorem listed_path {occ : Occasion} (hissue : occ.issuing = false) {l : Bytes}
    {ctx ctx' : Context} (hpath : EnginePath occ l ctx ctx') : Listed ctx → Listed ctx' :=
  Steps.invariant (P := Listed) (fun _ _ _ ha hl => listed_engineAct hissue ha hl) hpath

/-! ## The sweep -/

/-- What issuing the ack of one socket does. -/
theorem issueAck_spec {ctx : Context} {key : Key} {s : UtpSock}
    (hs : ctx.sockets.lookup key = some s) :
    ∃ s' d, (∀ k, (ctx.issueAck key).sockets.lookup k
        = if k = key then some s' else ctx.sockets.lookup k)
      ∧ s'.key = s.key ∧ s'.user = s.user ∧ s'.inAckList = false
      ∧ (ctx.issueAck key).ackList = ctx.ackList
      ∧ (ctx.issueAck key).wire = ctx.wire ++ [d] ∧ d.src = some s.user
      ∧ d.dst = s.key.addr ∧ packetType d.bytes = stState := by
  unfold Context.issueAck Context.withSock
  rw [hs]
  dsimp only
  -- the flag is cleared before the ack is sent
  generalize hm : ({ ctx.detach key s with
    sock := { (ctx.detach key s).sock with inAckList := false } } : Detached) = m
  have hsock : m.sock = { s with inAckList := false } := by rw [← hm]; rfl
  have hctx : m.ctx = (ctx.detach key s).ctx := by rw [← hm]
  have hsocks : (m.sendAck false).ctx.sockets = ctx.sockets.erase key := by
    rw [show (m.sendAck false).ctx.sockets = m.ctx.sockets from
      congrArg Surroundings.sockets (surroundings_sendAck m false), hctx]
    rfl
  have hident : ident (m.sendAck false).sock = ident s := by
    rw [ident_sendAck, hsock]
    rfl
  refine ⟨(m.sendAck false).sock, Source.ack.sent m, fun k => ?_, congrArg Ident.key hident,
    congrArg Ident.user hident, flag_sendAck m false, ?_, ?_, ?_, ?_, ?_⟩
  · -- the socket is put back under its key
    rw [lookup_attach, hsocks]
    split
    · rfl
    · rename_i hk
      rw [Finmap.lookup_erase_ne hk]
  · show (m.sendAck false).ctx.ackList = ctx.ackList
    rw [ackList_sendAck]
    unfold unlisted
    rw [hsock, if_neg Bool.false_ne_true, hctx]
    rfl
  · show (m.sendAck false).ctx.wire = _
    rw [wire_sendAck, hctx]
    rfl
  · show some m.sock.user = _
    rw [hsock]
  · show m.sock.key.addr = _
    rw [hsock]
  · -- the datagram is an ST_STATE
    show packetType (m.stampTimes m.ackDatagram) = stState
    have hlen : headerSize ≤ m.ackDatagram.length := by
      rw [length_ackDatagram]
      exact Nat.le_add_right _ _
    have hhdr := hdr_stampTimes m hlen
    rw [hdr_ackDatagram] at hhdr
    exact congrArg Hdr.packetType hhdr

/-- The connection whose socket sits under `k`. -/
def userAt (ctx : Context) (k : Key) : Option UserId := (ctx.sockets.lookup k).map (·.user)

/-- One ack for each of `keys`, in their order. -/
structure AcksFor (ctx : Context) (keys : List Key) (acks : List Sent) : Prop where
  users : acks.map (·.src) = keys.map (userAt ctx)
  addrs : acks.map (·.dst) = keys.map (·.addr)
  states : ∀ d ∈ acks, packetType d.bytes = stState

/-- The sweep over `keys` sends one ack for each of them and clears its flag. -/
theorem issueEach (keys : List Key) (hnodup : keys.Nodup) :
    ∀ ctx : Context, (∀ k s, ctx.sockets.lookup k = some s → s.key = k) →
      (∀ k ∈ keys, ∃ s, ctx.sockets.lookup k = some s) →
      (keys.foldl Context.issueAck ctx).ackList = ctx.ackList
      ∧ (∃ acks, (keys.foldl Context.issueAck ctx).wire = ctx.wire ++ acks
        ∧ AcksFor ctx keys acks)
      ∧ ∀ k, if k ∈ keys then ∃ s', (keys.foldl Context.issueAck ctx).sockets.lookup k = some s'
          ∧ s'.key = k ∧ s'.inAckList = false
        else (keys.foldl Context.issueAck ctx).sockets.lookup k = ctx.sockets.lookup k := by
  induction keys with
  | nil =>
      intro ctx _ _
      exact ⟨rfl, ⟨[], (List.append_nil _).symm, rfl, rfl, by simp⟩, fun k => by
        rw [if_neg (by simp)]; rfl⟩
  | cons key rest ih =>
      intro ctx hkeys hall
      obtain ⟨hnew, hrest⟩ := List.nodup_cons.mp hnodup
      obtain ⟨s, hs⟩ := hall key (List.mem_cons_self ..)
      have hkey := hkeys key s hs
      obtain ⟨s', d, hlookup, hkey', huser, hflag, hlist, hwire, hsrc, hdst, hty⟩ :=
        issueAck_spec hs
      rw [List.foldl_cons]
      -- the ack of one socket leaves the others
      have hother : ∀ k, k ≠ key →
          (ctx.issueAck key).sockets.lookup k = ctx.sockets.lookup k := by
        intro k hk
        rw [hlookup, if_neg hk]
      have hself : (ctx.issueAck key).sockets.lookup key = some s' := by
        rw [hlookup, if_pos rfl]
      have hkeys₁ : ∀ k t, (ctx.issueAck key).sockets.lookup k = some t → t.key = k := by
        intro k t ht
        rw [hlookup] at ht
        split at ht
        · rename_i hk
          rw [← Option.some.inj ht, hkey', hkey, hk]
        · exact hkeys k t ht
      have hall₁ : ∀ k ∈ rest, ∃ t, (ctx.issueAck key).sockets.lookup k = some t := by
        intro k hk
        rw [hother k (fun h => hnew (h ▸ hk))]
        exact hall k (List.mem_cons_of_mem _ hk)
      obtain ⟨hlist', ⟨acks, hwire', hacks⟩, htable⟩ :=
        ih hrest (ctx.issueAck key) hkeys₁ hall₁
      -- the first ack, and those of the rest behind it
      refine ⟨hlist'.trans hlist, ⟨d :: acks, ?_, ?_, ?_, ?_⟩, fun k => ?_⟩
      · rw [hwire', hwire, List.append_assoc]
        rfl
      · rw [List.map_cons, List.map_cons, hsrc, hacks.users]
        refine congrArg₂ List.cons ?_ (List.map_congr_left (fun k hk => ?_))
        · unfold userAt
          rw [hs]
          rfl
        · unfold userAt
          rw [hother k (fun h => hnew (h ▸ hk))]
      · rw [List.map_cons, List.map_cons, hdst, hacks.addrs, hkey]
      · intro d' hd'
        rcases List.mem_cons.mp hd' with rfl | hd'
        · exact hty
        · exact hacks.states d' hd'
      · have hk := htable k
        -- a key of the rest, the first key, or neither
        by_cases hin : k ∈ rest
        · rw [if_pos hin] at hk
          rw [if_pos (List.mem_cons_of_mem _ hin)]
          exact hk
        · rw [if_neg hin] at hk
          by_cases heq : k = key
          · subst heq
            rw [if_pos (List.mem_cons_self ..)]
            exact ⟨s', hk.trans hself, hkey'.trans hkey, hflag⟩
          · rw [if_neg (by simp [heq, hin]), hk, hother k heq]

/-- **THE SWEEP** issues exactly the acks on the list and leaves none. -/
theorem issueDeferredAcks_spec {ctx : Context} (h : Listed ctx) :
    Listed ctx.issueDeferredAcks ∧ ctx.issueDeferredAcks.ackList = []
      ∧ (∀ k s, ctx.issueDeferredAcks.sockets.lookup k = some s → s.inAckList = false)
      ∧ ∃ acks, ctx.issueDeferredAcks.wire = ctx.wire ++ acks
        ∧ AcksFor ctx ctx.ackList acks := by
  have hall : ∀ k ∈ ctx.ackList, ∃ s, ctx.sockets.lookup k = some s := by
    intro k hk
    obtain ⟨s, hs, -⟩ := (h.mem k).mp hk
    exact ⟨s, hs⟩
  obtain ⟨hlist, ⟨acks, hwire, hacks⟩, htable⟩ :=
    issueEach ctx.ackList h.nodup { ctx with ackList := [] } h.keys hall
  change (ctx.issueDeferredAcks).ackList = [] at hlist
  have hclear : ∀ k s, ctx.issueDeferredAcks.sockets.lookup k = some s →
      s.key = k ∧ s.inAckList = false := by
    intro k s hs
    have hk := htable k
    -- it was on the list and is cleared, or it had no flag
    by_cases hin : k ∈ ctx.ackList
    · rw [if_pos hin] at hk
      obtain ⟨s', hs', hkey, hflag⟩ := hk
      obtain rfl := Option.some.inj (hs.symm.trans hs')
      exact ⟨hkey, hflag⟩
    · rw [if_neg hin] at hk
      have hs₀ : ctx.sockets.lookup k = some s := hk.symm.trans hs
      refine ⟨h.keys k s hs₀, Bool.eq_false_iff.mpr (fun hflag => hin ?_)⟩
      exact (h.mem k).mpr ⟨s, hs₀, hflag⟩
  refine ⟨⟨fun k s hs => (hclear k s hs).1, ?_, fun k => ?_⟩, hlist,
    fun k s hs => (hclear k s hs).2, acks, hwire, hacks.users, hacks.addrs, hacks.states⟩
  · rw [hlist]
    exact List.nodup_nil
  · rw [hlist]
    refine ⟨fun hin => (by simp at hin), fun ⟨s, hs, hflag⟩ => ?_⟩
    rw [(hclear k s hs).2] at hflag
    exact nomatch hflag

/-! ## Every reachable engine -/

/-- The read side of `recv`, before the acks are issued. -/
theorem path_recvRead (ctx : Context) (key : Key) (user : UserId) (len : Nat) {occ : Occasion} :
    EnginePath occ [] ctx ((ctx.consume user len).readDrained key) :=
  (Steps.single (.consume ctx user len)).silent
    (path_withSock _ key _ (fun m => path_readDrained m))

/-- A read is a quiet look, or takes bytes, or empties the buffer and then
    issues the acks that are due. -/
theorem recv_cases (ctx : Context) (key : Key) (user : UserId) (len : Nat) :
    (ctx.recv key user len).1 = ctx
      ∨ (ctx.recv key user len).1 = ctx.consume user len
      ∨ (ctx.recv key user len).1 = ((ctx.consume user len).readDrained key).issueDeferredAcks := by
  unfold Context.recv
  dsimp only
  split
  · split
    · exact .inr (.inr rfl)
    · exact .inr (.inl rfl)
  · exact .inl rfl

/-- What acts outside a sweep keep and a sweep keeps, every operation keeps. -/
theorem step_cases {S : Context → Context → Prop} (hrefl : ∀ ctx, S ctx ctx)
    (htrans : ∀ a b c, S a b → S b c → S a c)
    (hpath : ∀ occ l a b, occ.issuing = false → EnginePath occ l a b → S a b)
    (hsweep : ∀ a, S a a.issueDeferredAcks) {ctx ctx' : Context} {op : Op}
    (h : ctx.step op = some ctx') : S ctx ctx' := by
  cases op with
  | issueDeferredAcks =>
      obtain rfl := Option.some.inj h
      exact hsweep ctx
  | recv key user len =>
      obtain rfl := Option.some.inj h
      rcases recv_cases ctx key user len with he | he | he
      · rw [he]
        exact hrefl ctx
      · rw [he]
        exact hpath ⟨none, false, false⟩ _ _ _ rfl (Steps.single (.consume ctx user len))
      · rw [he]
        exact htrans _ _ _ (hpath ⟨none, false, false⟩ _ _ _ rfl (path_recvRead ctx key user len))
          (hsweep _)
  | _ => exact hpath _ _ _ _ rfl (path_step h)

/-- **THE LIST IS TRUE** in every reachable state. -/
theorem reachable_listed {ctx : Context} (h : Reachable ctx) : Listed ctx := by
  induction h with
  | new clock rng transport fpu users =>
      refine ⟨fun k s hs => ?_, List.nodup_nil, fun k => ?_⟩
      · exact nomatch (Finmap.lookup_empty k).symm.trans hs
      · refine ⟨fun hin => (by simp [Context.new] at hin), fun ⟨s, hs, _⟩ => ?_⟩
        exact nomatch (Finmap.lookup_empty k).symm.trans hs
  | step op _ hstep ih =>
      exact step_cases (S := fun a b => Listed a → Listed b) (fun _ => id)
        (fun _ _ _ h h' ha => h' (h ha)) (fun _ _ _ _ hissue hp => listed_path hissue hp)
        (fun _ ha => (issueDeferredAcks_spec ha).1) hstep ih

/-! ## An ack that is owed -/

/-- Between `m` and `m'` the socket kept its flag or sent something. -/
structure Pays (m m' : Detached) : Prop where
  user : m'.sock.user = m.sock.user
  grows : m.ctx.wire <+: m'.ctx.wire
  owed : m.sock.inAckList = true → m'.sock.inAckList = true
    ∨ ∃ d ∈ m'.ctx.wire.drop m.ctx.wire.length, d.src = some m.sock.user

/-- What is new in a list is new in any list that continues it. -/
theorem mem_drop_of_prefix {α : Type} {w₁ w₂ w₃ : List α} (h : w₂ <+: w₃) {d : α}
    (hd : d ∈ w₂.drop w₁.length) : d ∈ w₃.drop w₁.length := by
  obtain ⟨t, rfl⟩ := h
  rw [List.drop_append]
  exact List.mem_append_left _ hd

/-- What is new after a later time is new after an earlier one. -/
theorem mem_drop_of_length {α : Type} {w₁ w₂ w₃ : List α} (h : w₁ <+: w₂) {d : α}
    (hd : d ∈ w₃.drop w₂.length) : d ∈ w₃.drop w₁.length :=
  List.drop_subset_drop_left w₃ h.length_le hd

namespace Pays

theorem refl (m : Detached) : Pays m m := ⟨rfl, List.prefix_refl _, .inl⟩

theorem trans (m₁ m₂ m₃ : Detached) (h : Pays m₁ m₂) (h' : Pays m₂ m₃) : Pays m₁ m₃ := by
  refine ⟨h'.user.trans h.user, h.grows.trans h'.grows, fun hflag => ?_⟩
  rcases h.owed hflag with hflag₂ | ⟨d, hd, hsrc⟩
  · rcases h'.owed hflag₂ with hflag₃ | ⟨d, hd, hsrc⟩
    · exact .inl hflag₃
    · exact .inr ⟨d, mem_drop_of_length h.grows hd, by rw [hsrc, h.user]⟩
  · exact .inr ⟨d, mem_drop_of_prefix h'.grows hd, hsrc⟩

end Pays

/-- A flag that goes down means a datagram that went out. -/
theorem pays_of_effect {occ : Occasion} (hissue : occ.issuing = false) {m m' : Detached}
    (huser : m'.sock.user = m.sock.user) (h : Effect occ m m') : Pays m m' := by
  cases h with
  | silent hwire _ hflag =>
      refine ⟨huser, by rw [hwire], fun hf => .inl ?_⟩
      rw [hflag]
      exact hf
  | sends src _ hwire _ _ =>
      refine ⟨huser, by rw [hwire]; exact List.prefix_append _ _, fun _ => .inr ?_⟩
      refine ⟨src.sent m, ?_, rfl⟩
      rw [hwire, List.drop_left]
      exact List.mem_singleton_self _
  | defers heq =>
      subst heq
      refine ⟨huser, by rw [wire_scheduleAck], fun hf => .inl ?_⟩
      unfold scheduleAck
      rw [if_pos hf]
      exact hf
  | unlists hdue => exact absurd hdue (by rw [hissue]; exact Bool.false_ne_true)

/-- **EVERY ACT** that takes the flag down has sent a datagram. -/
theorem pays_act {occ : Occasion} (hissue : occ.issuing = false) {l : Bytes}
    {m m' : Detached} (h : Act occ l m m') : Pays m m' :=
  lift_act Pays.refl Pays.trans
    (fun _ _ hid he => pays_of_effect hissue (congrArg Ident.user hid) he) h

theorem pays_path {occ : Occasion} (hissue : occ.issuing = false) {l : Bytes}
    {m m' : Detached} (h : ActPath occ l m m') : Pays m m' :=
  Steps.lift Pays.refl Pays.trans (fun _ _ _ ha => pays_act hissue ha) h

/-- Between two states of the engine, a connection that owes an ack and lives on
    owes it still or has sent something. -/
structure Carries (ctx ctx' : Context) : Prop where
  grows : ctx.wire <+: ctx'.wire
  traces : Traces (fun _ _ => True) ctx ctx'
  owed : ∀ k s s', ctx.sockets.lookup k = some s → s.user < ctx.nextUser →
    s.inAckList = true → ctx'.sockets.lookup k = some s' → s'.user = s.user →
    s'.inAckList = true ∨ ∃ d ∈ ctx'.wire.drop ctx.wire.length, d.src = some s.user

namespace Carries

/-- A step that leaves the sockets and the wire. -/
theorem of_same {ctx ctx' : Context} (hwire : ctx'.wire = ctx.wire)
    (htraces : Traces (fun _ _ => True) ctx ctx')
    (hsame : ∀ k s s', ctx.sockets.lookup k = some s → ctx'.sockets.lookup k = some s' →
      s' = s) : Carries ctx ctx' := by
  refine ⟨by rw [hwire], htraces, fun k s s' hs _ hflag hs' _ => .inl ?_⟩
  rw [hsame k s s' hs hs']
  exact hflag

theorem refl (ctx : Context) : Carries ctx ctx :=
  of_same rfl (Traces.refl (fun _ => trivial) ctx)
    (fun _ _ _ hs hs' => (Option.some.inj (hs.symm.trans hs')).symm)

theorem trans (a b c : Context) (h : Carries a b) (h' : Carries b c) : Carries a c := by
  refine ⟨h.grows.trans h'.grows, h.traces.trans (fun _ _ _ _ _ => trivial) h'.traces,
    fun k s s' hs hlt hflag hs' huser => ?_⟩
  rcases h'.traces.2 k s' hs' with hnew | ⟨s₁, hs₁, hu₁, -⟩
  · have hle : a.nextUser ≤ s'.user := Nat.le_trans h.traces.1 hnew.1
    rw [huser] at hle
    exact absurd hlt (Nat.not_lt.mpr hle)
  · rcases h.owed k s s₁ hs hlt hflag hs₁ (hu₁.trans huser) with hflag₁ | ⟨d, hd, hsrc⟩
    · have hlt₁ : s₁.user < b.nextUser := by
        rw [hu₁, huser]
        exact Nat.lt_of_lt_of_le hlt h.traces.1
      rcases h'.owed k s₁ s' hs₁ hlt₁ hflag₁ hs' hu₁.symm with hflag' | ⟨d, hd, hsrc⟩
      · exact .inl hflag'
      · exact .inr ⟨d, mem_drop_of_length h.grows hd, by rw [hsrc, hu₁, huser]⟩
    · exact .inr ⟨d, mem_drop_of_prefix h'.grows hd, hsrc⟩

end Carries

/-- An RST at most is added to the wire. -/
theorem wire_rejectUnknown (ctx : Context) (addr : SocketAddr) (id : UInt32) (seq : UInt16) :
    ctx.wire <+: (ctx.rejectUnknown addr id seq).wire := by
  unfold Context.rejectUnknown
  dsimp only
  split
  · exact List.prefix_refl _
  · split
    · exact List.prefix_refl _
    · exact List.prefix_append _ _

/-- One act of the engine. -/
theorem carries_engineAct {occ : Occasion} (hissue : occ.issuing = false) {l : Bytes}
    {ctx ctx' : Context} (hact : EngineAct occ l ctx ctx') : Carries ctx ctx' := by
  have htraces := EngineAct.traces (R := fun _ _ => True) (fun _ => trivial)
    (fun _ _ _ _ => trivial) hact
  -- a socket that is new under a free key is not the one that was there
  have hnew : ∀ (key : Key) (m : Detached), ctx.sockets.lookup key = none →
      m.ctx.sockets = ctx.sockets → ∀ k s s', ctx.sockets.lookup k = some s →
      (Context.attach key m).sockets.lookup k = some s' → s' = s := by
    intro key m hfree hsocks k s s' hs hs'
    rw [lookup_attach, if_neg (fun hk => by rw [hk, hfree] at hs; exact nomatch hs), hsocks,
      hs] at hs'
    exact (Option.some.inj hs').symm
  have hkept : ∀ {c : Context}, c.sockets = ctx.sockets → ∀ k s s',
      ctx.sockets.lookup k = some s → c.sockets.lookup k = some s' → s' = s := by
    intro c hsocks k s s' hs hs'
    rw [hsocks, hs] at hs'
    exact (Option.some.inj hs').symm
  cases hact with
  | @sock key _ m m' hout hact =>
      have hpays := pays_act hissue hact
      have hsocks : m'.ctx.sockets = m.ctx.sockets :=
        congrArg Surroundings.sockets hact.surroundings_eq
      refine ⟨hpays.grows, htraces, fun k s s' hs _ hflag hs' huser => ?_⟩
      rw [lookup_attach] at hs hs'
      split at hs
      · rename_i hk
        rw [if_pos hk] at hs'
        obtain rfl := Option.some.inj hs
        obtain rfl := Option.some.inj hs'
        exact hpays.owed hflag
      · rename_i hk
        rw [if_neg hk, hsocks, hs] at hs'
        rw [← Option.some.inj hs']
        exact .inl hflag
  | dial _ addr seed rng _ hfree =>
      exact .of_same rfl htraces (hnew _ _ hfree (dialled_sockets ctx addr seed rng))
  | accept _ buf addr _ _ hfree => exact .of_same rfl htraces (hnew _ _ hfree rfl)
  | remove key m _ hout =>
      refine .of_same (wire_ackListRemove _) htraces (fun k s s' hs hs' => ?_)
      rw [destroySock_sockets] at hs'
      rw [lookup_attach, if_neg (fun hk => by rw [hk, hout] at hs'; exact nomatch hs'),
        hs'] at hs
      exact Option.some.inj hs
  | reject _ buf addr =>
      refine ⟨wire_rejectUnknown .., htraces, fun k s s' hs _ hflag hs' _ => .inl ?_⟩
      rw [hkept (rejectUnknown_sockets ..) k s s' hs hs']
      exact hflag
  | settings => exact .of_same rfl htraces (hkept rfl)
  | takeAcks => exact .of_same rfl htraces (hkept rfl)
  | consume => exact .of_same rfl htraces (hkept rfl)
  | markClosed => exact .of_same rfl htraces (hkept rfl)

/-- A member of the image has a preimage. -/
theorem mem_of_map_eq {α β : Type} {l : List α} {f : α → β} {k : List β} (h : l.map f = k)
    {b : β} (hb : b ∈ k) : ∃ a ∈ l, f a = b := by
  rw [← h] at hb
  exact List.mem_map.mp hb

/-- The sweep sends an ack for every flag it takes down. -/
theorem carries_sweep {ctx : Context} (h : Listed ctx) : Carries ctx ctx.issueDeferredAcks := by
  obtain ⟨-, -, -, acks, hwire, hacks⟩ := issueDeferredAcks_spec h
  refine ⟨by rw [hwire]; exact List.prefix_append _ _, ?_, fun k s s' hs _ hflag _ _ => .inr ?_⟩
  · exact EnginePath.traces (fun _ => trivial) (fun _ _ _ _ _ => trivial)
      (fun _ _ _ _ => trivial)
      (@path_issueDeferredAcks (⟨none, true, false⟩) ctx rfl)
  · have hin : userAt ctx k ∈ ctx.ackList.map (userAt ctx) :=
      List.mem_map_of_mem ((h.mem k).mpr ⟨s, hs, hflag⟩)
    obtain ⟨d, hd, hsrc⟩ := mem_of_map_eq hacks.users hin
    refine ⟨d, ?_, ?_⟩
    · rw [hwire, List.drop_left]
      exact hd
    · rw [hsrc]
      unfold userAt
      rw [hs]
      rfl

/-- **ONE OPERATION** sends an ack for every flag it takes down. -/
theorem carries_step {ctx ctx' : Context} {op : Op} (hl : Listed ctx)
    (h : ctx.step op = some ctx') : Carries ctx ctx' := by
  refine (step_cases (S := fun a b => Listed a → Listed b ∧ Carries a b)
    (fun a ha => ⟨ha, Carries.refl a⟩) (fun a b c hab hbc ha => ?_)
    (fun occ _ a b hissue hp ha => ⟨listed_path hissue hp ha, ?_⟩)
    (fun a ha => ⟨(issueDeferredAcks_spec ha).1, carries_sweep ha⟩) h hl).2
  · obtain ⟨hb, h₁⟩ := hab ha
    obtain ⟨hc, h₂⟩ := hbc hb
    exact ⟨hc, h₁.trans _ _ _ h₂⟩
  · exact Steps.lift Carries.refl Carries.trans (fun _ _ _ hact => carries_engineAct hissue hact) hp

theorem carries_run (ops : List Op) :
    ∀ {ctx ctx' : Context}, Reachable ctx → ctx.run ops = some ctx' → Carries ctx ctx' := by
  induction ops with
  | nil =>
      intro ctx ctx' _ hrun
      obtain rfl := Option.some.inj hrun
      exact Carries.refl ctx
  | cons op rest ih =>
      intro ctx ctx' hreach hrun
      obtain ⟨ctx₁, hstep, hrest⟩ := Option.bind_eq_some_iff.mp hrun
      exact (carries_step (reachable_listed hreach) hstep).trans _ _ _
        (ih (hreach.step op hstep) hrest)

/-! ## New connections -/

/-- Transmitting a packet raises no flag. -/
theorem flag_sendPacketAt {m : Detached} (seq : UInt16) (h : m.sock.inAckList = false) :
    (m.sendPacketAt seq).sock.inAckList = false := by
  unfold sendPacketAt
  split
  · exact h
  · show ((m.countSend _).sendData _ _).sock.inAckList = false
    rw [sendData_sock]

/-- A new connection inherits no ack that was owed under its key: dialled. -/
theorem connect_unlisted {ctx ctx' : Context} (hreach : Reachable ctx) {addr : SocketAddr}
    {fuel : Nat} {key : Key} {user : UserId}
    (h : ctx.connect addr fuel = some (ctx', key, user)) : key ∉ ctx'.ackList := by
  have hl : Listed ctx' := reachable_listed (hreach.step (.connect addr fuel) (by
    show (ctx.connect addr fuel).map (·.1) = some ctx'
    rw [h]
    rfl))
  unfold Context.connect at h
  split at h
  · exact nomatch h
  · rename_i seed rng hseed
    obtain ⟨hctx, hkey⟩ := Prod.mk.inj (Option.some.inj h)
    rw [hl.mem, ← hctx, ← (Prod.mk.inj hkey).1, lookup_attach, if_pos rfl]
    rintro ⟨s, hs, hflag⟩
    rw [← Option.some.inj hs, flag_sendPacketAt _ rfl] at hflag
    exact nomatch hflag

theorem accept_unlisted {ctx ctx' : Context} (hreach : Reachable ctx) {buf : Bytes}
    {addr : SocketAddr} {firewall : SocketAddr → Bool} {key : Key} {user : UserId}
    (h : ctx.processUdp buf addr firewall = (ctx', .accepted key user)) : key ∉ ctx'.ackList := by
  have hl : Listed ctx' := reachable_listed (hreach.step (.processUdp buf addr firewall) (by
    show some (ctx.processUdp buf addr firewall).1 = some ctx'
    rw [h]))
  unfold Context.processUdp at h
  dsimp only at h
  repeat' split at h
  all_goals obtain ⟨hctx, hres⟩ := Prod.mk.inj h
  all_goals try contradiction
  rw [hl.mem, ← hctx, ← (ProcessUdp.accepted.inj hres).1, lookup_attach, if_pos rfl]
  rintro ⟨s, hs, hflag⟩
  rw [← Option.some.inj hs] at hflag
  rw [show (ctx.acceptSyn buf addr).sock.inAckList = false from flag_sendAck _ true] at hflag
  exact nomatch hflag

/-! ## The guarantee -/

/-- What an engine promises about deferred acks. -/
structure DeferredAcksOk (ctx : Context) : Prop where
  nodup : ctx.ackList.Nodup
  mem : ∀ k, k ∈ ctx.ackList ↔ ∃ s, ctx.sockets.lookup k = some s ∧ s.inAckList = true
  /-- within an operation, `schedule_ack` sets the flag until the socket sends -/
  deferred : ∀ occ l (m m' : Detached), occ.issuing = false → ActPath occ l m.scheduleAck m' →
    m'.ctx.wire = m.ctx.wire → m'.sock.inAckList = true
  /-- over any run, the flag stays until the connection sends something -/
  owed : ∀ ops ctx' k s s', ctx.run ops = some ctx' → ctx.sockets.lookup k = some s →
    s.inAckList = true → ctx'.sockets.lookup k = some s' → s'.user = s.user →
    s'.inAckList = true ∨ ∃ d ∈ ctx'.wire.drop ctx.wire.length, d.src = some s.user
  /-- the sweep sends one state packet for each socket on the list, and no other -/
  issued : ∃ acks, ctx.issueDeferredAcks.wire = ctx.wire ++ acks
    ∧ AcksFor ctx ctx.ackList acks ∧ (acks.map (·.src)).Nodup
  cleared : ctx.issueDeferredAcks.ackList = []
    ∧ ∀ k s, ctx.issueDeferredAcks.sockets.lookup k = some s → s.inAckList = false
  /-- a new connection owes nothing, whoever used its key before -/
  dialled : ∀ addr fuel ctx' key user,
    ctx.connect addr fuel = some (ctx', key, user) → key ∉ ctx'.ackList
  accepted : ∀ buf addr firewall ctx' key user,
    ctx.processUdp buf addr firewall = (ctx', .accepted key user) → key ∉ ctx'.ackList

/-- An ack that was deferred and not sent is still owed. -/
theorem deferred_flag {occ : Occasion} (hissue : occ.issuing = false) {l : Bytes}
    {m m' : Detached} (hpath : ActPath occ l m.scheduleAck m')
    (hwire : m'.ctx.wire = m.ctx.wire) : m'.sock.inAckList = true := by
  have hset : m.scheduleAck.sock.inAckList = true := by
    unfold scheduleAck
    split
    · assumption
    · rfl
  rcases (pays_path hissue hpath).owed hset with hflag | ⟨d, hd, -⟩
  · exact hflag
  · rw [wire_scheduleAck, hwire, List.drop_length] at hd
    exact absurd hd List.not_mem_nil

/-- **DEFERRED ACKS** are neither lost nor duplicated nor inherited, in every
    reachable engine. -/
theorem deferred_acks_ok {ctx : Context} (h : Reachable ctx) : DeferredAcksOk ctx := by
  have hl := reachable_listed h
  obtain ⟨-, hempty, hclear, acks, hwire, hacks⟩ := issueDeferredAcks_spec hl
  refine ⟨hl.nodup, hl.mem, fun _ _ _ _ hissue hpath hw => deferred_flag hissue hpath hw,
    fun ops ctx' k s s' hrun hs hflag hs' huser => ?_, ⟨acks, hwire, hacks, ?_⟩,
    ⟨hempty, hclear⟩, fun _ _ _ _ _ hc => connect_unlisted h hc,
    fun _ _ _ _ _ _ hp => accept_unlisted h hp⟩
  · exact (carries_run ops h hrun).owed k s s' hs (reachable_users h k s hs) hflag hs' huser
  · rw [hacks.users]
    refine List.Nodup.map_on (fun k hk k' hk' heq => ?_) hl.nodup
    obtain ⟨s, hs, -⟩ := (hl.mem k).mp hk
    obtain ⟨s', hs', -⟩ := (hl.mem k').mp hk'
    unfold userAt at heq
    rw [hs, hs'] at heq
    exact (UtpEof.reachable_cellInv h).unique k k' s s' hs hs' (Option.some.inj heq)

/-- An accepted connection that owes the ack of its first data packet. -/
theorem deferred_acks_accepted :
    ∃ ctx s, Reachable ctx ∧ ctx.sockets.lookup acceptedKey = some s
      ∧ ctx.ackList = [acceptedKey] ∧ s.inAckList = true ∧ DeferredAcksOk ctx := by
  obtain ⟨ctx, s, hreach, hs, hlist, hflag⟩ := detachedAfter_of 0 acceptOps acceptedKey
    (Q := fun m => m.ctx.ackList = [acceptedKey] ∧ m.sock.inAckList = true) (by decide +kernel)
  exact ⟨ctx, s, hreach, hs, hlist, hflag, deferred_acks_ok hreach⟩

end UtpAckList
