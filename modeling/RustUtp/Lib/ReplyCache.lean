import Mathlib.Data.List.Nodup
import Mathlib.Data.List.Perm.Subperm

/-! # Reply caches — answer a key once, until it has been silent

    A cache of time-stamped keys decides which requests are answered: a request
    whose key is cached only refreshes its stamp, one whose key is not may be
    answered and is cached then, and a purge forgets only stamps that are
    `timeout` old.  The log of all requests is kept beside the cache; what a
    stamp means, and how far apart two answers to one key are, is said about
    the log. -/

namespace ReplyCache

variable {K : Type}

structure Request (K : Type) where
  key : K
  time : Nat
  answered : Bool
  deriving DecidableEq

/-- A cache with the log of all requests so far. -/
structure State (K : Type) where
  log : List (Request K)
  entries : List (K × Nat)
  now : Nat

/-- The cache takes a new key while it has at most `limit`. -/
inductive Step (timeout limit : Nat) : State K → State K → Prop where
  | wait (log : List (Request K)) (entries : List (K × Nat)) {now now' : Nat} (h : now ≤ now') :
      Step timeout limit ⟨log, entries, now⟩ ⟨log, entries, now'⟩
  | refresh (log : List (Request K)) (pre post : List (K × Nat)) (k : K) (t now : Nat) :
      Step timeout limit ⟨log, pre ++ (k, t) :: post, now⟩
        ⟨log ++ [⟨k, now, false⟩], pre ++ (k, now) :: post, now⟩
  /-- no room left: neither answered nor cached -/
  | ignore (log : List (Request K)) {entries : List (K × Nat)} {k : K} (now : Nat)
      (hnew : k ∉ entries.map Prod.fst) :
      Step timeout limit ⟨log, entries, now⟩ ⟨log ++ [⟨k, now, false⟩], entries, now⟩
  | answer (log : List (Request K)) {entries : List (K × Nat)} {k : K} (now : Nat)
      (hnew : k ∉ entries.map Prod.fst) (hroom : entries.length ≤ limit) :
      Step timeout limit ⟨log, entries, now⟩ ⟨log ++ [⟨k, now, true⟩], entries ++ [(k, now)], now⟩
  | purge (log : List (Request K)) {entries kept : List (K × Nat)} {now : Nat}
      (hsub : kept.Subperm entries)
      (hold : ∀ e ∈ entries, e ∉ kept → e.2 + timeout ≤ now) :
      Step timeout limit ⟨log, entries, now⟩ ⟨log, kept, now⟩

/-! ## The requests for one key -/

variable [DecidableEq K]

def requests (k : K) (log : List (Request K)) : List (Request K) :=
  log.filter (fun r => r.key = k)

/-- When `k` was last asked for. -/
def lastSeen (k : K) (log : List (Request K)) : Option Nat :=
  (requests k log).getLast?.map Request.time

/-- Two requests in a row are at least `timeout` apart. -/
def Silence (timeout : Nat) (l : List (Request K)) : Prop :=
  ∃ pre a b post, l = pre ++ a :: b :: post ∧ a.time + timeout ≤ b.time

omit [DecidableEq K] in
/-- A longer silence. -/
theorem Silence.append {timeout : Nat} {l : List (Request K)} (h : Silence timeout l)
    (r : Request K) : Silence timeout (l ++ [r]) := by
  obtain ⟨pre, a, b, post, rfl, hgap⟩ := h
  refine ⟨pre, a, b, post ++ [r], ?_, hgap⟩
  simp

omit [DecidableEq K] in
/-- A late request ends a silence. -/
theorem silence_of_last {timeout : Nat} {l : List (Request K)} {d r : Request K}
    (hlast : l.getLast? = some d) (hgap : d.time + timeout ≤ r.time) :
    Silence timeout (l ++ [r]) := by
  obtain ⟨pre, rfl⟩ := List.getLast?_eq_some_iff.mp hlast
  exact ⟨pre, d, r, [], by simp, hgap⟩

/-- One more request for the key. -/
theorem requests_append_same (k : K) (log : List (Request K)) (t : Nat) (b : Bool) :
    requests k (log ++ [⟨k, t, b⟩]) = requests k log ++ [⟨k, t, b⟩] := by
  simp [requests]

/-- A request for another key. -/
theorem requests_append_other {k k' : K} (hne : k' ≠ k) (log : List (Request K)) (t : Nat)
    (b : Bool) : requests k (log ++ [⟨k', t, b⟩]) = requests k log := by
  simp [requests, hne]

/-- The last request for a key, after one more request. -/
theorem lastSeen_append (k k' : K) (log : List (Request K)) (t : Nat) (b : Bool) :
    lastSeen k (log ++ [⟨k', t, b⟩]) = if k' = k then some t else lastSeen k log := by
  unfold lastSeen
  by_cases hk : k' = k
  · rw [if_pos hk, hk, requests_append_same, List.getLast?_concat, Option.map_some]
  · rw [if_neg hk, requests_append_other hk]

/-! ## The invariant -/

/-- What is known after an answered request and those that followed it: the key
    is still cached, or there has been a silence, or there is one now. -/
def Pending (timeout : Nat) (cached : Prop) (now : Nat) (l : List (Request K)) : Prop :=
  cached ∨ Silence timeout l ∨ ∃ d, l.getLast? = some d ∧ d.time + timeout ≤ now

structure Sound (timeout limit : Nat) (s : State K) : Prop where
  nodup : (s.entries.map Prod.fst).Nodup
  bounded : s.entries.length ≤ limit + 1
  past : ∀ e ∈ s.entries, e.2 ≤ s.now
  /-- a stamp is the time of the last request for its key -/
  stamped : ∀ e ∈ s.entries, lastSeen e.1 s.log = some e.2
  pending : ∀ k pre r mid, requests k s.log = pre ++ r :: mid → r.answered = true →
    Pending timeout (k ∈ s.entries.map Prod.fst) s.now (r :: mid)
  separated : ∀ k pre r mid r' post, requests k s.log = pre ++ r :: mid ++ r' :: post →
    r.answered = true → r'.answered = true → Silence timeout (r :: mid ++ [r'])

/-- An empty cache is sound. -/
theorem sound_empty (timeout limit now : Nat) : Sound timeout limit (⟨[], [], now⟩ : State K) := by
  constructor
  · exact List.nodup_nil
  · exact Nat.zero_le _
  · intro e he
    exact nomatch he
  · intro e he
    exact nomatch he
  · intro k pre r mid h
    simp [requests] at h
  · intro k pre r mid r' post h
    simp [requests] at h

omit [DecidableEq K] in
/-- The last request of a list is the one split off, or lies behind it. -/
theorem getLast?_split (pre : List (Request K)) (r : Request K) (mid : List (Request K)) :
    (pre ++ r :: mid).getLast? = (r :: mid).getLast? := by
  rw [List.getLast?_append_of_ne_nil]
  exact List.cons_ne_nil r mid

omit [DecidableEq K] in
/-- One more request at the end of a list that was split somewhere. -/
theorem split_concat {l pre rest : List (Request K)} {x r : Request K}
    (h : l ++ [x] = pre ++ r :: rest) :
    (rest = [] ∧ r = x ∧ l = pre) ∨ ∃ rest', rest = rest' ++ [x] ∧ l = pre ++ r :: rest' := by
  rcases List.eq_nil_or_concat rest with hnil | ⟨rest', last, hrest⟩
  · rw [hnil] at h
    obtain ⟨hpre, hlast⟩ := List.append_inj' h rfl
    exact .inl ⟨hnil, (List.cons.inj hlast).1.symm, hpre⟩
  · rw [hrest, List.concat_eq_append, ← List.cons_append, ← List.append_assoc] at h
    obtain ⟨hpre, hlast⟩ := List.append_inj' h rfl
    rw [(List.cons.inj hlast).1]
    exact .inr ⟨rest', hrest.trans List.concat_eq_append, hpre⟩

/-- The pending half of the invariant after one more request for `k`. -/
theorem pending_concat {timeout now : Nat} {k k' : K} {log : List (Request K)}
    {entries entries' : List (K × Nat)} {b : Bool}
    (h : ∀ pre r mid, requests k log = pre ++ r :: mid → r.answered = true →
      Pending timeout (k ∈ entries.map Prod.fst) now (r :: mid))
    (hkeep : k ∈ entries.map Prod.fst → k ∈ entries'.map Prod.fst)
    (hnew : k' = k → b = true → k ∈ entries'.map Prod.fst)
    {pre mid : List (Request K)} {r : Request K}
    (hsplit : requests k (log ++ [⟨k', now, b⟩]) = pre ++ r :: mid) (hr : r.answered = true) :
    Pending timeout (k ∈ entries'.map Prod.fst) now (r :: mid) := by
  by_cases hk : k' = k
  · -- a request of this key, or of another
    subst hk
    rw [requests_append_same] at hsplit
    rcases split_concat hsplit with ⟨-, rfl, -⟩ | ⟨mid', rfl, hold⟩
    · exact .inl (hnew rfl hr)
    · rcases h pre r mid' hold hr with hcached | hsil | ⟨d, hlast, hgap⟩
      · exact .inl (hkeep hcached)
      · exact .inr (.inl (hsil.append _))
      · -- the key had been quiet long enough when this request came
        exact .inr (.inl (silence_of_last hlast hgap))
  · rw [requests_append_other hk] at hsplit
    rcases h pre r mid hsplit hr with hcached | hrest
    · exact .inl (hkeep hcached)
    · exact .inr hrest

/-- The other half: only an answer has to be far from the earlier ones. -/
theorem separated_concat {timeout now : Nat} {k k' : K} {log : List (Request K)} {b : Bool}
    (h : ∀ pre r mid r' post, requests k log = pre ++ r :: mid ++ r' :: post →
      r.answered = true → r'.answered = true → Silence timeout (r :: mid ++ [r']))
    (hnew : b = true → ∀ pre r mid, requests k' log = pre ++ r :: mid → r.answered = true →
      Pending timeout False now (r :: mid))
    {pre mid post : List (Request K)} {r r' : Request K}
    (hsplit : requests k (log ++ [⟨k', now, b⟩]) = pre ++ r :: mid ++ r' :: post)
    (hr : r.answered = true) (hr' : r'.answered = true) : Silence timeout (r :: mid ++ [r']) := by
  by_cases hk : k' = k
  · subst hk
    rw [requests_append_same] at hsplit
    rcases split_concat hsplit with ⟨-, rfl, hold⟩ | ⟨post', rfl, hold⟩
    · rcases hnew hr' pre r mid hold hr with hfalse | hsil | ⟨d, hlast, hgap⟩
      · exact hfalse.elim
      · exact hsil.append _
      · exact silence_of_last hlast hgap
    · exact h pre r mid r' post' hold hr hr'
  · rw [requests_append_other hk] at hsplit
    exact h pre r mid r' post hsplit hr hr'

/-- While time passes the silences can only grow. -/
theorem Sound.wait {timeout limit now now' : Nat} {log : List (Request K)}
    {entries : List (K × Nat)} (hle : now ≤ now') (h : Sound timeout limit ⟨log, entries, now⟩) :
    Sound timeout limit ⟨log, entries, now'⟩ := by
  refine ⟨h.nodup, h.bounded, fun e he => Nat.le_trans (h.past e he) hle, h.stamped,
    fun k pre r mid hsplit hr => ?_, h.separated⟩
  rcases h.pending k pre r mid hsplit hr with hcached | hsil | ⟨d, hlast, hgap⟩
  · exact .inl hcached
  · exact .inr (.inl hsil)
  · exact .inr (.inr ⟨d, hlast, Nat.le_trans hgap hle⟩)

/-- A request with a known key renews its stamp and is not answered. -/
theorem Sound.refresh {timeout limit t now : Nat} {log : List (Request K)}
    {pre post : List (K × Nat)} {k : K}
    (h : Sound timeout limit ⟨log, pre ++ (k, t) :: post, now⟩) :
    Sound timeout limit ⟨log ++ [⟨k, now, false⟩], pre ++ (k, now) :: post, now⟩ := by
  have hkeys : (pre ++ (k, now) :: post).map Prod.fst = (pre ++ (k, t) :: post).map Prod.fst := by
    simp
  constructor
  · rw [hkeys]
    exact h.nodup
  · have hlen := h.bounded
    rw [List.length_append, List.length_cons] at hlen ⊢
    exact hlen
  · intro e he
    rcases List.mem_append.mp he with hpre | htail
    · exact h.past e (List.mem_append_left _ hpre)
    · rcases List.mem_cons.mp htail with rfl | hpost
      · exact Nat.le_refl _
      · exact h.past e (List.mem_append_right _ (List.mem_cons_of_mem _ hpost))
  · intro e he
    have hnodup := h.nodup
    rw [lastSeen_append]
    by_cases hk : k = e.1
    · rw [if_pos hk]
      -- the key stands once in the cache, so the renewed entry is the only one of its key
      simp only [List.map_append, List.map_cons, List.nodup_append, List.nodup_cons,
        List.mem_map, List.mem_cons, forall_exists_index] at hnodup
      rcases List.mem_append.mp he with hpre | htail
      · exact absurd hk.symm (hnodup.2.2 e.1 e ⟨hpre, rfl⟩ k (.inl rfl))
      · rcases List.mem_cons.mp htail with rfl | hpost
        · rfl
        · exact absurd ⟨e, hpost, hk.symm⟩ hnodup.2.1.1
    · rw [if_neg hk]
      refine h.stamped e ?_
      rcases List.mem_append.mp he with hpre | htail
      · exact List.mem_append_left _ hpre
      · rcases List.mem_cons.mp htail with rfl | hpost
        · exact absurd rfl hk
        · exact List.mem_append_right _ (List.mem_cons_of_mem _ hpost)
  · intro k' pre' r mid hsplit hr
    refine pending_concat (b := false) (h.pending k') (fun hmem => ?_) (fun _ hb => nomatch hb)
      hsplit hr
    rw [hkeys]
    exact hmem
  · intro k' pre' r mid r' post' hsplit hr hr'
    exact separated_concat (b := false) (h.separated k') (fun hb => nomatch hb) hsplit hr hr'

/-- A request with an unknown key that is not answered leaves the cache. -/
theorem Sound.ignore {timeout limit now : Nat} {log : List (Request K)}
    {entries : List (K × Nat)} {k : K} (hnew : k ∉ entries.map Prod.fst)
    (h : Sound timeout limit ⟨log, entries, now⟩) :
    Sound timeout limit ⟨log ++ [⟨k, now, false⟩], entries, now⟩ := by
  constructor
  · exact h.nodup
  · exact h.bounded
  · exact h.past
  · intro e he
    have hne : k ≠ e.1 := by
      rintro rfl
      exact hnew (List.mem_map_of_mem he)
    rw [lastSeen_append, if_neg hne]
    exact h.stamped e he
  · intro k' pre r mid hsplit hr
    exact pending_concat (b := false) (h.pending k') id (fun _ hb => nomatch hb) hsplit hr
  · intro k' pre r mid r' post hsplit hr hr'
    exact separated_concat (b := false) (h.separated k') (fun hb => nomatch hb) hsplit hr hr'

/-- A request with an unknown key is answered and noted. -/
theorem Sound.answer {timeout limit now : Nat} {log : List (Request K)}
    {entries : List (K × Nat)} {k : K} (hnew : k ∉ entries.map Prod.fst)
    (hroom : entries.length ≤ limit) (h : Sound timeout limit ⟨log, entries, now⟩) :
    Sound timeout limit ⟨log ++ [⟨k, now, true⟩], entries ++ [(k, now)], now⟩ := by
  constructor
  · rw [List.map_append, List.nodup_append]
    refine ⟨h.nodup, List.nodup_singleton _, fun a ha b hb => ?_⟩
    rw [List.mem_singleton.mp hb]
    rintro rfl
    exact hnew ha
  · rw [List.length_append, List.length_singleton]
    exact Nat.succ_le_succ hroom
  · intro e he
    rcases List.mem_append.mp he with hold | hlast
    · exact h.past e hold
    · exact Nat.le_of_eq (congrArg Prod.snd (List.mem_singleton.mp hlast))
  · intro e he
    rw [lastSeen_append]
    rcases List.mem_append.mp he with hold | hlast
    · have hne : k ≠ e.1 := by
        rintro rfl
        exact hnew (List.mem_map_of_mem hold)
      rw [if_neg hne]
      exact h.stamped e hold
    · rw [List.mem_singleton.mp hlast, if_pos rfl]
  · intro k' pre r mid hsplit hr
    refine pending_concat (h.pending k') (fun hmem => ?_) (fun hk _ => ?_) hsplit hr
    · rw [List.map_append]
      exact List.mem_append_left _ hmem
    · rw [← hk, List.map_append]
      exact List.mem_append_right _ (List.mem_singleton_self k)
  · intro k' pre r mid r' post hsplit hr hr'
    refine separated_concat (h.separated k') (fun _ pre r mid hold hans => ?_) hsplit hr hr'
    -- it was not in the cache, so the last answer lies far enough back
    rcases h.pending k pre r mid hold hans with hcached | hrest
    · exact absurd hcached hnew
    · exact .inr hrest

/-- A purge drops old stamps only. -/
theorem Sound.purge {timeout limit now : Nat} {log : List (Request K)}
    {entries kept : List (K × Nat)} (hsub : kept.Subperm entries)
    (hold : ∀ e ∈ entries, e ∉ kept → e.2 + timeout ≤ now)
    (h : Sound timeout limit ⟨log, entries, now⟩) : Sound timeout limit ⟨log, kept, now⟩ := by
  have hnodup : (kept.map Prod.fst).Nodup := by
    obtain ⟨l, hperm, hsublist⟩ := hsub
    exact (hperm.map Prod.fst).nodup_iff.mp ((hsublist.map Prod.fst).nodup h.nodup)
  refine ⟨hnodup, Nat.le_trans hsub.length_le h.bounded, fun e he => h.past e (hsub.subset he),
    fun e he => h.stamped e (hsub.subset he), fun k pre r mid hsplit hr => ?_, h.separated⟩
  rcases h.pending k pre r mid hsplit hr with hcached | hrest
  · obtain ⟨e, he, rfl⟩ := List.mem_map.mp hcached
    by_cases hkept : e ∈ kept
    · exact .inl (List.mem_map_of_mem hkept)
    · -- the entry dropped told when its key was last seen
      have hlast := h.stamped e he
      unfold lastSeen at hlast
      rw [hsplit, getLast?_split] at hlast
      obtain ⟨d, hd, htime⟩ := Option.map_eq_some_iff.mp hlast
      exact .inr (.inr ⟨d, hd, by rw [htime]; exact hold e he hkept⟩)
  · exact .inr hrest

/-- **ONE STEP KEEPS A CACHE SOUND**. -/
theorem Sound.step {timeout limit : Nat} {s s' : State K} (hstep : Step timeout limit s s')
    (h : Sound timeout limit s) : Sound timeout limit s' := by
  cases hstep with
  | wait log entries hle => exact h.wait hle
  | refresh log pre post k t now => exact h.refresh
  | ignore log now hnew => exact h.ignore hnew
  | answer log now hnew hroom => exact h.answer hnew hroom
  | purge log hsub hold => exact h.purge hsub hold

end ReplyCache
