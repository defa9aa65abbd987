/-
The three duplicate-suppression caches: Rust's `DedupCache`, Go's `Cache` and C#'s `DeduplicationCache`. They are one
algorithm over one store, a map from key to expiry and a queue of all insertions; what differs is how the expiry
`now + ttl` is computed. Rust's addition panics when the sum is not representable, C#'s `long` addition wraps around,
and Go's `time.Time` has room for any clock reading plus any `Duration`.

Clock readings and expiries are integers (nanoseconds in Rust and Go, ticks in C#).

- `dequeueOne_entries`: taking the front of the queue takes its key out of the map;
- `Tracks`: the store holds a suffix of the accepted calls, and what it no longer holds is out of the window or expired;
- `addWith_law`: under `Tracks`, one call suppresses exactly what the sliding window suppresses, and keeps `Tracks`.
-/
import Mathlib.Tactic
import Mathlib.Data.List.AList
import NotifyAgent.Lib.Loop
import NotifyAgent.Lib.Ledger
import NotifyAgent.Core.Text

namespace NotifyAgent.Dedup

open NotifyAgent.Text
open NotifyAgent.Lib.Loop (whileLoop whileLoop_rule)
open NotifyAgent.Lib.Ledger (entries_perm_erase)

/-! ## Model -/

structure Inner (K : Type) where
  expiryByKey : AList (fun _ : K => ℤ)
  insertionOrder : List (K × ℤ)

def Inner.new {K : Type} : Inner K := ⟨∅, []⟩

section
variable {K : Type} [DecidableEq K]

/-- `len` -/
def Inner.len (g : Inner K) : ℕ := g.expiryByKey.keys.length

/-- `dequeue_one`: a re-added key leaves a stale queue entry, so only an exact match is removed from the map -/
def dequeueOne (g : Inner K) : Inner K :=
  match g.insertionOrder with
  | [] => g
  | (key, expiresAt) :: rest =>
    if g.expiryByKey.lookup key = some expiresAt then ⟨g.expiryByKey.erase key, rest⟩ else ⟨g.expiryByKey, rest⟩

/-- the condition of the purge loop -/
def frontExpired (now : ℤ) (g : Inner K) : Bool := g.insertionOrder.head?.any fun e => decide (e.2 ≤ now)

/-- the condition of the capacity loop -/
def overfull (capacity : ℕ) (g : Inner K) : Bool := decide (capacity ≤ g.len) && !g.insertionOrder.isEmpty

def queued (g : Inner K) : ℕ := g.insertionOrder.length

/-- the purge loop: expired entries go from the front -/
def purgeExpired (now : ℤ) (g : Inner K) : Inner K := whileLoop (frontExpired now) dequeueOne queued g

/-- the capacity loop: the oldest entries go while the map is full -/
def evictOldest (capacity : ℕ) (g : Inner K) : Inner K := whileLoop (overfull capacity) dequeueOne queued g

/-- one call, with the language's `now + ttl` as `expires`; `none` is a panic of that addition. The flag says whether
the key was recorded. -/
def addWith (capacity : ℕ) (expires : ℤ → Option ℤ) (g : Inner K) (now : ℤ) (key : K) : Option (Inner K × Bool) :=
  let g := purgeExpired now g
  if (g.expiryByKey.lookup key).any fun existing => decide (now < existing) then some (g, false)
  else
    let g := evictOldest capacity g
    (expires now).map fun at' => (⟨g.expiryByKey.insert key at', g.insertionOrder ++ [(key, at')]⟩, true)

end

/-- `DedupCache::try_add`; `maxInstant` is the largest representable `Instant` -/
def tryAdd (maxInstant : ℤ) (capacity ttl : ℕ) (g : Inner Str) (now : ℤ) (key : Str) : Option (Inner Str × Bool) :=
  addWith capacity (fun now => if now + ttl ≤ maxInstant then some (now + ttl) else none) g now key

/-- `DedupCache::try_add` on clock readings whose expiry is representable -/
def tryAddAt (capacity ttl : ℕ) (g : Inner Str) (now : ℤ) (key : Str) : Inner Str × Bool :=
  ((addWith capacity (fun now => some (now + ttl)) g now key).getD (g, false))

/-- `Cache.SeenOrAdd`: the flag is whether the key was seen -/
def seenOrAdd (capacity : ℕ) (ttl : ℤ) (g : Inner Str) (now : ℤ) (key : Str) : Option (Inner Str × Bool) :=
  (addWith capacity (fun now => some (now + ttl)) g now key).map fun r => (r.1, !r.2)

/-- `DeduplicationCache.TryAdd`: keys are UTF-16 strings, and the sum of two `long`s wraps around -/
def tryAddTicks (capacity : ℕ) (ttl : ℤ) (g : Inner (List UInt16)) (now : ℤ) (key : List UInt16) :
    Option (Inner (List UInt16) × Bool) :=
  addWith capacity (fun now => some (Int.bmod (now + ttl) (2 ^ 64))) g now key

section
variable {K : Type} [DecidableEq K]

/-! ## One dequeue -/

theorem dequeueOne_queued {g : Inner K} (h : g.insertionOrder ≠ []) : queued (dequeueOne g) < queued g := by
  obtain ⟨e, rest, he⟩ := List.exists_cons_of_ne_nil h
  unfold queued dequeueOne
  rw [he]
  simp only
  split_ifs <;> simp

theorem purge_variant (now : ℤ) (g : Inner K) (h : frontExpired now g = true) : queued (dequeueOne g) < queued g :=
  dequeueOne_queued fun hn => by simp [frontExpired, hn] at h

theorem evict_variant (capacity : ℕ) (g : Inner K) (h : overfull capacity g = true) :
    queued (dequeueOne g) < queued g :=
  dequeueOne_queued fun hn => by simp [overfull, hn] at h

/-- the map holds exactly the entries of the queue -/
def Synced (g : Inner K) : Prop := g.expiryByKey.entries.Perm (g.insertionOrder.map Prod.toSigma)

omit [DecidableEq K] in
theorem Synced.len_eq {g : Inner K} (h : Synced g) : g.len = g.insertionOrder.length := by
  have := h.length_eq
  rw [List.length_map] at this
  rw [← this, Inner.len, AList.keys, List.keys, List.length_map]

theorem Synced.lookup_iff {g : Inner K} (h : Synced g) {key : K} {x : ℤ} :
    g.expiryByKey.lookup key = some x ↔ (key, x) ∈ g.insertionOrder := by
  rw [← Option.mem_def, AList.mem_lookup_iff, h.mem_iff]
  exact List.mem_map_of_injective Prod.toSigma_injective (a := (key, x))

/-- **One dequeue keeps map and queue in step.** -/
theorem dequeueOne_entries {g : Inner K} {e : K × ℤ} {rest : List (K × ℤ)} (h : Synced g)
    (hq : g.insertionOrder = e :: rest) :
    Synced (dequeueOne g) ∧ (dequeueOne g).insertionOrder = rest ∧
      ∀ key, g.expiryByKey.lookup key = none → (dequeueOne g).expiryByKey.lookup key = none := by
  obtain ⟨key, x⟩ := e
  have hl : g.expiryByKey.lookup key = some x := h.lookup_iff.2 (by simp [hq])
  have hd : dequeueOne g = ⟨g.expiryByKey.erase key, rest⟩ := by
    unfold dequeueOne
    rw [hq]
    exact if_pos hl
  rw [hd]
  refine ⟨?_, rfl, fun key' hk => ?_⟩
  · have hperm := (entries_perm_erase hl).symm.trans h
    rw [hq] at hperm
    exact List.Perm.cons_inv hperm
  · by_cases hkk : key' = key
    · subst hkk
      rw [hl] at hk; cases hk
    · rw [AList.lookup_erase_ne hkk]; exact hk

theorem addWith_some (capacity : ℕ) {expires : ℤ → Option ℤ} (g : Inner K) {now : ℤ} (key : K)
    (h : (expires now).isSome) : (addWith capacity expires g now key).isSome := by
  unfold addWith
  simp only
  split_ifs
  · rfl
  · simpa using h

omit [DecidableEq K] in
/-- **Representable expiries.** There, `try_add` returns what `tryAddAt` says. -/
theorem tryAdd_eq_tryAddAt {maxInstant : ℤ} {capacity ttl : ℕ} {g : Inner Str} {now : ℤ} {key : Str}
    (h : now + ttl ≤ maxInstant) :
    tryAdd maxInstant capacity ttl g now key = some (tryAddAt capacity ttl g now key) := by
  have hsame : tryAdd maxInstant capacity ttl g now key =
      addWith capacity (fun now => some (now + ttl)) g now key := by
    unfold tryAdd addWith
    simp only [if_pos h]
  have hsome := @addWith_some _ _ capacity (fun now => some (now + ttl)) g now key rfl
  rw [hsame, tryAddAt]
  obtain ⟨r, hr⟩ := Option.isSome_iff_exists.1 hsome
  rw [hr, Option.getD_some]

/-! ## The invariant -/

/-- an accepted call with its expiry instead of its time -/
def stamp (ttl : ℤ) (call : K × ℤ) : K × ℤ := (call.1, call.2 + ttl)

/-- a store after the accepted calls `accepted`, the last clock reading being `now`. What the queue has lost is the
prefix `old`, and `size` is the number of accepted calls that the window is counted from. -/
structure Tracks (capacity : ℕ) (ttl now : ℤ) (accepted : List (K × ℤ)) (size : ℕ) (g : Inner K) : Prop where
  synced : Synced g
  bounded : g.insertionOrder.length ≤ capacity
  past : ∀ call ∈ accepted, call.2 ≤ now
  ordered : accepted.Pairwise fun a b => a.2 ≤ b.2
  /-- the queue is a suffix of the accepted calls; one that is lost is out of the window or has expired -/
  suffix : ∃ old, accepted.map (stamp ttl) = old ++ g.insertionOrder ∧
    ∀ i e, old[i]? = some e → size < i + 1 + capacity → e.2 ≤ now

/-- the sliding-window specification: one of the last `capacity` accepted calls has the key and has not expired -/
def Suppressed (capacity : ℕ) (ttl : ℤ) (accepted : List (K × ℤ)) (key : K) (now : ℤ) : Prop :=
  ∃ i call, accepted[i]? = some call ∧ accepted.length < i + 1 + capacity ∧ call.1 = key ∧ now < call.2 + ttl

variable {capacity : ℕ} {ttl now : ℤ} {accepted : List (K × ℤ)} {g : Inner K}

omit [DecidableEq K] in
theorem tracks_new (capacity : ℕ) (ttl now : ℤ) : Tracks capacity ttl now [] 0 (Inner.new (K := K)) :=
  ⟨List.Perm.refl _, Nat.zero_le _, by simp, by simp, [], rfl, by simp⟩

omit [DecidableEq K] in
/-- the clock moves on -/
theorem Tracks.advance {size : ℕ} {now' : ℤ} (h : Tracks capacity ttl now accepted size g) (hle : now ≤ now') :
    Tracks capacity ttl now' accepted size g := by
  obtain ⟨old, heq, hold⟩ := h.suffix
  exact ⟨h.synced, h.bounded, fun c hc => (h.past c hc).trans hle, h.ordered, old, heq,
    fun i e hi hlt => (hold i e hi hlt).trans hle⟩

/-- the front of the queue may go if it has expired or will be out of the window -/
theorem Tracks.dequeue {size : ℕ} {e : K × ℤ} {rest : List (K × ℤ)} (h : Tracks capacity ttl now accepted size g)
    (hq : g.insertionOrder = e :: rest)
    (hgone : e.2 ≤ now ∨ accepted.length + capacity ≤ size + rest.length) :
    Tracks capacity ttl now accepted size (dequeueOne g) := by
  obtain ⟨hsync, hrest, _⟩ := dequeueOne_entries h.synced hq
  obtain ⟨old, heq, hold⟩ := h.suffix
  have hlen := congrArg List.length heq
  rw [List.length_map, List.length_append, hq, List.length_cons] at hlen
  refine ⟨hsync, ?_, h.past, h.ordered, old ++ [e], ?_, fun i x hi hlt => ?_⟩
  · have := h.bounded
    rw [hq, List.length_cons] at this
    rw [hrest]; omega
  · rw [heq, hrest, hq]; simp
  · rcases Nat.lt_or_ge i old.length with hio | hio
    · rw [List.getElem?_append_left hio] at hi
      exact hold i x hi hlt
    · have hi' : i = old.length := by
        have := (List.getElem?_eq_some_iff.1 hi).1
        simp at this; omega
      subst hi'
      simp only [List.getElem?_concat_length, Option.some.injEq] at hi
      subst hi
      rcases hgone with hgone | hgone
      · exact hgone
      · omega

omit [DecidableEq K] in
theorem Tracks.sorted {size : ℕ} (h : Tracks capacity ttl now accepted size g) :
    g.insertionOrder.Pairwise fun a b => a.2 ≤ b.2 := by
  obtain ⟨old, heq, -⟩ := h.suffix
  have hall : (accepted.map (stamp ttl)).Pairwise fun a b => a.2 ≤ b.2 :=
    List.pairwise_map.2 (h.ordered.imp fun hab => by simpa [stamp] using hab)
  rw [heq] at hall
  exact (List.pairwise_append.1 hall).2.1

/-! ## The two loops -/

theorem purge_tracks {size : ℕ} (h : Tracks capacity ttl now accepted size g) :
    Tracks capacity ttl now accepted size (purgeExpired now g) ∧
      ∀ e ∈ (purgeExpired now g).insertionOrder, now < e.2 := by
  obtain ⟨htr, hend⟩ : Tracks capacity ttl now accepted size (purgeExpired now g) ∧
      frontExpired now (purgeExpired now g) = false := by
    refine whileLoop_rule (purge_variant now) (fun g hc hg => ?_) h
    cases hq : g.insertionOrder with
    | nil => simp [frontExpired, hq] at hc
    | cons e rest => exact hg.dequeue hq (Or.inl (by simpa [frontExpired, hq] using hc))
  refine ⟨htr, fun e he => ?_⟩
  -- the queue is ordered by expiry, so a front that has not expired means that nothing has
  have hsorted := htr.sorted
  cases hq : (purgeExpired now g).insertionOrder with
  | nil => simp [hq] at he
  | cons a rest =>
    rw [hq] at hsorted he
    have ha : now < a.2 := by simpa [frontExpired, hq] using hend
    rcases List.mem_cons.1 he with rfl | he
    · exact ha
    · exact ha.trans_le ((List.pairwise_cons.1 hsorted).1 e he)

theorem evict_tracks (hcap : 1 ≤ capacity) {key : K} (h : Tracks capacity ttl now accepted (accepted.length + 1) g)
    (hnone : g.expiryByKey.lookup key = none) :
    Tracks capacity ttl now accepted (accepted.length + 1) (evictOldest capacity g) ∧
      (evictOldest capacity g).expiryByKey.lookup key = none ∧
      (evictOldest capacity g).insertionOrder.length < capacity := by
  obtain ⟨⟨htr, hkey⟩, hend⟩ : (Tracks capacity ttl now accepted (accepted.length + 1) (evictOldest capacity g) ∧
      (evictOldest capacity g).expiryByKey.lookup key = none) ∧ overfull capacity (evictOldest capacity g) = false := by
    refine whileLoop_rule (evict_variant capacity)
      (I := fun g => Tracks capacity ttl now accepted (accepted.length + 1) g ∧ g.expiryByKey.lookup key = none)
      (fun g hc hg => ?_) ⟨h, hnone⟩
    simp only [overfull, Bool.and_eq_true, decide_eq_true_eq] at hc
    cases hq : g.insertionOrder with
    | nil => simp [hq] at hc
    | cons e rest =>
      have hfull := hc.1
      rw [hg.1.synced.len_eq, hq, List.length_cons] at hfull
      exact ⟨hg.1.dequeue hq (Or.inr (by omega)), (dequeueOne_entries hg.1.synced hq).2.2 key hg.2⟩
  refine ⟨htr, hkey, ?_⟩
  have hlen := htr.synced.len_eq
  rw [overfull, Bool.and_eq_false_iff] at hend
  rcases hend with hroom | hempty
  · have := of_decide_eq_false hroom
    omega
  · have : (evictOldest capacity g).insertionOrder = [] := by simpa using hempty
    rw [this]
    exact hcap

/-! ## One call -/

/-- the store knows the key exactly when the window suppresses it -/
theorem lookup_iff_suppressed (h : Tracks capacity ttl now accepted accepted.length g) (key : K) :
    ((g.expiryByKey.lookup key).any fun existing => decide (now < existing)) = true ↔
      Suppressed capacity ttl accepted key now := by
  obtain ⟨old, heq, hold⟩ := h.suffix
  have hlen := congrArg List.length heq
  rw [List.length_map, List.length_append] at hlen
  have hcap := h.bounded
  rw [Option.any_eq_true]
  constructor
  · rintro ⟨x, hx, hlt⟩
    have hmem := h.synced.lookup_iff.1 (Option.mem_def.1 hx)
    obtain ⟨j, hj⟩ := List.mem_iff_getElem?.1 hmem
    have hjlt := (List.getElem?_eq_some_iff.1 hj).1
    have hget : (accepted.map (stamp ttl))[old.length + j]? = some (key, x) := by
      rw [heq, List.getElem?_append_right (by omega)]
      simpa using hj
    rw [List.getElem?_map, Option.map_eq_some_iff] at hget
    obtain ⟨call, hcall, hst⟩ := hget
    simp only [stamp, Prod.mk.injEq] at hst
    exact ⟨old.length + j, call, hcall, by omega, hst.1, by rw [hst.2]; exact of_decide_eq_true hlt⟩
  · rintro ⟨i, call, hcall, hwin, hkey, hlt⟩
    have hget : (accepted.map (stamp ttl))[i]? = some (key, call.2 + ttl) := by
      rw [List.getElem?_map, hcall]
      simp [stamp, hkey]
    rw [heq] at hget
    refine ⟨call.2 + ttl, h.synced.lookup_iff.2 ?_, by simpa using hlt⟩
    rcases Nat.lt_or_ge i old.length with hi | hi
    · rw [List.getElem?_append_left hi] at hget
      exact absurd (hold i _ hget hwin) (not_le.2 hlt)
    · rw [List.getElem?_append_right hi] at hget
      exact List.mem_of_getElem? hget

/-- **One call.** If `now + ttl` is representable, a call returns; it refuses the key exactly when the window suppresses
it, and the store goes on tracking the accepted calls. -/
theorem addWith_law {expires : ℤ → Option ℤ} {last : ℤ} (hcap : 1 ≤ capacity) (hle : last ≤ now)
    (hexp : expires now = some (now + ttl)) (h : Tracks capacity ttl last accepted accepted.length g) (key : K) :
    ∃ g' added, addWith capacity expires g now key = some (g', added) ∧
      (added = false ↔ Suppressed capacity ttl accepted key now) ∧
      (added = false → Tracks capacity ttl now accepted accepted.length g') ∧
      (added = true → Tracks capacity ttl now (accepted ++ [(key, now)]) (accepted.length + 1) g') := by
  obtain ⟨htr, hlive⟩ := purge_tracks (h.advance hle)
  have hiff := lookup_iff_suppressed htr key
  unfold addWith
  by_cases hdup : (((purgeExpired now g).expiryByKey.lookup key).any fun existing => decide (now < existing)) = true
  · refine ⟨_, false, by simp only [hdup, if_true], by simpa using hiff.1 hdup, fun _ => htr, by simp⟩
  · have hnone : (purgeExpired now g).expiryByKey.lookup key = none := by
      by_contra hne
      obtain ⟨x, hx⟩ := Option.ne_none_iff_exists'.1 hne
      have := hlive _ (htr.synced.lookup_iff.1 hx)
      simp [hx, this] at hdup
    obtain ⟨old, heq, hold⟩ := htr.suffix
    obtain ⟨hev, hkey, hroom⟩ := evict_tracks hcap
      ⟨htr.synced, htr.bounded, htr.past, htr.ordered, old, heq, fun i e hi hlt => hold i e hi (by omega)⟩ hnone
    obtain ⟨old', heq', hold'⟩ := hev.suffix
    refine ⟨_, true, by simp only [hdup, hexp, Option.map_some]; rfl, by simpa using fun hs => hdup (hiff.2 hs),
      by simp, fun _ => ⟨?_, ?_, ?_, ?_, old', ?_, hold'⟩⟩
    · unfold Synced
      rw [AList.entries_insert_of_notMem (AList.lookup_eq_none.1 hkey), List.map_append]
      exact (hev.synced.cons _).trans (@List.perm_append_comm _ [_] _)
    · simp only [List.length_append, List.length_singleton]; omega
    · simpa [or_imp, forall_and] using hev.past
    · exact List.pairwise_append.2 ⟨hev.ordered, by simp, by simpa using hev.past⟩
    · rw [List.map_append, heq']
      simp [stamp]

end

end NotifyAgent.Dedup
