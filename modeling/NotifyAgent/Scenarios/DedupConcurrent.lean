/-
Concurrent callers of the dedup cache. A caller reads the clock before it takes the lock, so the readings need not be in
order when the lock is taken; calls are listed in lock order here, with any clock readings.

- `backed_run`: the map never holds more keys than the capacity, and every entry of the map has its entry in the queue,
  so the capacity loop always makes room;
- `winners_run`: while nothing expires and nothing must be evicted, the first call of a key wins and no other does;
- `concurrent_dedup`: both for the Rust and the Go cache.
-/
import Mathlib.Tactic
import NotifyAgent.Core.Dedup

namespace NotifyAgent.DedupConcurrent

open NotifyAgent.Text NotifyAgent.Dedup
open NotifyAgent.Lib.Loop (whileLoop_rule)
open NotifyAgent.Lib.Ledger

/-! ## Calls in lock order -/

/-- one call: the new store and whether the key was recorded; `none` is a panic -/
abbrev Call := Inner Str → ℤ → Str → Option (Inner Str × Bool)

/-- `try_add`, over the largest representable `Instant` -/
def rustCall (maxInstant : ℤ) (capacity ttl : ℕ) : Call := tryAdd maxInstant capacity ttl

/-- `SeenOrAdd`, which says whether the key was seen -/
def goCall (capacity : ℕ) (ttl : ℤ) : Call := fun g now key =>
  (seenOrAdd capacity ttl g now key).map fun r => (r.1, !r.2)

/-- calls one after the other, each with its clock reading; `none` if one of them panics -/
def lockRun (call : Call) : Inner Str → List (ℤ × Str) → Option (Inner Str × List Bool)
  | g, [] => some (g, [])
  | g, (now, key) :: calls =>
    (call g now key).bind fun r => (lockRun call r.1 calls).map fun s => (s.1, r.2 :: s.2)

/-- the calls that recorded `key` -/
def winners (calls : List (ℤ × Str)) (flags : List Bool) (key : Str) : ℕ :=
  (calls.zip flags).countP fun p => decide (p.1.2 = key) && p.2

/-! ## The store under any clock -/

/-- every entry of the map has an equal entry in the queue -/
def Backed (g : Inner Str) : Prop := ∀ key x, g.expiryByKey.lookup key = some x → (key, x) ∈ g.insertionOrder

theorem dequeue_backed {g : Inner Str} (h : Backed g) : Backed (dequeueOne g) := by
  unfold dequeueOne
  cases hq : g.insertionOrder with
  | nil => exact h
  | cons e rest =>
    obtain ⟨k, x⟩ := e
    simp only
    -- the popped entry is looked for nowhere else
    have hrest : ∀ key y, g.expiryByKey.lookup key = some y → (key, y) ≠ (k, x) → (key, y) ∈ rest := by
      intro key y hl hne
      have hmem := h key y hl
      rw [hq] at hmem
      exact (List.mem_cons.1 hmem).resolve_left hne
    split_ifs with hmatch
    · intro key y hl
      by_cases hk : key = k
      · rw [hk, AList.lookup_erase] at hl
        cases hl
      · rw [AList.lookup_erase_ne hk] at hl
        exact hrest key y hl fun heq => hk (Prod.mk.inj heq).1
    · intro key y hl
      apply hrest key y hl
      intro heq
      obtain ⟨rfl, rfl⟩ := Prod.mk.inj heq
      exact hmatch hl

theorem purge_backed {g : Inner Str} (h : Backed g) (now : ℤ) : Backed (purgeExpired now g) :=
  (whileLoop_rule (purge_variant now) (fun _ _ hg => dequeue_backed hg) h).1

/-- **The capacity loop makes room.** -/
theorem evict_room {g : Inner Str} (h : Backed g) {capacity : ℕ} (hcap : 1 ≤ capacity) :
    Backed (evictOldest capacity g) ∧ (evictOldest capacity g).len < capacity := by
  obtain ⟨hb, hend⟩ := whileLoop_rule (evict_variant capacity) (fun _ _ hg => dequeue_backed hg) h
  change Backed (evictOldest capacity g) at hb
  change overfull capacity (evictOldest capacity g) = false at hend
  refine ⟨hb, ?_⟩
  rw [overfull, Bool.and_eq_false_iff] at hend
  rcases hend with hroom | hempty
  · have := of_decide_eq_false hroom
    omega
  · -- an empty queue backs an empty map
    have hnil : (evictOldest capacity g).insertionOrder = [] := by simpa using hempty
    have hkeys : (evictOldest capacity g).expiryByKey.keys = [] := by
      rw [List.eq_nil_iff_forall_not_mem]
      intro key hkey
      obtain ⟨x, hx⟩ := Option.isSome_iff_exists.1 (AList.lookup_isSome.2 hkey)
      have := hb key x hx
      rw [hnil] at this
      cases this
    rw [Inner.len, hkeys]
    exact hcap

theorem length_keys_insert_le {m : AList (fun _ : Str => ℤ)} (key : Str) (x : ℤ) :
    (m.insert key x).keys.length ≤ m.keys.length + 1 := by
  cases hl : m.lookup key with
  | none => exact (length_keys_insert x hl).le
  | some y => rw [length_keys_replace x (by rw [hl]; rfl)]; omega

/-- the two things a cache call can do -/
structure Adds (capacity : ℕ) (ttl : ℤ) (call : Call) : Prop where
  cases : ∀ g now key g' added, call g now key = some (g', added) →
    (added = false ∧ g' = purgeExpired now g ∧ ∃ x, (purgeExpired now g).expiryByKey.lookup key = some x ∧ now < x) ∨
    (added = true ∧ (∀ x, (purgeExpired now g).expiryByKey.lookup key = some x → x ≤ now) ∧
      g' = ⟨(evictOldest capacity (purgeExpired now g)).expiryByKey.insert key (now + ttl),
        (evictOldest capacity (purgeExpired now g)).insertionOrder ++ [(key, now + ttl)]⟩)

theorem addWith_adds {capacity : ℕ} {ttl : ℤ} {expires : ℤ → Option ℤ}
    (hexp : ∀ now x, expires now = some x → x = now + ttl) : Adds capacity ttl (addWith capacity expires) := by
  constructor
  intro g now key g' added h
  unfold addWith at h
  simp only at h
  split_ifs at h with hdup
  · simp only [Option.some.injEq, Prod.mk.injEq] at h
    obtain ⟨x, hx, hlt⟩ := (Option.any_eq_true _ _).1 hdup
    exact Or.inl ⟨h.2.symm, h.1.symm, x, hx, of_decide_eq_true hlt⟩
  · obtain ⟨x, hx, heq⟩ := Option.map_eq_some_iff.1 h
    rw [hexp now x hx] at heq
    simp only [Prod.mk.injEq] at heq
    refine Or.inr ⟨heq.2.symm, ?_, heq.1.symm⟩
    intro y hy
    by_contra hlt
    exact hdup ((Option.any_eq_true _ _).2 ⟨y, hy, decide_eq_true (not_le.1 hlt)⟩)

theorem rustCall_adds (maxInstant : ℤ) (capacity ttl : ℕ) : Adds capacity ttl (rustCall maxInstant capacity ttl) := by
  apply addWith_adds
  intro now x h
  split_ifs at h
  exact (Option.some.inj h).symm

theorem goCall_adds (capacity : ℕ) (ttl : ℤ) : Adds capacity ttl (goCall capacity ttl) := by
  have hsame : goCall capacity ttl = addWith capacity (fun now => some (now + ttl)) := by
    funext g now key
    simp only [goCall, seenOrAdd, Option.map_map]
    cases addWith capacity (fun now => some (now + ttl)) g now key <;> simp
  rw [hsame]
  apply addWith_adds
  intro now x h
  exact (Option.some.inj h).symm

section
variable {capacity : ℕ} {ttl : ℤ} {call : Call} (hadds : Adds capacity ttl call)
include hadds

/-- a call keeps the store backed and within its capacity -/
theorem backed_call (hcap : 1 ≤ capacity) {g g' : Inner Str} {now : ℤ} {key : Str} {added : Bool} (h : Backed g)
    (hlen : g.len ≤ capacity) (hcall : call g now key = some (g', added)) : Backed g' ∧ g'.len ≤ capacity := by
  have hpurged := purge_backed h now
  rcases hadds.cases g now key g' added hcall with ⟨-, hg, -⟩ | ⟨-, -, hg⟩ <;> rw [hg]
  · refine ⟨hpurged, ?_⟩
    -- the purge takes keys out only
    exact (whileLoop_rule (purge_variant now) (I := fun g => g.len ≤ capacity)
      (fun g _ hg => by
        unfold dequeueOne
        split
        · exact hg
        · split_ifs
          · exact (length_keys_erase_le _ _).trans hg
          · exact hg) hlen).1
  · obtain ⟨hb, hroom⟩ := evict_room hpurged hcap
    refine ⟨?_, ?_⟩
    · intro k x hl
      by_cases hk : k = key
      · subst hk
        rw [AList.lookup_insert, Option.some.injEq] at hl
        rw [← hl]
        exact List.mem_append_right _ List.mem_cons_self
      · rw [AList.lookup_insert_ne hk] at hl
        exact List.mem_append_left _ (hb k x hl)
    · have := length_keys_insert_le (m := (evictOldest capacity (purgeExpired now g)).expiryByKey) key (now + ttl)
      unfold Inner.len at hroom ⊢
      simp only
      omega

theorem backed_run (hcap : 1 ≤ capacity) {g g' : Inner Str} {calls : List (ℤ × Str)} {flags : List Bool}
    (h : Backed g) (hlen : g.len ≤ capacity) (hrun : lockRun call g calls = some (g', flags)) :
    Backed g' ∧ g'.len ≤ capacity := by
  induction calls generalizing g flags with
  | nil =>
    simp only [lockRun, Option.some.injEq, Prod.mk.injEq] at hrun
    rw [← hrun.1]
    exact ⟨h, hlen⟩
  | cons c calls ih =>
    obtain ⟨now, key⟩ := c
    simp only [lockRun, Option.bind_eq_some_iff, Option.map_eq_some_iff, Prod.mk.injEq] at hrun
    obtain ⟨⟨g₁, added⟩, hcall, ⟨g₂, rest⟩, hrest, hg, -⟩ := hrun
    obtain ⟨h₁, hlen₁⟩ := backed_call hadds hcap h hlen hcall
    obtain rfl : g₂ = g' := hg
    exact ih h₁ hlen₁ hrest

/-! ## One winner -/

/-- nothing in the store expires up to `last`, and its keys are among `keys` -/
structure Fresh (last : ℤ) (keys : Finset Str) (g : Inner Str) : Prop where
  backed : Backed g
  live : ∀ e ∈ g.insertionOrder, last < e.2
  among : ∀ key ∈ g.expiryByKey.keys, key ∈ keys

omit hadds in
theorem Fresh.purge {last now : ℤ} {keys : Finset Str} {g : Inner Str} (h : Fresh last keys g) (hnow : now ≤ last) :
    purgeExpired now g = g := by
  have hfront : frontExpired now g = false := by
    unfold frontExpired
    cases hq : g.insertionOrder with
    | nil => rfl
    | cons e rest =>
      have := h.live e (by rw [hq]; exact List.mem_cons_self)
      simp only [List.head?_cons, Option.any_some, decide_eq_false_iff_not, not_le]
      omega
  unfold purgeExpired
  rw [Lib.Loop.whileLoop_unfold (purge_variant now), hfront]
  rfl

omit hadds in
/-- there is room for a key of the set that the store does not hold -/
theorem Fresh.evict {last : ℤ} {keys : Finset Str} {g : Inner Str} (h : Fresh last keys g)
    (hcard : keys.card ≤ capacity) {key : Str} (hkey : key ∈ keys) (hnew : g.expiryByKey.lookup key = none) :
    evictOldest capacity g = g := by
  have hnot : key ∉ g.expiryByKey.keys := fun hmem => by
    have := AList.lookup_isSome.2 hmem
    rw [hnew] at this
    cases this
  have hlen : (key :: g.expiryByKey.keys).length ≤ keys.card := by
    have hnd : (key :: g.expiryByKey.keys).Nodup := List.nodup_cons.2 ⟨hnot, g.expiryByKey.keys_nodup⟩
    rw [← List.toFinset_card_of_nodup hnd]
    apply Finset.card_le_card
    intro k hk
    rcases List.mem_cons.1 (List.mem_toFinset.1 hk) with rfl | hk
    · exact hkey
    · exact h.among k hk
  rw [List.length_cons] at hlen
  have hroom : overfull capacity g = false := by
    unfold overfull Inner.len
    rw [Bool.and_eq_false_iff]
    exact Or.inl (decide_eq_false (by omega))
  unfold evictOldest
  rw [Lib.Loop.whileLoop_unfold (evict_variant capacity), hroom]
  rfl

/-- in a fresh store a call records its key exactly if the store does not have it -/
theorem fresh_call {last now : ℤ} {keys : Finset Str} {g g' : Inner Str} {key : Str} {added : Bool}
    (h : Fresh last keys g) (hcard : keys.card ≤ capacity) (hkey : key ∈ keys) (hnow : now ≤ last)
    (hwindow : last < now + ttl) (hcall : call g now key = some (g', added)) :
    Fresh last keys g' ∧ (added = true ↔ g.expiryByKey.lookup key = none) ∧
      ∀ k, (g'.expiryByKey.lookup k).isSome ↔ (g.expiryByKey.lookup k).isSome ∨ k = key := by
  have hpurge := h.purge hnow
  rcases hadds.cases g now key g' added hcall with ⟨hadd, hg, x, hx, hlt⟩ | ⟨hadd, hexpired, hg⟩ <;>
    simp only [hpurge] at *
  · rw [hg, hadd]
    refine ⟨h, by simp [hx], ?_⟩
    intro k
    constructor
    · exact Or.inl
    · rintro (hk | rfl)
      · exact hk
      · rw [hx]; rfl
  · have hnew : g.expiryByKey.lookup key = none := by
      by_contra hne
      obtain ⟨x, hx⟩ := Option.ne_none_iff_exists'.1 hne
      have hle := hexpired x hx
      have := h.live _ (h.backed key x hx)
      simp only at this
      omega
    rw [h.evict hcard hkey hnew] at hg
    rw [hg, hadd]
    refine ⟨⟨?_, ?_, ?_⟩, by simp [hnew], ?_⟩
    · intro k x hl
      by_cases hk : k = key
      · subst hk
        rw [AList.lookup_insert, Option.some.injEq] at hl
        rw [← hl]
        exact List.mem_append_right _ List.mem_cons_self
      · rw [AList.lookup_insert_ne hk] at hl
        exact List.mem_append_left _ (h.backed k x hl)
    · intro e he
      rcases List.mem_append.1 he with he | he
      · exact h.live e he
      · rw [List.mem_singleton.1 he]
        exact hwindow
    · intro k hk
      rcases (AList.mem_insert _).1 (AList.mem_keys.2 hk) with rfl | hk
      · exact hkey
      · exact h.among k hk
    · intro k
      by_cases hk : k = key
      · subst hk
        simp
      · simp only [AList.lookup_insert_ne hk, hk, or_false]

/-- **One winner.** Of the calls of a key that a fresh store does not have, exactly one records it. -/
theorem winners_run {last : ℤ} {keys : Finset Str} {g g' : Inner Str} {calls : List (ℤ × Str)} {flags : List Bool}
    (h : Fresh last keys g) (hcard : keys.card ≤ capacity)
    (hcalls : ∀ c ∈ calls, c.2 ∈ keys ∧ c.1 ≤ last ∧ last < c.1 + ttl)
    (hrun : lockRun call g calls = some (g', flags)) (key : Str) :
    winners calls flags key =
      if (g.expiryByKey.lookup key).isSome then 0 else if key ∈ calls.map Prod.snd then 1 else 0 := by
  induction calls generalizing g flags with
  | nil => simp [winners]
  | cons c calls ih =>
    obtain ⟨now, k⟩ := c
    simp only [lockRun, Option.bind_eq_some_iff, Option.map_eq_some_iff, Prod.mk.injEq] at hrun
    obtain ⟨⟨g₁, added⟩, hcall, ⟨g₂, rest⟩, hrest, hg, rfl⟩ := hrun
    obtain rfl : g₂ = g' := hg
    obtain ⟨hk, hnow, hwindow⟩ := hcalls _ List.mem_cons_self
    obtain ⟨hfresh, hadded, hkeys⟩ := fresh_call hadds h hcard hk hnow hwindow hcall
    have hih := ih hfresh (fun c hc => hcalls c (List.mem_cons_of_mem _ hc)) hrest
    have hstep : winners ((now, k) :: calls) (added :: rest) key =
        winners calls rest key + if k = key ∧ added = true then 1 else 0 := by
      simp only [winners, List.zip_cons_cons, List.countP_cons, Bool.and_eq_true, decide_eq_true_eq]
    rw [hstep, hih]
    simp only [hkeys, List.map_cons, List.mem_cons]
    by_cases hkey : key = k
    · subst hkey
      cases hl : g.expiryByKey.lookup key with
      | none => simp [hadded, hl]
      | some x => simp [hadded, hl]
    · have hkey' : ¬ k = key := fun heq => hkey heq.symm
      simp only [hkey, hkey', or_false, false_or, false_and, if_false, add_zero]

end

/-! ## Both caches -/

theorem backed_new : Backed (Inner.new (K := Str)) := by
  intro key x h
  simp [Inner.new] at h

/-- what holds of a cache under concurrent callers: `calls` is what has come through the lock so far, and `fits` says
that the expiry of a clock reading is representable -/
structure ConcurrentLaw (capacity : ℕ) (ttl : ℤ) (fits : ℤ → Prop) (call : Call) : Prop where
  returns : ∀ calls : List (ℤ × Str), (∀ c ∈ calls, fits c.1) → (lockRun call .new calls).isSome
  bounded : ∀ calls g flags, lockRun call .new calls = some (g, flags) → g.len ≤ capacity
  backed : ∀ calls g flags, lockRun call .new calls = some (g, flags) → Backed g
  recorded : ∀ calls g flags, lockRun call .new calls = some (g, flags) →
    ∀ now key g', call g now key = some (g', true) → g'.expiryByKey.lookup key = some (now + ttl)
  room : ∀ calls g flags, lockRun call .new calls = some (g, flags) →
    ∀ now, (evictOldest capacity (purgeExpired now g)).len < capacity
  oneWinner : ∀ first last : ℤ, last - first < ttl → ∀ calls : List (ℤ × Str),
    (∀ c ∈ calls, first ≤ c.1 ∧ c.1 ≤ last) → (calls.map Prod.snd).toFinset.card ≤ capacity →
    ∀ g flags, lockRun call .new calls = some (g, flags) →
      ∀ key ∈ calls.map Prod.snd, winners calls flags key = 1

theorem lockRun_returns {call : Call} {fits : ℤ → Prop} (hfits : ∀ g now key, fits now → (call g now key).isSome)
    {calls : List (ℤ × Str)} (h : ∀ c ∈ calls, fits c.1) (g : Inner Str) : (lockRun call g calls).isSome := by
  induction calls generalizing g with
  | nil => rfl
  | cons c calls ih =>
    obtain ⟨r, hr⟩ := Option.isSome_iff_exists.1 (hfits g c.1 c.2 (h c List.mem_cons_self))
    have hrest := ih (fun c hc => h c (List.mem_cons_of_mem _ hc)) r.1
    simp only [lockRun, hr, Option.bind_some, Option.isSome_map, hrest]

theorem law_of_adds {capacity : ℕ} {ttl : ℤ} {fits : ℤ → Prop} {call : Call} (hcap : 1 ≤ capacity)
    (hadds : Adds capacity ttl call) (hfits : ∀ g now key, fits now → (call g now key).isSome) :
    ConcurrentLaw capacity ttl fits call := by
  have hempty : (Inner.new (K := Str)).len ≤ capacity := Nat.zero_le _
  refine ⟨?_, ?_, ?_, ?_, ?_, ?_⟩
  · intro calls h
    exact lockRun_returns hfits h .new
  · intro calls g flags h
    exact (backed_run hadds hcap backed_new hempty h).2
  · intro calls g flags h
    exact (backed_run hadds hcap backed_new hempty h).1
  · intro calls g flags _ now key g' hcall
    rcases hadds.cases g now key g' true hcall with ⟨hn, -⟩ | ⟨-, -, hg⟩
    · cases hn
    · rw [hg]
      exact AList.lookup_insert _
  · intro calls g flags h now
    exact (evict_room (purge_backed (backed_run hadds hcap backed_new hempty h).1 now) hcap).2
  · intro first last hspan calls htimes hcard g flags h key hkey
    have hfresh : Fresh last (calls.map Prod.snd).toFinset .new :=
      ⟨backed_new, by simp [Inner.new], by simp [Inner.new]⟩
    have hcalls : ∀ c ∈ calls, c.2 ∈ (calls.map Prod.snd).toFinset ∧ c.1 ≤ last ∧ last < c.1 + ttl := by
      intro c hc
      have := htimes c hc
      exact ⟨List.mem_toFinset.2 (List.mem_map_of_mem hc), this.2, by omega⟩
    rw [winners_run hadds hfresh hcard hcalls h key, if_neg (by simp [Inner.new]), if_pos hkey]

/-- **Dedup under concurrent callers**, in Rust and in Go. -/
theorem concurrent_dedup (maxInstant : ℤ) {capacity : ℕ} (hcap : 1 ≤ capacity) (ttl : ℕ) (goTtl : ℤ) :
    ConcurrentLaw capacity ttl (fun now => now + ttl ≤ maxInstant) (rustCall maxInstant capacity ttl) ∧
      ConcurrentLaw capacity goTtl (fun _ => True) (goCall capacity goTtl) := by
  refine ⟨law_of_adds hcap (rustCall_adds maxInstant capacity ttl) ?_,
    law_of_adds hcap (goCall_adds capacity goTtl) ?_⟩
  · intro g now key hfits
    rw [rustCall, tryAdd_eq_tryAddAt hfits]
    rfl
  · intro g now key _
    have hsome := @addWith_some _ _ capacity (fun now => some (now + goTtl)) g now key rfl
    simpa only [goCall, seenOrAdd, Option.isSome_map] using hsome

/-- three callers of one key with clock readings out of order, and another key: one winner each -/
def sampleCalls : List (ℤ × Str) := [(5, ['a']), (3, ['a']), (9, ['b']), (4, ['a'])]

/-- the store of two keys after the sample calls -/
theorem concurrent_dedup_sampleCalls :
    ∃ g flags, lockRun (rustCall 1000 2 10) .new sampleCalls = some (g, flags) ∧ g.len ≤ 2 ∧
      winners sampleCalls flags ['a'] = 1 ∧ winners sampleCalls flags ['b'] = 1 := by
  have hlaw := (@concurrent_dedup 1000 2 (by decide) 10 10).1
  have hsome := hlaw.returns sampleCalls (by simp [sampleCalls])
  obtain ⟨⟨g, flags⟩, hrun⟩ := Option.isSome_iff_exists.1 hsome
  have htimes : ∀ c ∈ sampleCalls, (3 : ℤ) ≤ c.1 ∧ c.1 ≤ 9 := by simp [sampleCalls]
  have hone := hlaw.oneWinner 3 9 (by decide) sampleCalls htimes (by decide) g flags hrun
  exact ⟨g, flags, hrun, hlaw.bounded _ _ _ hrun, hone _ (by simp [sampleCalls]), hone _ (by simp [sampleCalls])⟩

end NotifyAgent.DedupConcurrent
