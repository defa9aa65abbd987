/-
Arrival order of one bucket: does a batch depend on the order in which the workers hand over its events?

The design orders events by the arrival stamp `seq` and lets a replaceable event keep only the newest state, and all
ordering decisions are meant to use `seq`. `apply_to_bucket` compares the stamp only when the arriving event is
replaceable, so:
- a plain event that arrives after a newer replaceable one is kept, although in stamp order it is cleared;
- a replaceable event that arrives after a newer plain one is dropped, although in stamp order both are kept.

- `batchToast_eq_iff`: the toast of an arrival order is the toast of the stamp order EXACTLY when the bucket map is full
  (the events are dropped in either order), or every plain event is on the right side of the newest replaceable event
  (`InOrder`). Lists without a plain event, or without a replaceable one, are always in order.
- `late_plain_event_kept`: a plain event with stamp 1 that arrives after a replaceable one with stamp 2.
-/
import Mathlib.Tactic
import NotifyAgent.Core.Aggregator

namespace NotifyAgent.ArrivalOrder

open NotifyAgent.Text NotifyAgent.Notification NotifyAgent.Aggregator
open NotifyAgent.Lib.Replacement (absorbAll absorbAll_snoc absorbAll_perm_iff_inOrder foldl_absorb_subset absorb)

section
variable {E : Type} [Carries E] (C : AggregatorConfig) (G : Segmentation)

/-- add events one after the other -/
def addAll (s : Inner E) (l : List E) : Inner E := l.foldl (fun s n => (add C G s n).1) s

/-- the toast of a key that is flushed after the events were added -/
def batchToast (s : Inner E) (key : Key) (l : List E) : Option (ToastRequest E) := (flush G (addAll C G s l) key).2

/-- every plain event arrives on the side of the newest replaceable event on which its stamp is -/
def InOrder (l : List E) : Prop := Lib.Replacement.InOrder seqOf (fun e => (note e).replaceable) l

/-- what a bucket opened by the first of the events holds after the last -/
def heldOf (l : List E) : List E := absorbAll seqOf (fun e => (note e).replaceable) l

theorem addAll_snoc (s : Inner E) (l : List E) (n : E) : addAll C G s (l ++ [n]) = (add C G (addAll C G s l) n).1 := by
  simp [addAll, List.foldl_append]

theorem heldOf_subset (l : List E) : heldOf l ⊆ l := fun y hy =>
  (foldl_absorb_subset _ _ [] l y hy).resolve_left (List.not_mem_nil)

variable {s : Inner E} {key : Key} {l : List E} (hkey : ∀ e ∈ l, keyOf e = key) (hcrit : key.2 ≠ .critical)
  (hnone : s.buckets.lookup key = none)
include hkey hcrit hnone

/-- with room in the map, the bucket of the key holds `heldOf` of the events added -/
theorem addAll_open (hroom : s.buckets.keys.length < C.maxBuckets) :
    (l = [] ∧ addAll C G s l = s) ∨
      ∃ bucket, (addAll C G s l).buckets.lookup key = some bucket ∧ bucket.events = heldOf l ∧ heldOf l ≠ [] := by
  induction l using List.reverseRecOn with
  | nil => exact Or.inl ⟨rfl, rfl⟩
  | append_singleton l n ih =>
    right
    have hn : keyOf n = key := hkey n (by simp)
    have hnc : (note n).priority ≠ .critical := by
      rw [← hn] at hcrit; exact hcrit
    rw [addAll_snoc]
    rcases ih fun e he => hkey e (by simp [he]) with ⟨rfl, hs⟩ | ⟨bucket, hl, hev, hne⟩
    · rw [hs]
      rcases add_cases C G s n with ⟨hc, _⟩ | ⟨_, b, hl, _⟩ | ⟨_, _, hfull, _⟩ | ⟨_, _, _, window, he⟩
      · exact absurd hc hnc
      · rw [hn, hnone] at hl; cases hl
      · exact absurd hroom (Nat.not_lt.2 hfull)
      · refine ⟨⟨[n], ⟨s.timers, key, window⟩⟩, ?_, ?_, ?_⟩
        · rw [he, hn]; exact AList.lookup_insert _
        · simp [heldOf, absorbAll, absorb]
        · simp [heldOf, absorbAll, absorb]
    · rcases add_cases C G (addAll C G s l) n with ⟨hc, _⟩ | ⟨_, b, hl', he⟩ | ⟨_, hl', _⟩ | ⟨_, hl', _⟩
      · exact absurd hc hnc
      · rw [hn, hl, Option.some.injEq] at hl'
        subst hl'
        have hheld : heldOf (l ++ [n]) = applyToBucket (heldOf l) n := by
          rw [applyToBucket_eq_absorb]
          exact absorbAll_snoc _ _ l n
        refine ⟨{ bucket with events := applyToBucket bucket.events n }, ?_, ?_, ?_⟩
        · rw [he, hn]; exact AList.lookup_insert _
        · rw [hheld, hev]
        · rw [hheld, applyToBucket_eq_absorb]
          exact Lib.Replacement.absorb_ne_nil _ _ _ _ hne
      · rw [hn, hl] at hl'; cases hl'
      · rw [hn, hl] at hl'; cases hl'

omit hcrit in
/-- with the map full, every event of the key is dropped -/
theorem addAll_full (hfull : C.maxBuckets ≤ s.buckets.keys.length) :
    (addAll C G s l).buckets = s.buckets := by
  induction l using List.reverseRecOn with
  | nil => rfl
  | append_singleton l n ih =>
    have hn : keyOf n = key := hkey n (by simp)
    have hs := ih fun e he => hkey e (by simp [he])
    rw [addAll_snoc]
    rcases add_cases C G (addAll C G s l) n with ⟨_, he⟩ | ⟨_, b, hl, _⟩ | ⟨_, _, _, he⟩ | ⟨_, _, hlt, _⟩
    · rw [he, hs]
    · rw [hn, hs, hnone] at hl; cases hl
    · rw [he]; exact hs
    · rw [hs] at hlt
      exact absurd hlt (Nat.not_lt.2 hfull)

theorem batchToast_open (hroom : s.buckets.keys.length < C.maxBuckets) (hne : l ≠ []) :
    ∃ bucket : Bucket E, batchToast C G s key l = buildToast G bucket ∧ bucket.events = heldOf l ∧ heldOf l ≠ [] := by
  rcases addAll_open C G hkey hcrit hnone hroom with ⟨h, _⟩ | ⟨bucket, hl, hev, hheld⟩
  · exact absurd h hne
  · refine ⟨bucket, ?_, hev, hheld⟩
    rcases flush_cases G (addAll C G s l) key with ⟨hl', _⟩ | ⟨b, hl', hf⟩
    · rw [hl] at hl'; cases hl'
    · rw [hl, Option.some.injEq] at hl'
      subst hl'
      rw [batchToast, hf]

omit hcrit in
theorem batchToast_full (hfull : C.maxBuckets ≤ s.buckets.keys.length) : batchToast C G s key l = none := by
  have hs := addAll_full C G hkey hnone hfull
  rcases flush_cases G (addAll C G s l) key with ⟨_, hf⟩ | ⟨b, hl, _⟩
  · rw [batchToast, hf]
  · rw [hs, hnone] at hl; cases hl

omit hkey hcrit hnone in
/-- two buckets give the same toast exactly when they give the same sorted events -/
theorem buildToast_eq_iff {a b : Bucket E} (ha : a.events ≠ []) (hb : b.events ≠ []) :
    buildToast G a = buildToast G b ↔ sortBySeq a.events = sortBySeq b.events := by
  constructor
  · intro h
    rw [← sourcesOf_buildToast G a, ← sourcesOf_buildToast G b, h]
  · intro h
    unfold buildToast
    rw [h, if_neg (by simpa using ha), if_neg (by simpa using hb)]

/-- **Arrival order, characterised exactly.** For events with distinct stamps and one non-critical key that has no open
bucket, adding them in an arrival order and flushing gives the toast of the stamp order exactly when the map is full or
the arrival order is `InOrder`. -/
theorem batchToast_eq_iff (hd : (l.map seqOf).Nodup) :
    batchToast C G s key l = batchToast C G s key (sortBySeq l) ↔
      C.maxBuckets ≤ s.buckets.keys.length ∨ InOrder l := by
  have hperm := sortBySeq_perm l
  have hkeys : ∀ e ∈ sortBySeq l, keyOf e = key := fun e he => hkey e (hperm.subset he)
  rcases Nat.lt_or_ge s.buckets.keys.length C.maxBuckets with hroom | hfull
  · rw [or_iff_right (Nat.not_le.2 hroom)]
    rcases eq_or_ne l [] with rfl | hne
    · simp [sortBySeq, InOrder, Lib.Replacement.InOrder]
    · have hnes : sortBySeq l ≠ [] := fun h => hne (by rw [h] at hperm; exact hperm.nil_eq.symm)
      obtain ⟨a, hta, hae, hane⟩ := batchToast_open C G hkey hcrit hnone hroom hne
      obtain ⟨b, htb, hbe, hbne⟩ := batchToast_open C G hkeys hcrit hnone hroom hnes
      rw [hta, htb, buildToast_eq_iff G (hae ▸ hane) (hbe ▸ hbne), hae, hbe,
        sortBySeq_eq_iff hd (heldOf_subset l)]
      exact absorbAll_perm_iff_inOrder _ _ hd hperm (sortBySeq_sorted l)
  · rw [batchToast_full C G hkey hnone hfull, batchToast_full C G hkeys hnone hfull]
    exact iff_of_true rfl (Or.inl hfull)

end

/-! ## Witnesses -/

/-- an event of one key, stamped and replaceable or not -/
def progress (seq : ℕ) (replaceable : Bool) : InboundNotification where
  seq := seq
  eventId := ['e']
  userId := ['u']
  title := ['t']
  message := ['m']
  secondaryText := none
  actionLabel := none
  actionUrl := none
  image := none
  priority := .normal
  aggregationKey := ['k']
  deduplicationKey := ['e']
  replaceable := replaceable
  producerCreatedAt := none
  serverPublishedAt := none
  receivedAt := 0

def config : AggregatorConfig := ⟨100, 2, 10, 5⟩

/-- the replaceable event with stamp 2 arrives before the plain event with stamp 1 -/
def lateArrival : List InboundNotification := [progress 2 true, progress 1 false]

/-- **A late plain event is kept.** In arrival order the toast lists stamps 1 and 2; in stamp order it lists stamp 2
alone. -/
theorem late_plain_event_kept :
    (lateArrival.map seqOf).Nodup ∧ (∀ e ∈ lateArrival, keyOf e = (['k'], Priority.normal)) ∧
    (sourcesOf (batchToast config singletons Inner.new (['k'], .normal) lateArrival)).map seqOf = [1, 2] ∧
    (sourcesOf (batchToast config singletons Inner.new (['k'], .normal) (sortBySeq lateArrival))).map seqOf = [2] ∧
    batchToast config singletons Inner.new (['k'], .normal) lateArrival ≠
      batchToast config singletons Inner.new (['k'], .normal) (sortBySeq lateArrival) := by
  decide

theorem batchToast_eq_iff_late :
    batchToast config singletons Inner.new (['k'], .normal) lateArrival =
        batchToast config singletons Inner.new (['k'], .normal) (sortBySeq lateArrival) ↔
      config.maxBuckets ≤ (Inner.new (E := InboundNotification)).buckets.keys.length ∨ InOrder lateArrival :=
  batchToast_eq_iff config singletons (by decide) (by decide) (by decide) (by decide)

end NotifyAgent.ArrivalOrder
