/-
The Rust aggregator (`aggregator.rs`): buckets keyed by aggregation key and priority, filled by `add`, closed by
`flush`. Both lock the bucket map for their whole effect on it, so each is one function on the map.

- `add_cases`, `flush_cases`: everything a call can do; later proofs use these and never unfold the calls;
- `applyToBucket_eq_absorb`: `apply_to_bucket` is latest-value replacement by sequence number;
- `add_conserves`, `flush_conserves`: an added event is held, discarded, dropped or rendered, and a flush hands over
  exactly what its bucket held, for any way of counting the events;
- `Wf`: the representation invariant, kept by `add` (`add_wf`) and `flush` (`flush_wf`);
- `buildToast_isSome`: under it, a removed bucket always gives a toast.
-/
import Mathlib.Tactic
import Mathlib.Data.List.AList
import Mathlib.Data.List.Sort
import NotifyAgent.Lib.FiniteMap
import NotifyAgent.Lib.Ledger
import NotifyAgent.Lib.Loop
import NotifyAgent.Lib.Replacement
import NotifyAgent.Core.Notification

namespace NotifyAgent.Aggregator

open NotifyAgent.Text NotifyAgent.Notification
open NotifyAgent.Lib.FiniteMap (lookup_gone)
open NotifyAgent.Lib.Ledger
open NotifyAgent.Lib.Loop (sweep)
open NotifyAgent.Lib.Replacement (absorb Shape)

/-! ## Model -/

/-- `type Key`: aggregation key and priority -/
abbrev Key := Str × Priority

structure AggregatorConfig where
  maxBuckets : ℕ
  importantWindow : ℕ
  normalWindow : ℕ
  drainTimeout : ℕ
deriving DecidableEq, Repr

/-- the task behind `Bucket::timer`: it sleeps for `window`, then flushes `key` -/
structure Timer where
  id : ℕ
  key : Key
  window : ℕ
deriving DecidableEq, Repr

structure Bucket (E : Type) where
  events : List E
  timer : Timer
deriving DecidableEq, Repr

/-- `struct Inner` without its sink and task tracker; `timers` counts the timer tasks spawned so far -/
structure Inner (E : Type) where
  buckets : AList (fun _ : Key => Bucket E)
  droppedBucketOverflow : ℕ
  timers : ℕ

/-- `Aggregator::new` -/
def Inner.new {E : Type} : Inner E := ⟨∅, 0, 0⟩

/-- ghost: what a call of `add` did with its event -/
inductive Added (E : Type) where
  /-- a critical event: its render is spawned at once -/
  | rendered (toast : ToastRequest E)
  /-- an open bucket took the event and discarded these -/
  | joined (discarded : List E)
  /-- dropped: no open bucket for the key and the map is full -/
  | dropped
  | opened

section
variable {E : Type} [Carries E]

def keyOf (n : E) : Key := ((note n).aggregationKey, (note n).priority)

/-- `apply_to_bucket` -/
def applyToBucket (events : List E) (n : E) : List E :=
  if (note n).replaceable then
    let newest := (events.map seqOf).max?.getD 0
    if newest ≤ seqOf n then [n] else events
  else events ++ [n]

/-- ghost: the events `apply_to_bucket` leaves out -/
def discarded (events : List E) (n : E) : List E :=
  if (note n).replaceable then
    let newest := (events.map seqOf).max?.getD 0
    if newest ≤ seqOf n then events else [n]
  else []

/-- `Aggregator::add` -/
def add (C : AggregatorConfig) (G : Segmentation) (s : Inner E) (n : E) : Inner E × Added E :=
  if (note n).priority = .critical then (s, .rendered (fromSingle G n))
  else
    match s.buckets.lookup (keyOf n) with
    | some bucket =>
      ({ s with buckets := s.buckets.insert (keyOf n) { bucket with events := applyToBucket bucket.events n } },
        .joined (discarded bucket.events n))
    | none =>
      if C.maxBuckets ≤ s.buckets.keys.length then
        ({ s with droppedBucketOverflow := s.droppedBucketOverflow + 1 }, .dropped)
      else
        let window := if (note n).priority = .important then C.importantWindow else C.normalWindow
        ({ s with buckets := s.buckets.insert (keyOf n) ⟨[n], ⟨s.timers, keyOf n, window⟩⟩, timers := s.timers + 1 },
          .opened)

/-- `sort_by_key(|e| e.seq)` -/
def sortBySeq (events : List E) : List E := events.insertionSort fun a b => seqOf a ≤ seqOf b

/-- what `flush` makes of a bucket it has removed -/
def buildToast (G : Segmentation) (bucket : Bucket E) : Option (ToastRequest E) :=
  if bucket.events.isEmpty then none else fromBatch G (sortBySeq bucket.events)

/-- `Inner::flush` -/
def flush (G : Segmentation) (s : Inner E) (key : Key) : Inner E × Option (ToastRequest E) :=
  match s.buckets.lookup key with
  | none => (s, none)
  | some bucket => ({ s with buckets := s.buckets.erase key }, buildToast G bucket)

/-- the loop of `Aggregator::shutdown` over the keys it has read -/
def flushKeys (G : Segmentation) (s : Inner E) (keys : List Key) : Inner E × List (ToastRequest E) :=
  sweep (flush G) s keys

/-! ## What a call does -/

theorem add_cases (C : AggregatorConfig) (G : Segmentation) (s : Inner E) (n : E) :
    ((note n).priority = .critical ∧ add C G s n = (s, .rendered (fromSingle G n))) ∨
    ((note n).priority ≠ .critical ∧ ∃ bucket, s.buckets.lookup (keyOf n) = some bucket ∧
      add C G s n =
        ({ s with buckets := s.buckets.insert (keyOf n) { bucket with events := applyToBucket bucket.events n } },
          .joined (discarded bucket.events n))) ∨
    ((note n).priority ≠ .critical ∧ s.buckets.lookup (keyOf n) = none ∧ C.maxBuckets ≤ s.buckets.keys.length ∧
      add C G s n = ({ s with droppedBucketOverflow := s.droppedBucketOverflow + 1 }, .dropped)) ∨
    ((note n).priority ≠ .critical ∧ s.buckets.lookup (keyOf n) = none ∧ s.buckets.keys.length < C.maxBuckets ∧
      ∃ window, add C G s n =
        ({ s with buckets := s.buckets.insert (keyOf n) ⟨[n], ⟨s.timers, keyOf n, window⟩⟩, timers := s.timers + 1 },
          .opened)) := by
  unfold add
  by_cases hc : (note n).priority = .critical
  · exact Or.inl ⟨hc, if_pos hc⟩
  · rw [if_neg hc]
    cases hl : s.buckets.lookup (keyOf n) with
    | some bucket => exact Or.inr (Or.inl ⟨hc, bucket, rfl, rfl⟩)
    | none =>
      by_cases hm : C.maxBuckets ≤ s.buckets.keys.length
      · exact Or.inr (Or.inr (Or.inl ⟨hc, rfl, hm, by simp [hm]⟩))
      · exact Or.inr (Or.inr (Or.inr ⟨hc, rfl, Nat.lt_of_not_le hm, _, by simp only [hm, if_false]; rfl⟩))

theorem flush_cases (G : Segmentation) (s : Inner E) (key : Key) :
    (s.buckets.lookup key = none ∧ flush G s key = (s, none)) ∨
    (∃ bucket, s.buckets.lookup key = some bucket ∧
      flush G s key = ({ s with buckets := s.buckets.erase key }, buildToast G bucket)) := by
  unfold flush
  cases hl : s.buckets.lookup key with
  | none => exact Or.inl ⟨rfl, rfl⟩
  | some bucket => exact Or.inr ⟨bucket, rfl, rfl⟩

theorem flush_lookup (G : Segmentation) (s : Inner E) (key k : Key) :
    (flush G s key).1.buckets.lookup k = if k = key then none else s.buckets.lookup k := by
  apply lookup_gone
  rcases flush_cases G s key with ⟨hl, h⟩ | ⟨bucket, _, h⟩ <;> rw [h]
  · exact Or.inl ⟨hl, rfl⟩
  · exact Or.inr rfl

theorem newest_le_iff {events : List E} {b : ℕ} :
    (events.map seqOf).max?.getD 0 ≤ b ↔ ∀ e ∈ events, seqOf e ≤ b := by
  cases hm : (events.map seqOf).max? with
  | none =>
    rw [List.max?_eq_none_iff, List.map_eq_nil_iff] at hm
    simp [hm]
  | some m =>
    rw [Option.getD_some, List.max?_le_iff hm]
    simp

/-- what `apply_to_bucket` leaves out, it leaves out for a replaceable event: older ones for a newer one, or that one
itself when it is stale -/
theorem mem_discarded {events : List E} {m n : E} (h : m ∈ discarded events n) :
    (note n).replaceable = true ∧
      ((m ∈ events ∧ seqOf m ≤ seqOf n) ∨ (m = n ∧ ∃ e ∈ events, seqOf n < seqOf e)) := by
  unfold discarded at h
  split_ifs at h with hr
  · refine ⟨hr, ?_⟩
    simp only at h
    split_ifs at h with hn
    · exact Or.inl ⟨h, newest_le_iff.1 hn m h⟩
    · rw [newest_le_iff] at hn
      push Not at hn
      exact Or.inr ⟨List.mem_singleton.1 h, hn⟩
  · cases h

/-- **`apply_to_bucket` is latest-value replacement by sequence number.** -/
theorem applyToBucket_eq_absorb (events : List E) (n : E) :
    applyToBucket events n = absorb seqOf (fun e => (note e).replaceable) events n := by
  unfold applyToBucket absorb
  simp only [newest_le_iff]

theorem sortBySeq_perm (events : List E) : (sortBySeq events).Perm events := List.perm_insertionSort _ _

theorem sortBySeq_sorted (events : List E) : (sortBySeq events).Pairwise (fun a b => seqOf a ≤ seqOf b) := by
  have htotal : Std.Total (fun a b : E => seqOf a ≤ seqOf b) := ⟨fun a b => Nat.le_total (seqOf a) (seqOf b)⟩
  have htrans : IsTrans E (fun a b => seqOf a ≤ seqOf b) := ⟨fun _ _ _ => Nat.le_trans⟩
  exact List.pairwise_insertionSort _ events

/-- with distinct sequence numbers the sorted list is determined by its members -/
theorem sortBySeq_eq_iff {a b l : List E} (hd : (l.map seqOf).Nodup) (ha : a ⊆ l) :
    sortBySeq a = sortBySeq b ↔ a.Perm b := by
  constructor
  · intro h
    exact (sortBySeq_perm a).symm.trans (h ▸ sortBySeq_perm b)
  · intro h
    refine List.Perm.eq_of_pairwise (fun x y hx hy hxy hyx => ?_)
      (sortBySeq_sorted a) (sortBySeq_sorted b) ((sortBySeq_perm a).trans (h.trans (sortBySeq_perm b).symm))
    exact List.inj_on_of_nodup_map hd (ha ((sortBySeq_perm a).subset hx))
      (ha (h.symm.subset ((sortBySeq_perm b).subset hy))) (Nat.le_antisymm hxy hyx)

/-! ## Conservation -/

section
variable {ι : Type*} (f : E → Multiset ι)

/-- the events that leave the aggregator in a call of `add` -/
def Added.leaving (n : E) : Added E → List E
  | .rendered toast => toast.sources
  | .joined gone => gone
  | .dropped => [n]
  | .opened => []

/-- those of them that no toast shows: discarded by a bucket, or dropped at the bucket limit -/
def Added.lost (n : E) : Added E → List E
  | .joined gone => gone
  | .dropped => [n]
  | _ => []

theorem applyToBucket_conserves (events : List E) (n : E) :
    tally f (applyToBucket events n) + tally f (discarded events n) = tally f events + f n := by
  unfold applyToBucket discarded
  split_ifs with hr
  · simp only
    split_ifs
    · simp [add_comm]
    · simp
  · simp

/-- **Nothing is lost in `add`.** -/
theorem add_conserves (C : AggregatorConfig) (G : Segmentation) (s : Inner E) (n : E) :
    holdings (fun b => tally f b.events) (add C G s n).1.buckets + tally f ((add C G s n).2.leaving n) =
      holdings (fun b => tally f b.events) s.buckets + f n := by
  rcases add_cases C G s n with ⟨_, h⟩ | ⟨_, bucket, hl, h⟩ | ⟨_, _, _, h⟩ | ⟨_, hl, _, window, h⟩ <;> rw [h]
  · simp [Added.leaving]
  · have hrep := holdings_replace (fun b : Bucket E => tally f b.events)
      { bucket with events := applyToBucket bucket.events n } hl
    have happ := applyToBucket_conserves f bucket.events n
    simp only [Added.leaving] at hrep ⊢
    refine add_right_cancel (b := tally f bucket.events) ?_
    rw [add_right_comm, hrep, add_assoc, happ]
    abel
  · simp [Added.leaving]
  · rw [holdings_insert _ _ hl]
    simp [Added.leaving, add_comm]

/-- the events of the toast a flush produces, none if it produces none -/
def sourcesOf (t : Option (ToastRequest E)) : List E := (t.map ToastRequest.sources).getD []

theorem buildToast_isSome {G : Segmentation} {bucket : Bucket E} :
    (buildToast G bucket).isSome ↔ bucket.events ≠ [] := by
  unfold buildToast
  cases he : bucket.events with
  | nil => simp
  | cons e l =>
    have : sortBySeq (e :: l) ≠ [] := fun hn => by simpa [hn] using (sortBySeq_perm (e :: l)).length_eq
    simpa using (fromBatch_isSome G).2 this

theorem buildToast_sources {G : Segmentation} {bucket : Bucket E} {t : ToastRequest E}
    (h : buildToast G bucket = some t) : t.sources = sortBySeq bucket.events := by
  unfold buildToast at h
  split_ifs at h
  exact fromBatch_sources G h

theorem sourcesOf_buildToast (G : Segmentation) (bucket : Bucket E) :
    sourcesOf (buildToast G bucket) = sortBySeq bucket.events := by
  cases ht : buildToast G bucket with
  | none =>
    have : bucket.events = [] := by
      by_contra hne
      have := (buildToast_isSome (G := G)).2 hne
      simp [ht] at this
    simp [sourcesOf, this, sortBySeq]
  | some t => exact buildToast_sources ht

/-- **Nothing is lost in `flush`.** -/
theorem flush_conserves (G : Segmentation) (s : Inner E) (key : Key) :
    holdings (fun b => tally f b.events) (flush G s key).1.buckets + tally f (sourcesOf (flush G s key).2) =
      holdings (fun b => tally f b.events) s.buckets := by
  rcases flush_cases G s key with ⟨_, h⟩ | ⟨bucket, hl, h⟩ <;> rw [h]
  · simp [sourcesOf]
  · rw [sourcesOf_buildToast, tally_perm f (sortBySeq_perm bucket.events),
      holdings_erase (fun b : Bucket E => tally f b.events) hl, add_comm]

end

/-! ## The representation invariant -/

/-- a well-formed bucket for a key -/
structure BucketWf (key : Key) (bucket : Bucket E) : Prop where
  nonempty : bucket.events ≠ []
  keyed : ∀ e ∈ bucket.events, keyOf e = key
  notCritical : key.2 ≠ .critical
  /-- only the event that came first can be replaceable -/
  shape : Shape (fun e => (note e).replaceable) bucket.events

structure Wf (C : AggregatorConfig) (s : Inner E) : Prop where
  bounded : s.buckets.keys.length ≤ C.maxBuckets
  buckets : ∀ key bucket, s.buckets.lookup key = some bucket → BucketWf key bucket

theorem wf_new (C : AggregatorConfig) : Wf C (Inner.new (E := E)) :=
  ⟨Nat.zero_le _, by simp [Inner.new]⟩

theorem applyToBucket_wf {key : Key} {bucket : Bucket E} {n : E} (h : BucketWf key bucket) (hn : keyOf n = key) :
    BucketWf key { bucket with events := applyToBucket bucket.events n } := by
  refine ⟨?_, ?_, h.notCritical, ?_⟩ <;> simp only [applyToBucket_eq_absorb]
  · exact Lib.Replacement.absorb_ne_nil _ _ _ _ h.nonempty
  · intro e he
    rcases Lib.Replacement.absorb_subset _ _ _ _ e he with he | rfl
    · exact h.keyed e he
    · exact hn
  · exact Lib.Replacement.absorb_shape _ _ n h.nonempty h.shape

theorem add_wf {C : AggregatorConfig} (G : Segmentation) {s : Inner E} (n : E) (h : Wf C s) :
    Wf C (add C G s n).1 := by
  rcases add_cases C G s n with ⟨_, he⟩ | ⟨_, bucket, hl, he⟩ | ⟨_, _, _, he⟩ | ⟨hc, hl, hlt, window, he⟩ <;> rw [he]
  · exact h
  · refine ⟨?_, fun key b hb => ?_⟩
    · simpa only [length_keys_replace _ (Option.isSome_iff_exists.2 ⟨bucket, hl⟩)] using h.bounded
    · by_cases hk : key = keyOf n
      · subst hk
        simp only [AList.lookup_insert, Option.some.injEq] at hb
        subst hb
        exact applyToBucket_wf (h.buckets _ _ hl) rfl
      · rw [AList.lookup_insert_ne hk] at hb
        exact h.buckets key b hb
  · exact ⟨h.bounded, h.buckets⟩
  · refine ⟨?_, fun key b hb => ?_⟩
    · simp only [length_keys_insert _ hl]
      exact hlt
    · by_cases hk : key = keyOf n
      · subst hk
        simp only [AList.lookup_insert, Option.some.injEq] at hb
        subst hb
        exact ⟨by simp, by simp, hc, by simp [Shape]⟩
      · rw [AList.lookup_insert_ne hk] at hb
        exact h.buckets key b hb

theorem flush_wf {C : AggregatorConfig} (G : Segmentation) {s : Inner E} (key : Key) (h : Wf C s) :
    Wf C (flush G s key).1 := by
  rcases flush_cases G s key with ⟨_, he⟩ | ⟨bucket, hl, he⟩ <;> rw [he]
  · exact h
  · refine ⟨?_, fun k b hb => ?_⟩
    · exact (length_keys_erase_le s.buckets key).trans h.bounded
    · by_cases hk : k = key
      · subst hk
        simp at hb
      · rw [AList.lookup_erase_ne hk] at hb
        exact h.buckets k b hb

end

end NotifyAgent.Aggregator
