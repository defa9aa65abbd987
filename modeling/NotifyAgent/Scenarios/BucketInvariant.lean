/-
What the buckets of the Rust aggregator hold at any time, and what the flushed toasts may rely on. A run is any sequence
of calls to `add`, timers that run out and shutdowns; each takes the lock for its whole effect on a bucket.

- `flush_toast`: a toast made of a bucket lists its events by sequence number and shows the last one;
- `step_inv`: one call keeps the invariant;
- `reachable_sound`: every reachable state of every run whose events have distinct sequence numbers.
-/
import Mathlib.Tactic
import NotifyAgent.Lib.Machine
import NotifyAgent.Scenarios.ArrivalOrder

namespace NotifyAgent.BucketInvariant

open NotifyAgent.Text NotifyAgent.Notification NotifyAgent.Aggregator
open NotifyAgent.Lib.Machine
open NotifyAgent.Lib.Loop (sweep)
open NotifyAgent.ArrivalOrder (progress config)

section
variable {E : Type} [Carries E] (C : AggregatorConfig) (G : Segmentation)

/-! ## Model -/

inductive Op (E : Type) where
  | add (n : E)
  /-- the timer of a bucket of this key runs out -/
  | timer (key : Key)
  /-- over the keys it has read from the map, in the order of the map -/
  | shutdown (keys : List Key)

structure St (E : Type) where
  inner : Inner E
  /-- ghost: the events added so far -/
  added : List E
  /-- ghost: the toasts whose render was spawned -/
  toasts : List (ToastRequest E)

def init : St E := ⟨Inner.new, [], []⟩

/-- the toast of a critical event -/
def rendered : Added E → List (ToastRequest E)
  | .rendered toast => [toast]
  | _ => []

def step (s : St E) : Op E → St E
  | .add n =>
    ⟨(Aggregator.add C G s.inner n).1, s.added ++ [n], s.toasts ++ rendered (Aggregator.add C G s.inner n).2⟩
  | .timer key => { s with inner := (flush G s.inner key).1, toasts := s.toasts ++ (flush G s.inner key).2.toList }
  | .shutdown keys =>
    { s with inner := (flushKeys G s.inner keys).1, toasts := s.toasts ++ (flushKeys G s.inner keys).2 }

/-- the events that a run adds -/
def adds : List (Op E) → List E
  | [] => []
  | .add n :: ops => n :: adds ops
  | _ :: ops => adds ops

/-! ## Specification -/

/-- a toast of events that were added: a critical one is alone, their sequence numbers increase, and what the toast
shows is the last one's -/
structure ToastSound (added : List E) (toast : ToastRequest E) : Prop where
  sources : ∀ e ∈ toast.sources, e ∈ added
  critical : ∀ e ∈ toast.sources, (note e).priority = .critical → toast.sources = [e]
  increasing : toast.sources.Pairwise fun a b => seqOf a < seqOf b
  latest : ∃ last, toast.sources.getLast? = some last ∧
    toast.message = truncate G
      (if toast.sources.length = 1 then (note last).message else batchMessage (note last).message) maxMessageGraphemes ∧
    toast.attribution = (note last).secondaryText ∧ toast.actionLabel = (note last).actionLabel ∧
    toast.actionUrl = (note last).actionUrl ∧ toast.image = (note last).image

/-- what is promised of a state -/
structure Sound (s : St E) : Prop where
  bounded : s.inner.buckets.keys.length ≤ C.maxBuckets
  nonempty : ∀ key bucket, s.inner.buckets.lookup key = some bucket → bucket.events ≠ []
  keyed : ∀ key bucket, s.inner.buckets.lookup key = some bucket →
    key.2 ≠ .critical ∧ ∀ e ∈ bucket.events, (note e).aggregationKey = key.1 ∧ (note e).priority = key.2
  dropped : ∀ n, (Aggregator.add C G s.inner n).2 = .dropped →
    s.inner.buckets.lookup (keyOf n) = none ∧ s.inner.buckets.keys.length = C.maxBuckets
  /-- a replaceable event comes before all others, and these are plain -/
  replaceable : ∀ key bucket r, s.inner.buckets.lookup key = some bucket → r ∈ bucket.events →
    (note r).replaceable = true → ∀ e ∈ bucket.events, e ≠ r → (note e).replaceable = false ∧ [r, e].Sublist s.added
  /-- the assertion of `from_batch` on what a flush of the bucket hands over -/
  assertion : ∀ key bucket, s.inner.buckets.lookup key = some bucket →
    (fromBatch G (sortBySeq bucket.events)).isSome = true
  toasts : ∀ toast ∈ s.toasts, ToastSound G s.added toast

/-! ## Toasts -/

variable {G}

/-- **What a batch shows** is its last event. -/
theorem fromBatch_latest {batch : List E} {toast : ToastRequest E}
    (hsorted : batch.Pairwise fun a b => seqOf a ≤ seqOf b) (hdistinct : (batch.map seqOf).Nodup)
    (h : fromBatch G batch = some toast) :
    ∃ last, batch.getLast? = some last ∧
      toast.message = truncate G
        (if batch.length = 1 then (note last).message else batchMessage (note last).message) maxMessageGraphemes ∧
      toast.attribution = (note last).secondaryText ∧ toast.actionLabel = (note last).actionLabel ∧
      toast.actionUrl = (note last).actionUrl ∧ toast.image = (note last).image := by
  match batch with
  | [] => cases h
  | [n] =>
    obtain rfl := Option.some.inj h
    exact ⟨n, rfl, rfl, rfl, rfl, rfl, rfl⟩
  | a :: b :: rest =>
    simp only [fromBatch, Option.map_eq_some_iff] at h
    obtain ⟨latest, hmax, rfl⟩ := h
    obtain ⟨hmem, hle⟩ := maxBySeq_spec hmax
    -- the largest sequence number is the last one
    obtain ⟨front, last, hsplit⟩ : ∃ front last, a :: b :: rest = front ++ [last] :=
      ⟨_, _, (List.dropLast_append_getLast (List.cons_ne_nil a (b :: rest))).symm⟩
    have hlast : last ∈ a :: b :: rest := by
      rw [hsplit]
      simp
    have hge : seqOf latest ≤ seqOf last := by
      rw [hsplit] at hsorted hmem
      rcases List.mem_append.1 hmem with hfront | hsame
      · exact (List.pairwise_append.1 hsorted).2.2 latest hfront last List.mem_cons_self
      · rw [List.mem_singleton.1 hsame]
    have hsame : latest = last :=
      List.inj_on_of_nodup_map hdistinct hmem hlast (Nat.le_antisymm hge (hle last hlast))
    refine ⟨last, ?_, ?_⟩
    · rw [hsplit, List.getLast?_concat]
    · rw [hsame]
      exact ⟨rfl, rfl, rfl, rfl, rfl⟩

theorem toastSound_mono {added : List E} (n : E) {toast : ToastRequest E} (h : ToastSound G added toast) :
    ToastSound G (added ++ [n]) toast :=
  { h with sources := fun e he => List.mem_append_left _ (h.sources e he) }

theorem toastSound_fromSingle {added : List E} {n : E} (hn : n ∈ added) : ToastSound G added (fromSingle G n) where
  sources e he := by
    rw [List.mem_singleton.1 he]
    exact hn
  critical e he _ := by
    rw [List.mem_singleton.1 he]
    rfl
  increasing := List.pairwise_singleton _ _
  latest := ⟨n, rfl, rfl, rfl, rfl, rfl, rfl⟩

/-- **The toast of a bucket.** -/
theorem flush_toast {key : Key} {bucket : Bucket E} {added : List E} {toast : ToastRequest E}
    (hwf : BucketWf key bucket)
    (hadded : bucket.events.Sublist added) (hdistinct : (added.map seqOf).Nodup)
    (h : buildToast G bucket = some toast) : ToastSound G added toast := by
  have hsources := buildToast_sources h
  have hperm := sortBySeq_perm bucket.events
  have hsorted := sortBySeq_sorted bucket.events
  have hnodup : ((sortBySeq bucket.events).map seqOf).Nodup := by
    rw [(hperm.map seqOf).nodup_iff]
    exact (hadded.map seqOf).nodup hdistinct
  have hbatch : fromBatch G (sortBySeq bucket.events) = some toast := by
    unfold buildToast at h
    split_ifs at h
    exact h
  refine ⟨fun e he => ?_, fun e he hcritical => ?_, ?_, ?_⟩
  · rw [hsources] at he
    exact hadded.subset (hperm.subset he)
  · rw [hsources] at he
    have hkey := hwf.keyed e (hperm.subset he)
    have hnot := hwf.notCritical
    rw [← hkey] at hnot
    exact absurd hcritical hnot
  · rw [hsources]
    have hne : (sortBySeq bucket.events).Pairwise fun a b => seqOf a ≠ seqOf b := List.pairwise_map.1 hnodup
    exact (hsorted.and hne).imp fun hab => lt_of_le_of_ne hab.1 hab.2
  · rw [hsources]
    exact fromBatch_latest hsorted hnodup hbatch

/-! ## Invariant -/

variable (G)

structure Inv (s : St E) : Prop where
  wf : Wf C s.inner
  /-- a bucket holds its events in the order in which they were added -/
  order : ∀ key bucket, s.inner.buckets.lookup key = some bucket → bucket.events.Sublist s.added
  toasts : (s.added.map seqOf).Nodup → ∀ toast ∈ s.toasts, ToastSound G s.added toast

theorem inv_init : Inv C G (init (E := E)) where
  wf := wf_new C
  order key bucket h := by simp [init, Inner.new] at h
  toasts _ toast h := by cases h

variable {C G}

theorem applyToBucket_sublist {events added : List E} (h : events.Sublist added) (n : E) :
    (applyToBucket events n).Sublist (added ++ [n]) := by
  unfold applyToBucket
  split_ifs with hreplaceable
  · simp only
    split_ifs
    · exact List.sublist_append_right _ _
    · exact h.trans (List.sublist_append_left _ _)
  · exact h.append (List.Sublist.refl _)

theorem distinct_of_append {added : List E} {n : E} (h : ((added ++ [n]).map seqOf).Nodup) :
    (added.map seqOf).Nodup := by
  rw [List.map_append] at h
  exact (List.nodup_append.1 h).1

theorem inv_add {s : St E} (n : E) (h : Inv C G s) : Inv C G (step C G s (.add n)) := by
  have hwf := add_wf G n h.wf
  have hold : ∀ key bucket, s.inner.buckets.lookup key = some bucket → bucket.events.Sublist (s.added ++ [n]) :=
    fun key bucket hl => (h.order key bucket hl).trans (List.sublist_append_left _ _)
  have htoasts : ((s.added ++ [n]).map seqOf).Nodup → ∀ toast ∈ s.toasts, ToastSound G (s.added ++ [n]) toast :=
    fun hdistinct toast ht => toastSound_mono n (h.toasts (distinct_of_append hdistinct) toast ht)
  rcases add_cases C G s.inner n with ⟨_, he⟩ | ⟨_, bucket, hl, he⟩ | ⟨_, _, _, he⟩ | ⟨_, _, _, window, he⟩ <;>
    rw [he] at hwf <;> simp only [step, he]
  · refine ⟨hwf, hold, fun hdistinct toast ht => ?_⟩
    rcases List.mem_append.1 ht with hpast | hnew
    · exact htoasts hdistinct toast hpast
    · rw [List.mem_singleton.1 hnew]
      exact toastSound_fromSingle (by simp)
  · refine ⟨hwf, fun key b hb => ?_, ?_⟩
    · by_cases hk : key = keyOf n
      · subst hk
        simp only [AList.lookup_insert, Option.some.injEq] at hb
        subst hb
        exact applyToBucket_sublist (h.order _ _ hl) n
      · rw [AList.lookup_insert_ne hk] at hb
        exact hold key b hb
    · simpa [rendered] using htoasts
  · refine ⟨hwf, hold, ?_⟩
    simpa [rendered] using htoasts
  · refine ⟨hwf, fun key b hb => ?_, ?_⟩
    · by_cases hk : key = keyOf n
      · subst hk
        simp only [AList.lookup_insert, Option.some.injEq] at hb
        subst hb
        exact List.sublist_append_right _ _
      · rw [AList.lookup_insert_ne hk] at hb
        exact hold key b hb
    · simpa [rendered] using htoasts

theorem inv_timer {s : St E} (key : Key) (h : Inv C G s) : Inv C G (step C G s (.timer key)) := by
  have hwf := flush_wf G key h.wf
  rcases flush_cases G s.inner key with ⟨_, he⟩ | ⟨bucket, hl, he⟩ <;> rw [he] at hwf <;> simp only [step, he]
  · simpa using h
  · refine ⟨hwf, fun k b hb => ?_, fun hdistinct toast ht => ?_⟩
    · by_cases hk : k = key
      · subst hk
        simp at hb
      · rw [AList.lookup_erase_ne hk] at hb
        exact h.order k b hb
    · rcases List.mem_append.1 ht with hpast | hnew
      · exact h.toasts hdistinct toast hpast
      · exact flush_toast (h.wf.buckets key bucket hl) (h.order key bucket hl) hdistinct (Option.mem_toList.1 hnew)

/-- a shutdown does to the buckets what their timers do -/
theorem step_shutdown (s : St E) (keys : List Key) :
    step C G s (.shutdown keys) = run (step C G) s (keys.map .timer) := by
  induction keys generalizing s with
  | nil => simp [step, flushKeys, sweep]
  | cons key keys ih =>
    rw [List.map_cons, run_cons, ← ih]
    simp [step, flushKeys, sweep]

theorem step_inv (s : St E) (o : Op E) (h : Inv C G s) : Inv C G (step C G s o) := by
  cases o with
  | add n => exact inv_add n h
  | timer key => exact inv_timer key h
  | shutdown keys =>
    rw [step_shutdown]
    induction keys generalizing s with
    | nil => exact h
    | cons key keys ih => exact ih _ (inv_timer key h)

theorem added_run (s : St E) (ops : List (Op E)) : (run (step C G) s ops).added = s.added ++ adds ops := by
  induction ops generalizing s with
  | nil => simp [adds]
  | cons o ops ih =>
    rw [run_cons, ih]
    cases o with
    | add n => simp [step, adds]
    | timer key => rfl
    | shutdown keys => rfl

/-! ## Result -/

/-- in a bucket in the order of arrival, an event other than the replaceable one is plain and arrived later -/
theorem plain_after {events added : List E} (hshape : ∀ e ∈ events.tail, (note e).replaceable = false)
    (horder : events.Sublist added) {r e : E} (hr : r ∈ events) (hreplaceable : (note r).replaceable = true)
    (he : e ∈ events) (hne : e ≠ r) : (note e).replaceable = false ∧ [r, e].Sublist added := by
  cases events with
  | nil => cases hr
  | cons first rest =>
    -- a replaceable event is not in the tail, so it is the first one
    rcases List.mem_cons.1 hr with hfirst | htail
    · subst hfirst
      have htail := (List.mem_cons.1 he).resolve_left hne
      exact ⟨hshape e htail, ((List.singleton_sublist.2 htail).cons_cons r).trans horder⟩
    · have hplain : (note r).replaceable = false := hshape r htail
      rw [hreplaceable] at hplain
      cases hplain

/-- the assertion of `from_batch` fails on an empty bucket only -/
theorem fromBatch_sorted_isSome {events : List E} (h : events ≠ []) :
    (fromBatch G (sortBySeq events)).isSome = true := by
  rw [fromBatch_isSome]
  intro hnil
  apply h
  have hperm := sortBySeq_perm events
  rw [hnil] at hperm
  exact hperm.nil_eq.symm

theorem sound_of_inv {s : St E} (h : Inv C G s) (hdistinct : (s.added.map seqOf).Nodup) : Sound C G s where
  bounded := h.wf.bounded
  nonempty key bucket hl := (h.wf.buckets key bucket hl).nonempty
  keyed key bucket hl := by
    have hwf := h.wf.buckets key bucket hl
    refine ⟨hwf.notCritical, fun e he => ?_⟩
    rw [← hwf.keyed e he]
    exact ⟨rfl, rfl⟩
  dropped n hn := by
    rcases add_cases C G s.inner n with ⟨_, he⟩ | ⟨_, _, _, he⟩ | ⟨_, hl, hfull, _⟩ | ⟨_, _, _, _, he⟩
    · rw [he] at hn
      cases hn
    · rw [he] at hn
      cases hn
    · exact ⟨hl, Nat.le_antisymm h.wf.bounded hfull⟩
    · rw [he] at hn
      cases hn
  replaceable key bucket _ hl hr hreplaceable _ he hne :=
    plain_after (h.wf.buckets key bucket hl).shape (h.order key bucket hl) hr hreplaceable he hne
  assertion key bucket hl := fromBatch_sorted_isSome (h.wf.buckets key bucket hl).nonempty
  toasts := h.toasts hdistinct

/-- **The buckets at any time.** -/
theorem reachable_sound (C : AggregatorConfig) (G : Segmentation) (ops : List (Op E))
    (hdistinct : ((adds ops).map seqOf).Nodup) : Sound C G (run (step C G) init ops) := by
  have hinv : Inv C G (run (step C G) init ops) := run_inv (step C G) step_inv (inv_init C G) ops
  apply sound_of_inv hinv
  rw [added_run]
  exact hdistinct

end

/-- a progress event and a plain one after it, flushed by a shutdown, and a third that opens the bucket again -/
def mixed : List (Op InboundNotification) :=
  [.add (progress 1 true), .add (progress 2 false), .shutdown [(['k'], .normal)], .add (progress 3 false)]

theorem mixed_sound : Sound config singletons (run (step config singletons) init mixed) :=
  reachable_sound config singletons mixed (by decide)

end NotifyAgent.BucketInvariant
