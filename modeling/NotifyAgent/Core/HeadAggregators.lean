/-
The aggregators of the other two heads: Go (`internal/aggregator`) and C# (`Aggregation/Aggregator`). Both append in
order of arrival and let a replaceable event clear its bucket; neither looks at a sequence number. Every call works on
the bucket map under one lock, so each is one function on it; the batch it hands to the renderer is returned.

- `Go.Aggregator.add_critical`, `add_joined`, `add_dropped`, `add_opened`, and the same of C#'s `addAsync`: everything
  an add can do;
- `Go.Aggregator.fire_cases`: everything a timer callback can do;
- `CSharp.Aggregator.flush_cases`: everything `Flush` can do.
-/
import Mathlib.Tactic
import Mathlib.Data.List.AList
import NotifyAgent.Core.Aggregator
import NotifyAgent.Core.HeadNotifications

/-! ## Go -/

namespace NotifyAgent.Go

open NotifyAgent.Text
open NotifyAgent.Notification (Priority Segmentation)

/-- `aggregator.Options`; windows in ticks of the clock -/
structure Options where
  maxBuckets : ℤ
  importantWindow : ℤ
  normalWindow : ℤ
deriving DecidableEq, Repr

/-- `bucketKey` -/
abbrev BucketKey := Str × Priority

/-- what `AfterFunc` returns: the callback fires `key` when `window` has passed -/
structure Timer where
  id : ℕ
  key : BucketKey
  window : ℤ
deriving DecidableEq, Repr

structure Bucket where
  events : List InboundNotification
  timer : Timer
deriving DecidableEq, Repr

/-- `Aggregator` without clock and renderer; `timers` counts the calls of `AfterFunc` so far -/
structure Aggregator where
  opts : Options
  buckets : AList (fun _ : BucketKey => Bucket)
  droppedBucketOverflow : ℕ
  timers : ℕ

/-- `New` -/
def Aggregator.new (opts : Options) : Aggregator where
  opts := {
    maxBuckets := if opts.maxBuckets ≤ 0 then 100 else opts.maxBuckets
    importantWindow := if opts.importantWindow ≤ 0 then 2 * 10 ^ 9 else opts.importantWindow
    normalWindow := if opts.normalWindow ≤ 0 then 10 * 10 ^ 9 else opts.normalWindow }
  buckets := ∅
  droppedBucketOverflow := 0
  timers := 0

def bucketKey (event : InboundNotification) : BucketKey :=
  (event.classification.aggregationKey, event.classification.priority)

/-- the end of `Add`: a replaceable event clears the bucket first -/
def appendEvent (events : List InboundNotification) (event : InboundNotification) : List InboundNotification :=
  (if event.classification.replaceable then [] else events) ++ [event]

/-- `Add`, with the batch it renders at once -/
def Aggregator.add (a : Aggregator) (event : InboundNotification) : Aggregator × Option (List InboundNotification) :=
  if event.classification.priority = .critical then (a, some [event])
  else
    let key := bucketKey event
    match a.buckets.lookup key with
    | some b => ({ a with buckets := a.buckets.insert key { b with events := appendEvent b.events event } }, none)
    | none =>
      if (a.buckets.keys.length : ℤ) ≥ a.opts.maxBuckets then
        ({ a with droppedBucketOverflow := a.droppedBucketOverflow + 1 }, none)
      else
        let window := if key.2 = .important then a.opts.importantWindow else a.opts.normalWindow
        ({ a with
          buckets := a.buckets.insert key ⟨appendEvent [] event, ⟨a.timers, key, window⟩⟩
          timers := a.timers + 1 }, none)

/-- what the renderer is given of a bucket that was taken out -/
def Bucket.batch (b : Bucket) : Option (List InboundNotification) := if b.events.length = 0 then none else some b.events

/-- `fire` -/
def Aggregator.fire (a : Aggregator) (key : BucketKey) : Aggregator × Option (List InboundNotification) :=
  match a.buckets.lookup key with
  | none => (a, none)
  | some b => ({ a with buckets := a.buckets.erase key }, b.batch)

/-- the locked part of `Flush`: the buckets to stop and render, by key -/
def Aggregator.swap (a : Aggregator) : Aggregator × AList (fun _ : BucketKey => Bucket) :=
  ({ a with buckets := ∅ }, a.buckets)

/-- `Flush`, ranging over the pending buckets in the given order of keys -/
def Aggregator.flush (a : Aggregator) (order : List BucketKey) : Aggregator × List (List InboundNotification) :=
  (a.swap.1, order.filterMap fun key => (a.swap.2.lookup key).bind Bucket.batch)

section
variable {a : Aggregator} {event : InboundNotification}

theorem Aggregator.add_critical (hc : event.classification.priority = .critical) : a.add event = (a, some [event]) :=
  if_pos hc

theorem Aggregator.add_joined (hc : event.classification.priority ≠ .critical) {b : Bucket}
    (hl : a.buckets.lookup (bucketKey event) = some b) :
    a.add event = ({ a with
      buckets := a.buckets.insert (bucketKey event) { b with events := appendEvent b.events event } }, none) := by
  unfold Aggregator.add
  simp only [hc, if_false, hl]

theorem Aggregator.add_dropped (hc : event.classification.priority ≠ .critical)
    (hl : a.buckets.lookup (bucketKey event) = none) (hm : (a.buckets.keys.length : ℤ) ≥ a.opts.maxBuckets) :
    a.add event = ({ a with droppedBucketOverflow := a.droppedBucketOverflow + 1 }, none) := by
  unfold Aggregator.add
  simp only [hc, if_false, hl, hm, if_true]

/-- the window of a priority -/
def Options.window (opts : Options) (priority : Priority) : ℤ :=
  if priority = .important then opts.importantWindow else opts.normalWindow

theorem Aggregator.add_opened (hc : event.classification.priority ≠ .critical)
    (hl : a.buckets.lookup (bucketKey event) = none) (hm : ¬ (a.buckets.keys.length : ℤ) ≥ a.opts.maxBuckets) :
    a.add event = ({ a with
      buckets := a.buckets.insert (bucketKey event)
        ⟨[event], ⟨a.timers, bucketKey event, a.opts.window event.classification.priority⟩⟩
      timers := a.timers + 1 }, none) := by
  unfold Aggregator.add
  simp only [hc, if_false, hl, hm, appendEvent, ite_self, List.nil_append]
  rfl

theorem Aggregator.add_cases (a : Aggregator) (event : InboundNotification) :
    (event.classification.priority = .critical ∧ a.add event = (a, some [event])) ∨
    (event.classification.priority ≠ .critical ∧ ∃ b, a.buckets.lookup (bucketKey event) = some b ∧
      a.add event = ({ a with
        buckets := a.buckets.insert (bucketKey event) { b with events := appendEvent b.events event } }, none)) ∨
    (event.classification.priority ≠ .critical ∧ a.buckets.lookup (bucketKey event) = none ∧
      a.add event = ({ a with droppedBucketOverflow := a.droppedBucketOverflow + 1 }, none)) ∨
    (event.classification.priority ≠ .critical ∧ a.buckets.lookup (bucketKey event) = none ∧
      a.add event = ({ a with
        buckets := a.buckets.insert (bucketKey event)
          ⟨[event], ⟨a.timers, bucketKey event, a.opts.window event.classification.priority⟩⟩
        timers := a.timers + 1 }, none)) := by
  by_cases hc : event.classification.priority = .critical
  · exact Or.inl ⟨hc, add_critical hc⟩
  · cases hl : a.buckets.lookup (bucketKey event) with
    | some b => exact Or.inr (Or.inl ⟨hc, b, rfl, add_joined hc hl⟩)
    | none =>
      by_cases hm : (a.buckets.keys.length : ℤ) ≥ a.opts.maxBuckets
      · exact Or.inr (Or.inr (Or.inl ⟨hc, rfl, add_dropped hc hl hm⟩))
      · exact Or.inr (Or.inr (Or.inr ⟨hc, rfl, add_opened hc hl hm⟩))

end

theorem Aggregator.fire_cases (a : Aggregator) (key : BucketKey) :
    (a.buckets.lookup key = none ∧ a.fire key = (a, none)) ∨
    (∃ b, a.buckets.lookup key = some b ∧ a.fire key = ({ a with buckets := a.buckets.erase key }, b.batch)) := by
  unfold Aggregator.fire
  cases hl : a.buckets.lookup key with
  | none => exact Or.inl ⟨rfl, rfl⟩
  | some b => exact Or.inr ⟨b, rfl, rfl⟩

end NotifyAgent.Go

/-! ## C# -/

namespace NotifyAgent.CSharp

open NotifyAgent.Text
open NotifyAgent.Lib.FiniteMap (lookup_gone)
open NotifyAgent.Lib.Loop (sweep)
open NotifyAgent.Notification (Priority Segmentation)

/-- `AggregatorOptions` -/
structure AggregatorOptions where
  maxBuckets : ℤ
  importantWindow : ℤ
  normalWindow : ℤ
deriving DecidableEq, Repr

abbrev BucketKey := Str × Priority

/-- what `CreateTimer` is given -/
structure Timer where
  key : BucketKey
  window : ℤ
deriving DecidableEq, Repr

structure Bucket where
  events : List InboundNotification
  timer : Timer
deriving DecidableEq, Repr

/-- `Aggregator` without clock and renderer -/
structure Aggregator where
  options : AggregatorOptions
  buckets : AList (fun _ : BucketKey => Bucket)
  droppedBucketOverflow : ℕ

def Aggregator.new (options : AggregatorOptions) : Aggregator := ⟨options, ∅, 0⟩

def bucketKey (n : InboundNotification) : BucketKey := (n.aggregationKey, n.priority)

/-- the end of the locked part of `AddAsync` -/
def addEvent (events : List InboundNotification) (n : InboundNotification) : List InboundNotification :=
  (if n.replaceable then [] else events) ++ [n]

/-- `AddAsync`, with the toast it renders at once -/
def Aggregator.addAsync (G : Segmentation) (a : Aggregator) (n : InboundNotification) :
    Aggregator × Option ToastRequest :=
  if n.priority = .critical then (a, some (fromSingle G n))
  else
    let key := bucketKey n
    match a.buckets.lookup key with
    | some bucket =>
      ({ a with buckets := a.buckets.insert key { bucket with events := addEvent bucket.events n } }, none)
    | none =>
      if (a.buckets.keys.length : ℤ) ≥ a.options.maxBuckets then
        ({ a with droppedBucketOverflow := a.droppedBucketOverflow + 1 }, none)
      else
        let window := if n.priority = .important then a.options.importantWindow else a.options.normalWindow
        ({ a with buckets := a.buckets.insert key ⟨addEvent [] n, ⟨key, window⟩⟩ }, none)

/-- the toast of a bucket that was taken out -/
def Bucket.toast (G : Segmentation) (bucket : Bucket) : Option ToastRequest :=
  if bucket.events.length > 0 then fromBatch G bucket.events else none

/-- `Flush` -/
def Aggregator.flush (G : Segmentation) (a : Aggregator) (key : BucketKey) : Aggregator × Option ToastRequest :=
  match a.buckets.lookup key with
  | none => (a, none)
  | some bucket => ({ a with buckets := a.buckets.erase key }, bucket.toast G)

/-- `DisposeAsync`: a flush of each key that it found -/
def Aggregator.disposeAsync (G : Segmentation) (a : Aggregator) (keys : List BucketKey) :
    Aggregator × List ToastRequest :=
  sweep (Aggregator.flush G) a keys

section
variable {G : Segmentation} {a : Aggregator} {n : InboundNotification}

theorem Aggregator.addAsync_critical (hc : n.priority = .critical) : a.addAsync G n = (a, some (fromSingle G n)) :=
  if_pos hc

theorem Aggregator.addAsync_joined (hc : n.priority ≠ .critical) {bucket : Bucket}
    (hl : a.buckets.lookup (bucketKey n) = some bucket) :
    a.addAsync G n = ({ a with
      buckets := a.buckets.insert (bucketKey n) { bucket with events := addEvent bucket.events n } }, none) := by
  unfold Aggregator.addAsync
  simp only [hc, if_false, hl]

theorem Aggregator.addAsync_dropped (hc : n.priority ≠ .critical) (hl : a.buckets.lookup (bucketKey n) = none)
    (hm : (a.buckets.keys.length : ℤ) ≥ a.options.maxBuckets) :
    a.addAsync G n = ({ a with droppedBucketOverflow := a.droppedBucketOverflow + 1 }, none) := by
  unfold Aggregator.addAsync
  simp only [hc, if_false, hl, hm, if_true]

theorem Aggregator.addAsync_opened (hc : n.priority ≠ .critical) (hl : a.buckets.lookup (bucketKey n) = none)
    (hm : ¬ (a.buckets.keys.length : ℤ) ≥ a.options.maxBuckets) :
    ∃ timer, a.addAsync G n = ({ a with buckets := a.buckets.insert (bucketKey n) ⟨[n], timer⟩ }, none) := by
  refine ⟨⟨bucketKey n, if n.priority = .important then a.options.importantWindow else a.options.normalWindow⟩, ?_⟩
  unfold Aggregator.addAsync
  simp only [hc, if_false, hl, hm, addEvent, ite_self, List.nil_append]

end

theorem Aggregator.flush_cases (G : Segmentation) (a : Aggregator) (key : BucketKey) :
    (a.buckets.lookup key = none ∧ a.flush G key = (a, none)) ∨
    (∃ bucket, a.buckets.lookup key = some bucket ∧
      a.flush G key = ({ a with buckets := a.buckets.erase key }, bucket.toast G)) := by
  unfold Aggregator.flush
  cases hl : a.buckets.lookup key with
  | none => exact Or.inl ⟨rfl, rfl⟩
  | some bucket => exact Or.inr ⟨bucket, rfl, rfl⟩

theorem Aggregator.flush_lookup (G : Segmentation) (a : Aggregator) (key k : BucketKey) :
    (a.flush G key).1.buckets.lookup k = if k = key then none else a.buckets.lookup k := by
  apply lookup_gone
  rcases a.flush_cases G key with ⟨hl, h⟩ | ⟨bucket, _, h⟩ <;> rw [h]
  · exact Or.inl ⟨hl, rfl⟩
  · exact Or.inr rfl

end NotifyAgent.CSharp
