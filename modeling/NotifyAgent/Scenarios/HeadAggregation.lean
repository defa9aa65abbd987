/-
The three aggregators on input that arrives in order. Rust orders by sequence number; Go and C# have none and take the
order of arrival. The difference cannot be seen as long as events arrive in the order of their numbers.

- `add_sim`, `expire_sim`: one step keeps the three in step (`Sim`);
- `run_sim`: so does a run whose events come in order;
- `in_order_agree`: hence, at every point of such a run, the three have the same buckets and the same drop count and
  have produced the same toasts in the same order, and a final flush of all buckets produces the same set of toasts.

Premises: the text libraries of the three divide a text into the same grapheme clusters (one `Segmentation`), and a
window passes for all three at the same place of the run.
-/
import Mathlib.Tactic
import NotifyAgent.Lib.FiniteMap
import NotifyAgent.Lib.Machine
import NotifyAgent.Core.HeadAggregators

namespace NotifyAgent.HeadAggregation

open NotifyAgent.Text NotifyAgent.Notification
open NotifyAgent.Aggregator (AggregatorConfig Inner Key keyOf applyToBucket sortBySeq buildToast add flush flushKeys)
open NotifyAgent.Lib.FiniteMap
open NotifyAgent.Lib.Machine

/-! ## One event, three records -/

/-- an event as the heads receive it; the notification type is kept by Go alone -/
structure Event where
  note : InboundNotification
  notificationType : Str
deriving DecidableEq, Repr

instance : Carries Event := ⟨Event.note⟩

/-- the record of Go: an absent text is empty, the action is one optional part -/
def Event.toGo (e : Event) : Go.InboundNotification where
  eventID := e.note.eventId
  notificationType := e.notificationType
  userID := e.note.userId
  title := e.note.title
  message := e.note.message
  secondaryText := e.note.secondaryText.getD []
  image := e.note.image.map fun i => ⟨i.url, i.shape⟩
  action := if e.note.actionLabel = none ∧ e.note.actionUrl = none then none
    else some ⟨e.note.actionLabel.getD [], e.note.actionUrl.getD []⟩
  classification := ⟨e.note.priority, e.note.aggregationKey, e.note.deduplicationKey, e.note.replaceable⟩
  producerCreatedAt := e.note.producerCreatedAt.getD Go.zeroTime
  serverPublishedAt := e.note.serverPublishedAt.getD Go.zeroTime
  agentReceivedAt := e.note.receivedAt

/-- the record of C# -/
def Event.toCSharp (e : Event) : CSharp.InboundNotification where
  eventId := e.note.eventId
  userId := e.note.userId
  title := e.note.title
  message := e.note.message
  secondaryText := e.note.secondaryText
  imageUrl := e.note.image.map ImageRef.url
  actionLabel := e.note.actionLabel
  actionUrl := e.note.actionUrl
  priority := e.note.priority
  aggregationKey := e.note.aggregationKey
  deduplicationKey := e.note.deduplicationKey
  replaceable := e.note.replaceable
  producerCreatedAt := e.note.producerCreatedAt
  serverPublishedAt := e.note.serverPublishedAt
  receivedAt := e.note.receivedAt

def goToast (t : ToastRequest Event) : Go.ToastRequest where
  title := t.title
  message := t.message
  attribution := t.attribution.getD []
  image := t.image.map fun i => ⟨i.url, i.shape⟩
  actionLabel := t.actionLabel.getD []
  actionURL := t.actionUrl.getD []
  sources := t.sources.map Event.toGo

def csharpToast (t : ToastRequest Event) : CSharp.ToastRequest where
  title := t.title
  message := t.message
  attribution := t.attribution
  imageUrl := t.image.map ImageRef.url
  actionLabel := t.actionLabel
  actionUrl := t.actionUrl
  sources := t.sources.map Event.toCSharp

/-! ## Three machines in step -/

/-- the options of all heads -/
structure Options where
  maxBuckets : ℕ
  importantWindow : ℕ
  normalWindow : ℕ
  maxBuckets_pos : 0 < maxBuckets
  importantWindow_pos : 0 < importantWindow
  normalWindow_pos : 0 < normalWindow

/-- the limit on draining plays no part -/
def Options.rust (O : Options) : AggregatorConfig := ⟨O.maxBuckets, O.importantWindow, O.normalWindow, 0⟩

structure St where
  rust : Inner Event
  rustOut : List (ToastRequest Event)
  go : Go.Aggregator
  goOut : List Go.ToastRequest
  csharp : CSharp.Aggregator
  csharpOut : List CSharp.ToastRequest

inductive Op where
  | add (e : Event)
  /-- the window of a key has passed -/
  | expire (key : Key)

/-- the events of a run, in order of arrival -/
def Op.added : Op → Option Event
  | .add e => some e
  | .expire _ => none

variable (O : Options) (G : Segmentation)

def init : St where
  rust := .new
  rustOut := []
  go := .new ⟨O.maxBuckets, O.importantWindow, O.normalWindow⟩
  goOut := []
  csharp := .new ⟨O.maxBuckets, O.importantWindow, O.normalWindow⟩
  csharpOut := []

/-- the toast of a critical event, if it was one -/
def spawned : Aggregator.Added Event → List (ToastRequest Event)
  | .rendered toast => [toast]
  | _ => []

/-- what Go's host makes of the batch it is given -/
def goRender (batch : Option (List Go.InboundNotification)) : Option Go.ToastRequest := batch.bind (Go.fromBatch G)

def step (s : St) : Op → St
  | .add e =>
    { rust := (add O.rust G s.rust e).1
      rustOut := s.rustOut ++ spawned (add O.rust G s.rust e).2
      go := (s.go.add e.toGo).1
      goOut := s.goOut ++ (goRender G (s.go.add e.toGo).2).toList
      csharp := (s.csharp.addAsync G e.toCSharp).1
      csharpOut := s.csharpOut ++ (s.csharp.addAsync G e.toCSharp).2.toList }
  | .expire key =>
    { rust := (flush G s.rust key).1
      rustOut := s.rustOut ++ (flush G s.rust key).2.toList
      go := (s.go.fire key).1
      goOut := s.goOut ++ (goRender G (s.go.fire key).2).toList
      csharp := (s.csharp.flush G key).1
      csharpOut := s.csharpOut ++ (s.csharp.flush G key).2.toList }

/-! ## Toasts of one batch -/

/-- in order of sequence numbers the newest event is the last -/
theorem maxBySeq_sorted {l : List Event} (h : (l.map seqOf).Pairwise (· < ·)) : maxBySeq l = l.getLast? := by
  induction l with
  | nil => rfl
  | cons e l ih =>
    rw [List.map_cons, List.pairwise_cons] at h
    unfold maxBySeq
    rw [ih h.2, List.getLast?_cons]
    cases hl : l.getLast? with
    | none => rfl
    | some m =>
      have hm : seqOf e < seqOf m := h.1 _ (List.mem_map_of_mem (List.mem_of_getLast? hl))
      simp only [Option.getD_some]
      exact if_pos hm.le

theorem actionFields_toGo (e : Event) :
    Go.actionFields e.toGo = (e.note.actionLabel.getD [], e.note.actionUrl.getD []) := by
  unfold Go.actionFields Event.toGo
  cases e.note.actionLabel <;> cases e.note.actionUrl <;> rfl

theorem goSingle (e : Event) : goToast (fromSingle G e) = Go.fromSingle G e.toGo := by
  unfold Go.fromSingle
  rw [actionFields_toGo, Go.truncate_eq G _ (by decide), Go.truncate_eq G _ (by decide)]
  rfl

theorem goBatch {l : List Event} (h : (l.map seqOf).Pairwise (· < ·)) :
    (fromBatch G l).map goToast = Go.fromBatch G (l.map Event.toGo) := by
  match l with
  | [] => rfl
  | [e] => exact congrArg some (goSingle G e)
  | a :: b :: l =>
    unfold fromBatch Go.fromBatch
    simp only [List.map_cons, maxBySeq_sorted h]
    rw [← List.map_cons, ← List.map_cons, List.getLast?_map, Option.map_map, Option.map_map]
    congr 1
    funext e
    simp only [Function.comp, actionFields_toGo, Go.truncate_eq G _ (show Go.maxTitleGraphemes ≠ 0 by decide),
      Go.truncate_eq G _ (show Go.maxMessageGraphemes ≠ 0 by decide), List.length_map, List.length_cons]
    rfl

theorem csharpBatch {l : List Event} (h : (l.map seqOf).Pairwise (· < ·)) :
    (fromBatch G l).map csharpToast = CSharp.fromBatch G (l.map Event.toCSharp) := by
  match l with
  | [] => rfl
  | [e] => rfl
  | a :: b :: l =>
    unfold fromBatch CSharp.fromBatch
    simp only [List.map_cons, maxBySeq_sorted h]
    rw [← List.map_cons, ← List.map_cons, List.getLast?_map, Option.map_map, Option.map_map]
    congr 1
    funext e
    simp only [Function.comp, List.length_map, List.length_cons]
    rfl

/-! ## The simulation -/

/-- a bucket of another head holds the same events -/
def GoHolds (b : Go.Bucket) (r : Aggregator.Bucket Event) : Prop := b.events = r.events.map Event.toGo

def CSharpHolds (b : CSharp.Bucket) (r : Aggregator.Bucket Event) : Prop := b.events = r.events.map Event.toCSharp

/-- a bucket filled in order, with events below `bound` -/
structure InOrder (bound : ℕ) (r : Aggregator.Bucket Event) : Prop where
  nonempty : r.events ≠ []
  sorted : (r.events.map seqOf).Pairwise (· < ·)
  below : ∀ e ∈ r.events, seqOf e < bound

/-- the three machines are in step, and what is in the buckets came before `bound` -/
structure Sim (bound : ℕ) (s : St) : Prop where
  goOpts : s.go.opts.maxBuckets = O.maxBuckets
  csharpOptions : s.csharp.options.maxBuckets = O.maxBuckets
  goBuckets : Matched GoHolds s.go.buckets s.rust.buckets
  csharpBuckets : Matched CSharpHolds s.csharp.buckets s.rust.buckets
  goDropped : s.go.droppedBucketOverflow = s.rust.droppedBucketOverflow
  csharpDropped : s.csharp.droppedBucketOverflow = s.rust.droppedBucketOverflow
  goOut : s.goOut = s.rustOut.map goToast
  csharpOut : s.csharpOut = s.rustOut.map csharpToast
  inOrder : ∀ key r, s.rust.buckets.lookup key = some r → InOrder bound r

theorem sim_init : Sim O 0 (init O) := by
  refine ⟨?_, rfl, matched_empty, matched_empty, rfl, rfl, rfl, rfl, ?_⟩
  · have hpos : ¬ (O.maxBuckets : ℤ) ≤ 0 := by have := O.maxBuckets_pos; omega
    exact if_neg hpos
  · intro key r hr
    simp [init, Inner.new] at hr

theorem InOrder.mono {bound bound' : ℕ} {r : Aggregator.Bucket Event} (h : InOrder bound r) (hle : bound ≤ bound') :
    InOrder bound' r :=
  ⟨h.nonempty, h.sorted, fun e he => Nat.lt_of_lt_of_le (h.below e he) hle⟩

/-- a fresh event is not stale: it is appended, or clears the bucket -/
theorem applyToBucket_fresh {bound : ℕ} {r : Aggregator.Bucket Event} (h : InOrder bound r) {e : Event}
    (he : bound ≤ seqOf e) :
    applyToBucket r.events e = (if e.note.replaceable then [] else r.events) ++ [e] := by
  have hnewest : (r.events.map seqOf).max?.getD 0 ≤ seqOf e :=
    Aggregator.newest_le_iff.2 fun x hx => (h.below x hx).le.trans he
  have hnote : note e = e.note := rfl
  unfold applyToBucket
  simp only [hnote, hnewest, if_true]
  split_ifs <;> rfl

theorem inOrder_append {bound : ℕ} {l : List Event} (hs : (l.map seqOf).Pairwise (· < ·))
    (hb : ∀ x ∈ l, seqOf x < bound) {e : Event} (he : bound ≤ seqOf e) (timer : Aggregator.Timer) :
    InOrder (seqOf e + 1) ⟨l ++ [e], timer⟩ := by
  refine ⟨by simp, ?_, ?_⟩
  · simp only [List.map_append, List.map_cons, List.map_nil, List.pairwise_append, List.mem_map, List.mem_singleton]
    refine ⟨hs, List.pairwise_singleton _ _, ?_⟩
    rintro a ⟨x, hx, rfl⟩ b rfl
    have := hb x hx
    omega
  · intro x hx
    rcases List.mem_append.1 hx with hx | hx
    · have := hb x hx
      omega
    · rw [List.mem_singleton.1 hx]
      omega

theorem inOrder_apply {bound : ℕ} {r : Aggregator.Bucket Event} (h : InOrder bound r) {e : Event}
    (he : bound ≤ seqOf e) : InOrder (seqOf e + 1) { r with events := applyToBucket r.events e } := by
  rw [applyToBucket_fresh h he]
  split_ifs
  · exact inOrder_append (l := []) List.Pairwise.nil (by simp) he r.timer
  · exact inOrder_append h.sorted h.below he r.timer

theorem goHolds_append {bound : ℕ} {r : Aggregator.Bucket Event} (h : InOrder bound r) {e : Event}
    (he : bound ≤ seqOf e) {b : Go.Bucket} (hb : GoHolds b r) :
    GoHolds { b with events := Go.appendEvent b.events e.toGo } { r with events := applyToBucket r.events e } := by
  have hrep : e.toGo.classification.replaceable = e.note.replaceable := rfl
  unfold GoHolds at hb ⊢
  simp only [applyToBucket_fresh h he, Go.appendEvent, hrep, hb, List.map_append, List.map_cons, List.map_nil]
  split_ifs <;> rfl

theorem csharpHolds_add {bound : ℕ} {r : Aggregator.Bucket Event} (h : InOrder bound r) {e : Event}
    (he : bound ≤ seqOf e) {b : CSharp.Bucket} (hb : CSharpHolds b r) :
    CSharpHolds { b with events := CSharp.addEvent b.events e.toCSharp }
      { r with events := applyToBucket r.events e } := by
  have hrep : e.toCSharp.replaceable = e.note.replaceable := rfl
  unfold CSharpHolds at hb ⊢
  simp only [applyToBucket_fresh h he, CSharp.addEvent, hrep, hb, List.map_append, List.map_cons, List.map_nil]
  split_ifs <;> rfl

variable {O}

/-- **One add** of an event that comes in order keeps the machines in step. -/
theorem add_sim {bound : ℕ} {s : St} (h : Sim O bound s) {e : Event} (he : bound ≤ seqOf e) :
    Sim O (seqOf e + 1) (step O G s (.add e)) := by
  have hlift : ∀ key r, s.rust.buckets.lookup key = some r → InOrder (seqOf e + 1) r :=
    fun key r hr => (h.inOrder key r hr).mono (by omega)
  have hgoKeys : s.go.buckets.keys.length = s.rust.buckets.keys.length := by rw [h.goBuckets.keys]
  have hcsKeys : s.csharp.buckets.keys.length = s.rust.buckets.keys.length := by rw [h.csharpBuckets.keys]
  have hmax := h.goOpts
  have hmax' := h.csharpOptions
  have hlimit : O.rust.maxBuckets = O.maxBuckets := rfl
  -- a bucket of the key under the new bound, the others as they were
  have hput : ∀ r', InOrder (seqOf e + 1) r' → ∀ key r, (s.rust.buckets.insert (keyOf e) r').lookup key = some r →
      InOrder (seqOf e + 1) r := by
    intro r' hr' key r hr
    by_cases hk : key = keyOf e
    · subst hk
      rw [AList.lookup_insert, Option.some.injEq] at hr
      exact hr ▸ hr'
    · rw [AList.lookup_insert_ne hk] at hr
      exact hlift key r hr
  rcases Aggregator.add_cases O.rust G s.rust e with ⟨hc, hr⟩ | ⟨hc, r, hl, hr⟩ | ⟨hc, hl, hm, hr⟩ |
    ⟨hc, hl, hm, window, hr⟩
  · -- critical: rendered at once by all three
    have hg := @Go.Aggregator.add_critical s.go e.toGo hc
    have hcs := CSharp.Aggregator.addAsync_critical (G := G) (a := s.csharp) (n := e.toCSharp) hc
    simp only [step, hr, hg, hcs]
    refine ⟨h.goOpts, h.csharpOptions, h.goBuckets, h.csharpBuckets, h.goDropped, h.csharpDropped, ?_, ?_, hlift⟩
    · simp only [h.goOut, spawned, goRender, List.map_append, List.map_cons, List.map_nil, goSingle]
      rfl
    · simp only [h.csharpOut, spawned, List.map_append, List.map_cons, List.map_nil]
      rfl
  · obtain ⟨b, hb, hgo⟩ := h.goBuckets.lookup_some hl
    obtain ⟨b', hb', hcsharp⟩ := h.csharpBuckets.lookup_some hl
    have hg := @Go.Aggregator.add_joined s.go e.toGo hc b hb
    have hcs := CSharp.Aggregator.addAsync_joined (G := G) (a := s.csharp) (n := e.toCSharp) hc hb'
    have hord := h.inOrder _ r hl
    simp only [step, hr, hg, hcs, spawned, goRender, Option.bind_none, Option.toList_none, List.append_nil]
    exact ⟨hmax, hmax', h.goBuckets.insert (goHolds_append hord he hgo),
      h.csharpBuckets.insert (csharpHolds_add hord he hcsharp), h.goDropped, h.csharpDropped, h.goOut, h.csharpOut,
      hput _ (inOrder_apply hord he)⟩
  · have hg := @Go.Aggregator.add_dropped s.go e.toGo hc (h.goBuckets.lookup_none hl) (by omega)
    have hcs := CSharp.Aggregator.addAsync_dropped (G := G) (a := s.csharp) (n := e.toCSharp) hc
      (h.csharpBuckets.lookup_none hl) (by omega)
    simp only [step, hr, hg, hcs, spawned, goRender, Option.bind_none, Option.toList_none, List.append_nil]
    exact ⟨hmax, hmax', h.goBuckets, h.csharpBuckets, congrArg (· + 1) h.goDropped, congrArg (· + 1) h.csharpDropped,
      h.goOut, h.csharpOut, hlift⟩
  · have hg := @Go.Aggregator.add_opened s.go e.toGo hc (h.goBuckets.lookup_none hl) (by omega)
    obtain ⟨timer, hcs⟩ := CSharp.Aggregator.addAsync_opened (G := G) (a := s.csharp) (n := e.toCSharp) hc
      (h.csharpBuckets.lookup_none hl) (by omega)
    simp only [step, hr, hg, hcs, spawned, goRender, Option.bind_none, Option.toList_none, List.append_nil]
    exact ⟨hmax, hmax', h.goBuckets.insert rfl, h.csharpBuckets.insert rfl, h.goDropped, h.csharpDropped,
      h.goOut, h.csharpOut, hput _ (inOrder_append (l := []) List.Pairwise.nil (by simp) he _)⟩

/-- in order, the sort of a flush does nothing -/
theorem sortBySeq_inOrder {l : List Event} (h : (l.map seqOf).Pairwise (· < ·)) : sortBySeq l = l := by
  rw [List.pairwise_map] at h
  have hle : l.Pairwise fun a b => seqOf a ≤ seqOf b := h.imp fun hab => hab.le
  exact List.Pairwise.insertionSort_eq hle

theorem goToast_bucket {bound : ℕ} {r : Aggregator.Bucket Event} (h : InOrder bound r) {b : Go.Bucket}
    (hb : GoHolds b r) : goRender G b.batch = (buildToast G r).map goToast := by
  have hne : b.events.length ≠ 0 := by
    rw [hb, List.length_map]
    exact fun h0 => h.nonempty (List.length_eq_zero_iff.1 h0)
  have hempty : r.events.isEmpty = false := by simpa using h.nonempty
  unfold goRender Go.Bucket.batch buildToast
  rw [if_neg hne, hempty, sortBySeq_inOrder h.sorted]
  simp only [Option.bind_some, Bool.false_eq_true, if_false]
  rw [goBatch G h.sorted, hb]

theorem csharpToast_bucket {bound : ℕ} {r : Aggregator.Bucket Event} (h : InOrder bound r) {b : CSharp.Bucket}
    (hb : CSharpHolds b r) : b.toast G = (buildToast G r).map csharpToast := by
  have hpos : b.events.length > 0 := by
    rw [hb, List.length_map]
    exact List.length_pos_iff.2 h.nonempty
  have hempty : r.events.isEmpty = false := by simpa using h.nonempty
  unfold CSharp.Bucket.toast buildToast
  rw [if_pos hpos, hempty, sortBySeq_inOrder h.sorted]
  simp only [Bool.false_eq_true, if_false]
  rw [csharpBatch G h.sorted, hb]

/-- **One expiration** keeps the machines in step. -/
theorem expire_sim {bound : ℕ} {s : St} (h : Sim O bound s) (key : Key) :
    Sim O bound (step O G s (.expire key)) := by
  rcases Aggregator.flush_cases G s.rust key with ⟨hl, hr⟩ | ⟨r, hl, hr⟩
  · have hg : s.go.fire key = (s.go, none) := by
      unfold Go.Aggregator.fire
      rw [h.goBuckets.lookup_none hl]
    have hcs : s.csharp.flush G key = (s.csharp, none) := by
      unfold CSharp.Aggregator.flush
      rw [h.csharpBuckets.lookup_none hl]
    simp only [step, hr, hg, hcs, goRender, Option.bind_none, Option.toList_none, List.append_nil]
    exact h
  · obtain ⟨b, hb, hgo⟩ := h.goBuckets.lookup_some hl
    obtain ⟨b', hb', hcsharp⟩ := h.csharpBuckets.lookup_some hl
    have hord := h.inOrder key r hl
    have hg : s.go.fire key = ({ s.go with buckets := s.go.buckets.erase key }, b.batch) := by
      unfold Go.Aggregator.fire
      rw [hb]
    have hcs : s.csharp.flush G key = ({ s.csharp with buckets := s.csharp.buckets.erase key }, b'.toast G) := by
      unfold CSharp.Aggregator.flush
      rw [hb']
    simp only [step, hr, hg, hcs, goToast_bucket G hord hgo, csharpToast_bucket G hord hcsharp]
    refine ⟨h.goOpts, h.csharpOptions, h.goBuckets.erase, h.csharpBuckets.erase, h.goDropped, h.csharpDropped,
      ?_, ?_, ?_⟩
    · rw [h.goOut, List.map_append]
      cases buildToast G r <;> rfl
    · rw [h.csharpOut, List.map_append]
      cases buildToast G r <;> rfl
    · intro k r' hr'
      by_cases hk : k = key
      · subst hk
        rw [AList.lookup_erase] at hr'
        cases hr'
      · rw [AList.lookup_erase_ne hk] at hr'
        exact h.inOrder k r' hr'

/-- **A run in order** keeps the machines in step. -/
theorem run_sim {bound : ℕ} {s : St} (h : Sim O bound s) (ops : List Op)
    (hseq : (ops.filterMap Op.added).Pairwise fun a b => seqOf a < seqOf b)
    (hbound : ∀ e ∈ ops.filterMap Op.added, bound ≤ seqOf e) : ∃ bound', Sim O bound' (run (step O G) s ops) := by
  induction ops generalizing bound s with
  | nil => exact ⟨bound, h⟩
  | cons o ops ih =>
    rw [run_cons]
    cases o with
    | add e =>
      rw [List.filterMap_cons_some (by rfl : Op.added (.add e) = some e), List.pairwise_cons] at hseq
      rw [List.filterMap_cons_some (by rfl : Op.added (.add e) = some e)] at hbound
      exact ih (add_sim G h (hbound e List.mem_cons_self)) hseq.2 fun x hx => hseq.1 x hx
    | expire key =>
      rw [List.filterMap_cons_none (by rfl : Op.added (.expire key) = none)] at hseq hbound
      exact ih (expire_sim G h key) hseq hbound

/-! ## The final flush -/

variable (O)

/-- the machines show the same: open keys, drop counts, toasts in order -/
structure Agree (s : St) : Prop where
  goOpen : ∀ key, (s.go.buckets.lookup key).isSome ↔ (s.rust.buckets.lookup key).isSome
  csharpOpen : ∀ key, (s.csharp.buckets.lookup key).isSome ↔ (s.rust.buckets.lookup key).isSome
  goDropped : s.go.droppedBucketOverflow = s.rust.droppedBucketOverflow
  csharpDropped : s.csharp.droppedBucketOverflow = s.rust.droppedBucketOverflow
  goOut : s.goOut = s.rustOut.map goToast
  csharpOut : s.csharpOut = s.rustOut.map csharpToast

/-- flushing all buckets, each head in its own order of keys, gives the same toasts up to order, and leaves no bucket -/
structure FlushAgree (s : St) (rustOrder goOrder csharpOrder : List Key) : Prop where
  goToasts : ((s.go.flush goOrder).2.filterMap (Go.fromBatch G)).Perm
    ((flushKeys G s.rust rustOrder).2.map goToast)
  csharpToasts : (s.csharp.disposeAsync G csharpOrder).2.Perm ((flushKeys G s.rust rustOrder).2.map csharpToast)
  rustClosed : ∀ key, (flushKeys G s.rust rustOrder).1.buckets.lookup key = none
  goClosed : ∀ key, (s.go.flush goOrder).1.buckets.lookup key = none
  csharpClosed : ∀ key, (s.csharp.disposeAsync G csharpOrder).1.buckets.lookup key = none
  goDropped : (s.go.flush goOrder).1.droppedBucketOverflow =
    (flushKeys G s.rust rustOrder).1.droppedBucketOverflow
  csharpDropped : (s.csharp.disposeAsync G csharpOrder).1.droppedBucketOverflow =
    (flushKeys G s.rust rustOrder).1.droppedBucketOverflow

theorem flush_dropped (s : Inner Event) (key : Key) :
    (flush G s key).1.droppedBucketOverflow = s.droppedBucketOverflow := by
  rcases Aggregator.flush_cases G s key with ⟨-, hr⟩ | ⟨r, -, hr⟩ <;> rw [hr]

theorem csharp_flush_dropped (a : CSharp.Aggregator) (key : Key) :
    (a.flush G key).1.droppedBucketOverflow = a.droppedBucketOverflow := by
  unfold CSharp.Aggregator.flush
  cases a.buckets.lookup key <;> rfl

/-- the toasts of Rust's final flush, key by key -/
theorem flushKeys_toasts (s : Inner Event) {keys : List Key} (hnd : keys.Nodup) :
    (flushKeys G s keys).2 = keys.filterMap fun key => (s.buckets.lookup key).bind (buildToast G) := by
  have hout : ∀ (r : Inner Event) key, (flush G r key).2 = (r.buckets.lookup key).bind (buildToast G) := by
    intro r key
    unfold flush
    cases r.buckets.lookup key <;> rfl
  apply Lib.Loop.sweep_out hout _ hnd
  intro r key k hk
  rw [Aggregator.flush_lookup, if_neg hk]

theorem disposeAsync_toasts (a : CSharp.Aggregator) {keys : List Key} (hnd : keys.Nodup) :
    (a.disposeAsync G keys).2 = keys.filterMap fun key => (a.buckets.lookup key).bind (CSharp.Bucket.toast G) := by
  have hout : ∀ (c : CSharp.Aggregator) key,
      (c.flush G key).2 = (c.buckets.lookup key).bind (CSharp.Bucket.toast G) := by
    intro c key
    unfold CSharp.Aggregator.flush
    cases c.buckets.lookup key <;> rfl
  apply Lib.Loop.sweep_out hout _ hnd
  intro c key k hk
  rw [CSharp.Aggregator.flush_lookup, if_neg hk]

theorem mem_keys_of_lookup {β : Key → Type} {m : AList β} {key : Key} (h : m.lookup key ≠ none) : key ∈ m.keys :=
  AList.lookup_isSome.1 (Option.isSome_iff_ne_none.2 h)

theorem sim_flushAgree {bound : ℕ} {s : St} (h : Sim O bound s) {rustOrder goOrder csharpOrder : List Key}
    (hrust : rustOrder.Perm s.rust.buckets.keys) (hgo : goOrder.Perm s.go.buckets.keys)
    (hcsharp : csharpOrder.Perm s.csharp.buckets.keys) : FlushAgree G s rustOrder goOrder csharpOrder := by
  have hnd : rustOrder.Nodup := hrust.symm.nodup s.rust.buckets.keys_nodup
  have hnd' : csharpOrder.Nodup := hcsharp.symm.nodup s.csharp.buckets.keys_nodup
  have hgoPerm : goOrder.Perm rustOrder := by
    rw [h.goBuckets.keys] at hgo
    exact hgo.trans hrust.symm
  have hcsPerm : csharpOrder.Perm rustOrder := by
    rw [h.csharpBuckets.keys] at hcsharp
    exact hcsharp.trans hrust.symm
  have hdropped : (flushKeys G s.rust rustOrder).1.droppedBucketOverflow = s.rust.droppedBucketOverflow :=
    Lib.Loop.sweep_inv (I := fun r => r.droppedBucketOverflow = s.rust.droppedBucketOverflow)
      (fun r key hr => (flush_dropped G r key).trans hr) rustOrder rfl
  have hcsDropped : (s.csharp.disposeAsync G csharpOrder).1.droppedBucketOverflow =
      s.csharp.droppedBucketOverflow :=
    Lib.Loop.sweep_inv (I := fun a => a.droppedBucketOverflow = s.csharp.droppedBucketOverflow)
      (fun a key ha => (csharp_flush_dropped G a key).trans ha) csharpOrder rfl
  refine ⟨?_, ?_, ?_, fun _ => rfl, ?_, ?_, ?_⟩
  · -- what Go makes of a key's bucket is what Rust makes of it
    have hkey : ∀ key, ((s.go.buckets.lookup key).bind Go.Bucket.batch).bind (Go.fromBatch G) =
        ((s.rust.buckets.lookup key).bind (buildToast G)).map goToast := by
      intro key
      rw [Option.bind_assoc]
      apply h.goBuckets.lookup_bind
      intro b r hr hholds
      exact goToast_bucket G (h.inOrder key r hr) hholds
    have hout : (s.go.flush goOrder).2.filterMap (Go.fromBatch G) =
        goOrder.filterMap fun key => ((s.rust.buckets.lookup key).bind (buildToast G)).map goToast := by
      unfold Go.Aggregator.flush Go.Aggregator.swap
      simp only [List.filterMap_filterMap, hkey]
    rw [hout, flushKeys_toasts G s.rust hnd, List.map_filterMap]
    exact hgoPerm.filterMap _
  · have hkey : ∀ key, (s.csharp.buckets.lookup key).bind (CSharp.Bucket.toast G) =
        ((s.rust.buckets.lookup key).bind (buildToast G)).map csharpToast := by
      intro key
      apply h.csharpBuckets.lookup_bind
      intro b r hr hholds
      exact csharpToast_bucket G (h.inOrder key r hr) hholds
    rw [disposeAsync_toasts G s.csharp hnd', flushKeys_toasts G s.rust hnd, List.map_filterMap]
    simp only [hkey]
    exact hcsPerm.filterMap _
  · apply @Lib.Loop.sweep_empties _ _ _ _ _ _ (fun (r : Inner Event) k => r.buckets.lookup k)
      (Aggregator.flush_lookup G)
    intro key hopen
    exact hrust.mem_iff.2 (mem_keys_of_lookup hopen)
  · apply @Lib.Loop.sweep_empties _ _ _ _ _ _ (fun (a : CSharp.Aggregator) k => a.buckets.lookup k)
      (CSharp.Aggregator.flush_lookup G)
    intro key hopen
    exact hcsharp.mem_iff.2 (mem_keys_of_lookup hopen)
  · rw [hdropped]
    exact h.goDropped
  · rw [hdropped, hcsDropped]
    exact h.csharpDropped

/-! ## Runs in order -/

/-- **In order, the heads cannot be told apart.** -/
theorem in_order_agree (ops : List Op) (hseq : (ops.filterMap Op.added).Pairwise fun a b => seqOf a < seqOf b) :
    Agree (run (step O G) (init O) ops) ∧
      ∀ rustOrder goOrder csharpOrder, rustOrder.Perm (run (step O G) (init O) ops).rust.buckets.keys →
        goOrder.Perm (run (step O G) (init O) ops).go.buckets.keys →
        csharpOrder.Perm (run (step O G) (init O) ops).csharp.buckets.keys →
        FlushAgree G (run (step O G) (init O) ops) rustOrder goOrder csharpOrder := by
  obtain ⟨bound, h⟩ := run_sim G (sim_init O) ops hseq fun e _ => Nat.zero_le _
  refine ⟨⟨?_, ?_, h.goDropped, h.csharpDropped, h.goOut, h.csharpOut⟩, ?_⟩
  · intro key
    exact h.goBuckets.isSome_iff
  · intro key
    exact h.csharpBuckets.isSome_iff
  · intro rustOrder goOrder csharpOrder hrust hgo hcsharp
    exact sim_flushAgree O G h hrust hgo hcsharp

/-- an event of one key, with a title that tells it apart -/
def sample (seq : ℕ) (replaceable : Bool) : Event where
  note := {
    seq := seq, eventId := ['e'], userId := ['u'], title := Nat.toDigits 10 seq, message := ['m'],
    secondaryText := none, actionLabel := some ['o'], actionUrl := none, image := none, priority := .normal,
    aggregationKey := ['k'], deduplicationKey := ['e'], replaceable := replaceable, producerCreatedAt := none,
    serverPublishedAt := none, receivedAt := 0 }
  notificationType := ['t']

def oneBucket : Options := ⟨1, 2, 10, by decide, by decide, by decide⟩

/-- a run that replaces, appends, expires and opens again -/
def sampleRun : List Op :=
  [.add (sample 1 true), .add (sample 2 true), .add (sample 3 false), .expire (['k'], .normal), .add (sample 4 false)]

/-- the toasts of the run: one, of the second and the third event -/
theorem in_order_agree_sampleRun :
    Agree (run (step oneBucket singletons) (init oneBucket) sampleRun) ∧
      (run (step oneBucket singletons) (init oneBucket) sampleRun).rustOut.map (fun t => t.sources.map seqOf) =
        [[2, 3]] :=
  ⟨(in_order_agree oneBucket singletons sampleRun (by decide)).1, by decide +kernel⟩

end NotifyAgent.HeadAggregation
