/-
One Go aggregator with its window timers, at the grain at which goroutines see it. `Add`, `fire` and the first part of
`Flush` hold the mutex and are one step each. A timer that is due may start its callback at any time; once started the
callback will call `fire`, even if the timer is stopped in between. `Flush` takes all buckets first, then stops and
renders them one by one. Several flushes may run at once, and events may be added at any time.

A bucket is known by the number of its timer: `Add` makes both together.

- `Acc`, `acc_run`: every bucket ever made is open, with a running flush, or rendered, and in one of these places only;
- `log_step`: what has been rendered stays on record, and a step adds at most one bucket to it.
-/
import Mathlib.Tactic
import NotifyAgent.Lib.Ledger
import NotifyAgent.Lib.Machine
import NotifyAgent.Core.HeadAggregators

namespace NotifyAgent.GoTimers

open NotifyAgent.Go
open NotifyAgent.Lib.FiniteMap (lookup_gone)
open NotifyAgent.Lib.Ledger
open NotifyAgent.Lib.Machine

/-! ## Model -/

/-- a timer of `AfterFunc` -/
inductive Status where
  | waiting
  /-- the callback has started; `Stop` comes too late -/
  | started
  | done
  | stopped
deriving DecidableEq, Repr

structure TimerState where
  key : BucketKey
  window : ℤ
  created : ℤ
  status : Status
deriving DecidableEq, Repr

inductive Cause where
  | flush
  | callback (id : ℕ)
deriving DecidableEq, Repr

/-- ghost: a bucket was rendered -/
structure Rendered where
  bucket : ℕ
  time : ℤ
  cause : Cause
deriving DecidableEq, Repr

structure St where
  agg : Aggregator
  now : ℤ
  timers : List TimerState
  /-- the buckets that each flush has taken and not yet stopped and rendered -/
  flushes : List (List Bucket)
  /-- ghost -/
  log : List Rendered
  /-- ghost: the buckets that a flush has taken -/
  taken : List ℕ

inductive Op where
  | add (event : InboundNotification)
  | tick (d : ℕ)
  /-- the runtime starts the callback of a timer that is due -/
  | start (id : ℕ)
  /-- a started callback runs `fire` -/
  | callback (id : ℕ)
  /-- `Flush` swaps the map; it will range over the buckets in this order -/
  | flush (pending : List Bucket)
  /-- a running flush stops and renders its next bucket -/
  | flushNext (i : ℕ)

def init (opts : Options) : St := ⟨.new opts, 0, [], [], [], []⟩

section
variable (s : St)

/-- the timer that `Add` starts, if it opens a bucket -/
def armed (event : InboundNotification) : List TimerState :=
  if (s.agg.add event).1.timers = s.agg.timers then []
  else [⟨bucketKey event, s.agg.opts.window event.classification.priority, s.now, .waiting⟩]

def setStatus (id : ℕ) (status : Status) : St :=
  { s with timers := s.timers.modify id fun t => { t with status := status } }

/-- `Stop` -/
def stop (id : ℕ) : St :=
  match s.timers[id]? with
  | some t => if t.status = .waiting then setStatus s id .stopped else s
  | none => s

/-- the record of rendering a bucket, unless it is empty -/
def rendered (b : Bucket) (cause : Cause) : List Rendered :=
  match b.batch with
  | some _ => [⟨b.timer.id, s.now, cause⟩]
  | none => []

def step : Op → St
  | .add event => { s with agg := (s.agg.add event).1, timers := s.timers ++ armed s event }
  | .tick d => { s with now := s.now + d }
  | .start id =>
    match s.timers[id]? with
    | some t => if t.status = .waiting ∧ t.created + t.window ≤ s.now then setStatus s id .started else s
    | none => s
  | .callback id =>
    match s.timers[id]? with
    | some t =>
      if t.status = .started then
        { setStatus s id .done with
          agg := (s.agg.fire t.key).1
          log := s.log ++ match s.agg.buckets.lookup t.key with
            | some b => rendered s b (.callback id)
            | none => [] }
      else s
    | none => s
  | .flush pending =>
    if pending.Perm (s.agg.buckets.entries.map Sigma.snd) then
      { s with agg := s.agg.swap.1, flushes := s.flushes ++ [pending],
               taken := s.taken ++ pending.map fun b => b.timer.id }
    else s
  | .flushNext i =>
    match s.flushes[i]? with
    | some (b :: rest) =>
      { stop s b.timer.id with flushes := s.flushes.set i rest, log := s.log ++ rendered s b .flush }
    | _ => s

/-! ## What a step does -/

theorem step_add_cases (event : InboundNotification) :
    step s (.add event) = s ∨
    (∃ b, s.agg.buckets.lookup (bucketKey event) = some b ∧
      step s (.add event) = { s with agg := { s.agg with
        buckets := s.agg.buckets.insert (bucketKey event) { b with events := appendEvent b.events event } } }) ∨
    step s (.add event) =
      { s with agg := { s.agg with droppedBucketOverflow := s.agg.droppedBucketOverflow + 1 } } ∨
    (s.agg.buckets.lookup (bucketKey event) = none ∧ ∃ window,
      step s (.add event) = { s with
        agg := { s.agg with
          buckets := s.agg.buckets.insert (bucketKey event) ⟨[event], ⟨s.agg.timers, bucketKey event, window⟩⟩
          timers := s.agg.timers + 1 }
        timers := s.timers ++ [⟨bucketKey event, window, s.now, .waiting⟩] }) := by
  rcases s.agg.add_cases event with ⟨-, h⟩ | ⟨-, b, hl, h⟩ | ⟨-, -, h⟩ | ⟨-, hl, h⟩
  · left
    simp [step, armed, h]
  · refine Or.inr (Or.inl ⟨b, hl, ?_⟩)
    simp [step, armed, h]
  · refine Or.inr (Or.inr (Or.inl ?_))
    simp [step, armed, h]
  · refine Or.inr (Or.inr (Or.inr ⟨hl, s.agg.opts.window event.classification.priority, ?_⟩))
    simp only [step, armed, h]
    rw [if_neg (by simp)]

theorem fire_buckets (a : Aggregator) (key : BucketKey) :
    (a.fire key).1.timers = a.timers ∧ (a.fire key).1.opts = a.opts ∧
      ∀ k, (a.fire key).1.buckets.lookup k = if k = key then none else a.buckets.lookup k := by
  rcases a.fire_cases key with ⟨hl, h⟩ | ⟨b, _, h⟩ <;> rw [h]
  · exact ⟨rfl, rfl, lookup_gone (Or.inl ⟨hl, rfl⟩)⟩
  · exact ⟨rfl, rfl, lookup_gone (Or.inr rfl)⟩

theorem length_setStatus (id : ℕ) (status : Status) : (setStatus s id status).timers.length = s.timers.length := by
  simp [setStatus]

/-- only the status of one timer changes -/
theorem getElem?_setStatus {id : ℕ} {status : Status} {j : ℕ} {t' : TimerState}
    (h : (setStatus s id status).timers[j]? = some t') :
    ∃ t, s.timers[j]? = some t ∧ t'.key = t.key ∧ t'.window = t.window ∧ t'.created = t.created ∧
      ((j ≠ id ∧ t'.status = t.status) ∨ (j = id ∧ t'.status = status)) := by
  simp only [setStatus, List.getElem?_modify] at h
  obtain ⟨t, ht, hval⟩ := Option.map_eq_some_iff.1 h
  refine ⟨t, ht, ?_⟩
  by_cases hj : id = j
  · rw [if_pos hj] at hval
    subst hval
    exact ⟨rfl, rfl, rfl, Or.inr ⟨hj.symm, rfl⟩⟩
  · rw [if_neg hj] at hval
    subst hval
    exact ⟨rfl, rfl, rfl, Or.inl ⟨fun h => hj h.symm, rfl⟩⟩

/-- a status change or none -/
theorem stop_eq (id : ℕ) : stop s id = s ∨ stop s id = setStatus s id .stopped := by
  unfold stop
  cases s.timers[id]? with
  | none => exact Or.inl rfl
  | some t =>
    simp only
    split_ifs
    · exact Or.inr rfl
    · exact Or.inl rfl

theorem rendered_of_nonempty {b : Bucket} (hb : b.events ≠ []) (cause : Cause) :
    rendered s b cause = [⟨b.timer.id, s.now, cause⟩] := by
  have hne : b.events.length ≠ 0 := fun h => hb (List.length_eq_zero_iff.1 h)
  unfold rendered Bucket.batch
  rw [if_neg hne]

theorem mem_rendered {b : Bucket} {cause : Cause} {r : Rendered} (h : r ∈ rendered s b cause) :
    r = ⟨b.timer.id, s.now, cause⟩ := by
  unfold rendered at h
  split at h
  · exact List.mem_singleton.1 h
  · cases h

end

/-! ## Where the buckets are -/

def idOf (b : Bucket) : Multiset ℕ := {b.timer.id}

/-- the buckets with the running flushes -/
def pendingIds (s : St) : Multiset ℕ := tally (tally idOf) s.flushes

def renderedIds (s : St) : Multiset ℕ := (s.log.map Rendered.bucket : List ℕ)

/-- an open bucket has its key's timer and an event -/
structure Open (timers : List TimerState) (key : BucketKey) (b : Bucket) : Prop where
  keyed : b.timer.key = key
  nonempty : b.events ≠ []
  timer : ∃ t, timers[b.timer.id]? = some t ∧ t.key = key

structure Acc (s : St) : Prop where
  count : s.agg.timers = s.timers.length
  buckets : ∀ key b, s.agg.buckets.lookup key = some b → Open s.timers key b
  pending : ∀ bs ∈ s.flushes, ∀ b ∈ bs, b.events ≠ []
  /-- every bucket ever made is open, with a running flush, or rendered -/
  places : holdings idOf s.agg.buckets + pendingIds s + renderedIds s = Multiset.range s.timers.length
  taken : ∀ id ∈ s.taken, id ∈ pendingIds s + renderedIds s
  due : ∀ (id : ℕ) (t : TimerState), s.timers[id]? = some t → t.status = .started → t.created + t.window ≤ s.now

theorem acc_init (opts : Options) : Acc (init opts) where
  count := rfl
  buckets key b hb := by simp [init, Aggregator.new] at hb
  pending bs hbs := by simp [init] at hbs
  places := rfl
  taken id hid := by simp [init] at hid
  due id t ht := by simp [init] at ht

theorem Open.mono {l l' : List TimerState} {key : BucketKey} {b : Bucket} (h : Open l key b)
    (htimers : ∀ (id : ℕ) (t : TimerState), l[id]? = some t → ∃ t', l'[id]? = some t' ∧ t'.key = t.key) :
    Open l' key b := by
  obtain ⟨t, ht, hk⟩ := h.timer
  obtain ⟨t', ht', hk'⟩ := htimers _ t ht
  exact ⟨h.keyed, h.nonempty, t', ht', hk'.trans hk⟩

theorem kept_setStatus (s : St) (id : ℕ) (status : Status) (j : ℕ) (t : TimerState) (h : s.timers[j]? = some t) :
    ∃ t', (setStatus s id status).timers[j]? = some t' ∧ t'.key = t.key ∧ t'.window = t.window ∧
      t'.created = t.created := by
  simp only [setStatus, List.getElem?_modify, h]
  refine ⟨_, rfl, ?_⟩
  split_ifs <;> exact ⟨rfl, rfl, rfl⟩

/-- a change of status that does not start a callback early keeps the accounts -/
theorem acc_setStatus {s : St} (h : Acc s) (id : ℕ) {status : Status}
    (hdue : status = .started → ∀ t, s.timers[id]? = some t → t.created + t.window ≤ s.now) :
    Acc (setStatus s id status) where
  count := by rw [length_setStatus]; exact h.count
  buckets key b hb := (h.buckets key b hb).mono fun j t ht => by
    obtain ⟨t', ht', hk, -⟩ := kept_setStatus s id status j t ht
    exact ⟨t', ht', hk⟩
  pending := h.pending
  places := by rw [length_setStatus]; exact h.places
  taken := h.taken
  due j t' ht' hstarted := by
    obtain ⟨t, ht, -, hw, hc, hstatus⟩ := getElem?_setStatus s ht'
    rw [hw, hc]
    rcases hstatus with ⟨-, hst⟩ | ⟨rfl, hst⟩
    · exact h.due j t ht (hst ▸ hstarted)
    · exact hdue (hst ▸ hstarted) t ht

theorem acc_stop {s : St} (h : Acc s) (id : ℕ) : Acc (stop s id) := by
  rcases stop_eq s id with hs | hs <;> rw [hs]
  · exact h
  · exact acc_setStatus h id (by intro hn; cases hn)

theorem appendEvent_ne_nil (events : List InboundNotification) (event : InboundNotification) :
    appendEvent events event ≠ [] := by
  simp [appendEvent]

theorem acc_add {s : St} (h : Acc s) (event : InboundNotification) : Acc (step s (.add event)) := by
  rcases step_add_cases s event with hs | ⟨b, hl, hs⟩ | hs | ⟨hl, window, hs⟩ <;> rw [hs]
  · exact h
  · have hb := h.buckets _ b hl
    refine { h with buckets := ?_, places := ?_ }
    · intro key b' hb'
      by_cases hk : key = bucketKey event
      · subst hk
        simp only [AList.lookup_insert, Option.some.injEq] at hb'
        subst hb'
        exact ⟨hb.keyed, appendEvent_ne_nil _ _, hb.timer⟩
      · simp only [AList.lookup_insert_ne hk] at hb'
        exact h.buckets key b' hb'
    · -- the bucket keeps its timer
      have hrep := holdings_replace idOf { b with events := appendEvent b.events event } hl
      have hid : idOf { b with events := appendEvent b.events event } = idOf b := rfl
      rw [hid] at hrep
      have := add_right_cancel hrep
      simp only [this]
      exact h.places
  · exact ⟨h.count, h.buckets, h.pending, h.places, h.taken, h.due⟩
  · refine { h with count := ?_, buckets := ?_, places := ?_, due := ?_ }
    · simp [h.count]
    · intro key b hb
      by_cases hk : key = bucketKey event
      · subst hk
        simp only [AList.lookup_insert, Option.some.injEq] at hb
        subst hb
        refine ⟨rfl, by simp, ⟨⟨bucketKey event, window, s.now, .waiting⟩, ?_, rfl⟩⟩
        simp [h.count]
      · simp only [AList.lookup_insert_ne hk] at hb
        apply (h.buckets key b hb).mono
        intro id t ht
        exact ⟨t, by rw [List.getElem?_append_left (List.getElem?_eq_some_iff.1 ht).1]; exact ht, rfl⟩
    · have hids : idOf ⟨[event], ⟨s.agg.timers, bucketKey event, window⟩⟩ = {s.timers.length} := by
        rw [← h.count]
        rfl
      have hplaces := h.places
      simp only [pendingIds, renderedIds] at hplaces ⊢
      simp only [holdings_insert idOf _ hl, hids, List.length_append, List.length_singleton, Multiset.range_succ]
      rw [← hplaces, ← Multiset.singleton_add, add_assoc, add_assoc, add_assoc]
    · intro id t ht hstarted
      rcases List.mem_append.1 (List.mem_of_getElem? ht) with hmem | hmem
      · have hlt : id < s.timers.length := by
          by_contra hge
          rw [List.getElem?_append_right (by omega)] at ht
          have := List.mem_of_getElem? ht
          rw [List.mem_singleton.1 this] at hstarted
          cases hstarted
        rw [List.getElem?_append_left hlt] at ht
        exact h.due id t ht hstarted
      · rw [List.mem_singleton.1 hmem] at hstarted
        cases hstarted

theorem acc_callback {s : St} (h : Acc s) {id : ℕ} {t : TimerState} :
    Acc { setStatus s id .done with
      agg := (s.agg.fire t.key).1
      log := s.log ++ match s.agg.buckets.lookup t.key with
        | some b => rendered s b (.callback id)
        | none => [] } := by
  have hstatus := @acc_setStatus _ h id .done (by intro hn; cases hn)
  obtain ⟨htimers, -, hlookup⟩ := fire_buckets s.agg t.key
  rcases s.agg.fire_cases t.key with ⟨hl, hf⟩ | ⟨b, hl, hf⟩
  · simp only [hl, hf, List.append_nil]
    exact hstatus
  · have hb := h.buckets _ b hl
    have hplaces := h.places
    rw [holdings_erase idOf hl] at hplaces
    simp only [hl, rendered_of_nonempty s hb.nonempty]
    refine { hstatus with count := ?_, buckets := ?_, places := ?_, taken := ?_ }
    · exact htimers.trans hstatus.count
    · intro key b' hb'
      simp only [hlookup] at hb'
      split_ifs at hb' with hk
      exact hstatus.buckets key b' hb'
    · simp only [hf]
      have hlen := length_setStatus s id .done
      rw [hlen, ← hplaces]
      simp only [pendingIds, renderedIds, setStatus, List.map_append, List.map_cons, List.map_nil,
        ← Multiset.coe_add, Multiset.coe_singleton, idOf]
      abel
    · intro i hi
      have := h.taken i hi
      simp only [pendingIds, renderedIds, setStatus, Multiset.mem_add, Multiset.mem_coe, List.map_append,
        List.mem_append] at this ⊢
      rcases this with hp | hr
      · exact Or.inl hp
      · exact Or.inr (Or.inl hr)

theorem acc_flush {s : St} (h : Acc s) {pending : List Bucket}
    (hperm : pending.Perm (s.agg.buckets.entries.map Sigma.snd)) :
    Acc { s with agg := s.agg.swap.1, flushes := s.flushes ++ [pending],
                 taken := s.taken ++ pending.map fun b => b.timer.id } := by
  have hids : tally idOf pending = holdings idOf s.agg.buckets := by
    rw [tally_perm idOf hperm]
    simp only [holdings, tally, List.map_map]
    rfl
  have hopen : ∀ b ∈ pending, ∃ key, s.agg.buckets.lookup key = some b := by
    intro b hb
    obtain ⟨e, he, rfl⟩ := List.mem_map.1 (hperm.mem_iff.1 hb)
    exact ⟨e.1, AList.mem_lookup_iff.2 he⟩
  refine { h with buckets := ?_, pending := ?_, places := ?_, taken := ?_ }
  · intro key b hb
    simp [Aggregator.swap] at hb
  · intro bs hbs b hb
    rcases List.mem_append.1 hbs with hbs | hbs
    · exact h.pending bs hbs b hb
    · rw [List.mem_singleton.1 hbs] at hb
      obtain ⟨key, hk⟩ := hopen b hb
      exact (h.buckets key b hk).nonempty
  · rw [← h.places]
    simp only [pendingIds, renderedIds, Aggregator.swap, tally_append, tally_cons, tally_nil, add_zero, hids,
      holdings_empty, zero_add]
    abel
  · intro id hid
    simp only [pendingIds, renderedIds, tally_append, tally_cons, tally_nil, add_zero, Multiset.mem_add]
    rcases List.mem_append.1 hid with hid | hid
    · have := h.taken id hid
      simp only [pendingIds, renderedIds, Multiset.mem_add] at this
      rcases this with hp | hr
      · exact Or.inl (Or.inl hp)
      · exact Or.inr hr
    · obtain ⟨b, hb, rfl⟩ := List.mem_map.1 hid
      exact Or.inl (Or.inr (mem_tally.2 ⟨b, hb, Multiset.mem_singleton_self _⟩))

theorem acc_flushNext {s : St} (h : Acc s) {i : ℕ} {b : Bucket} {rest : List Bucket}
    (hi : s.flushes[i]? = some (b :: rest)) :
    Acc { stop s b.timer.id with flushes := s.flushes.set i rest, log := s.log ++ rendered s b .flush } := by
  have hstop := acc_stop h b.timer.id
  have hsame : (stop s b.timer.id).agg = s.agg ∧ (stop s b.timer.id).timers.length = s.timers.length ∧
      (stop s b.timer.id).taken = s.taken := by
    rcases stop_eq s b.timer.id with hs | hs <;> rw [hs]
    · exact ⟨rfl, rfl, rfl⟩
    · exact ⟨rfl, length_setStatus s _ _, rfl⟩
  have hb : b.events ≠ [] := h.pending _ (List.mem_of_getElem? hi) b List.mem_cons_self
  have hset := tally_set (tally idOf) (y := rest) hi
  rw [tally_cons] at hset
  rw [rendered_of_nonempty s hb]
  refine { hstop with buckets := hstop.buckets, pending := ?_, places := ?_, taken := ?_ }
  · intro bs hbs x hx
    rcases List.mem_or_eq_of_mem_set hbs with hbs | rfl
    · exact h.pending bs hbs x hx
    · exact h.pending _ (List.mem_of_getElem? hi) x (List.mem_cons_of_mem b hx)
  · have hplaces := h.places
    simp only [pendingIds, renderedIds, hsame.1, hsame.2.1, List.map_append, List.map_cons, List.map_nil,
      ← Multiset.coe_add, Multiset.coe_singleton] at hplaces ⊢
    -- what the flush gives up is what is recorded
    refine add_right_cancel (b := tally idOf rest) ?_
    calc holdings idOf s.agg.buckets + tally (tally idOf) (s.flushes.set i rest) +
          (↑(s.log.map Rendered.bucket) + {b.timer.id}) + tally idOf rest
        = holdings idOf s.agg.buckets +
            (tally (tally idOf) (s.flushes.set i rest) + (idOf b + tally idOf rest)) +
            ↑(s.log.map Rendered.bucket) := by rw [idOf]; abel
      _ = holdings idOf s.agg.buckets + (tally (tally idOf) s.flushes + tally idOf rest) +
            ↑(s.log.map Rendered.bucket) := by rw [hset]
      _ = Multiset.range s.timers.length + tally idOf rest := by rw [← hplaces]; abel
  · intro id hid
    rw [hsame.2.2] at hid
    have hmem := h.taken id hid
    have hcount : id ∈ tally (tally idOf) (s.flushes.set i rest) + (idOf b + tally idOf rest) ↔
        id ∈ tally (tally idOf) s.flushes + tally idOf rest := by rw [hset]
    simp only [pendingIds, renderedIds, Multiset.mem_add, Multiset.mem_coe, List.map_append, List.mem_append,
      List.map_cons, List.map_nil, List.mem_singleton] at hmem hcount ⊢
    rcases hmem with hp | hr
    · rcases hcount.2 (Or.inl hp) with hs | hb' | hrest
      · exact Or.inl hs
      · exact Or.inr (Or.inr (Multiset.mem_singleton.1 hb'))
      · have hlt := (List.getElem?_eq_some_iff.1 hi).1
        exact Or.inl (mem_tally.2 ⟨rest, List.mem_set hlt rest, hrest⟩)
    · exact Or.inr (Or.inl hr)

theorem acc_step (s : St) (o : Op) (h : Acc s) : Acc (step s o) := by
  cases o with
  | add event => exact acc_add h event
  | tick d =>
    refine { h with due := ?_ }
    intro id t ht hstarted
    have := h.due id t ht hstarted
    simp only [step]
    omega
  | start id =>
    simp only [step]
    split
    · rename_i t ht
      split_ifs with hdue
      · apply acc_setStatus h id
        intro _ t' ht'
        rw [ht, Option.some.injEq] at ht'
        exact ht' ▸ hdue.2
      · exact h
    · exact h
  | callback id =>
    simp only [step]
    split
    · split_ifs
      · exact acc_callback h
      · exact h
    · exact h
  | flush pending =>
    simp only [step]
    split_ifs with hperm
    · exact acc_flush h hperm
    · exact h
  | flushNext i =>
    simp only [step]
    split
    · rename_i b rest hi
      exact acc_flushNext h hi
    · exact h

/-- **Every bucket is in one place.** -/
theorem acc_run (opts : Options) (ops : List Op) : Acc (run step (init opts) ops) :=
  run_inv step acc_step (acc_init opts) ops

/-! ## The record -/

/-- what a step records: nothing, or one bucket, rendered now by the callback or flush that ran -/
theorem log_step (s : St) (o : Op) :
    (step s o).log = s.log ∨
    (∃ id t b, o = .callback id ∧ s.timers[id]? = some t ∧ t.status = .started ∧
      s.agg.buckets.lookup t.key = some b ∧ (step s o).log = s.log ++ rendered s b (.callback id)) ∨
    ∃ b, (step s o).log = s.log ++ rendered s b .flush := by
  cases o with
  | add event => exact Or.inl rfl
  | tick d => exact Or.inl rfl
  | start id =>
    left
    simp only [step]
    split
    · split_ifs <;> rfl
    · rfl
  | callback id =>
    simp only [step]
    split
    · rename_i t ht
      split_ifs with hstarted
      · cases hl : s.agg.buckets.lookup t.key with
        | none =>
          left
          simp only [List.append_nil]
        | some b => exact Or.inr (Or.inl ⟨id, t, b, rfl, ht, hstarted, hl, rfl⟩)
      · exact Or.inl rfl
    · exact Or.inl rfl
  | flush pending =>
    left
    simp only [step]
    split_ifs <;> rfl
  | flushNext i =>
    simp only [step]
    split
    · rename_i b rest hi
      exact Or.inr (Or.inr ⟨b, rfl⟩)
    · exact Or.inl rfl

theorem log_prefix_step (s : St) (o : Op) : s.log <+: (step s o).log := by
  rcases log_step s o with h | ⟨_, _, _, -, -, -, -, h⟩ | ⟨_, h⟩ <;> rw [h]
  · exact List.prefix_append _ _
  · exact List.prefix_append _ _

end NotifyAgent.GoTimers
