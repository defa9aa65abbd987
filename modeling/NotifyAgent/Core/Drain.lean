/-
The Rust aggregator with its timer tasks and its shutdown, at the grain at which other threads can see them.
`Inner::flush` takes the bucket out of the map under the lock and spawns the render of its toast afterwards; a timer
task and the shutdown may each stand between these two. The tracker counts renders only, so `wait` returns as soon as it
is closed and every render spawned so far has completed.

Nothing is added once the shutdown has begun: the pipeline that calls `add` has been shut down before.

- `Trans`, `step_cases`: everything a step can do;
- `places_run`: every event that `add` was given is in a bucket, with a task that took its bucket, in a render, or gone;
- `Closing`: buckets are never empty, and none is left in the map when the tracker is closed.
-/
import Mathlib.Tactic
import NotifyAgent.Lib.Machine
import NotifyAgent.Core.Aggregator

namespace NotifyAgent.Drain

open NotifyAgent.Notification NotifyAgent.Aggregator
open NotifyAgent.Lib.Ledger
open NotifyAgent.Lib.Machine (run run_inv)

/-! ## Model -/

/-- the task behind a bucket's timer -/
inductive TimerTask where
  | sleeping (key : Key)
  /-- in `flush`: the bucket is out of the map, its render is not spawned -/
  | holding (bucket : Bucket Note)
  | ended
  | aborted
deriving DecidableEq, Repr

/-- a render task that the tracker counts -/
inductive RenderTask where
  | spawned
  /-- in `sink.render(toast)` -/
  | rendering
  | completed
deriving DecidableEq, Repr

structure Render where
  toast : ToastRequest Note
  task : RenderTask
deriving DecidableEq, Repr

/-- `Aggregator::shutdown` -/
inductive Stage where
  | running
  | flushing (keys : List Key)
  /-- in `flush`, between its two steps -/
  | holding (bucket : Bucket Note) (keys : List Key)
  /-- the tracker is closed -/
  | waiting
  | returned
  /-- the drain timeout has elapsed -/
  | timedOut
deriving DecidableEq, Repr

structure St where
  inner : Inner Note
  timers : List TimerTask
  renders : List Render
  stage : Stage
  /-- ghost: what `add` has been given -/
  given : List Note
  /-- ghost: what `add` has dropped, and what the replaceable rule has discarded -/
  gone : List Note

inductive Op where
  | add (n : InboundNotification)
  | timerTake (i : ℕ)
  | timerSpawn (i : ℕ)
  | renderStart (i : ℕ)
  | renderEnd (i : ℕ)
  /-- the keys are read, in some order -/
  | shutdown (keys : List Key)
  | flushTake
  | flushSpawn
  | close
  | waitReturn
  | timeout
deriving DecidableEq, Repr

section
variable (C : AggregatorConfig) (G : Segmentation) (s : St)

def init : St := ⟨Inner.new, [], [], .running, [], []⟩

/-- the toast of a critical event -/
def toastOf : Added Note → List Render
  | .rendered toast => [⟨toast, .spawned⟩]
  | _ => []

/-- the timer task that `add` spawns with a new bucket -/
def timerOf (n : Note) : Added Note → List TimerTask
  | .opened => [.sleeping (keyOf n)]
  | _ => []

def added (v : InboundNotification) : St :=
  let n : Note := ⟨s.given.length, v⟩
  let r := Aggregator.add C G s.inner n
  { s with inner := r.1, renders := s.renders ++ toastOf r.2, timers := s.timers ++ timerOf n r.2,
           given := s.given ++ [n], gone := s.gone ++ r.2.lost n }

/-- `bucket.timer.abort()`: stops the task if it is asleep -/
def abort (timers : List TimerTask) (id : ℕ) : List TimerTask :=
  match timers[id]? with
  | some (.sleeping _) => timers.set id .aborted
  | _ => timers

/-- the second step of `flush` -/
def spawned (bucket : Bucket Note) : List Render :=
  (buildToast G bucket).toList.map fun toast => ⟨toast, .spawned⟩

def RenderTask.isCompleted : RenderTask → Bool
  | .completed => true
  | _ => false

/-- one operation; one that is not enabled leaves the state unchanged -/
def step : Op → St
  | .add v => if s.stage = .running then added C G s v else s
  | .timerTake i =>
    match s.timers[i]? with
    | some (.sleeping key) =>
      match s.inner.buckets.lookup key with
      | some bucket =>
        { s with inner := { s.inner with buckets := s.inner.buckets.erase key },
                 timers := s.timers.set i (.holding bucket) }
      | none => { s with timers := s.timers.set i .ended }
    | _ => s
  | .timerSpawn i =>
    match s.timers[i]? with
    | some (.holding bucket) =>
      { s with timers := (abort s.timers bucket.timer.id).set i .ended, renders := s.renders ++ spawned G bucket }
    | _ => s
  | .renderStart i =>
    match s.renders[i]? with
    | some ⟨toast, .spawned⟩ => { s with renders := s.renders.set i ⟨toast, .rendering⟩ }
    | _ => s
  | .renderEnd i =>
    match s.renders[i]? with
    | some ⟨toast, .rendering⟩ => { s with renders := s.renders.set i ⟨toast, .completed⟩ }
    | _ => s
  | .shutdown keys =>
    if s.stage = .running ∧ keys.isPerm s.inner.buckets.keys then { s with stage := .flushing keys } else s
  | .flushTake =>
    match s.stage with
    | .flushing (key :: keys) =>
      match s.inner.buckets.lookup key with
      | some bucket =>
        { s with inner := { s.inner with buckets := s.inner.buckets.erase key }, stage := .holding bucket keys }
      | none => { s with stage := .flushing keys }
    | _ => s
  | .flushSpawn =>
    match s.stage with
    | .holding bucket keys =>
      { s with timers := abort s.timers bucket.timer.id, renders := s.renders ++ spawned G bucket,
               stage := .flushing keys }
    | _ => s
  | .close =>
    match s.stage with
    | .flushing [] => { s with stage := .waiting }
    | _ => s
  | .waitReturn =>
    if s.stage = .waiting ∧ s.renders.all (fun r => r.task.isCompleted) then { s with stage := .returned } else s
  | .timeout => if s.stage = .waiting then { s with stage := .timedOut } else s

/-! ## What a step does -/

/-- the enabled steps -/
inductive Trans : Op → St → Prop where
  | added (v) (hrunning : s.stage = .running) : Trans (.add v) (added C G s v)
  | took (i key bucket) (hi : s.timers[i]? = some (.sleeping key)) (hl : s.inner.buckets.lookup key = some bucket) :
    Trans (.timerTake i)
      { s with inner := { s.inner with buckets := s.inner.buckets.erase key },
               timers := s.timers.set i (.holding bucket) }
  | missed (i key) (hi : s.timers[i]? = some (.sleeping key)) (hl : s.inner.buckets.lookup key = none) :
    Trans (.timerTake i) { s with timers := s.timers.set i .ended }
  | spawned (i bucket) (hi : s.timers[i]? = some (.holding bucket)) :
    Trans (.timerSpawn i)
      { s with timers := (abort s.timers bucket.timer.id).set i .ended, renders := s.renders ++ spawned G bucket }
  | started (i toast) (hr : s.renders[i]? = some ⟨toast, .spawned⟩) :
    Trans (.renderStart i) { s with renders := s.renders.set i ⟨toast, .rendering⟩ }
  | completed (i toast) (hr : s.renders[i]? = some ⟨toast, .rendering⟩) :
    Trans (.renderEnd i) { s with renders := s.renders.set i ⟨toast, .completed⟩ }
  | begun (keys) (hrunning : s.stage = .running) (hkeys : keys.Perm s.inner.buckets.keys) :
    Trans (.shutdown keys) { s with stage := .flushing keys }
  | flushTook (key keys bucket) (hstage : s.stage = .flushing (key :: keys))
    (hl : s.inner.buckets.lookup key = some bucket) :
    Trans .flushTake
      { s with inner := { s.inner with buckets := s.inner.buckets.erase key }, stage := .holding bucket keys }
  | flushMissed (key keys) (hstage : s.stage = .flushing (key :: keys)) (hl : s.inner.buckets.lookup key = none) :
    Trans .flushTake { s with stage := .flushing keys }
  | flushSpawned (bucket keys) (hstage : s.stage = .holding bucket keys) :
    Trans .flushSpawn
      { s with timers := abort s.timers bucket.timer.id, renders := s.renders ++ spawned G bucket,
               stage := .flushing keys }
  | closed (hstage : s.stage = .flushing []) : Trans .close { s with stage := .waiting }
  | returned (hstage : s.stage = .waiting) (hall : s.renders.all (fun r => r.task.isCompleted) = true) :
    Trans .waitReturn { s with stage := .returned }
  | timedOut (hstage : s.stage = .waiting) : Trans .timeout { s with stage := .timedOut }

/-- **What a step does.** Nothing, or one of the transitions. -/
theorem step_cases (o : Op) : step C G s o = s ∨ Trans C G s o (step C G s o) := by
  cases o with
  | add v =>
    simp only [step]
    split_ifs with h
    · exact Or.inr (.added v h)
    · exact Or.inl rfl
  | timerTake i =>
    simp only [step]
    split
    · rename_i key hi
      split
      · rename_i bucket hl
        exact Or.inr (.took i key bucket hi hl)
      · rename_i hl
        exact Or.inr (.missed i key hi hl)
    · exact Or.inl rfl
  | timerSpawn i =>
    simp only [step]
    split
    · rename_i bucket hi
      exact Or.inr (.spawned i bucket hi)
    · exact Or.inl rfl
  | renderStart i =>
    simp only [step]
    split
    · rename_i toast hr
      exact Or.inr (.started i toast hr)
    · exact Or.inl rfl
  | renderEnd i =>
    simp only [step]
    split
    · rename_i toast hr
      exact Or.inr (.completed i toast hr)
    · exact Or.inl rfl
  | shutdown keys =>
    simp only [step]
    split_ifs with h
    · exact Or.inr (.begun keys h.1 (List.isPerm_iff.1 h.2))
    · exact Or.inl rfl
  | flushTake =>
    simp only [step]
    split
    · rename_i key keys hstage
      split
      · rename_i bucket hl
        exact Or.inr (.flushTook key keys bucket hstage hl)
      · rename_i hl
        exact Or.inr (.flushMissed key keys hstage hl)
    · exact Or.inl rfl
  | flushSpawn =>
    simp only [step]
    split
    · rename_i bucket keys hstage
      exact Or.inr (.flushSpawned bucket keys hstage)
    · exact Or.inl rfl
  | close =>
    simp only [step]
    split
    · rename_i hstage
      exact Or.inr (.closed hstage)
    · exact Or.inl rfl
  | waitReturn =>
    simp only [step]
    split_ifs with h
    · exact Or.inr (.returned h.1 h.2)
    · exact Or.inl rfl
  | timeout =>
    simp only [step]
    split_ifs with h
    · exact Or.inr (.timedOut h)
    · exact Or.inl rfl

end

section
variable {C : AggregatorConfig} {G : Segmentation} {s s' : St} {o : Op}

/-- **Invariant rule.** What every transition keeps, every run keeps. -/
theorem run_inv_trans {I : St → Prop} (htrans : ∀ s o s', Trans C G s o s' → I s → I s') {s : St} (h : I s)
    (ops : List Op) : I (run (step C G) s ops) := by
  refine run_inv (step C G) (fun s o hi => ?_) h ops
  rcases step_cases C G s o with hs | ht
  · rwa [hs]
  · exact htrans s o _ ht hi

/-! ## Where the events are -/

/-- the list as a multiset of events -/
def events (l : List Note) : Multiset Note := tally (fun n => {n}) l

@[simp] theorem mem_events {l : List Note} {n : Note} : n ∈ events l ↔ n ∈ l := by simp [events, mem_tally]

@[simp] theorem events_nil : events [] = 0 := rfl

@[simp] theorem events_append (a b : List Note) : events (a ++ b) = events a + events b := tally_append _ a b

def TimerTask.held : TimerTask → List Note
  | .holding bucket => bucket.events
  | _ => []

def Stage.held : Stage → List Note
  | .holding bucket _ => bucket.events
  | _ => []

/-- all places an event can be in -/
def places (s : St) : Multiset Note :=
  holdings (fun b => events b.events) s.inner.buckets + tally (fun t => events t.held) s.timers + events s.stage.held +
    tally (fun r => events r.toast.sources) s.renders + events s.gone

theorem abort_held (timers : List TimerTask) (id : ℕ) :
    tally (fun t => events t.held) (abort timers id) = tally (fun t => events t.held) timers := by
  unfold abort
  split
  · rename_i key h
    exact add_right_cancel (b := 0) (tally_set (fun t : TimerTask => events t.held) (y := .aborted) h)
  · rfl

theorem abort_holding {timers : List TimerTask} {id i : ℕ} {bucket : Bucket Note}
    (h : timers[i]? = some (.holding bucket)) : (abort timers id)[i]? = some (.holding bucket) := by
  unfold abort
  split
  · rename_i key hid
    have hne : id ≠ i := by
      rintro rfl
      cases hid.symm.trans h
    rw [List.getElem?_set_ne hne, h]
  · exact h

/-- the render that the second step of `flush` spawns has the bucket's events -/
theorem spawned_events (bucket : Bucket Note) :
    tally (fun r : Render => events r.toast.sources) (spawned G bucket) = events bucket.events := by
  have h := sourcesOf_buildToast G bucket
  have hperm : events (sortBySeq bucket.events) = events bucket.events := tally_perm _ (sortBySeq_perm bucket.events)
  unfold spawned
  cases ht : buildToast G bucket with
  | none =>
    rw [ht] at h
    rw [← hperm, ← h]
    rfl
  | some toast =>
    rw [ht] at h
    simp [← hperm, ← h, sourcesOf]

/-- `add` puts the event in a bucket or a render, or lets some go -/
theorem added_places (v : InboundNotification) :
    places (added C G s v) = places s + {⟨s.given.length, v⟩} := by
  have hadd : holdings (fun b => events b.events) (add C G s.inner ⟨s.given.length, v⟩).1.buckets +
      events ((add C G s.inner ⟨s.given.length, v⟩).2.leaving ⟨s.given.length, v⟩) =
        holdings (fun b => events b.events) s.inner.buckets + {⟨s.given.length, v⟩} :=
    add_conserves (fun n : Note => {n}) C G s.inner ⟨s.given.length, v⟩
  have hleave : ∀ a : Added Note, events (a.leaving ⟨s.given.length, v⟩) =
      tally (fun r : Render => events r.toast.sources) (toastOf a) + events (a.lost ⟨s.given.length, v⟩) := by
    intro a
    cases a <;> simp [Added.leaving, Added.lost, toastOf]
  have htimer : ∀ a : Added Note, tally (fun t => events t.held) (timerOf ⟨s.given.length, v⟩ a) = 0 := by
    intro a
    cases a <;> rfl
  rw [hleave] at hadd
  simp only [places, added, tally_append, events_append, htimer, add_zero]
  calc _ = holdings (fun b => events b.events) (add C G s.inner ⟨s.given.length, v⟩).1.buckets +
        (tally (fun r => events r.toast.sources) (toastOf (add C G s.inner ⟨s.given.length, v⟩).2) +
          events ((add C G s.inner ⟨s.given.length, v⟩).2.lost ⟨s.given.length, v⟩)) +
        (tally (fun t => events t.held) s.timers + events s.stage.held +
          tally (fun r => events r.toast.sources) s.renders + events s.gone) := by abel
    _ = _ := by
      rw [hadd]
      abel

/-- **Every event is in one place.** -/
theorem places_trans (h : Trans C G s o s') (hp : places s = events s.given) : places s' = events s'.given := by
  cases h with
  | added v =>
    rw [added_places, hp]
    simp [added, events]
  | took i key bucket hi hl =>
    have hset : tally (fun t => events t.held) (s.timers.set i (.holding bucket)) + 0 =
        tally (fun t => events t.held) s.timers + events bucket.events := tally_set _ hi
    have hmap := holdings_erase (fun b : Bucket Note => events b.events) hl
    refine Eq.trans ?_ hp
    rw [add_zero] at hset
    simp only [places, hset, hmap]
    abel
  | missed i key hi hl =>
    have hset := add_right_cancel (b := 0) (tally_set (fun t : TimerTask => events t.held) (y := .ended) hi)
    refine Eq.trans ?_ hp
    simp only [places, hset]
  | spawned i bucket hi =>
    have hset : tally (fun t => events t.held) ((abort s.timers bucket.timer.id).set i .ended) + events bucket.events =
        tally (fun t => events t.held) (abort s.timers bucket.timer.id) + 0 := tally_set _ (abort_holding hi)
    refine Eq.trans ?_ hp
    rw [abort_held, add_zero] at hset
    simp only [places, tally_append, spawned_events, ← hset]
    abel
  | started i toast hr =>
    have hset : tally (fun r => events r.toast.sources) (s.renders.set i ⟨toast, .rendering⟩) =
        tally (fun r => events r.toast.sources) s.renders :=
      add_right_cancel (b := events toast.sources) (tally_set (fun r : Render => events r.toast.sources) hr)
    refine Eq.trans ?_ hp
    simp only [places, hset]
  | completed i toast hr =>
    have hset : tally (fun r => events r.toast.sources) (s.renders.set i ⟨toast, .completed⟩) =
        tally (fun r => events r.toast.sources) s.renders :=
      add_right_cancel (b := events toast.sources) (tally_set (fun r : Render => events r.toast.sources) hr)
    refine Eq.trans ?_ hp
    simp only [places, hset]
  | flushTook key keys bucket hstage hl =>
    have hmap := holdings_erase (fun b : Bucket Note => events b.events) hl
    refine Eq.trans ?_ hp
    simp only [places, hstage, hmap, Stage.held, events_nil]
    abel
  | flushSpawned bucket keys hstage =>
    refine Eq.trans ?_ hp
    simp only [places, hstage, abort_held, tally_append, spawned_events, Stage.held, events_nil]
    abel
  | begun keys hrunning =>
    refine Eq.trans ?_ hp
    simp only [places, hrunning, Stage.held]
  | flushMissed key keys hstage =>
    refine Eq.trans ?_ hp
    simp only [places, hstage, Stage.held]
  | closed hstage =>
    refine Eq.trans ?_ hp
    simp only [places, hstage, Stage.held]
  | returned hstage =>
    refine Eq.trans ?_ hp
    simp only [places, hstage, Stage.held]
  | timedOut hstage =>
    refine Eq.trans ?_ hp
    simp only [places, hstage, Stage.held]

theorem places_run (C : AggregatorConfig) (G : Segmentation) (ops : List Op) :
    places (run (step C G) init ops) = events (run (step C G) init ops).given :=
  run_inv_trans (fun _ _ _ => places_trans) rfl ops

/-- the events that `add` is given carry their positions as tickets -/
theorem given_run (C : AggregatorConfig) (G : Segmentation) (ops : List Op) :
    (run (step C G) init ops).given.map Ticketed.ticket = List.range (run (step C G) init ops).given.length := by
  refine run_inv_trans (I := fun s => s.given.map Ticketed.ticket = List.range s.given.length)
    (fun s o s' h hs => ?_) rfl ops
  cases h with
  | added v => simp [added, hs, List.range_succ]
  | _ => exact hs

theorem given_nodup (C : AggregatorConfig) (G : Segmentation) (ops : List Op) :
    (events (run (step C G) init ops).given).Nodup := by
  have hlist : ∀ l : List Note, events l = (l : Multiset Note) := by
    intro l
    induction l with
    | nil => rfl
    | cons n l ih => rw [← Multiset.cons_coe, ← ih, events, tally_cons, Multiset.singleton_add]; rfl
  rw [hlist, Multiset.coe_nodup]
  exact List.Nodup.of_map Ticketed.ticket (by rw [given_run]; exact List.nodup_range)

/-! ## The shutdown -/

structure Closing (C : AggregatorConfig) (s : St) : Prop where
  wf : Wf C s.inner
  held : ∀ bucket, .holding bucket ∈ s.timers → bucket.events ≠ []
  flushing : ∀ keys, s.stage = .flushing keys → ∀ key, (s.inner.buckets.lookup key).isSome → key ∈ keys
  holding : ∀ bucket keys, s.stage = .holding bucket keys → ∀ key, (s.inner.buckets.lookup key).isSome → key ∈ keys
  closed : s.stage = .waiting ∨ s.stage = .returned ∨ s.stage = .timedOut →
    ∀ key, s.inner.buckets.lookup key = none

theorem wf_erase {inner : Inner Note} (key : Key) (h : Wf C inner) :
    Wf C { inner with buckets := inner.buckets.erase key } := by
  refine ⟨(length_keys_erase_le inner.buckets key).trans h.bounded, fun k bucket hb => ?_⟩
  by_cases hk : k = key
  · subst hk
    simp at hb
  · rw [AList.lookup_erase_ne hk] at hb
    exact h.buckets k bucket hb

/-- a map that loses a key has no other keys than before -/
theorem lookup_erase_isSome {inner : Inner Note} {key k : Key} (h : ((inner.buckets.erase key).lookup k).isSome) :
    k ≠ key ∧ (inner.buckets.lookup k).isSome := by
  have hk : k ≠ key := by
    rintro rfl
    simp at h
  exact ⟨hk, by rwa [AList.lookup_erase_ne hk] at h⟩

theorem holding_abort {timers : List TimerTask} {id : ℕ} {bucket : Bucket Note}
    (h : .holding bucket ∈ abort timers id) : .holding bucket ∈ timers := by
  unfold abort at h
  split at h
  · exact (List.mem_or_eq_of_mem_set h).resolve_right (by simp)
  · exact h

theorem closing_trans (h : Trans C G s o s') (hs : Closing C s) : Closing C s' := by
  cases h with
  | added v hrunning =>
    refine ⟨add_wf G _ hs.wf, fun bucket hm => ?_, by simp [added, hrunning], by simp [added, hrunning],
      by simp [added, hrunning]⟩
    rcases List.mem_append.1 hm with hm | hm
    · exact hs.held bucket hm
    · cases ha : (add C G s.inner ⟨s.given.length, v⟩).2 <;> rw [ha] at hm <;> simp [timerOf] at hm
  | took i key bucket hi hl =>
    refine ⟨wf_erase key hs.wf, fun b hm => ?_, fun keys h k hk => ?_, fun b keys h k hk => ?_, fun h k => ?_⟩
    · rcases List.mem_or_eq_of_mem_set hm with hm | hm
      · exact hs.held b hm
      · rw [TimerTask.holding.inj hm]
        exact (hs.wf.buckets key bucket hl).nonempty
    · exact hs.flushing keys h k (lookup_erase_isSome hk).2
    · exact hs.holding b keys h k (lookup_erase_isSome hk).2
    · cases (hs.closed h key).symm.trans hl
  | missed i key hi hl =>
    exact ⟨hs.wf, fun b hm => hs.held b ((List.mem_or_eq_of_mem_set hm).resolve_right (by simp)), hs.flushing,
      hs.holding, hs.closed⟩
  | spawned i bucket hi =>
    exact ⟨hs.wf, fun b hm => hs.held b (holding_abort ((List.mem_or_eq_of_mem_set hm).resolve_right (by simp))),
      hs.flushing, hs.holding, hs.closed⟩
  | begun keys hrunning hkeys =>
    refine ⟨hs.wf, hs.held, fun keys' h k hk => ?_, by simp, by simp⟩
    rw [← Stage.flushing.inj h]
    exact hkeys.mem_iff.2 (AList.mem_keys.1 (AList.lookup_isSome.1 hk))
  | flushTook key keys bucket hstage hl =>
    refine ⟨wf_erase key hs.wf, hs.held, by simp, fun b keys' h k hk => ?_, by simp⟩
    obtain ⟨hne, hk⟩ := lookup_erase_isSome hk
    rw [← (Stage.holding.inj h).2]
    exact (List.mem_cons.1 (hs.flushing _ hstage k hk)).resolve_left hne
  | flushMissed key keys hstage hl =>
    refine ⟨hs.wf, hs.held, fun keys' h k hk => ?_, by simp, by simp⟩
    have hne : k ≠ key := by
      rintro rfl
      rw [hl] at hk
      cases hk
    rw [← Stage.flushing.inj h]
    exact (List.mem_cons.1 (hs.flushing _ hstage k hk)).resolve_left hne
  | flushSpawned bucket keys hstage =>
    refine ⟨hs.wf, fun b hm => hs.held b (holding_abort hm), fun keys' h k hk => ?_, by simp, by simp⟩
    rw [← Stage.flushing.inj h]
    exact hs.holding bucket keys hstage k hk
  | closed hstage =>
    refine ⟨hs.wf, hs.held, by simp, by simp, fun _ k => ?_⟩
    by_contra hne
    cases hs.flushing [] hstage k (Option.isSome_iff_ne_none.2 hne)
  | returned hstage => exact ⟨hs.wf, hs.held, by simp, by simp, fun _ => hs.closed (Or.inl hstage)⟩
  | timedOut hstage => exact ⟨hs.wf, hs.held, by simp, by simp, fun _ => hs.closed (Or.inl hstage)⟩
  | started | completed => exact ⟨hs.wf, hs.held, hs.flushing, hs.holding, hs.closed⟩

theorem closing_run (C : AggregatorConfig) (G : Segmentation) (ops : List Op) :
    Closing C (run (step C G) init ops) :=
  run_inv_trans (fun _ _ _ => closing_trans)
    ⟨wf_new C, by simp [init], by simp [init], by simp [init], by simp [init]⟩ ops

/-- once the shutdown has begun, the events that the aggregator has are settled -/
theorem settled_run (C : AggregatorConfig) (G : Segmentation) {s : St} (hstage : s.stage ≠ .running) (ops : List Op) :
    (run (step C G) s ops).given = s.given ∧ (run (step C G) s ops).gone = s.gone := by
  have h : (run (step C G) s ops).stage ≠ .running ∧ (run (step C G) s ops).given = s.given ∧
      (run (step C G) s ops).gone = s.gone := by
    refine run_inv_trans (I := fun s' => s'.stage ≠ .running ∧ s'.given = s.given ∧ s'.gone = s.gone)
      (fun s₁ o s₂ h hs => ?_) ⟨hstage, rfl, rfl⟩ ops
    cases h with
    | added v hrunning => exact absurd hrunning hs.1
    | begun keys hrunning => exact absurd hrunning hs.1
    | took | missed | spawned | started | completed => exact hs
    | flushTook | flushMissed | flushSpawned | closed | returned | timedOut => exact ⟨by simp, hs.2⟩
  exact h.2

end

end NotifyAgent.Drain
