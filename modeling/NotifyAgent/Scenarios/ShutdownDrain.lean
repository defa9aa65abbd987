/-
The drain of the aggregator's shutdown. The tracker knows the renders that have been spawned, not the timer tasks that
are about to spawn one: a timer task that has taken its bucket out of the map is seen neither by the key snapshot nor by
the wait.

- `taken_bucket_lost`: a timer task takes its bucket, and the shutdown returns at once, without rendering its event;
- `drained_iff`: in any run, what `add` had accepted when the shutdown began has been rendered when it returns if and
  only if no timer task then stands between the two steps of its flush.
-/
import Mathlib.Tactic
import NotifyAgent.Core.Drain

namespace NotifyAgent.ShutdownDrain

open NotifyAgent.Notification NotifyAgent.Aggregator NotifyAgent.Drain
open NotifyAgent.Lib.Ledger
open NotifyAgent.Lib.Machine (run run_append run_snoc run_cons)

/-- every event of the list is among those let go, or in a toast whose render has completed -/
def AllRendered (given gone : List Note) (renders : List Render) : Prop :=
  ∀ n ∈ given, n ∈ gone ∨ ∃ r ∈ renders, r.task = .completed ∧ n ∈ r.toast.sources

instance (given gone : List Note) (renders : List Render) : Decidable (AllRendered given gone renders) :=
  inferInstanceAs (Decidable (∀ n ∈ given, n ∈ gone ∨ ∃ r ∈ renders, r.task = .completed ∧ n ∈ r.toast.sources))

theorem allRendered_iff {C : AggregatorConfig} {s : St} (hs : Closing C s) (hp : places s = events s.given)
    (hnodup : (events s.given).Nodup) (hwait : s.stage = .waiting)
    (hall : s.renders.all (fun r => r.task.isCompleted) = true) :
    AllRendered s.given s.gone s.renders ↔ ∀ bucket, .holding bucket ∉ s.timers := by
  have hbuckets : holdings (fun b : Bucket Note => events b.events) s.inner.buckets = 0 := by
    refine Multiset.eq_zero_of_forall_notMem fun n hn => ?_
    obtain ⟨key, b, hb, _⟩ := mem_holdings.1 hn
    cases (hs.closed (Or.inl hwait) key).symm.trans hb
  -- what is left is with timer tasks, in renders, or gone
  have hgiven : events s.given = tally (fun t => events t.held) s.timers +
      (tally (fun r => events r.toast.sources) s.renders + events s.gone) := by
    rw [← hp, places, hbuckets, hwait]
    simp only [Stage.held, events_nil, zero_add, add_zero, add_assoc]
  constructor
  · intro h bucket hm
    obtain ⟨n, hn⟩ := List.exists_mem_of_ne_nil _ (hs.held bucket hm)
    have hheld : n ∈ tally (fun t => events t.held) s.timers := mem_tally.2 ⟨_, hm, mem_events.2 hn⟩
    have hdisjoint := (Multiset.nodup_add.1 (hgiven ▸ hnodup)).2.2
    refine Multiset.disjoint_left.1 hdisjoint hheld (Multiset.mem_add.2 ?_)
    have hin : n ∈ s.given := mem_events.1 (hgiven ▸ Multiset.mem_add.2 (Or.inl hheld))
    rcases h n hin with hgone | ⟨r, hr, _, hn⟩
    · exact Or.inr (mem_events.2 hgone)
    · exact Or.inl (mem_tally.2 ⟨r, hr, mem_events.2 hn⟩)
  · intro h n hn
    have hin : n ∈ events s.given := mem_events.2 hn
    rw [hgiven, Multiset.mem_add, Multiset.mem_add] at hin
    rcases hin with hheld | hrendered | hgone
    · obtain ⟨t, ht, hn⟩ := mem_tally.1 hheld
      cases t with
      | holding bucket => exact absurd ht (h bucket)
      | sleeping | ended | aborted => cases hn
    · obtain ⟨r, hr, hn⟩ := mem_tally.1 hrendered
      have hcompleted : r.task = .completed := by
        have := List.all_eq_true.1 hall r hr
        cases ht : r.task <;> rw [ht] at this <;> simp [RenderTask.isCompleted] at this ⊢
      exact Or.inr ⟨r, hr, hcompleted, mem_events.1 hn⟩
    · exact Or.inl (mem_events.1 hgone)

/-- **What the drain covers.** For every run that comes to the shutdown and returns from it by the wait: the events that
`add` had accepted before have all been rendered, their renders completed, if and only if no timer task was holding a
bucket when the wait returned. -/
theorem drained_iff (C : AggregatorConfig) (G : Segmentation) (before rest : List Op) (keys : List Key)
    (hbegin : (run (step C G) init (before ++ [.shutdown keys])).stage = .flushing keys)
    (hwait : (run (step C G) init (before ++ [.shutdown keys] ++ rest)).stage = .waiting)
    (hreturn : (run (step C G) init (before ++ [.shutdown keys] ++ rest ++ [.waitReturn])).stage = .returned) :
    AllRendered (run (step C G) init before).given (run (step C G) init before).gone
        (run (step C G) init (before ++ [.shutdown keys] ++ rest ++ [.waitReturn])).renders ↔
      ∀ bucket, .holding bucket ∉ (run (step C G) init (before ++ [.shutdown keys] ++ rest)).timers := by
  have hall : (run (step C G) init (before ++ [.shutdown keys] ++ rest)).renders.all (fun r => r.task.isCompleted) =
      true := by
    rw [run_snoc] at hreturn
    simp only [step] at hreturn
    split_ifs at hreturn with h
    · exact h.2
    · cases hwait.symm.trans hreturn
  have hrenders : (run (step C G) init (before ++ [.shutdown keys] ++ rest ++ [.waitReturn])).renders =
      (run (step C G) init (before ++ [.shutdown keys] ++ rest)).renders := by
    rw [run_snoc]
    simp only [step]
    split_ifs <;> rfl
  have hsame : (run (step C G) init (before ++ [.shutdown keys])).given = (run (step C G) init before).given ∧
      (run (step C G) init (before ++ [.shutdown keys])).gone = (run (step C G) init before).gone := by
    rw [run_snoc]
    simp only [step]
    split_ifs <;> exact ⟨rfl, rfl⟩
  have hsettled := settled_run C G (s := run (step C G) init (before ++ [.shutdown keys])) (by simp [hbegin]) rest
  rw [← run_append] at hsettled
  rw [hrenders, ← hsame.1, ← hsame.2, ← hsettled.1, ← hsettled.2]
  exact allRendered_iff (closing_run C G _) (places_run C G _) (given_nodup C G _) hwait hall

/-! ## Two schedules -/

def defaults : AggregatorConfig := ⟨100, 2000, 10000, 5000⟩

def buildFinished : InboundNotification where
  seq := 1
  eventId := "e1".toList
  userId := ['u']
  title := "done".toList
  message := ['m']
  secondaryText := none
  actionLabel := none
  actionUrl := none
  image := none
  priority := .normal
  aggregationKey := ['k']
  deduplicationKey := "e1".toList
  replaceable := false
  producerCreatedAt := none
  serverPublishedAt := none
  receivedAt := 0

/-- **A lost toast.** The timer task has taken its bucket when the shutdown reads the keys; the shutdown finds nothing
to flush and nothing to wait for, and returns. -/
theorem taken_bucket_lost :
    (run (step defaults singletons) init
      [.add buildFinished, .timerTake 0, .shutdown [], .close, .waitReturn]).stage = .returned ∧
    ¬ AllRendered (run (step defaults singletons) init [.add buildFinished, .timerTake 0]).given
      (run (step defaults singletons) init [.add buildFinished, .timerTake 0]).gone
      (run (step defaults singletons) init
        [.add buildFinished, .timerTake 0, .shutdown [], .close, .waitReturn]).renders := by
  decide +kernel

/-- the same, but the timer task spawns its render before the tracker is closed -/
theorem drained_iff_spawned :
    AllRendered (run (step defaults singletons) init [.add buildFinished, .timerTake 0]).given
        (run (step defaults singletons) init [.add buildFinished, .timerTake 0]).gone
        (run (step defaults singletons) init ([.add buildFinished, .timerTake 0] ++ [.shutdown []] ++
          [.timerSpawn 0, .close, .renderStart 0, .renderEnd 0] ++ [.waitReturn])).renders ↔
      ∀ bucket, .holding bucket ∉ (run (step defaults singletons) init ([.add buildFinished, .timerTake 0] ++
        [.shutdown []] ++ [.timerSpawn 0, .close, .renderStart 0, .renderEnd 0])).timers :=
  drained_iff defaults singletons [.add buildFinished, .timerTake 0]
    [.timerSpawn 0, .close, .renderStart 0, .renderEnd 0]
    [] (by decide +kernel) (by decide +kernel) (by decide +kernel)

end NotifyAgent.ShutdownDrain
