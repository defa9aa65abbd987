/-
The render tasks of a run, for any sink. A task is spawned with its toast, calls `sink.render` when it first runs, and
then takes the sink's steps; the log and the tasks tell the same story.

- `renders_trans`: a step spawns tasks, or starts one, or takes one sink step of one;
- `RendersLogged`: the calls in the log are those of the started tasks, and the sink's outputs in the log are theirs;
- `outsCounted_run`: and as often;
- `tasks_run`: what the sink keeps along its own steps holds of every task.
-/
import Mathlib.Tactic
import NotifyAgent.Core.Accounting

namespace NotifyAgent.Pipeline

open NotifyAgent.Notification NotifyAgent.Aggregator
open NotifyAgent.Lib.Ledger

variable {C : Config} {S : RenderSink} {s s' : St S} {o : Op S}

/-- entries about render tasks -/
def Event.ofRender : Event S → Bool
  | .rendered _ _ | .out _ _ => true
  | _ => false

/-- **What a step does to the render tasks.** -/
theorem renders_trans (h : Trans C s o s') :
    (∃ spawned events, s'.renders = s.renders ++ spawned ∧ (∀ r ∈ spawned, r.task = none ∧ r.outs = []) ∧
      s'.log = s.log ++ events ∧ ∀ e ∈ events, e.ofRender = false) ∨
    (∃ i r, s.renders[i]? = some r ∧ r.task = none ∧ s' = renderStarted s i r) ∨
    (∃ i r t t' label out, s.renders[i]? = some r ∧ r.task = some t ∧ S.step t label = some (t', out) ∧
      s' = sinkStepped s i r t' out) := by
  have hflush : ∀ key t, ∀ r ∈ flushRenders S key t, r.task = none ∧ r.outs = [] := by
    intro key t r hr
    obtain ⟨toast, _, rfl⟩ := List.mem_map.1 hr
    exact ⟨rfl, rfl⟩
  cases h with
  | renderStarted i r hr hnew => exact Or.inr (Or.inl ⟨i, r, hr, hnew, rfl⟩)
  | sinkStepped i r t t' label out hr ht hstep => exact Or.inr (Or.inr ⟨i, r, t, t', label, out, hr, ht, hstep, rfl⟩)
  | added w n =>
    refine Or.inl ⟨_, _, rfl, fun r hr => ?_, rfl, fun e he => ?_⟩
    · cases ha : (add C.aggregator C.libs.segmentation s.aggregator n).2 <;> rw [ha] at hr <;> simp [addRenders] at hr
      simp [hr]
    · cases ha : (add C.aggregator C.libs.segmentation s.aggregator n).2 <;> rw [ha] at he <;> simp [addEvents] at he
      · obtain ⟨m, _, rfl⟩ := he
        rfl
      · rw [he]
        rfl
  | fired key => exact Or.inl ⟨_, [], rfl, hflush key _, (List.append_nil _).symm, by simp⟩
  | flushedNext key keys => exact Or.inl ⟨_, [], rfl, hflush key _, (List.append_nil _).symm, by simp⟩
  | refused | received | exited | rejected | passed | suppressed | observed | ackEnded =>
    exact Or.inl ⟨[], _, (List.append_nil _).symm, by simp, rfl, by simp [Event.ofRender]⟩
  | enqueued | closed | shutdown | closing | drained =>
    exact Or.inl ⟨[], [], (List.append_nil _).symm, by simp, (List.append_nil _).symm, by simp⟩

/-! ## The log and the tasks -/

/-- the tickets of the events that the entry passes to the sink -/
def Event.called : Event S → Multiset ℕ
  | .rendered _ toast => tally ticketOf toast.sources
  | _ => 0

def Render.called (r : Render S) : Multiset ℕ := if r.task.isSome then tally ticketOf r.toast.sources else 0

/-- what the sink has put out, counted by `f` -/
def Event.outs {ι : Type*} (f : S.Out → Multiset ι) : Event S → Multiset ι
  | .out _ o => f o
  | _ => 0

/-- the entry, if it is something that task `i` put out -/
def Event.outOf (i : ℕ) : Event S → Option S.Out
  | .out j x => if j = i then some x else none
  | _ => none

theorem Event.called_eq_zero {e : Event S} (h : e.ofRender = false) : e.called = 0 := by
  cases e with
  | rendered => cases h
  | _ => rfl

theorem Event.outs_eq_zero {ι : Type*} (f : S.Out → Multiset ι) {e : Event S} (h : e.ofRender = false) :
    e.outs f = 0 := by
  cases e with
  | out => cases h
  | _ => rfl

theorem Event.outOf_eq_none {e : Event S} (h : e.ofRender = false) (i : ℕ) : e.outOf i = none := by
  cases e with
  | out => cases h
  | _ => rfl

/-- what task `i` has put out; nothing before it is spawned -/
def outsAt (s : St S) (i : ℕ) : List S.Out := ((s.renders[i]?).map Render.outs).getD []

structure RendersLogged (s : St S) : Prop where
  called : tally Event.called s.log = tally Render.called s.renders
  toast : ∀ i toast, .rendered i toast ∈ s.log → ∃ r, s.renders[i]? = some r ∧ r.task.isSome ∧ r.toast = toast
  outs : ∀ i, s.log.filterMap (Event.outOf i) = outsAt s i

theorem spawned_logged {spawned : List (Render S)} {events : List (Event S)} (hr : s'.renders = s.renders ++ spawned)
    (hnew : ∀ r ∈ spawned, r.task = none ∧ r.outs = []) (hl : s'.log = s.log ++ events)
    (hevents : ∀ e ∈ events, e.ofRender = false) (hs : RendersLogged s) : RendersLogged s' where
  called := by
    have hlog : tally Event.called events = 0 :=
      tally_eq_zero fun e he => Event.called_eq_zero (hevents e he)
    have hrenders : tally Render.called spawned = 0 :=
      tally_eq_zero fun r hr => by simp [Render.called, (hnew r hr).1]
    rw [hr, hl, tally_append, tally_append, hlog, hrenders, hs.called]
  toast i toast hm := by
    rw [hl] at hm
    rcases List.mem_append.1 hm with hm | hm
    · obtain ⟨r, hr', ht⟩ := hs.toast i toast hm
      exact ⟨r, hr ▸ getElem?_mono (List.prefix_append _ _) hr', ht⟩
    · cases hevents _ hm
  outs i := by
    have hlog : events.filterMap (Event.outOf i) = [] :=
      List.filterMap_eq_nil_iff.2 fun e he => Event.outOf_eq_none (hevents e he) i
    rw [hl, List.filterMap_append, hlog, List.append_nil, hs.outs, outsAt, outsAt, hr, List.getElem?_append]
    split_ifs with hi
    · rfl
    · rw [List.getElem?_eq_none (Nat.le_of_not_lt hi)]
      cases hn : spawned[i - s.renders.length]? with
      | none => rfl
      | some r => exact ((hnew r (List.mem_of_getElem? hn)).2).symm

theorem started_logged {i : ℕ} {r : Render S} (hr : s.renders[i]? = some r) (hnew : r.task = none)
    (hs : RendersLogged s) : RendersLogged (renderStarted s i r) where
  called := by
    have h := tally_set Render.called (y := { r with task := some (S.start r.toast) }) hr
    simp only [Render.called, hnew, Option.isSome_none, Option.isSome_some, Bool.false_eq_true, if_true, if_false,
      add_zero] at h
    simp only [renderStarted, tally_append, tally_cons, tally_nil, add_zero, Event.called, hs.called]
    exact h.symm
  toast j toast hm := by
    rcases List.mem_append.1 hm with hm | hm
    · obtain ⟨r', hr', hsome, ht⟩ := hs.toast j toast hm
      have hij : i ≠ j := by
        rintro rfl
        rw [← Option.some.inj (hr.symm.trans hr'), hnew] at hsome
        cases hsome
      exact ⟨r', by rw [renderStarted, List.getElem?_set_ne hij, hr'], hsome, ht⟩
    · cases List.mem_singleton.1 hm
      have hi := (List.getElem?_eq_some_iff.1 hr).1
      exact ⟨{ r with task := some (S.start r.toast) }, by rw [renderStarted, List.getElem?_set_self hi], rfl, rfl⟩
  outs j := by
    rw [renderStarted, List.filterMap_append, hs.outs]
    simp only [outsAt, List.getElem?_set]
    split_ifs with hij hi
    · subst hij
      simp [hr, Event.outOf]
    · subst hij
      simp [Event.outOf, List.getElem?_eq_none (Nat.le_of_not_lt hi)]
    · simp [Event.outOf]

theorem stepped_logged {i : ℕ} {r : Render S} {t t' : S.Task} (out : S.Out) (hr : s.renders[i]? = some r)
    (ht : r.task = some t) (hs : RendersLogged s) : RendersLogged (sinkStepped s i r t' out) where
  called := by
    have h := tally_set Render.called (y := { r with task := some t', outs := r.outs ++ [out] }) hr
    simp only [Render.called, ht, Option.isSome_some, if_true] at h
    simp only [sinkStepped, tally_append, tally_cons, tally_nil, add_zero, Event.called, hs.called]
    exact (add_right_cancel h).symm
  toast j toast hm := by
    rcases List.mem_append.1 hm with hm | hm
    · obtain ⟨r', hr', hsome, htoast⟩ := hs.toast j toast hm
      by_cases hij : i = j
      · subst hij
        have hi := (List.getElem?_eq_some_iff.1 hr).1
        refine ⟨{ r with task := some t', outs := r.outs ++ [out] },
          by rw [sinkStepped, List.getElem?_set_self hi], rfl, ?_⟩
        rw [← htoast, Option.some.inj (hr.symm.trans hr')]
      · exact ⟨r', by rw [sinkStepped, List.getElem?_set_ne hij, hr'], hsome, htoast⟩
    · cases List.mem_singleton.1 hm
  outs j := by
    rw [sinkStepped, List.filterMap_append, hs.outs]
    simp only [outsAt, List.getElem?_set]
    split_ifs with hij hi
    · subst hij
      simp [hr, Event.outOf]
    · subst hij
      exact absurd (List.getElem?_eq_some_iff.1 hr).1 hi
    · simp [Event.outOf, hij]

theorem rendersLogged_trans (h : Trans C s o s') (hs : RendersLogged s) : RendersLogged s' := by
  rcases renders_trans h with ⟨spawned, events, hr, hnew, hl, hevents⟩ | ⟨i, r, hr, hnew, rfl⟩ |
    ⟨i, r, t, t', label, out, hr, ht, _, rfl⟩
  · exact spawned_logged hr hnew hl hevents hs
  · exact started_logged hr hnew hs
  · exact stepped_logged out hr ht hs

theorem rendersLogged_run (C : Config) (S : RenderSink) (ops : List (Op S)) :
    RendersLogged (after C S ops) := by
  refine run_inv_trans (fun _ _ _ => rendersLogged_trans) ?_ ops
  exact ⟨rfl, by simp [init], fun i => by simp [init, outsAt]⟩

theorem RendersLogged.mem_out (hs : RendersLogged s) {i : ℕ} {x : S.Out} :
    .out i x ∈ s.log ↔ ∃ r, s.renders[i]? = some r ∧ x ∈ r.outs := by
  have hmem : x ∈ s.log.filterMap (Event.outOf i) ↔ .out i x ∈ s.log := by
    rw [List.mem_filterMap]
    constructor
    · rintro ⟨e, he, hx⟩
      cases e with
      | out j y =>
        simp only [Event.outOf] at hx
        split_ifs at hx with hij
        cases hx
        exact hij ▸ he
      | _ => cases hx
    · intro he
      exact ⟨_, he, by simp [Event.outOf]⟩
  rw [← hmem, hs.outs, outsAt]
  cases s.renders[i]? <;> simp

/-! ## Counting outputs -/

/-- what the sink has put out, counted by `f`, is in the log as often as with the tasks -/
def OutsCounted {ι : Type*} (f : S.Out → Multiset ι) (s : St S) : Prop :=
  tally (Event.outs f) s.log = tally (fun r => tally f r.outs) s.renders

theorem outsCounted_trans {ι : Type*} (f : S.Out → Multiset ι) (h : Trans C s o s') (hs : OutsCounted f s) :
    OutsCounted f s' := by
  rcases renders_trans h with ⟨spawned, events, hr, hnew, hl, hevents⟩ | ⟨i, r, hr, _, rfl⟩ |
    ⟨i, r, t, t', label, out, hr, _, _, rfl⟩
  · have hlog : tally (Event.outs f) events = 0 :=
      tally_eq_zero fun e he => Event.outs_eq_zero f (hevents e he)
    have hrenders : tally (fun r => tally f r.outs) spawned = 0 :=
      tally_eq_zero fun r hr => by rw [(hnew r hr).2]; rfl
    rw [OutsCounted, hr, hl, tally_append, tally_append, hlog, hrenders, hs]
  · have h := tally_set (fun r : Render S => tally f r.outs) (y := { r with task := some (S.start r.toast) }) hr
    have hlog : tally (Event.outs f) (renderStarted s i r).log = tally (Event.outs f) s.log := by
      simp [renderStarted, Event.outs]
    rw [OutsCounted, hlog, hs]
    exact (add_right_cancel h).symm
  · have h :=
      tally_set (fun r : Render S => tally f r.outs) (y := { r with task := some t', outs := r.outs ++ [out] }) hr
    have hlog : tally (Event.outs f) (sinkStepped s i r t' out).log = tally (Event.outs f) s.log + f out := by
      simp [sinkStepped, Event.outs]
    refine add_right_cancel (b := tally f r.outs) ?_
    rw [hlog, hs]
    simp only [tally_append, tally_cons, tally_nil, add_zero] at h
    rw [sinkStepped, h]
    abel

theorem outsCounted_run {ι : Type*} (C : Config) (f : S.Out → Multiset ι) (ops : List (Op S)) :
    OutsCounted f (after C S ops) :=
  run_inv_trans (fun _ _ _ => outsCounted_trans f) (show OutsCounted f (init C S) from rfl) ops

/-! ## The sink's own invariants -/

section
variable {P : ToastRequest Note → Option S.Task → List S.Out → Prop} (hnew : ∀ toast, P toast none [])
  (hstart : ∀ toast outs, P toast none outs → P toast (some (S.start toast)) outs)
  (hstep : ∀ toast t t' label out outs, S.step t label = some (t', out) → P toast (some t) outs →
    P toast (some t') (outs ++ [out]))

include hnew hstart hstep

theorem tasks_trans (h : Trans C s o s') (hs : ∀ r ∈ s.renders, P r.toast r.task r.outs) :
    ∀ r ∈ s'.renders, P r.toast r.task r.outs := by
  rcases renders_trans h with ⟨spawned, events, hr, hfresh, _, _⟩ | ⟨i, r, hr, hnone, rfl⟩ |
    ⟨i, r, t, t', label, out, hr, ht, hlabel, rfl⟩
  · intro r hm
    rw [hr] at hm
    rcases List.mem_append.1 hm with hm | hm
    · exact hs r hm
    · rw [(hfresh r hm).1, (hfresh r hm).2]
      exact hnew r.toast
  · intro r' hm
    rcases List.mem_or_eq_of_mem_set hm with hm | rfl
    · exact hs r' hm
    · exact hstart _ _ (hnone ▸ hs r (List.mem_of_getElem? hr))
  · intro r' hm
    rcases List.mem_or_eq_of_mem_set hm with hm | rfl
    · exact hs r' hm
    · exact hstep _ _ _ _ _ _ hlabel (ht ▸ hs r (List.mem_of_getElem? hr))

/-- **Invariant rule for render tasks.** What holds of a task before it runs, and is kept when it starts and by each
of the sink's steps, holds of every task of the run. -/
theorem tasks_run (C : Config) (ops : List (Op S)) : ∀ r ∈ (after C S ops).renders, P r.toast r.task r.outs :=
  run_inv_trans (I := fun s => ∀ r ∈ s.renders, P r.toast r.task r.outs)
    (fun _ _ _ => tasks_trans hnew hstart hstep) (by simp [init]) ops

end

end NotifyAgent.Pipeline
