/-
Runs of a total step function, and the rules used on them. An operation that is not enabled leaves the state
unchanged, so every list of operations is a run and no run is excluded by the model.

- `run_inv` / `run_inv_of`: the invariant rule, plain and relative to a second invariant already established;
- `run_inv_meeting`: the invariant rule for runs all of whose steps meet a condition on the state they start from
  (`Meets`), which is what a conditional result about runs needs;
- `run_inv_at`: the invariant rule where a step may use where in the run it stands;
- `meets_iff_inv`: where meeting the condition is exactly keeping the invariant, the two agree on runs;
- `run_log`: a list that every step only extends is extended by the run, so what a run recorded stays recorded;
- `Preceded`, `preceded_append`: a history in which every entry comes after what it needs;
- `run_map`: a step-by-step simulation lifts to runs.
-/
import Mathlib.Tactic

namespace NotifyAgent.Lib.Machine

variable {σ τ ω : Type*} (step : σ → ω → σ)

/-- run a list of operations from a state -/
def run (s : σ) (ops : List ω) : σ := ops.foldl step s

@[simp] theorem run_nil (s : σ) : run step s [] = s := rfl

theorem run_cons (s : σ) (o : ω) (ops : List ω) : run step s (o :: ops) = run step (step s o) ops := rfl

theorem run_append (s : σ) (a b : List ω) : run step s (a ++ b) = run step (run step s a) b := by
  simp [run, List.foldl_append]

theorem run_snoc (s : σ) (ops : List ω) (o : ω) : run step s (ops ++ [o]) = step (run step s ops) o := by
  simp [run, List.foldl_append]

/-- a state that gathers each of the operations gathers them all -/
theorem run_gathered {f : List ω → σ} {ops : List ω} (h : ∀ acc, ∀ o ∈ ops, step (f acc) o = f (acc ++ [o]))
    (acc : List ω) :
    run step (f acc) ops = f (acc ++ ops) := by
  induction ops generalizing acc with
  | nil => rw [run_nil, List.append_nil]
  | cons o ops ih =>
    rw [run_cons, h acc o List.mem_cons_self, ih fun acc o' ho' => h acc o' (List.mem_cons_of_mem _ ho')]
    rw [List.append_assoc, List.singleton_append]

/-! ## Invariants -/

/-- **Invariant rule.** -/
theorem run_inv {I : σ → Prop} (hstep : ∀ s o, I s → I (step s o)) {s : σ} (h : I s) (ops : List ω) :
    I (run step s ops) := by
  induction ops generalizing s with
  | nil => exact h
  | cons o ops ih => exact ih (hstep s o h)

/-- the invariant rule relative to an invariant `J` that the steps are known to keep -/
theorem run_inv_of {I J : σ → Prop} (hJ : ∀ s o, J s → J (step s o))
    (hstep : ∀ s o, J s → I s → I (step s o)) {s : σ} (hj : J s) (h : I s) (ops : List ω) :
    I (run step s ops) :=
  (run_inv step (I := fun s => J s ∧ I s) (fun s o hs => ⟨hJ s o hs.1, hstep s o hs.1 hs.2⟩) ⟨hj, h⟩ ops).2

/-- **Invariant rule with the place of a step.** The run that a step is part of is known. -/
theorem run_inv_at {I : σ → Prop} {s : σ} {ops : List ω} (h : I s)
    (hstep : ∀ before o later, ops = before ++ o :: later → I (run step s before) → I (step (run step s before) o)) :
    I (run step s ops) := by
  suffices hpre : ∀ before later, ops = before ++ later → I (run step s before) from
    hpre ops [] (List.append_nil ops).symm
  intro before
  induction before using List.reverseRecOn with
  | nil => exact fun _ _ => h
  | append_singleton before o ih =>
    intro later heq
    have heq' : ops = before ++ o :: later := by rw [heq, List.append_assoc, List.singleton_append]
    rw [run_snoc]
    exact hstep before o later heq' (ih (o :: later) heq')

/-- every step of the run meets `ok` in the state it starts from -/
def Meets (ok : σ → ω → Prop) : σ → List ω → Prop
  | _, [] => True
  | s, o :: ops => ok s o ∧ Meets ok (step s o) ops

instance Meets.decidable {ok : σ → ω → Prop} [∀ s o, Decidable (ok s o)] :
    (s : σ) → (ops : List ω) → Decidable (Meets step ok s ops)
  | _, [] => .isTrue trivial
  | s, o :: ops => @instDecidableAnd _ _ _ (Meets.decidable (step s o) ops)

/-- what a step of the run meets -/
theorem meets_at {ok : σ → ω → Prop} {s : σ} {before later : List ω} {o : ω}
    (h : Meets step ok s (before ++ o :: later)) : ok (run step s before) o := by
  induction before generalizing s with
  | nil => exact h.1
  | cons o' before ih => exact ih h.2

/-- a condition on the operations alone -/
theorem meets_of_forall {p : ω → Prop} {ops : List ω} (h : ∀ o ∈ ops, p o) (s : σ) :
    Meets step (fun _ o => p o) s ops := by
  induction ops generalizing s with
  | nil => trivial
  | cons o ops ih => exact ⟨h o (by simp), ih (fun o' ho' => h o' (by simp [ho'])) _⟩

/-- **Invariant rule for conditioned runs.** -/
theorem run_inv_meeting {I : σ → Prop} {ok : σ → ω → Prop} (hstep : ∀ s o, ok s o → I s → I (step s o))
    {s : σ} (h : I s) (ops : List ω) (hok : Meets step ok s ops) : I (run step s ops) := by
  induction ops generalizing s with
  | nil => exact h
  | cons o ops ih => exact ih (hstep s o hok.1 h) hok.2

/-- **Exact condition rule.** If a step keeps `I` exactly when it meets `ok`, the runs all of whose steps meet `ok` are
those in which `I` holds all the way. -/
theorem meets_iff_inv {I J : σ → Prop} {ok : σ → ω → Prop} (hJ : ∀ s o, J s → J (step s o))
    (hstep : ∀ s o, J s → I s → (ok s o ↔ I (step s o))) {s : σ} (hj : J s) (h : I s) (ops : List ω) :
    Meets step ok s ops ↔ ∀ pre, pre <+: ops → I (run step s pre) := by
  induction ops generalizing s with
  | nil =>
    constructor
    · intro _ pre hpre
      rw [List.prefix_nil.1 hpre]
      exact h
    · intro _
      trivial
  | cons o ops ih =>
    constructor
    · intro hmeets pre hpre
      cases pre with
      | nil => exact h
      | cons o' pre =>
        obtain ⟨rfl, hrest⟩ := List.cons_prefix_cons.1 hpre
        exact (ih (hJ s o' hj) ((hstep s o' hj h).1 hmeets.1)).1 hmeets.2 pre hrest
    · intro hall
      have hnext : I (step s o) := hall [o] (List.cons_prefix_cons.2 ⟨rfl, List.nil_prefix⟩)
      refine ⟨(hstep s o hj h).2 hnext, (ih (hJ s o hj) hnext).2 ?_⟩
      intro pre hpre
      exact hall (o :: pre) (List.cons_prefix_cons.2 ⟨rfl, hpre⟩)

/-! ## Recorded histories and simulations -/

/-- a list that each step only extends is a prefix of what it is after any run -/
theorem run_log {α : Type*} {log : σ → List α} (hstep : ∀ s o, log s <+: log (step s o)) (s : σ) (ops : List ω) :
    log s <+: log (run step s ops) := by
  induction ops generalizing s with
  | nil => exact List.prefix_refl _
  | cons o ops ih => exact (hstep s o).trans (ih _)

/-- every entry of a history meets `need` on what came before it -/
def Preceded {α : Type*} (need : List α → α → Prop) (l : List α) : Prop :=
  ∀ pre e post, l = pre ++ e :: post → need pre e

theorem preceded_append {α : Type*} {need : List α → α → Prop} {a b : List α} (ha : Preceded need a)
    (hb : ∀ pre e post, b = pre ++ e :: post → need (a ++ pre) e) : Preceded need (a ++ b) := by
  intro pre e post heq
  rcases List.append_eq_append_iff.1 heq with ⟨c, hpre, hb'⟩ | ⟨c, ha', hpost⟩
  · rw [hpre]
    exact hb c e post hb'
  · cases c with
    | nil =>
      simp only [List.append_nil] at ha'
      rw [List.nil_append] at hpost
      have := hb [] e post hpost.symm
      rwa [List.append_nil, ha'] at this
    | cons e' c =>
      rw [List.cons_append, List.cons.injEq] at hpost
      rw [← hpost.1] at ha'
      exact ha pre e c ha'

/-- **Simulation rule.** If `f` maps each step to a step of the second machine, it maps each run to a run. -/
theorem run_map {ω' : Type*} {step' : τ → ω' → τ} {f : σ → τ} {g : ω → ω'}
    (h : ∀ s o, f (step s o) = step' (f s) (g o)) (s : σ) (ops : List ω) :
    f (run step s ops) = run step' (f s) (ops.map g) := by
  induction ops generalizing s with
  | nil => rfl
  | cons o ops ih => rw [run_cons, ih, h]; rfl

end NotifyAgent.Lib.Machine
