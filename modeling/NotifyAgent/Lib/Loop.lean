/-
While loops with a variant, and loops over a list. `whileLoop cond body variant` runs `while cond { body }` on a budget
that the variant gives; as long as every round lowers the variant, the budget is never felt. `sweep f s keys` applies
`f` to each key in turn and collects what it gives.

- `whileLoop_unfold`: the loop is its own first round followed by the loop;
- `whileLoop_rule`: what every round keeps holds at the end, where the condition is false;
- `sweep_out`: a round that leaves the other keys alone gives what it would have given at the start;
- `sweep_open`, `sweep_empties`: a round that closes its key and opens none leaves none of the keys open.
-/
import Mathlib.Tactic

namespace NotifyAgent.Lib.Loop

variable {σ : Type*}

/-- at most `budget` rounds of `while cond { body }` -/
def rounds (cond : σ → Bool) (body : σ → σ) : ℕ → σ → σ
  | 0, s => s
  | budget + 1, s => if cond s then rounds cond body budget (body s) else s

def whileLoop (cond : σ → Bool) (body : σ → σ) (variant : σ → ℕ) (s : σ) : σ := rounds cond body (variant s) s

section
variable {cond : σ → Bool} {body : σ → σ} {variant : σ → ℕ}
  (hvariant : ∀ s, cond s = true → variant (body s) < variant s)
include hvariant

/-- a budget beyond the variant changes nothing -/
theorem rounds_eq_whileLoop {s : σ} {budget : ℕ} (h : variant s ≤ budget) :
    rounds cond body budget s = whileLoop cond body variant s := by
  suffices hall : ∀ a b s, variant s ≤ a → variant s ≤ b → rounds cond body a s = rounds cond body b s from
    hall _ _ s h le_rfl
  intro a
  induction a with
  | zero =>
    intro b s ha _
    have hcond : cond s ≠ true := fun hc => absurd (hvariant s hc) (by omega)
    cases b <;> simp [rounds, hcond]
  | succ a ih =>
    intro b s ha hb
    by_cases hc : cond s = true
    · have hlt := hvariant s hc
      obtain ⟨b, rfl⟩ : ∃ b', b = b' + 1 := ⟨b - 1, by omega⟩
      simp only [rounds, hc, if_true]
      exact ih b (body s) (by omega) (by omega)
    · cases b <;> simp [rounds, hc]

theorem whileLoop_unfold (s : σ) :
    whileLoop cond body variant s = if cond s then whileLoop cond body variant (body s) else s := by
  rw [← rounds_eq_whileLoop hvariant (Nat.le_succ (variant s)), rounds]
  split_ifs with hc
  · exact rounds_eq_whileLoop hvariant (hvariant s hc).le
  · rfl

/-- **While rule.** -/
theorem whileLoop_rule {I : σ → Prop} (hstep : ∀ s, cond s = true → I s → I (body s)) {s : σ} (h : I s) :
    I (whileLoop cond body variant s) ∧ cond (whileLoop cond body variant s) = false := by
  induction hn : variant s using Nat.strong_induction_on generalizing s with
  | _ n ih =>
    rw [whileLoop_unfold hvariant]
    split_ifs with hc
    · exact ih _ (hn ▸ hvariant s hc) (hstep s hc h) rfl
    · exact ⟨h, by simpa using hc⟩

end

/-! ## Loops over keys -/

section
variable {κ τ : Type*} (f : σ → κ → σ × Option τ)

def sweep (s : σ) : List κ → σ × List τ
  | [] => (s, [])
  | key :: keys => ((sweep (f s key).1 keys).1, (f s key).2.toList ++ (sweep (f s key).1 keys).2)

variable {f}

theorem sweep_out {view : σ → κ → Option τ} (hout : ∀ s k, (f s k).2 = view s k)
    (hframe : ∀ s k k', k' ≠ k → view (f s k).1 k' = view s k') {keys : List κ} (hnd : keys.Nodup) (s : σ) :
    (sweep f s keys).2 = keys.filterMap (view s) := by
  induction keys generalizing s with
  | nil => rfl
  | cons key keys ih =>
    obtain ⟨hnot, hrest⟩ := List.nodup_cons.1 hnd
    have hsame : keys.filterMap (view (f s key).1) = keys.filterMap (view s) := by
      apply List.filterMap_congr
      intro k hk
      exact hframe s key k fun h => hnot (h ▸ hk)
    rw [sweep, ih hrest, hsame, hout]
    cases hv : view s key <;> simp [hv]

theorem sweep_open {isOpen : σ → κ → Prop} (hclose : ∀ s k k', isOpen (f s k).1 k' → isOpen s k' ∧ k' ≠ k)
    (keys : List κ) (s : σ) (k : κ) (h : isOpen (sweep f s keys).1 k) : isOpen s k ∧ k ∉ keys := by
  induction keys generalizing s with
  | nil => exact ⟨h, List.not_mem_nil⟩
  | cons key keys ih =>
    obtain ⟨hrest, hnot⟩ := ih _ h
    obtain ⟨hs, hne⟩ := hclose s key k hrest
    exact ⟨hs, by simp [hne, hnot]⟩

/-- a sweep over the keys of a map whose rounds each remove their own key leaves the map empty -/
theorem sweep_empties {β : Type*} [DecidableEq κ] {view : σ → κ → Option β}
    (hremove : ∀ s k k', view (f s k).1 k' = if k' = k then none else view s k') {keys : List κ} {s : σ}
    (hkeys : ∀ k, view s k ≠ none → k ∈ keys) (k : κ) : view (sweep f s keys).1 k = none := by
  have hclose : ∀ s k k', view (f s k).1 k' ≠ none → view s k' ≠ none ∧ k' ≠ k := by
    intro s k k' hopen
    rw [hremove] at hopen
    split_ifs at hopen with hk
    · exact absurd rfl hopen
    · exact ⟨hopen, hk⟩
  by_contra hopen
  obtain ⟨hs, hnot⟩ := @sweep_open _ _ _ f (fun s k => view s k ≠ none) hclose keys s k hopen
  exact hnot (hkeys k hs)

/-- what every round keeps, the loop keeps -/
theorem sweep_inv {I : σ → Prop} (hstep : ∀ s k, I s → I (f s k).1) (keys : List κ) {s : σ} (h : I s) :
    I (sweep f s keys).1 := by
  induction keys generalizing s with
  | nil => exact h
  | cons key keys ih => exact ih (hstep s key h)

end

end NotifyAgent.Lib.Loop
