/-
Processes that report to one log. Each process has an index and each entry is about one index at most; `Logged` says
that the entries about a process, in their order, are what its state says they are.

- `logged_nil`, `logged_aside`, `logged_started`, `logged_went`: the log at the start, and when something else, a new
  process or a process that goes on is reported;
- `started_cases`, `started_toList`, `set_cases`, `map_set_same`: the processes after that.
-/
import Mathlib.Tactic

namespace NotifyAgent.Lib.SharedLog

variable {ρ ε : Type*}

/-- `about i e`: the entry is about process `i`; `R i r l`: what the log may say of a process in state `r` -/
structure Logged (about : ℕ → ε → Bool) (R : ℕ → ρ → List ε → Prop) (processes : List ρ) (log : List ε) : Prop where
  reported : ∀ i r, processes[i]? = some r → R i r (log.filter (about i))
  fresh : ∀ i, processes.length ≤ i → log.filter (about i) = []

variable {about : ℕ → ε → Bool} {R : ℕ → ρ → List ε → Prop} {processes : List ρ} {log : List ε}

theorem logged_nil : Logged about R ([] : List ρ) [] := ⟨fun _ _ h => by simp at h, fun _ _ => rfl⟩

/-- entries about no process -/
theorem logged_aside {events : List ε} (h : Logged about R processes log)
    (haside : ∀ i, events.filter (about i) = []) : Logged about R processes (log ++ events) where
  reported i r hr := by
    rw [List.filter_append, haside, List.append_nil]
    exact h.reported i r hr
  fresh i hi := by
    rw [List.filter_append, haside, List.append_nil]
    exact h.fresh i hi

theorem started_cases {r q : ρ} {i : ℕ} (h : (processes ++ [q])[i]? = some r) :
    processes[i]? = some r ∨ (r = q ∧ i = processes.length) := by
  rw [List.getElem?_append] at h
  split_ifs at h with hi
  · exact Or.inl h
  · obtain ⟨hi', hr⟩ := List.getElem?_eq_some_iff.1 h
    rw [List.length_singleton] at hi'
    rw [List.getElem_singleton] at hr
    exact Or.inr ⟨hr.symm, by omega⟩

/-- a process starts if there is something to do -/
theorem started_toList {α : Type*} {o : Option α} {f : α → ρ} {r : ρ} {i : ℕ}
    (h : (processes ++ o.toList.map f)[i]? = some r) :
    processes[i]? = some r ∨ ∃ a, o = some a ∧ r = f a ∧ i = processes.length := by
  cases o with
  | none =>
    rw [Option.toList_none, List.map_nil, List.append_nil] at h
    exact Or.inl h
  | some a =>
    rcases started_cases h with h | ⟨hr, hi⟩
    · exact Or.inl h
    · exact Or.inr ⟨a, rfl, hr, hi⟩

/-- a process starts, and nothing is reported of it yet -/
theorem logged_started {q : ρ} (h : Logged about R processes log) (hq : ∀ i, R i q []) :
    Logged about R (processes ++ [q]) log where
  reported i r hr := by
    rcases started_cases hr with hr | ⟨rfl, rfl⟩
    · exact h.reported i r hr
    · rw [h.fresh _ le_rfl]
      exact hq _
  fresh i hi := by
    rw [List.length_append] at hi
    exact h.fresh i (Nat.le_of_add_right_le hi)

theorem set_cases {r' q : ρ} {i j : ℕ} (h : (processes.set i r')[j]? = some q) :
    (i = j ∧ q = r') ∨ (i ≠ j ∧ processes[j]? = some q) := by
  rw [List.getElem?_set] at h
  split_ifs at h with hij
  · exact Or.inl ⟨hij, (Option.some.inj h).symm⟩
  · exact Or.inr ⟨hij, h⟩

/-- what a process that goes on keeps, all keep -/
theorem map_set_same {β : Type*} {f : ρ → β} {i : ℕ} {r r' : ρ} (hr : processes[i]? = some r) (hf : f r' = f r) :
    (processes.set i r').map f = processes.map f := by
  obtain ⟨hi, rfl⟩ := List.getElem?_eq_some_iff.1 hr
  apply List.ext_getElem?
  intro j
  rw [List.map_set, hf, List.getElem?_set]
  split_ifs with hij hlt
  · rw [← hij, List.getElem?_map, hr]
    rfl
  · rw [← hij, List.getElem?_eq_none (by simpa using hlt)]
  · rfl

/-- a process goes on, with an entry about it -/
theorem logged_went {i : ℕ} {r r' : ρ} {e : ε} (h : Logged about R processes log) (hr : processes[i]? = some r)
    (he : ∀ j, about j e = (i == j)) (hrep : ∀ l, R i r l → R i r' (l ++ [e])) :
    Logged about R (processes.set i r') (log ++ [e]) := by
  have hfilter : ∀ j, (log ++ [e]).filter (about j) = log.filter (about j) ++ if i = j then [e] else [] := by
    intro j
    rw [List.filter_append, List.filter_singleton, he]
    by_cases hij : i = j
    · simp [hij]
    · simp [hij, beq_eq_false_iff_ne.2 hij]
  refine ⟨fun j q hq => ?_, fun j hj => ?_⟩ <;> rw [hfilter]
  · rcases set_cases hq with ⟨rfl, rfl⟩ | ⟨hij, hq⟩
    · rw [if_pos rfl]
      exact hrep _ (h.reported i r hr)
    · rw [if_neg hij, List.append_nil]
      exact h.reported j q hq
  · rw [List.length_set] at hj
    have hlt := (List.getElem?_eq_some_iff.1 hr).1
    rw [if_neg (by omega), List.append_nil]
    exact h.fresh j hj

end NotifyAgent.Lib.SharedLog
