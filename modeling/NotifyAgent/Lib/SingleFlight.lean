/-
Callers that share one run for each key. The first caller of a key starts a run; callers that come while it goes on wait
for it and get its result. Once a run is over the next caller starts another.

- `Sound`, `one_flight`: the runs that are not over are those in the map, one for a key;
- `sound_join`, `sound_advance`, `sound_finish`: each operation keeps it;
- `join_old`, `join_cases`, `joined`: a caller waits for a run of its key that is not over;
- `Kept`: a run keeps its key, and one that is over stays as it is.
-/
import Mathlib.Tactic
import NotifyAgent.Lib.SharedLog

namespace NotifyAgent.Lib.SingleFlight

open NotifyAgent.Lib.SharedLog (started_cases set_cases)

variable {κ σ : Type*} [DecidableEq κ]

/-! ## The group -/

/-- `flights`: every run so far, with its key -/
structure Group (κ σ : Type*) where
  running : κ → Option ℕ
  flights : List (κ × σ)

def empty : Group κ σ := ⟨fun _ => none, []⟩

/-- the run that a caller of the key waits for -/
def flightOf (g : Group κ σ) (key : κ) : ℕ := (g.running key).getD g.flights.length

/-- a caller of the key; without a run of it, one starts -/
def join (g : Group κ σ) (key : κ) (start : σ) : Group κ σ :=
  match g.running key with
  | some _ => g
  | none => ⟨Function.update g.running key (some g.flights.length), g.flights ++ [(key, start)]⟩

/-- a run goes on -/
def advance (g : Group κ σ) (i : ℕ) (key : κ) (a : σ) : Group κ σ := { g with flights := g.flights.set i (key, a) }

/-- a run is over, and leaves the map -/
def finish (g : Group κ σ) (i : ℕ) (key : κ) (a : σ) : Group κ σ :=
  ⟨Function.update g.running key none, g.flights.set i (key, a)⟩

/-! ## What holds -/

structure Sound (ended : σ → Prop) (g : Group κ σ) : Prop where
  running_iff : ∀ key i, g.running key = some i ↔ ∃ a, g.flights[i]? = some (key, a) ∧ ¬ ended a

variable {ended : σ → Prop} {g : Group κ σ} {key : κ} {a b : σ} {i j : ℕ}

omit [DecidableEq κ] in
/-- **One run for a key** is going on at most. -/
theorem one_flight (h : Sound ended g) (hi : g.flights[i]? = some (key, a)) (hj : g.flights[j]? = some (key, b))
    (ha : ¬ ended a) (hb : ¬ ended b) : i = j := by
  have hi' := (h.running_iff key i).2 ⟨a, hi, ha⟩
  have hj' := (h.running_iff key j).2 ⟨b, hj, hb⟩
  exact Option.some.inj (hi'.symm.trans hj')

omit [DecidableEq κ] in
theorem sound_empty : Sound ended (empty : Group κ σ) where
  running_iff key i := by simp [empty]

theorem join_idle (h : g.running key = none) :
    join g key a = ⟨Function.update g.running key (some g.flights.length), g.flights ++ [(key, a)]⟩ := by
  rw [join, h]

theorem join_running (h : g.running key = some i) : join g key a = g := by
  rw [join, h]

theorem sound_join (h : Sound ended g) (ha : ¬ ended a) : Sound ended (join g key a) := by
  cases hr : g.running key with
  | some i => rwa [join_running hr]
  | none =>
    rw [join_idle hr]
    refine ⟨fun k j => ?_⟩
    simp only
    by_cases hk : k = key
    · subst hk
      rw [Function.update_self]
      constructor
      · intro hj
        cases hj
        exact ⟨a, List.getElem?_concat_length, ha⟩
      · rintro ⟨b, hb, hnot⟩
        rcases started_cases hb with hb | ⟨_, rfl⟩
        · have := (h.running_iff k j).2 ⟨b, hb, hnot⟩
          rw [hr] at this
          cases this
        · rfl
    · rw [Function.update_of_ne hk, h.running_iff]
      constructor
      · rintro ⟨b, hb, hnot⟩
        exact ⟨b, (List.getElem?_append_left (List.getElem?_eq_some_iff.1 hb).1).trans hb, hnot⟩
      · rintro ⟨b, hb, hnot⟩
        rcases started_cases hb with hb | ⟨heq, _⟩
        · exact ⟨b, hb, hnot⟩
        · exact absurd (Prod.ext_iff.1 heq).1 hk

omit [DecidableEq κ] in
/-- the other runs stay as they are -/
theorem flight_iff_of_ne (hij : i ≠ j) {k : κ} {c : σ} :
    (g.flights.set i (key, a))[j]? = some (k, c) ↔ g.flights[j]? = some (k, c) := by
  rw [List.getElem?_set_ne hij]

omit [DecidableEq κ] in
theorem sound_advance (h : Sound ended g) (hi : g.flights[i]? = some (key, a)) (ha : ¬ ended a) (hb : ¬ ended b) :
    Sound ended (advance g i key b) := by
  refine ⟨fun k j => ?_⟩
  rw [advance, h.running_iff]
  by_cases hij : i = j
  · subst hij
    rw [List.getElem?_set_self (List.getElem?_eq_some_iff.1 hi).1, hi]
    constructor
    · rintro ⟨c, hc, -⟩
      cases hc
      exact ⟨b, rfl, hb⟩
    · rintro ⟨c, hc, -⟩
      cases hc
      exact ⟨a, rfl, ha⟩
  · simp only [flight_iff_of_ne hij]

theorem sound_finish (h : Sound ended g) (hi : g.flights[i]? = some (key, a)) (ha : ¬ ended a) (hb : ended b) :
    Sound ended (finish g i key b) := by
  have hrun := (h.running_iff key i).2 ⟨a, hi, ha⟩
  refine ⟨fun k j => ?_⟩
  simp only [finish]
  by_cases hk : k = key
  · subst hk
    rw [Function.update_self]
    refine iff_of_false (fun hj => by cases hj) ?_
    rintro ⟨c, hc, hnot⟩
    rcases set_cases hc with ⟨_, heq⟩ | ⟨hij, hc⟩
    · cases heq
      exact hnot hb
    · have hj := (h.running_iff k j).2 ⟨c, hc, hnot⟩
      exact hij (Option.some.inj (hrun.symm.trans hj))
  · rw [Function.update_of_ne hk, h.running_iff]
    by_cases hij : i = j
    · subst hij
      rw [List.getElem?_set_self (List.getElem?_eq_some_iff.1 hi).1, hi]
      constructor <;> rintro ⟨c, hc, -⟩ <;> cases hc <;> exact absurd rfl hk
    · simp only [flight_iff_of_ne hij]

/-- a run that was there is still there -/
theorem join_old {e : κ × σ} (h : g.flights[i]? = some e) : (join g key a).flights[i]? = some e := by
  cases hr : g.running key with
  | some _ => rwa [join_running hr]
  | none =>
    rw [join_idle hr]
    exact (List.getElem?_append_left (List.getElem?_eq_some_iff.1 h).1).trans h

/-- a run was there, or starts -/
theorem join_cases {e : κ × σ} (h : (join g key a).flights[i]? = some e) :
    g.flights[i]? = some e ∨ e = (key, a) := by
  cases hr : g.running key with
  | some _ =>
    rw [join_running hr] at h
    exact Or.inl h
  | none =>
    rw [join_idle hr] at h
    rcases started_cases h with h | ⟨rfl, -⟩
    · exact Or.inl h
    · exact Or.inr rfl

/-- **A caller waits** for a run of its key that is not over. -/
theorem joined (h : Sound ended g) (ha : ¬ ended a) :
    ∃ b, (join g key a).flights[flightOf g key]? = some (key, b) ∧ ¬ ended b := by
  cases hr : g.running key with
  | some i =>
    rw [join_running hr, flightOf, hr]
    exact (h.running_iff key i).1 hr
  | none =>
    rw [join_idle hr, flightOf, hr]
    exact ⟨a, List.getElem?_concat_length, ha⟩

/-! ## What is kept -/

/-- the runs are still there with their keys, and those that were over are unchanged -/
def Kept (ended : σ → Prop) (g g' : Group κ σ) : Prop :=
  ∀ (i : ℕ) (key : κ) (a : σ), g.flights[i]? = some (key, a) →
    ∃ b, g'.flights[i]? = some (key, b) ∧ (ended a → b = a)

omit [DecidableEq κ] in
/-- a run that was not over has gone on -/
theorem kept_set (hi : g.flights[i]? = some (key, a)) (ha : ¬ ended a) (running : κ → Option ℕ) (b : σ) :
    Kept ended g ⟨running, g.flights.set i (key, b)⟩ := by
  intro j k c hc
  by_cases hij : i = j
  · subst hij
    cases hi.symm.trans hc
    exact ⟨b, List.getElem?_set_self (List.getElem?_eq_some_iff.1 hi).1, fun hended => absurd hended ha⟩
  · exact ⟨c, (List.getElem?_set_ne hij).trans hc, fun _ => rfl⟩

end NotifyAgent.Lib.SingleFlight
