/-
Finite maps: what is left when a key goes, and two maps that are kept in step, with the same keys in the same order and
related entries.

- `lookup_gone`: a map without one key;
- `Matched.insert`, `Matched.erase`: updates of both at one key keep them in step;
- `Matched.lookup_some`, `Matched.lookup_none`: what one has at a key, the other has.
-/
import Mathlib.Tactic
import Mathlib.Data.List.AList

namespace NotifyAgent.Lib.FiniteMap

variable {α β γ : Type*} [DecidableEq α] {R : β → γ → Prop}

/-- a map from which one key has gone, or where it was not -/
theorem lookup_gone {m m' : AList (fun _ : α => β)} {key : α}
    (h : (m.lookup key = none ∧ m' = m) ∨ m' = m.erase key) (k : α) :
    m'.lookup k = if k = key then none else m.lookup k := by
  rcases h with ⟨hnone, rfl⟩ | rfl
  · split_ifs with hk
    · rw [hk, hnone]
    · rfl
  · split_ifs with hk
    · rw [hk, AList.lookup_erase]
    · rw [AList.lookup_erase_ne hk]

/-- the maps have the same keys, and `R` relates what they have at a key -/
structure Matched (R : β → γ → Prop) (m : AList (fun _ : α => β)) (r : AList (fun _ : α => γ)) : Prop where
  keys : m.keys = r.keys
  entries : ∀ k b c, m.lookup k = some b → r.lookup k = some c → R b c

theorem matched_empty : Matched R (∅ : AList (fun _ : α => β)) ∅ :=
  ⟨rfl, fun k b c hb => by simp at hb⟩

variable {m : AList (fun _ : α => β)} {r : AList (fun _ : α => γ)} {k : α}

theorem Matched.isSome_iff (h : Matched R m r) : (m.lookup k).isSome ↔ (r.lookup k).isSome := by
  rw [AList.lookup_isSome, AList.lookup_isSome, AList.mem_keys, AList.mem_keys, h.keys]

theorem Matched.lookup_none (h : Matched R m r) (hk : r.lookup k = none) : m.lookup k = none := by
  have := h.isSome_iff (k := k)
  rw [hk] at this
  simpa using this

theorem Matched.lookup_some (h : Matched R m r) {c : γ} (hk : r.lookup k = some c) :
    ∃ b, m.lookup k = some b ∧ R b c := by
  obtain ⟨b, hb⟩ := Option.isSome_iff_exists.1 (h.isSome_iff.2 (by rw [hk]; rfl))
  exact ⟨b, hb, h.entries k b c hb hk⟩

/-- what is read off related entries by functions that agree on them -/
theorem Matched.lookup_bind {δ ε : Type*} (h : Matched R m r) {f : β → Option ε} {g : γ → Option δ} {t : δ → ε}
    (hfg : ∀ b c, r.lookup k = some c → R b c → f b = (g c).map t) :
    (m.lookup k).bind f = ((r.lookup k).bind g).map t := by
  cases hr : r.lookup k with
  | none =>
    rw [h.lookup_none hr]
    rfl
  | some c =>
    obtain ⟨b, hb, hbc⟩ := h.lookup_some hr
    rw [hb]
    exact hfg b c hr hbc

theorem Matched.insert (h : Matched R m r) {b : β} {c : γ} (hbc : R b c) :
    Matched R (m.insert k b) (r.insert k c) := by
  refine ⟨?_, ?_⟩
  · rw [AList.keys_insert, AList.keys_insert, h.keys]
  · intro k' b' c' hb hc
    by_cases hk : k' = k
    · subst hk
      rw [AList.lookup_insert, Option.some.injEq] at hb hc
      rw [← hb, ← hc]
      exact hbc
    · rw [AList.lookup_insert_ne hk] at hb hc
      exact h.entries k' b' c' hb hc

theorem Matched.erase (h : Matched R m r) : Matched R (m.erase k) (r.erase k) := by
  refine ⟨?_, ?_⟩
  · rw [AList.keys_erase, AList.keys_erase, h.keys]
  · intro k' b' c' hb hc
    by_cases hk : k' = k
    · subst hk
      rw [AList.lookup_erase] at hb
      cases hb
    · rw [AList.lookup_erase_ne hk] at hb hc
      exact h.entries k' b' c' hb hc

end NotifyAgent.Lib.FiniteMap
