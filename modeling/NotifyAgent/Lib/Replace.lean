/-
Replacing every occurrence of a pattern in a text, left to right and without looking at what was put in.

- `replace_of_not_infix`: a text without the pattern stays;
- `replace_self`: the pattern itself becomes the replacement;
- `replace_sep`: around a character that the pattern does not contain, the two sides are replaced on their own;
- `replace_single`, `replace_single_flatMap`: a one-character pattern is replaced character by character, so a chain of
  such replacements is one pass.
-/
import Mathlib.Tactic

namespace NotifyAgent.Lib.Replace

variable {α : Type*} [DecidableEq α]

/-- `skip` counts the rest of an occurrence that is being dropped -/
def replaceFrom (pattern by' : List α) : ℕ → List α → List α
  | _, [] => []
  | skip + 1, _ :: s => replaceFrom pattern by' skip s
  | 0, c :: s =>
    if pattern.isPrefixOf (c :: s) then by' ++ replaceFrom pattern by' (pattern.length - 1) s
    else c :: replaceFrom pattern by' 0 s

/-- replace every occurrence of a non-empty pattern -/
def replace (pattern by' s : List α) : List α := replaceFrom pattern by' 0 s

variable {pattern by' : List α}

@[simp] theorem replace_nil : replace pattern by' [] = [] := by simp [replace, replaceFrom]

theorem replaceFrom_skip (a b : List α) : replaceFrom pattern by' a.length (a ++ b) = replace pattern by' b := by
  induction a with
  | nil => rfl
  | cons x a ih => simpa [replaceFrom] using ih

theorem replace_of_not_infix {s : List α} (h : ¬ pattern <:+: s) : replace pattern by' s = s := by
  induction s with
  | nil => simp
  | cons c s ih =>
    have hpre : pattern.isPrefixOf (c :: s) = false := by
      rw [Bool.eq_false_iff, Ne, List.isPrefixOf_iff_prefix]
      exact fun hp => h hp.isInfix
    rw [replace, replaceFrom, hpre]
    simp only [Bool.false_eq_true, if_false]
    congr 1
    exact ih fun hi => h (hi.trans (List.suffix_cons c s).isInfix)

theorem replace_self (hp : pattern ≠ []) : replace pattern by' pattern = by' := by
  obtain ⟨c, s, rfl⟩ := List.exists_cons_of_ne_nil hp
  have hrest : replaceFrom (c :: s) by' s.length s = [] := by simpa using replaceFrom_skip s ([] : List α)
  rw [replace, replaceFrom, if_pos (by simp)]
  simp [hrest]

omit [DecidableEq α] in
/-- an occurrence does not reach over a character that the pattern does not contain -/
theorem prefix_of_sep {sep : α} (h : sep ∉ pattern) {a b : List α} (hp : pattern <+: a ++ sep :: b) :
    pattern <+: a := by
  rcases Nat.lt_or_ge a.length pattern.length with hlt | hle
  · have hsep : a ++ [sep] <+: a ++ sep :: b := ⟨b, by simp⟩
    have := List.prefix_of_prefix_length_le hsep hp (by simpa using hlt)
    exact absurd (this.subset (by simp)) h
  · exact List.prefix_of_prefix_length_le hp (List.prefix_append a _) hle

theorem isPrefixOf_sep {sep : α} (h : sep ∉ pattern) (a b : List α) :
    pattern.isPrefixOf (a ++ sep :: b) = pattern.isPrefixOf a := by
  rw [Bool.eq_iff_iff, List.isPrefixOf_iff_prefix, List.isPrefixOf_iff_prefix]
  exact ⟨prefix_of_sep h, fun hp => hp.trans (List.prefix_append a _)⟩

section
variable {sep : α} (hp : pattern ≠ []) (hsep : sep ∉ pattern)
include hp hsep

theorem replaceFrom_sep {skip : ℕ} {a : List α} (hskip : skip ≤ a.length) (b : List α) :
    replaceFrom pattern by' skip (a ++ sep :: b) = replaceFrom pattern by' skip a ++ sep :: replace pattern by' b := by
  induction a generalizing skip with
  | nil =>
    obtain rfl : skip = 0 := by simpa using hskip
    have hnot : pattern.isPrefixOf (sep :: b) = false := by
      have := isPrefixOf_sep hsep [] b
      rw [List.nil_append] at this
      rw [this]
      cases pattern with
      | nil => exact absurd rfl hp
      | cons x l => rfl
    simp [replaceFrom, hnot, replace]
  | cons c a ih =>
    cases skip with
    | succ skip => simpa [replaceFrom] using ih (by simpa using hskip)
    | zero =>
      rw [List.cons_append, replaceFrom, replaceFrom, ← List.cons_append, isPrefixOf_sep hsep]
      split_ifs with hpre
      · have hlen := (List.isPrefixOf_iff_prefix.1 hpre).length_le
        rw [List.length_cons] at hlen
        rw [ih (by omega), List.append_assoc]
      · rw [ih (Nat.zero_le _), List.cons_append]

/-- **Replacement is local.** -/
theorem replace_sep (a b : List α) :
    replace pattern by' (a ++ sep :: b) = replace pattern by' a ++ sep :: replace pattern by' b :=
  replaceFrom_sep hp hsep (Nat.zero_le _) b

end

/-- **One-character patterns.** -/
theorem replace_single (c : α) (s : List α) : replace [c] by' s = s.flatMap fun x => if x = c then by' else [x] := by
  induction s with
  | nil => simp
  | cons x s ih =>
    rw [replace, replaceFrom, List.flatMap_cons, ← ih]
    by_cases hx : x = c
    · simp [hx, replace]
    · simp [hx, Ne.symm hx, replace]

theorem replace_single_flatMap {β : Type*} (c : α) (f : β → List α) (s : List β) :
    replace [c] by' (s.flatMap f) = s.flatMap fun x => replace [c] by' (f x) := by
  simp only [replace_single, List.flatMap_assoc]

theorem replace_single_of_ne {c x : α} (h : x ≠ c) : replace [c] by' [x] = [x] := by
  simp [replace_single, h]

end NotifyAgent.Lib.Replace
