/-
Keeping a bounded number of the newest. The elements are sorted by a key, stably, and the first ones beyond the cap go.

- `length_retained`: no more than the cap stay;
- `evicted_le_retained`: what goes is not newer than what stays;
- `mem_retained_iff`: an element stays exactly if fewer elements than the cap come after it, and these are the newer
  ones and the equally old ones that were listed after it.
-/
import Mathlib.Tactic

namespace NotifyAgent.Lib.Retention

section
variable {α κ : Type*} [LinearOrder κ] (key : α → κ)

def byKey (l : List α) : List α := l.mergeSort fun a b => decide (key a ≤ key b)

def evicted (cap : ℕ) (l : List α) : List α := (byKey key l).take (l.length - cap)

def retained (cap : ℕ) (l : List α) : List α := (byKey key l).drop (l.length - cap)

/-! ## What stays and what goes -/

theorem byKey_perm (l : List α) : (byKey key l).Perm l := List.mergeSort_perm l _

theorem nodup_byKey {l : List α} (h : l.Nodup) : (byKey key l).Nodup := (byKey_perm key l).nodup_iff.2 h

theorem evicted_append_retained (cap : ℕ) (l : List α) : evicted key cap l ++ retained key cap l = byKey key l :=
  List.take_append_drop _ _

theorem mem_evicted_or_retained (cap : ℕ) {l : List α} {a : α} :
    a ∈ l ↔ a ∈ evicted key cap l ∨ a ∈ retained key cap l := by
  rw [← List.mem_append, evicted_append_retained, (byKey_perm key l).mem_iff]

theorem length_retained (cap : ℕ) (l : List α) : (retained key cap l).length ≤ cap := by
  rw [retained, List.length_drop, (byKey_perm key l).length_eq]
  omega

theorem le_trans_decide (a b c : α) (hab : decide (key a ≤ key b) = true) (hbc : decide (key b ≤ key c) = true) :
    decide (key a ≤ key c) = true := by
  rw [decide_eq_true_eq] at hab hbc ⊢
  exact hab.trans hbc

theorem le_total_decide (a b : α) : (decide (key a ≤ key b) || decide (key b ≤ key a)) = true := by
  rw [Bool.or_eq_true, decide_eq_true_eq, decide_eq_true_eq]
  exact le_total _ _

theorem sorted_byKey (l : List α) : (byKey key l).Pairwise fun a b => key a ≤ key b := by
  have hsorted := List.pairwise_mergeSort (le_trans_decide key) (le_total_decide key) l
  exact hsorted.imp fun h => of_decide_eq_true h

theorem evicted_le_retained {cap : ℕ} {l : List α} {a b : α} (ha : a ∈ evicted key cap l)
    (hb : b ∈ retained key cap l) :
    key a ≤ key b := by
  have hsorted := sorted_byKey key l
  rw [← evicted_append_retained key cap] at hsorted
  exact (List.pairwise_append.1 hsorted).2.2 a ha b hb

/-! ## What comes after an element -/

/-- in a list without repetitions, one of two elements comes first -/
theorem not_both_orders {l : List α} (hl : l.Nodup) {a b : α} (hab : [a, b].Sublist l) : ¬ [b, a].Sublist l := by
  induction l with
  | nil => cases hab
  | cons c l ih =>
    obtain ⟨hc, hl⟩ := List.nodup_cons.1 hl
    intro hba
    rw [List.sublist_cons_iff] at hab hba
    rcases hab with hab | ⟨r, hr, hrest⟩
    · rcases hba with hba | ⟨r', hr', hrest'⟩
      · exact ih hl hab hba
      · obtain ⟨rfl, rfl⟩ := List.cons.inj hr'
        exact hc (hab.subset (by simp))
    · obtain ⟨rfl, rfl⟩ := List.cons.inj hr
      rcases hba with hba | ⟨r', hr', hrest'⟩
      · exact hc (hba.subset (by simp))
      · obtain ⟨rfl, rfl⟩ := List.cons.inj hr'
        exact hc (hrest.subset (by simp))

theorem pair_around_left {pre post : List α} {x y : α} (hy : y ∈ pre) : [y, x].Sublist (pre ++ x :: post) :=
  (List.singleton_sublist.2 hy).append (List.singleton_sublist.2 List.mem_cons_self)

theorem pair_around_right {pre post : List α} {x y : α} (hy : y ∈ post) : [x, y].Sublist (pre ++ x :: post) :=
  ((List.singleton_sublist.2 hy).cons_cons x).trans (List.sublist_append_right _ _)

variable {key}

/-- sorting keeps the order of two elements that are already sorted -/
theorem pair_byKey {l : List α} {a b : α} (hab : key a ≤ key b) (hsub : [a, b].Sublist l) :
    [a, b].Sublist (byKey key l) :=
  List.pair_sublist_mergeSort (le_trans_decide key) (le_total_decide key) (decide_eq_true hab) hsub

/-- an element with what is sorted before and after it -/
theorem mem_sorted_after {pre post before after : List α} {x : α} (hnodup : (pre ++ x :: post).Nodup)
    (hsorted : byKey key (pre ++ x :: post) = before ++ x :: after) :
    (∀ y ∈ pre, y ∈ after ↔ key x < key y) ∧ ∀ y ∈ post, y ∈ after ↔ key x ≤ key y := by
  have hnodup' := nodup_byKey key hnodup
  have horder := sorted_byKey key (pre ++ x :: post)
  have hperm := byKey_perm key (pre ++ x :: post)
  rw [hsorted] at hnodup' horder hperm
  have hsides : ∀ y ∈ pre ++ x :: post, y ≠ x → y ∈ before ∨ y ∈ after := by
    intro y hy hne
    have hmem := hperm.mem_iff.2 hy
    rw [List.mem_append, List.mem_cons] at hmem
    exact hmem.imp_right fun h => h.resolve_left hne
  have hstable :
      ∀ {a b}, key a ≤ key b → [a, b].Sublist (pre ++ x :: post) → [a, b].Sublist (before ++ x :: after) := by
    intro a b hab hsub
    rw [← hsorted]
    exact pair_byKey hab hsub
  obtain ⟨-, hrest, hdisjoint⟩ := List.nodup_append.1 hnodup
  refine ⟨fun y hy => ?_, fun y hy => ?_⟩
  · have hne : y ≠ x := hdisjoint y hy x List.mem_cons_self
    constructor
    · intro hafter
      apply lt_of_not_ge
      intro hkey
      exact not_both_orders hnodup' (pair_around_right hafter) (hstable hkey (pair_around_left hy))
    · intro hkey
      rcases hsides y (by simp [hy]) hne with hbefore | hafter
      · have hle : key y ≤ key x := (List.pairwise_append.1 horder).2.2 y hbefore x List.mem_cons_self
        exact absurd hle hkey.not_ge
      · exact hafter
  · have hne : y ≠ x := by
      intro heq
      exact (List.nodup_cons.1 hrest).1 (heq ▸ hy)
    constructor
    · intro hafter
      exact (List.pairwise_cons.1 (List.pairwise_append.1 horder).2.1).1 y hafter
    · intro hkey
      rcases hsides y (by simp [hy]) hne with hbefore | hafter
      · have hxy := hstable hkey (pair_around_right hy)
        exact absurd (pair_around_left hbefore) (not_both_orders hnodup' hxy)
      · exact hafter

theorem length_sorted_after {pre post before after : List α} {x : α} (hnodup : (pre ++ x :: post).Nodup)
    (hsorted : byKey key (pre ++ x :: post) = before ++ x :: after) :
    after.length = pre.countP (fun y => decide (key x < key y)) + post.countP fun y => decide (key x ≤ key y) := by
  classical
  obtain ⟨hpre, hpost⟩ := mem_sorted_after hnodup hsorted
  have hperm : (x :: (before ++ after)).Perm (x :: (pre ++ post)) := by
    have h := byKey_perm key (pre ++ x :: post)
    rw [hsorted] at h
    exact List.perm_middle.symm.trans (h.trans List.perm_middle)
  have hnodup' := nodup_byKey key hnodup
  rw [hsorted] at hnodup'
  have hdisjoint : ∀ y ∈ before, y ∉ after := by
    intro y hy hafter
    exact (List.nodup_append.1 hnodup').2.2 y hy y (List.mem_cons_of_mem _ hafter) rfl
  calc after.length
      = (before ++ after).countP (fun y => decide (y ∈ after)) := by
        have hbefore : before.countP (fun y => decide (y ∈ after)) = 0 :=
          List.countP_eq_zero.2 fun y hy => by simpa using hdisjoint y hy
        have hafter : after.countP (fun y => decide (y ∈ after)) = after.length :=
          List.countP_eq_length.2 fun y hy => decide_eq_true hy
        rw [List.countP_append, hbefore, hafter, Nat.zero_add]
    _ = (pre ++ post).countP (fun y => decide (y ∈ after)) := hperm.cons_inv.countP_eq _
    _ = pre.countP (fun y => decide (y ∈ after)) + post.countP (fun y => decide (y ∈ after)) := List.countP_append
    _ = _ := by
        congr 1
        · exact List.countP_congr fun y hy => by simpa using hpre y hy
        · exact List.countP_congr fun y hy => by simpa using hpost y hy

/-- **What stays.** -/
theorem mem_retained_iff {cap : ℕ} {pre post : List α} {x : α} (hnodup : (pre ++ x :: post).Nodup) :
    x ∈ retained key cap (pre ++ x :: post) ↔
      pre.countP (fun y => decide (key x < key y)) + post.countP (fun y => decide (key x ≤ key y)) < cap := by
  have hmem : x ∈ byKey key (pre ++ x :: post) := (byKey_perm key _).mem_iff.2 (by simp)
  obtain ⟨before, after, hsorted⟩ := List.append_of_mem hmem
  rw [← length_sorted_after hnodup hsorted]
  have hlength : (pre ++ x :: post).length = before.length + (after.length + 1) := by
    rw [← (byKey_perm key _).length_eq, hsorted, List.length_append, List.length_cons]
  have hafter : x ∉ after := by
    have hnodup' := nodup_byKey key hnodup
    rw [hsorted] at hnodup'
    exact (List.nodup_cons.1 (List.nodup_append.1 hnodup').2.1).1
  rw [retained, hsorted, hlength]
  constructor
  · intro hx
    by_contra hcap
    rw [List.drop_append] at hx
    rcases List.mem_append.1 hx with hx | hx
    · rw [List.drop_of_length_le (by omega)] at hx
      cases hx
    · have hk : before.length + (after.length + 1) - cap - before.length = (after.length - cap) + 1 := by omega
      rw [hk, List.drop_succ_cons] at hx
      exact hafter (List.mem_of_mem_drop hx)
  · intro hcap
    rw [List.drop_append_of_le_length (by omega)]
    simp

end

end NotifyAgent.Lib.Retention
