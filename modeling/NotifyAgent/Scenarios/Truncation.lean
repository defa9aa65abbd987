/-
Truncation of texts for display, in Rust (`grapheme.rs`), Go (`graphemetext`) and C# (`GraphemeText`). The limit counts
clusters, the ellipsis included.

- `truncations_agree`: the three heads cut every text alike, in front of the same cluster, and the result is within the
  limit where the segmentation does not depend on what was cut off.

Premise: the text libraries of the three divide a text into the same grapheme clusters (one `Segmentation`).
-/
import Mathlib.Tactic
import NotifyAgent.Core.GraphemeText

namespace NotifyAgent.Truncation

open NotifyAgent.Text
open NotifyAgent.Notification (Segmentation singletons)
open NotifyAgent.Lib.Utf16 (encode)

/-! ## Specification -/

/-- all three heads truncate `s` to `t` -/
structure Truncates (G : Segmentation) (s : Str) (n : ℕ) (t : Str) : Prop where
  rust : Notification.truncate G s n = t
  go : Go.GraphemeText.Truncate G s n = utf8 t
  csharp : CSharp.GraphemeText.Truncate G s n = some (encode t)

/-- a text cut after whole clusters has those clusters, and an ellipsis is at most one more -/
structure Stable (G : Segmentation) : Prop where
  take : ∀ s k, G.graphemes ((G.graphemes s).take k).flatten = (G.graphemes s).take k
  ellipsis : ∀ s, (G.graphemes (s ++ ['…'])).length ≤ (G.graphemes s).length + 1

/-! ## Agreement -/

variable {G : Segmentation}

theorem truncates (s : Str) {n : ℕ} (hn : 1 ≤ n) : Truncates G s n (Notification.truncate G s n) where
  rust := rfl
  go := by
    rw [Go.GraphemeText.Truncate_eq, Go.truncate_eq G s (by omega)]
  csharp := CSharp.GraphemeText.truncate_eq_encode G s hn

theorem truncate_short {s : Str} {n : ℕ} (h : (G.graphemes s).length ≤ n) : Notification.truncate G s n = s := if_pos h

theorem truncate_long {s : Str} {n : ℕ} (h : n < (G.graphemes s).length) :
    Notification.truncate G s n = ((G.graphemes s).take (n - 1)).flatten ++ ['…'] :=
  if_neg (by omega)

theorem truncates_iff {s t : Str} {n : ℕ} (hn : 1 ≤ n) : Truncates G s n t ↔ Notification.truncate G s n = t := by
  constructor
  · exact Truncates.rust
  · intro h
    rw [← h]
    exact truncates s hn

/-! ## The limit -/

theorem length_graphemes_truncate (hG : Stable G) (s : Str) {n : ℕ} (hn : 1 ≤ n) :
    (G.graphemes (Notification.truncate G s n)).length ≤ n := by
  by_cases hshort : (G.graphemes s).length ≤ n
  · rw [truncate_short hshort]
    exact hshort
  · rw [truncate_long (by omega)]
    calc (G.graphemes (((G.graphemes s).take (n - 1)).flatten ++ ['…'])).length
        ≤ (G.graphemes ((G.graphemes s).take (n - 1)).flatten).length + 1 := hG.ellipsis _
      _ = ((G.graphemes s).take (n - 1)).length + 1 := by rw [hG.take]
      _ ≤ (n - 1) + 1 := Nat.add_le_add_right (List.length_take_le _ _) 1
      _ = n := by omega

/-- **Truncation.** For every text and every limit from one on, the three heads return the text itself if it is within
the limit, and else the clusters before the last allowed one with an ellipsis. Over a stable segmentation the result is
within the limit and truncating it again changes nothing. -/
theorem truncations_agree (G : Segmentation) (s : Str) (n : ℕ) (hn : 1 ≤ n) :
    ((G.graphemes s).length ≤ n → Truncates G s n s) ∧
    (n < (G.graphemes s).length → Truncates G s n (((G.graphemes s).take (n - 1)).flatten ++ ['…'])) ∧
    (Stable G → ∀ t, Truncates G s n t → (G.graphemes t).length ≤ n ∧ Truncates G t n t) := by
  refine ⟨fun hshort => ?_, fun hlong => ?_, fun hG t ht => ?_⟩
  · exact (truncates_iff hn).2 (truncate_short hshort)
  · exact (truncates_iff hn).2 (truncate_long hlong)
  · have hlimit : (G.graphemes t).length ≤ n := by
      rw [← ht.rust]
      exact length_graphemes_truncate hG s hn
    exact ⟨hlimit, (truncates_iff hn).2 (truncate_short hlimit)⟩

theorem stable_singletons : Stable singletons where
  take s k := by
    have hflatten : ∀ t : Str, (t.map fun c => [c]).flatten = t := singletons.flatten_graphemes
    calc ((((s.map fun c => [c]).take k).flatten).map fun c => [c])
        = ((((s.take k).map fun c => [c]).flatten).map fun c => [c]) := by rw [List.map_take]
      _ = (s.take k).map fun c => [c] := by rw [hflatten]
      _ = (s.map fun c => [c]).take k := List.map_take
  ellipsis s := by simp [singletons]

theorem abcdef_to_five :
    Truncates singletons "abcdef".toList 5 "abcd…".toList ∧ (singletons.graphemes "abcd…".toList).length ≤ 5 ∧
      Truncates singletons "abcd…".toList 5 "abcd…".toList := by
  obtain ⟨-, hlong, hstable⟩ := truncations_agree singletons "abcdef".toList 5 (by decide)
  have hcut : Truncates singletons "abcdef".toList 5 "abcd…".toList := hlong (by decide)
  exact ⟨hcut, hstable stable_singletons _ hcut⟩

end NotifyAgent.Truncation
