/-
Truncation to whole clusters as the other two heads run it: Go's single pass over the clusters with a running byte
offset (`graphemetext.Truncate`), C#'s cut between text elements of a `StringInfo` (`GraphemeText.Truncate`).

A Go string is the UTF-8 encoding of its text, a C# string the UTF-16 encoding; both libraries find the clusters `G`.

- `truncateLoop_eq`: the recorded offset is the end of the kept clusters when the loop stops for one cluster too many;
- `Truncate_eq`, `truncate_eq_encode`: both compute the truncations of the toast factories, encoded.
-/
import Mathlib.Tactic
import NotifyAgent.Lib.Utf16
import NotifyAgent.Core.HeadNotifications

/-! ## Cutting an encoded text -/

namespace NotifyAgent.GraphemeText

open NotifyAgent.Text
open NotifyAgent.Notification (Segmentation)

variable {U : Type*} (encode : Str → List U)

/-- where the first `k` clusters end -/
def offset (clusters : List Str) (k : ℕ) : ℕ := (encode (clusters.take k).flatten).length

variable {encode}

theorem take_offset (hencode : ∀ a b, encode (a ++ b) = encode a ++ encode b) (clusters : List Str) (k : ℕ) :
    (encode clusters.flatten).take (offset encode clusters k) = encode (clusters.take k).flatten := by
  have hsplit : encode clusters.flatten = encode (clusters.take k).flatten ++ encode (clusters.drop k).flatten := by
    rw [← hencode, ← List.flatten_append, List.take_append_drop]
  rw [hsplit, offset, List.take_left']
  rfl

theorem offset_cons (hencode : ∀ a b, encode (a ++ b) = encode a ++ encode b) (g : Str) (clusters : List Str) (k : ℕ) :
    offset encode (g :: clusters) (k + 1) = (encode g).length + offset encode clusters k := by
  rw [offset, List.take_succ_cons, List.flatten_cons, hencode, List.length_append]
  rfl

theorem offset_append_singleton (hencode : ∀ a b, encode (a ++ b) = encode a ++ encode b) (done : List Str) (g : Str)
    (rest : List Str) :
    offset encode (done ++ g :: rest) (done.length + 1) =
      offset encode (done ++ g :: rest) done.length + (encode g).length := by
  induction done with
  | nil =>
    have hnil : encode [] = [] := by simpa using hencode [] []
    simp [offset, hnil]
  | cons d done ih =>
    rw [List.cons_append, List.length_cons, offset_cons hencode, offset_cons hencode, ih, add_assoc]

end NotifyAgent.GraphemeText

/-! ## Go -/

namespace NotifyAgent.Go.GraphemeText

open NotifyAgent.Text NotifyAgent.GraphemeText
open NotifyAgent.Notification (Segmentation)

theorem utf8_append (a b : Str) : utf8 (a ++ b) = utf8 a ++ utf8 b := List.flatMap_append

/-- the loop over `gr.Next()`; `pos` is where the iterator stands -/
def truncateLoop (s : List UInt8) (maxClusters : ℤ) (pos : ℕ) (count : ℤ) (keepEnd : ℕ) : List Str → List UInt8
  | [] => s
  | cluster :: clusters =>
    if maxClusters < count + 1 then s.take keepEnd ++ utf8 ['…']
    else
      let to' := pos + (utf8 cluster).length
      truncateLoop s maxClusters to' (count + 1) (if count + 1 = maxClusters - 1 then to' else keepEnd) clusters

/-- `graphemetext.Truncate` -/
def Truncate (G : Segmentation) (s : Str) (maxClusters : ℤ) : List UInt8 :=
  if maxClusters ≤ 0 then [] else truncateLoop (utf8 s) maxClusters 0 0 0 (G.graphemes s)

/-- **The loop.** With the clusters `done` behind it, at most the limit, and the offset recorded if it was passed. -/
theorem truncateLoop_eq (s : List UInt8) {n : ℕ} {keepEnd : ℕ} {done rest : List Str} (hdone : done.length ≤ n)
    (hkeep : n - 1 ≤ done.length → keepEnd = offset utf8 (done ++ rest) (n - 1)) :
    truncateLoop s n (offset utf8 (done ++ rest) done.length) done.length keepEnd rest =
      if (done ++ rest).length ≤ n then s else s.take (offset utf8 (done ++ rest) (n - 1)) ++ utf8 ['…'] := by
  induction rest generalizing done keepEnd with
  | nil =>
    rw [List.append_nil, if_pos hdone]
    rfl
  | cons cluster rest ih =>
    rw [truncateLoop]
    by_cases hover : n < done.length + 1
    · have hlong : ¬ (done ++ cluster :: rest).length ≤ n := by
        rw [List.length_append, List.length_cons]
        omega
      rw [if_pos (by omega), if_neg hlong, hkeep (by omega)]
    · rw [if_neg (by omega)]
      have happend : done ++ cluster :: rest = (done ++ [cluster]) ++ rest := by
        rw [List.append_assoc, List.singleton_append]
      have hlength : (done ++ [cluster]).length = done.length + 1 := by
        rw [List.length_append, List.length_singleton]
      have hcount : ((done.length : ℤ) + 1) = ((done ++ [cluster]).length : ℤ) := by
        rw [hlength]
        rfl
      simp only [← offset_append_singleton utf8_append done cluster rest]
      rw [← hlength, hcount, happend]
      apply ih (by omega)
      intro hpassed
      rw [← happend, hlength]
      split_ifs with hrecord
      · congr 1
        omega
      · exact hkeep (by omega)

/-- the single pass computes the truncation of the toast factory -/
theorem Truncate_eq (G : Segmentation) (s : Str) (n : ℕ) : Truncate G s n = utf8 (Go.truncate G s n) := by
  unfold Truncate Go.truncate
  by_cases hzero : n = 0
  · rw [if_pos (by omega), if_pos hzero]
    rfl
  · rw [if_neg (by omega), if_neg hzero]
    have hloop := @truncateLoop_eq (utf8 s) n 0 [] (G.graphemes s) (Nat.zero_le _) (by
      intro hone
      have hone' : n - 1 = 0 := Nat.le_zero.1 hone
      rw [hone']
      rfl)
    have htake := take_offset utf8_append (G.graphemes s) (n - 1)
    rw [G.flatten_graphemes] at htake
    calc truncateLoop (utf8 s) n 0 0 0 (G.graphemes s)
        = if (G.graphemes s).length ≤ n then utf8 s
          else (utf8 s).take (offset utf8 (G.graphemes s) (n - 1)) ++ utf8 ['…'] := hloop
      _ = _ := by
        rw [htake, ← utf8_append]
        split_ifs <;> first | rfl | omega

end NotifyAgent.Go.GraphemeText

/-! ## C# -/

namespace NotifyAgent.CSharp.GraphemeText

open NotifyAgent.Text NotifyAgent.GraphemeText
open NotifyAgent.Notification (Segmentation)
open NotifyAgent.Lib.Utf16 (encode encode_append)

/-- `StringInfo`: a string and where its text elements start -/
structure StringInfo where
  string : List UInt16
  indexes : List ℕ

def startsFrom (start : ℕ) : List Str → List ℕ
  | [] => []
  | cluster :: clusters => start :: startsFrom (start + (encode cluster).length) clusters

def StringInfo.new (G : Segmentation) (value : Str) : StringInfo := ⟨encode value, startsFrom 0 (G.graphemes value)⟩

def StringInfo.lengthInTextElements (info : StringInfo) : ℕ := info.indexes.length

/-- `none` is the exception on a range outside the text elements -/
def StringInfo.substringByTextElements (info : StringInfo) (start length : ℕ) : Option (List UInt16) :=
  if info.indexes.length ≤ start ∨ info.indexes.length - start < length then none
  else
    let first := info.indexes.getD start 0
    let last := info.indexes.getD (start + length) info.string.length
    some ((info.string.take last).drop first)

/-- `GraphemeText.Truncate`; `none` is the exception on a limit below one -/
def Truncate (G : Segmentation) (value : Str) (maxGraphemes : ℤ) : Option (List UInt16) :=
  if maxGraphemes < 1 then none
  else
    let info := StringInfo.new G value
    if (info.lengthInTextElements : ℤ) ≤ maxGraphemes then some (encode value)
    else (info.substringByTextElements 0 (maxGraphemes - 1).toNat).map fun s => s ++ encode ['…']

@[simp] theorem length_startsFrom (start : ℕ) (clusters : List Str) :
    (startsFrom start clusters).length = clusters.length := by
  induction clusters generalizing start with
  | nil => rfl
  | cons cluster clusters ih => rw [startsFrom, List.length_cons, List.length_cons, ih]

theorem getD_startsFrom (start : ℕ) {clusters : List Str} {k : ℕ} (hk : k < clusters.length) (d : ℕ) :
    (startsFrom start clusters).getD k d = start + offset encode clusters k := by
  induction clusters generalizing start k with
  | nil => simp at hk
  | cons cluster clusters ih =>
    cases k with
    | zero => rfl
    | succ k =>
      rw [startsFrom, List.getD_cons_succ, ih _ (Nat.lt_of_succ_lt_succ hk), offset_cons encode_append, add_assoc]

/-- cutting between text elements computes the truncation of the toast factory -/
theorem truncate_eq_encode (G : Segmentation) (value : Str) {n : ℕ} (hn : 1 ≤ n) :
    Truncate G value n = some (encode (CSharp.truncate G value n)) := by
  unfold Truncate CSharp.truncate StringInfo.lengthInTextElements StringInfo.substringByTextElements StringInfo.new
  simp only [length_startsFrom, Nat.cast_le]
  rw [if_neg (by omega)]
  split_ifs with hfits hrange
  · rfl
  · omega
  · have hlt : n - 1 < (G.graphemes value).length := by omega
    have hpred : ((n : ℤ) - 1).toNat = n - 1 := by omega
    have htake := take_offset encode_append (G.graphemes value) (n - 1)
    rw [G.flatten_graphemes] at htake
    have hfirst : offset encode (G.graphemes value) 0 = 0 := rfl
    rw [Option.map_some, getD_startsFrom 0 (by omega), hpred, getD_startsFrom 0 (by omega), hfirst]
    simp only [zero_add, List.drop_zero]
    rw [htake, encode_append]

end NotifyAgent.CSharp.GraphemeText
