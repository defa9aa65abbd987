/-
Byte strings, and splitting them at a byte.

- `splitBefore_append`, `lastCut_append`: where a text is split;
- `split_unique`: there is one way to put it together.
-/
import Mathlib.Tactic
import Mathlib.Data.List.TakeWhile

namespace NotifyAgent.Lib

abbrev Bytes := List UInt8

def ascii (s : String) : Bytes := s.toList.map fun c => UInt8.ofNat c.toNat

/-- a hexadecimal digit; `letters` is the digit ten, `a` or `A` -/
def hexDigit (letters : UInt8) (n : UInt8) : UInt8 := if n < 10 then 0x30 + n else letters + (n - 10)

/-! ## The first occurrence -/

/-- up to the first `x`, and from there on -/
def splitBefore (x : UInt8) (s : Bytes) : Bytes × Bytes := (s.takeWhile (· ≠ x), s.dropWhile (· ≠ x))

/-- `strings.Cut`, at one byte -/
def cut (x : UInt8) (s : Bytes) : Bytes × Bytes := ((splitBefore x s).1, (splitBefore x s).2.tail)

/-- `s` is empty or starts with `x` -/
def Starts (x : UInt8) (s : Bytes) : Prop := ∀ b, s.head? = some b → b = x

theorem Starts.nil (x : UInt8) : Starts x [] := by
  intro b hb
  cases hb

theorem Starts.cons (x : UInt8) (s : Bytes) : Starts x (x :: s) := by
  intro b hb
  exact (Option.some.inj hb).symm

theorem starts_splitBefore (x : UInt8) (s : Bytes) : Starts x (splitBefore x s).2 := by
  intro b hb
  have hdrop := List.head?_dropWhile_not (fun c => decide (c ≠ x)) s
  simp only [splitBefore] at hb
  rw [hb] at hdrop
  simpa using hdrop

theorem notMem_splitBefore (x : UInt8) (s : Bytes) : x ∉ (splitBefore x s).1 := by
  intro hx
  simpa using List.mem_takeWhile_imp hx

theorem splitBefore_eq (x : UInt8) (s : Bytes) : (splitBefore x s).1 ++ (splitBefore x s).2 = s :=
  List.takeWhile_append_dropWhile

theorem splitBefore_append {x : UInt8} {a s : Bytes} (ha : x ∉ a) (hs : Starts x s) :
    splitBefore x (a ++ s) = (a, s) := by
  have hall : ∀ b ∈ a, decide (b ≠ x) = true := by
    intro b hb
    simpa using fun h : b = x => ha (h ▸ hb)
  unfold splitBefore
  rw [List.takeWhile_append_of_pos hall, List.dropWhile_append_of_pos hall]
  cases s with
  | nil => simp
  | cons b s =>
    obtain rfl := hs b rfl
    simp

theorem splitBefore_of_notMem {x : UInt8} {a : Bytes} (ha : x ∉ a) : splitBefore x a = (a, []) := by
  have h := splitBefore_append ha (Starts.nil x)
  rwa [List.append_nil] at h

theorem cut_append {x : UInt8} {a : Bytes} (ha : x ∉ a) (s : Bytes) : cut x (a ++ x :: s) = (a, s) := by
  unfold cut
  rw [splitBefore_append ha (Starts.cons x s)]
  rfl

theorem cut_of_notMem {x : UInt8} {a : Bytes} (ha : x ∉ a) : cut x a = (a, []) := by
  unfold cut
  rw [splitBefore_of_notMem ha]
  rfl

theorem splitBefore_append_left {x : UInt8} {a : Bytes} (ha : x ∉ a) (s : Bytes) :
    splitBefore x (a ++ s) = (a ++ (splitBefore x s).1, (splitBefore x s).2) := by
  conv_lhs => rw [← splitBefore_eq x s, ← List.append_assoc]
  refine splitBefore_append ?_ (starts_splitBefore x s)
  rw [List.mem_append]
  exact not_or.2 ⟨ha, notMem_splitBefore x s⟩

theorem cut_append_left {x : UInt8} {a : Bytes} (ha : x ∉ a) (s : Bytes) :
    cut x (a ++ s) = (a ++ (cut x s).1, (cut x s).2) := by
  unfold cut
  rw [splitBefore_append_left ha]

theorem Starts.splitBefore {x y : UInt8} {s : Bytes} (h : Starts y s) : Starts y (splitBefore x s).1 := by
  intro b hb
  refine h b ?_
  cases s with
  | nil => cases hb
  | cons c s =>
    simp only [Lib.splitBefore, List.takeWhile_cons] at hb
    split_ifs at hb
    · exact hb
    · cases hb

/-- **One split.** Texts that are put together from what has no `x` and what starts with it have the same parts. -/
theorem split_unique {x : UInt8} {a b s t : Bytes} (ha : x ∉ a) (hb : x ∉ b) (hs : Starts x s) (ht : Starts x t)
    (h : a ++ s = b ++ t) : a = b ∧ s = t := by
  have hsplit := splitBefore_append ha hs
  rw [h, splitBefore_append hb ht] at hsplit
  exact ⟨(congrArg Prod.fst hsplit).symm, (congrArg Prod.snd hsplit).symm⟩

/-! ## The last occurrence -/

/-- before and after the last `x`, if there is one -/
def lastCut (x : UInt8) : Bytes → Option (Bytes × Bytes)
  | [] => none
  | b :: s =>
    match lastCut x s with
    | some (before, after) => some (b :: before, after)
    | none => if b = x then some ([], s) else none

theorem lastCut_of_notMem {x : UInt8} {a : Bytes} (ha : x ∉ a) : lastCut x a = none := by
  induction a with
  | nil => rfl
  | cons b a ih =>
    have hb : b ≠ x := fun h => ha (h ▸ List.mem_cons_self)
    simp only [lastCut, ih fun hx => ha (List.mem_cons_of_mem b hx), if_neg hb]

theorem lastCut_append {x : UInt8} (a : Bytes) {s : Bytes} (hs : x ∉ s) : lastCut x (a ++ x :: s) = some (a, s) := by
  induction a with
  | nil => simp only [List.nil_append, lastCut, lastCut_of_notMem hs, if_true]
  | cons b a ih => simp only [List.cons_append, lastCut, ih]

end NotifyAgent.Lib
