/-
Text as the agent sees it: a string is the list of its Unicode scalar values.

- `isWhitespace`, `trim`: the White_Space property and `str::trim`;
- `Ucd`: the part of the Unicode Character Database that case mapping reads. The tables are not part of this
  repository; the record carries the documented facts about them that the code relies on;
- `toLowercase`: Rust's `str::to_lowercase`, with the one multi-character mapping (U+0130) and the Final_Sigma rule;
- `utf8`: the encoding, for the length limits and hashes that are taken over bytes.
-/
import Mathlib.Tactic
import Mathlib.Data.List.DropRight

namespace NotifyAgent.Text

/-- a string, as the list of its scalar values -/
abbrev Str := List Char

/-! ## White space -/

/-- the code points with the White_Space property -/
def whiteSpace (n : ℕ) : Bool :=
  (0x09 ≤ n ∧ n ≤ 0x0D) ∨ n = 0x20 ∨ n = 0x85 ∨ n = 0xA0 ∨ n = 0x1680 ∨ (0x2000 ≤ n ∧ n ≤ 0x200A) ∨ n = 0x2028 ∨
    n = 0x2029 ∨ n = 0x202F ∨ n = 0x205F ∨ n = 0x3000

/-- `char::is_whitespace` -/
def isWhitespace (c : Char) : Bool := whiteSpace c.toNat

/-- remove the longest prefix and suffix on which `p` holds -/
def trimBy {α : Type*} (p : α → Bool) (s : List α) : List α := (s.dropWhile p).rdropWhile p

/-- `str::trim` -/
def trim (s : Str) : Str := trimBy isWhitespace s

theorem trimBy_eq_nil {α : Type*} {p : α → Bool} {s : List α} : trimBy p s = [] ↔ ∀ c ∈ s, p c = true := by
  rw [trimBy, List.rdropWhile_eq_nil_iff]
  constructor
  · intro h c hc
    rcases List.mem_append.1 ((List.takeWhile_append_dropWhile (p := p) (l := s)).symm ▸ hc) with hc | hc
    · exact List.mem_takeWhile_imp hc
    · exact h c hc
  · intro h c hc
    exact h c ((List.dropWhile_sublist p).subset hc)

section
variable {α : Type*} {p : α → Bool}

theorem trimBy_append_left {w s : List α} (hw : ∀ c ∈ w, p c = true) : trimBy p (w ++ s) = trimBy p s := by
  rw [trimBy, List.dropWhile_append, List.dropWhile_eq_nil_iff.2 hw]
  rfl

theorem trimBy_append_right {w s : List α} (hw : ∀ c ∈ w, p c = true) : trimBy p (s ++ w) = trimBy p s := by
  have hdrop : ∀ l : List α, (l ++ w).rdropWhile p = l.rdropWhile p := by
    intro l
    induction w using List.reverseRecOn with
    | nil => simp
    | append_singleton w c ih =>
      rw [← List.append_assoc, List.rdropWhile_concat_pos _ _ _ (hw c (by simp))]
      exact ih fun d hd => hw d (by simp [hd])
  rw [trimBy, trimBy, List.dropWhile_append]
  split_ifs with hempty
  · rw [List.isEmpty_iff.1 hempty, List.dropWhile_eq_nil_iff.2 hw]
  · exact hdrop _

/-- a text is its trimmed part between two parts that are trimmed away -/
theorem exists_trimBy (p : α → Bool) (s : List α) :
    ∃ a b, s = a ++ (trimBy p s ++ b) ∧ (∀ c ∈ a, p c = true) ∧ ∀ c ∈ b, p c = true := by
  refine ⟨s.takeWhile p, (s.dropWhile p).rtakeWhile p, ?_, fun c => List.mem_takeWhile_imp,
    fun c => List.mem_rtakeWhile_imp⟩
  rw [trimBy, List.rdropWhile_append_rtakeWhile, List.takeWhile_append_dropWhile]

theorem trimBy_trimBy (p : α → Bool) (s : List α) : trimBy p (trimBy p s) = trimBy p s := by
  obtain ⟨a, b, hs, ha, hb⟩ := exists_trimBy p s
  calc trimBy p (trimBy p s) = trimBy p (trimBy p s ++ b) := (trimBy_append_right hb).symm
    _ = trimBy p (a ++ (trimBy p s ++ b)) := (trimBy_append_left ha).symm
    _ = trimBy p s := by rw [← hs]

/-- what has nothing to trim stays as it is -/
theorem trimBy_eq_self {s : List α} (h : ∀ c ∈ s, p c = false) : trimBy p s = s := by
  have hkeep : ∀ l : List α, (∀ c ∈ l, p c = false) → l.dropWhile p = l := by
    intro l hl
    cases l with
    | nil => rfl
    | cons c l => exact List.dropWhile_cons_of_neg (by simp [hl c (by simp)])
  rw [trimBy, hkeep s h, List.rdropWhile, hkeep _ fun c hc => h c (List.mem_reverse.1 hc), List.reverse_reverse]

end

/-- what an evaluation finds of all members -/
theorem forall_of_all {α : Type*} {p : α → Prop} [DecidablePred p] {s : List α}
    (h : (s.all fun a => decide (p a)) = true) : ∀ a ∈ s, p a :=
  fun a ha => of_decide_eq_true (List.all_eq_true.1 h a ha)

/-! ## Case mapping -/

/-- the case-mapping data of the Unicode Character Database -/
structure Ucd where
  /-- the simple lowercase mapping -/
  lower : Char → Char
  cased : Char → Bool
  caseIgnorable : Char → Bool
  /-- no case mapping leaves the basic multilingual plane or enters it -/
  lower_plane : ∀ c, (lower c).toNat < 0x10000 ↔ c.toNat < 0x10000
  lower_sigma : lower 'Σ' = 'σ'
  lower_dotted : lower 'İ' = 'i'
  /-- the ASCII range maps within itself -/
  lower_ascii : ∀ c, c.toNat < 0x80 → lower c = c.toLower
  /-- an ASCII character is the image of itself, of its capital, and of U+0130 for `i` and U+212A for `k` -/
  ascii_lower : ∀ c, (lower c).toNat < 0x80 → c.toNat < 0x80 ∨ c = 'İ' ∨ (c.toNat = 0x212A ∧ lower c = 'k')

namespace Ucd

variable (U : Ucd)

/-- `case_ignorable_then_cased`: the first character that is not case-ignorable is cased -/
def caseIgnorableThenCased (s : Str) : Bool :=
  match s.find? (fun c => !U.caseIgnorable c) with
  | some c => U.cased c
  | none => false

/-- `map_uppercase_sigma`: sigma becomes final at the end of a word; `before` is what precedes it, nearest first -/
def mapUppercaseSigma (before after : Str) : Char :=
  if U.caseIgnorableThenCased before && !U.caseIgnorableThenCased after then 'ς' else 'σ'

theorem mapUppercaseSigma_cases (before after : Str) :
    U.mapUppercaseSigma before after = 'ς' ∨ U.mapUppercaseSigma before after = 'σ' := by
  unfold mapUppercaseSigma
  split_ifs <;> simp

/-- `conversions::to_lower`: only U+0130 has more than one character -/
def toLower (c : Char) : Str := if c = 'İ' then ['i', '\u0307'] else [U.lower c]

/-- `str::to_lowercase` on what is left, `before` being what precedes it, nearest first -/
def toLowercaseFrom (before : Str) : Str → Str
  | [] => []
  | c :: rest =>
    (if c = 'Σ' then [U.mapUppercaseSigma before rest] else U.toLower c) ++ toLowercaseFrom (c :: before) rest

/-- `str::to_lowercase` -/
def toLowercase (s : Str) : Str := U.toLowercaseFrom [] s

theorem length_toLowercaseFrom (before s : Str) :
    (U.toLowercaseFrom before s).length = s.length + s.count 'İ' := by
  induction s generalizing before with
  | nil => rfl
  | cons c s ih =>
    simp only [toLowercaseFrom, toLower, List.length_append, ih, List.length_cons, List.count_cons]
    split_ifs <;> simp_all <;> omega

theorem toLowercase_eq_nil {s : Str} : U.toLowercase s = [] ↔ s = [] := by
  rw [← List.length_eq_zero_iff, toLowercase, length_toLowercaseFrom, ← List.length_eq_zero_iff]
  have := List.count_le_length (a := 'İ') (l := s)
  omega

end Ucd

/-- a small database: ASCII, the capital sigma, U+0130 and U+212A -/
def basicLower (c : Char) : Char :=
  if c = 'Σ' then 'σ' else if c = 'İ' then 'i' else if c = '\u212A' then 'k' else c.toLower

theorem toLower_of_not_upper {c : Char} (h : ¬ ('A'.val ≤ c.val ∧ c.val ≤ 'Z'.val)) : c.toLower = c := by
  unfold Char.toLower
  rw [dif_neg h]

theorem toLower_toNat (c : Char) :
    c.toLower.toNat = if 0x41 ≤ c.toNat ∧ c.toNat ≤ 0x5A then c.toNat + 0x20 else c.toNat := by
  have hval : ('A'.val ≤ c.val ∧ c.val ≤ 'Z'.val) ↔ (0x41 ≤ c.toNat ∧ c.toNat ≤ 0x5A) := by
    simp only [UInt32.le_iff_toNat_le, Char.toNat]; rfl
  by_cases h : 'A'.val ≤ c.val ∧ c.val ≤ 'Z'.val
  · rw [if_pos (hval.1 h)]
    have h2 := (hval.1 h).2
    unfold Char.toLower
    rw [dif_pos h]
    simp only [Char.toNat, UInt32.toNat_add]
    have : ('a'.val - 'A'.val).toNat = 0x20 := rfl
    simp only [Char.toNat] at h2
    rw [this]; omega
  · rw [if_neg (fun hc => h (hval.2 hc)), toLower_of_not_upper h]

def basicUcd : Ucd where
  lower := basicLower
  cased c := c.isAlpha || c == 'Σ' || c == 'σ' || c == 'ς' || c == 'İ'
  caseIgnorable c := c == '\'' || c == '.' || c == ':' || c == '\u0307'
  lower_plane c := by
    unfold basicLower
    split_ifs with h1 h2 h3
    · subst h1; decide
    · subst h2; decide
    · subst h3; decide
    · rw [toLower_toNat]; split_ifs <;> omega
  lower_sigma := by decide
  lower_dotted := by decide
  lower_ascii c hc := by
    unfold basicLower
    split_ifs with h1 h2 h3
    · subst h1; revert hc; decide
    · subst h2; revert hc; decide
    · subst h3; revert hc; decide
    · rfl
  ascii_lower c hc := by
    unfold basicLower at hc ⊢
    split_ifs at hc ⊢ with h1 h2 h3
    · exact absurd hc (by decide)
    · exact Or.inr (Or.inl h2)
    · subst h3; exact Or.inr (Or.inr ⟨by decide, rfl⟩)
    · left; rw [toLower_toNat] at hc; split_ifs at hc <;> omega

/-! ## Encoding -/

/-- the UTF-8 encoding -/
def utf8 (s : Str) : List UInt8 := s.flatMap String.utf8EncodeChar

/-- an upper-case hex digit -/
def hexUpper (n : ℕ) : Char := "0123456789ABCDEF".toList.getD n '0'

/-- `str::len`: the number of bytes -/
def len (s : Str) : ℕ := (utf8 s).length

end NotifyAgent.Text
