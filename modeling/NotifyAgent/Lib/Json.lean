/-
JSON texts (RFC 8259) as byte strings, with their nesting depth, and a flat scan of the bytes.

The non-terminals that nest are one inductive relation (`Derives`), indexed by the depth of what is derived; white
space, numbers and strings are predicates on bytes. `Scan` is the automaton that depth limits are written with: it knows
brackets, quotes and backslashes, and nothing of the grammar.

- `scan_stringLit`: whatever a string holds, the scan leaves it as it entered it;
- `scan_derives`: over a derived text the scan comes back to its depth, and on the way it rises by exactly the nesting
  depth of the text;
- `scan_text`: hence the peak over a JSON text is its nesting depth.
-/
import Mathlib.Tactic

namespace NotifyAgent.Lib.Json

/-! ## Tokens -/

/-- `ws`: space, tab, line feed, carriage return -/
def Ws (p : List UInt8) : Prop := ∀ b ∈ p, b = 0x20 ∨ b = 0x09 ∨ b = 0x0A ∨ b = 0x0D

/-- a structural character with white space around it -/
def Token (b : UInt8) (p : List UInt8) : Prop := ∃ l r, Ws l ∧ Ws r ∧ p = l ++ b :: r

/-- `false`, `null`, `true` -/
def literals : List (List UInt8) :=
  [[0x66, 0x61, 0x6C, 0x73, 0x65], [0x6E, 0x75, 0x6C, 0x6C], [0x74, 0x72, 0x75, 0x65]]

def Digit (b : UInt8) : Prop := 0x30 ≤ b ∧ b ≤ 0x39

def HexDigit (b : UInt8) : Prop := Digit b ∨ (0x41 ≤ b ∧ b ≤ 0x46) ∨ (0x61 ≤ b ∧ b ≤ 0x66)

/-- `1*DIGIT` -/
def Digits (p : List UInt8) : Prop := p ≠ [] ∧ ∀ b ∈ p, Digit b

/-- `int`: a zero, or digits that do not start with one -/
def IntPart (p : List UInt8) : Prop := p = [0x30] ∨ (Digits p ∧ p.head? ≠ some 0x30)

/-- `[ frac ]` -/
def FracPart (p : List UInt8) : Prop := p = [] ∨ ∃ ds, Digits ds ∧ p = 0x2E :: ds

/-- `[ exp ]` -/
def ExpPart (p : List UInt8) : Prop :=
  p = [] ∨ ∃ e sign ds, (e = 0x65 ∨ e = 0x45) ∧ (sign = [] ∨ sign = [0x2D] ∨ sign = [0x2B]) ∧ Digits ds ∧
    p = e :: sign ++ ds

def Number (p : List UInt8) : Prop :=
  ∃ minus int frac exp, (minus = [] ∨ minus = [0x2D]) ∧ IntPart int ∧ FracPart frac ∧ ExpPart exp ∧
    p = minus ++ int ++ frac ++ exp

/-- `*char`: characters that need no escape in UTF-8, two-character escapes, and escaped code units -/
inductive Chars : List UInt8 → Prop
  | nil : Chars []
  | unescaped {c : Char} {p : List UInt8} (hc : 0x20 ≤ c.toNat ∧ c ≠ '"' ∧ c ≠ '\\') (h : Chars p) :
      Chars (String.utf8EncodeChar c ++ p)
  | escape {b : UInt8} {p : List UInt8} (hb : b ∈ [0x22, 0x5C, 0x2F, 0x62, 0x66, 0x6E, 0x72, 0x74]) (h : Chars p) :
      Chars (0x5C :: b :: p)
  | unit {x₁ x₂ x₃ x₄ : UInt8} {p : List UInt8} (h₁ : HexDigit x₁) (h₂ : HexDigit x₂) (h₃ : HexDigit x₃)
      (h₄ : HexDigit x₄) (h : Chars p) : Chars (0x5C :: 0x75 :: x₁ :: x₂ :: x₃ :: x₄ :: p)

/-- `string` -/
def StringLit (p : List UInt8) : Prop := ∃ cs, Chars cs ∧ p = 0x22 :: cs ++ [0x22]

/-! ## Grammar -/

/-- the non-terminals that nest -/
inductive NonTerminal where
  | value
  | elements
  | member
  | members

open NonTerminal

/-- `Derives N n p`: the bytes `p` are an `N` whose objects and arrays nest to depth `n` -/
inductive Derives : NonTerminal → ℕ → List UInt8 → Prop
  | literal {p} (h : p ∈ literals) : Derives value 0 p
  | number {p} (h : Number p) : Derives value 0 p
  | string {p} (h : StringLit p) : Derives value 0 p
  | emptyArray {o c} (ho : Token 0x5B o) (hc : Token 0x5D c) : Derives value 1 (o ++ c)
  | array {n o p c} (ho : Token 0x5B o) (h : Derives elements n p) (hc : Token 0x5D c) :
      Derives value (n + 1) (o ++ p ++ c)
  | element {n p} (h : Derives value n p) : Derives elements n p
  | elements {n m p s q} (h : Derives value n p) (hs : Token 0x2C s) (ht : Derives elements m q) :
      Derives elements (max n m) (p ++ s ++ q)
  | emptyObject {o c} (ho : Token 0x7B o) (hc : Token 0x7D c) : Derives value 1 (o ++ c)
  | object {n o p c} (ho : Token 0x7B o) (h : Derives members n p) (hc : Token 0x7D c) :
      Derives value (n + 1) (o ++ p ++ c)
  | member {n k s p} (hk : StringLit k) (hs : Token 0x3A s) (h : Derives value n p) :
      Derives member n (k ++ s ++ p)
  | lastMember {n p} (h : Derives member n p) : Derives members n p
  | members {n m p s q} (h : Derives member n p) (hs : Token 0x2C s) (ht : Derives members m q) :
      Derives members (max n m) (p ++ s ++ q)

/-- `JSON-text`: a value with white space around it -/
def Text (n : ℕ) (p : List UInt8) : Prop := ∃ l v r, Ws l ∧ Derives value n v ∧ Ws r ∧ p = l ++ v ++ r

/-! ## The scan -/

structure Scan where
  depth : ℕ
  peak : ℕ
  inString : Bool
  escaped : Bool
deriving DecidableEq, Repr

def Scan.step (s : Scan) (b : UInt8) : Scan :=
  if s.inString then
    if s.escaped then { s with escaped := false }
    else if b = 0x5C then { s with escaped := true }
    else if b = 0x22 then { s with inString := false }
    else s
  else if b = 0x22 then { s with inString := true }
  else if b = 0x7B ∨ b = 0x5B then { s with depth := s.depth + 1, peak := max s.peak (s.depth + 1) }
  else if b = 0x7D ∨ b = 0x5D then { s with depth := s.depth - 1 }
  else s

def scan (s : Scan) (p : List UInt8) : Scan := p.foldl Scan.step s

@[simp] theorem scan_nil (s : Scan) : scan s [] = s := rfl

@[simp] theorem scan_cons (s : Scan) (b : UInt8) (p : List UInt8) : scan s (b :: p) = scan (s.step b) p := rfl

@[simp] theorem scan_append (s : Scan) (p q : List UInt8) : scan s (p ++ q) = scan (scan s p) q := List.foldl_append

theorem peak_le_step (s : Scan) (b : UInt8) : s.peak ≤ (s.step b).peak := by
  unfold Scan.step
  split_ifs <;> simp

/-- the peak never falls -/
theorem peak_le_scan (s : Scan) (p : List UInt8) : s.peak ≤ (scan s p).peak := by
  induction p generalizing s with
  | nil => exact le_refl _
  | cons b p ih => exact (peak_le_step s b).trans (ih _)

/-! ## Bytes without structure -/

/-- outside of strings, `s` with nothing pending -/
abbrev outside (depth peak : ℕ) : Scan := ⟨depth, peak, false, false⟩

abbrev inside (depth peak : ℕ) : Scan := ⟨depth, peak, true, false⟩

variable {d k : ℕ}

theorem scan_plain {p : List UInt8} (h : ∀ b ∈ p, b ≠ 0x22 ∧ b ≠ 0x7B ∧ b ≠ 0x5B ∧ b ≠ 0x7D ∧ b ≠ 0x5D) :
    scan (outside d k) p = outside d k := by
  induction p with
  | nil => rfl
  | cons b p ih =>
    obtain ⟨h1, h2, h3, h4, h5⟩ := h b List.mem_cons_self
    have hstep : (outside d k).step b = outside d k := by simp [Scan.step, h1, h2, h3, h4, h5]
    rw [scan_cons, hstep]
    exact ih fun x hx => h x (List.mem_cons_of_mem b hx)

theorem scan_chunk {p : List UInt8} (h : ∀ b ∈ p, b ≠ 0x22 ∧ b ≠ 0x5C) : scan (inside d k) p = inside d k := by
  induction p with
  | nil => rfl
  | cons b p ih =>
    obtain ⟨h1, h2⟩ := h b List.mem_cons_self
    have hstep : (inside d k).step b = inside d k := by simp [Scan.step, h1, h2]
    rw [scan_cons, hstep]
    exact ih fun x hx => h x (List.mem_cons_of_mem b hx)

theorem scan_ws {p : List UInt8} (h : Ws p) : scan (outside d k) p = outside d k := by
  apply scan_plain
  intro b hb
  rcases h b hb with rfl | rfl | rfl | rfl <;> decide

theorem Digit.plain {b : UInt8} (h : Digit b) : b ≠ 0x22 ∧ b ≠ 0x7B ∧ b ≠ 0x5B ∧ b ≠ 0x7D ∧ b ≠ 0x5D := by
  obtain ⟨h1, h2⟩ := h
  refine ⟨?_, ?_, ?_, ?_, ?_⟩ <;> rintro rfl
  · exact absurd h1 (by decide)
  all_goals exact absurd h2 (by decide)

theorem scan_digits {p : List UInt8} (h : ∀ b ∈ p, Digit b) : scan (outside d k) p = outside d k :=
  scan_plain fun b hb => (h b hb).plain

theorem scan_number {p : List UInt8} (h : Number p) : scan (outside d k) p = outside d k := by
  obtain ⟨minus, int, frac, exp, hminus, hint, hfrac, hexp, rfl⟩ := h
  have h1 : scan (outside d k) minus = outside d k := by
    rcases hminus with rfl | rfl <;> rfl
  have h2 : scan (outside d k) int = outside d k := by
    rcases hint with rfl | ⟨hint, -⟩
    · rfl
    · exact scan_digits hint.2
  have h3 : scan (outside d k) frac = outside d k := by
    rcases hfrac with rfl | ⟨ds, hds, rfl⟩
    · rfl
    · rw [scan_cons]
      exact scan_digits hds.2
  have h4 : scan (outside d k) exp = outside d k := by
    rcases hexp with rfl | ⟨e, sign, ds, he, hsign, hds, rfl⟩
    · rfl
    · have hfront : scan (outside d k) (e :: sign) = outside d k := by
        rcases he with rfl | rfl <;> rcases hsign with rfl | rfl | rfl <;> rfl
      rw [scan_append, hfront, scan_digits hds.2]
  simp only [scan_append, h1, h2, h3, h4]

theorem scan_literal {p : List UInt8} (h : p ∈ literals) : scan (outside d k) p = outside d k := by
  simp only [literals, List.mem_cons, List.not_mem_nil, or_false] at h
  rcases h with rfl | rfl | rfl <;> rfl

/-! ## Strings -/

theorem toNat_ofNat_lt {n : ℕ} (h : n < 256) : (UInt8.ofNat n).toNat = n := by
  rw [UInt8.toNat_ofNat']
  exact Nat.mod_eq_of_lt h

/-- the bytes of a character are its own code, or all of them have the top bit -/
theorem mem_utf8EncodeChar {c : Char} {b : UInt8} (h : b ∈ String.utf8EncodeChar c) :
    b.toNat = c.toNat ∨ 0x80 ≤ b.toNat := by
  have hv : c.val.toNat = c.toNat := rfl
  have hmax : c.toNat < 0x110000 := by
    rcases c.valid with hc | hc
    · have : c.toNat < 0xD800 := hc
      omega
    · exact hc.2
  unfold String.utf8EncodeChar at h
  simp only [hv] at h
  split_ifs at h with h1 h2 h3
  all_goals
    simp only [List.mem_cons, List.not_mem_nil, or_false] at h
  · rw [h, toNat_ofNat_lt (by omega)]
    exact Or.inl rfl
  · right
    rcases h with rfl | rfl <;> rw [toNat_ofNat_lt (by omega)] <;> omega
  · right
    rcases h with rfl | rfl | rfl <;> rw [toNat_ofNat_lt (by omega)] <;> omega
  · right
    rcases h with rfl | rfl | rfl | rfl <;> rw [toNat_ofNat_lt (by omega)] <;> omega

theorem unescaped_chunk {c : Char} (hq : c ≠ '"') (hb : c ≠ '\\') :
    ∀ b ∈ String.utf8EncodeChar c, b ≠ 0x22 ∧ b ≠ 0x5C := by
  intro b hmem
  have hne : ∀ x : Char, c ≠ x → c.toNat ≠ x.toNat := fun x hx h => hx (Char.toNat_inj.1 h)
  have hbytes := mem_utf8EncodeChar hmem
  have h1 : c.toNat ≠ 0x22 := hne '"' hq
  have h2 : c.toNat ≠ 0x5C := hne '\\' hb
  constructor <;> rintro rfl
  · rw [show (0x22 : UInt8).toNat = 0x22 from rfl] at hbytes; omega
  · rw [show (0x5C : UInt8).toNat = 0x5C from rfl] at hbytes; omega

theorem HexDigit.chunk {b : UInt8} (h : HexDigit b) : b ≠ 0x22 ∧ b ≠ 0x5C := by
  constructor <;> rintro rfl <;> rcases h with ⟨h1, h2⟩ | ⟨h1, h2⟩ | ⟨h1, h2⟩ <;>
    first | exact absurd h1 (by decide) | exact absurd h2 (by decide)

theorem scan_chars {p : List UInt8} (h : Chars p) : scan (inside d k) p = inside d k := by
  induction h with
  | nil => rfl
  | unescaped hc _ ih => rw [scan_append, scan_chunk (unescaped_chunk hc.2.1 hc.2.2), ih]
  | escape hb _ ih =>
    -- the escape flag takes the second byte, whatever it is
    rw [scan_cons, scan_cons]
    exact ih
  | unit h₁ h₂ h₃ h₄ _ ih =>
    rw [scan_cons, scan_cons]
    change scan (inside d k) ([_, _, _, _] ++ _) = _
    rw [scan_append, scan_chunk, ih]
    intro b hb
    simp only [List.mem_cons, List.not_mem_nil, or_false] at hb
    rcases hb with rfl | rfl | rfl | rfl
    · exact h₁.chunk
    · exact h₂.chunk
    · exact h₃.chunk
    · exact h₄.chunk

/-- **Strings are opaque to the scan.** -/
theorem scan_stringLit {p : List UInt8} (h : StringLit p) : scan (outside d k) p = outside d k := by
  obtain ⟨cs, hcs, rfl⟩ := h
  rw [scan_append, scan_cons]
  change scan (scan (inside d k) cs) [0x22] = _
  rw [scan_chars hcs]
  rfl

/-! ## Values -/

theorem scan_token {b : UInt8} {p : List UInt8} (h : Token b p) (s : Scan) (hs : (outside d k).step b = s)
    (hout : s = outside s.depth s.peak) : scan (outside d k) p = s := by
  obtain ⟨l, r, hl, hr, rfl⟩ := h
  rw [scan_append, scan_ws hl, scan_cons, hs, hout]
  exact scan_ws hr

theorem scan_open {b : UInt8} {p : List UInt8} (hb : b = 0x7B ∨ b = 0x5B) (h : Token b p) :
    scan (outside d k) p = outside (d + 1) (max k (d + 1)) :=
  scan_token h _ (by rcases hb with rfl | rfl <;> rfl) rfl

theorem scan_close {b : UInt8} {p : List UInt8} (hb : b = 0x7D ∨ b = 0x5D) (h : Token b p) :
    scan (outside (d + 1) k) p = outside d k :=
  scan_token h _ (by rcases hb with rfl | rfl <;> rfl) rfl

theorem scan_separator {b : UInt8} {p : List UInt8} (hb : b = 0x2C ∨ b = 0x3A) (h : Token b p) :
    scan (outside d k) p = outside d k :=
  scan_token h _ (by rcases hb with rfl | rfl <;> rfl) rfl

/-- **The scan over a derived text** comes back to its depth; its peak is the text's nesting depth above it. -/
theorem scan_derives {N : NonTerminal} {n : ℕ} {p : List UInt8} (h : Derives N n p) {d k : ℕ} (hk : d ≤ k) :
    scan (outside d k) p = outside d (max k (d + n)) := by
  induction h generalizing d k with
  | literal h => rw [scan_literal h, Nat.add_zero, max_eq_left hk]
  | number h => rw [scan_number h, Nat.add_zero, max_eq_left hk]
  | string h => rw [scan_stringLit h, Nat.add_zero, max_eq_left hk]
  | emptyArray ho hc => rw [scan_append, scan_open (Or.inr rfl) ho, scan_close (Or.inr rfl) hc]
  | emptyObject ho hc => rw [scan_append, scan_open (Or.inl rfl) ho, scan_close (Or.inl rfl) hc]
  | @array n o p c ho h hc ih =>
    rw [scan_append, scan_append, scan_open (Or.inr rfl) ho, ih (le_max_right _ _), scan_close (Or.inr rfl) hc]
    congr 1
    omega
  | @object n o p c ho h hc ih =>
    rw [scan_append, scan_append, scan_open (Or.inl rfl) ho, ih (le_max_right _ _), scan_close (Or.inl rfl) hc]
    congr 1
    omega
  | element h ih => exact ih hk
  | lastMember h ih => exact ih hk
  | elements h hs ht ih iht =>
    rw [scan_append, scan_append, ih hk, scan_separator (Or.inl rfl) hs, iht (hk.trans (le_max_left _ _))]
    congr 1
    omega
  | members h hs ht ih iht =>
    rw [scan_append, scan_append, ih hk, scan_separator (Or.inl rfl) hs, iht (hk.trans (le_max_left _ _))]
    congr 1
    omega
  | member hkey hs h ih =>
    rw [scan_append, scan_append, scan_stringLit hkey, scan_separator (Or.inr rfl) hs, ih hk]

/-- **The peak over a JSON text is its nesting depth.** -/
theorem scan_text {n : ℕ} {p : List UInt8} (h : Text n p) : scan (outside 0 0) p = outside 0 n := by
  obtain ⟨l, v, r, hl, hv, hr, rfl⟩ := h
  rw [scan_append, scan_append, scan_ws hl, scan_derives hv (le_refl 0), scan_ws hr]
  congr 1
  omega

/-! ## Texts are not empty -/

theorem Token.ne_nil {b : UInt8} {p : List UInt8} (h : Token b p) : p ≠ [] := by
  obtain ⟨l, r, -, -, rfl⟩ := h
  simp

theorem Number.ne_nil {p : List UInt8} (h : Number p) : p ≠ [] := by
  obtain ⟨minus, int, frac, exp, -, hint, -, -, rfl⟩ := h
  have : int ≠ [] := by
    rcases hint with rfl | hint
    · decide
    · exact hint.1.1
  simp [this]

theorem Derives.ne_nil {N : NonTerminal} {n : ℕ} {p : List UInt8} (h : Derives N n p) : p ≠ [] := by
  induction h with
  | literal h => rintro rfl; exact absurd h (by decide)
  | number h => exact h.ne_nil
  | string h => obtain ⟨cs, -, rfl⟩ := h; simp
  | emptyArray ho _ => simp [ho.ne_nil]
  | emptyObject ho _ => simp [ho.ne_nil]
  | array ho _ _ _ => simp [ho.ne_nil]
  | object ho _ _ _ => simp [ho.ne_nil]
  | element _ ih => exact ih
  | lastMember _ ih => exact ih
  | elements _ _ _ ih _ => simp [ih]
  | members _ _ _ ih _ => simp [ih]
  | member hk _ _ _ => obtain ⟨cs, -, rfl⟩ := hk; simp

theorem Text.ne_nil {n : ℕ} {p : List UInt8} (h : Text n p) : p ≠ [] := by
  obtain ⟨l, v, r, -, hv, -, rfl⟩ := h
  simp [hv.ne_nil]

end NotifyAgent.Lib.Json
