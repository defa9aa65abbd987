/-
Base64 with the standard alphabet and padding. Decoding ignores white space, as decoders that read text from a stream
do, and the bits that the last digit has too many.

- `decode_encode`: decoding inverts encoding;
- `length_encode`: four characters for every three bytes that have begun;
- `mem_encode`: every character is a digit or the padding, so the text is ASCII.
-/
import Mathlib.Tactic

namespace NotifyAgent.Lib.Base64

/-! ## Digits -/

def alphabet : List Char :=
  ['A', 'B', 'C', 'D', 'E', 'F', 'G', 'H', 'I', 'J', 'K', 'L', 'M',
   'N', 'O', 'P', 'Q', 'R', 'S', 'T', 'U', 'V', 'W', 'X', 'Y', 'Z',
   'a', 'b', 'c', 'd', 'e', 'f', 'g', 'h', 'i', 'j', 'k', 'l', 'm',
   'n', 'o', 'p', 'q', 'r', 's', 't', 'u', 'v', 'w', 'x', 'y', 'z',
   '0', '1', '2', '3', '4', '5', '6', '7', '8', '9', '+', '/']

def digit (n : ℕ) : Char := alphabet.getD n 'A'

def value (c : Char) : Option ℕ := if alphabet.idxOf c < 64 then some (alphabet.idxOf c) else none

theorem value_digit : ∀ n < 64, value (digit n) = some n := by decide

theorem digit_mem : ∀ n < 64, digit n ∈ alphabet := by decide

theorem digit_ne_pad : ∀ n < 64, digit n ≠ '=' := by decide

/-! ## Encoding and decoding -/

def encode : List UInt8 → List Char
  | [] => []
  | [a] => [digit (a.toNat / 4), digit (a.toNat % 4 * 16), '=', '=']
  | [a, b] => [digit (a.toNat / 4), digit (a.toNat % 4 * 16 + b.toNat / 16), digit (b.toNat % 16 * 4), '=']
  | a :: b :: c :: rest =>
    digit (a.toNat / 4) :: digit (a.toNat % 4 * 16 + b.toNat / 16) :: digit (b.toNat % 16 * 4 + c.toNat / 64) ::
      digit (c.toNat % 64) :: encode rest

/-- the bytes of the digits, of which there are two, three or four -/
def bytes (digits : List ℕ) : List UInt8 :=
  match digits with
  | [v, w] => [UInt8.ofNat (v * 4 + w / 16)]
  | [v, w, x] => [UInt8.ofNat (v * 4 + w / 16), UInt8.ofNat (w % 16 * 16 + x / 4)]
  | [v, w, x, y] => [UInt8.ofNat (v * 4 + w / 16), UInt8.ofNat (w % 16 * 16 + x / 4), UInt8.ofNat (x % 4 * 64 + y)]
  | _ => []

def decodeGroups : List Char → Option (List UInt8)
  | [] => some []
  | c :: d :: e :: f :: rest =>
    if f = '=' then
      if rest ≠ [] then none
      else if e = '=' then ([c, d].mapM value).map bytes
      else ([c, d, e].mapM value).map bytes
    else ([c, d, e, f].mapM value).bind fun digits => (decodeGroups rest).map (bytes digits ++ ·)
  | _ => none

def isSpace (c : Char) : Bool := c = ' ' ∨ c = '\t' ∨ c = '\n' ∨ c = '\r'

def decode (s : List Char) : Option (List UInt8) := decodeGroups (s.filter fun c => !isSpace c)

/-! ## Results -/

theorem lt_digits (a b c : UInt8) :
    a.toNat / 4 < 64 ∧ a.toNat % 4 * 16 < 64 ∧ a.toNat % 4 * 16 + b.toNat / 16 < 64 ∧ b.toNat % 16 * 4 < 64 ∧
      b.toNat % 16 * 4 + c.toNat / 64 < 64 ∧ c.toNat % 64 < 64 := by
  have ha := a.toNat_lt
  have hb := b.toNat_lt
  have hc := c.toNat_lt
  omega

theorem mem_encode {s : List UInt8} {c : Char} (h : c ∈ encode s) : c ∈ alphabet ∨ c = '=' := by
  fun_induction encode s with
  | case1 => cases h
  | case2 a =>
    obtain ⟨h1, h2, -⟩ := lt_digits a a a
    simp only [List.mem_cons, List.not_mem_nil, or_false] at h
    rcases h with rfl | rfl | rfl | rfl
    · exact Or.inl (digit_mem _ h1)
    · exact Or.inl (digit_mem _ h2)
    · exact Or.inr rfl
    · exact Or.inr rfl
  | case3 a b =>
    obtain ⟨h1, -, h2, h3, -⟩ := lt_digits a b b
    simp only [List.mem_cons, List.not_mem_nil, or_false] at h
    rcases h with rfl | rfl | rfl | rfl
    · exact Or.inl (digit_mem _ h1)
    · exact Or.inl (digit_mem _ h2)
    · exact Or.inl (digit_mem _ h3)
    · exact Or.inr rfl
  | case4 a b x rest ih =>
    obtain ⟨h1, -, h2, -, h3, h4⟩ := lt_digits a b x
    simp only [List.mem_cons] at h
    rcases h with rfl | rfl | rfl | rfl | h
    · exact Or.inl (digit_mem _ h1)
    · exact Or.inl (digit_mem _ h2)
    · exact Or.inl (digit_mem _ h3)
    · exact Or.inl (digit_mem _ h4)
    · exact ih h

theorem length_encode (s : List UInt8) : (encode s).length = 4 * ((s.length + 2) / 3) := by
  fun_induction encode s with
  | case1 => rfl
  | case2 => simp
  | case3 => simp
  | case4 a b c rest ih =>
    simp only [List.length_cons, ih]
    omega

/-- the digits of one, two or three bytes give them back -/
theorem bytes_digits (a b c : UInt8) :
    bytes [a.toNat / 4, a.toNat % 4 * 16] = [a] ∧
    bytes [a.toNat / 4, a.toNat % 4 * 16 + b.toNat / 16, b.toNat % 16 * 4] = [a, b] ∧
    bytes [a.toNat / 4, a.toNat % 4 * 16 + b.toNat / 16, b.toNat % 16 * 4 + c.toNat / 64, c.toNat % 64] =
      [a, b, c] := by
  have ha := a.toNat_lt
  have hb := b.toNat_lt
  have hc := c.toNat_lt
  have hbyte : ∀ (x : UInt8) (n : ℕ), n = x.toNat → UInt8.ofNat n = x := by
    rintro x _ rfl
    exact UInt8.ofNat_toNat
  refine ⟨?_, ?_, ?_⟩ <;> simp only [bytes, List.cons.injEq, and_true]
  · exact hbyte a _ (by omega)
  · exact ⟨hbyte a _ (by omega), hbyte b _ (by omega)⟩
  · exact ⟨hbyte a _ (by omega), hbyte b _ (by omega), hbyte c _ (by omega)⟩

theorem decodeGroups_encode (s : List UInt8) : decodeGroups (encode s) = some s := by
  fun_induction encode s with
  | case1 => rfl
  | case2 a =>
    obtain ⟨h1, h2, -⟩ := lt_digits a a a
    rw [decodeGroups, if_pos rfl, if_neg (by simp), if_pos rfl]
    simp [value_digit _ h1, value_digit _ h2, (bytes_digits a a a).1]
  | case3 a b =>
    obtain ⟨h1, -, h2, h3, -⟩ := lt_digits a b b
    rw [decodeGroups, if_pos rfl, if_neg (by simp), if_neg (digit_ne_pad _ h3)]
    simp [value_digit _ h1, value_digit _ h2, value_digit _ h3, (bytes_digits a b b).2.1]
  | case4 a b c rest ih =>
    obtain ⟨h1, -, h2, -, h3, h4⟩ := lt_digits a b c
    rw [decodeGroups, if_neg (digit_ne_pad _ h4), ih]
    simp [value_digit _ h1, value_digit _ h2, value_digit _ h3, value_digit _ h4, (bytes_digits a b c).2.2]

theorem isSpace_encode {s : List UInt8} {c : Char} (h : c ∈ encode s) : isSpace c = false := by
  have hall : alphabet.all (fun c => !isSpace c) = true := rfl
  rcases mem_encode h with h | rfl
  · simpa using List.all_eq_true.1 hall c h
  · rfl

/-- **Decoding inverts encoding**, with white space anywhere around the digits. -/
theorem decode_encode {s : List UInt8} {t : List Char} (h : (t.filter fun c => !isSpace c) = encode s) :
    decode t = some s := by
  rw [decode, h, decodeGroups_encode]

theorem filter_encode (s : List UInt8) : ((encode s).filter fun c => !isSpace c) = encode s := by
  rw [List.filter_eq_self]
  intro c hc
  rw [isSpace_encode hc]
  rfl

end NotifyAgent.Lib.Base64
