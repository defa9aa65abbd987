/-
How the three Windows heads derive a user id from the Windows account name: Rust's `user_id_from_username`, Go's
`userIDFromWindowsUsername` and C#'s `WindowsUsernameIdentityProvider`. All three strip a domain prefix, trim,
lower-case, sanitize, and append eight hex digits of the SHA-256 of the lower-cased name. Rust and Go work on scalar
values, C# on UTF-16 code units.

The three whitespace predicates (`char::is_whitespace`, `unicode.IsSpace`, `char.IsWhiteSpace`) are the White_Space
property. The three lower-casings differ: Rust's `to_lowercase` has the final sigma and maps U+0130 to two characters;
Go's `ToLower` maps each rune on its own; C#'s `ToLowerInvariant` does the same but leaves U+0130 alone.

- `candidate`: the trimmed account name, the same in all three (`rust_candidate`, `go_candidate`, `csharp_candidate`);
- `userIdFromUsername_eq`, `userIDFromWindowsUsername_eq`, `getUserId_eq`: each head's id from the candidate.
-/
import Mathlib.Tactic
import NotifyAgent.Lib.Utf16
import NotifyAgent.Core.Text

namespace NotifyAgent.HeadIdentity

open NotifyAgent.Text
open NotifyAgent.Lib.Utf16

/-- SHA-256, a library's in all three heads -/
structure Sha256 where
  digest : List UInt8 → List UInt8
  length_digest : ∀ bytes, (digest bytes).length = 32

/-! ## The shared pieces -/

section
variable {α : Type} [DecidableEq α]

/-- `LastIndexByte`, `LastIndexOf` -/
def lastIndexOf (a : α) : List α → Option ℕ
  | [] => none
  | x :: xs =>
    match lastIndexOf a xs with
    | some i => some (i + 1)
    | none => if x = a then some 0 else none

/-- what follows the last occurrence, everything if there is none -/
def afterLast (a : α) (s : List α) : List α :=
  match lastIndexOf a s with
  | some idx => s.drop (idx + 1)
  | none => s

end

/-- one byte as two lower-case hex digits -/
def hexByte (b : UInt8) : Str := [Nat.digitChar (b.toNat / 16), Nat.digitChar (b.toNat % 16)]

def asciiLower (n : ℕ) : Bool := 0x61 ≤ n ∧ n ≤ 0x7A

def asciiUpper (n : ℕ) : Bool := 0x41 ≤ n ∧ n ≤ 0x5A

def asciiDigit (n : ℕ) : Bool := 0x30 ≤ n ∧ n ≤ 0x39

/-! ## Rust -/

/-- `strip_domain_prefix`: the first piece of `rsplit('\\')` is what follows the last backslash -/
def stripDomainPrefix (raw : Str) : Str := raw.rtakeWhile fun c => c != '\\'

/-- the closure of `user_id_from_username` that sanitizes one `char` -/
def sanitizeChar (c : Char) : Char :=
  if asciiLower c.toNat || asciiUpper c.toNat || asciiDigit c.toNat || c == '_' || c == '-' then c else '_'

/-- `hash_prefix8` -/
def hashPrefix8 (S : Sha256) (input : Str) : Str := ((S.digest (utf8 input)).take 4).flatMap hexByte

/-- `user_id_from_username` -/
def userIdFromUsername (U : Ucd) (S : Sha256) (raw : Str) : Option Str :=
  let stripped := stripDomainPrefix (trim raw)
  let normalized := U.toLowercase (trim stripped)
  if normalized.isEmpty then none
  else some ("u_".toList ++ normalized.map sanitizeChar ++ "_".toList ++ hashPrefix8 S normalized)

/-! ## Go -/

/-- `strings.ToLower` -/
def goToLower (U : Ucd) (s : Str) : Str := s.map U.lower

/-- the `switch` of `sanitizeForIdentity`, which admits lower-case letters only -/
def sanitizeRune (r : Char) : Char :=
  if asciiLower r.toNat || asciiDigit r.toNat || r == '_' || r == '-' then r else '_'

def sanitizeForIdentity (s : Str) : Str := s.map sanitizeRune

/-- `hex.EncodeToString` -/
def encodeToString (bytes : List UInt8) : Str := bytes.flatMap hexByte

def userIDFromWindowsUsername (U : Ucd) (S : Sha256) (raw : Str) : Option Str :=
  let name := afterLast '\\' raw
  let normalized := goToLower U (trim name)
  if normalized.isEmpty then none
  else
    let sum := S.digest (utf8 normalized)
    some ("u_".toList ++ sanitizeForIdentity normalized ++ "_".toList ++ encodeToString (sum.take 4))

/-! ## C# -/

/-- the simple lower-case mapping of the invariant culture -/
def lowerInvariant (U : Ucd) (c : Char) : Char := if c = 'İ' then c else U.lower c

/-- `ToLowerInvariant`: lone surrogates stay as they are -/
def toLowerInvariant (U : Ucd) (s : List UInt16) : List UInt16 :=
  (decode s).flatMap fun
    | .inl c => encodeChar (lowerInvariant U c)
    | .inr u => [u]

/-- `Encoding.UTF8.GetBytes`: a lone surrogate becomes U+FFFD -/
def getBytes (s : List UInt16) : List UInt8 :=
  (decode s).flatMap fun
    | .inl c => utf8 [c]
    | .inr _ => utf8 ['\uFFFD']

/-- `char.IsWhiteSpace` -/
def isWhiteSpace (u : UInt16) : Bool := whiteSpace u.toNat

/-- the `Select` of `GetIdentityAsync` on one code unit -/
def sanitizeUnit (u : UInt16) : UInt16 :=
  if asciiLower u.toNat || asciiUpper u.toNat || asciiDigit u.toNat || u == 0x5F || u == 0x2D then u else 0x5F

/-- `Convert.ToHexString` -/
def toHexString (bytes : List UInt8) : List UInt16 :=
  encode (bytes.flatMap fun b => [hexUpper (b.toNat / 16), hexUpper (b.toNat % 16)])

/-- the user id of `GetIdentityAsync` -/
def getUserId (U : Ucd) (S : Sha256) (raw : List UInt16) : Option (List UInt16) :=
  let candidate := toLowerInvariant U (trimBy isWhiteSpace (afterLast 0x5C raw))
  if candidate.length = 0 then none
  else
    let hash := S.digest (getBytes candidate)
    let hash8 := toLowerInvariant U (toHexString (hash.take 4))
    some (encode "u_".toList ++ candidate.map sanitizeUnit ++ encode "_".toList ++ hash8)

/-! ## The candidate -/

section
variable {α : Type} [DecidableEq α]

theorem lastIndexOf_spec (a : α) (s : List α) :
    (lastIndexOf a s = none ∧ a ∉ s) ∨
      ∃ pre post, s = pre ++ a :: post ∧ a ∉ post ∧ lastIndexOf a s = some pre.length := by
  induction s with
  | nil => exact Or.inl ⟨rfl, by simp⟩
  | cons x xs ih =>
    unfold lastIndexOf
    rcases ih with ⟨hn, hmem⟩ | ⟨pre, post, hs, hmem, hi⟩
    · rw [hn]
      by_cases hx : x = a
      · exact Or.inr ⟨[], xs, by simp [hx], hmem, by simp [hx]⟩
      · exact Or.inl ⟨by simp [hx], by simp [Ne.symm hx, hmem]⟩
    · exact Or.inr ⟨x :: pre, post, by simp [hs], hmem, by simp [hi]⟩

theorem afterLast_eq (a : α) (s : List α) : afterLast a s = s.rtakeWhile fun x => x != a := by
  unfold afterLast
  rcases lastIndexOf_spec a s with ⟨hn, hmem⟩ | ⟨pre, post, hs, hmem, hi⟩
  · rw [hn]
    exact (List.rtakeWhile_eq_self_iff.2 fun x hx => by simpa using ne_of_mem_of_not_mem hx hmem).symm
  · have hdrop : (pre ++ a :: post).drop (pre.length + 1) = post := by simp
    have hall : ∀ x ∈ post.reverse, (x != a) = true := fun x hx => by
      simpa using ne_of_mem_of_not_mem (List.mem_reverse.1 hx) hmem
    rw [hi, hs]
    simp only [hdrop, List.rtakeWhile, List.reverse_append, List.reverse_cons, List.append_assoc]
    rw [List.takeWhile_append_of_pos hall]
    simp

end

/-- the trimmed account name without a domain prefix -/
def candidate (raw : Str) : Str := trim (raw.rtakeWhile fun c => c != '\\')

/-- what follows the last separator, with parts around the text that have no separator -/
theorem rtakeWhile_around {α : Type*} {p : α → Bool} {a s b : List α} (ha : ∀ c ∈ a, p c = true)
    (hb : ∀ c ∈ b, p c = true) :
    (a ++ (s ++ b)).rtakeWhile p = (if ∀ c ∈ s, p c = true then a else []) ++ (s.rtakeWhile p ++ b) := by
  have htail : ∀ l : List α, (l ++ b).rtakeWhile p = l.rtakeWhile p ++ b := fun l => by
    simp only [List.rtakeWhile, List.reverse_append]
    rw [List.takeWhile_append_of_pos fun c hc => hb c (List.mem_reverse.1 hc)]
    simp
  rw [← List.append_assoc, htail, ← List.append_assoc]
  congr 1
  split_ifs with hs
  · rw [List.rtakeWhile_eq_self_iff.2 hs, List.rtakeWhile_eq_self_iff]
    intro c hc
    exact (List.mem_append.1 hc).elim (ha c) (hs c)
  · simp only [List.rtakeWhile, List.reverse_append, List.nil_append]
    rw [List.takeWhile_append, if_neg]
    intro hlen
    exact hs fun c hc => List.mem_takeWhile_imp
      (((List.takeWhile_prefix p).eq_of_length hlen).symm ▸ List.mem_reverse.2 hc)

theorem rust_candidate (raw : Str) : trim (stripDomainPrefix (trim raw)) = candidate raw := by
  have hws : ∀ c, isWhitespace c = true → (c != '\\') = true := fun c hc => by
    by_contra hne
    have : c = '\\' := by simpa using hne
    rw [this] at hc
    revert hc; decide
  obtain ⟨a, b, hraw, ha, hb⟩ := exists_trimBy isWhitespace raw
  unfold candidate stripDomainPrefix
  rw [trim, trim, trim]
  conv_rhs => rw [hraw, rtakeWhile_around (fun c hc => hws c (ha c hc)) fun c hc => hws c (hb c hc)]
  rw [trimBy_append_left, trimBy_append_right hb]
  intro c hc
  split_ifs at hc
  · exact ha c hc
  · cases hc

theorem go_candidate (raw : Str) : trim (afterLast '\\' raw) = candidate raw := by rw [afterLast_eq, candidate]

theorem agrees_whiteSpace : Agrees isWhiteSpace isWhitespace := by
  intro c u hu
  unfold isWhiteSpace isWhitespace
  rcases mem_encodeChar hu with ⟨hs, hlo, hhi⟩ | ⟨-, heq⟩
  · unfold Supplementary at hs
    have hnone : ∀ n, 0xD800 ≤ n → (n < 0xE000 ∨ 0x10000 ≤ n) → whiteSpace n = false := fun n h1 h2 => by
      unfold whiteSpace
      simp only [decide_eq_false_iff_not]
      omega
    rw [hnone _ hlo (Or.inl hhi), hnone _ (by omega) (Or.inr hs)]
  · rw [heq]

theorem agrees_backslash : Agrees (fun u => u != 0x5C) (fun c => c != '\\') := by
  intro c u hu
  have hu' : u = 0x5C ↔ u.toNat = 0x5C := by rw [← UInt16.toNat_inj]; rfl
  have hc' : c = '\\' ↔ c.toNat = 0x5C := by
    constructor
    · rintro rfl; rfl
    · intro h; rw [← Char.ofNat_toNat c, h]
  have hiff : u = 0x5C ↔ c = '\\' := by
    rw [hu', hc']
    rcases mem_encodeChar hu with ⟨hs, hlo, hhi⟩ | ⟨-, heq⟩
    · unfold Supplementary at hs; omega
    · rw [heq]
  exact Bool.eq_iff_iff.2 (by simpa using not_congr hiff)

theorem csharp_candidate (raw : Str) : trimBy isWhiteSpace (afterLast 0x5C (encode raw)) = encode (candidate raw) := by
  rw [afterLast_eq, encode_rtakeWhile agrees_backslash, trimBy, encode_dropWhile agrees_whiteSpace,
    encode_rdropWhile agrees_whiteSpace]
  rfl

/-! ## The parts of an id -/

theorem lower_not_upper (U : Ucd) (c : Char) : asciiUpper (U.lower c).toNat = false := by
  unfold asciiUpper
  simp only [decide_eq_false_iff_not]
  intro h
  rcases U.ascii_lower c (by omega) with hc | rfl | ⟨-, hk⟩
  · rw [U.lower_ascii c hc, toLower_toNat] at h
    split_ifs at h <;> omega
  · rw [U.lower_dotted] at h
    revert h; decide
  · rw [hk] at h
    revert h; decide

theorem length_hashPrefix8 (S : Sha256) (s : Str) : (hashPrefix8 S s).length = 8 := by
  simp [hashPrefix8, hexByte, S.length_digest, List.length_flatMap]

/-- ids whose hash parts have one length are equal part by part -/
theorem id_inj {α : Type} {p q a b h h' : List α} (hlen : h.length = h'.length) :
    p ++ a ++ q ++ h = p ++ b ++ q ++ h' ↔ a = b ∧ h = h' := by
  constructor
  · intro heq
    obtain ⟨hfront, hhash⟩ := List.append_inj' heq hlen
    rw [List.append_cancel_right_eq, List.append_cancel_left_eq] at hfront
    exact ⟨hfront, hhash⟩
  · rintro ⟨rfl, rfl⟩; rfl

/-! ## Each head from the candidate -/

theorem toLowerInvariant_encode (U : Ucd) (s : Str) :
    toLowerInvariant U (encode s) = encode (s.map (lowerInvariant U)) := by
  rw [toLowerInvariant, decode_encode]
  simp only [encode, List.flatMap_map]

theorem getBytes_encode (s : Str) : getBytes (encode s) = utf8 s := by
  simp only [getBytes, decode_encode, List.flatMap_map, utf8, List.flatMap_cons, List.flatMap_nil, List.append_nil]

theorem lowerInvariant_hexUpper (U : Ucd) {n : ℕ} (h : n < 16) : lowerInvariant U (hexUpper n) = Nat.digitChar n := by
  have hfacts : ∀ n < 16, hexUpper n ≠ 'İ' ∧ (hexUpper n).toNat < 0x80 ∧ (hexUpper n).toLower = Nat.digitChar n := by
    decide
  obtain ⟨hne, hascii, hlow⟩ := hfacts n h
  rw [lowerInvariant, if_neg hne, U.lower_ascii _ hascii, hlow]

/-- `ToHexString` and lower-casing give the same digits as the other two heads -/
theorem toLowerInvariant_toHexString (U : Ucd) (bytes : List UInt8) :
    toLowerInvariant U (toHexString bytes) = encode (encodeToString bytes) := by
  rw [toHexString, toLowerInvariant_encode, encodeToString]
  congr 1
  rw [List.map_flatMap]
  congr 1
  funext b
  have hb := b.toNat_lt
  simp only [List.map_cons, List.map_nil, hexByte]
  rw [lowerInvariant_hexUpper U (by omega), lowerInvariant_hexUpper U (by omega)]

theorem userIdFromUsername_eq (U : Ucd) (S : Sha256) (raw : Str) :
    userIdFromUsername U S raw =
      if candidate raw = [] then none
      else some ("u_".toList ++ (U.toLowercase (candidate raw)).map sanitizeChar ++ "_".toList ++
        hashPrefix8 S (U.toLowercase (candidate raw))) := by
  simp only [userIdFromUsername, rust_candidate, List.isEmpty_iff, U.toLowercase_eq_nil]

theorem userIDFromWindowsUsername_eq (U : Ucd) (S : Sha256) (raw : Str) :
    userIDFromWindowsUsername U S raw =
      if candidate raw = [] then none
      else some ("u_".toList ++ ((candidate raw).map U.lower).map sanitizeRune ++ "_".toList ++
        hashPrefix8 S ((candidate raw).map U.lower)) := by
  simp only [userIDFromWindowsUsername, go_candidate, goToLower, List.isEmpty_iff, List.map_eq_nil_iff]
  rfl

theorem getUserId_eq (U : Ucd) (S : Sha256) (raw : Str) :
    getUserId U S (encode raw) =
      if candidate raw = [] then none
      else some (encode "u_".toList ++ (encode ((candidate raw).map (lowerInvariant U))).map sanitizeUnit ++
        encode "_".toList ++ encode (hashPrefix8 S ((candidate raw).map (lowerInvariant U)))) := by
  have hempty : (encode ((candidate raw).map (lowerInvariant U))).length = 0 ↔ candidate raw = [] := by
    rw [length_encode, List.length_map, ← List.length_eq_zero_iff]
    have := List.countP_le_length (p := fun c => decide (Supplementary c)) (l := (candidate raw).map (lowerInvariant U))
    rw [List.length_map] at this
    omega
  simp only [getUserId, csharp_candidate, toLowerInvariant_encode, hempty, getBytes_encode,
    toLowerInvariant_toHexString]
  rfl

end NotifyAgent.HeadIdentity
