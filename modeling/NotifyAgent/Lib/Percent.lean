/-
Percent encoding. The bytes that `keep` allows stand for themselves, as ASCII characters; every other byte is written as
a percent sign and two upper-case hex digits. A decoder reads escapes with digits of either case and fails on a percent
sign without two of them.

- `decode_encode`: what is encoded is decoded to the same bytes;
- `encode_injective`: so no two texts are encoded alike;
- `escaped_encode`: an encoded text has only kept characters and well-formed escapes.
-/
import Mathlib.Tactic

namespace NotifyAgent.Lib.Percent

def upperDigit (n : ℕ) : Char := "0123456789ABCDEF".toList.getD n '0'

def encodeByte (keep : UInt8 → Bool) (b : UInt8) : List Char :=
  if keep b then [Char.ofNat b.toNat] else ['%', upperDigit (b.toNat / 16), upperDigit (b.toNat % 16)]

def encode (keep : UInt8 → Bool) (bytes : List UInt8) : List Char := bytes.flatMap (encodeByte keep)

def digitValue (c : Char) : Option ℕ :=
  if '0' ≤ c ∧ c ≤ '9' then some (c.toNat - 0x30)
  else if 'A' ≤ c ∧ c ≤ 'F' then some (c.toNat - 0x41 + 10)
  else if 'a' ≤ c ∧ c ≤ 'f' then some (c.toNat - 0x61 + 10)
  else none

/-- a character that is in no escape stands for its UTF-8 encoding -/
def decode : List Char → Option (List UInt8)
  | [] => some []
  | c :: s =>
    if c = '%' then
      match s with
      | a :: b :: rest =>
        match digitValue a, digitValue b with
        | some x, some y => (decode rest).map fun t => UInt8.ofNat (16 * x + y) :: t
        | _, _ => none
      | _ => none
    else (decode s).map fun t => String.utf8EncodeChar c ++ t

/-- texts of allowed characters and well-formed escapes -/
inductive Escaped (allowed : Char → Prop) : List Char → Prop where
  | nil : Escaped allowed []
  | plain {c s} (hc : allowed c) (hs : Escaped allowed s) : Escaped allowed (c :: s)
  | escape {a b s} (ha : (digitValue a).isSome) (hb : (digitValue b).isSome) (hs : Escaped allowed s) :
      Escaped allowed ('%' :: a :: b :: s)

/-! ## Digits -/

theorem digitValue_upperDigit {n : ℕ} (hn : n < 16) : digitValue (upperDigit n) = some n := by
  have hall : ∀ k < 16, digitValue (upperDigit k) = some k := by decide
  exact hall n hn

theorem high_low (b : UInt8) :
    b.toNat / 16 < 16 ∧ b.toNat % 16 < 16 ∧ 16 * (b.toNat / 16) + b.toNat % 16 = b.toNat := by
  have hb := b.toNat_lt
  omega

/-! ## Reading back -/

section
variable {keep : UInt8 → Bool}

/-- what may be kept: ASCII characters other than the percent sign -/
def Plain (keep : UInt8 → Bool) : Prop := ∀ b, keep b = true → b.toNat < 0x80 ∧ b.toNat ≠ 0x25

theorem toNat_plain (hkeep : Plain keep) {b : UInt8} (hb : keep b = true) : (Char.ofNat b.toNat).toNat = b.toNat := by
  have hlt := (hkeep b hb).1
  have hvalid : b.toNat.isValidChar := Or.inl (by omega)
  rw [Char.ofNat, dif_pos hvalid]
  rfl

theorem utf8EncodeChar_plain (hkeep : Plain keep) {b : UInt8} (hb : keep b = true) :
    String.utf8EncodeChar (Char.ofNat b.toNat) = [b] := by
  have hnat := toNat_plain hkeep hb
  have hlt := (hkeep b hb).1
  have hval : (Char.ofNat b.toNat).val.toNat = b.toNat := hnat
  unfold String.utf8EncodeChar
  simp only [hval]
  rw [if_pos (by omega), UInt8.ofNat_toNat]

theorem decode_encodeByte (hkeep : Plain keep) (b : UInt8) (s : List Char) :
    decode (encodeByte keep b ++ s) = (decode s).map fun t => b :: t := by
  unfold encodeByte
  split_ifs with hb
  · have hpercent : Char.ofNat b.toNat ≠ '%' := by
      intro h
      have hnat := toNat_plain hkeep hb
      rw [h] at hnat
      exact (hkeep b hb).2 hnat.symm
    rw [List.cons_append, List.nil_append, decode.eq_def]
    simp only [if_neg hpercent, utf8EncodeChar_plain hkeep hb, List.cons_append, List.nil_append]
  · obtain ⟨hhigh, hlow, hsum⟩ := high_low b
    simp only [List.cons_append, List.nil_append, decode, if_true, digitValue_upperDigit hhigh,
      digitValue_upperDigit hlow, hsum, UInt8.ofNat_toNat]

/-- **What is encoded is read back.** -/
theorem decode_encode (hkeep : Plain keep) (bytes : List UInt8) : decode (encode keep bytes) = some bytes := by
  induction bytes with
  | nil => rfl
  | cons b bytes ih =>
    unfold encode at ih ⊢
    rw [List.flatMap_cons, decode_encodeByte hkeep, ih]
    rfl

theorem encode_injective (hkeep : Plain keep) : Function.Injective (encode keep) := by
  intro a b h
  have hdecode := decode_encode hkeep a
  rw [h, decode_encode hkeep b] at hdecode
  exact (Option.some.inj hdecode).symm

theorem escaped_encode {allowed : Char → Prop} (hallowed : ∀ b, keep b = true → allowed (Char.ofNat b.toNat))
    (bytes : List UInt8) : Escaped allowed (encode keep bytes) := by
  induction bytes with
  | nil => exact .nil
  | cons b bytes ih =>
    unfold encode at ih ⊢
    rw [List.flatMap_cons, encodeByte]
    split_ifs with hb
    · exact .plain (hallowed b hb) ih
    · obtain ⟨hhigh, hlow, -⟩ := high_low b
      refine .escape ?_ ?_ ih
      · rw [digitValue_upperDigit hhigh]
        rfl
      · rw [digitValue_upperDigit hlow]
        rfl

theorem Escaped.forall {allowed : Char → Prop} {s : List Char} (h : Escaped allowed s) :
    ∀ c ∈ s, allowed c ∨ c = '%' ∨ (digitValue c).isSome := by
  induction h with
  | nil =>
    intro c hc
    cases hc
  | plain hc _ ih =>
    intro c hmem
    rcases List.mem_cons.1 hmem with rfl | hmem
    · exact Or.inl hc
    · exact ih c hmem
  | escape ha hb _ ih =>
    intro c hmem
    simp only [List.mem_cons] at hmem
    rcases hmem with rfl | rfl | rfl | hmem
    · exact Or.inr (Or.inl rfl)
    · exact Or.inr (Or.inr ha)
    · exact Or.inr (Or.inr hb)
    · exact ih c hmem

end

end NotifyAgent.Lib.Percent
