/-
UTF-16. A character of the basic multilingual plane is one code unit, any other is a surrogate pair; a sequence of code
units that is not the encoding of a text has lone surrogates, which `decode` keeps apart.

- `decode_encode`: decoding an encoded text gives its characters;
- `length_encode`: one unit more for each supplementary character;
- `encode_dropWhile`, `encode_rdropWhile`, `encode_rtakeWhile`: cutting units by a test that agrees with a test on
  characters (`Agrees`) is cutting characters.
-/
import Mathlib.Tactic
import Mathlib.Data.List.DropRight

namespace NotifyAgent.Lib.Utf16

def Supplementary (c : Char) : Prop := 0x10000 ≤ c.toNat

instance : DecidablePred Supplementary := fun c => inferInstanceAs (Decidable (0x10000 ≤ c.toNat))

def encodeChar (c : Char) : List UInt16 :=
  if Supplementary c then
    [UInt16.ofNat (0xD800 + (c.toNat - 0x10000) / 0x400), UInt16.ofNat (0xDC00 + (c.toNat - 0x10000) % 0x400)]
  else [UInt16.ofNat c.toNat]

def encode (s : List Char) : List UInt16 := s.flatMap encodeChar

def HighSurrogate (u : UInt16) : Prop := 0xD800 ≤ u.toNat ∧ u.toNat < 0xDC00

def LowSurrogate (u : UInt16) : Prop := 0xDC00 ≤ u.toNat ∧ u.toNat < 0xE000

instance : DecidablePred HighSurrogate := fun _ => inferInstanceAs (Decidable (_ ∧ _))

instance : DecidablePred LowSurrogate := fun _ => inferInstanceAs (Decidable (_ ∧ _))

/-- a unit on its own: a character or a lone surrogate -/
def single (u : UInt16) : Char ⊕ UInt16 :=
  if HighSurrogate u ∨ LowSurrogate u then .inr u else .inl (Char.ofNat u.toNat)

def decode : List UInt16 → List (Char ⊕ UInt16)
  | [] => []
  | [u] => [single u]
  | u :: v :: rest =>
    if HighSurrogate u ∧ LowSurrogate v then
      .inl (Char.ofNat (0x10000 + (u.toNat - 0xD800) * 0x400 + (v.toNat - 0xDC00))) :: decode rest
    else single u :: decode (v :: rest)

@[simp] theorem encode_nil : encode [] = [] := rfl

@[simp] theorem encode_cons (c : Char) (s : List Char) : encode (c :: s) = encodeChar c ++ encode s := rfl

@[simp] theorem encode_append (a b : List Char) : encode (a ++ b) = encode a ++ encode b := List.flatMap_append

/-! ## Units of a character -/

theorem toNat_valid (c : Char) : c.toNat < 0xD800 ∨ (0xDFFF < c.toNat ∧ c.toNat < 0x110000) := c.valid

theorem toNat_plain {c : Char} (h : ¬ Supplementary c) : (UInt16.ofNat c.toNat).toNat = c.toNat := by
  unfold Supplementary at h
  rw [UInt16.toNat_ofNat']
  exact Nat.mod_eq_of_lt (by omega)

theorem encodeChar_plain {c : Char} (h : ¬ Supplementary c) : encodeChar c = [UInt16.ofNat c.toNat] := if_neg h

/-- the two units of a supplementary character -/
theorem encodeChar_pair {c : Char} (h : Supplementary c) :
    ∃ u v, encodeChar c = [u, v] ∧ HighSurrogate u ∧ LowSurrogate v ∧
      c.toNat = 0x10000 + (u.toNat - 0xD800) * 0x400 + (v.toNat - 0xDC00) := by
  have hv := toNat_valid c
  have hs := h
  unfold Supplementary at hs
  refine ⟨_, _, if_pos h, ?_⟩
  have hu : (UInt16.ofNat (0xD800 + (c.toNat - 0x10000) / 0x400)).toNat = 0xD800 + (c.toNat - 0x10000) / 0x400 := by
    rw [UInt16.toNat_ofNat']; exact Nat.mod_eq_of_lt (by omega)
  have hl : (UInt16.ofNat (0xDC00 + (c.toNat - 0x10000) % 0x400)).toNat = 0xDC00 + (c.toNat - 0x10000) % 0x400 := by
    rw [UInt16.toNat_ofNat']; exact Nat.mod_eq_of_lt (by omega)
  simp only [HighSurrogate, LowSurrogate, hu, hl]
  omega

/-- a unit of an encoded character is a surrogate or the character itself -/
theorem mem_encodeChar {c : Char} {u : UInt16} (h : u ∈ encodeChar c) :
    (Supplementary c ∧ 0xD800 ≤ u.toNat ∧ u.toNat < 0xE000) ∨ (¬ Supplementary c ∧ u.toNat = c.toNat) := by
  by_cases hs : Supplementary c
  · obtain ⟨a, b, he, ha, hb, -⟩ := encodeChar_pair hs
    rw [he] at h
    simp only [List.mem_cons, List.not_mem_nil, or_false] at h
    unfold HighSurrogate at ha
    unfold LowSurrogate at hb
    rcases h with rfl | rfl <;> exact Or.inl ⟨hs, by omega⟩
  · rw [encodeChar_plain hs, List.mem_singleton] at h
    exact Or.inr ⟨hs, by rw [h, toNat_plain hs]⟩

theorem encodeChar_ne_nil (c : Char) : encodeChar c ≠ [] := by
  unfold encodeChar; split_ifs <;> simp

/-! ## Decoding -/

theorem decode_encodeChar (c : Char) (rest : List UInt16) : decode (encodeChar c ++ rest) = .inl c :: decode rest := by
  by_cases hs : Supplementary c
  · obtain ⟨u, v, he, hu, hv, hc⟩ := encodeChar_pair hs
    rw [he]
    simp only [List.cons_append, List.nil_append, decode, hu, hv, and_self, if_true, ← hc, Char.ofNat_toNat]
  · have hplain := toNat_plain hs
    have hnot : ¬ (HighSurrogate (UInt16.ofNat c.toNat) ∨ LowSurrogate (UInt16.ofNat c.toNat)) := by
      have := toNat_valid c
      unfold HighSurrogate LowSurrogate
      omega
    have hsingle : single (UInt16.ofNat c.toNat) = .inl c := by
      rw [single, if_neg hnot, hplain, Char.ofNat_toNat]
    rw [encodeChar_plain hs]
    cases rest with
    | nil => simp [decode, hsingle]
    | cons v rest =>
      simp only [List.cons_append, List.nil_append, decode, hsingle]
      rw [if_neg fun h => hnot (Or.inl h.1)]

/-- **Decoding inverts encoding.** -/
theorem decode_encode (s : List Char) : decode (encode s) = s.map .inl := by
  induction s with
  | nil => rfl
  | cons c s ih => rw [encode_cons, decode_encodeChar, ih, List.map_cons]

theorem length_encode (s : List Char) :
    (encode s).length = s.length + s.countP (fun c => decide (Supplementary c)) := by
  induction s with
  | nil => rfl
  | cons c s ih =>
    rw [encode_cons, List.length_append, ih, List.length_cons, List.countP_cons, encodeChar]
    split_ifs <;> simp_all <;> omega

/-- a text of the basic multilingual plane is encoded unit by unit -/
theorem encode_plain {s : List Char} (h : ∀ c ∈ s, ¬ Supplementary c) :
    encode s = s.map fun c => UInt16.ofNat c.toNat := by
  induction s with
  | nil => rfl
  | cons c s ih =>
    rw [encode_cons, encodeChar_plain (h c (by simp)), ih fun d hd => h d (by simp [hd])]
    rfl

/-! ## Cutting and trimming -/

section
variable {p : UInt16 → Bool} {q : Char → Bool}

/-- a test on units that gives every unit of a character the verdict of a test on characters -/
def Agrees (p : UInt16 → Bool) (q : Char → Bool) : Prop := ∀ c, ∀ u ∈ encodeChar c, p u = q c

theorem encode_dropWhile (h : Agrees p q) (s : List Char) : (encode s).dropWhile p = encode (s.dropWhile q) := by
  induction s with
  | nil => rfl
  | cons c s ih =>
    rw [encode_cons, List.dropWhile_cons]
    cases hq : q c with
    | true =>
      rw [if_pos rfl, ← ih, List.dropWhile_append, List.dropWhile_eq_nil_iff.2 fun u hu => (h c u hu).trans hq]
      rfl
    | false =>
      rw [if_neg (by simp)]
      obtain ⟨u, us, he⟩ := List.exists_cons_of_ne_nil (encodeChar_ne_nil c)
      have hu : p u = false := (h c u (by simp [he])).trans hq
      rw [encode_cons, he, List.cons_append, List.dropWhile_cons, hu]
      rfl

theorem encode_rdropWhile (h : Agrees p q) (s : List Char) : (encode s).rdropWhile p = encode (s.rdropWhile q) := by
  induction s using List.reverseRecOn with
  | nil => rfl
  | append_singleton s c ih =>
    have hone : encode [c] = encodeChar c := by simp
    rw [encode_append, hone, List.rdropWhile_concat]
    cases hq : q c with
    | true =>
      rw [if_pos rfl, ← ih]
      have hall : ∀ u ∈ encodeChar c, p u = true := fun u hu => (h c u hu).trans hq
      clear hone
      generalize encodeChar c = l at hall
      induction l using List.reverseRecOn with
      | nil => simp
      | append_singleton l u ihl =>
        rw [← List.append_assoc, List.rdropWhile_concat_pos _ _ _ (hall u (by simp))]
        exact ihl fun v hv => hall v (by simp [hv])
    | false =>
      rw [if_neg (by simp), encode_append, hone]
      obtain ⟨us, u, he⟩ := (List.eq_nil_or_concat (encodeChar c)).resolve_left (encodeChar_ne_nil c)
      have hu : p u = false := (h c u (by simp [he])).trans hq
      rw [he, List.concat_eq_append, ← List.append_assoc, List.rdropWhile_concat_neg _ _ _ (by simp [hu])]

theorem encode_rtakeWhile (h : Agrees p q) (s : List Char) : (encode s).rtakeWhile p = encode (s.rtakeWhile q) := by
  have hsplit : encode (s.rdropWhile q) ++ (encode s).rtakeWhile p =
      encode (s.rdropWhile q) ++ encode (s.rtakeWhile q) := by
    rw [← encode_rdropWhile h, List.rdropWhile_append_rtakeWhile, encode_rdropWhile h, ← encode_append,
      List.rdropWhile_append_rtakeWhile]
  exact List.append_cancel_left hsplit

end

end NotifyAgent.Lib.Utf16
