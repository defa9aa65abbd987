/-
Do the three Windows heads derive one user id from one account name? The sources say that the algorithm is mirrored in
all three, so that switching heads never moves a user to another subject.

- `agree_iff`: they agree EXACTLY when the candidate is empty (all three fail), or it has no supplementary character and
  no U+0130 and either no capital sigma that ends a word or two spellings whose hash prefixes collide;
- `dotted_capital_disagrees`: an account name with U+0130. Rust lower-cases it to two characters, Go to `i`, and C#
  leaves it alone;
- `supplementary_disagrees`: a supplementary character is one `_` in Rust and Go and two in C#.
-/
import Mathlib.Tactic
import NotifyAgent.Core.HeadIdentity

namespace NotifyAgent.HeadAgreement

open NotifyAgent.Text NotifyAgent.HeadIdentity
open NotifyAgent.Lib.Utf16

/-- all three fail, or all three give one user id -/
def Agree (U : Ucd) (S : Sha256) (raw : Str) : Prop :=
  userIDFromWindowsUsername U S raw = userIdFromUsername U S raw ∧
    getUserId U S (encode raw) = (userIdFromUsername U S raw).map encode

/-- a capital sigma that `to_lowercase` takes to end a word -/
def FinalSigma (U : Ucd) (s : Str) : Prop :=
  ∃ pre post, s = pre ++ 'Σ' :: post ∧ U.mapUppercaseSigma pre.reverse post = 'ς'

/-! ## Sanitized names -/

section
variable (U : Ucd)

theorem sanitizeChar_lower (c : Char) : sanitizeChar (U.lower c) = sanitizeRune (U.lower c) := by
  simp [sanitizeChar, sanitizeRune, lower_not_upper]

/-- without U+0130, Rust and Go sanitize to the same text: both sigmas are replaced -/
theorem sanitized_rust (before : Str) {s : Str} (h : 'İ' ∉ s) :
    (U.toLowercaseFrom before s).map sanitizeChar = (s.map U.lower).map sanitizeRune := by
  induction s generalizing before with
  | nil => rfl
  | cons c s ih =>
    simp only [List.mem_cons, not_or] at h
    simp only [Ucd.toLowercaseFrom, List.map_append, ih _ h.2, List.map_cons]
    by_cases hc : c = 'Σ'
    · subst hc
      rw [if_pos rfl, U.lower_sigma]
      rcases U.mapUppercaseSigma_cases before s with hs | hs <;> rw [hs] <;> rfl
    · rw [if_neg hc, Ucd.toLower, if_neg (Ne.symm h.1), List.map_cons, sanitizeChar_lower]
      rfl

/-- without U+0130 and final sigmas, `to_lowercase` maps each character on its own -/
theorem toLowercaseFrom_eq_map (before : Str) {s : Str} (h : 'İ' ∉ s)
    (hs : ∀ pre post, s = pre ++ 'Σ' :: post → U.mapUppercaseSigma (pre.reverse ++ before) post ≠ 'ς') :
    U.toLowercaseFrom before s = s.map U.lower := by
  induction s generalizing before with
  | nil => rfl
  | cons c s ih =>
    simp only [List.mem_cons, not_or] at h
    have hrest := ih (c :: before) h.2 fun pre post heq => by
      simpa using hs (c :: pre) post (by rw [heq]; rfl)
    rw [Ucd.toLowercaseFrom, hrest, List.map_cons]
    by_cases hc : c = 'Σ'
    · subst hc
      have := (U.mapUppercaseSigma_cases before s).resolve_left (hs [] s rfl)
      rw [if_pos rfl, this, U.lower_sigma]
      rfl
    · rw [if_neg hc, Ucd.toLower, if_neg (Ne.symm h.1)]
      rfl

theorem toLowercase_eq_map {s : Str} (h : 'İ' ∉ s) (hs : ¬ FinalSigma U s) : U.toLowercase s = s.map U.lower :=
  toLowercaseFrom_eq_map U [] h fun pre post heq hf => hs ⟨pre, post, heq, by simpa using hf⟩

theorem sanitizeRune_plain (c : Char) : ¬ Supplementary (sanitizeRune c) := by
  unfold sanitizeRune Supplementary
  split_ifs with h
  · simp only [Bool.or_eq_true, beq_iff_eq, asciiLower, asciiDigit, decide_eq_true_eq] at h
    rcases h with ((h | h) | rfl) | rfl
    · omega
    · omega
    · decide
    · decide
  · decide

theorem lower_supplementary (c : Char) : Supplementary (U.lower c) ↔ Supplementary c := by
  have := U.lower_plane c
  unfold Supplementary
  omega

/-- a unit of the basic multilingual plane is sanitized like its character -/
theorem sanitizeUnit_plain {x : Char} (hx : ¬ Supplementary x) (hup : asciiUpper x.toNat = false) :
    sanitizeUnit (UInt16.ofNat x.toNat) = UInt16.ofNat (sanitizeRune x).toNat := by
  have hnat := toNat_plain hx
  have hunit : ∀ k : Char, ¬ Supplementary k → (UInt16.ofNat x.toNat = UInt16.ofNat k.toNat ↔ x = k) := by
    intro k hk
    rw [← UInt16.toNat_inj, hnat, toNat_plain hk, ← Char.toNat_inj]
  have hlow : (UInt16.ofNat x.toNat == 0x5F) = (x == '_') := by
    rw [Bool.eq_iff_iff, beq_iff_eq, beq_iff_eq]
    exact hunit '_' (by decide)
  have hdash : (UInt16.ofNat x.toNat == 0x2D) = (x == '-') := by
    rw [Bool.eq_iff_iff, beq_iff_eq, beq_iff_eq]
    exact hunit '-' (by decide)
  unfold sanitizeUnit sanitizeRune
  rw [hnat, hup, hlow, hdash, Bool.or_false]
  split_ifs <;> rfl

/-- in the basic multilingual plane and without U+0130, C# and Go sanitize to the same text -/
theorem sanitized_csharp {s : Str} (hs : ∀ c ∈ s, ¬ Supplementary c) (h : 'İ' ∉ s) :
    (encode (s.map (lowerInvariant U))).map sanitizeUnit = encode ((s.map U.lower).map sanitizeRune) := by
  have hlow : s.map (lowerInvariant U) = s.map U.lower :=
    List.map_congr_left fun c hc => if_neg fun (hci : c = 'İ') => h (hci ▸ hc)
  have hplain : ∀ c ∈ s.map U.lower, ¬ Supplementary c := by
    intro x hx
    obtain ⟨c, hc, rfl⟩ := List.mem_map.1 hx
    rw [lower_supplementary]
    exact hs c hc
  have hsan : ∀ c ∈ (s.map U.lower).map sanitizeRune, ¬ Supplementary c := by
    intro x hx
    obtain ⟨c, -, rfl⟩ := List.mem_map.1 hx
    exact sanitizeRune_plain c
  rw [hlow, encode_plain hplain, encode_plain hsan]
  simp only [List.map_map]
  exact List.map_congr_left fun c hc =>
    sanitizeUnit_plain (hplain _ (List.mem_map_of_mem hc)) (lower_not_upper U c)

end

/-! ## Ids -/

section
variable (U : Ucd) (S : Sha256)

theorem count_eq_zero_of_sanitized {s : Str}
    (h : (s.map U.lower).map sanitizeRune = (U.toLowercase s).map sanitizeChar) : 'İ' ∉ s := by
  have hlen := congrArg List.length h
  simp only [List.length_map, Ucd.toLowercase, U.length_toLowercaseFrom] at hlen
  exact List.count_eq_zero.1 (by omega)

theorem plain_of_sanitized {s : Str} (h : 'İ' ∉ s)
    (heq : (encode (s.map (lowerInvariant U))).map sanitizeUnit = encode ((s.map U.lower).map sanitizeRune)) :
    ∀ c ∈ s, ¬ Supplementary c := by
  have hsan : ((s.map U.lower).map sanitizeRune).countP (fun c => decide (Supplementary c)) = 0 := by
    rw [List.countP_eq_zero]
    intro x hx
    obtain ⟨c, -, rfl⟩ := List.mem_map.1 hx
    simpa using sanitizeRune_plain c
  have hlen := congrArg List.length heq
  rw [List.length_map, length_encode, length_encode, hsan] at hlen
  simp only [List.length_map] at hlen
  have hzero : (s.map (lowerInvariant U)).countP (fun c => decide (Supplementary c)) = 0 := by omega
  rw [List.countP_eq_zero] at hzero
  intro c hc
  have := hzero _ (List.mem_map_of_mem hc)
  rw [lowerInvariant, if_neg fun (hci : c = 'İ') => h (hci ▸ hc)] at this
  simpa [lower_supplementary] using this

/-- the hash suffix keeps its length in UTF-16 units -/
theorem length_encode_hashPrefix8 (t : Str) : (encode (hashPrefix8 S t)).length = 8 := by
  rw [encode_plain, List.length_map, length_hashPrefix8]
  intro c hc
  simp only [hashPrefix8, List.mem_flatMap, hexByte] at hc
  obtain ⟨b, -, hc⟩ := hc
  have hb := b.toNat_lt
  have hdigits : ∀ n < 16, ¬ Supplementary (Nat.digitChar n) := by decide
  simp only [List.mem_cons, List.not_mem_nil, or_false] at hc
  rcases hc with rfl | rfl
  · exact hdigits _ (by omega)
  · exact hdigits _ (by omega)

/-- the heads agree when the sanitized texts and the hash suffixes agree, one by one -/
theorem agree_parts {raw : Str} (hne : candidate raw ≠ []) :
    Agree U S raw ↔
      (((candidate raw).map U.lower).map sanitizeRune = (U.toLowercase (candidate raw)).map sanitizeChar ∧
        hashPrefix8 S ((candidate raw).map U.lower) = hashPrefix8 S (U.toLowercase (candidate raw))) ∧
      (encode ((candidate raw).map (lowerInvariant U))).map sanitizeUnit =
          encode ((U.toLowercase (candidate raw)).map sanitizeChar) ∧
        encode (hashPrefix8 S ((candidate raw).map (lowerInvariant U))) =
          encode (hashPrefix8 S (U.toLowercase (candidate raw))) := by
  unfold Agree
  rw [userIdFromUsername_eq, userIDFromWindowsUsername_eq, getUserId_eq]
  simp only [hne, if_false, Option.map_some, Option.some.injEq]
  rw [id_inj (by simp only [length_hashPrefix8]), encode_append, encode_append, encode_append]
  rw [id_inj (by simp only [length_encode_hashPrefix8])]

/-- heads that agree on a name have no supplementary character and no U+0130 in it -/
theorem plain_of_agree {raw : Str} (hne : candidate raw ≠ []) (h : Agree U S raw) :
    ∀ c ∈ candidate raw, ¬ Supplementary c ∧ c ≠ 'İ' := by
  obtain ⟨⟨hsan, -⟩, hcs, -⟩ := (agree_parts U S hne).1 h
  have hdot : 'İ' ∉ candidate raw := count_eq_zero_of_sanitized U hsan
  have hplain := plain_of_sanitized U hdot (by rw [hcs, hsan])
  intro c hc
  exact ⟨hplain c hc, fun hci => hdot (hci ▸ hc)⟩

/-- **Agreement of the heads, characterised exactly.** -/
theorem agree_iff (raw : Str) :
    Agree U S raw ↔ candidate raw = [] ∨
      ((∀ c ∈ candidate raw, ¬ Supplementary c ∧ c ≠ 'İ') ∧
        (¬ FinalSigma U (candidate raw) ∨
          hashPrefix8 S (U.toLowercase (candidate raw)) = hashPrefix8 S ((candidate raw).map U.lower))) := by
  rcases eq_or_ne (candidate raw) [] with hempty | hne
  · unfold Agree
    rw [userIdFromUsername_eq, userIDFromWindowsUsername_eq, getUserId_eq]
    simp [hempty]
  simp only [hne, false_or]
  constructor
  · intro h
    obtain ⟨⟨-, hgo⟩, -⟩ := (agree_parts U S hne).1 h
    exact ⟨plain_of_agree U S hne h, Or.inr hgo.symm⟩
  · rintro ⟨hall, hsigma⟩
    apply (agree_parts U S hne).2
    have hdot : 'İ' ∉ candidate raw := fun hc => (hall _ hc).2 rfl
    have hhash : (candidate raw).map (lowerInvariant U) = (candidate raw).map U.lower :=
      List.map_congr_left fun c hc => if_neg fun (hci : c = 'İ') => hdot (hci ▸ hc)
    have hsan := sanitized_rust U [] hdot
    have hgo : hashPrefix8 S ((candidate raw).map U.lower) = hashPrefix8 S (U.toLowercase (candidate raw)) := by
      rcases hsigma with hsigma | hsigma
      · rw [toLowercase_eq_map U hdot hsigma]
      · exact hsigma.symm
    refine ⟨⟨hsan.symm, hgo⟩, ?_, ?_⟩
    · rw [sanitized_csharp U (fun c hc => (hall c hc).1) hdot]
      exact congrArg encode hsan.symm
    · rw [hhash, hgo]

end

/-! ## Witnesses -/

/-- **A dotted capital.** For the account name `İlker` the heads give different ids. -/
theorem dotted_capital_disagrees : ¬ ∃ (U : Ucd) (S : Sha256), Agree U S "İlker".toList := by
  rintro ⟨U, S, h⟩
  exact (plain_of_agree U S (by decide) h 'İ' (by decide)).2 rfl

/-- a supplementary character is one underscore in Rust and two in C# -/
theorem supplementary_disagrees : ¬ ∃ (U : Ucd) (S : Sha256), Agree U S "😀".toList := by
  rintro ⟨U, S, h⟩
  exact (plain_of_agree U S (by decide) h '😀' (by decide)).1 (by decide)

end NotifyAgent.HeadAgreement
