/-
User ids made from Windows account names, in Rust (`user_id_from_username`) and Go (`userIDFromWindowsUsername`). An id
becomes one token of a subject, and the hash in it is taken before the name is sanitized.

- `username_ids`: both heads fail on blank names only, make ids of subject-safe characters, ignore a domain prefix, and
  give two names one id exactly when the sanitized names and the four hash bytes are equal.
-/
import Mathlib.Tactic
import NotifyAgent.Lib.Subject
import NotifyAgent.Core.HeadIdentity

namespace NotifyAgent.WindowsIdentity

open NotifyAgent.Text NotifyAgent.HeadIdentity
open NotifyAgent.Lib.Subject (tokens)

/-! ## Specification -/

/-- `[a-z0-9_-]` -/
def IdChar (c : Char) : Prop := asciiLower c.toNat = true ∨ asciiDigit c.toNat = true ∨ c = '_' ∨ c = '-'

/-- `[0-9a-f]` -/
def LowerHex (c : Char) : Prop := c ∈ "0123456789abcdef".toList

instance : DecidablePred IdChar := fun _ => inferInstanceAs (Decidable (_ ∨ _))

/-- no delimiter, wildcard or white space of a subject -/
def SubjectSafe (c : Char) : Prop := c ≠ '.' ∧ c ≠ '*' ∧ c ≠ '>' ∧ isWhitespace c = false

/-- the account name: trimmed, and from the last backslash on -/
def account (raw : Str) : Str := afterLast '\\' (trim raw)

/-- `id` is `u_`, a sanitized name, `_` and a hash -/
structure Framed (id sanitized hash : Str) : Prop where
  eq : id = "u_".toList ++ sanitized ++ "_".toList ++ hash
  nonempty : sanitized ≠ []
  idChars : ∀ c ∈ sanitized, IdChar c
  eight : hash.length = 8
  lowerHex : ∀ c ∈ hash, LowerHex c

/-- what ids are for: `normalize` is the head's lower-casing, `sanitize` its map of characters -/
structure Identifies (S : Sha256) (normalize : Str → Str) (sanitize : Char → Char) (userId : Str → Option Str) :
    Prop where
  fails_iff : ∀ raw, userId raw = none ↔ ∀ c ∈ account raw, isWhitespace c = true
  framed : ∀ raw id, userId raw = some id → ∃ sanitized hash, Framed id sanitized hash
  one_token : ∀ raw id, userId raw = some id → tokens id = [id] ∧ ∀ c ∈ id, SubjectSafe c
  domain : ∀ domain raw, '\\' ∉ raw → userId (domain ++ '\\' :: raw) = userId raw
  eq_iff : ∀ raw raw' id id', userId raw = some id → userId raw' = some id' →
    (id = id' ↔
      (normalize (trim (account raw))).map sanitize = (normalize (trim (account raw'))).map sanitize ∧
        (S.digest (utf8 (normalize (trim (account raw))))).take 4 =
          (S.digest (utf8 (normalize (trim (account raw'))))).take 4)

/-! ## Characters -/

theorem subjectSafe_of_idChar {c : Char} (h : IdChar c) : SubjectSafe c := by
  have hcode : ∀ d : Char, c = d → c.toNat = d.toNat := fun d hd => congrArg Char.toNat hd
  have hrange : (0x61 ≤ c.toNat ∧ c.toNat ≤ 0x7A) ∨ (0x30 ≤ c.toNat ∧ c.toNat ≤ 0x39) ∨ c.toNat = 0x5F ∨
      c.toNat = 0x2D := by
    rcases h with h | h | h | h
    · left
      simpa [asciiLower] using h
    · right; left
      simpa [asciiDigit] using h
    · exact Or.inr (Or.inr (Or.inl (hcode _ h)))
    · exact Or.inr (Or.inr (Or.inr (hcode _ h)))
  have hne : ∀ d : Char, d.toNat = 0x2E ∨ d.toNat = 0x2A ∨ d.toNat = 0x3E → c ≠ d := by
    intro d hd heq
    have hnat := hcode d heq
    omega
  refine ⟨hne '.' (by decide), hne '*' (by decide), hne '>' (by decide), ?_⟩
  unfold isWhitespace whiteSpace
  simp only [decide_eq_false_iff_not]
  omega

theorem idChar_of_lowerHex {c : Char} (h : LowerHex c) : IdChar c := by
  have hall : ∀ d ∈ "0123456789abcdef".toList, IdChar d := forall_of_all (by decide)
  exact hall c h

/-- the characters of an id are all safe -/
theorem Framed.subjectSafe {id sanitized hash : Str} (h : Framed id sanitized hash) : ∀ c ∈ id, SubjectSafe c := by
  intro c hc
  apply subjectSafe_of_idChar
  have hframe : ∀ d ∈ "u_".toList ++ "_".toList, IdChar d := forall_of_all (by decide)
  rw [h.eq] at hc
  simp only [List.mem_append] at hc
  rcases hc with ((hfront | hname) | hsep) | hhash
  · exact hframe c (List.mem_append_left _ hfront)
  · exact h.idChars c hname
  · exact hframe c (List.mem_append_right _ hsep)
  · exact idChar_of_lowerHex (h.lowerHex c hhash)

theorem Framed.one_token {id sanitized hash : Str} (h : Framed id sanitized hash) : tokens id = [id] := by
  apply List.splitOn_eq_singleton
  intro hdot
  exact (h.subjectSafe '.' hdot).1 rfl

/-! ## Hashes -/

theorem lowerHex_digitChar {n : ℕ} (hn : n < 16) : LowerHex (Nat.digitChar n) := by
  have hall : ∀ k < 16, Nat.digitChar k ∈ "0123456789abcdef".toList := by decide
  exact hall n hn

theorem digitChar_inj {m n : ℕ} (hm : m < 16) (hn : n < 16) (h : Nat.digitChar m = Nat.digitChar n) : m = n := by
  have hall : ∀ i < 16, ∀ j < 16, Nat.digitChar i = Nat.digitChar j → i = j := by decide
  exact hall m hm n hn h

theorem encodeToString_injective : Function.Injective encodeToString := by
  intro a
  induction a with
  | nil =>
    intro b h
    cases b with
    | nil => rfl
    | cons y b => simp [encodeToString, hexByte] at h
  | cons x a ih =>
    intro b h
    cases b with
    | nil => simp [encodeToString, hexByte] at h
    | cons y b =>
      have hx := x.toNat_lt
      have hy := y.toNat_lt
      simp only [encodeToString, List.flatMap_cons, hexByte, List.cons_append, List.nil_append, List.cons.injEq] at h
      obtain ⟨hhigh, hlow, hrest⟩ := h
      have hdiv := digitChar_inj (by omega) (by omega) hhigh
      have hmod := digitChar_inj (by omega) (by omega) hlow
      have hbyte : x = y := by
        rw [← UInt8.toNat_inj]
        omega
      rw [hbyte, ih hrest]

theorem hashPrefix8_inj {S : Sha256} {a b : Str} :
    hashPrefix8 S a = hashPrefix8 S b ↔ (S.digest (utf8 a)).take 4 = (S.digest (utf8 b)).take 4 :=
  encodeToString_injective.eq_iff

theorem lowerHex_hashPrefix8 (S : Sha256) (s : Str) : ∀ c ∈ hashPrefix8 S s, LowerHex c := by
  intro c hc
  simp only [hashPrefix8, List.mem_flatMap, hexByte, List.mem_cons, List.not_mem_nil, or_false] at hc
  obtain ⟨b, -, hdigit⟩ := hc
  have hb := b.toNat_lt
  rcases hdigit with rfl | rfl
  · exact lowerHex_digitChar (by omega)
  · exact lowerHex_digitChar (by omega)

/-! ## Names -/

theorem trim_account (raw : Str) : trim (account raw) = candidate raw := by
  rw [account, afterLast_eq]
  exact rust_candidate raw

theorem candidate_eq_nil {raw : Str} : candidate raw = [] ↔ ∀ c ∈ account raw, isWhitespace c = true := by
  rw [← trim_account]
  exact trimBy_eq_nil

theorem candidate_domain (domain : Str) {raw : Str} (h : '\\' ∉ raw) :
    candidate (domain ++ '\\' :: raw) = candidate raw := by
  have hall : ∀ c ∈ raw, (c != '\\') = true := fun c hc => by simpa using ne_of_mem_of_not_mem hc h
  have hlast : ∀ l : Str, (l ++ '\\' :: raw).rtakeWhile (fun c => c != '\\') = raw := by
    intro l
    simp only [List.rtakeWhile, List.reverse_append, List.reverse_cons, List.append_assoc]
    rw [List.takeWhile_append_of_pos fun c hc => hall c (List.mem_reverse.1 hc)]
    simp
  rw [candidate, candidate, hlast, List.rtakeWhile_eq_self_iff.2 hall]

/-! ## Each head -/

/-- a head whose ids are framed from its normalized candidate -/
theorem identifies {S : Sha256} {normalize : Str → Str} {sanitize : Char → Char} {userId : Str → Option Str}
    (hnil : ∀ s, normalize s = [] ↔ s = []) (hchars : ∀ s, ∀ c ∈ normalize s, IdChar (sanitize c))
    (heq : ∀ raw, userId raw =
      if candidate raw = [] then none
      else some ("u_".toList ++ (normalize (candidate raw)).map sanitize ++ "_".toList ++
        hashPrefix8 S (normalize (candidate raw)))) :
    Identifies S normalize sanitize userId := by
  have hsome : ∀ {raw id}, userId raw = some id → candidate raw ≠ [] ∧
      id = "u_".toList ++ (normalize (candidate raw)).map sanitize ++ "_".toList ++
        hashPrefix8 S (normalize (candidate raw)) := by
    intro raw id h
    rw [heq] at h
    split_ifs at h with hempty
    exact ⟨hempty, (Option.some.inj h).symm⟩
  have hframed : ∀ {raw id}, userId raw = some id → Framed id ((normalize (candidate raw)).map sanitize)
      (hashPrefix8 S (normalize (candidate raw))) := by
    intro raw id h
    obtain ⟨hne, hid⟩ := hsome h
    refine ⟨hid, ?_, ?_, length_hashPrefix8 S _, lowerHex_hashPrefix8 S _⟩
    · intro hmap
      exact hne ((hnil _).1 (List.map_eq_nil_iff.1 hmap))
    · intro c hc
      obtain ⟨d, hd, rfl⟩ := List.mem_map.1 hc
      exact hchars _ d hd
  refine ⟨fun raw => ?_, fun raw id h => ⟨_, _, hframed h⟩, fun raw id h => ?_, fun domain raw h => ?_, ?_⟩
  · rw [heq, ← candidate_eq_nil]
    split_ifs with hempty <;> simp [hempty]
  · exact ⟨(hframed h).one_token, (hframed h).subjectSafe⟩
  · rw [heq, heq, candidate_domain domain h]
  · intro raw raw' id id' h h'
    rw [(hsome h).2, (hsome h').2, trim_account, trim_account, ← hashPrefix8_inj]
    exact id_inj (by rw [length_hashPrefix8, length_hashPrefix8])

theorem idChar_sanitizeChar {c : Char} (h : asciiUpper c.toNat = false) : IdChar (sanitizeChar c) := by
  unfold sanitizeChar
  split_ifs with hkeep
  · simpa [IdChar, h, or_assoc] using hkeep
  · exact Or.inr (Or.inr (Or.inl rfl))

theorem idChar_sanitizeRune (c : Char) : IdChar (sanitizeRune c) := by
  unfold sanitizeRune
  split_ifs with hkeep
  · simpa [IdChar, or_assoc] using hkeep
  · exact Or.inr (Or.inr (Or.inl rfl))

/-- `to_lowercase` leaves no ASCII capital -/
theorem toLowercaseFrom_not_upper (U : Ucd) (before s : Str) :
    ∀ c ∈ U.toLowercaseFrom before s, asciiUpper c.toNat = false := by
  induction s generalizing before with
  | nil =>
    intro c hc
    cases hc
  | cons d s ih =>
    intro c hc
    rw [Ucd.toLowercaseFrom] at hc
    rcases List.mem_append.1 hc with hfirst | hrest
    · split_ifs at hfirst with hsigma
      · rw [List.mem_singleton.1 hfirst]
        rcases U.mapUppercaseSigma_cases before s with hs | hs <;> rw [hs] <;> decide
      · unfold Ucd.toLower at hfirst
        split_ifs at hfirst with hdotted
        · have hall : ∀ x ∈ ['i', '\u0307'], asciiUpper x.toNat = false := forall_of_all (by decide)
          exact hall c hfirst
        · rw [List.mem_singleton.1 hfirst]
          exact lower_not_upper U d
    · exact ih _ c hrest

/-- **Ids from account names.** Over every account name, in Rust and in Go. -/
theorem username_ids (U : Ucd) (S : Sha256) :
    Identifies S U.toLowercase sanitizeChar (userIdFromUsername U S) ∧
      Identifies S (goToLower U) sanitizeRune (userIDFromWindowsUsername U S) := by
  constructor
  · apply identifies
    · intro s
      exact U.toLowercase_eq_nil
    · intro s c hc
      exact idChar_sanitizeChar (toLowercaseFrom_not_upper U [] s c hc)
    · exact userIdFromUsername_eq U S
  · apply identifies
    · intro s
      exact List.map_eq_nil_iff
    · intro s c _
      exact idChar_sanitizeRune c
    · exact userIDFromWindowsUsername_eq U S

end NotifyAgent.WindowsIdentity
