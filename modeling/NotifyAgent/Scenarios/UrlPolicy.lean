/-
Do the Rust and the Go agent let the same URLs through? Both state a limit of 2,048 characters, and the URL libraries
are taken to agree on what they parse.

- `same_policy_iff`: the policies agree, and keep the limit, EXACTLY when a string that is not blank fits the limit in
  bytes or exceeds it in characters, and an https URL with a host has no blank text and no userinfo without credentials
  that only one of them rejects;
- `accented_rejected`: a string of 1,120 characters that Rust rejects for its length. Rust counts bytes.
-/
import Mathlib.Tactic
import NotifyAgent.Core.ActionUrl
import NotifyAgent.Core.HttpsUrl

namespace NotifyAgent.UrlPolicy

open NotifyAgent.Text NotifyAgent.ActionUrl NotifyAgent.HttpsUrl

/-! ## A common parse -/

/-- a host as text and as what it denotes -/
structure HostPart where
  text : Str
  kind : Host
deriving DecidableEq, Repr

/-- what both libraries find in a URL -/
structure Parsed where
  asStr : Str
  scheme : Str
  host : Option HostPart
  userinfo : Option Userinfo
deriving DecidableEq, Repr

/-- as the `url` crate gives it: no userinfo is an empty username, and an empty password is none -/
def Parsed.toUrl (p : Parsed) : Url where
  asStr := p.asStr
  scheme := p.scheme
  hostStr := p.host.map HostPart.text
  host := p.host.map HostPart.kind
  username := (p.userinfo.map Userinfo.username).getD []
  password := (p.userinfo.bind Userinfo.password).filter (· ≠ [])

/-- as `net/url` gives it: no host is an empty host name -/
def Parsed.toURL (p : Parsed) : URL where
  scheme := p.scheme
  hostname := (p.host.map HostPart.text).getD []
  user := p.userinfo

/-- Rust accepts `s` when the library's outcome on it is `o` -/
def RustAccepts (o : Option Parsed) (s : Str) : Prop := (validate (fun _ => o.map Parsed.toUrl) s).isSome

def GoAccepts (o : Option Parsed) (s : Str) : Prop := valid (fun _ => o.map Parsed.toURL) s = true

/-- the limit of the contract -/
def maxCharacters : ℕ := 2048

/-- a policy rejects no string for its length but the longer ones: any other has an outcome with which it is accepted -/
def LengthLaw (accepts : Option Parsed → Str → Prop) (s : Str) : Prop :=
  trim s ≠ [] → ((∃ o, accepts o s) ↔ s.length ≤ maxCharacters)

/-- the policies agree on `s` and `o`, and both keep the limit on `s` -/
def SamePolicy (o : Option Parsed) (s : Str) : Prop :=
  (RustAccepts o s ↔ GoAccepts o s) ∧ LengthLaw RustAccepts s ∧ LengthLaw GoAccepts s

/-! ## What each policy accepts -/

/-- an https URL with a host -/
def Parsed.Https (p : Parsed) : Prop := p.scheme = "https".toList ∧ ∃ h, p.host = some h ∧ h.text ≠ []

/-- a userinfo without credentials, as in `https://@host` and `https://:@host` -/
def Blank (u : Userinfo) : Prop := u.username = [] ∧ ∀ password, u.password = some password → password = []

theorem rustAccepts_iff {o : Option Parsed} {s : Str} :
    RustAccepts o s ↔ trim s ≠ [] ∧ len s ≤ maxCharacters ∧
      ∃ p, o = some p ∧ p.Https ∧ ∀ u, p.userinfo = some u → Blank u := by
  have huser : ∀ userinfo : Option Userinfo, (∀ u, userinfo = some u → Blank u) ↔
      (userinfo.map Userinfo.username).getD [] = [] ∧
        (userinfo.bind Userinfo.password).filter (· ≠ []) = none := by
    intro userinfo
    rcases userinfo with _ | ⟨username, _ | password⟩ <;> simp [Blank]
  unfold RustAccepts
  rw [Option.isSome_iff_exists]
  constructor
  · rintro ⟨u, hu⟩
    obtain ⟨ht, hl, hp, hs, ⟨h, hh, hne⟩, hname, hpw, -⟩ := validate_eq_some.1 hu
    obtain ⟨p, rfl, rfl⟩ := Option.map_eq_some_iff.1 hp
    obtain ⟨host, hhost, rfl⟩ := Option.map_eq_some_iff.1 hh
    exact ⟨ht, hl, p, rfl, ⟨hs, host, hhost, hne⟩, (huser _).2 ⟨hname, hpw⟩⟩
  · rintro ⟨ht, hl, p, rfl, ⟨hs, host, hhost, hne⟩, hu⟩
    obtain ⟨hname, hpw⟩ := (huser _).1 hu
    refine ⟨p.toUrl, validate_eq_some.2 ⟨ht, hl, rfl, hs, ⟨host.text, ?_, hne⟩, hname, hpw, ?_⟩⟩
    · simp [Parsed.toUrl, hhost]
    · simp [Parsed.toUrl, hhost]

theorem goAccepts_iff {o : Option Parsed} {s : Str} :
    GoAccepts o s ↔ s ≠ [] ∧ s.length ≤ maxCharacters ∧ ∃ p, o = some p ∧ p.Https ∧ p.userinfo = none := by
  have hhost : ∀ h : Option HostPart, (h.map HostPart.text).getD [] ≠ [] ↔ ∃ x, h = some x ∧ x.text ≠ [] := by
    intro h
    cases h <;> simp
  unfold GoAccepts
  rw [valid_iff]
  constructor
  · rintro ⟨hne, hl, u, hu, hs, hh, hn⟩
    obtain ⟨p, rfl, rfl⟩ := Option.map_eq_some_iff.1 hu
    exact ⟨hne, hl, p, rfl, ⟨hs, (hhost _).1 hh⟩, hn⟩
  · rintro ⟨hne, hl, p, rfl, ⟨hs, hh⟩, hn⟩
    exact ⟨hne, hl, p.toURL, rfl, hs, (hhost _).2 hh, hn⟩

theorem trim_nil : trim [] = [] := rfl

/-- a character takes at least one byte -/
theorem length_le_len (s : Str) : s.length ≤ len s := by
  induction s with
  | nil => exact Nat.zero_le _
  | cons c s ih =>
    have hc := Char.utf8Size_pos c
    simp only [len, utf8, List.flatMap_cons, List.length_append, String.length_utf8EncodeChar,
      List.length_cons] at ih ⊢
    omega

/-- an https URL with a host and no userinfo -/
def plainUrl : Parsed := ⟨"https://h/".toList, "https".toList, some ⟨['h'], .domain ['h']⟩, none⟩

theorem plainUrl_https : plainUrl.Https := ⟨rfl, _, rfl, by decide⟩

/-- Rust keeps the limit on a string exactly when its bytes do not tell more than its characters -/
theorem lengthLaw_rust {s : Str} :
    LengthLaw RustAccepts s ↔ (trim s ≠ [] → len s ≤ maxCharacters ∨ maxCharacters < s.length) := by
  have hle := length_le_len s
  have hex : trim s ≠ [] → ((∃ o, RustAccepts o s) ↔ len s ≤ maxCharacters) := by
    intro ht
    constructor
    · rintro ⟨o, ho⟩
      exact (rustAccepts_iff.1 ho).2.1
    · intro hl
      exact ⟨some plainUrl, rustAccepts_iff.2 ⟨ht, hl, _, rfl, plainUrl_https, fun u hu => by cases hu⟩⟩
  unfold LengthLaw
  constructor
  · intro h ht
    have := (hex ht).symm.trans (h ht)
    omega
  · intro h ht
    rw [hex ht]
    have := h ht
    omega

/-- Go keeps the limit -/
theorem lengthLaw_go (s : Str) : LengthLaw GoAccepts s := by
  intro ht
  constructor
  · rintro ⟨o, ho⟩
    exact (goAccepts_iff.1 ho).2.1
  · intro hl
    have hne : s ≠ [] := by
      rintro rfl
      exact ht trim_nil
    exact ⟨some plainUrl, goAccepts_iff.2 ⟨hne, hl, _, rfl, plainUrl_https, rfl⟩⟩

/-! ## Agreement -/

/-- what the two policies treat alike in an https URL with a host -/
def Alike (p : Parsed) (s : Str) : Prop :=
  (p.userinfo = none → trim s = [] → s = [] ∨ maxCharacters < s.length) ∧
    ∀ u, p.userinfo = some u → Blank u → trim s = [] ∨ maxCharacters < len s

theorem accepts_iff_of_https {p : Parsed} {s : Str} (h : p.Https)
    (hlen : trim s ≠ [] → len s ≤ maxCharacters ∨ maxCharacters < s.length) :
    (RustAccepts (some p) s ↔ GoAccepts (some p) s) ↔ Alike p s := by
  have hle := length_le_len s
  have hnil : s = [] → trim s = [] := by
    rintro rfl
    rfl
  rw [rustAccepts_iff, goAccepts_iff]
  simp only [Option.some.injEq, exists_eq_left', h, true_and, Alike]
  rcases hu : p.userinfo with _ | u
  · simp only [and_true, forall_const, reduceCtorEq, false_imp_iff, implies_true]
    by_cases ht : trim s = []
    · simp only [ht, ne_eq, not_true_eq_false, false_and, false_iff, not_and, not_le, forall_const]
      exact ⟨fun hn => or_iff_not_imp_left.2 hn, fun hn => or_iff_not_imp_left.1 hn⟩
    · have hs : s ≠ [] := fun hs => ht (hnil hs)
      have := hlen ht
      simp only [ne_eq, ht, not_false_eq_true, true_and, hs, false_imp_iff, iff_true]
      omega
  · simp only [reduceCtorEq, false_imp_iff, true_and, and_false, iff_false, not_and, Option.some.injEq, forall_eq']
    constructor
    · intro hn hp
      by_contra hc
      push Not at hc
      exact hn hc.1 hc.2 hp
    · intro hn ht hl hp
      rcases hn hp with hn | hn
      · exact ht hn
      · omega

/-- **The policies agree, characterised exactly.** -/
theorem same_policy_iff (o : Option Parsed) (s : Str) :
    SamePolicy o s ↔
      (trim s ≠ [] → len s ≤ maxCharacters ∨ maxCharacters < s.length) ∧
        ∀ p, o = some p → p.Https → Alike p s := by
  unfold SamePolicy
  rw [lengthLaw_rust]
  have hgo := lengthLaw_go s
  constructor
  · rintro ⟨hacc, hlen, -⟩
    refine ⟨hlen, ?_⟩
    rintro p rfl hp
    exact (accepts_iff_of_https hp hlen).1 hacc
  · rintro ⟨hlen, halike⟩
    refine ⟨?_, hlen, hgo⟩
    by_cases hp : ∃ p, o = some p ∧ p.Https
    · obtain ⟨p, rfl, hp⟩ := hp
      exact (accepts_iff_of_https hp hlen).2 (halike p rfl hp)
    · rw [rustAccepts_iff, goAccepts_iff]
      constructor
      · rintro ⟨-, -, p, ho, hs, -⟩
        exact absurd ⟨p, ho, hs⟩ hp
      · rintro ⟨-, -, p, ho, hs, -⟩
        exact absurd ⟨p, ho, hs⟩ hp

/-- **Bytes, not characters.** A URL of 1,120 characters that Go accepts and Rust rejects for its length. -/
theorem accented_rejected :
    ¬ SamePolicy (some plainUrl) ("https://example.com/".toList ++ List.replicate 1100 'é') := by
  rintro ⟨-, hrust, -⟩
  have hlaw := lengthLaw_rust.1 hrust (by decide +kernel)
  revert hlaw
  decide +kernel

/-- a userinfo without credentials: Rust sees none, Go sees userinfo -/
example :
    ¬ SamePolicy (some ⟨[], "https".toList, some ⟨['h'], .domain ['h']⟩, some ⟨[], some []⟩⟩) "https://:@h".toList := by
  rintro ⟨hacc, -⟩
  revert hacc
  unfold RustAccepts GoAccepts
  decide

end NotifyAgent.UrlPolicy
