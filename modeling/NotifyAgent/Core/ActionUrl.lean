/-
The HTTPS URL policy of the Rust agent (`action_url.rs`). Parsing is the `url` crate's and is a parameter; the policy
is what this repository adds to it.

- `validate_eq_some`: exactly which parsed URLs the policy lets through.
-/
import Mathlib.Tactic
import NotifyAgent.Core.Text

namespace NotifyAgent.ActionUrl

open NotifyAgent.Text

/-- `url::Host` -/
inductive Host where
  | domain (name : Str)
  | ipv4 (address : ℕ)
  | ipv6 (address : ℕ)
deriving DecidableEq, Repr

/-- what the policy reads of a parsed `url::Url` -/
structure Url where
  /-- `as_str`: the serialization -/
  asStr : Str
  scheme : Str
  hostStr : Option Str
  host : Option Host
  username : Str
  password : Option Str
deriving DecidableEq, Repr

def maxUrlLength : ℕ := 2048

/-- `action_url::validate`, over the URL parser -/
def validate (parse : Str → Option Url) (value : Str) : Option Url :=
  if (trim value).isEmpty ∨ len value > maxUrlLength then none
  else
    match parse value with
    | none => none
    | some parsed =>
      if parsed.scheme ≠ "https".toList then none
      else if parsed.hostStr.all List.isEmpty then none
      else if ¬ parsed.username.isEmpty ∨ parsed.password.isSome then none
      else
        match parsed.host with
        | some (.domain _) | some (.ipv4 _) | some (.ipv6 _) => some parsed
        | none => none

theorem validate_eq_some {parse : Str → Option Url} {value : Str} {u : Url} :
    validate parse value = some u ↔
      trim value ≠ [] ∧ len value ≤ maxUrlLength ∧ parse value = some u ∧ u.scheme = "https".toList ∧
        (∃ h, u.hostStr = some h ∧ h ≠ []) ∧ u.username = [] ∧ u.password = none ∧ u.host.isSome := by
  unfold validate
  by_cases h1 : (trim value).isEmpty ∨ len value > maxUrlLength
  · rw [if_pos h1]
    constructor
    · intro h; cases h
    · rintro ⟨ht, hl, -⟩
      rcases h1 with h1 | h1
      · exact absurd (List.isEmpty_iff.1 h1) ht
      · omega
  · rw [if_neg h1]
    push Not at h1
    cases hp : parse value with
    | none => simp
    | some p =>
      have hhost : (p.hostStr.all List.isEmpty = true) ↔ ¬ ∃ h, p.hostStr = some h ∧ h ≠ [] := by
        cases p.hostStr <;> simp
      simp only
      split_ifs with h2 h3 h4
      · simp only [Option.some.injEq, false_iff]
        rintro ⟨-, -, rfl, hs, -⟩
        exact h2 hs
      · simp only [Option.some.injEq, false_iff]
        rintro ⟨-, -, rfl, -, hh, -⟩
        exact hhost.1 h3 hh
      · simp only [Option.some.injEq, false_iff]
        rintro ⟨-, -, rfl, -, -, hu, hpw, -⟩
        simp [hu, hpw] at h4
      · push Not at h2 h4
        have hu : p.username = [] := List.isEmpty_iff.1 h4.1
        have hpw : p.password = none := by simpa using h4.2
        have ht : trim value ≠ [] := by simpa using h1.1
        have hh : ∃ h, p.hostStr = some h ∧ h ≠ [] := not_not.1 fun hn => h3 (hhost.2 hn)
        constructor
        · intro h
          have hup : p = u ∧ p.host.isSome := by
            split at h <;> simp_all
          obtain ⟨rfl, hsome⟩ := hup
          exact ⟨ht, h1.2, rfl, h2, hh, hu, hpw, hsome⟩
        · rintro ⟨-, -, hpu, -, -, -, -, hsome⟩
          simp only [Option.some.injEq] at hpu
          subst hpu
          obtain ⟨host, hhost'⟩ := Option.isSome_iff_exists.1 hsome
          rw [hhost']
          cases host <;> rfl

end NotifyAgent.ActionUrl
