/-
The HTTPS URL policy of the Go agent (`internal/httpsurl`). Parsing is `net/url`'s and is a parameter, as in the Rust
agent.

- `valid_iff`: exactly which strings the policy lets through.
-/
import Mathlib.Tactic
import NotifyAgent.Core.Text

namespace NotifyAgent.HttpsUrl

open NotifyAgent.Text

/-- `url.Userinfo`; a password that is not set is `none` -/
structure Userinfo where
  username : Str
  password : Option Str
deriving DecidableEq, Repr

/-- what the policy reads of a parsed `url.URL` -/
structure URL where
  scheme : Str
  /-- `Hostname()` -/
  hostname : Str
  user : Option Userinfo
deriving DecidableEq, Repr

def maxURLLength : ℕ := 2048

def URL.isAbs (u : URL) : Bool := !u.scheme.isEmpty

/-- `Valid`, over the URL parser; `RuneCountInString` is the number of characters -/
def valid (parse : Str → Option URL) (rawURL : Str) : Bool :=
  if rawURL = [] ∨ rawURL.length > maxURLLength then false
  else
    match parse rawURL with
    | none => false
    | some u =>
      if ¬ u.isAbs ∨ u.scheme ≠ "https".toList then false
      else if u.hostname = [] then false
      else if u.user ≠ none then false
      else true

theorem valid_iff {parse : Str → Option URL} {rawURL : Str} :
    valid parse rawURL = true ↔
      rawURL ≠ [] ∧ rawURL.length ≤ maxURLLength ∧
        ∃ u, parse rawURL = some u ∧ u.scheme = "https".toList ∧ u.hostname ≠ [] ∧ u.user = none := by
  unfold valid
  by_cases h1 : rawURL = [] ∨ rawURL.length > maxURLLength
  · rw [if_pos h1]
    constructor
    · intro h; cases h
    · rintro ⟨hne, hlen, -⟩
      rcases h1 with h1 | h1
      · exact absurd h1 hne
      · omega
  · rw [if_neg h1]
    push Not at h1
    cases hp : parse rawURL with
    | none => simp
    | some u =>
      have habs : u.scheme = "https".toList → u.isAbs = true := by
        intro hs
        simp [URL.isAbs, hs]
      simp only [Option.some.injEq, exists_eq_left']
      split_ifs with h2 h3 h4
      · simp only [false_iff]
        rintro ⟨-, -, hs, -⟩
        rcases h2 with h2 | h2
        · exact h2 (habs hs)
        · exact h2 hs
      · simp [h3]
      · simp [h4]
      · push Not at h2 h4
        exact ⟨fun _ => ⟨h1.1, h1.2, h2.2, h3, h4⟩, fun _ => rfl⟩

end NotifyAgent.HttpsUrl
