/-
Subject-based delivery. A subject is a text whose tokens are separated by dots; a subscription may have the wildcard
tokens `*`, which stands for one token, and `>`, which stands for the rest. A subject is written into a protocol line,
so it ends at its first white space.

- `matchTokens_literal`: a pattern without wildcards matches itself only;
- `delivers_concrete`: a concrete subscription receives what is written as that subject, and nothing else.
-/
import Mathlib.Tactic
import Mathlib.Data.List.TakeWhile

namespace NotifyAgent.Lib.Subject

/-- not a space, tab, carriage return or line feed -/
def nonSpace (c : Char) : Bool := c != ' ' && c != '\t' && c != '\r' && c != '\n'

/-- the subject that is read off the protocol line -/
def written (s : List Char) : List Char := s.takeWhile nonSpace

def tokens (s : List Char) : List (List Char) := s.splitOn '.'

def matchTokens : List (List Char) → List (List Char) → Bool
  | [], [] => true
  | p :: ps, t :: ts => if p = ['>'] then true else if p = ['*'] then matchTokens ps ts else p == t && matchTokens ps ts
  | _, _ => false

/-- a message published to `pub` reaches a subscription of `sub` -/
def Delivers (sub pub : List Char) : Prop := matchTokens (tokens (written sub)) (tokens (written pub)) = true

instance (sub pub : List Char) : Decidable (Delivers sub pub) := inferInstanceAs (Decidable (_ = _))

def NoWildcard (s : List Char) : Prop := ['*'] ∉ tokens s ∧ ['>'] ∉ tokens s

def NoSpace (s : List Char) : Prop := ∀ c ∈ s, nonSpace c = true

instance (s : List Char) : Decidable (NoWildcard s) := inferInstanceAs (Decidable (_ ∧ _))

instance (s : List Char) : Decidable (NoSpace s) := List.decidableBAll (fun c => nonSpace c = true) s

/-- a subject that a message can be published to -/
def Concrete (s : List Char) : Prop := NoWildcard s ∧ NoSpace s

theorem written_of_noSpace {s : List Char} (h : NoSpace s) : written s = s := List.takeWhile_eq_self_iff.2 h

theorem tokens_injective : Function.Injective tokens := fun a b h => by
  calc a = ['.'].intercalate (tokens a) := (List.intercalate_splitOn '.').symm
    _ = ['.'].intercalate (tokens b) := by rw [h]
    _ = b := List.intercalate_splitOn '.'

/-- a pattern without wildcards matches itself only -/
theorem matchTokens_literal {ps : List (List Char)} (hstar : ['*'] ∉ ps) (hrest : ['>'] ∉ ps) (ts : List (List Char)) :
    matchTokens ps ts = true ↔ ps = ts := by
  induction ps generalizing ts with
  | nil => cases ts <;> simp [matchTokens]
  | cons p ps ih =>
    simp only [List.mem_cons, not_or] at hstar hrest
    cases ts with
    | nil => simp [matchTokens]
    | cons t ts =>
      rw [matchTokens, if_neg (Ne.symm hrest.1), if_neg (Ne.symm hstar.1), Bool.and_eq_true, beq_iff_eq,
        ih hstar.2 hrest.2, List.cons.injEq]

/-- **Concrete subscriptions.** -/
theorem delivers_concrete {sub : List Char} (h : Concrete sub) (pub : List Char) :
    Delivers sub pub ↔ written pub = sub := by
  rw [Delivers, written_of_noSpace h.2, matchTokens_literal h.1.1 h.1.2, tokens_injective.eq_iff, eq_comm]

end NotifyAgent.Lib.Subject
