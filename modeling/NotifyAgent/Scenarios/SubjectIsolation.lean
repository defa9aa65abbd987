/-
Per-user isolation of the Rust host's subscription. The host puts the user id into the subject template as it is, so a
user id can bring wildcard tokens and white space into the subject, and a template without a placeholder subscribes
every user to one subject. The Go host rejects both before it subscribes.

- `subjectFor_around`: with literal tokens around one placeholder token, the subject is the user id between these
  tokens;
- `isolated_iff`: a start that reaches its subscription keeps another user's messages out EXACTLY when the template has
  the placeholder and, around literal tokens, the user id has no wildcard token and no white space, and the other user's
  id is not cut off at its first white space to the same subject;
- `star_receives_everyone`: `NOTIFY_USER_ID=*` with the default template receives every user's messages.
-/
import Mathlib.Tactic
import NotifyAgent.Lib.Subject
import NotifyAgent.Core.Host

namespace NotifyAgent.SubjectIsolation

open NotifyAgent.Text NotifyAgent.Host
open NotifyAgent.Lib.Replace (replace replace_nil replace_self replace_sep replace_of_not_infix)
open NotifyAgent.Lib.Subject

/-! ## Templates of literal tokens around one placeholder -/

structure LiteralToken (t : Str) : Prop where
  noDot : '.' ∉ t
  nonempty : t ≠ []
  notStar : t ≠ ['*']
  notRest : t ≠ ['>']
  noSpace : NoSpace t
  noPlaceholder : ¬ placeholder <:+: t

/-- tokens and the dots after them -/
def before (ts : List Str) : Str := ts.flatMap (· ++ ['.'])

/-- tokens and the dots in front of them -/
def after (ts : List Str) : Str := ts.flatMap ('.' :: ·)

/-- literal tokens around one placeholder token -/
structure Around (template : Str) (pre post : List Str) : Prop where
  literalPre : ∀ t ∈ pre, LiteralToken t
  literalPost : ∀ t ∈ post, LiteralToken t
  eq : template = before pre ++ placeholder ++ after post

theorem replace_after (userId : Str) {post : List Str} (h : ∀ t ∈ post, LiteralToken t) (a : Str) :
    replace placeholder userId (a ++ after post) = replace placeholder userId a ++ after post := by
  induction post generalizing a with
  | nil => simp [after]
  | cons t post ih =>
    have hsplit : after (t :: post) = '.' :: (t ++ after post) := rfl
    rw [hsplit, replace_sep (by simp [placeholder]) (by decide), ih (fun u hu => h u (by simp [hu])),
      replace_of_not_infix (h t (by simp)).noPlaceholder]

theorem replace_before (userId : Str) {pre : List Str} (h : ∀ t ∈ pre, LiteralToken t) (b : Str) :
    replace placeholder userId (before pre ++ b) = before pre ++ replace placeholder userId b := by
  induction pre with
  | nil => rfl
  | cons t pre ih =>
    have hsplit : ∀ c, before (t :: pre) ++ c = t ++ '.' :: (before pre ++ c) := fun c => by simp [before]
    rw [hsplit, hsplit, replace_sep (by simp [placeholder]) (by decide), ih (fun u hu => h u (by simp [hu])),
      replace_of_not_infix (h t (by simp)).noPlaceholder]

/-- **The subject of a user id.** -/
theorem subjectFor_around {config : AgentConfig} {pre post : List Str} (h : Around config.subjectTemplate pre post)
    (userId : Str) : subjectFor config userId = before pre ++ (userId ++ after post) := by
  rw [subjectFor, h.eq, List.append_assoc, replace_before userId h.literalPre, replace_after userId h.literalPost,
    replace_self (by simp [placeholder])]

/-! ## Wildcards and white space of a subject -/

theorem tokens_after (post : List Str) (h : ∀ t ∈ post, LiteralToken t) (a : Str) :
    tokens (a ++ after post) = tokens a ++ post := by
  induction post generalizing a with
  | nil => simp [after]
  | cons t post ih =>
    have hsplit : after (t :: post) = '.' :: (t ++ after post) := rfl
    have htok : tokens t = [t] := List.splitOn_eq_singleton (h t (by simp)).noDot
    have hrest := ih (fun u hu => h u (by simp [hu])) t
    rw [htok] at hrest
    rw [hsplit, tokens, List.splitOn_append_cons_self]
    exact congrArg _ hrest

theorem tokens_before (pre : List Str) (h : ∀ t ∈ pre, LiteralToken t) (b : Str) :
    tokens (before pre ++ b) = pre ++ tokens b := by
  induction pre with
  | nil => rfl
  | cons t pre ih =>
    have hsplit : before (t :: pre) ++ b = t ++ '.' :: (before pre ++ b) := by simp [before]
    have htok : tokens t = [t] := List.splitOn_eq_singleton (h t (by simp)).noDot
    rw [hsplit, tokens, List.splitOn_append_cons_self]
    change tokens t ++ tokens (before pre ++ b) = _
    rw [htok, ih fun u hu => h u (by simp [hu])]
    rfl

theorem noSpace_before {pre : List Str} (h : ∀ t ∈ pre, LiteralToken t) : NoSpace (before pre) := by
  intro c hc
  obtain ⟨t, ht, hc⟩ := List.mem_flatMap.1 hc
  rcases List.mem_append.1 hc with hc | hc
  · exact (h t ht).noSpace c hc
  · rw [List.mem_singleton.1 hc]; decide

theorem noSpace_after {post : List Str} (h : ∀ t ∈ post, LiteralToken t) : NoSpace (after post) := by
  intro c hc
  obtain ⟨t, ht, hc⟩ := List.mem_flatMap.1 hc
  rcases List.mem_cons.1 hc with rfl | hc
  · decide
  · exact (h t ht).noSpace c hc

section
variable {config : AgentConfig} {pre post : List Str} (h : Around config.subjectTemplate pre post)
include h

theorem noWildcard_subject_iff (userId : Str) : NoWildcard (subjectFor config userId) ↔ NoWildcard userId := by
  have hstar : ∀ w : Str, (w = ['*'] ∨ w = ['>']) → w ∉ pre ∧ w ∉ post := fun w hw =>
    ⟨fun hm => hw.elim (h.literalPre w hm).notStar (h.literalPre w hm).notRest,
      fun hm => hw.elim (h.literalPost w hm).notStar (h.literalPost w hm).notRest⟩
  have hs := hstar ['*'] (Or.inl rfl)
  have hr := hstar ['>'] (Or.inr rfl)
  rw [NoWildcard, subjectFor_around h, tokens_before pre h.literalPre, tokens_after post h.literalPost]
  simp [NoWildcard, hs, hr]

theorem noSpace_subject_iff (userId : Str) : NoSpace (subjectFor config userId) ↔ NoSpace userId := by
  rw [subjectFor_around h]
  constructor
  · intro hs c hc
    exact hs c (by simp [hc])
  · intro hs c hc
    rcases List.mem_append.1 hc with hc | hc
    · exact noSpace_before h.literalPre c hc
    rcases List.mem_append.1 hc with hc | hc
    · exact hs c hc
    · exact noSpace_after h.literalPost c hc

/-- what is written of a user's subject: all of it, or what comes before the first white space of the user id -/
theorem written_subject (userId : Str) :
    written (subjectFor config userId) =
      before pre ++ if NoSpace userId then userId ++ after post else userId.takeWhile nonSpace := by
  split_ifs with hs
  · rw [written_of_noSpace ((noSpace_subject_iff h userId).2 hs), subjectFor_around h]
  · rw [subjectFor_around h, written, List.takeWhile_append_of_pos (noSpace_before h.literalPre), List.takeWhile_append,
      if_neg]
    intro hlen
    exact hs (List.takeWhile_eq_self_iff.1 ((List.takeWhile_prefix _).eq_of_length hlen))

end

/-! ## Isolation -/

/-- what is asked of the subscription `subject` made for one user, against another user -/
structure Isolated (config : AgentConfig) (subject other : Str) : Prop where
  /-- a template without the placeholder is not subscribed to -/
  placed : placeholder <:+: config.subjectTemplate
  concrete : ∀ pre post, Around config.subjectTemplate pre post → Concrete subject
  own : ∀ pre post, Around config.subjectTemplate pre post →
    ∀ pub, Concrete pub → (Delivers subject pub ↔ pub = subject)
  /-- the other user's messages do not arrive -/
  apart : ∀ pre post, Around config.subjectTemplate pre post → ¬ Delivers subject (subjectFor config other)

/-- **Isolation, characterised exactly.** -/
theorem isolated_iff {U : Ucd} {connects : Str → Bool} {config : AgentConfig} {provider : IdentityProvider}
    {id : AgentIdentity} {subject other : Str} (hid : provider.identity U = some id)
    (hstart : start U connects config provider = some subject) (hne : other ≠ id.userId) :
    Isolated config subject other ↔
      placeholder <:+: config.subjectTemplate ∧ ∀ pre post, Around config.subjectTemplate pre post →
        NoWildcard id.userId ∧ NoSpace id.userId ∧
          (NoSpace other ∨ other.takeWhile nonSpace ≠ id.userId ++ after post) := by
  obtain ⟨id', hid', rfl⟩ := start_eq_some hstart
  obtain rfl : id' = id := Option.some.inj (hid'.symm.trans hid)
  -- against a concrete subscription, the other user's subject counts by what is written of it
  have hother : ∀ pre post, Around config.subjectTemplate pre post → Concrete (subjectFor config id'.userId) →
      (Delivers (subjectFor config id'.userId) (subjectFor config other) ↔
        ¬ (NoSpace other ∨ other.takeWhile nonSpace ≠ id'.userId ++ after post)) := by
    intro pre post h hc
    rw [delivers_concrete hc, written_subject h, subjectFor_around h, List.append_cancel_left_eq]
    by_cases hs : NoSpace other
    · simp only [hs, if_true, List.append_cancel_right_eq, true_or, not_true_eq_false, iff_false]
      exact hne
    · simp only [hs, if_false, false_or, not_not]
  constructor
  · intro hiso
    refine ⟨hiso.placed, fun pre post h => ?_⟩
    have hc := hiso.concrete pre post h
    refine ⟨(noWildcard_subject_iff h _).1 hc.1, (noSpace_subject_iff h _).1 hc.2, ?_⟩
    exact not_not.1 fun hn => hiso.apart pre post h ((hother pre post h hc).2 hn)
  · rintro ⟨hplaced, hall⟩
    have hconc : ∀ pre post, Around config.subjectTemplate pre post → Concrete (subjectFor config id'.userId) :=
      fun pre post h => ⟨(noWildcard_subject_iff h _).2 (hall pre post h).1,
        (noSpace_subject_iff h _).2 (hall pre post h).2.1⟩
    refine ⟨hplaced, hconc, fun pre post h pub hpub => ?_, fun pre post h hd => ?_⟩
    · rw [delivers_concrete (hconc pre post h), written_of_noSpace hpub.2]
    · exact (hother pre post h (hconc pre post h)).1 hd (hall pre post h).2.2

/-! ## Witnesses -/

/-- an environment that sets `NOTIFY_USER_ID` only -/
def envWithUser (userId : Str) (name : Str) : Option Str :=
  if name = "NOTIFY_USER_ID".toList then some userId else none

def defaultConfig : AgentConfig := AgentConfig.fromEnv fun _ => none

theorem around_default :
    Around defaultConfig.subjectTemplate ["notify".toList, "user".toList] ["desktop".toList] := by
  refine ⟨?_, ?_, by decide⟩ <;>
  · intro t ht
    simp only [List.mem_cons, List.not_mem_nil, or_false] at ht
    rcases ht with rfl | rfl <;> exact ⟨by decide, by decide, by decide, by decide, by decide, by decide⟩

/-- **A wildcard user id.** With `NOTIFY_USER_ID=*` and the default template, the agent subscribes to
`notify.user.*.desktop` and receives the messages of `u_bob`. -/
theorem star_receives_everyone :
    start basicUcd (fun _ => true) defaultConfig (.env (envWithUser ['*']) "host".toList) =
        some "notify.user.*.desktop".toList ∧
      Delivers "notify.user.*.desktop".toList (subjectFor defaultConfig "u_bob".toList) ∧
      ¬ Isolated defaultConfig "notify.user.*.desktop".toList "u_bob".toList := by
  have hd : Delivers "notify.user.*.desktop".toList (subjectFor defaultConfig "u_bob".toList) := by decide
  exact ⟨by decide, hd, fun h => h.apart _ _ around_default hd⟩

/-- a template without the placeholder is subscribed to, and one user receives another's messages -/
theorem missing_placeholder_subscribes :
    start basicUcd (fun _ => true) { defaultConfig with subjectTemplate := "notify.all".toList }
        (.env (envWithUser "u_ann".toList) "host".toList) = some "notify.all".toList ∧
      Delivers "notify.all".toList
        (subjectFor { defaultConfig with subjectTemplate := "notify.all".toList } "u_bob".toList) := by
  decide

theorem isolated_iff_default :
    Isolated defaultConfig "notify.user.u_ann.desktop".toList "u_bob".toList ↔
      placeholder <:+: defaultConfig.subjectTemplate ∧ ∀ pre post, Around defaultConfig.subjectTemplate pre post →
        NoWildcard "u_ann".toList ∧ NoSpace "u_ann".toList ∧
          (NoSpace "u_bob".toList ∨ "u_bob".toList.takeWhile nonSpace ≠ "u_ann".toList ++ after post) :=
  @isolated_iff basicUcd (fun _ => true) defaultConfig (.env (envWithUser "u_ann".toList) "host".toList)
    ⟨"u_ann".toList, "d-host".toList⟩ "notify.user.u_ann.desktop".toList "u_bob".toList (by decide) (by decide)
    (by decide)

end NotifyAgent.SubjectIsolation
