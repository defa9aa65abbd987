/-
Files published by writing a temporary file and renaming it, by any number of publishers at a time. A publisher may fail
at any point, the file grows as it is written, and anyone may remove any file, a temporary one included: what a
publisher writes to a file that was removed is seen by nobody.

- `Sound`: names that are to be published have their first content or that of a publisher that is done, all of it;
- `sound_step`: every step keeps it, if the temporary name of a new publisher is not in use;
- `kept_step`, `other_step`, `mem_step`, `length_step`: what a publisher is about never changes, and one that is done
  stays so;
- `file_step`, `renamed_tmp`: where the files come from, and that a rename leaves no temporary file.
-/
import Mathlib.Tactic
import NotifyAgent.Lib.Directory
import NotifyAgent.Lib.SharedLog

namespace NotifyAgent.Lib.Publishing

open NotifyAgent.Lib.Directory
open NotifyAgent.Lib.SharedLog (set_cases started_cases)

variable {ν β : Type*} [DecidableEq ν]

/-! ## The machine -/

inductive Phase where
  /-- the temporary file has a name, and is still to be created -/
  | named
  /-- so much of the content is written -/
  | writing (k : ℕ)
  | written
  /-- the rename is on its way -/
  | renaming
  | done
  | stopped
deriving DecidableEq, Repr

structure Publisher (ν β : Type*) where
  tmp : ν
  target : ν
  content : List β
  phase : Phase

structure St (ν β : Type*) where
  dir : Dir ν (List β)
  publishers : List (Publisher ν β)

inductive Op (ν β : Type*) where
  | join (tmp target : ν) (content : List β)
  /-- the temporary file is created, or truncated -/
  | create (i : ℕ)
  | write (i k : ℕ)
  | written (i : ℕ)
  | ask (i : ℕ)
  | rename (i : ℕ)
  | fail (i : ℕ)
  | remove (name : ν)

/-- whom an operation is about -/
def Op.about : Op ν β → Option ℕ
  | .create i | .write i _ | .written i | .ask i | .rename i | .fail i => some i
  | .join _ _ _ | .remove _ => none

/-- the file is still to be renamed -/
def Phase.live : Phase → Bool
  | .done | .stopped => false
  | _ => true

/-- a publisher goes on -/
def goto (s : St ν β) (i : ℕ) (p : Publisher ν β) (dir : Dir ν (List β)) (phase : Phase) : St ν β :=
  ⟨dir, s.publishers.set i { p with phase := phase }⟩

omit [DecidableEq ν] in
@[simp] theorem goto_dir (s : St ν β) (i : ℕ) (p : Publisher ν β) (dir : Dir ν (List β)) (phase : Phase) :
    (goto s i p dir phase).dir = dir := rfl

/-- one operation; one that is not enabled leaves the state unchanged -/
def step (s : St ν β) : Op ν β → St ν β
  | .join tmp target content => { s with publishers := s.publishers ++ [⟨tmp, target, content, .named⟩] }
  | .create i =>
    match s.publishers[i]? with
    | some p => if p.phase = .named then goto s i p (put s.dir p.tmp []) (.writing 0) else s
    | none => s
  | .write i k =>
    match s.publishers[i]? with
    | some p =>
      match p.phase with
      | .writing j =>
        if j ≤ k ∧ k ≤ p.content.length then
          goto s i p (if (s.dir p.tmp).isSome then put s.dir p.tmp (p.content.take k) else s.dir) (.writing k)
        else s
      | _ => s
    | none => s
  | .written i =>
    match s.publishers[i]? with
    | some p => if p.phase = .writing p.content.length then goto s i p s.dir .written else s
    | none => s
  | .ask i =>
    match s.publishers[i]? with
    | some p => if p.phase = .written then goto s i p s.dir .renaming else s
    | none => s
  | .rename i =>
    match s.publishers[i]? with
    | some p =>
      if p.phase = .renaming then
        if (s.dir p.tmp).isSome then goto s i p (Directory.rename s.dir p.tmp p.target) .done
        else goto s i p s.dir .stopped
      else s
    | none => s
  | .fail i =>
    match s.publishers[i]? with
    | some p => if p.phase.live = true then goto s i p s.dir .stopped else s
    | none => s
  | .remove name => { s with dir := Directory.remove s.dir name }

/-! ## What a step does -/

section
variable (s : St ν β)

/-- the enabled steps -/
inductive Trans : Op ν β → St ν β → Prop where
  | joined (tmp target content) :
    Trans (.join tmp target content) { s with publishers := s.publishers ++ [⟨tmp, target, content, .named⟩] }
  | created (i p) (hp : s.publishers[i]? = some p) (hphase : p.phase = .named) :
    Trans (.create i) (goto s i p (put s.dir p.tmp []) (.writing 0))
  | wrote (i j k p) (hp : s.publishers[i]? = some p) (hphase : p.phase = .writing j) :
    Trans (.write i k)
      (goto s i p (if (s.dir p.tmp).isSome then put s.dir p.tmp (p.content.take k) else s.dir) (.writing k))
  | written (i p) (hp : s.publishers[i]? = some p) (hphase : p.phase = .writing p.content.length) :
    Trans (.written i) (goto s i p s.dir .written)
  | asked (i p) (hp : s.publishers[i]? = some p) (hphase : p.phase = .written) :
    Trans (.ask i) (goto s i p s.dir .renaming)
  | renamed (i p content) (hp : s.publishers[i]? = some p) (hphase : p.phase = .renaming)
    (hfile : s.dir p.tmp = some content) :
    Trans (.rename i) (goto s i p (put (Directory.remove s.dir p.tmp) p.target content) .done)
  | lost (i p) (hp : s.publishers[i]? = some p) (hphase : p.phase = .renaming) (hfile : s.dir p.tmp = none) :
    Trans (.rename i) (goto s i p s.dir .stopped)
  | failed (i p) (hp : s.publishers[i]? = some p) (hphase : p.phase.live = true) :
    Trans (.fail i) (goto s i p s.dir .stopped)
  | removed (name) : Trans (.remove name) { s with dir := Directory.remove s.dir name }

/-- **What a step does.** Nothing, or one of the transitions. -/
theorem step_cases (o : Op ν β) : step s o = s ∨ Trans s o (step s o) := by
  cases o with
  | join tmp target content => exact Or.inr (.joined tmp target content)
  | remove name => exact Or.inr (.removed name)
  | create i =>
    simp only [step]
    cases hp : s.publishers[i]? with
    | none => exact Or.inl rfl
    | some p =>
      simp only
      split_ifs with hphase
      · exact Or.inr (.created i p hp hphase)
      · exact Or.inl rfl
  | write i k =>
    simp only [step]
    cases hp : s.publishers[i]? with
    | none => exact Or.inl rfl
    | some p =>
      simp only
      split
      · rename_i j hphase
        by_cases h : j ≤ k ∧ k ≤ p.content.length
        · rw [if_pos h]
          exact Or.inr (.wrote i j k p hp hphase)
        · exact Or.inl (if_neg h)
      · exact Or.inl rfl
  | written i =>
    simp only [step]
    cases hp : s.publishers[i]? with
    | none => exact Or.inl rfl
    | some p =>
      simp only
      split_ifs with hphase
      · exact Or.inr (.written i p hp hphase)
      · exact Or.inl rfl
  | ask i =>
    simp only [step]
    cases hp : s.publishers[i]? with
    | none => exact Or.inl rfl
    | some p =>
      simp only
      split_ifs with hphase
      · exact Or.inr (.asked i p hp hphase)
      · exact Or.inl rfl
  | rename i =>
    simp only [step]
    cases hp : s.publishers[i]? with
    | none => exact Or.inl rfl
    | some p =>
      simp only
      split_ifs with hphase hfile
      · obtain ⟨content, hcontent⟩ := Option.isSome_iff_exists.1 hfile
        rw [Directory.rename, hcontent]
        exact Or.inr (.renamed i p content hp hphase hcontent)
      · exact Or.inr (.lost i p hp hphase (Option.not_isSome_iff_eq_none.1 hfile))
      · exact Or.inl rfl
  | fail i =>
    simp only [step]
    cases hp : s.publishers[i]? with
    | none => exact Or.inl rfl
    | some p =>
      simp only
      split_ifs with hphase
      · exact Or.inr (.failed i p hp hphase)
      · exact Or.inl rfl

end

/-! ## The invariant -/

/-- what the temporary file holds, if it is there -/
def Publisher.Holds (p : Publisher ν β) (content : List β) : Prop :=
  match p.phase with
  | .writing k => content = p.content.take k
  | .written | .renaming => content = p.content
  | _ => True

/-- `T`: the names to be published; `d₀`: the directory at the start -/
structure Sound (T : ν → Prop) (d₀ : Dir ν (List β)) (s : St ν β) : Prop where
  shape : ∀ p ∈ s.publishers, T p.target ∧ ¬ T p.tmp
  apart : ∀ (i j : ℕ) (p q : Publisher ν β), s.publishers[i]? = some p → s.publishers[j]? = some q →
    p.phase.live = true → q.phase.live = true → p.tmp = q.tmp → i = j
  holds : ∀ p ∈ s.publishers, ∀ content, s.dir p.tmp = some content → p.Holds content
  files : ∀ name content, T name → s.dir name = some content →
    d₀ name = some content ∨ ∃ p ∈ s.publishers, p.target = name ∧ p.phase = .done ∧ p.content = content

/-- the temporary name is not in use, and the target is one to be published -/
def Fresh (T : ν → Prop) (s : St ν β) : Op ν β → Prop
  | .join tmp target _ => T target ∧ ¬ T tmp ∧ ∀ p ∈ s.publishers, p.phase.live = true → p.tmp ≠ tmp
  | _ => True

section
variable {T : ν → Prop} {d₀ : Dir ν (List β)} {s s' : St ν β}

/-- a publisher that goes on from a live phase, and changes its own temporary file only -/
theorem sound_goto {i : ℕ} {p : Publisher ν β} {dir : Dir ν (List β)} {phase : Phase} (hs : Sound T d₀ s)
    (hp : s.publishers[i]? = some p) (hlive : p.phase.live = true)
    (hdir : ∀ name, name ≠ p.tmp → dir name = s.dir name)
    (hholds : ∀ content, dir p.tmp = some content → Publisher.Holds { p with phase := phase } content) :
    Sound T d₀ (goto s i p dir phase) := by
  have hmem := List.mem_of_getElem? hp
  refine ⟨fun q hq => ?_, fun j k q r hq hr hql hrl htmp => ?_, fun q hq content hcontent => ?_,
    fun name content hname hcontent => ?_⟩
  · rcases List.mem_or_eq_of_mem_set hq with hq | rfl
    · exact hs.shape q hq
    · exact hs.shape p hmem
  · rcases set_cases hq with ⟨rfl, rfl⟩ | ⟨hij, hq⟩ <;> rcases set_cases hr with ⟨rfl, rfl⟩ | ⟨hik, hr⟩
    · rfl
    · exact hs.apart i k p r hp hr hlive hrl htmp
    · exact hs.apart j i q p hq hp hql hlive htmp
    · exact hs.apart j k q r hq hr hql hrl htmp
  · obtain ⟨j, hj⟩ := List.mem_iff_getElem?.1 hq
    rcases set_cases hj with ⟨_, rfl⟩ | ⟨hij, hj⟩
    · exact hholds content hcontent
    · by_cases htmp : q.tmp = p.tmp
      · have hq' : ¬ q.phase.live = true := fun hql => hij (hs.apart i j p q hp hj hlive hql htmp.symm)
        unfold Publisher.Holds
        cases hqp : q.phase <;> simp [hqp, Phase.live] at hq' ⊢
      · exact hs.holds q (List.mem_of_getElem? hj) content ((hdir q.tmp htmp).symm.trans hcontent)
  · have hne : name ≠ p.tmp := fun h => (hs.shape p hmem).2 (h ▸ hname)
    rcases hs.files name content hname ((hdir name hne).symm.trans hcontent) with h | ⟨q, hq, htarget, hdone, hc⟩
    · exact Or.inl h
    · obtain ⟨j, hj⟩ := List.mem_iff_getElem?.1 hq
      refine Or.inr ⟨q, List.mem_iff_getElem?.2 ⟨j, ?_⟩, htarget, hdone, hc⟩
      rw [goto, List.getElem?_set_ne, hj]
      rintro rfl
      rw [Option.some.inj (hp.symm.trans hj), hdone] at hlive
      cases hlive

theorem sound_renamed {i : ℕ} {p : Publisher ν β} {content : List β} (hs : Sound T d₀ s)
    (hp : s.publishers[i]? = some p)
    (hphase : p.phase = .renaming) (hfile : s.dir p.tmp = some content) :
    Sound T d₀ (goto s i p (put (Directory.remove s.dir p.tmp) p.target content) .done) := by
  have hmem := List.mem_of_getElem? hp
  have hcontent : content = p.content := by
    have h := hs.holds p hmem content hfile
    rwa [Publisher.Holds, hphase] at h
  have hdone : { p with phase := .done } ∈ s.publishers.set i { p with phase := .done } :=
    List.mem_iff_getElem?.2 ⟨i, List.getElem?_set_self (List.getElem?_eq_some_iff.1 hp).1⟩
  -- without the new name, the step is one on the temporary file
  have hrest : Sound T d₀ (goto s i p (Directory.remove s.dir p.tmp) .stopped) :=
    sound_goto hs hp (by rw [hphase]; rfl) (fun name hne => remove_other hne) (fun _ h => by simp at h)
  refine ⟨fun q hq => ?_, fun j k q r hq hr hql hrl htmp => ?_, fun q hq c hc => ?_, fun name c hname hc => ?_⟩
  · rcases List.mem_or_eq_of_mem_set hq with hq | rfl
    · exact hs.shape q hq
    · exact hs.shape p hmem
  · rcases set_cases hq with ⟨rfl, rfl⟩ | ⟨_, hq⟩
    · cases hql
    · rcases set_cases hr with ⟨rfl, rfl⟩ | ⟨_, hr⟩
      · cases hrl
      · exact hs.apart j k q r hq hr hql hrl htmp
  · have hne : q.tmp ≠ p.target := by
      rcases List.mem_or_eq_of_mem_set hq with hq | rfl
      · exact fun h => (hs.shape q hq).2 (h ▸ (hs.shape p hmem).1)
      · exact fun h => (hs.shape p hmem).2 (h ▸ (hs.shape p hmem).1)
    have hc' : Directory.remove s.dir p.tmp q.tmp = some c := (put_other hne).symm.trans hc
    obtain ⟨j, hj⟩ := List.mem_iff_getElem?.1 hq
    rcases set_cases hj with ⟨_, rfl⟩ | ⟨hij, hj⟩
    · exact trivial
    · refine hrest.holds q (List.mem_iff_getElem?.2 ⟨j, ?_⟩) c hc'
      rw [goto, List.getElem?_set_ne hij, hj]
  · by_cases htarget : name = p.target
    · rw [htarget] at hc
      have hc' : some content = some c := put_same.symm.trans hc
      exact Or.inr ⟨_, hdone, htarget.symm, rfl, hcontent.symm.trans (Option.some.inj hc')⟩
    · have hc' : Directory.remove s.dir p.tmp name = some c := (put_other htarget).symm.trans hc
      rcases hrest.files name c hname hc' with h | ⟨q, hq, hqt, hqd, hqc⟩
      · exact Or.inl h
      · refine Or.inr ⟨q, ?_, hqt, hqd, hqc⟩
        obtain ⟨j, hj⟩ := List.mem_iff_getElem?.1 hq
        rcases set_cases hj with ⟨_, rfl⟩ | ⟨hij, hj⟩
        · cases hqd
        · exact List.mem_iff_getElem?.2 ⟨j, by rw [goto, List.getElem?_set_ne hij, hj]⟩

theorem sound_trans {o : Op ν β} (h : Trans s o s') (hfresh : Fresh T s o) (hs : Sound T d₀ s) : Sound T d₀ s' := by
  cases h with
  | joined tmp target content =>
    obtain ⟨htarget, htmp, hunused⟩ := hfresh
    refine ⟨fun q hq => ?_, fun j k q r hq hr hql hrl heq => ?_, fun q hq c hc => ?_, fun name c hname hc => ?_⟩
    · rcases List.mem_append.1 hq with hq | hq
      · exact hs.shape q hq
      · rw [List.mem_singleton.1 hq]
        exact ⟨htarget, htmp⟩
    · rcases started_cases hq with hq | ⟨rfl, rfl⟩ <;> rcases started_cases hr with hr | ⟨rfl, rfl⟩
      · exact hs.apart j k q r hq hr hql hrl heq
      · exact absurd heq (hunused q (List.mem_of_getElem? hq) hql)
      · exact absurd heq.symm (hunused r (List.mem_of_getElem? hr) hrl)
      · rfl
    · rcases List.mem_append.1 hq with hq | hq
      · exact hs.holds q hq c hc
      · rw [List.mem_singleton.1 hq]
        exact trivial
    · rcases hs.files name c hname hc with h | ⟨q, hq, h⟩
      · exact Or.inl h
      · exact Or.inr ⟨q, List.mem_append_left _ hq, h⟩
  | created i p hp hphase =>
    refine sound_goto hs hp (by rw [hphase]; rfl) (fun name hne => put_other hne) fun c hc => ?_
    rw [put_same] at hc
    exact (Option.some.inj hc).symm
  | wrote i j k p hp hphase =>
    refine sound_goto hs hp (by rw [hphase]; rfl) (fun name hne => ?_) fun c hc => ?_
    · split_ifs
      · exact put_other hne
      · rfl
    · split_ifs at hc with hfile
      · rw [put_same] at hc
        exact (Option.some.inj hc).symm
      · rw [hc] at hfile
        exact absurd rfl hfile
  | written i p hp hphase =>
    refine sound_goto hs hp (by rw [hphase]; rfl) (fun _ _ => rfl) fun c hc => ?_
    have h := hs.holds p (List.mem_of_getElem? hp) c hc
    rw [Publisher.Holds, hphase] at h
    exact h.trans List.take_length
  | asked i p hp hphase =>
    refine sound_goto hs hp (by rw [hphase]; rfl) (fun _ _ => rfl) fun c hc => ?_
    have h := hs.holds p (List.mem_of_getElem? hp) c hc
    rwa [Publisher.Holds, hphase] at h
  | renamed i p content hp hphase hfile => exact sound_renamed hs hp hphase hfile
  | lost i p hp hphase =>
    exact sound_goto hs hp (by rw [hphase]; rfl) (fun _ _ => rfl) fun _ _ => trivial
  | failed i p hp hphase => exact sound_goto hs hp hphase (fun _ _ => rfl) fun _ _ => trivial
  | removed name =>
    have hkeep : ∀ other c, Directory.remove s.dir name other = some c → s.dir other = some c := by
      intro other c hc
      by_cases h : other = name
      · rw [h, remove_same] at hc
        cases hc
      · exact (remove_other h).symm.trans hc
    exact ⟨hs.shape, hs.apart, fun q hq c hc => hs.holds q hq c (hkeep _ _ hc),
      fun other c hname hc => hs.files other c hname (hkeep _ _ hc)⟩

/-- **Soundness of a step.** -/
theorem sound_step {o : Op ν β} (hfresh : Fresh T s o) (hs : Sound T d₀ s) : Sound T d₀ (step s o) := by
  rcases step_cases s o with h | h
  · rwa [h]
  · exact sound_trans h hfresh hs

omit [DecidableEq ν] in
theorem sound_init (d₀ : Dir ν (List β)) : Sound T d₀ ⟨d₀, []⟩ where
  shape _ hp := nomatch hp
  apart _ _ _ _ hp := by simp at hp
  holds _ hp := nomatch hp
  files _ _ _ h := Or.inl h

/-! ## What is kept -/

/-- the publishers are still there, and those that were done are -/
def Kept (s s' : St ν β) : Prop :=
  ∀ (i : ℕ) (p : Publisher ν β), s.publishers[i]? = some p →
    ∃ phase, s'.publishers[i]? = some { p with phase := phase } ∧ (p.phase = .done → phase = .done)

/-- **A publisher is about one file**, and one that is done stays so. -/
theorem kept_step (s : St ν β) (o : Op ν β) : Kept s (step s o) := by
  intro i p hp
  have hsame : ∃ phase, s.publishers[i]? = some { p with phase := phase } ∧ (p.phase = .done → phase = .done) :=
    ⟨p.phase, hp, id⟩
  have hgoto : ∀ (j : ℕ) (q : Publisher ν β) (dir : Dir ν (List β)) (phase : Phase), s.publishers[j]? = some q →
      q.phase ≠ .done → ∃ phase', (goto s j q dir phase).publishers[i]? = some { p with phase := phase' } ∧
        (p.phase = .done → phase' = .done) := by
    intro j q dir phase hq hne
    by_cases hij : j = i
    · subst hij
      cases hp.symm.trans hq
      exact ⟨phase, List.getElem?_set_self (List.getElem?_eq_some_iff.1 hp).1, fun h => absurd h hne⟩
    · exact ⟨p.phase, (List.getElem?_set_ne hij).trans hp, id⟩
  rcases step_cases s o with h | h
  · rw [h]
    exact hsame
  · generalize step s o = s' at h
    cases h with
    | joined tmp target content =>
      exact ⟨p.phase, (List.getElem?_append_left (List.getElem?_eq_some_iff.1 hp).1).trans hp, id⟩
    | created j q hq hphase => exact hgoto j q _ _ hq (by simp [hphase])
    | wrote j _ k q hq hphase => exact hgoto j q _ _ hq (by simp [hphase])
    | written j q hq hphase => exact hgoto j q _ _ hq (by simp [hphase])
    | asked j q hq hphase => exact hgoto j q _ _ hq (by simp [hphase])
    | renamed j q content hq hphase => exact hgoto j q _ _ hq (by simp [hphase])
    | lost j q hq hphase => exact hgoto j q _ _ hq (by simp [hphase])
    | failed j q hq hphase =>
      refine hgoto j q _ _ hq fun h => ?_
      rw [h] at hphase
      cases hphase
    | removed name => exact hsame

/-- a publisher was there before, or it joins -/
theorem mem_step {o : Op ν β} {p : Publisher ν β} (hp : p ∈ (step s o).publishers) :
    (∃ q ∈ s.publishers, ∃ phase, p = { q with phase := phase }) ∨
      ∃ tmp target content, o = .join tmp target content ∧ p = ⟨tmp, target, content, .named⟩ := by
  have hgoto : ∀ (j : ℕ) (q : Publisher ν β) (dir : Dir ν (List β)) (phase : Phase), s.publishers[j]? = some q →
      p ∈ (goto s j q dir phase).publishers → ∃ q ∈ s.publishers, ∃ phase, p = { q with phase := phase } := by
    intro j q dir phase hq hp
    rcases List.mem_or_eq_of_mem_set hp with hp | rfl
    · exact ⟨p, hp, p.phase, rfl⟩
    · exact ⟨q, List.mem_of_getElem? hq, phase, rfl⟩
  rcases step_cases s o with h | h
  · rw [h] at hp
    exact Or.inl ⟨p, hp, p.phase, rfl⟩
  · generalize step s o = t at h hp
    cases h with
    | joined tmp target content =>
      rcases List.mem_append.1 hp with hp | hp
      · exact Or.inl ⟨p, hp, p.phase, rfl⟩
      · exact Or.inr ⟨tmp, target, content, rfl, List.mem_singleton.1 hp⟩
    | removed name => exact Or.inl ⟨p, hp, p.phase, rfl⟩
    | created j q hq => exact Or.inl (hgoto j q _ _ hq hp)
    | wrote j _ k q hq => exact Or.inl (hgoto j q _ _ hq hp)
    | written j q hq => exact Or.inl (hgoto j q _ _ hq hp)
    | asked j q hq => exact Or.inl (hgoto j q _ _ hq hp)
    | renamed j q content hq => exact Or.inl (hgoto j q _ _ hq hp)
    | lost j q hq => exact Or.inl (hgoto j q _ _ hq hp)
    | failed j q hq => exact Or.inl (hgoto j q _ _ hq hp)

omit [DecidableEq ν] in
theorem kept_trans {t : St ν β} (h : Kept s s') (h' : Kept s' t) : Kept s t := by
  intro i p hp
  obtain ⟨phase, hphase, hdone⟩ := h i p hp
  obtain ⟨phase', hphase', hdone'⟩ := h' i _ hphase
  exact ⟨phase', hphase', fun h => hdone' (hdone h)⟩

/-- **The others** stay as they are. -/
theorem other_step {o : Op ν β} {j : ℕ} (ho : o.about ≠ some j) (hj : j < s.publishers.length) :
    (step s o).publishers[j]? = s.publishers[j]? := by
  have hne : ∀ i : ℕ, o.about = some i → i ≠ j := fun i hi heq => ho (heq ▸ hi)
  rcases step_cases s o with h | h
  · rw [h]
  · generalize step s o = t at h
    cases h with
    | joined => exact List.getElem?_append_left hj
    | removed => rfl
    | created i => exact List.getElem?_set_ne (hne i rfl)
    | wrote i => exact List.getElem?_set_ne (hne i rfl)
    | written i => exact List.getElem?_set_ne (hne i rfl)
    | asked i => exact List.getElem?_set_ne (hne i rfl)
    | renamed i => exact List.getElem?_set_ne (hne i rfl)
    | lost i => exact List.getElem?_set_ne (hne i rfl)
    | failed i => exact List.getElem?_set_ne (hne i rfl)

/-- only a join changes their number -/
theorem length_step {o : Op ν β} (hjoin : ∀ tmp target content, o ≠ .join tmp target content) :
    (step s o).publishers.length = s.publishers.length := by
  rcases step_cases s o with h | h
  · rw [h]
  · generalize step s o = t at h
    cases h with
    | joined tmp target content => exact absurd rfl (hjoin tmp target content)
    | removed name => rfl
    | _ => exact List.length_set

/-- the file had the content at the start, or a publisher of it that is done had -/
def Whole (d₀ : Dir ν (List β)) (s : St ν β) (name : ν) (content : List β) : Prop :=
  d₀ name = some content ∨ ∃ p ∈ s.publishers, p.target = name ∧ p.phase = .done ∧ p.content = content

omit [DecidableEq ν] in
theorem whole_kept {name : ν} {content : List β} (hkeep : Kept s s') (h : Whole d₀ s name content) :
    Whole d₀ s' name content := by
  rcases h with h | ⟨p, hp, htarget, hdone, hcontent⟩
  · exact Or.inl h
  · obtain ⟨i, hi⟩ := List.mem_iff_getElem?.1 hp
    obtain ⟨phase, hi', hkept⟩ := hkeep i p hi
    exact Or.inr ⟨_, List.mem_of_getElem? hi', htarget, hkept hdone, hcontent⟩

/-! ## Where files come from -/

/-- **A file appears** as a temporary file that is created, or under the name that a rename gives it. -/
theorem file_step {o : Op ν β} {name : ν} (h : ((step s o).dir name).isSome) :
    (s.dir name).isSome ∨ ∃ (i : ℕ) (p : Publisher ν β), s.publishers[i]? = some p ∧
      (o = .create i ∧ name = p.tmp ∨ o = .rename i ∧ name = p.target) := by
  rcases step_cases s o with hstep | hstep
  · rw [hstep] at h
    exact Or.inl h
  · generalize step s o = t at h hstep
    cases hstep with
    | joined tmp target content => exact Or.inl h
    | created i p hp =>
      by_cases hname : name = p.tmp
      · exact Or.inr ⟨i, p, hp, Or.inl ⟨rfl, hname⟩⟩
      · rw [goto_dir, put_other hname] at h
        exact Or.inl h
    | wrote i j k p hp =>
      simp only [goto_dir] at h
      split_ifs at h with hfile
      · by_cases hname : name = p.tmp
        · exact Or.inl (hname ▸ hfile)
        · rw [put_other hname] at h
          exact Or.inl h
      · exact Or.inl h
    | renamed i p content hp =>
      by_cases hname : name = p.target
      · exact Or.inr ⟨i, p, hp, Or.inr ⟨rfl, hname⟩⟩
      · by_cases htmp : name = p.tmp
        · rw [goto_dir, put_other hname, htmp, remove_same] at h
          cases h
        · rw [goto_dir, put_other hname, remove_other htmp] at h
          exact Or.inl h
    | removed other =>
      simp only at h
      by_cases hname : name = other
      · rw [hname, remove_same] at h
        cases h
      · rw [remove_other hname] at h
        exact Or.inl h
    | _ => exact Or.inl h

/-- after a rename that took place, there is no temporary file -/
theorem renamed_tmp {i : ℕ} {p q : Publisher ν β} (hp : s.publishers[i]? = some p) (hphase : p.phase = .renaming)
    (hne : p.tmp ≠ p.target) (hq : (step s (.rename i)).publishers[i]? = some q) (hdone : q.phase = .done) :
    (step s (.rename i)).dir p.tmp = none := by
  have hlt := (List.getElem?_eq_some_iff.1 hp).1
  simp only [step, hp, hphase, if_true] at hq ⊢
  split_ifs at hq ⊢ with hfile
  · obtain ⟨content, hcontent⟩ := Option.isSome_iff_exists.1 hfile
    rw [goto_dir, Directory.rename, hcontent]
    exact (put_other hne).trans remove_same
  · rw [goto, List.getElem?_set_self hlt] at hq
    cases hq
    cases hdone

end

end NotifyAgent.Lib.Publishing
