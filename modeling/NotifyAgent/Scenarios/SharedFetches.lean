/-
Concurrent fetches of images by the Go agent: any number of callers, in one process or several, with answers, failing
file operations, evictions and other programs that remove files in any order.

- `went_files`, `went_backed`, `went_temp`: what a step of a run does to the files, to what it has in hand, and to its
  temporary file;
- `Inv`, `inv_run`: whose the runs and the temporary files are, and what the images hold;
- `download_source`: a download holds what the run that owns it was answered;
- `shared_fetches`: images are whole, one download runs for each file and process, callers get the result of the run
  that they waited for, and no temporary file is left but one that could not be removed.

Premises: `Unrepeated`, so no download gets the temporary name of another that goes on; and only this cache writes to
the directory, other programs remove files. `os.CreateTemp` itself keeps apart only files that are there.
-/
import Mathlib.Tactic
import NotifyAgent.Core.GoImageCache
import NotifyAgent.Lib.Machine
import NotifyAgent.Scenarios.CacheRaces

namespace NotifyAgent.SharedFetches

open NotifyAgent.Text NotifyAgent.HttpsUrl NotifyAgent.GoImageCache
open NotifyAgent.HeadIdentity (Sha256)
open NotifyAgent.ImageCache (Bytes hexSha256)
open NotifyAgent.CacheTasks (dot_notMem_hexSha256)
open NotifyAgent.CacheRaces (ImageName)
open NotifyAgent.FailedFetch (sampleSha sampleValue)
open NotifyAgent.Lib.Directory (Dir)
open NotifyAgent.Lib.Machine (run Meets meets_at run_inv_at)
open NotifyAgent.Lib.SharedLog (set_cases)
open NotifyAgent.Lib.Publishing (Publisher Whole)

variable {parse : Str → Option URL} {S : Sha256} {o : Options} {d : Dir Str Bytes} {s s' : St}
  {told : ℕ → Response → Prop}

/-- the cache after the given operations, in that order; `d` is the directory at the start -/
def after (parse : Str → Option URL) (S : Sha256) (o : Options) (d : Dir Str Bytes) (ops : List Op) : St :=
  run (step parse S o) (init d) ops

/-! ## What a run has in hand -/

/-- the download that is written or was published -/
def part : Phase → Option ℕ
  | .writing i | .closing i | .renaming i | .cleaning i | .listing i | .evicting i _ => some i
  | .ended (.published i) => some i
  | .ended (.failed stuck) => stuck
  | _ => none

/-- the download whose temporary file the run has still to remove, or could not remove -/
def temp : Phase → Option ℕ
  | .writing i | .closing i | .renaming i | .cleaning i => some i
  | .ended (.failed stuck) => stuck
  | _ => none

/-- how far the download is -/
def Agrees : Phase → Lib.Publishing.Phase → Prop
  | .writing _, p => ∃ k, p = .writing k
  | .closing _, p => p = .written
  | .renaming _, p => p = .renaming
  | .cleaning _, p | .ended (.failed _), p => p = .stopped
  | .listing _, p | .evicting _ _, p | .ended (.published _), p => p = .done
  | _, _ => True

/-- `told`: the answers that the run has been given -/
structure Backed (told : Response → Prop) (o : Options) (d : Dir Str Bytes) (files : Files) (path : Str)
    (phase : Phase) : Prop where
  download : ∀ i, part phase = some i →
    ∃ p, files.publishers[i]? = some p ∧ p.target = path ∧ Agrees phase p.phase
  body : ∀ body, phase = .creating body → ∃ resp, told resp ∧ receive o (some resp) = some body
  found : ∀ content, phase = .ended (.found content) → Whole d files path content

/-- download `i` is one run's, of its file, and holds what that run was answered -/
def Owned (told : ℕ → Response → Prop) (o : Options) (s : St) (i : ℕ) (p : Publisher Str UInt8) : Prop :=
  ∃ f e resp, s.group.flights[f]? = some e ∧ e.1.2 = p.target ∧ told f resp ∧ receive o (some resp) = some p.content ∧
    ∀ (g : ℕ) (e' : (ℕ × Str) × Run), s.group.flights[g]? = some e' → part e'.2.phase = some i → g = f

/-- `told`: the answers that each run has been given -/
structure Inv (told : ℕ → Response → Prop) (S : Sha256) (o : Options) (d : Dir Str Bytes) (s : St) : Prop where
  sound : Lib.Publishing.Sound ImageName d s.files
  owned : ∀ (i : ℕ) (p : Publisher Str UInt8), s.files.publishers[i]? = some p → Owned told o s i p
  group : Lib.SingleFlight.Sound Run.isEnded s.group
  named : ∀ e ∈ s.group.flights, e.1.2 = hexSha256 S e.2.url
  backed : ∀ (f : ℕ) (e : (ℕ × Str) × Run), s.group.flights[f]? = some e → Backed (told f) o d s.files e.1.2 e.2.phase
  waiting : ∀ c ∈ s.calls, ∀ f, c.stage = .waiting f → ∃ r, s.group.flights[f]? = some ((c.process, c.path S), r)
  shared : ∀ c ∈ s.calls, ∀ f, c.stage = .shared f →
    ∃ r, s.group.flights[f]? = some ((c.process, c.path S), r) ∧ r.isEnded
  cached : ∀ c ∈ s.calls, ∀ content, c.stage = .cached content → Whole d s.files (c.path S) content
  litter : ∀ name, (s.files.dir name).isSome → ImageName name ∨ (d name).isSome ∨
    ∃ i p, s.files.publishers[i]? = some p ∧ p.tmp = name ∧ ∃ e ∈ s.group.flights, temp e.2.phase = some i

/-! ## A step of a run -/

section
variable {path : Str} {files files' : Files} {act : Act} {phase phase' : Phase} {told : Response → Prop}

theorem went_not_ended (h : Went o path files act phase files' phase') (outcome : Outcome) :
    phase ≠ .ended outcome := by
  rintro rfl
  cases h with
  | gaveUp _ hphase => rcases hphase with h | ⟨_, h⟩ <;> cases h
  | dropped _ _ hphase => rcases hphase with h | h | h <;> cases h

/-- **The files after a step of a run**: nothing happens, something that is about the run's download or about nobody, or
a download begins. -/
theorem went_files (h : Went o path files act phase files' phase') :
    files' = files ∨
    (∃ op, files' = Lib.Publishing.step files op ∧ (∀ tmp target content, op ≠ .join tmp target content) ∧
      (∀ i, op ≠ .create i) ∧ ∀ i, op.about = some i → part phase = some i) ∨
    ∃ body random, phase = .creating body ∧ act = .created random ∧
      files' = Lib.Publishing.step (Lib.Publishing.step files (.join (tempName random) path body))
        (.create files.publishers.length) ∧ phase' = .writing files.publishers.length := by
  cases h with
  | created body random hact => exact Or.inr (Or.inr ⟨body, random, rfl, hact, rfl, rfl⟩)
  | wrote i k => exact Or.inr (Or.inl ⟨_, rfl, by simp, by simp, fun _ h => h⟩)
  | written i => exact Or.inr (Or.inl ⟨_, rfl, by simp, by simp, fun _ h => h⟩)
  | closed i => exact Or.inr (Or.inl ⟨_, rfl, by simp, by simp, fun _ h => h⟩)
  | renamed i => exact Or.inr (Or.inl ⟨_, rfl, by simp, by simp, fun _ h => h⟩)
  | lost i => exact Or.inr (Or.inl ⟨_, rfl, by simp, by simp, fun _ h => h⟩)
  | dropped phase i hphase =>
    refine Or.inr (Or.inl ⟨_, rfl, by simp, by simp, fun _ h => ?_⟩)
    rcases hphase with rfl | rfl | rfl <;> exact h
  | cleaned i p => exact Or.inr (Or.inl ⟨_, rfl, by simp, by simp, fun _ h => nomatch h⟩)
  | unlinked i name rest => exact Or.inr (Or.inl ⟨_, rfl, by simp, by simp, fun _ h => nomatch h⟩)
  | _ => exact Or.inl rfl

theorem went_kept (h : Went o path files act phase files' phase') : Lib.Publishing.Kept files files' := by
  rcases went_files h with rfl | ⟨op, rfl, -⟩ | ⟨body, random, -, -, rfl, -⟩
  · exact fun i p hp => ⟨p.phase, hp, id⟩
  · exact Lib.Publishing.kept_step _ _
  · exact Lib.Publishing.kept_trans (Lib.Publishing.kept_step _ _) (Lib.Publishing.kept_step _ _)

/-- the downloads of the other runs stay as they are -/
theorem went_other (h : Went o path files act phase files' phase') {j : ℕ} (hj : j < files.publishers.length)
    (hother : part phase ≠ some j) : files'.publishers[j]? = files.publishers[j]? := by
  rcases went_files h with rfl | ⟨op, rfl, -, -, habout⟩ | ⟨body, random, -, -, rfl, -⟩
  · rfl
  · exact Lib.Publishing.other_step (fun heq => hother (habout j heq)) hj
  · have hne : (Lib.Publishing.Op.create files.publishers.length : Lib.Publishing.Op Str UInt8).about ≠ some j := by
      intro heq
      exact absurd (Option.some.inj heq) (by omega)
    rw [Lib.Publishing.other_step hne (by simp [Lib.Publishing.step]; omega)]
    exact Lib.Publishing.other_step (by simp [Lib.Publishing.Op.about]) hj

/-- **A download** was there before, or it is the run's, of what the run was answered. -/
theorem went_publisher (h : Went o path files act phase files' phase') {i : ℕ} {p' : Publisher Str UInt8}
    (hp' : files'.publishers[i]? = some p') :
    (∃ p, files.publishers[i]? = some p ∧ p.target = p'.target ∧ p.content = p'.content) ∨
      i = files.publishers.length ∧ p'.target = path ∧ phase = .creating p'.content := by
  have hold : ∀ {files₁ : Files}, Lib.Publishing.Kept files files₁ → files₁.publishers[i]? = some p' →
      i < files.publishers.length →
        ∃ p, files.publishers[i]? = some p ∧ p.target = p'.target ∧ p.content = p'.content := by
    intro files₁ hkept hp₁ hlt
    obtain ⟨phase, hphase, -⟩ := hkept i _ (List.getElem?_eq_getElem hlt)
    cases hphase.symm.trans hp₁
    exact ⟨_, List.getElem?_eq_getElem hlt, rfl, rfl⟩
  have hlt' := (List.getElem?_eq_some_iff.1 hp').1
  have hkept := went_kept h
  rcases went_files h with rfl | ⟨op, rfl, hjoin, -⟩ | ⟨body, random, rfl, -, rfl, -⟩
  · exact Or.inl ⟨p', hp', rfl, rfl⟩
  · rw [Lib.Publishing.length_step hjoin] at hlt'
    exact Or.inl (hold hkept hp' hlt')
  · by_cases hlt : i < files.publishers.length
    · exact Or.inl (hold hkept hp' hlt)
    · rw [Lib.Publishing.length_step (by simp)] at hlt'
      have hi : i = files.publishers.length := by
        simp only [Lib.Publishing.step, List.length_append, List.length_singleton] at hlt'
        omega
      subst hi
      have hjoined :
          (Lib.Publishing.step files (.join (tempName random) path body)).publishers[files.publishers.length]? =
          some ⟨tempName random, path, body, .named⟩ := List.getElem?_concat_length
      obtain ⟨phase, hphase, -⟩ := Lib.Publishing.kept_step _ (.create files.publishers.length) _ _ hjoined
      cases hphase.symm.trans hp'
      exact Or.inr ⟨rfl, rfl, rfl⟩

theorem fresh_tempName {random : ℕ} {body : Bytes} (hpath : ImageName path)
    (hfresh : ∀ p ∈ files.publishers, p.phase.live = true → p.tmp ≠ tempName random) :
    Lib.Publishing.Fresh ImageName files (.join (tempName random) path body) :=
  ⟨hpath, fun h => h (dot_mem_tempName random), hfresh⟩

theorem went_sound (h : Went o path files act phase files' phase') (hpath : ImageName path)
    (hfresh : ∀ random, act = .created random → ∀ p ∈ files.publishers, p.phase.live = true → p.tmp ≠ tempName random)
    (hs : Lib.Publishing.Sound ImageName d files) : Lib.Publishing.Sound ImageName d files' := by
  rcases went_files h with rfl | ⟨op, rfl, hjoin, -⟩ | ⟨body, random, -, hact, rfl, -⟩
  · exact hs
  · refine Lib.Publishing.sound_step ?_ hs
    cases op with
    | join tmp target content => exact absurd rfl (hjoin tmp target content)
    | _ => exact trivial
  · refine Lib.Publishing.sound_step (o := .create _) trivial ?_
    exact Lib.Publishing.sound_step (fresh_tempName hpath (hfresh random hact)) hs

/-- a run with a download in hand -/
theorem backed_of_part {i : ℕ} (hpart : part phase = some i)
    (hp : ∃ p, files.publishers[i]? = some p ∧ p.target = path ∧ Agrees phase p.phase) :
    Backed told o d files path phase := by
  refine ⟨fun j hj => ?_, fun body hb => ?_, fun content hc => ?_⟩
  · cases hpart.symm.trans hj
    exact hp
  · rw [hb] at hpart
    cases hpart
  · rw [hc] at hpart
    cases hpart

/-- a run without one -/
theorem backed_of_none (hpart : part phase = none)
    (hbody : ∀ body, phase = .creating body → ∃ resp, told resp ∧ receive o (some resp) = some body)
    (hfound : ∀ content, phase = .ended (.found content) → Whole d files path content) :
    Backed told o d files path phase := by
  refine ⟨fun i hi => ?_, hbody, hfound⟩
  rw [hpart] at hi
  cases hi

/-- the run's own download goes on -/
theorem went_backed (h : Went o path files act phase files' phase') (hpath : ImageName path)
    (htold : ∀ resp, phase = .downloading → act = .received (some resp) true → told resp)
    (hs : Lib.Publishing.Sound ImageName d files) (hback : Backed told o d files path phase) :
    Backed told o d files' path phase' := by
  cases h with
  | found content hfile =>
    refine backed_of_none rfl (fun _ h => nomatch h) fun c hc => ?_
    cases hc
    exact hs.files path content hpath hfile
  | received resp body hact hbody =>
    refine backed_of_none rfl (fun b hb => ?_) (fun _ h => nomatch h)
    cases hb
    exact ⟨resp, htold resp rfl hact, hbody⟩
  | missing => exact backed_of_none rfl (fun _ h => nomatch h) (fun _ h => nomatch h)
  | gaveUp => exact backed_of_none rfl (fun _ h => nomatch h) (fun _ h => nomatch h)
  | cleaned => exact backed_of_none rfl (fun _ h => nomatch h) (fun _ h => nomatch h)
  | created body random =>
    refine backed_of_part rfl ⟨⟨tempName random, path, body, .writing 0⟩, ?_, rfl, 0, rfl⟩
    simp [Lib.Publishing.step, Lib.Publishing.goto]
  | wrote i k =>
    obtain ⟨p, hp, htarget, m, hphase⟩ := hback.download i rfl
    refine backed_of_part rfl ?_
    simp only [Lib.Publishing.step, hp, hphase]
    by_cases hk : m ≤ k ∧ k ≤ p.content.length
    · rw [if_pos hk]
      exact ⟨_, List.getElem?_set_self (List.getElem?_eq_some_iff.1 hp).1, htarget, k, rfl⟩
    · rw [if_neg hk]
      exact ⟨p, hp, htarget, m, hphase⟩
  | written i hdone =>
    obtain ⟨p, hp, htarget, -⟩ := hback.download i rfl
    obtain ⟨phase, hp', -⟩ := Lib.Publishing.kept_step files (.written i) i p hp
    rw [hp', Option.map_some] at hdone
    exact backed_of_part rfl ⟨_, hp', htarget, Option.some.inj hdone⟩
  | closed i =>
    obtain ⟨p, hp, htarget, hphase⟩ := hback.download i rfl
    have hphase' : p.phase = .written := hphase
    refine backed_of_part rfl ?_
    simp only [Lib.Publishing.step, hp, hphase', if_true]
    exact ⟨_, List.getElem?_set_self (List.getElem?_eq_some_iff.1 hp).1, htarget, rfl⟩
  | renamed i hdone =>
    obtain ⟨p, hp, htarget, -⟩ := hback.download i rfl
    obtain ⟨phase, hp', -⟩ := Lib.Publishing.kept_step files (.rename i) i p hp
    rw [hp', Option.map_some] at hdone
    exact backed_of_part rfl ⟨_, hp', htarget, Option.some.inj hdone⟩
  | lost i hdone =>
    obtain ⟨p, hp, htarget, hphase⟩ := hback.download i rfl
    have hlt := (List.getElem?_eq_some_iff.1 hp).1
    have hphase' : p.phase = .renaming := hphase
    refine backed_of_part rfl ?_
    simp only [Lib.Publishing.step, hp, hphase', if_true] at hdone ⊢
    split_ifs at hdone ⊢ with hfile
    · exact absurd (by simp [Lib.Publishing.goto, hlt]) hdone
    · exact ⟨_, List.getElem?_set_self hlt, htarget, rfl⟩
  | dropped phase i hphase =>
    have hlive : ∃ p, files.publishers[i]? = some p ∧ p.target = path ∧ p.phase.live = true := by
      rcases hphase with rfl | rfl | rfl
      · obtain ⟨p, hp, htarget, k, hk⟩ := hback.download i rfl
        exact ⟨p, hp, htarget, by rw [hk]; rfl⟩
      · obtain ⟨p, hp, htarget, hk⟩ := hback.download i rfl
        exact ⟨p, hp, htarget, by rw [show p.phase = .written from hk]; rfl⟩
      · obtain ⟨p, hp, htarget, hk⟩ := hback.download i rfl
        exact ⟨p, hp, htarget, by rw [show p.phase = .renaming from hk]; rfl⟩
    obtain ⟨p, hp, htarget, hlive⟩ := hlive
    refine backed_of_part rfl ?_
    simp only [Lib.Publishing.step, hp, hlive, if_true]
    exact ⟨_, List.getElem?_set_self (List.getElem?_eq_some_iff.1 hp).1, htarget, rfl⟩
  | stuck i => exact backed_of_part rfl (hback.download i rfl)
  | listed i names => exact backed_of_part rfl (hback.download i rfl)
  | unlinked i name rest => exact backed_of_part rfl (hback.download i rfl)
  | skipped i name rest => exact backed_of_part rfl (hback.download i rfl)
  | evicted i => exact backed_of_part rfl (hback.download i rfl)

/-- a run keeps its download, lets it go, or has got a new one -/
theorem went_part (h : Went o path files act phase files' phase') {i : ℕ} (hi : part phase' = some i) :
    part phase = some i ∨ i = files.publishers.length := by
  cases h with
  | created => exact Or.inr (Option.some.inj hi).symm
  | dropped phase j hphase =>
    rcases hphase with rfl | rfl | rfl <;> exact Or.inl hi
  | gaveUp => cases hi
  | cleaned => cases hi
  | received => cases hi
  | _ => exact Or.inl hi

/-- **A temporary file** stays the run's, or is gone. -/
theorem went_temp (h : Went o path files act phase files' phase') (hs : Lib.Publishing.Sound ImageName d files)
    (hback : Backed told o d files path phase) {i : ℕ} (hi : temp phase = some i) :
    temp phase' = some i ∨ ∀ p, files.publishers[i]? = some p → files'.dir p.tmp = none := by
  cases h with
  | renamed j hdone =>
    cases hi
    refine Or.inr fun p hp => ?_
    obtain ⟨q, hq, -, hphase⟩ := hback.download i rfl
    cases hp.symm.trans hq
    obtain ⟨q, hq, hqdone⟩ := Option.map_eq_some_iff.1 hdone
    have hshape := hs.shape p (List.mem_of_getElem? hp)
    exact Lib.Publishing.renamed_tmp hp hphase (fun heq => hshape.2 (heq ▸ hshape.1)) hq hqdone
  | cleaned j p hp =>
    cases hi
    refine Or.inr fun q hq => ?_
    cases hp.symm.trans hq
    exact Lib.Directory.remove_same
  | dropped phase j hphase =>
    rcases hphase with rfl | rfl | rfl <;> exact Or.inl hi
  | gaveUp _ hphase =>
    rcases hphase with rfl | ⟨_, rfl⟩ <;> cases hi
  | listed => cases hi
  | unlinked => cases hi
  | skipped => cases hi
  | evicted => cases hi
  | created => cases hi
  | _ => exact Or.inl hi

/-- a file appears as the temporary file of the run, or as an image -/
theorem went_appears (h : Went o path files act phase files' phase') {name : Str} (hname : (files'.dir name).isSome) :
    (files.dir name).isSome ∨ (∃ p ∈ files.publishers, name = p.target) ∨
      ∃ i p, files'.publishers[i]? = some p ∧ p.tmp = name ∧ temp phase' = some i := by
  rcases went_files h with rfl | ⟨op, rfl, -, hcreate, -⟩ | ⟨body, random, -, -, rfl, rfl⟩
  · exact Or.inl hname
  · rcases Lib.Publishing.file_step hname with hold | ⟨i, p, hp, ⟨hop, -⟩ | ⟨-, htarget⟩⟩
    · exact Or.inl hold
    · exact absurd hop (hcreate i)
    · exact Or.inr (Or.inl ⟨p, List.mem_of_getElem? hp, htarget⟩)
  · rcases Lib.Publishing.file_step hname with hold | ⟨i, p, hp, ⟨hop, htmp⟩ | ⟨hop, -⟩⟩
    · exact Or.inl hold
    · cases hop
      obtain ⟨phase, hp', -⟩ := Lib.Publishing.kept_step _ (.create files.publishers.length) _ p hp
      exact Or.inr (Or.inr ⟨_, _, hp', htmp.symm, rfl⟩)
    · cases hop

end

/-! ## The invariant -/

theorem setRun_eq (s : St) (f : ℕ) (key : ℕ × Str) (r : Run) (files : Files) (phase : Phase) :
    ∃ running, setRun s f key r files phase =
      { s with files := files, group := ⟨running, s.group.flights.set f (key, { r with phase := phase })⟩ } := by
  unfold setRun
  split
  · exact ⟨_, rfl⟩
  · exact ⟨_, rfl⟩

theorem setRun_group {f : ℕ} {key : ℕ × Str} {r : Run} (hs : Lib.SingleFlight.Sound Run.isEnded s.group)
    (hf : s.group.flights[f]? = some (key, r)) (hr : ∀ outcome, r.phase ≠ .ended outcome) (files : Files)
    (phase : Phase) :
    Lib.SingleFlight.Sound Run.isEnded (setRun s f key r files phase).group := by
  have hnot : ¬ r.isEnded := fun ⟨outcome, h⟩ => hr outcome h
  unfold setRun
  split
  · rename_i outcome
    exact Lib.SingleFlight.sound_finish hs hf hnot ⟨outcome, rfl⟩
  · rename_i hphase
    exact Lib.SingleFlight.sound_advance hs hf hnot fun ⟨outcome, h⟩ => hphase outcome h

theorem backed_kept {told : Response → Prop} {files files' : Files} {path : Str} {phase : Phase}
    (hkeep : Lib.Publishing.Kept files files')
    (hsame : ∀ i, part phase = some i → files'.publishers[i]? = files.publishers[i]?)
    (h : Backed told o d files path phase) : Backed told o d files' path phase where
  download i hi := by
    rw [hsame i hi]
    exact h.download i hi
  body := h.body
  found content hc := Lib.Publishing.whole_kept hkeep (h.found content hc)

theorem image_of_named {url : Str} {path : Str} (h : path = hexSha256 S url) : ImageName path := by
  rw [h]
  exact dot_notMem_hexSha256 S url

/-- a download is in hand of one run at most -/
theorem owned_eq (hs : Inv told S o d s) {f g i : ℕ} {e e' : (ℕ × Str) × Run} (hf : s.group.flights[f]? = some e)
    (hg : s.group.flights[g]? = some e') (hi : part e.2.phase = some i) (hi' : part e'.2.phase = some i) : f = g := by
  obtain ⟨p, hp, -⟩ := (hs.backed f e hf).download i hi
  obtain ⟨owner, -, -, -, -, -, -, hown⟩ := hs.owned i p hp
  exact (hown f e hf hi).trans (hown g e' hg hi').symm

/-- **A step of a run** keeps the invariant. -/
theorem inv_setRun {f : ℕ} {key : ℕ × Str} {r : Run} {act : Act} {files : Files} {phase : Phase} (hs : Inv told S o d s)
    (hf : s.group.flights[f]? = some (key, r)) (h : Went o key.2 s.files act r.phase files phase)
    (hfresh : Unrepeated s (.run f act))
    (htold : ∀ resp, r.phase = .downloading → act = .received (some resp) true → told f resp) :
    Inv told S o d (setRun s f key r files phase) := by
  have hmem := List.mem_of_getElem? hf
  have hlt := (List.getElem?_eq_some_iff.1 hf).1
  have himage := image_of_named (hs.named _ hmem)
  have hback := hs.backed f _ hf
  have hkeep := went_kept h
  have hgroup := setRun_group hs.group hf (went_not_ended h) files phase
  obtain ⟨running, heq⟩ := setRun_eq s f key r files phase
  rw [heq] at hgroup ⊢
  have hnot : ¬ r.isEnded := fun ⟨outcome, h'⟩ => went_not_ended h outcome h'
  have hflights : Lib.SingleFlight.Kept Run.isEnded s.group
      ⟨running, s.group.flights.set f (key, { r with phase := phase })⟩ :=
    Lib.SingleFlight.kept_set hf hnot running _
  have hbound : ∀ (g : ℕ) e, s.group.flights[g]? = some e → ∀ i, part e.2.phase = some i →
      i < s.files.publishers.length := by
    intro g e hg i hi
    obtain ⟨p, hp, -⟩ := (hs.backed g e hg).download i hi
    exact (List.getElem?_eq_some_iff.1 hp).1
  have hnew := went_sound h himage (fun random hact => hfresh random (by rw [hact]; rfl)) hs.sound
  refine ⟨hnew, fun i p' hp' => ?_, hgroup, fun e he => ?_, fun g e hg => ?_, fun c hc g hg => ?_, fun c hc g hg => ?_,
    fun c hc content hcontent => Lib.Publishing.whole_kept hkeep (hs.cached c hc content hcontent),
    fun name hname => ?_⟩
  · rcases went_publisher h hp' with ⟨p, hp, htarget, hcontent⟩ | ⟨rfl, htarget, hcreating⟩
    · obtain ⟨owner, e, resp, howner, hpath, hresp, hbody, hown⟩ := hs.owned i p hp
      obtain ⟨e', he', hkey⟩ : ∃ e', (s.group.flights.set f (key, { r with phase := phase }))[owner]? = some e' ∧
          e'.1 = e.1 := by
        obtain ⟨r', hr', -⟩ := hflights owner e.1 e.2 howner
        exact ⟨_, hr', rfl⟩
      refine ⟨owner, e', resp, he', by rw [hkey, hpath, htarget], hresp, hcontent ▸ hbody, fun g e hg hi => ?_⟩
      rcases set_cases hg with ⟨rfl, rfl⟩ | ⟨hne, hg⟩
      · rcases went_part h hi with hold | rfl
        · exact hown _ _ hf hold
        · exact absurd (List.getElem?_eq_some_iff.1 hp).1 (lt_irrefl _)
      · exact hown g e hg hi
    · obtain ⟨resp, hresp, hbody⟩ := hback.body _ hcreating
      refine ⟨f, _, resp, List.getElem?_set_self hlt, htarget.symm, hresp, hbody, fun g e hg hi => ?_⟩
      rcases set_cases hg with ⟨rfl, -⟩ | ⟨hne, hg⟩
      · rfl
      · exact absurd (hbound g e hg _ hi) (lt_irrefl _)
  · rcases List.mem_or_eq_of_mem_set he with he | rfl
    · exact hs.named e he
    · exact hs.named (key, r) hmem
  · rcases set_cases hg with ⟨rfl, rfl⟩ | ⟨hne, hg⟩
    · exact went_backed h himage htold hs.sound hback
    · refine backed_kept hkeep (fun i hi => ?_) (hs.backed g e hg)
      exact went_other h (hbound g e hg i hi) fun hi' => hne (owned_eq hs hf hg hi' hi)
  · obtain ⟨q, hq⟩ := hs.waiting c hc g hg
    obtain ⟨q', hq', -⟩ := hflights g _ q hq
    exact ⟨q', hq'⟩
  · obtain ⟨q, hq, hended⟩ := hs.shared c hc g hg
    obtain ⟨q', hq', hsame⟩ := hflights g _ q hq
    exact ⟨q', hq', by rwa [hsame hended]⟩
  · rcases went_appears h hname with hold | ⟨p, hp, rfl⟩ | ⟨i, p, hp, htmp, hi⟩
    · rcases hs.litter name hold with himg | hd | ⟨i, p, hp, rfl, e, he, hi⟩
      · exact Or.inl himg
      · exact Or.inr (Or.inl hd)
      · obtain ⟨phase', hp', -⟩ := hkeep i p hp
        obtain ⟨g, hg⟩ := List.mem_iff_getElem?.1 he
        by_cases hfg : f = g
        · subst hfg
          cases hf.symm.trans hg
          rcases went_temp h hs.sound hback hi with hi' | hgone
          · exact Or.inr (Or.inr ⟨i, _, hp', rfl, _, List.mem_set hlt _, hi'⟩)
          · rw [hgone p hp] at hname
            cases hname
        · have he' : (s.group.flights.set f (key, { r with phase := phase }))[g]? = some e :=
            (List.getElem?_set_ne hfg).trans hg
          exact Or.inr (Or.inr ⟨i, _, hp', rfl, e, List.mem_of_getElem? he', hi⟩)
    · exact Or.inl (hs.sound.shape p hp).1
    · exact Or.inr (Or.inr ⟨i, p, hp, htmp, _, List.mem_set hlt _, hi⟩)

/-- a caller goes on, and may have joined a run -/
theorem inv_setCall {i : ℕ} {c : Call} {stage : Stage} {group : Lib.SingleFlight.Group (ℕ × Str) Run}
    (hs : Inv told S o d s)
    (hgroup : Lib.SingleFlight.Sound Run.isEnded group)
    (hold : ∀ (g : ℕ) (e : (ℕ × Str) × Run), s.group.flights[g]? = some e → group.flights[g]? = some e)
    (hnew : ∀ (g : ℕ) (e : (ℕ × Str) × Run), group.flights[g]? = some e →
      s.group.flights[g]? = some e ∨ (e.1.2 = hexSha256 S e.2.url ∧ e.2.phase = .checking))
    (hwaiting : ∀ f, stage = .waiting f → ∃ r, group.flights[f]? = some ((c.process, c.path S), r))
    (hshared : ∀ f, stage = .shared f → ∃ r, group.flights[f]? = some ((c.process, c.path S), r) ∧ r.isEnded)
    (hcached : ∀ content, stage = .cached content → Whole d s.files (c.path S) content) :
    Inv told S o d { setCall s i c stage with group := group } := by
  have hpart : ∀ (g : ℕ) (e : (ℕ × Str) × Run) j, group.flights[g]? = some e → part e.2.phase = some j →
      s.group.flights[g]? = some e := by
    intro g e j he hj
    rcases hnew g e he with h | ⟨-, h⟩
    · exact h
    · rw [h] at hj
      cases hj
  refine ⟨hs.sound, fun j p hp => ?_, hgroup, fun e he => ?_, fun g e hg => ?_, fun q hq f hf => ?_,
    fun q hq f hf => ?_, fun q hq content hcontent => ?_, fun name hname => ?_⟩
  · obtain ⟨owner, e, resp, howner, hpath, hresp, hbody, hown⟩ := hs.owned j p hp
    exact ⟨owner, e, resp, hold owner e howner, hpath, hresp, hbody,
      fun g e' hg hj => hown g e' (hpart g e' j hg hj) hj⟩
  · obtain ⟨g, hg⟩ := List.mem_iff_getElem?.1 he
    rcases hnew g e hg with h | ⟨h, -⟩
    · exact hs.named e (List.mem_of_getElem? h)
    · exact h
  · rcases hnew g e hg with h | ⟨-, h⟩
    · exact hs.backed g e h
    · rw [h]
      exact backed_of_none rfl (fun _ h => nomatch h) (fun _ h => nomatch h)
  · rcases List.mem_or_eq_of_mem_set hq with hq | rfl
    · obtain ⟨r, hr⟩ := hs.waiting q hq f hf
      exact ⟨r, hold f _ hr⟩
    · exact hwaiting f hf
  · rcases List.mem_or_eq_of_mem_set hq with hq | rfl
    · obtain ⟨r, hr, hended⟩ := hs.shared q hq f hf
      exact ⟨r, hold f _ hr, hended⟩
    · exact hshared f hf
  · rcases List.mem_or_eq_of_mem_set hq with hq | rfl
    · exact hs.cached q hq content hcontent
    · exact hcached content hcontent
  · rcases hs.litter name hname with h | h | ⟨j, p, hp, htmp, e, he, hj⟩
    · exact Or.inl h
    · exact Or.inr (Or.inl h)
    · obtain ⟨g, hg⟩ := List.mem_iff_getElem?.1 he
      exact Or.inr (Or.inr ⟨j, p, hp, htmp, e, List.mem_of_getElem? (hold g e hg), hj⟩)

/-- a caller goes on by itself -/
theorem inv_stage {i : ℕ} {c : Call} {stage : Stage} (hs : Inv told S o d s)
    (hwaiting : ∀ f, stage ≠ .waiting f)
    (hshared : ∀ f, stage = .shared f → ∃ r, s.group.flights[f]? = some ((c.process, c.path S), r) ∧ r.isEnded)
    (hcached : ∀ content, stage = .cached content → Whole d s.files (c.path S) content) :
    Inv told S o d (setCall s i c stage) :=
  inv_setCall hs hs.group (fun _ _ h => h) (fun _ _ h => Or.inl h) (fun f h => absurd h (hwaiting f))
    hshared hcached

theorem inv_remove (hs : Inv told S o d s) (name : Str) :
    Inv told S o d { s with files := Lib.Publishing.step s.files (.remove name) } := by
  have hkeep := Lib.Publishing.kept_step s.files (.remove name)
  refine ⟨
    Lib.Publishing.sound_step (o := .remove name) trivial hs.sound, hs.owned, hs.group, hs.named, fun g e hg => ?_,
    hs.waiting, hs.shared, fun c hc content hcontent => ?_, fun other hother => ?_⟩
  · exact backed_kept hkeep (fun _ _ => rfl) (hs.backed g e hg)
  · exact Lib.Publishing.whole_kept hkeep (hs.cached c hc content hcontent)
  · rcases Lib.Publishing.file_step (s := s.files) (o := .remove name) hother with h | ⟨i, p, -, ⟨h, -⟩ | ⟨h, -⟩⟩
    · exact hs.litter other h
    · cases h
    · cases h

/-- **A step** keeps the invariant. -/
theorem inv_step (hs : Inv told S o d s) (op : Op) (hfresh : Unrepeated s op)
    (htold : ∀ f resp key url, op = .run f (.received (some resp) true) →
      s.group.flights[f]? = some (key, ⟨url, .downloading⟩) → told f resp) : Inv told S o d (step parse S o s op) := by
  cases op with
  | fetch process rawURL =>
    simp only [step]
    split_ifs
    · refine ⟨hs.sound, hs.owned, hs.group, hs.named, hs.backed, fun c hc f hf => ?_, fun c hc f hf => ?_,
        fun c hc content hcontent => ?_, hs.litter⟩ <;> rcases List.mem_append.1 hc with hc | hc
      · exact hs.waiting c hc f hf
      · rw [List.mem_singleton.1 hc] at hf
        cases hf
      · exact hs.shared c hc f hf
      · rw [List.mem_singleton.1 hc] at hf
        cases hf
      · exact hs.cached c hc content hcontent
      · rw [List.mem_singleton.1 hc] at hcontent
        cases hcontent
    · exact hs
  | looked i ok =>
    simp only [step]
    split
    · rename_i c hc
      split_ifs
      · split
        · rename_i content hstat
          unfold stat at hstat
          split_ifs at hstat
          refine inv_stage hs (by simp) (by simp) fun content' h => ?_
          cases h
          exact hs.sound.files _ _ (dot_notMem_hexSha256 S c.rawURL) hstat
        · exact inv_stage hs (by simp) (by simp) (by simp)
      · exact hs
    · exact hs
  | join i =>
    simp only [step]
    split
    · rename_i c hc
      split_ifs
      · have hstart : ¬ (⟨c.rawURL, .checking⟩ : Run).isEnded := fun ⟨_, h⟩ => nomatch h
        refine inv_setCall hs (Lib.SingleFlight.sound_join hs.group hstart) (fun _ _ h => Lib.SingleFlight.join_old h)
          (fun g e h => ?_) (fun f h => ?_) (by simp) (by simp)
        · rcases Lib.SingleFlight.join_cases h with h | rfl
          · exact Or.inl h
          · exact Or.inr ⟨rfl, rfl⟩
        · cases h
          obtain ⟨r, hr, -⟩ := Lib.SingleFlight.joined hs.group hstart
          exact ⟨r, hr⟩
      · exact hs
    · exact hs
  | answered i =>
    simp only [step]
    split
    · rename_i c hc
      split
      · rename_i f hstage
        split
        · rename_i outcome hended
          refine inv_stage hs (by simp) (fun g h => ?_) (by simp)
          cases h
          obtain ⟨r, hr⟩ := hs.waiting c (List.mem_of_getElem? hc) f hstage
          rw [hr, Option.map_some] at hended
          exact ⟨r, hr, outcome, Option.some.inj hended⟩
        · exact hs
      · exact hs
    · exact hs
  | run f act =>
    simp only [step]
    split
    · rename_i key r hf
      split
      · rename_i files phase hgo
        refine inv_setRun hs hf (go_cases hgo) hfresh fun resp hphase hact => ?_
        exact htold f resp key r.url (by rw [hact]) (by rw [hf, ← hphase])
      · exact hs
    · exact hs
  | remove name => exact inv_remove hs name

/-- run `f` is answered, while it waits for that, and the directory is there -/
def Answered (parse : Str → Option URL) (S : Sha256) (o : Options) (d : Dir Str Bytes) (ops : List Op) (f : ℕ)
    (resp : Response) : Prop :=
  ∃ before later key url, ops = before ++ .run f (.received (some resp) true) :: later ∧
    (after parse S o d before).group.flights[f]? = some (key, ⟨url, .downloading⟩)

theorem inv_init (S : Sha256) (o : Options) (d : Dir Str Bytes) : Inv told S o d (init d) := by
  refine ⟨Lib.Publishing.sound_init d, ?_, Lib.SingleFlight.sound_empty, ?_, ?_, ?_, ?_, ?_,
    fun name h => Or.inr (Or.inl h)⟩
  · intro i p hp
    simp [init] at hp
  · exact List.forall_mem_nil _
  · intro f e hf
    simp [init, Lib.SingleFlight.empty] at hf
  · exact List.forall_mem_nil _
  · exact List.forall_mem_nil _
  · exact List.forall_mem_nil _

theorem inv_run {ops : List Op} (hnames : Meets (step parse S o) Unrepeated (init d) ops) :
    Inv (Answered parse S o d ops) S o d (after parse S o d ops) := by
  refine run_inv_at (I := Inv (Answered parse S o d ops) S o d) _ (inv_init S o d) fun before op later heq hs => ?_
  refine inv_step hs op (meets_at _ (heq ▸ hnames)) fun f resp key url hop hf => ?_
  exact ⟨before, later, key, url, by rw [heq, hop], hf⟩

/-! ## The result -/

/-- a download is of the image of a run, and holds what that run was answered -/
theorem download_source {ops : List Op} (hnames : Meets (step parse S o) Unrepeated (init d) ops) {i : ℕ}
    {p : Publisher Str UInt8} (hp : (after parse S o d ops).files.publishers[i]? = some p) :
    ∃ f process r resp, (after parse S o d ops).group.flights[f]? = some ((process, p.target), r) ∧
      p.target = hexSha256 S r.url ∧ Answered parse S o d ops f resp ∧ 200 ≤ resp.statusCode ∧ resp.statusCode < 300 ∧
      isImageContentType resp.contentType = true ∧
      (if maxBytes o < maxInt64 then
        (∀ a ∈ resp.body, a.isSome) ∧ p.content = sent resp.body ∧ (p.content.length : ℤ) ≤ maxBytes o
      else p.content = []) ∧
      ∀ (g : ℕ) (e : (ℕ × Str) × Run), (after parse S o d ops).group.flights[g]? = some e →
        part e.2.phase = some i → g = f := by
  have hinv := inv_run hnames
  obtain ⟨f, ⟨⟨process, target⟩, r⟩, resp, hf, htarget, hanswered, hbody, hown⟩ := hinv.owned i p hp
  have htarget' : target = p.target := htarget
  subst htarget'
  obtain ⟨_, heq, h1, h2, himage, hcontent⟩ := receive_eq_some.1 hbody
  cases heq
  exact ⟨f, process, r, resp, hf, hinv.named _ (List.mem_of_getElem? hf), hanswered, h1, h2, himage, hcontent, hown⟩

/-- **Shared fetches.** After any operations, in any order, where no temporary name of a download that goes on is drawn
again:
- a file of an image name is as it was at the start or is a download of that name, all of it;
- each download is one run's, of the image of the run's URL, and holds what an image response sent that the run was
  given while it waited: the whole body, within the cap, or nothing where the cap is `math.MaxInt64`;
- in each process at most one run for a file is not over;
- a caller that has returned from a run returns what that run, which is about its file, came to: the file that was there
  or the run's own download, or nothing if it failed;
- a path that a caller returns is its own and names a file that was whole;
- any other file was there at the start, or is the temporary file of a run that is not over or could not remove it. -/
theorem shared_fetches (parse : Str → Option URL) (S : Sha256) (o : Options) (d : Dir Str Bytes) (ops : List Op)
    (hnames : Meets (step parse S o) Unrepeated (init d) ops) :
    (∀ name content, ImageName name → (after parse S o d ops).files.dir name = some content →
      Whole d (after parse S o d ops).files name content) ∧
    (∀ i p, (after parse S o d ops).files.publishers[i]? = some p →
      ∃ f process r resp, (after parse S o d ops).group.flights[f]? = some ((process, p.target), r) ∧
        p.target = hexSha256 S r.url ∧ Answered parse S o d ops f resp ∧ 200 ≤ resp.statusCode ∧ resp.statusCode < 300 ∧
        isImageContentType resp.contentType = true ∧
        (if maxBytes o < maxInt64 then
          (∀ a ∈ resp.body, a.isSome) ∧ p.content = sent resp.body ∧ (p.content.length : ℤ) ≤ maxBytes o
        else p.content = []) ∧
        ∀ (g : ℕ) (e : (ℕ × Str) × Run), (after parse S o d ops).group.flights[g]? = some e →
          part e.2.phase = some i → g = f) ∧
    (∀ (f g : ℕ) key r r', (after parse S o d ops).group.flights[f]? = some (key, r) →
      (after parse S o d ops).group.flights[g]? = some (key, r') → ¬ r.isEnded → ¬ r'.isEnded → f = g) ∧
    (∀ c ∈ (after parse S o d ops).calls, ∀ f, c.stage = .shared f →
      ∃ r outcome, (after parse S o d ops).group.flights[f]? = some ((c.process, c.path S), r) ∧
        r.phase = .ended outcome ∧ (result S (after parse S o d ops) c = some none ↔ ∃ stuck, outcome = .failed stuck) ∧
        (∀ content, outcome = .found content → Whole d (after parse S o d ops).files (c.path S) content) ∧
        ∀ i, outcome = .published i → ∃ p, (after parse S o d ops).files.publishers[i]? = some p ∧
          p.target = c.path S ∧ p.phase = .done) ∧
    (∀ c ∈ (after parse S o d ops).calls, ∀ path, result S (after parse S o d ops) c = some (some path) →
      path = c.path S ∧ ∃ content, Whole d (after parse S o d ops).files path content) ∧
    ∀ name, ((after parse S o d ops).files.dir name).isSome → ImageName name ∨ (d name).isSome ∨
      ∃ i p, (after parse S o d ops).files.publishers[i]? = some p ∧ p.tmp = name ∧
        ∃ e ∈ (after parse S o d ops).group.flights, temp e.2.phase = some i ∧
          (¬ e.2.isEnded ∨ e.2.phase = .ended (.failed (some i))) := by
  have hinv := inv_run hnames
  refine ⟨hinv.sound.files, fun i p hp => download_source hnames hp, fun f g key r r' hf hg hr hr' => ?_,
    fun c hc f hf => ?_, fun c hc path hresult => ?_, fun name hname => ?_⟩
  · exact Lib.SingleFlight.one_flight hinv.group hf hg hr hr'
  · obtain ⟨r, hr, outcome, houtcome⟩ := hinv.shared c hc f hf
    have hback := hinv.backed f _ hr
    refine ⟨r, outcome, hr, houtcome, ?_, fun content h => hback.found content (h ▸ houtcome), fun i h => ?_⟩
    · simp only [result, hf, hr, Option.bind_some, houtcome]
      cases outcome <;> simp
    · obtain ⟨p, hp, htarget, hdone⟩ := hback.download i (by rw [houtcome, h]; rfl)
      rw [houtcome, h] at hdone
      exact ⟨p, hp, htarget, hdone⟩
  · unfold result at hresult
    split at hresult
    · rename_i content hstage
      cases hresult
      exact ⟨rfl, content, hinv.cached c hc content hstage⟩
    · rename_i f hstage
      obtain ⟨r, hr, outcome, houtcome⟩ := hinv.shared c hc f hstage
      have hback := hinv.backed f _ hr
      simp only [hr, Option.bind_some, houtcome] at hresult
      cases outcome with
      | found content =>
        cases hresult
        exact ⟨rfl, content, hback.found content houtcome⟩
      | published i =>
        cases hresult
        obtain ⟨p, hp, htarget, hdone⟩ := hback.download i (by rw [houtcome]; rfl)
        rw [houtcome] at hdone
        exact ⟨rfl, p.content, Or.inr ⟨p, List.mem_of_getElem? hp, htarget, hdone, rfl⟩⟩
      | failed stuck => cases hresult
    · cases hresult
  · rcases hinv.litter name hname with h | h | ⟨i, p, hp, htmp, e, he, hi⟩
    · exact Or.inl h
    · exact Or.inr (Or.inl h)
    · refine Or.inr (Or.inr ⟨i, p, hp, htmp, e, he, hi, ?_⟩)
      by_cases hended : e.2.isEnded
      · obtain ⟨outcome, houtcome⟩ := hended
        rw [houtcome] at hi
        cases outcome with
        | failed stuck => exact Or.inr (by rw [houtcome, show stuck = some i from hi])
        | found => cases hi
        | published => cases hi
      · exact Or.inl hended

/-! ## Two callers -/

def parseSample (_ : Str) : Option URL := some ⟨"https".toList, ['a'], none⟩

/-- two callers of one URL come before its image is there, and share the run that the first one starts -/
def twoCallers : List Op :=
  [.fetch 0 sampleValue, .fetch 0 sampleValue, .looked 0 true, .looked 1 true, .join 0, .join 1,
    .run 0 (.rechecked true),
    .run 0 (.received (some ⟨200, "image/png".toList, [some [1, 2], some [3]]⟩) true), .run 0 (.created 7),
    .run 0 (.wrote 3), .run 0 (.written true), .run 0 (.closed true), .run 0 (.renamed true), .run 0 (.listed none []),
    .run 0 .evicted, .answered 0, .answered 1]

theorem two_callers_served :
    (after parseSample sampleSha defaultOptions (fun _ => none) twoCallers).calls.length = 2 ∧
      ∀ c ∈ (after parseSample sampleSha defaultOptions (fun _ => none) twoCallers).calls,
        ∃ content, Whole (fun _ => none) (after parseSample sampleSha defaultOptions (fun _ => none) twoCallers).files
          (c.path sampleSha) content := by
  refine ⟨by decide, fun c hc => ?_⟩
  have hnames : Meets (step parseSample sampleSha defaultOptions) Unrepeated (init fun _ => none) twoCallers := by
    decide
  obtain ⟨-, -, -, -, hpath, -⟩ := shared_fetches parseSample sampleSha defaultOptions (fun _ => none) twoCallers hnames
  have hall : ∀ c ∈ (after parseSample sampleSha defaultOptions (fun _ => none) twoCallers).calls,
      result sampleSha (after parseSample sampleSha defaultOptions (fun _ => none) twoCallers) c =
        some (some (c.path sampleSha)) := by decide
  exact (hpath c hc _ (hall c hc)).2

end NotifyAgent.SharedFetches
