/-
Concurrent fetches of images by the Rust agent. Any number of them run at a time, in one process or several, and are
interleaved, cancelled by their timeouts and disturbed by evictions, by failing file operations and by other programs
that remove files, in any way.

- `Inv`, `inv_run`: whose the temporary files are, and what the images hold;
- `accepted_image`: what was downloaded is an image within the cap, as it was sent;
- `publisher_source`: a download holds the body of a response that the run has given to its fetch;
- `cache_races`: an image file is whole or as it was before; a fetch that returns a path has found such a file or has
  put its own download there; and nobody writes to another's temporary file.

Premises: those of `Core.CacheTasks`, so temporary names do not repeat. Only this cache writes to the directory; other
programs remove files.
-/
import Mathlib.Tactic
import NotifyAgent.Core.CacheTasks
import NotifyAgent.Lib.Machine
import NotifyAgent.Scenarios.FailedFetch

namespace NotifyAgent.CacheRaces

open NotifyAgent.Text NotifyAgent.ImageCache NotifyAgent.CacheTasks NotifyAgent.FailedFetch
open NotifyAgent.ActionUrl (Url)
open NotifyAgent.HeadIdentity (Sha256)
open NotifyAgent.Lib.Directory (Dir)
open NotifyAgent.Lib.Machine (run run_inv)
open NotifyAgent.Lib.Publishing (Publisher Sound Kept sound_step sound_init kept_step mem_step length_step)
open NotifyAgent.Lib.SharedLog (set_cases started_cases)

variable {parse : Str → Option Url} {S : Sha256} {o : ImageCacheOptions} {d : Dir Str Bytes} {s s' : St}

/-- the cache after the given operations, in that order; `d` is the directory at the start -/
def after (parse : Str → Option Url) (S : Sha256) (o : ImageCacheOptions) (d : Dir Str Bytes) (ops : List Op) : St :=
  run (step parse S o) (init d) ops

/-! ## The invariant -/

/-- image names have no extension -/
def ImageName (name : Str) : Prop := '.' ∉ name

/-- the file had the content at the start, or a download of it that is over had -/
def Whole (d : Dir Str Bytes) (s : St) (name : Str) (content : Bytes) : Prop :=
  d name = some content ∨
    ∃ p ∈ s.files.publishers, p.target = name ∧ p.phase = .done ∧ p.content = content

/-- publisher `part` has the download of fetch `i`, which met with `w` -/
def Downloaded (o : ImageCacheOptions) (s : St) (part i : ℕ) (w : World) : Prop :=
  ∃ p f, s.files.publishers[part]? = some p ∧ s.fetches[i]? = some f ∧ f.path = p.target ∧ receive o w = .ok p.content

/-- publisher `part` has a download of fetch `i` -/
def Owns (s : St) (i : ℕ) (f : Fetch) (part : ℕ) (p : Publisher Str UInt8) : Prop :=
  s.files.publishers[part]? = some p ∧ p.target = f.path ∧ ∃ w, s.downloads[part]? = some (i, w)

/-- what a fetch has in hand, or has returned -/
def Backed (d : Dir Str Bytes) (s : St) (i : ℕ) (f : Fetch) : Prop :=
  match f.phase with
  | .writing part | .renaming part => ∃ p, Owns s i f part p
  | .evicting part _ | .returned (.published part) => ∃ p, Owns s i f part p ∧ p.phase = .done
  | .returned (.found content) => Whole d s f.path content
  | _ => True

structure Inv (o : ImageCacheOptions) (d : Dir Str Bytes) (s : St) : Prop where
  sound : Sound ImageName d s.files
  /-- a download's temporary name has a counter value that its process has passed -/
  named : ∀ p ∈ s.files.publishers, ∃ process counter, counter < s.tmpCounter process ∧
    p.tmp = tmpName ⟨process, counter⟩ p.target
  recorded : s.downloads.length = s.files.publishers.length
  received : ∀ part i w, s.downloads[part]? = some (i, w) → Downloaded o s part i w
  paths : ∀ f ∈ s.fetches, ImageName f.path
  backed : ∀ i f, s.fetches[i]? = some f → Backed d s i f

/-! ## Steps -/

/-- the fetches are still there, each for its own image -/
def SamePaths (fetches fetches' : List Fetch) : Prop :=
  ∀ (i : ℕ) (f : Fetch), fetches[i]? = some f → ∃ f' : Fetch, fetches'[i]? = some f' ∧ f'.path = f.path

theorem samePaths_refl (fetches : List Fetch) : SamePaths fetches fetches := fun _ f hf => ⟨f, hf, rfl⟩

theorem samePaths_goto {i : ℕ} {f : Fetch} (hf : s.fetches[i]? = some f) (phase : CacheTasks.Phase) :
    SamePaths s.fetches (goto s i f phase).fetches := by
  intro j g hg
  by_cases hij : i = j
  · subst hij
    cases hf.symm.trans hg
    exact ⟨_, List.getElem?_set_self (List.getElem?_eq_some_iff.1 hf).1, rfl⟩
  · exact ⟨g, (List.getElem?_set_ne hij).trans hg, rfl⟩

/-- what a download is about is kept -/
theorem downloaded_kept {part i : ℕ} {w : World} (hkeep : Kept s.files s'.files)
    (hpaths : SamePaths s.fetches s'.fetches) (h : Downloaded o s part i w) : Downloaded o s' part i w := by
  obtain ⟨p, f, hp, hf, hpath, hbody⟩ := h
  obtain ⟨phase, hp', -⟩ := hkeep part p hp
  obtain ⟨f', hf', hsame⟩ := hpaths i f hf
  exact ⟨_, f', hp', hf', hsame.trans hpath, hbody⟩

theorem whole_kept (hkeep : Kept s.files s'.files) {name : Str} {content : Bytes} (h : Whole d s name content) :
    Whole d s' name content := Lib.Publishing.whole_kept hkeep h

theorem owns_kept {i part : ℕ} {f : Fetch} {p : Publisher Str UInt8} (hkeep : Kept s.files s'.files)
    (hdownloads : s.downloads <+: s'.downloads) (h : Owns s i f part p) :
    ∃ q, Owns s' i f part q ∧ (p.phase = .done → q.phase = .done) := by
  obtain ⟨hp, htarget, w, hw⟩ := h
  obtain ⟨phase, hp', hkept⟩ := hkeep part p hp
  obtain ⟨more, hmore⟩ := hdownloads
  refine ⟨_, ⟨hp', htarget, w, ?_⟩, hkept⟩
  rw [← hmore, List.getElem?_append_left (List.getElem?_eq_some_iff.1 hw).1, hw]

theorem backed_kept {i : ℕ} {f : Fetch} (hkeep : Kept s.files s'.files) (hdownloads : s.downloads <+: s'.downloads)
    (h : Backed d s i f) : Backed d s' i f := by
  unfold Backed at h ⊢
  split at h
  · obtain ⟨p, hp⟩ := h
    obtain ⟨q, hq, -⟩ := owns_kept hkeep hdownloads hp
    exact ⟨q, hq⟩
  · obtain ⟨p, hp⟩ := h
    obtain ⟨q, hq, -⟩ := owns_kept hkeep hdownloads hp
    exact ⟨q, hq⟩
  · obtain ⟨p, hp, hdone⟩ := h
    obtain ⟨q, hq, hkept⟩ := owns_kept hkeep hdownloads hp
    exact ⟨q, hq, hkept hdone⟩
  · obtain ⟨p, hp, hdone⟩ := h
    obtain ⟨q, hq, hkept⟩ := owns_kept hkeep hdownloads hp
    exact ⟨q, hq, hkept hdone⟩
  · exact whole_kept hkeep h
  · exact trivial

/-- a step of the files that starts no download, with what the fetches make of it -/
theorem inv_files {op : Lib.Publishing.Op Str UInt8} {fetches : List Fetch} {evictions : List (Option (List Str))}
    (hs : Inv o d s) (hjoin : ∀ tmp target content, op ≠ .join tmp target content)
    (hsame : SamePaths s.fetches fetches) (hpaths : ∀ f ∈ fetches, ImageName f.path)
    (hbacked : ∀ i f, fetches[i]? = some f → Backed d { s with files := Lib.Publishing.step s.files op } i f) :
    Inv o d ⟨Lib.Publishing.step s.files op, s.downloads, s.tmpCounter, fetches, evictions⟩ := by
  refine ⟨sound_step ?_ hs.sound, fun p hp => ?_, ?_, fun part i w hw => ?_, hpaths, hbacked⟩
  · cases op with
    | join tmp target content => exact absurd rfl (hjoin tmp target content)
    | _ => exact trivial
  · rcases mem_step hp with ⟨q, hq, phase, rfl⟩ | ⟨tmp, target, content, h, _⟩
    · exact hs.named q hq
    · exact absurd h (hjoin tmp target content)
  · rw [length_step hjoin]
    exact hs.recorded
  · exact downloaded_kept (kept_step _ _) hsame (hs.received part i w hw)

/-- the fetches after one of them has gone on -/
theorem backed_goto {i j : ℕ} {f g : Fetch} {phase : CacheTasks.Phase} (hg : (goto s i f phase).fetches[j]? = some g)
    (hbacked : Backed d s' i { f with phase := phase }) (hothers : s.fetches[j]? = some g → Backed d s' j g) :
    Backed d s' j g := by
  rcases set_cases hg with ⟨rfl, rfl⟩ | ⟨-, hg⟩
  · exact hbacked
  · exact hothers hg

theorem paths_goto (hs : Inv o d s) {i : ℕ} {f : Fetch} (hf : s.fetches[i]? = some f) (phase : CacheTasks.Phase) :
    ∀ g ∈ (goto s i f phase).fetches, ImageName g.path := by
  intro g hg
  rcases List.mem_or_eq_of_mem_set hg with hg | rfl
  · exact hs.paths g hg
  · exact hs.paths f (List.mem_of_getElem? hf)

/-- a fetch goes on while the files stay as they are -/
theorem inv_goto {i : ℕ} {f : Fetch} {phase : CacheTasks.Phase} (hs : Inv o d s) (hf : s.fetches[i]? = some f)
    (hbacked : Backed d s i { f with phase := phase }) (evictions : List (Option (List Str))) :
    Inv o d { goto s i f phase with evictions := evictions } where
  sound := hs.sound
  named := hs.named
  recorded := hs.recorded
  received part j w hw :=
    downloaded_kept (s := s) (fun _ p hp => ⟨p.phase, hp, id⟩) (samePaths_goto hf phase) (hs.received part j w hw)
  paths := paths_goto hs hf phase
  backed j g hg := backed_goto hg hbacked (hs.backed j g)

/-- a new temporary name is not in use -/
theorem fresh_tmpName (hs : Inv o d s) {f : Fetch} (hf : f ∈ s.fetches) (body : Bytes) :
    Lib.Publishing.Fresh ImageName s.files
      (.join (tmpName ⟨f.process, s.tmpCounter f.process⟩ f.path) f.path body) := by
  refine ⟨hs.paths f hf, fun h => h (dot_mem_tmpName (hs.paths f hf)), fun p hp _ heq => ?_⟩
  obtain ⟨process, counter, hlt, htmp⟩ := hs.named p hp
  obtain ⟨hsame, _⟩ := tmpName_inj (hs.sound.shape p hp).1 (hs.paths f hf) (htmp.symm.trans heq)
  cases hsame
  exact lt_irrefl _ hlt

theorem inv_joined {i : ℕ} {f : Fetch} {w : World} {body : Bytes} (hs : Inv o d s) (hf : s.fetches[i]? = some f)
    (hbody : receive o w = .ok body) :
    Inv o d { goto s i f (.writing s.files.publishers.length) with
      files := Lib.Publishing.step s.files (.join (tmpName ⟨f.process, s.tmpCounter f.process⟩ f.path) f.path body)
      downloads := s.downloads ++ [(i, w)]
      tmpCounter := Function.update s.tmpCounter f.process (s.tmpCounter f.process + 1) } := by
  have hmem := List.mem_of_getElem? hf
  have hle : ∀ process, s.tmpCounter process ≤
      Function.update s.tmpCounter f.process (s.tmpCounter f.process + 1) process := by
    intro process
    by_cases h : process = f.process
    · rw [h, Function.update_self]
      exact Nat.le_succ _
    · rw [Function.update_of_ne h]
  have hnew : s.tmpCounter f.process <
      Function.update s.tmpCounter f.process (s.tmpCounter f.process + 1) f.process := by
    rw [Function.update_self]
    exact Nat.lt_succ_self _
  -- the new publisher and its record stand at the same place
  have hpublisher : ∀ q : Publisher Str UInt8, (s.files.publishers ++ [q])[s.files.publishers.length]? = some q :=
    fun q => List.getElem?_concat_length
  have hrecord : (s.downloads ++ [(i, w)])[s.files.publishers.length]? = some (i, w) := by
    rw [← hs.recorded]
    exact List.getElem?_concat_length
  refine ⟨sound_step (fresh_tmpName hs hmem body) hs.sound, fun p hp => ?_, ?_, fun part j w' hw' => ?_,
    paths_goto hs hf _, fun j g hg => ?_⟩
  · rcases List.mem_append.1 hp with hp | hp
    · obtain ⟨process, counter, hlt, htmp⟩ := hs.named p hp
      exact ⟨process, counter, hlt.trans_le (hle process), htmp⟩
    · rw [List.mem_singleton.1 hp]
      exact ⟨f.process, s.tmpCounter f.process, hnew, rfl⟩
  · change (s.downloads ++ [(i, w)]).length = (s.files.publishers ++ [_]).length
    rw [List.length_append, List.length_append, hs.recorded]
    rfl
  · rcases started_cases hw' with hw' | ⟨hnewest, rfl⟩
    · exact downloaded_kept (kept_step _ _) (samePaths_goto hf _) (hs.received part j w' hw')
    · cases hnewest
      obtain ⟨f', hf', hpath⟩ := samePaths_goto hf (.writing s.files.publishers.length) i f hf
      exact ⟨_, f', by rw [hs.recorded]; exact hpublisher _, hf', hpath, hbody⟩
  · refine backed_goto hg ?_ fun hg => backed_kept (kept_step _ _) (List.prefix_append _ _) (hs.backed j g hg)
    exact ⟨_, hpublisher _, rfl, w, hrecord⟩

theorem inv_went (h : Went S o s s') (hs : Inv o d s) : Inv o d s' := by
  have hback : ∀ {i f}, s.fetches[i]? = some f → Backed d s i f := fun hf => hs.backed _ _ hf
  cases h with
  | began process url =>
    refine ⟨hs.sound, hs.named, hs.recorded, fun part i w hw => ?_, fun f hf => ?_, fun i f hf => ?_⟩
    · refine downloaded_kept (s := s) (fun _ p hp => ⟨p.phase, hp, id⟩) (fun j g hg => ⟨g, ?_, rfl⟩)
        (hs.received part i w hw)
      exact (List.getElem?_append_left (List.getElem?_eq_some_iff.1 hg).1).trans hg
    · rcases List.mem_append.1 hf with hf | hf
      · exact hs.paths f hf
      · rw [List.mem_singleton.1 hf]
        exact dot_notMem_hexSha256 S url.asStr
    · rcases started_cases hf with hf | ⟨rfl, -⟩
      · exact hs.backed i f hf
      · exact trivial
  | found i f content hf hphase hfile =>
    refine inv_goto hs hf ?_ _
    exact hs.sound.files f.path content (hs.paths f (List.mem_of_getElem? hf)) hfile
  | missing i f hf hphase =>
    refine inv_goto hs hf ?_ _
    exact trivial
  | gaveUp i f hf =>
    refine inv_goto hs hf ?_ _
    exact trivial
  | joined i f w body hf hphase hbody => exact inv_joined hs hf hbody
  | io op hio =>
    refine inv_files hs (fun _ _ _ h => ?_) (samePaths_refl _) hs.paths fun i f hf =>
      backed_kept (kept_step _ _) (List.prefix_refl _) (hs.backed i f hf)
    rw [h] at hio
    cases hio
  | asked i f part hf hphase =>
    have howns := hback hf
    rw [Backed, hphase] at howns
    refine inv_files hs (fun _ _ _ h => by cases h) (samePaths_goto hf _) (paths_goto hs hf _) fun j g hg => ?_
    refine backed_goto hg ?_ fun hg => backed_kept (kept_step _ _) (List.prefix_refl _) (hs.backed j g hg)
    obtain ⟨p, hp⟩ := howns
    have hkeep : Kept s.files (Lib.Publishing.step s.files (.ask part)) := kept_step _ _
    obtain ⟨q, hq, -⟩ :=
      @owns_kept s { s with files := Lib.Publishing.step s.files (.ask part) } _ _ _ _ hkeep (List.prefix_refl _) hp
    exact ⟨q, hq⟩
  | renamed i f part p evictions hf hphase hp hdone =>
    have howns := hback hf
    rw [Backed, hphase] at howns
    obtain ⟨q, hq⟩ := howns
    cases hp.symm.trans hq.1
    refine inv_goto hs hf ?_ evictions
    exact ⟨p, hq, hdone⟩
  | evicting evictions => exact ⟨hs.sound, hs.named, hs.recorded, hs.received, hs.paths, hs.backed⟩
  | unlinked name evictions =>
    exact inv_files hs (fun _ _ _ h => by cases h) (samePaths_refl _) hs.paths fun i f hf =>
      backed_kept (kept_step _ _) (List.prefix_refl _) (hs.backed i f hf)
  | evicted i f part e hf hphase =>
    have howns := hback hf
    rw [Backed, hphase] at howns
    refine inv_goto hs hf ?_ _
    exact howns

theorem inv_run (parse : Str → Option Url) (S : Sha256) (o : ImageCacheOptions) (d : Dir Str Bytes) (ops : List Op) :
    Inv o d (after parse S o d ops) := by
  refine run_inv _ (fun s op hs => ?_) ⟨sound_init d, ?_, rfl, ?_, ?_, ?_⟩ ops
  · rcases step_cases parse S o s op with h | h
    · rwa [h]
    · exact inv_went h hs
  · exact fun _ h => nomatch h
  · exact fun _ _ _ h => nomatch h
  · exact fun _ h => nomatch h
  · exact fun _ _ h => nomatch h

/-! ## The result -/

/-- **What is downloaded** is an image, as it was sent, and within the cap. -/
theorem accepted_image {w : World} {body : Bytes} (h : receive o w = .ok body) :
    (∃ resp, w.response = .ready resp ∧ Response.Good resp) ∧ (∀ a ∈ w.stream, a.isReady = true) ∧
      body = delivered w.stream ∧ body.length ≤ o.maxBytes := by
  -- `receive` does not look at the lookup
  have hlookup : receive o { w with lookup := .ready () } = .ok body := h
  obtain ⟨⟨hanswered, hcap⟩, hbody⟩ := (receive_eq_ok rfl).1 hlookup
  exact ⟨hanswered.response, hanswered.stream, hbody, by rw [hbody]; exact hcap⟩

/-- a publisher has the download of one fetch, of its image, all that a response of the run sent and within the cap -/
theorem publisher_source (parse : Str → Option Url) (S : Sha256) (o : ImageCacheOptions) (d : Dir Str Bytes)
    (ops : List Op) {part : ℕ} {p : Publisher Str UInt8}
    (hp : (after parse S o d ops).files.publishers[part]? = some p) :
    ∃ i w f resp, (after parse S o d ops).downloads[part]? = some (i, w) ∧ .received i w ∈ ops ∧
      (after parse S o d ops).fetches[i]? = some f ∧ f.path = p.target ∧
      w.response = .ready resp ∧ Response.Good resp ∧ (∀ a ∈ w.stream, a.isReady = true) ∧
      p.content = delivered w.stream ∧ p.content.length ≤ o.maxBytes := by
  have hinv := inv_run parse S o d ops
  have hlt : part < (after parse S o d ops).downloads.length := by
    rw [hinv.recorded]
    exact (List.getElem?_eq_some_iff.1 hp).1
  obtain ⟨⟨i, w⟩, hw⟩ : ∃ x, (after parse S o d ops).downloads[part]? = some x := ⟨_, List.getElem?_eq_getElem hlt⟩
  obtain ⟨q, f, hq, hf, hpath, hbody⟩ := hinv.received part i w hw
  cases hp.symm.trans hq
  obtain ⟨⟨resp, hresp, hgood⟩, hstream, hcontent, hcap⟩ := accepted_image hbody
  exact ⟨
    i, w, f, resp, hw, downloads_run parse S o d ops i w (List.mem_of_getElem? hw), hf, hpath, hresp, hgood, hstream,
    hcontent, hcap⟩

/-- **Races.** After any operations, in any order: a file of an image name is as it was at the start or is a download of
that name, all of it; the fetches are those that the operations begin, each for the image that its URL names; each
download is one fetch's, of its image, and holds the whole body, within the cap, of an image response that the run has
given to that fetch; a fetch that has returned a path found such a file there, or put its own download there; and a
temporary file that is still to be renamed belongs to one download and holds a beginning of it. -/
theorem cache_races (parse : Str → Option Url) (S : Sha256) (o : ImageCacheOptions) (d : Dir Str Bytes)
    (ops : List Op) :
    (∀ name content, ImageName name → (after parse S o d ops).files.dir name = some content →
      Whole d (after parse S o d ops) name content) ∧
    (after parse S o d ops).fetches.map (fun f => (f.process, f.path)) = ops.filterMap (begun parse S o) ∧
    (∀ (part : ℕ) (p : Publisher Str UInt8), (after parse S o d ops).files.publishers[part]? = some p →
      ∃ i w f resp, (after parse S o d ops).downloads[part]? = some (i, w) ∧ .received i w ∈ ops ∧
        (after parse S o d ops).fetches[i]? = some f ∧ f.path = p.target ∧
        w.response = .ready resp ∧ Response.Good resp ∧ (∀ a ∈ w.stream, a.isReady = true) ∧
        p.content = delivered w.stream ∧ p.content.length ≤ o.maxBytes) ∧
    (∀ (i : ℕ) (f : Fetch), (after parse S o d ops).fetches[i]? = some f → ∀ path, f.result = some (some path) →
      path = f.path ∧ ∃ content, Whole d (after parse S o d ops) path content ∧
        (f.phase = .returned (.found content) ∨
          ∃ part p w, f.phase = .returned (.published part) ∧ (after parse S o d ops).files.publishers[part]? = some p ∧
            (after parse S o d ops).downloads[part]? = some (i, w) ∧ p.target = path ∧ p.phase = .done ∧
            p.content = content)) ∧
    (∀ (i j : ℕ) (p q : Publisher Str UInt8), (after parse S o d ops).files.publishers[i]? = some p →
      (after parse S o d ops).files.publishers[j]? = some q → p.phase.live = true → q.phase.live = true →
      p.tmp = q.tmp → i = j) ∧
    (∀ p ∈ (after parse S o d ops).files.publishers, ∀ content,
      (after parse S o d ops).files.dir p.tmp = some content → p.Holds content) := by
  have hinv := inv_run parse S o d ops
  refine ⟨hinv.sound.files, fetches_run parse S o d ops, fun part p hp => publisher_source parse S o d ops hp,
    fun i f hf path hresult => ?_, hinv.sound.apart, hinv.sound.holds⟩
  have hback := hinv.backed i f hf
  unfold Fetch.result at hresult
  split at hresult
  · rename_i content hphase
    cases hresult
    rw [Backed, hphase] at hback
    exact ⟨rfl, content, hback, Or.inl hphase⟩
  · rename_i part hphase
    cases hresult
    rw [Backed, hphase] at hback
    obtain ⟨p, ⟨hp, htarget, w, hw⟩, hdone⟩ := hback
    exact ⟨rfl, p.content, Or.inr ⟨p, List.mem_of_getElem? hp, htarget, hdone, rfl⟩,
      Or.inr ⟨part, p, w, hphase, hp, hw, htarget, hdone, rfl⟩⟩
  · cases hresult
  · cases hresult

end NotifyAgent.CacheRaces
