/-
Eviction from the image cache. After a download the files with the oldest modification times are removed, down to the
cap; the image that was just downloaded has no special place among them.

- `evictBeyondCap_apply`: which files are left;
- `eviction_iff`: the directory is within the cap and no removed file is newer than a kept one, whatever the times; but
  the image whose path is returned is kept exactly if fewer files than the cap are sorted after it;
- `future_file_evicts_image`: with a cap of one, a file from the future, after the clock was set back.
-/
import Mathlib.Tactic
import NotifyAgent.Lib.Retention
import NotifyAgent.Scenarios.FailedFetch

namespace NotifyAgent.CacheEviction

open NotifyAgent.Text NotifyAgent.ImageCache
open NotifyAgent.ActionUrl (Url)
open NotifyAgent.HeadIdentity (Sha256)
open NotifyAgent.FailedFetch (Succeeds sampleSha sampleValue sampleUrl sampleParse roomyDisk)
open NotifyAgent.Lib.Directory
open NotifyAgent.Lib.Retention

/-! ## Specification -/

/-- `read_dir` gives each file of the directory once, with its modification time, and they can all be removed -/
structure Listed (w : World) (d : Dir Str Bytes) (files : List (ℕ × Str)) : Prop where
  listing : w.listing = some files
  nodup : (files.map Prod.snd).Nodup
  complete : ∀ name, name ∈ files.map Prod.snd ↔ (d name).isSome = true
  removable : ∀ file ∈ files, w.stuck file.2 = false

/-- the directory is within the cap, and what was removed from it is not newer than what was kept -/
structure Trimmed (maxFiles : ℕ) (files : List (ℕ × Str)) (before after : Dir Str Bytes) : Prop where
  bounded : {name | (after name).isSome = true}.encard ≤ maxFiles
  subset : ∀ name, after name = none ∨ after name = before name
  oldest : ∀ removed ∈ files, ∀ kept ∈ files, after removed.2 = none → (after kept.2).isSome = true →
    removed.1 ≤ kept.1

/-- and the path that was returned is the path of a file -/
structure Evicts (maxFiles : ℕ) (files : List (ℕ × Str)) (f : Fetched) : Prop where
  trimmed : Trimmed maxFiles files f.beforeEviction f.dir
  kept : ∀ path, f.result = some path → (f.dir path).isSome = true

/-- among the files, fewer than the cap are newer than `path` or as old and listed after it -/
def FewNewer (maxFiles : ℕ) (files : List (ℕ × Str)) (path : Str) : Prop :=
  ∃ mtime earlier later, files = earlier ++ (mtime, path) :: later ∧
    earlier.countP (fun file => decide (mtime < file.1)) + later.countP (fun file => decide (mtime ≤ file.1)) < maxFiles

/-! ## What eviction leaves -/

theorem foldl_remove {w : World} (d : Dir Str Bytes) {gone : List (ℕ × Str)}
    (h : ∀ file ∈ gone, w.stuck file.2 = false) (name : Str) :
    gone.foldl (fun d file => if w.stuck file.2 then d else remove d file.2) d name =
      if name ∈ gone.map Prod.snd then none else d name := by
  induction gone generalizing d with
  | nil => rfl
  | cons file gone ih =>
    rw [List.foldl_cons, h file List.mem_cons_self, ih _ fun file' hf => h file' (List.mem_cons_of_mem _ hf)]
    have hmem : name ∈ (file :: gone).map Prod.snd ↔ name = file.2 ∨ name ∈ gone.map Prod.snd := by
      rw [List.map_cons, List.mem_cons]
    rw [if_congr hmem rfl rfl, if_neg Bool.false_ne_true]
    by_cases hname : name = file.2
    · rw [if_pos (Or.inl hname), hname, remove_same, ite_self]
    · rw [if_congr (or_iff_right hname) rfl rfl, remove_other hname]

theorem evictBeyondCap_eq {w : World} {d : Dir Str Bytes} {files : List (ℕ × Str)} (hlisting : w.listing = some files)
    (maxFiles : ℕ) :
    evictBeyondCap w d maxFiles =
      (evicted Prod.fst maxFiles files).foldl (fun d file => if w.stuck file.2 then d else remove d file.2) d := by
  unfold evictBeyondCap evicted
  rw [hlisting]
  simp only
  split_ifs with hfits
  · rw [Nat.sub_eq_zero_of_le hfits, List.take_zero, List.foldl_nil]
  · rfl

variable {w : World} {d : Dir Str Bytes} {files : List (ℕ × Str)}

/-- the evicted files are gone, the others are as they were -/
theorem evictBeyondCap_apply (h : Listed w d files) (maxFiles : ℕ) (name : Str) :
    evictBeyondCap w d maxFiles name =
      if name ∈ (evicted Prod.fst maxFiles files).map Prod.snd then none else d name := by
  rw [evictBeyondCap_eq h.listing]
  apply foldl_remove
  intro file hfile
  exact h.removable file ((mem_evicted_or_retained Prod.fst maxFiles).2 (Or.inl hfile))

theorem snd_inj (h : Listed w d files) {a b : ℕ × Str} (ha : a ∈ files) (hb : b ∈ files) (heq : a.2 = b.2) : a = b :=
  List.inj_on_of_nodup_map h.nodup ha hb heq

theorem evicted_disjoint_retained (h : Listed w d files) (maxFiles : ℕ) {a b : ℕ × Str}
    (ha : a ∈ evicted Prod.fst maxFiles files) (hb : b ∈ retained Prod.fst maxFiles files) : a ≠ b := by
  have hnodup : (evicted Prod.fst maxFiles files ++ retained Prod.fst maxFiles files).Nodup := by
    rw [evicted_append_retained]
    exact (byKey_perm Prod.fst files).nodup_iff.2 h.nodup.of_map
  exact (List.nodup_append.1 hnodup).2.2 a ha b hb

/-- a listed file is there after the eviction exactly if it was retained -/
theorem isSome_evictBeyondCap (h : Listed w d files) (maxFiles : ℕ) {file : ℕ × Str} (hfile : file ∈ files) :
    (evictBeyondCap w d maxFiles file.2).isSome = true ↔ file ∈ retained Prod.fst maxFiles files := by
  have hpresent : (d file.2).isSome = true := (h.complete file.2).1 (List.mem_map_of_mem hfile)
  rw [evictBeyondCap_apply h]
  have hmem : ∀ {a}, a ∈ evicted Prod.fst maxFiles files → a ∈ files := fun ha =>
    (mem_evicted_or_retained Prod.fst maxFiles).2 (Or.inl ha)
  split_ifs with hgone
  · obtain ⟨a, ha, heq⟩ := List.mem_map.1 hgone
    have hsame : a = file := snd_inj h (hmem ha) hfile heq
    subst hsame
    refine ⟨fun hnone => absurd hnone (by decide), fun hkept => ?_⟩
    exact absurd rfl (evicted_disjoint_retained h maxFiles ha hkept)
  · refine ⟨fun _ => ?_, fun _ => hpresent⟩
    rcases (mem_evicted_or_retained Prod.fst maxFiles).1 hfile with ha | hkept
    · exact absurd (List.mem_map_of_mem ha) hgone
    · exact hkept

theorem trimmed (h : Listed w d files) (maxFiles : ℕ) : Trimmed maxFiles files d (evictBeyondCap w d maxFiles) where
  bounded := by
    have hsubset : {name | (evictBeyondCap w d maxFiles name).isSome = true} ⊆
        ((retained Prod.fst maxFiles files).map Prod.snd).toFinset := by
      intro name hname
      have hlisted : name ∈ files.map Prod.snd := by
        rw [h.complete]
        have hkept : (evictBeyondCap w d maxFiles name).isSome = true := hname
        rw [evictBeyondCap_apply h] at hkept
        split_ifs at hkept
        · cases hkept
        · exact hkept
      obtain ⟨file, hfile, rfl⟩ := List.mem_map.1 hlisted
      rw [List.coe_toFinset]
      exact List.mem_map_of_mem ((isSome_evictBeyondCap h maxFiles hfile).1 hname)
    calc {name | (evictBeyondCap w d maxFiles name).isSome = true}.encard
        ≤ (((retained Prod.fst maxFiles files).map Prod.snd).toFinset : Set Str).encard := Set.encard_le_encard hsubset
      _ = ((retained Prod.fst maxFiles files).map Prod.snd).toFinset.card := Set.encard_coe_eq_coe_finsetCard _
      _ ≤ maxFiles := by
        have hcard := List.toFinset_card_le ((retained Prod.fst maxFiles files).map Prod.snd)
        have hlength := length_retained Prod.fst maxFiles files
        rw [List.length_map] at hcard
        exact_mod_cast hcard.trans hlength
  subset name := by
    rw [evictBeyondCap_apply h]
    split_ifs
    · exact Or.inl rfl
    · exact Or.inr rfl
  oldest removed hremoved kept hkept hgone hthere := by
    apply evicted_le_retained Prod.fst
    · rcases (mem_evicted_or_retained Prod.fst maxFiles).1 hremoved with ha | hretained
      · exact ha
      · rw [← isSome_evictBeyondCap h maxFiles hremoved, hgone] at hretained
        cases hretained
    · exact (isSome_evictBeyondCap h maxFiles hkept).1 hthere

/-- **A file is kept** exactly if few files are sorted after it. -/
theorem kept_iff (h : Listed w d files) (maxFiles : ℕ) {path : Str} (hpath : (d path).isSome = true) :
    (evictBeyondCap w d maxFiles path).isSome = true ↔ FewNewer maxFiles files path := by
  obtain ⟨file, hfile, rfl⟩ := List.mem_map.1 ((h.complete path).2 hpath)
  rw [isSome_evictBeyondCap h maxFiles hfile]
  constructor
  · intro hkept
    obtain ⟨earlier, later, hsplit⟩ := List.append_of_mem hfile
    refine ⟨file.1, earlier, later, hsplit, ?_⟩
    have hnodup := h.nodup.of_map
    rw [hsplit] at hkept hnodup
    exact (mem_retained_iff hnodup).1 hkept
  · intro hfew
    obtain ⟨mtime, earlier, later, hsplit, hcount⟩ := hfew
    have hlisted : (mtime, file.2) ∈ files := by
      rw [hsplit]
      simp
    have hsame : file = (mtime, file.2) := snd_inj h hfile hlisted rfl
    have hnodup := h.nodup.of_map
    rw [hsplit] at hnodup ⊢
    rw [hsame]
    exact (mem_retained_iff hnodup).2 hcount

/-! ## The whole fetch -/

section
variable {parse : Str → Option Url} {S : Sha256} {o : ImageCacheOptions} {P : Process} {value : Str} {url : Url}

/-- a fetch that downloads the image stores it and evicts -/
theorem fetch_eq (hurl : parseImageUrl parse value o.requireHttps = some url) (hmiss : d (hexSha256 S url.asStr) = none)
    (hsucceeds : Succeeds o w) :
    fetch parse S o P w d value =
      let path := hexSha256 S url.asStr
      let d' := put (remove d (tmpName P path)) path (delivered w.stream)
      ⟨if w.evictionCancelled then none else some path, d', evictBeyondCap w d' o.maxFiles⟩ := by
  obtain ⟨hreach, hwrite, hrename⟩ := hsucceeds
  have hreceive := (FailedFetch.receive_eq_ok hreach.1.lookup).2 ⟨hreach, rfl⟩
  simp only [fetch, hurl, fetchTimed, hreach.1.lookup, hmiss, download, hreceive, store, hwrite, hrename, rename_put,
    Option.isSome_none, Bool.false_eq_true, if_false]

/-- **Eviction.** After a fetch that downloads an image, over every listing of the directory: the directory is trimmed
to the cap, oldest files first; and the path that is returned is the path of a kept file exactly if few files are newer.
-/
theorem eviction_iff (hurl : parseImageUrl parse value o.requireHttps = some url)
    (hmiss : d (hexSha256 S url.asStr) = none) (hsucceeds : Succeeds o w)
    (hlisted : Listed w (fetch parse S o P w d value).beforeEviction files) :
    Trimmed o.maxFiles files (fetch parse S o P w d value).beforeEviction (fetch parse S o P w d value).dir ∧
    (Evicts o.maxFiles files (fetch parse S o P w d value) ↔
      (w.evictionCancelled = false → FewNewer o.maxFiles files (hexSha256 S url.asStr))) := by
  rw [fetch_eq hurl hmiss hsucceeds] at hlisted ⊢
  have htrimmed := trimmed hlisted o.maxFiles
  have hkept := @kept_iff _ _ _ hlisted o.maxFiles (hexSha256 S url.asStr) (by simp only [put_same, Option.isSome_some])
  refine ⟨htrimmed, ?_⟩
  constructor
  · intro hevicts hreturned
    rw [← hkept]
    apply hevicts.kept
    simp [hreturned]
  · intro hfew
    refine ⟨htrimmed, fun path hpath => ?_⟩
    cases hcancelled : w.evictionCancelled with
    | true => simp [hcancelled] at hpath
    | false =>
      have hsame : hexSha256 S url.asStr = path := by simpa [hcancelled] using hpath
      rw [← hsame]
      exact hkept.2 (hfew hcancelled)

end

/-! ## A clock that was set back -/

def sampleName : Str := hexSha256 sampleSha sampleUrl.asStr

def oldName : Str := "old".toList

/-- room for one file -/
def oneFile : ImageCacheOptions := ⟨true, 16, 1⟩

/-- one file is cached -/
def cached : Dir Str Bytes := put (fun _ => none) oldName [9]

/-- the modification times of the cached file and of the new image -/
def listed (old new : ℕ) : List (ℕ × Str) := [(old, oldName), (new, sampleName)]

def cacheWorld (old new : ℕ) : World := { roomyDisk with listing := some (listed old new) }

/-- the directory that is listed -/
def downloaded : Dir Str Bytes := put (remove cached (tmpName ⟨7, 0⟩ sampleName)) sampleName [1, 2, 3]

theorem sampleName_ne_oldName : sampleName ≠ oldName := by decide +kernel

theorem listed_downloaded (old new : ℕ) : Listed (cacheWorld old new) downloaded (listed old new) where
  listing := rfl
  nodup := by simp [listed, sampleName_ne_oldName.symm]
  complete name := by
    have htmp : oldName ≠ tmpName ⟨7, 0⟩ sampleName := by decide +kernel
    have hmem : name ∈ (listed old new).map Prod.snd ↔ name = oldName ∨ name = sampleName := by simp [listed]
    rw [hmem, downloaded]
    by_cases hnew : name = sampleName
    · rw [hnew, put_same]
      simp
    · rw [put_other hnew, or_iff_left hnew]
      by_cases hold : name = oldName
      · rw [hold, remove_other htmp, cached, put_same]
        simp
      · have hnone : remove cached (tmpName ⟨7, 0⟩ sampleName) name = none := by
          by_cases hpart : name = tmpName ⟨7, 0⟩ sampleName
          · rw [hpart, remove_same]
          · rw [remove_other hpart, cached, put_other hold]
        rw [hnone]
        simp [hold]
  removable _ _ := rfl

theorem succeeds_cacheWorld (old new : ℕ) : Succeeds oneFile (cacheWorld old new) := by
  have hsize : (delivered roomyDisk.stream).length ≤ oneFile.maxBytes := by decide
  refine ⟨⟨⟨rfl, ⟨_, rfl, by decide +kernel, by decide +kernel⟩, ?_, rfl⟩, hsize⟩, rfl, rfl⟩
  intro a ha
  have hstream : a ∈ [Await.ready [1, 2], Await.ready [3]] := ha
  simp only [List.mem_cons, List.not_mem_nil, or_false] at hstream
  rcases hstream with rfl | rfl <;> rfl

theorem fetch_cacheWorld (old new : ℕ) :
    fetch sampleParse sampleSha oneFile ⟨7, 0⟩ (cacheWorld old new) cached sampleValue =
      ⟨some sampleName, downloaded, evictBeyondCap (cacheWorld old new) downloaded 1⟩ := by
  have hmiss : cached (hexSha256 sampleSha sampleUrl.asStr) = none := put_other sampleName_ne_oldName
  have hurl : parseImageUrl sampleParse sampleValue oneFile.requireHttps = some sampleUrl := by decide
  rw [fetch_eq hurl hmiss (succeeds_cacheWorld old new)]
  rfl

/-- with a clock that runs on, the older file goes -/
theorem evicts_older_file :
    Evicts 1 (listed 100 200) (fetch sampleParse sampleSha oneFile ⟨7, 0⟩ (cacheWorld 100 200) cached sampleValue) := by
  have hfew : FewNewer 1 (listed 100 200) sampleName := ⟨200, [(100, oldName)], [], rfl, by decide⟩
  have hlisted := listed_downloaded 100 200
  have hfetch := fetch_cacheWorld 100 200
  refine (eviction_iff (by decide) (put_other sampleName_ne_oldName) (succeeds_cacheWorld 100 200) ?_).2.2 fun _ => hfew
  rw [hfetch]
  exact hlisted

/-- **A file from the future.** The cached file is newer than the image that was just downloaded: the image is removed,
and its path is returned. -/
theorem future_file_evicts_image :
    Succeeds oneFile (cacheWorld 200 100) ∧
    Listed (cacheWorld 200 100)
      (fetch sampleParse sampleSha oneFile ⟨7, 0⟩ (cacheWorld 200 100) cached sampleValue).beforeEviction
      (listed 200 100) ∧
    (fetch sampleParse sampleSha oneFile ⟨7, 0⟩ (cacheWorld 200 100) cached sampleValue).result = some sampleName ∧
    (fetch sampleParse sampleSha oneFile ⟨7, 0⟩ (cacheWorld 200 100) cached sampleValue).dir sampleName = none ∧
    ¬ Evicts 1 (listed 200 100)
      (fetch sampleParse sampleSha oneFile ⟨7, 0⟩ (cacheWorld 200 100) cached sampleValue) := by
  have hlisted := listed_downloaded 200 100
  rw [fetch_cacheWorld]
  have hnone : evictBeyondCap (cacheWorld 200 100) downloaded 1 sampleName = none := by
    have hfile : (100, sampleName) ∈ listed 200 100 := by simp [listed]
    have hkept := isSome_evictBeyondCap hlisted 1 hfile
    have hnodup : ([(200, oldName)] ++ (100, sampleName) :: []).Nodup := hlisted.nodup.of_map
    rw [← Option.not_isSome_iff_eq_none, hkept]
    intro hmem
    exact absurd ((mem_retained_iff hnodup).1 hmem) (by decide)
  refine ⟨succeeds_cacheWorld 200 100, hlisted, rfl, hnone, fun hevicts => ?_⟩
  have hthere : (evictBeyondCap (cacheWorld 200 100) downloaded 1 sampleName).isSome = true :=
    hevicts.kept sampleName rfl
  rw [hnone] at hthere
  cases hthere

end NotifyAgent.CacheEviction
