/-
The image cache of the Rust agent with any number of `fetch`es at a time, in one process or several that share the
directory, interleaved at their await points. File operations run on threads of their own: a fetch that is cancelled by
its timeout leaves the write or the rename that it awaits, and an eviction, to go on. Other programs may remove files.

The answer to the lookup, the download up to the write, the listings and which files are stuck are given by the
operations; `receive` says what comes of a download (`Core.ImageCache`), and the files are those of `Lib.Publishing`.
Ghost state: `downloads` records, for each publisher, whose download it is and what the network did.

- `tmpName_inj`: a temporary name belongs to one process, one counter value and one image;
- `Went`, `step_cases`: everything a step can do;
- `fetches_run`, `downloads_run`: the fetches and the downloads are those of the run's operations.

Premises: a process has its id for itself, also after it has ended; and `TMP_COUNTER` does not come round, 64 bits wide
as it is. It is a natural number here.
-/
import Mathlib.Tactic
import NotifyAgent.Core.ImageCache
import NotifyAgent.Lib.Machine
import NotifyAgent.Lib.Publishing
import NotifyAgent.Lib.SharedLog

namespace NotifyAgent.CacheTasks

open NotifyAgent.Text NotifyAgent.ImageCache
open NotifyAgent.ActionUrl (Url)
open NotifyAgent.HeadIdentity (Sha256)
open NotifyAgent.Lib.Directory (Dir)
open NotifyAgent.Lib.Machine (run run_snoc)
open NotifyAgent.Lib.SharedLog (map_set_same)

/-! ## Data -/

/-- what a fetch has come to -/
inductive Outcome where
  /-- the file was there, with this content -/
  | found (content : Bytes)
  /-- its own download was renamed to the image -/
  | published (part : ℕ)
  | none
deriving DecidableEq, Repr

inductive Phase where
  /-- in `try_exists` -/
  | lookup
  /-- in `download`, before the write -/
  | downloading
  | writing (part : ℕ)
  | renaming (part : ℕ)
  | evicting (part eviction : ℕ)
  | returned (outcome : Outcome)
deriving DecidableEq, Repr

structure Fetch where
  process : ℕ
  path : Str
  phase : Phase
deriving DecidableEq, Repr

structure St where
  files : Lib.Publishing.St Str UInt8
  /-- ghost: the fetch that each publisher is of, and what its download met with -/
  downloads : List (ℕ × World)
  /-- `TMP_COUNTER` of each process -/
  tmpCounter : ℕ → ℕ
  fetches : List Fetch
  /-- the files that an eviction still removes, once it has listed the directory -/
  evictions : List (Option (List Str))

inductive Op where
  | fetch (process : ℕ) (url : Str)
  /-- `try_exists` returns; `false`: with an error -/
  | looked (f : ℕ) (ok : Bool)
  | received (f : ℕ) (w : World)
  /-- a thread goes on with a write or a rename -/
  | io (o : Lib.Publishing.Op Str UInt8)
  | wrote (f : ℕ)
  | renamed (f : ℕ)
  | listed (e : ℕ) (files : Option (List (ℕ × Str)))
  | unlink (e : ℕ) (stuck : Bool)
  | evicted (f : ℕ)
  | elapsed (f : ℕ)
  /-- somebody removes a file -/
  | remove (name : Str)

/-! ## The machine -/

/-- what `fetch` returns -/
def Fetch.result (f : Fetch) : Option (Option Str) :=
  match f.phase with
  | .returned (.found _) | .returned (.published _) => some (some f.path)
  | .returned .none => some Option.none
  | _ => Option.none

/-- the files that `evict_beyond_cap` removes, in this order -/
def evictedNames (maxFiles : ℕ) : Option (List (ℕ × Str)) → List Str
  | none => []
  | some files =>
    if files.length ≤ maxFiles then []
    else ((files.mergeSort fun a b => a.1 ≤ b.1).take (files.length - maxFiles)).map Prod.snd

/-- what a thread does by itself -/
def isIo : Lib.Publishing.Op Str UInt8 → Bool
  | .create _ | .write _ _ | .written _ | .rename _ | .fail _ => true
  | _ => false

/-- a fetch goes on -/
def goto (s : St) (i : ℕ) (f : Fetch) (phase : Phase) : St :=
  { s with fetches := s.fetches.set i { f with phase := phase } }

section
variable (parse : Str → Option Url) (S : Sha256) (o : ImageCacheOptions) (s : St)

/-- one operation; one that is not enabled leaves the state unchanged -/
def step : Op → St
  | .fetch process url =>
    match parseImageUrl parse url o.requireHttps with
    | none => s
    | some url => { s with fetches := s.fetches ++ [⟨process, hexSha256 S url.asStr, .lookup⟩] }
  | .looked i ok =>
    match s.fetches[i]? with
    | some f =>
      if f.phase = .lookup then
        if ok then
          match s.files.dir f.path with
          | some content => goto s i f (.returned (.found content))
          | none => goto s i f .downloading
        else goto s i f (.returned .none)
      else s
    | none => s
  | .received i w =>
    match s.fetches[i]? with
    | some f =>
      if f.phase = .downloading then
        match receive o w with
        | .error _ => goto s i f (.returned .none)
        | .ok body =>
          { goto s i f (.writing s.files.publishers.length) with
            files := Lib.Publishing.step s.files
              (.join (tmpName ⟨f.process, s.tmpCounter f.process⟩ f.path) f.path body)
            downloads := s.downloads ++ [(i, w)]
            tmpCounter := Function.update s.tmpCounter f.process (s.tmpCounter f.process + 1) }
      else s
    | none => s
  | .io op => if isIo op then { s with files := Lib.Publishing.step s.files op } else s
  | .wrote i =>
    match s.fetches[i]? with
    | some f =>
      match f.phase with
      | .writing part =>
        match (s.files.publishers[part]?).map Lib.Publishing.Publisher.phase with
        | some .written => { goto s i f (.renaming part) with files := Lib.Publishing.step s.files (.ask part) }
        | some .stopped => goto s i f (.returned .none)
        | _ => s
      | _ => s
    | none => s
  | .renamed i =>
    match s.fetches[i]? with
    | some f =>
      match f.phase with
      | .renaming part =>
        match (s.files.publishers[part]?).map Lib.Publishing.Publisher.phase with
        | some .done =>
          { goto s i f (.evicting part s.evictions.length) with evictions := s.evictions ++ [none] }
        | some .stopped => goto s i f (.returned .none)
        | _ => s
      | _ => s
    | none => s
  | .listed e files =>
    match s.evictions[e]? with
    | some none => { s with evictions := s.evictions.set e (some (evictedNames o.maxFiles files)) }
    | _ => s
  | .unlink e stuck =>
    match s.evictions[e]? with
    | some (some (name :: rest)) =>
      { s with
        files := if stuck then s.files else Lib.Publishing.step s.files (.remove name)
        evictions := s.evictions.set e (some rest) }
    | _ => s
  | .evicted i =>
    match s.fetches[i]? with
    | some f =>
      match f.phase with
      | .evicting part e => if s.evictions[e]? = some (some []) then goto s i f (.returned (.published part)) else s
      | _ => s
    | none => s
  | .elapsed i =>
    match s.fetches[i]? with
    | some f => if f.result = none then goto s i f (.returned .none) else s
    | none => s
  | .remove name => { s with files := Lib.Publishing.step s.files (.remove name) }

/-- no fetch has begun -/
def init (d : Dir Str Bytes) : St := ⟨⟨d, []⟩, [], fun _ => 0, [], []⟩

end

/-! ## What a step does -/

section
variable (parse : Str → Option Url) (S : Sha256) (o : ImageCacheOptions) (s : St)

/-- the enabled steps -/
inductive Went : St → Prop where
  | began (process) (url : Url) :
    Went { s with fetches := s.fetches ++ [⟨process, hexSha256 S url.asStr, .lookup⟩] }
  | found (i f content) (hf : s.fetches[i]? = some f) (hphase : f.phase = .lookup)
    (hfile : s.files.dir f.path = some content) : Went (goto s i f (.returned (.found content)))
  | missing (i f) (hf : s.fetches[i]? = some f) (hphase : f.phase = .lookup) : Went (goto s i f .downloading)
  /-- an error or the timeout -/
  | gaveUp (i f) (hf : s.fetches[i]? = some f) : Went (goto s i f (.returned .none))
  | joined (i f w body) (hf : s.fetches[i]? = some f) (hphase : f.phase = .downloading)
    (hbody : receive o w = .ok body) :
    Went { goto s i f (.writing s.files.publishers.length) with
      files := Lib.Publishing.step s.files
        (.join (tmpName ⟨f.process, s.tmpCounter f.process⟩ f.path) f.path body)
      downloads := s.downloads ++ [(i, w)]
      tmpCounter := Function.update s.tmpCounter f.process (s.tmpCounter f.process + 1) }
  | io (op) (hio : isIo op = true) : Went { s with files := Lib.Publishing.step s.files op }
  | asked (i f part) (hf : s.fetches[i]? = some f) (hphase : f.phase = .writing part) :
    Went { goto s i f (.renaming part) with files := Lib.Publishing.step s.files (.ask part) }
  | renamed (i f part p evictions) (hf : s.fetches[i]? = some f) (hphase : f.phase = .renaming part)
    (hp : s.files.publishers[part]? = some p) (hdone : p.phase = .done) :
    Went { goto s i f (.evicting part s.evictions.length) with evictions := evictions }
  /-- an eviction goes on -/
  | evicting (evictions) : Went { s with evictions := evictions }
  | unlinked (name evictions) :
    Went { s with files := Lib.Publishing.step s.files (.remove name), evictions := evictions }
  | evicted (i f part e) (hf : s.fetches[i]? = some f) (hphase : f.phase = .evicting part e) :
    Went (goto s i f (.returned (.published part)))

/-- **What a step does.** Nothing, or one of the transitions. -/
theorem step_cases (op : Op) : step parse S o s op = s ∨ Went S o s (step parse S o s op) := by
  cases op with
  | fetch process url =>
    simp only [step]
    split
    · exact Or.inl rfl
    · rename_i url' _
      exact Or.inr (.began process url')
  | looked i ok =>
    simp only [step]
    cases hf : s.fetches[i]? with
    | none => exact Or.inl rfl
    | some f =>
      simp only
      split_ifs with hphase hok
      · split
        · rename_i content hfile
          exact Or.inr (.found i f content hf hphase hfile)
        · exact Or.inr (.missing i f hf hphase)
      · exact Or.inr (.gaveUp i f hf)
      · exact Or.inl rfl
  | received i w =>
    simp only [step]
    cases hf : s.fetches[i]? with
    | none => exact Or.inl rfl
    | some f =>
      simp only
      split_ifs with hphase
      · split
        · exact Or.inr (.gaveUp i f hf)
        · rename_i body hbody
          exact Or.inr (.joined i f w body hf hphase hbody)
      · exact Or.inl rfl
  | io op =>
    simp only [step]
    split_ifs with hio
    · exact Or.inr (.io op hio)
    · exact Or.inl rfl
  | wrote i =>
    simp only [step]
    cases hf : s.fetches[i]? with
    | none => exact Or.inl rfl
    | some f =>
      simp only
      split
      · rename_i part hphase
        split
        · exact Or.inr (.asked i f part hf hphase)
        · exact Or.inr (.gaveUp i f hf)
        · exact Or.inl rfl
      · exact Or.inl rfl
  | renamed i =>
    simp only [step]
    cases hf : s.fetches[i]? with
    | none => exact Or.inl rfl
    | some f =>
      simp only
      split
      · rename_i part hphase
        split
        · rename_i hdone
          obtain ⟨p, hp, hpp⟩ := Option.map_eq_some_iff.1 hdone
          exact Or.inr (.renamed i f part p _ hf hphase hp hpp)
        · exact Or.inr (.gaveUp i f hf)
        · exact Or.inl rfl
      · exact Or.inl rfl
  | listed e files =>
    simp only [step]
    split
    · exact Or.inr (.evicting _)
    · exact Or.inl rfl
  | unlink e stuck =>
    simp only [step]
    split
    · rename_i name rest _
      cases stuck with
      | true => exact Or.inr (.evicting _)
      | false => exact Or.inr (.unlinked name _)
    · exact Or.inl rfl
  | evicted i =>
    simp only [step]
    cases hf : s.fetches[i]? with
    | none => exact Or.inl rfl
    | some f =>
      simp only
      split
      · rename_i part e hphase
        split_ifs
        · exact Or.inr (.evicted i f part e hf hphase)
        · exact Or.inl rfl
      · exact Or.inl rfl
  | elapsed i =>
    simp only [step]
    cases hf : s.fetches[i]? with
    | none => exact Or.inl rfl
    | some f =>
      simp only
      split_ifs
      · exact Or.inr (.gaveUp i f hf)
      · exact Or.inl rfl
  | remove name => exact Or.inr (.unlinked name s.evictions)

/-- the fetch that an operation begins: its process, and the name that its image has by the URL -/
def begun : Op → Option (ℕ × Str)
  | .fetch process url =>
    (parseImageUrl parse url o.requireHttps).map fun url => (process, hexSha256 S url.asStr)
  | _ => none

/-- a fetch that goes on keeps its process and its image -/
theorem fetches_goto {i : ℕ} {f : Fetch} {phase : Phase} (hf : s.fetches[i]? = some f) :
    (goto s i f phase).fetches.map (fun f => (f.process, f.path)) =
      s.fetches.map fun f => (f.process, f.path) := map_set_same hf rfl

theorem fetches_step (op : Op) : (step parse S o s op).fetches.map (fun f => (f.process, f.path)) =
    s.fetches.map (fun f => (f.process, f.path)) ++ (begun parse S o op).toList := by
  cases op with
  | fetch process url =>
    simp only [step, begun]
    cases parseImageUrl parse url o.requireHttps with
    | none => exact (List.append_nil _).symm
    | some url => exact List.map_append
  | _ =>
    simp only [step, begun, Option.toList_none, List.append_nil]
    repeat' split
    all_goals first | rfl | exact fetches_goto s (by assumption)

/-- a step records a download if it receives one -/
theorem downloads_step (op : Op) : (step parse S o s op).downloads = s.downloads ∨
    ∃ i w, op = .received i w ∧ (step parse S o s op).downloads = s.downloads ++ [(i, w)] := by
  cases op with
  | received i w =>
    simp only [step]
    split
    · split_ifs
      · split
        · exact Or.inl rfl
        · exact Or.inr ⟨i, w, rfl, rfl⟩
      · exact Or.inl rfl
    · exact Or.inl rfl
  | _ =>
    left
    simp only [step]
    repeat' split
    all_goals rfl

end

/-- **The fetches** are those that the operations begin, in that order. -/
theorem fetches_run (parse : Str → Option Url) (S : Sha256) (o : ImageCacheOptions) (d : Dir Str Bytes)
    (ops : List Op) :
    (run (step parse S o) (init d) ops).fetches.map (fun f => (f.process, f.path)) =
      ops.filterMap (begun parse S o) := by
  induction ops using List.reverseRecOn with
  | nil => rfl
  | append_singleton ops op ih =>
    rw [run_snoc, fetches_step, ih, List.filterMap_append]
    cases h : begun parse S o op <;> simp [h]

/-- **The downloads** are those of the operations. -/
theorem downloads_run (parse : Str → Option Url) (S : Sha256) (o : ImageCacheOptions) (d : Dir Str Bytes)
    (ops : List Op) :
    ∀ i w, (i, w) ∈ (run (step parse S o) (init d) ops).downloads → .received i w ∈ ops := by
  induction ops using List.reverseRecOn with
  | nil => exact fun _ _ h => nomatch h
  | append_singleton ops op ih =>
    intro i w h
    rw [run_snoc] at h
    rcases downloads_step parse S o (run (step parse S o) (init d) ops) op with hsame | ⟨i', w', rfl, hnew⟩
    · rw [hsame] at h
      exact List.mem_append_left _ (ih i w h)
    · rw [hnew] at h
      rcases List.mem_append.1 h with h | h
      · exact List.mem_append_left _ (ih i w h)
      · cases List.mem_singleton.1 h
        exact List.mem_append_right _ (List.mem_singleton_self _)

/-! ## Temporary names -/

theorem toList_toString (n : ℕ) : (toString n).toList = Nat.toDigits 10 n := Nat.toList_repr

theorem dash_notMem_digits (n : ℕ) : '-' ∉ (toString n).toList := by
  intro h
  rw [toList_toString] at h
  have hdigit := Nat.isDigit_of_mem_toDigits (by decide) (by decide) h
  revert hdigit
  decide

theorem dot_notMem_hexSha256 (S : Sha256) (input : Str) : '.' ∉ hexSha256 S input := by
  intro h
  obtain ⟨b, -, hb⟩ := List.mem_flatMap.1 h
  exact dot_notMem_hexByte b hb

/-- what stands before the first separator -/
theorem split_eq {c : Char} {a b s t : Str} (ha : c ∉ a) (hb : c ∉ b) (h : a ++ c :: s = b ++ c :: t) :
    a = b ∧ s = t := by
  induction a generalizing b with
  | nil =>
    cases b with
    | nil => exact ⟨rfl, (List.cons.inj h).2⟩
    | cons x b => exact absurd ((List.cons.inj h).1 ▸ List.mem_cons_self) hb
  | cons x a ih =>
    cases b with
    | nil => exact absurd ((List.cons.inj h).1.symm ▸ List.mem_cons_self) ha
    | cons y b =>
      obtain ⟨rfl, hrest⟩ := List.cons.inj h
      obtain ⟨rfl, rfl⟩ :=
        ih (fun hc => ha (List.mem_cons_of_mem _ hc)) (fun hc => hb (List.mem_cons_of_mem _ hc)) hrest
      exact ⟨rfl, rfl⟩

theorem toString_inj {m n : ℕ} (h : (toString m).toList = (toString n).toList) : m = n := by
  rw [toList_toString, toList_toString] at h
  calc m = Nat.ofDigitChars 10 (Nat.toDigits 10 m) 0 := (Nat.ofDigitChars_toDigits (by decide) (by decide)).symm
    _ = n := by rw [h, Nat.ofDigitChars_toDigits (by decide) (by decide)]

theorem tmpName_eq {P : Process} {path : Str} (h : '.' ∉ path) :
    tmpName P path =
      path ++ '.' :: ("part-".toList ++ ((toString P.id).toList ++ '-' :: (toString P.tmpCounter).toList)) := by
  rw [tmpName, withExtension_of_no_dot h (by simp)]
  simp only [List.append_assoc, List.singleton_append]

/-- **Temporary names.** A name belongs to one process, one counter value and one image. -/
theorem tmpName_inj {P P' : Process} {path path' : Str} (h : '.' ∉ path) (h' : '.' ∉ path')
    (heq : tmpName P path = tmpName P' path') : P = P' ∧ path = path' := by
  rw [tmpName_eq h, tmpName_eq h'] at heq
  obtain ⟨hpath, hrest⟩ := split_eq h h' heq
  obtain ⟨hid, hcounter⟩ := split_eq (dash_notMem_digits _) (dash_notMem_digits _) (List.append_cancel_left hrest)
  refine ⟨?_, hpath⟩
  cases P
  cases P'
  rw [Process.mk.injEq]
  exact ⟨toString_inj hid, toString_inj hcounter⟩

theorem dot_mem_tmpName {P : Process} {path : Str} (h : '.' ∉ path) : '.' ∈ tmpName P path := by
  rw [tmpName_eq h]
  exact List.mem_append_right _ List.mem_cons_self

end NotifyAgent.CacheTasks
