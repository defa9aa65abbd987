/-
What a `fetch` that does not succeed leaves in the cache directory. The image is written to a temporary file, which is
then renamed; nothing removes the temporary file when the write or the rename fails or is cancelled.

- `receive_eq_ok`: when the body is there to be written;
- `store_atomic_iff`: which outcomes of write and rename leave no trace;
- `atomic_iff`: the same for a whole `fetch`, and the size cap;
- `short_write_leaves_file`: the disk is full after one byte.
-/
import Mathlib.Tactic
import NotifyAgent.Core.ImageCache

namespace NotifyAgent.FailedFetch

open NotifyAgent.Text NotifyAgent.ImageCache
open NotifyAgent.ActionUrl (Url)
open NotifyAgent.HeadIdentity (Sha256)
open NotifyAgent.Lib.Directory

/-! ## Specification -/

/-- a response that is an image -/
def Response.Good (resp : Response) : Prop := resp.isError = false ∧ "image/".toList <+: resp.contentTypeText

/-- no step before the write fails or is cancelled -/
structure Answered (w : World) : Prop where
  lookup : w.lookup = .ready ()
  response : ∃ resp, w.response = .ready resp ∧ Response.Good resp
  stream : ∀ a ∈ w.stream, a.isReady = true
  createDir : w.createDir = .ready ()

/-- no step fails or is cancelled, and the body is within the cap -/
def Succeeds (o : ImageCacheOptions) (w : World) : Prop :=
  (Answered w ∧ (delivered w.stream).length ≤ o.maxBytes) ∧ w.write = .done ∧ w.rename = .done

/-- a fetch that succeeds adds the image and changes no other file; any other returns nothing and changes no file -/
structure Atomic (o : ImageCacheOptions) (w : World) (d : Dir Str Bytes) (path : Str) (f : Fetched) : Prop where
  success : Succeeds o w → f.beforeEviction = put d path (delivered w.stream)
  failure : ¬ Succeeds o w → f.result = none ∧ f.dir = d

/-- what write and rename leave behind is what was there before -/
def NoTrace (w : World) (d : Dir Str Bytes) (tmp : Str) (body : Bytes) : Prop :=
  match w.write with
  | .failed reach | .cancelled reach => ∀ k, reach = some k → d tmp = some (body.take k)
  | .done =>
    match w.rename with
    | .done => d tmp = none
    | .failed => d tmp = some body
    | .cancelled took => took = false ∧ d tmp = some body

/-! ## Up to the write -/

/-- with an image to read, what matters is the body and the directory -/
theorem receive_good {o : ImageCacheOptions} {w : World} {resp : Response} (hresp : w.response = .ready resp)
    (hgood : Response.Good resp) :
    receive o w = (collect o.maxBytes [] w.stream).bind fun body => (w.createDir.get .io).map fun _ => body := by
  unfold receive
  simp only [hresp, Await.get, bind, Except.bind]
  rw [if_neg (by rw [hgood.1]; decide), if_neg (not_not.2 hgood.2)]
  cases collect o.maxBytes [] w.stream with
  | error stop => rfl
  | ok body => cases w.createDir <;> rfl

/-- and without one there is no body -/
theorem receive_not_good {o : ImageCacheOptions} {w : World}
    (h : ¬ ∃ resp, w.response = .ready resp ∧ Response.Good resp) (body : Bytes) : receive o w ≠ .ok body := by
  intro hok
  unfold receive at hok
  cases hresp : w.response with
  | ready resp =>
    simp only [hresp, Await.get, bind, Except.bind] at hok
    split_ifs at hok with herr himage
    · exact h ⟨resp, hresp, by simpa using herr, himage⟩
  | _ =>
    rw [hresp] at hok
    cases hok

/-- **The body is there to be written** exactly if nothing stops the fetch before. -/
theorem receive_eq_ok {o : ImageCacheOptions} {w : World} {body : Bytes} (hlookup : w.lookup = .ready ()) :
    receive o w = .ok body ↔
      (Answered w ∧ (delivered w.stream).length ≤ o.maxBytes) ∧ body = delivered w.stream := by
  have hcollect := @collect_eq_ok o.maxBytes [] w.stream
  simp only [List.length_nil, Nat.zero_le, List.nil_append, forall_const] at hcollect
  by_cases hgood : ∃ resp, w.response = .ready resp ∧ Response.Good resp
  · obtain ⟨resp, hresp, himage⟩ := hgood
    rw [receive_good hresp himage]
    constructor
    · intro h
      cases hc : collect o.maxBytes [] w.stream with
      | error stop =>
        rw [hc] at h
        cases h
      | ok body' =>
        obtain ⟨hall, hlen, hbody⟩ := hcollect.1 hc
        rw [hc] at h
        cases hdir : w.createDir with
        | ready =>
          rw [hdir] at h
          cases h
          exact ⟨⟨⟨hlookup, ⟨resp, hresp, himage⟩, hall, hdir⟩, hlen⟩, hbody⟩
        | _ =>
          rw [hdir] at h
          cases h
    · intro h
      obtain ⟨⟨hans, hlen⟩, rfl⟩ := h
      rw [hcollect.2 ⟨hans.stream, hlen, rfl⟩, hans.createDir]
      rfl
  · constructor
    · intro h
      exact absurd h (receive_not_good hgood body)
    · intro h
      exact absurd h.1.1.response hgood

/-! ## Write and rename -/

/-- **No trace.** Write and rename leave the directory as they should exactly if `NoTrace`. -/
theorem store_atomic_iff {w : World} {d : Dir Str Bytes} {tmp path : Str} {body : Bytes} (hne : path ≠ tmp)
    (hmiss : d path = none) :
    (match store w d tmp path body with
      | (d', .ok ()) => d' = put d path body
      | (d', .error _) => d' = d) ↔ NoTrace w d tmp body := by
  have hreach : ∀ reach : Option ℕ,
      reached d tmp body reach = d ↔ ∀ k, reach = some k → d tmp = some (body.take k) := by
    intro reach
    cases reach with
    | none => simp [reached]
    | some k => simp [reached, put_eq_self]
  cases hw : w.write with
  | failed reach =>
    simp only [store, NoTrace, hw]
    exact hreach reach
  | cancelled reach =>
    simp only [store, NoTrace, hw]
    exact hreach reach
  | done =>
    cases hr : w.rename with
    | done =>
      simp only [store, NoTrace, hw, hr, rename_put]
      exact put_remove_eq_put hne
    | failed =>
      simp only [store, NoTrace, hw, hr]
      exact put_eq_self
    | cancelled took =>
      cases took with
      | false =>
        simp only [store, NoTrace, hw, hr, Bool.false_eq_true, if_false, true_and]
        exact put_eq_self
      | true =>
        simp only [store, NoTrace, hw, hr, if_true, Bool.true_eq_false, false_and, iff_false, rename_put]
        -- the rename took place, and the image was not there before
        intro heq
        have hat := congrFun heq path
        rw [put_same, hmiss] at hat
        cases hat

theorem store_ok_iff {w : World} {d : Dir Str Bytes} {tmp path : Str} {body : Bytes} :
    (store w d tmp path body).2 = .ok () ↔ w.write = .done ∧ w.rename = .done := by
  cases hw : w.write <;> cases hr : w.rename <;> simp [store, hw, hr]

/-! ## The whole fetch -/

/-- a fetch that finds no image and whose download stops returns nothing, with the directory as the download left it -/
theorem fetchTimed_stopped {o : ImageCacheOptions} {P : Process} {w : World} {d d' : Dir Str Bytes} {path : Str}
    {stop : Stop} (hlookup : w.lookup = .ready ()) (hmiss : d path = none)
    (hdown : download o P w d path = (d', .error stop)) : fetchTimed o P w d path = ⟨none, d', d'⟩ := by
  simp only [fetchTimed, hlookup, hmiss, hdown, Option.isSome_none, Bool.false_eq_true, if_false]

/-- **Before the write** nothing is touched. -/
theorem fetchTimed_unwritten {o : ImageCacheOptions} {P : Process} {w : World} {d : Dir Str Bytes} {path : Str}
    (hmiss : d path = none) (h : ¬ (Answered w ∧ (delivered w.stream).length ≤ o.maxBytes)) :
    fetchTimed o P w d path = ⟨none, d, d⟩ := by
  cases hlookup : w.lookup with
  | ready =>
    cases hr : receive o w with
    | error stop =>
      apply @fetchTimed_stopped _ _ _ _ _ _ stop hlookup hmiss
      rw [download, hr]
    | ok body => exact absurd ((receive_eq_ok hlookup).1 hr).1 h
  | _ => simp only [fetchTimed, hlookup]

/-- **From the write on** what counts is write and rename. -/
theorem atomic_written {o : ImageCacheOptions} {P : Process} {w : World} {d : Dir Str Bytes} {path : Str}
    (hne : path ≠ tmpName P path) (hmiss : d path = none)
    (hreach : Answered w ∧ (delivered w.stream).length ≤ o.maxBytes) :
    Atomic o w d path (fetchTimed o P w d path) ↔ NoTrace w d (tmpName P path) (delivered w.stream) := by
  have hlookup := hreach.1.lookup
  have hdown : download o P w d path = store w d (tmpName P path) path (delivered w.stream) := by
    rw [download, (receive_eq_ok hlookup).2 ⟨hreach, rfl⟩]
  have hstore := @store_atomic_iff w d (tmpName P path) path (delivered w.stream) hne hmiss
  have hok := @store_ok_iff w d (tmpName P path) path (delivered w.stream)
  cases hs : store w d (tmpName P path) path (delivered w.stream) with
  | mk d' result =>
    rw [hs] at hstore hok hdown
    cases result with
    | ok =>
      have hsucceeds : Succeeds o w := ⟨hreach, hok.1 rfl⟩
      have hbefore : (fetchTimed o P w d path).beforeEviction = d' := by
        simp only [fetchTimed, hlookup, hmiss, hdown, Option.isSome_none, Bool.false_eq_true, if_false]
      rw [← hstore]
      constructor
      · intro h
        rw [← hbefore]
        exact h.success hsucceeds
      · intro h
        exact ⟨fun _ => hbefore.trans h, fun hnot => absurd hsucceeds hnot⟩
    | error stop =>
      have hfails : ¬ Succeeds o w := by
        intro h
        cases hok.2 h.2
      rw [← hstore, fetchTimed_stopped hlookup hmiss hdown]
      constructor
      · intro h
        exact (h.failure hfails).2
      · intro h
        exact ⟨fun hs => absurd hs hfails, fun _ => ⟨rfl, h⟩⟩

/-- **The size cap** triggers exactly on a body that exceeds it. -/
theorem receive_tooLarge_iff {o : ImageCacheOptions} {w : World}
    (h : ∃ resp, w.response = .ready resp ∧ Response.Good resp) :
    receive o w = .error (.failed (tooLarge o.maxBytes)) ↔ o.maxBytes < (delivered w.stream).length := by
  obtain ⟨resp, hresp, hgood⟩ := h
  have hcap := @collect_tooLarge o.maxBytes [] w.stream (Nat.zero_le _)
  rw [List.nil_append] at hcap
  rw [receive_good hresp hgood, ← hcap]
  cases hc : collect o.maxBytes [] w.stream with
  | error stop => exact Iff.rfl
  | ok body => cases w.createDir <;> simp [Except.bind, Except.map, Await.get, tooLarge]

/-- **When a fetch is atomic.** A fetch that does not find the image leaves no trace exactly if it does not come to the
write, or if write and rename leave none; and the size cap triggers exactly if the body exceeds it. -/
theorem atomic_iff {parse : Str → Option Url} {S : Sha256} {o : ImageCacheOptions} {P : Process} {w : World}
    {d : Dir Str Bytes} {value : Str} {url : Url} (hurl : parseImageUrl parse value o.requireHttps = some url)
    (hmiss : d (hexSha256 S url.asStr) = none) :
    (Atomic o w d (hexSha256 S url.asStr) (fetch parse S o P w d value) ↔
      (Answered w ∧ (delivered w.stream).length ≤ o.maxBytes →
        NoTrace w d (tmpName P (hexSha256 S url.asStr)) (delivered w.stream))) ∧
    ((∃ resp, w.response = .ready resp ∧ Response.Good resp) →
      (receive o w = .error (.failed (tooLarge o.maxBytes)) ↔ o.maxBytes < (delivered w.stream).length)) := by
  have hne := hexSha256_ne_tmpName S P url.asStr
  have hfetch : fetch parse S o P w d value = fetchTimed o P w d (hexSha256 S url.asStr) := by
    rw [fetch, hurl]
  rw [hfetch]
  refine ⟨?_, receive_tooLarge_iff⟩
  by_cases hreach : Answered w ∧ (delivered w.stream).length ≤ o.maxBytes
  · rw [atomic_written hne hmiss hreach]
    exact ⟨fun h _ => h, fun h => h hreach⟩
  · rw [fetchTimed_unwritten hmiss hreach]
    constructor
    · intro _ h
      exact absurd h hreach
    · intro _
      exact ⟨fun h => absurd h.1 hreach, fun _ => ⟨rfl, rfl⟩⟩

/-! ## A disk that is full -/

/-- SHA-256 of `https://a/b.png` -/
def sampleSha : Sha256 where
  digest := fun _ => [0xEB, 0xE1, 0x05, 0xE5, 0x69, 0xE2, 0x80, 0xE4, 0xCC, 0x73, 0x17, 0x7C, 0x72, 0x75, 0x19, 0x21,
    0xE5, 0x9F, 0x27, 0x6C, 0xA4, 0x23, 0x24, 0x3B, 0xFA, 0x84, 0xFD, 0x54, 0xB9, 0x2F, 0xD2, 0xB9]
  length_digest := fun _ => rfl

def sampleValue : Str := "https://a/b.png".toList

def sampleUrl : Url where
  asStr := sampleValue
  scheme := "https".toList
  hostStr := some ['a']
  host := some (.domain ['a'])
  username := []
  password := none

/-- how the parser reads the sample -/
def sampleParse (value : Str) : Option Url := if value = sampleValue then some sampleUrl else none

def sampleOptions : ImageCacheOptions := ⟨true, 16, 50⟩

/-- two chunks of an image, and a disk that is full after one byte -/
def fullDisk : World where
  lookup := .ready ()
  response := .ready ⟨200, some (utf8 "image/png".toList)⟩
  stream := [.ready [1, 2], .ready [3]]
  createDir := .ready ()
  write := .failed (some 1)
  rename := .done
  listing := none
  stuck := fun _ => false
  evictionCancelled := false

def sampleFetch : Fetched := fetch sampleParse sampleSha sampleOptions ⟨7, 0⟩ fullDisk (fun _ => none) sampleValue

/-- the temporary file of the failed write stays, with one byte of the image -/
theorem short_write_leaves_file :
    ¬ Atomic sampleOptions fullDisk (fun _ => none) (hexSha256 sampleSha sampleValue) sampleFetch := by
  intro h
  have hdir := (h.failure (by simp [Succeeds, fullDisk])).2
  have hfile : sampleFetch.dir (tmpName ⟨7, 0⟩ (hexSha256 sampleSha sampleValue)) = some [1] := by decide +kernel
  rw [hdir] at hfile
  cases hfile

/-- the same image on a disk with room -/
def roomyDisk : World := { fullDisk with write := .done }

theorem atomic_roomyDisk :
    Atomic sampleOptions roomyDisk (fun _ => none) (hexSha256 sampleSha sampleUrl.asStr)
      (fetch sampleParse sampleSha sampleOptions ⟨7, 0⟩ roomyDisk (fun _ => none) sampleValue) :=
  (@atomic_iff sampleParse sampleSha sampleOptions ⟨7, 0⟩ roomyDisk (fun _ => none) sampleValue sampleUrl (by decide)
    rfl).1.2 fun _ => rfl

end NotifyAgent.FailedFetch
