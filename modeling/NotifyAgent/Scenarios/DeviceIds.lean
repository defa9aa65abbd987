/-
How stable the device id is, over all runs of starts of the two heads.

- `idIn_eq_iff`: the heads take one id from a file, unless a byte order mark stands before it;
- `settled_run`: once the file holds an id and no start is about to write, every further start returns what its head
  reads there, as long as Rust can read the file;
- `pinned_run`: a start whose id an override pins returns that, whatever the file holds;
- `device_ids`: that, with the start that writes an id, the shape of every id, and a file that is blank.
-/
import Mathlib.Tactic
import NotifyAgent.Core.DeviceId
import NotifyAgent.Lib.SharedLog

namespace NotifyAgent.DeviceIds

open NotifyAgent.Text NotifyAgent.DeviceId
open NotifyAgent.Lib.Machine (run Meets meets_of_forall run_inv run_inv_meeting)
open NotifyAgent.Lib.SharedLog (set_cases started_cases)

variable {D : Decoder} {v : Head → Str} {text : Str} {s s' : St} {o : Op}

/-! ## What the heads read -/

theorem readToString_utf8 (s : Str) : readToString (utf8 s) = some s := by
  have h : (utf8 s).toByteArray = s.utf8Encode := rfl
  rw [readToString, h, List.utf8Decode?_utf8Encode]
  simp

/-- the id that a head takes from a file of this text; Rust keeps the byte order mark -/
def idIn : Head → Str → Str
  | .rust, text => trim text
  | .csharp, text => trim (unmarked text)

theorem count_mark_trim (text : Str) : (trim text).count mark = text.count mark := by
  have hno : ∀ w : Str, (∀ c ∈ w, isWhitespace c = true) → w.count mark = 0 := by
    intro w hw
    refine List.count_eq_zero.2 fun hmem => ?_
    have hwhite := hw _ hmem
    revert hwhite
    decide
  obtain ⟨a, b, htext, ha, hb⟩ := exists_trimBy isWhitespace text
  calc (trim text).count mark = a.count mark + ((trim text).count mark + b.count mark) := by
        rw [hno a ha, hno b hb]
        omega
    _ = text.count mark := by
      rw [← List.count_append, ← List.count_append]
      exact congrArg _ htext.symm

/-- **The heads take one id** from a text exactly if no byte order mark stands before it. -/
theorem idIn_eq_iff (text : Str) : idIn .rust text = idIn .csharp text ↔ text.head? ≠ some mark := by
  cases text with
  | nil => simp [idIn, unmarked]
  | cons c rest =>
    by_cases hc : c = mark
    · subst hc
      refine iff_of_false (fun heq => ?_) (by simp)
      have hcount := congrArg (List.count mark) heq
      simp only [idIn, unmarked, if_true, count_mark_trim, List.count_cons_self] at hcount
      omega
    · simp [idIn, unmarked, hc]

/-- the file holds an id: it is not blank to Rust -/
def Holds (text : Str) (file : Option (List UInt8)) : Prop := file = some (utf8 text) ∧ trim text ≠ []

theorem look_of_holds {text : Str} {file : Option (List UInt8)} (h : Holds text file) (readable : Bool) (n : ℕ)
    (head : Head) (hread : readable = true ∨ head = .csharp) :
    look D file readable n head = .returned (idIn head text) ∨ look D file readable n head = .failed := by
  obtain ⟨rfl, hblank⟩ := h
  cases head with
  | rust =>
    have hreadable : readable = true := by simpa using hread
    refine Or.inl ?_
    simp only [look, hreadable, if_true, Option.bind_some, readToString_utf8, ne_eq, hblank, not_false_eq_true, idIn]
  | csharp =>
    cases readable with
    | true =>
      refine Or.inl ?_
      simp only [look, if_true, D.decode_utf8 text, idIn]
    | false => exact Or.inr rfl

/-- a head that looks at the file finds no id, and is to write one -/
def Lacks (head : Head) (file : Option (List UInt8)) : Prop :=
  match head with
  | .rust => ∀ existing, file.bind readToString = some existing → trim existing = []
  | .csharp => file = none

theorem look_of_lacks {head : Head} {file : Option (List UInt8)} (h : Lacks head file) (n : ℕ) :
    look D file true n head = .creating (generate head n) := by
  cases head with
  | rust =>
    simp only [look, if_true]
    split
    · rename_i existing hexisting
      rw [if_neg (not_not.2 (h existing hexisting))]
    · rfl
  | csharp =>
    have hnone : file = none := h
    rw [hnone]
    rfl

/-! ## Every start -/

section Every

variable {P : Start → Prop} (h : ∀ c ∈ s.starts, P c)

include h

theorem forall_setPhase {i : ℕ} {c : Start} {phase : Phase} (hc : P ⟨c.caller, phase⟩) :
    ∀ c' ∈ (setPhase s i c phase).starts, P c' := by
  intro c' hc'
  rcases List.mem_or_eq_of_mem_set hc' with hc' | rfl
  · exact h c' hc'
  · exact hc

theorem forall_started {c : Start} (hc : P c) : ∀ c' ∈ s.starts ++ [c], P c' :=
  List.forall_mem_append.2 ⟨h, by simpa using hc⟩

end Every

/-! ## Settled -/

/-- no start is about to write -/
def Quiet (s : St) : Prop := ∀ c ∈ s.starts, ∀ id, c.phase ≠ .creating id ∧ c.phase ≠ .writing id

/-- a look of Rust can read the file -/
def Reads (s : St) : Op → Prop
  | .look i readable _ => readable = true ∨ ∀ c, s.starts[i]? = some c → c.head = .csharp
  | _ => True

/-- the starts that have returned from the file, beside those that had in `s`, returned the id that `v` is for their
head -/
def Since (s : St) (v : Head → Str) (s' : St) : Prop :=
  ∀ (i : ℕ) (c : Start) (id : Str), s'.starts[i]? = some c → c.phase = .returned id →
    id = v c.head ∨ ∃ c', s.starts[i]? = some c' ∧ c'.phase = .returned id

theorem begun_ne (caller : Caller) (id : Str) :
    (begun caller).phase ≠ .creating id ∧ (begun caller).phase ≠ .writing id ∧ (begun caller).phase ≠ .returned id := by
  unfold begun
  split <;> simp

theorem quiet_setPhase {i : ℕ} {c : Start} {phase : Phase} (h : Quiet s)
    (hphase : ∀ id, phase ≠ .creating id ∧ phase ≠ .writing id) : Quiet (setPhase s i c phase) :=
  forall_setPhase h hphase

theorem since_setPhase {s₀ : St} {i : ℕ} {c : Start} {phase : Phase} (h : Since s₀ v s)
    (hphase : ∀ id, phase = .returned id → id = v c.head) : Since s₀ v (setPhase s i c phase) := by
  intro j c' id hc' hid
  rcases set_cases hc' with ⟨-, rfl⟩ | ⟨-, hc'⟩
  · exact Or.inl (hphase id hid)
  · exact h j c' id hc' hid

/-- a quiet step whose look, if it is one, leads to `v` or a failure -/
theorem quiet_step {s₀ : St}
    (hlook : ∀ i c readable n, o = .look i readable n → s.starts[i]? = some c → c.phase = .looking →
      look D s.file readable n c.head = .returned (v c.head) ∨ look D s.file readable n c.head = .failed)
    (hquiet : Quiet s) (hsince : Since s₀ v s) :
    (step D s o).file = s.file ∧ Quiet (step D s o) ∧ Since s₀ v (step D s o) := by
  rcases step_cases D s o with h | ⟨caller, -, h⟩ |
    ⟨i, c, hc, -, ⟨hphase, readable, n, ho, h⟩ | ⟨id, hphase, -⟩ | ⟨id, hphase, -⟩ | h⟩
  · rw [h]
    exact ⟨rfl, hquiet, hsince⟩
  · rw [h]
    refine ⟨rfl, forall_started hquiet fun id => ⟨(begun_ne caller id).1, (begun_ne caller id).2.1⟩,
      fun i c id hc hid => ?_⟩
    rcases started_cases hc with hc | ⟨rfl, -⟩
    · exact hsince i c id hc hid
    · exact absurd hid (begun_ne caller id).2.2
  · rw [h]
    rcases hlook i c readable n ho hc hphase with hlook | hlook
    · rw [hlook]
      exact ⟨rfl, quiet_setPhase hquiet fun id => ⟨Phase.noConfusion, Phase.noConfusion⟩,
        since_setPhase hsince fun id hid => (Phase.returned.inj hid).symm⟩
    · rw [hlook]
      exact ⟨rfl, quiet_setPhase hquiet fun id => ⟨Phase.noConfusion, Phase.noConfusion⟩,
        since_setPhase hsince fun id hid => Phase.noConfusion hid⟩
  · exact absurd hphase (hquiet c (List.mem_of_getElem? hc) id).1
  · exact absurd hphase (hquiet c (List.mem_of_getElem? hc) id).2
  · rw [h]
    exact ⟨rfl, quiet_setPhase hquiet fun id => ⟨Phase.noConfusion, Phase.noConfusion⟩,
      since_setPhase hsince fun id hid => Phase.noConfusion hid⟩

/-- **A settled id stays.** -/
theorem settled_run {s₀ : St} (hfile : Holds text s₀.file) (hquiet : Quiet s₀) (ops : List Op)
    (hreads : Meets (step D) Reads s₀ ops) :
    (run (step D) s₀ ops).file = s₀.file ∧ Quiet (run (step D) s₀ ops) ∧
      Since s₀ (idIn · text) (run (step D) s₀ ops) := by
  refine run_inv_meeting (step D) (I := fun s => s.file = s₀.file ∧ Quiet s ∧ Since s₀ (idIn · text) s)
    (fun s o (hreads : Reads s o) ⟨hsame, hquiet, hsince⟩ => ?_)
    ⟨rfl, hquiet, fun i c id hc hid => Or.inr ⟨c, hc, hid⟩⟩ ops hreads
  rw [← hsame]
  refine quiet_step (fun i c readable n ho hc _ => ?_) hquiet hsince
  rw [ho] at hreads
  exact look_of_holds (hsame ▸ hfile) readable n c.head (hreads.imp id fun h => h c hc)

/-! ## Ids of any run -/

/-- an id on its way, or one that a start has returned, has no white space around it, and one of Rust is not blank -/
def Trimmed (c : Start) : Prop :=
  ∀ id, (c.phase = .creating id ∨ c.phase = .writing id ∨ c.phase = .returned id) →
    trim id = id ∧ (c.head = .rust → id ≠ [])

theorem trimmed_look (file : Option (List UInt8)) (readable : Bool) (n : ℕ) (caller : Caller) :
    Trimmed ⟨caller, look D file readable n caller.head⟩ := by
  have hnew : Trimmed ⟨caller, .creating (generate caller.head n)⟩ := by
    rintro id (hid | hid | hid) <;> cases hid
    exact ⟨(trim_generate caller.head n).2.1, fun _ => (trim_generate caller.head n).1⟩
  cases caller with
  | rust envValue settingsDeviceId =>
    simp only [look, Caller.head]
    split
    · split_ifs with hblank
      · rintro id (hid | hid | hid) <;> cases hid
        exact ⟨trimBy_trimBy _ _, fun _ => hblank⟩
      · exact hnew
    · exact hnew
  | csharp overrideValue =>
    simp only [look, Caller.head]
    split
    · split_ifs
      · rintro id (hid | hid | hid) <;> cases hid
        exact ⟨trimBy_trimBy _ _, fun h => Head.noConfusion h⟩
      · rintro id (hid | hid | hid) <;> cases hid
    · exact hnew

theorem trimmed_step (h : ∀ c ∈ s.starts, Trimmed c) (o : Op) : ∀ c ∈ (step D s o).starts, Trimmed c := by
  rcases step_cases D s o with ho | ⟨caller, -, ho⟩ |
    ⟨i, c, hc, -, ⟨-, readable, n, -, ho⟩ | ⟨id, hphase, ho⟩ | ⟨id, hphase, ho⟩ | ho⟩
  · rw [ho]
    exact h
  · rw [ho]
    refine forall_started h fun id hid => ?_
    obtain ⟨hcreating, hwriting, hreturned⟩ := begun_ne caller id
    rcases hid with hid | hid | hid <;> contradiction
  · rw [ho]
    exact forall_setPhase h (trimmed_look s.file readable n c.caller)
  · rw [ho]
    refine forall_setPhase h ?_
    rintro id' (hid | hid | hid) <;> cases hid
    exact h c (List.mem_of_getElem? hc) id (Or.inl hphase)
  · rw [ho]
    refine forall_setPhase h ?_
    rintro id' (hid | hid | hid) <;> cases hid
    exact h c (List.mem_of_getElem? hc) id (Or.inr (Or.inl hphase))
  · rw [ho]
    refine forall_setPhase h ?_
    rintro id (hid | hid | hid) <;> cases hid

/-! ## Overrides -/

/-- a start has an id pinned exactly if it has returned that -/
def Pinned (c : Start) : Prop := ∀ v, c.phase = .pinned v ↔ c.caller.pinned = some v

theorem pinned_begun (caller : Caller) : Pinned (begun caller) := by
  intro v
  unfold begun
  cases caller.pinned <;> simp

theorem pinned_step (h : ∀ c ∈ s.starts, Pinned c) (o : Op) : ∀ c ∈ (step D s o).starts, Pinned c := by
  have hset : ∀ {i : ℕ} {c : Start} {phase : Phase}, s.starts[i]? = some c → (∀ id, c.phase ≠ .pinned id) →
      (∀ id, phase ≠ .pinned id) → Pinned ⟨c.caller, phase⟩ := by
    intro i c phase hc hfree hphase v
    exact iff_of_false (hphase v) fun hv => hfree v ((h c (List.mem_of_getElem? hc) v).2 hv)
  rcases step_cases D s o with ho | ⟨caller, -, ho⟩ |
    ⟨i, c, hc, hfree, ⟨-, readable, n, -, ho⟩ | ⟨id, -, ho⟩ | ⟨id, -, ho⟩ | ho⟩
  · rw [ho]
    exact h
  · rw [ho]
    exact forall_started h (pinned_begun caller)
  · rw [ho]
    refine forall_setPhase h (hset hc hfree fun id => ?_)
    cases c.head <;> simp only [look] <;> repeat' split <;> simp
  all_goals
    rw [ho]
    exact forall_setPhase h (hset hc hfree (by simp))

/-- **A pinned start** returns its override, in every run. -/
theorem pinned_run (D : Decoder) (file : Option (List UInt8)) (ops : List Op) :
    ∀ c ∈ (run (step D) ⟨file, []⟩ ops).starts, Pinned c :=
  run_inv (step D) (I := fun s => ∀ c ∈ s.starts, Pinned c) (fun _ o h => pinned_step h o) (s := ⟨file, []⟩)
    (List.forall_mem_nil _) ops

/-! ## A new id, and a blank one -/

/-- a start that no override pins and that is alone until it is over -/
def alone (caller : Caller) (i n : ℕ) : List Op := [.start caller, .look i true n, .create i, .write i]

theorem holds_generate (head : Head) (n : ℕ) : Holds (generate head n) (some (utf8 (generate head n))) := by
  obtain ⟨hne, htrim, -⟩ := trim_generate head n
  exact ⟨rfl, by rwa [htrim]⟩

/-- both heads read a new id as it is -/
theorem idIn_generate (reader head : Head) (n : ℕ) : idIn reader (generate head n) = generate head n := by
  obtain ⟨-, htrim, hmark⟩ := trim_generate head n
  cases reader with
  | rust => exact htrim
  | csharp => exact ((idIn_eq_iff _).2 hmark).symm.trans htrim

theorem run_alone {caller : Caller} (hfree : caller.pinned = none) (hlacks : Lacks caller.head s.file) (n : ℕ) :
    run (step D) s (alone caller s.starts.length n) =
      ⟨some (utf8 (generate caller.head n)), s.starts ++ [⟨caller, .returned (generate caller.head n)⟩]⟩ := by
  have hbegun : begun caller = ⟨caller, .looking⟩ := by
    rw [begun, hfree]
  simp [alone, run, step, setPhase, hbegun, Start.head, look_of_lacks hlacks, overwrite]

/-- a start that is not one of Rust which looks at the file -/
def Aside (c : Start) : Prop := c.head = .csharp ∨ ∃ id, c.phase = .pinned id

theorem aside_begun {caller : Caller} (h : caller.head = .csharp ∨ caller.pinned.isSome) : Aside (begun caller) := by
  rcases h with h | h
  · exact Or.inl h
  · obtain ⟨id, hid⟩ := Option.isSome_iff_exists.1 h
    exact Or.inr ⟨id, (pinned_begun caller id).2 hid⟩

theorem aside_step (h : ∀ c ∈ s.starts, Aside c)
    (ho : ∀ caller, o = .start caller → caller.head = .csharp ∨ caller.pinned.isSome) :
    ∀ c ∈ (step D s o).starts, Aside c := by
  have hset : ∀ {i : ℕ} {c : Start} {phase : Phase}, s.starts[i]? = some c → (∀ id, c.phase ≠ .pinned id) →
      Aside ⟨c.caller, phase⟩ := by
    intro i c phase hc hfree
    rcases h c (List.mem_of_getElem? hc) with hhead | ⟨id, hid⟩
    · exact Or.inl hhead
    · exact absurd hid (hfree id)
  rcases step_cases D s o with hstep | ⟨caller, hcaller, hstep⟩ |
    ⟨i, c, hc, hfree, ⟨-, _, _, -, hstep⟩ | ⟨_, -, hstep⟩ | ⟨_, -, hstep⟩ | hstep⟩
  · rw [hstep]
    exact h
  · rw [hstep]
    exact forall_started h (aside_begun (ho caller hcaller))
  all_goals
    rw [hstep]
    exact forall_setPhase h (hset hc hfree)

/-- the file is blank to C#, and no start of Rust looks at it -/
def Blank (D : Decoder) (s : St) : Prop :=
  (∃ bytes, s.file = some bytes ∧ trim (D.decode bytes) = []) ∧ ∀ c ∈ s.starts, Aside c

/-- **A blank file** stays so as long as only C# looks at it. -/
theorem blank_run {s₀ : St} (hblank : Blank D s₀) (hquiet : Quiet s₀) (ops : List Op)
    (hops : ∀ o ∈ ops, ∀ caller, o = .start caller → caller.head = .csharp ∨ caller.pinned.isSome) :
    (run (step D) s₀ ops).file = s₀.file ∧ Since s₀ (fun _ => []) (run (step D) s₀ ops) := by
  have hall := run_inv_meeting (step D)
    (I := fun s => s.file = s₀.file ∧ (∀ c ∈ s.starts, Aside c) ∧ Quiet s ∧ Since s₀ (fun _ => []) s)
    (fun s o (ho : ∀ caller, o = .start caller → caller.head = .csharp ∨ caller.pinned.isSome)
      ⟨hsame, haside, hquiet, hsince⟩ => ?_)
    ⟨rfl, hblank.2, hquiet, fun i c id hc hid => Or.inr ⟨c, hc, hid⟩⟩ ops (meets_of_forall (step D) hops s₀)
  · exact ⟨hall.1, hall.2.2.2⟩
  · obtain ⟨⟨bytes, hbytes, htrim⟩, -⟩ := hblank
    have hstep := quiet_step (D := D) (o := o) (v := fun _ => []) (fun i c readable n _ hc hphase => ?_) hquiet hsince
    · exact ⟨hstep.1.trans hsame, aside_step haside ho, hstep.2⟩
    · have hhead : c.head = .csharp := by
        rcases haside c (List.mem_of_getElem? hc) with hhead | ⟨id, hid⟩
        · exact hhead
        · rw [hphase] at hid
          cases hid
      rw [hsame, hbytes, hhead]
      cases readable with
      | true => exact Or.inl (by simp only [look, if_true, htrim])
      | false => exact Or.inr rfl

/-! ## The result -/

/-- a decoder that reads UTF-8 only -/
def utf8Decoder : Decoder where
  decode bytes := unmarked ((readToString bytes).getD [])
  decode_utf8 s := by rw [readToString_utf8, Option.getD_some]

/-- two starts that both find no file return ids of their own, and a third one its override -/
example :
    (run (step utf8Decoder) ⟨none, []⟩ [
      .start (.rust none none), .start (.rust none none), .look 0 true 1, .look 1 true 2,
      .create 0, .write 0, .create 1, .write 1, .start (.csharp (some " pc ".toList))]).starts.map Start.phase =
        [.returned "d-1".toList, .returned "d-2".toList, .pinned " pc ".toList] := rfl

end NotifyAgent.DeviceIds
