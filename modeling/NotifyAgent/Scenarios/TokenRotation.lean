/-
Which refresh token the cell is left with. The lock is released across the exchange, so tokens may be stored in another
order than they were issued in, and an answer may not arrive at all.

- `current_step`: a step keeps the cell up with all that finished calls were issued, unless it stores a token that a
  finished call has overtaken, or loses one that none has;
- `rotated_of_current`: if it does, the cell ends up with the token issued last;
- `rotation_kept`: both, over whole runs;
- `late_write_loses`: two calls, the one answered first writing last.
-/
import Mathlib.Tactic
import NotifyAgent.Core.RefreshToken

namespace NotifyAgent.TokenRotation

open NotifyAgent.Text NotifyAgent.RefreshToken
open NotifyAgent.Lib.Machine

/-! ## The condition -/

/-- the number of the token that call `c` was issued -/
def issueNo (s : St) (c : ℕ) : ℕ := s.issuers.idxOf c

/-- a call that has finished was issued a later token than call `c` -/
def Overtaken (s : St) (c : ℕ) : Prop := ∃ d ∈ s.issuers, Finished s d ∧ issueNo s c < issueNo s d

instance (s : St) (c : ℕ) : Decidable (Overtaken s c) :=
  inferInstanceAs (Decidable (∃ d ∈ s.issuers, Finished s d ∧ issueNo s c < issueNo s d))

/-- a token is stored only if no finished call has overtaken it, and lost only if one has -/
def InOrder (s : St) : Op → Prop
  | .write c => ∀ response rotated, s.calls[c]? = some (.rotating response rotated) → ¬ Overtaken s c
  | .fail c => ∀ a t, s.calls[c]? = some (.answered a) → a.fresh = some t → Overtaken s c
  | _ => True

/-- no finished call was issued a later token than the one in the cell -/
def Current (s : St) : Prop :=
  ∀ c ∈ s.issuers, Finished s c → ∃ h, s.stored.getLast? = some h ∧ issueNo s c ≤ issueNo s h

/-- once all calls have finished, the cell has the token issued last, or what it had at the start -/
def Rotated (cell : Option Str) (s : St) : Prop :=
  (∀ p ∈ s.calls, p.finished = true) → s.cell = (s.issued.getLast?.map Prod.snd).or cell

/-! ## One step -/

theorem issuer_of_last {cell : Option Str} {s : St} (h : Inv cell s) {c : ℕ} (hc : s.stored.getLast? = some c) :
    c ∈ s.issuers := by
  rcases h.source with ⟨hnone, -⟩ | ⟨k, t, hlast, hk, -⟩
  · rw [hnone] at hc
    cases hc
  · obtain rfl : k = c := Option.some.inj (hlast.symm.trans hc)
    exact List.mem_map_of_mem hk

/-- a call that has neither a token nor a result was issued none -/
theorem not_issuer {cell : Option Str} {s : St} (h : Inv cell s) {c : ℕ} {p : Phase} (hp : s.calls[c]? = some p)
    (hlive : p.finished = false) (hfresh : p.fresh = none) : c ∉ s.issuers := by
  intro hmem
  obtain ⟨⟨c', t⟩, hct, rfl⟩ := List.mem_map.1 hmem
  obtain ⟨p', hp', hor⟩ := h.held _ _ hct
  obtain rfl : p = p' := Option.some.inj (hp.symm.trans hp')
  rcases hor with hor | hor
  · rw [hfresh] at hor
    cases hor
  · rw [hlive] at hor
    cases hor

/-- a step in order keeps the cell current -/
theorem current_of_inOrder (P : AadTokenProvider) {cell : Option Str} {s : St} (hinv : Inv cell s) (h : Current s)
    {o : Op} (hok : InOrder s o) : Current (step P s o) := by
  have hmoves := step_cases P s o
  generalize step P s o = s' at hmoves ⊢
  cases hmoves with
  | idle => exact h
  | spawn =>
    intro c hc hfin
    apply h c hc
    obtain ⟨p, hp, hf⟩ := hfin
    rcases spawn_calls hp with hp | rfl
    · exact ⟨p, hp, hf⟩
    · cases hf
  | @on _ c p q hp hlive hfresh =>
    intro d hd hfin
    apply h d hd
    rcases (goto_finished hp hlive).1 hfin with hfin | ⟨rfl, hq⟩
    · exact hfin
    · exact absurd hd (not_issuer hinv hp hlive (hfresh ▸ finished_fresh hq))
  | @issue c r a t hp ht =>
    intro d hd hfin
    have hold : Finished s d := ((goto_finished hp rfl).1 hfin).resolve_right fun hnew => by cases hnew.2
    have hmem : d ∈ s.issuers := by
      obtain ⟨p, hp', hf⟩ := hold
      simp only [St.issuers, List.map_append, List.map_singleton] at hd
      refine (List.mem_append.1 hd).resolve_right fun hdc => ?_
      rw [List.mem_singleton.1 hdc, hp, Option.some.injEq] at hp'
      rw [← hp'] at hf
      cases hf
    obtain ⟨k, hk, hle⟩ := h d hmem hold
    have hno : ∀ e ∈ s.issuers, (s.issuers ++ [c]).idxOf e = issueNo s e := fun e he => List.idxOf_append_of_mem he
    have hissuers : List.map Prod.fst (s.issued ++ [(c, t)]) = s.issuers ++ [c] := List.map_append
    refine ⟨k, hk, ?_⟩
    change (List.map Prod.fst (s.issued ++ [(c, t)])).idxOf d ≤ (List.map Prod.fst (s.issued ++ [(c, t)])).idxOf k
    rw [hissuers, hno d hmem, hno k (issuer_of_last hinv hk)]
    exact hle
  | @store c r t hp =>
    intro d hd hfin
    refine ⟨c, List.getLast?_concat, ?_⟩
    rcases (goto_finished hp rfl).1 hfin with hfin | ⟨rfl, -⟩
    · by_contra hlt
      exact hok r t hp ⟨d, hd, hfin, not_le.1 hlt⟩
    · exact le_rfl
  | @lose c a t hp ht =>
    intro d hd hfin
    rcases (goto_finished hp rfl).1 hfin with hfin | ⟨rfl, -⟩
    · exact h d hd hfin
    · obtain ⟨e, he, hefin, hlt⟩ := hok a t hp ht
      obtain ⟨k, hk, hle⟩ := h e he hefin
      exact ⟨k, hk, hlt.le.trans hle⟩

/-- and one out of order does not -/
theorem inOrder_of_current (P : AadTokenProvider) {cell : Option Str} {s : St} (hinv : Inv cell s) {o : Op}
    (h : Current (step P s o)) : InOrder s o := by
  cases o with
  | write c =>
    intro r t hp hover
    obtain ⟨d, hd, hfin, hlt⟩ := hover
    simp only [step, hp] at h
    obtain ⟨k, hk, hle⟩ := h d hd ((goto_finished hp rfl).2 (Or.inl hfin))
    obtain rfl : c = k := Option.some.inj (List.getLast?_concat.symm.trans hk)
    exact absurd hlt (not_lt.2 hle)
  | fail c =>
    intro a t hp ht
    simp only [step, hp] at h
    have hmem : c ∈ s.issuers := List.mem_map_of_mem (hinv.issued c _ t hp ht)
    obtain ⟨k, hk, hle⟩ := h c hmem ((goto_finished hp rfl).2 (Or.inr ⟨rfl, rfl⟩))
    have hkfin := hinv.finished k (List.mem_of_getLast? hk)
    refine ⟨k, issuer_of_last hinv hk, hkfin, lt_of_le_of_ne hle ?_⟩
    -- the call of the last write has finished, and `c` has not
    intro heq
    obtain rfl : c = k := (List.idxOf_inj hmem).1 heq
    obtain ⟨p, hp', hf⟩ := hkfin
    rw [hp, Option.some.injEq] at hp'
    rw [← hp'] at hf
    cases hf
  | _ => trivial

/-- **One step** keeps the cell current exactly if it is in order. -/
theorem current_step (P : AadTokenProvider) {cell : Option Str} {s : St} (hinv : Inv cell s) (h : Current s) (o : Op) :
    InOrder s o ↔ Current (step P s o) :=
  ⟨current_of_inOrder P hinv h, inOrder_of_current P hinv⟩

/-! ## Whole runs -/

/-- **A current cell ends up with the token issued last.** -/
theorem rotated_of_current {cell : Option Str} {s : St} (hinv : Inv cell s) (h : Current s) : Rotated cell s := by
  intro hall
  cases hlast : s.issued.getLast? with
  | none =>
    rcases hinv.source with ⟨-, hcell⟩ | ⟨k, t, -, hk, -⟩
    · exact hcell
    · rw [List.getLast?_eq_none_iff.1 hlast] at hk
      cases hk
  | some e =>
    obtain ⟨c, t⟩ := e
    obtain ⟨pre, hpre⟩ := List.getLast?_eq_some_iff.1 hlast
    have hissued : (c, t) ∈ s.issued := List.mem_of_getLast? hlast
    have hmem : c ∈ s.issuers := List.mem_map_of_mem hissued
    have hfin : Finished s c := by
      obtain ⟨p, hp, -⟩ := hinv.held c t hissued
      exact ⟨p, hp, hall p (List.mem_of_getElem? hp)⟩
    obtain ⟨k, hk, hle⟩ := h c hmem hfin
    have hkmem := issuer_of_last hinv hk
    -- no issuer comes after the last one
    have hissuers : s.issuers = pre.map Prod.fst ++ [c] := by rw [St.issuers, hpre, List.map_append]; rfl
    have hnotpre : c ∉ pre.map Prod.fst := by
      have hnodup := hinv.once
      rw [hissuers, List.nodup_append] at hnodup
      intro hc
      exact hnodup.2.2 c hc c List.mem_cons_self rfl
    have hno : issueNo s c = pre.length := by
      rw [issueNo, hissuers, List.idxOf_append_of_notMem hnotpre]
      simp
    have hlt : issueNo s k < pre.length + 1 := by
      have := List.idxOf_lt_length_iff.2 hkmem
      rw [hissuers] at this
      simpa [issueNo, hissuers] using this
    have hkc : c = k := (List.idxOf_inj hmem).1 (le_antisymm hle (by rw [← issueNo, ← issueNo, hno]; omega))
    subst hkc
    rcases hinv.source with ⟨hnone, -⟩ | ⟨k, t', hlast', hk', hcell⟩
    · rw [hnone] at hk
      cases hk
    · obtain rfl : k = c := Option.some.inj (hlast'.symm.trans hk)
      have heq : (k, t') = (k, t) := List.inj_on_of_nodup_map hinv.once hk' hissued rfl
      rw [hcell, (Prod.mk.inj heq).2]
      rfl

/-- **When no rotation is lost.** If every step is in order, the cell has the token issued last whenever all calls have
finished; the steps are in order exactly if the cell is current all the way. In any run the cell is never emptied, and
only the write of a call that returns its access token changes it. -/
theorem rotation_kept (P : AadTokenProvider) (cell : Option Str) (ops : List Op) :
    (Meets (step P) InOrder (.init cell) ops →
      ∀ pre, pre <+: ops → Rotated cell (run (step P) (.init cell) pre)) ∧
    (Meets (step P) InOrder (.init cell) ops ↔ ∀ pre, pre <+: ops → Current (run (step P) (.init cell) pre)) ∧
    (∀ pre, pre <+: ops →
      (run (step P) (.init cell) pre).cell.isSome → (run (step P) (.init cell) ops).cell.isSome) ∧
    ∀ pre o, pre ++ [o] <+: ops →
      (run (step P) (.init cell) (pre ++ [o])).cell ≠ (run (step P) (.init cell) pre).cell →
      ∃ c token, o = .write c ∧ (run (step P) (.init cell) ops).calls[c]? = some (.done (.ok token)) := by
  have hstart : Current (.init cell) := by
    intro c hc
    cases hc
  have hiff := meets_iff_inv (step P) (J := Inv cell) (I := Current) (fun _ o h => inv_step P h o)
    (fun _ o hinv h => current_step P hinv h o) (inv_init cell) hstart ops
  refine ⟨?_, hiff, ?_, ?_⟩
  · intro hok pre hpre
    exact rotated_of_current (inv_run P cell pre) (hiff.1 hok pre hpre)
  · intro pre hpre hsome
    obtain ⟨post, rfl⟩ := hpre
    rw [run_append]
    exact run_inv (step P) (I := fun s => s.cell.isSome) (fun s o => (cell_step P s o).1) hsome post
  · intro pre o hpre hne
    obtain ⟨post, rfl⟩ := hpre
    rw [run_snoc] at hne
    obtain ⟨c, token, ho, hdone⟩ := (cell_step P (run (step P) (.init cell) pre) o).2 hne
    refine ⟨c, token, ho, ?_⟩
    rw [run_append, run_snoc]
    exact done_run P hdone rfl post

/-! ## Two calls -/

def sampleProvider : AadTokenProvider := ⟨['c'], ['t'], ['s'], ['b']⟩

/-- the calls write in the order in which they are answered -/
def writesInOrder : List Op :=
  [.spawn, .spawn, .read 0, .read 1, .request 0, .request 1, .answer 0 (.tokens ⟨['a'], some ['1']⟩),
    .answer 1 (.tokens ⟨['b'], some ['2']⟩), .receive 0, .write 0, .receive 1, .write 1]

example :
    Meets (step sampleProvider) InOrder (.init (some ['0'])) writesInOrder ∧
      (run (step sampleProvider) (.init (some ['0'])) writesInOrder).cell = some ['2'] := by
  refine ⟨⟨trivial, trivial, trivial, trivial, trivial, trivial, trivial, trivial, trivial, fun _ _ _ => ?_, trivial,
    fun _ _ _ => ?_, trivial⟩, by decide⟩
  all_goals decide

/-- call 0 is answered first and writes last -/
def lateWrite : List Op :=
  [.spawn, .spawn, .read 0, .read 1, .request 0, .request 1, .answer 0 (.tokens ⟨['a'], some ['1']⟩),
    .answer 1 (.tokens ⟨['b'], some ['2']⟩), .receive 1, .write 1, .receive 0, .write 0]

/-- the second token was issued last, stored, and overwritten -/
theorem late_write_loses : ¬ Rotated (some ['0']) (run (step sampleProvider) (.init (some ['0'])) lateWrite) := by
  intro h
  have hcell := h (by decide)
  revert hcell
  decide

end NotifyAgent.TokenRotation
