/-
Accounting over containers. A container holds values, each value stands for a multiset of items, and `tally` adds
them up. Moving an item from one container to another keeps the total, which is how conservation results are stated:
the sum of all tallies is an invariant.

- `tally_set`, `tally_set_add`, `tally_set_same`: overwriting one cell of a list exchanges that cell's items;
- `holdings_insert`, `holdings_erase`, `holdings_replace`: the same for the entries of a finite map.
-/
import Mathlib.Tactic
import Mathlib.Data.List.AList
import Mathlib.Algebra.BigOperators.Group.Multiset.Basic

namespace NotifyAgent.Lib.Ledger

variable {α β ι : Type*}

/-- the items a list of values stands for -/
def tally (f : α → Multiset ι) (l : List α) : Multiset ι := (l.map f).sum

@[simp] theorem tally_nil (f : α → Multiset ι) : tally f [] = 0 := rfl

@[simp] theorem tally_cons (f : α → Multiset ι) (x : α) (l : List α) : tally f (x :: l) = f x + tally f l := by
  simp [tally]

@[simp] theorem tally_append (f : α → Multiset ι) (a b : List α) : tally f (a ++ b) = tally f a + tally f b := by
  simp [tally]

theorem tally_perm (f : α → Multiset ι) {a b : List α} (h : a.Perm b) : tally f a = tally f b :=
  (h.map f).sum_eq

theorem tally_eq_zero {f : α → Multiset ι} {l : List α} (h : ∀ x ∈ l, f x = 0) : tally f l = 0 := by
  induction l with
  | nil => rfl
  | cons x l ih => simp [h x List.mem_cons_self, ih fun y hy => h y (List.mem_cons_of_mem _ hy)]

theorem tally_congr {f g : α → Multiset ι} {l : List α} (h : ∀ x ∈ l, f x = g x) : tally f l = tally g l :=
  congrArg List.sum (List.map_congr_left h)

/-- values that stand for one item each -/
theorem tally_map_singleton {f : α → Multiset ι} {g : ι → α} (h : ∀ i, f (g i) = {i}) (l : List ι) :
    tally f (l.map g) = (l : Multiset ι) := by
  induction l with
  | nil => rfl
  | cons i l ih =>
    rw [List.map_cons, tally_cons, ih, h]
    rfl

theorem mem_tally {f : α → Multiset ι} {l : List α} {i : ι} : i ∈ tally f l ↔ ∃ x ∈ l, i ∈ f x := by
  induction l with
  | nil => simp
  | cons x l ih => simp [ih]

theorem tally_add (f g : α → Multiset ι) (l : List α) : tally (fun x => f x + g x) l = tally f l + tally g l := by
  induction l with
  | nil => rfl
  | cons x l ih => simp only [tally_cons, ih]; abel

theorem tally_le_tally {f g : α → Multiset ι} {l : List α} (h : ∀ x ∈ l, f x ≤ g x) : tally f l ≤ tally g l := by
  induction l with
  | nil => exact le_rfl
  | cons x l ih =>
    simp only [tally_cons]
    exact add_le_add (h x List.mem_cons_self) (ih fun y hy => h y (List.mem_cons_of_mem _ hy))

/-- an item that is held once is in one cell -/
theorem index_unique {f : α → Multiset ι} {l : List α} (h : (tally f l).Nodup) {i j : ℕ} {x y : α}
    (hi : l[i]? = some x) (hj : l[j]? = some y) {t : ι} (hx : t ∈ f x) (hy : t ∈ f y) : i = j := by
  induction l generalizing i j with
  | nil => simp at hi
  | cons a l ih =>
    rw [tally_cons, Multiset.nodup_add] at h
    have hrest : ∀ {k z}, l[k]? = some z → t ∈ f z → t ∈ tally f l :=
      fun hk hz => mem_tally.2 ⟨_, List.mem_of_getElem? hk, hz⟩
    cases i with
    | zero =>
      cases j with
      | zero => rfl
      | succ j =>
        cases hi
        exact absurd (hrest (by simpa using hj) hy) (Multiset.disjoint_left.1 h.2.2 hx)
    | succ i =>
      cases j with
      | zero =>
        cases hj
        exact absurd (hrest (by simpa using hi) hx) (Multiset.disjoint_left.1 h.2.2 hy)
      | succ j => exact congrArg (· + 1) (ih h.2.1 (by simpa using hi) (by simpa using hj))

theorem map_tally {κ : Type*} (f : α → Multiset ι) (g : ι → κ) (l : List α) :
    (tally f l).map g = tally (fun x => (f x).map g) l := by
  induction l with
  | nil => rfl
  | cons x l ih => simp only [tally_cons, Multiset.map_add, ih]

/-- overwriting a cell gives up what it held and takes what is written -/
theorem tally_set (f : α → Multiset ι) {l : List α} {i : ℕ} {x y : α} (h : l[i]? = some x) :
    tally f (l.set i y) + f x = tally f l + f y := by
  induction l generalizing i with
  | nil => simp at h
  | cons a l ih =>
    cases i with
    | zero =>
      simp only [List.getElem?_cons_zero, Option.some.injEq] at h
      subst h
      simp only [List.set_cons_zero, tally_cons]
      abel
    | succ i =>
      have := ih (i := i) (by simpa using h)
      simp only [List.set_cons_succ, tally_cons, add_assoc, this]

/-- overwriting a cell adds what the new value stands for beyond the old one -/
theorem tally_set_add (f : α → Multiset ι) {l : List α} {i : ℕ} {x y : α} {items : Multiset ι} (h : l[i]? = some x)
    (hy : f y = f x + items) : tally f (l.set i y) = tally f l + items := by
  have hset := tally_set f (y := y) h
  apply add_right_cancel (b := f x)
  rw [hset, hy]
  abel

theorem tally_set_same (f : α → Multiset ι) {l : List α} {i : ℕ} {x y : α} (h : l[i]? = some x) (hy : f y = f x) :
    tally f (l.set i y) = tally f l := by
  rw [tally_set_add f h (hy.trans (add_zero _).symm), add_zero]

/-! ## Finite maps -/

variable [DecidableEq α]

/-- the items the entries of a finite map stand for -/
def holdings (f : β → Multiset ι) (m : AList (fun _ : α => β)) : Multiset ι := tally (fun e => f e.2) m.entries

omit [DecidableEq α] in
@[simp] theorem holdings_empty (f : β → Multiset ι) : holdings f (∅ : AList (fun _ : α => β)) = 0 := rfl

theorem mem_holdings {f : β → Multiset ι} {m : AList (fun _ : α => β)} {i : ι} :
    i ∈ holdings f m ↔ ∃ k b, m.lookup k = some b ∧ i ∈ f b := by
  rw [holdings, mem_tally]
  constructor
  · rintro ⟨e, he, hi⟩
    exact ⟨e.1, e.2, AList.mem_lookup_iff.2 he, hi⟩
  · rintro ⟨k, b, hb, hi⟩
    exact ⟨⟨k, b⟩, AList.mem_lookup_iff.1 hb, hi⟩

/-- the entries of a map are, up to order, those of one key and the rest -/
theorem entries_perm_erase {m : AList (fun _ : α => β)} {k : α} {b : β} (h : m.lookup k = some b) :
    m.entries.Perm (⟨k, b⟩ :: (m.erase k).entries) := by
  have hk : k ∈ m.entries.keys := by
    rw [← AList.keys, ← AList.mem_keys, ← AList.lookup_isSome, h]; rfl
  obtain ⟨b', l₁, l₂, _, heq, hker⟩ := List.exists_of_kerase hk
  have hb' : b' = b := by
    have : m.lookup k = some b' := AList.mem_lookup_iff.2 (by rw [heq]; simp)
    exact Option.some.inj (this.symm.trans h)
  have herase : (m.erase k).entries = l₁ ++ l₂ := hker
  rw [herase, heq, hb']
  exact List.perm_middle

theorem holdings_erase (f : β → Multiset ι) {m : AList (fun _ : α => β)} {k : α} {b : β} (h : m.lookup k = some b) :
    holdings f m = f b + holdings f (m.erase k) := by
  simp only [holdings, tally_perm _ (entries_perm_erase h), tally_cons]

theorem holdings_insert (f : β → Multiset ι) {m : AList (fun _ : α => β)} {k : α} (b : β) (h : m.lookup k = none) :
    holdings f (m.insert k b) = f b + holdings f m := by
  simp only [holdings, AList.entries_insert_of_notMem (AList.lookup_eq_none.1 h), tally_cons]

theorem holdings_replace (f : β → Multiset ι) {m : AList (fun _ : α => β)} {k : α} {b : β} (b' : β)
    (h : m.lookup k = some b) : holdings f (m.insert k b') + f b = holdings f m + f b' := by
  have herase : (m.insert k b').erase k = m.erase k := by
    apply AList.ext
    change List.kerase k (m.insert k b').entries = List.kerase k m.entries
    simp [AList.entries_insert]
  rw [holdings_erase f (AList.lookup_insert (a := k) (b := b') m), herase, holdings_erase f h]
  abel

/-! ## Number of entries -/

theorem length_keys_insert {m : AList (fun _ : α => β)} {k : α} (b : β) (h : m.lookup k = none) :
    (m.insert k b).keys.length = m.keys.length + 1 := by
  simp [AList.keys_insert, List.erase_of_not_mem (AList.lookup_eq_none.1 h)]

theorem length_keys_replace {m : AList (fun _ : α => β)} {k : α} (b : β) (h : (m.lookup k).isSome) :
    (m.insert k b).keys.length = m.keys.length := by
  have hk : k ∈ m.keys := AList.lookup_isSome.1 h
  have := List.length_pos_of_mem hk
  simp only [AList.keys_insert, List.length_cons, List.length_erase_of_mem hk]
  omega

theorem length_keys_erase_le (m : AList (fun _ : α => β)) (k : α) : (m.erase k).keys.length ≤ m.keys.length := by
  rw [AList.keys_erase]
  exact List.length_erase_le

end NotifyAgent.Lib.Ledger
