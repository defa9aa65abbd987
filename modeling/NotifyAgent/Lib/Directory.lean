/-
A directory as a map from names to contents, and the operations of a write-then-rename protocol on it. Two directories
are the same if they have the same files with the same contents.

- `put_eq_self`: writing changes nothing exactly if the file was there with that content;
- `rename_put`: a file that was written and then renamed is the file of the new name, and the old name is free;
- `put_remove_eq_put`: giving up another name is seen exactly if there was a file of it.
-/
import Mathlib.Tactic

namespace NotifyAgent.Lib.Directory

variable {ν β : Type*} [DecidableEq ν]

/-- the content of each file -/
abbrev Dir (ν β : Type*) := ν → Option β

def put (d : Dir ν β) (name : ν) (content : β) : Dir ν β := Function.update d name (some content)

def remove (d : Dir ν β) (name : ν) : Dir ν β := Function.update d name none

/-- rename replaces a file of the new name; without a file of the old name it does nothing -/
def rename (d : Dir ν β) (old new : ν) : Dir ν β :=
  match d old with
  | none => d
  | some content => put (remove d old) new content

variable {d : Dir ν β} {name other : ν} {content : β}

@[simp] theorem put_same : put d name content name = some content := Function.update_self ..

@[simp] theorem put_other (h : other ≠ name) : put d name content other = d other := Function.update_of_ne h ..

@[simp] theorem remove_same : remove d name name = none := Function.update_self ..

@[simp] theorem remove_other (h : other ≠ name) : remove d name other = d other := Function.update_of_ne h ..

theorem put_eq_self : put d name content = d ↔ d name = some content :=
  Function.update_eq_self_iff.trans eq_comm

theorem remove_eq_self : remove d name = d ↔ d name = none :=
  Function.update_eq_self_iff.trans eq_comm

theorem rename_put : rename (put d name content) name other = put (remove d name) other content := by
  have hremove : remove (put d name content) name = remove d name := Function.update_idem ..
  rw [rename, put_same]
  exact congrArg (fun e => put e other content) hremove

theorem put_remove_eq_put (h : other ≠ name) :
    put (remove d name) other content = put d other content ↔ d name = none := by
  constructor
  · intro heq
    have hat := congrFun heq name
    rw [put_other h.symm, put_other h.symm, remove_same] at hat
    exact hat.symm
  · intro hnone
    rw [remove_eq_self.2 hnone]

end NotifyAgent.Lib.Directory
