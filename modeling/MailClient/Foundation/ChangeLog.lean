import Mathlib.Data.List.Basic

/-!
# A log of changes

A table is given by the changes that were made to it, each of which sets or
deletes the value of one key.  A reader that has seen only the first changes has
the value of a key as it is now unless one of the others is about it.
-/

namespace MailClient
namespace Foundation

section ChangeLog

variable {key value : Type} {n m : Nat} {k : key}

/-- The value is missing if the key is deleted. -/
structure TableChange (key value : Type) where
  key : key
  value : Option value
  deriving DecidableEq, Repr

variable {log later : List (TableChange key value)}

theorem mem_drop_of_le (hle : n <= m) (h : k ∈ (log.drop m).map TableChange.key) :
    k ∈ (log.drop n).map TableChange.key :=
  ((List.drop_sublist_drop_left log hle).map TableChange.key).subset h

theorem mem_drop_cases (h : k ∈ (log.drop n).map TableChange.key) :
    k ∈ ((log.drop n).take (m - n)).map TableChange.key ∨
      k ∈ (log.drop m).map TableChange.key := by
  rw [<- List.take_append_drop (m - n) (log.drop n), List.map_append,
    List.mem_append, List.drop_drop] at h
  rcases h with hbefore | hafter
  · exact Or.inl hbefore
  · have hle : m <= n + (m - n) := by omega
    exact Or.inr (mem_drop_of_le hle hafter)

variable [DecidableEq key]

def latestValue (log : List (TableChange key value)) (k : key) : Option value :=
  log.foldl (fun v c => if c.key = k then c.value else v) none

theorem latestValue_append_of_not_mem (log : List (TableChange key value))
    (h : k ∉ later.map TableChange.key) :
    latestValue (log ++ later) k = latestValue log k := by
  unfold latestValue
  rw [List.foldl_append]
  generalize log.foldl _ _ = v
  induction later generalizing v with
  | nil => rfl
  | cons c rest ih =>
      rw [List.map_cons, List.mem_cons, not_or] at h
      rw [List.foldl_cons, if_neg (fun hkey => h.left hkey.symm)]
      exact ih h.right v

theorem latestValue_concat (log : List (TableChange key value))
    (c : TableChange key value) : latestValue (log ++ [c]) c.key = c.value := by
  unfold latestValue
  rw [List.foldl_append, List.foldl_cons, List.foldl_nil, if_pos rfl]

theorem latestValue_take_of_not_mem (h : k ∉ (log.drop n).map TableChange.key) :
    latestValue (log.take n) k = latestValue log k := by
  have hsplit := latestValue_append_of_not_mem (log.take n) h
  rw [List.take_append_drop] at hsplit
  exact hsplit.symm

end ChangeLog

end Foundation
end MailClient
