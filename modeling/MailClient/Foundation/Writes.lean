import Mathlib.Logic.Function.Basic

/-!
# Writing a list of entries to a table

A table is a function of its key.  The entries of a list are written one after
another, each under its own key, so that of several entries with one key the
last one stays.
-/

namespace MailClient
namespace Foundation

section Writes

variable {entry value : Type} {key : Type} [DecidableEq key]
  {keyOf : entry -> key} {write : entry -> value}

def writeAll (keyOf : entry -> key) (write : entry -> value)
    (table : key -> value) (entries : List entry) : key -> value :=
  entries.foldl (fun table e => Function.update table (keyOf e) (write e)) table

theorem writeAll_cons (table : key -> value) (e : entry) (entries : List entry) :
    writeAll keyOf write table (e :: entries) =
      writeAll keyOf write (Function.update table (keyOf e) (write e)) entries :=
  rfl

theorem writeAll_append (table : key -> value) (entries rest : List entry) :
    writeAll keyOf write table (entries ++ rest) =
      writeAll keyOf write (writeAll keyOf write table entries) rest :=
  List.foldl_append

theorem writeAll_congr {table table' : key -> value} {entries : List entry}
    {k : key} (h : table k = table' k) :
    writeAll keyOf write table entries k =
      writeAll keyOf write table' entries k := by
  induction entries generalizing table table' with
  | nil => exact h
  | cons first rest ih =>
      rw [writeAll_cons, writeAll_cons]
      apply ih
      rw [Function.update_apply, Function.update_apply, h]

theorem writeAll_of_not_mem {entries : List entry} {k : key}
    (h : forall e, e ∈ entries -> keyOf e ≠ k) (table : key -> value) :
    writeAll keyOf write table entries k = table k := by
  induction entries generalizing table with
  | nil => rfl
  | cons first rest ih =>
      rw [writeAll_cons, ih (fun e he => h e (List.mem_cons_of_mem first he))]
      exact Function.update_of_ne (h first List.mem_cons_self).symm _ _

theorem writeAll_of_last {entries rest : List entry} {e : entry}
    (h : forall e', e' ∈ rest -> keyOf e' ≠ keyOf e) (table : key -> value) :
    writeAll keyOf write table (entries ++ e :: rest) (keyOf e) = write e := by
  rw [writeAll_append, writeAll_cons, writeAll_of_not_mem h,
    Function.update_self]

theorem exists_writeAll {entries : List entry} {k : key}
    (h : exists e, e ∈ entries ∧ keyOf e = k) (table : key -> value) :
    exists e, e ∈ entries ∧ keyOf e = k ∧
      writeAll keyOf write table entries k = write e := by
  induction entries generalizing table with
  | nil =>
      rcases h with ⟨e, he, _⟩
      cases he
  | cons first rest ih =>
      rw [writeAll_cons]
      by_cases hrest : exists e, e ∈ rest ∧ keyOf e = k
      · rcases ih hrest (Function.update table (keyOf first) (write first)) with
          ⟨e, he, hkey, hwritten⟩
        exact ⟨e, List.mem_cons_of_mem first he, hkey, hwritten⟩
      · have hfirst : keyOf first = k := by
          rcases h with ⟨e, he, hkey⟩
          rcases List.mem_cons.mp he with heq | hmem
          · exact heq ▸ hkey
          · exact absurd ⟨e, hmem, hkey⟩ hrest
        refine ⟨first, List.mem_cons_self, hfirst, ?_⟩
        rw [writeAll_of_not_mem (fun e he hkey => hrest ⟨e, he, hkey⟩), hfirst,
          Function.update_self]

theorem writeAll_of_mem {entries : List entry} {e : entry} (he : e ∈ entries)
    (honly : forall e', e' ∈ entries -> keyOf e' = keyOf e -> e' = e)
    (table : key -> value) :
    writeAll keyOf write table entries (keyOf e) = write e := by
  rcases exists_writeAll ⟨e, he, rfl⟩ table with ⟨e', he', hkey, hwritten⟩
  rw [hwritten, honly e' he' hkey]

end Writes

end Foundation
end MailClient
