import Mathlib.Data.List.Nodup

/-!
# Tables with a primary key

The rows of a table come with the fact that no two of them have the same key.
Rows are deleted and changed by their keys.
-/

namespace MailClient
namespace Foundation

structure Table (row : Type) {key : Type} (keyOf : row -> key) where
  rows : List row
  unique : (rows.map keyOf).Nodup

namespace Table

variable {row key : Type} {keyOf : row -> key}

def keys (t : Table row keyOf) : List key :=
  t.rows.map keyOf

theorem eq_of_key {t : Table row keyOf} {r r' : row} (hr : r ∈ t.rows)
    (hr' : r' ∈ t.rows) (hkey : keyOf r = keyOf r') : r = r' :=
  List.inj_on_of_nodup_map t.unique hr hr' hkey

theorem nodup_filterMap {f : row -> Option row} {rows : List row}
    (hf : forall r r', f r = some r' -> keyOf r' = keyOf r)
    (hunique : (rows.map keyOf).Nodup) :
    ((rows.filterMap f).map keyOf).Nodup := by
  refine hunique.sublist ?_
  induction rows with
  | nil => exact List.Sublist.refl _
  | cons r rest ih =>
      have hrest := ih (List.nodup_cons.mp hunique).right
      cases hr : f r with
      | none =>
          rw [List.filterMap_cons_none hr]
          exact hrest.cons _
      | some r' =>
          rw [List.filterMap_cons_some hr, List.map_cons, List.map_cons,
            hf r r' hr]
          exact hrest.cons_cons _

/-- Some rows are deleted and some changed. -/
def filterMap (t : Table row keyOf) (f : row -> Option row)
    (hf : forall r r', f r = some r' -> keyOf r' = keyOf r) :
    Table row keyOf where
  rows := t.rows.filterMap f
  unique := nodup_filterMap hf t.unique

theorem key_not_mem_filterMap {t : Table row keyOf} {f : row -> Option row}
    (hf : forall r r', f r = some r' -> keyOf r' = keyOf r) {r : row}
    (hr : r ∈ t.rows) (hnone : f r = none) :
    keyOf r ∉ (t.filterMap f hf).keys := by
  intro hmem
  rcases List.mem_map.mp hmem with ⟨r', hr', hkey⟩
  rcases List.mem_filterMap.mp hr' with ⟨r'', hr'', hsome⟩
  have heq := eq_of_key hr'' hr ((hf r'' r' hsome).symm.trans hkey)
  rw [heq, hnone] at hsome
  cases hsome

section Keys

variable [DecidableEq key]

def delete (k : key) (t : Table row keyOf) : Table row keyOf :=
  t.filterMap (fun r => if keyOf r = k then none else some r) (by
    intro r r' h
    split at h
    · cases h
    · cases h
      rfl)

def modify (k : key) (f : row -> row) (hf : forall r, keyOf (f r) = keyOf r)
    (t : Table row keyOf) : Table row keyOf :=
  t.filterMap (fun r => some (if keyOf r = k then f r else r)) (by
    intro r r' h
    cases h
    split
    · exact hf r
    · rfl)

def deleteAll (ks : List key) (t : Table row keyOf) : Table row keyOf :=
  ks.foldl (fun t k => t.delete k) t

def modifyAll (ks : List key) (f : row -> row)
    (hf : forall r, keyOf (f r) = keyOf r) (t : Table row keyOf) :
    Table row keyOf :=
  ks.foldl (fun t k => t.modify k f hf) t

variable {t : Table row keyOf} {k : key} {ks : List key} {f : row -> row}
  {hf : forall r, keyOf (f r) = keyOf r}

theorem rows_delete :
    (t.delete k).rows = t.rows.filter (fun r => keyOf r ≠ k) := by
  unfold delete filterMap
  rw [<- List.filterMap_eq_filter]
  refine List.filterMap_congr ?_
  intro r _
  by_cases hkey : keyOf r = k
  · simp [hkey, Option.guard]
  · simp [hkey, Option.guard]

theorem rows_deleteAll :
    (t.deleteAll ks).rows = t.rows.filter (fun r => keyOf r ∉ ks) := by
  induction ks generalizing t with
  | nil => simp [deleteAll]
  | cons k rest ih =>
      change ((t.delete k).deleteAll rest).rows = _
      rw [ih, rows_delete, List.filter_filter]
      refine List.filter_congr ?_
      intro r _
      simp [Bool.and_comm]

theorem rows_modify :
    (t.modify k f hf).rows =
      t.rows.map (fun r => if keyOf r = k then f r else r) := by
  change t.rows.filterMap (some ∘ fun r => if keyOf r = k then f r else r) = _
  rw [List.filterMap_eq_map]

theorem rows_modifyAll (hks : ks.Nodup) :
    (t.modifyAll ks f hf).rows =
      t.rows.map (fun r => if keyOf r ∈ ks then f r else r) := by
  induction ks generalizing t with
  | nil => simp [modifyAll]
  | cons k rest ih =>
      have hks' := List.nodup_cons.mp hks
      change ((t.modify k f hf).modifyAll rest f hf).rows = _
      rw [ih hks'.right, rows_modify, List.map_map]
      refine List.map_congr_left ?_
      intro r _
      by_cases hkey : keyOf r = k
      · simp [hkey, hf, hks'.left]
      · simp [hkey]

theorem exists_modifyAll {p : row -> Prop} (hp : forall r, p r -> p (f r))
    (h : exists r, r ∈ t.rows ∧ p r) :
    exists r, r ∈ (t.modifyAll ks f hf).rows ∧ p r := by
  induction ks generalizing t with
  | nil => exact h
  | cons k rest ih =>
      refine ih (t := t.modify k f hf) ?_
      rcases h with ⟨r, hr, hpr⟩
      rw [rows_modify]
      refine ⟨_, List.mem_map_of_mem hr, ?_⟩
      split
      · exact hp r hpr
      · exact hpr

theorem mem_deleteAll {r : row} :
    r ∈ (t.deleteAll ks).rows ↔ r ∈ t.rows ∧ keyOf r ∉ ks := by
  rw [rows_deleteAll, List.mem_filter, decide_eq_true_eq]

end Keys

end Table

end Foundation
end MailClient
