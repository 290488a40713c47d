import MailClient.Scroller.HybridSearch

/-!
# The rows of a hybrid search

What a page adds to the rows, what the tasks of the source store, and when the
client stops asking.
-/

namespace MailClient
namespace Scroller

variable {search : HybridSearch} {t : SearchTable} {m : LocalMessageId}

/-!
# Rows
-/

namespace SearchTable

theorem last_map_id (t : SearchTable) :
    t.last.map SearchScrollData.localMessageId = t.ids.getLast? := by
  simp [last, ids, List.getLast?_map]

theorem last_of_mem (h : m ∈ t.ids) : exists r, t.last = some r := by
  cases hlast : t.last with
  | some r => exact ⟨r, rfl⟩
  | none =>
      have hnil : t.rows = [] := List.getLast?_eq_none_iff.mp hlast
      simp [ids, hnil] at h

theorem ids_push (t : SearchTable) (m : LocalMessageId) :
    (t.push m).ids = t.ids.filter (fun x => x ≠ m) ++ [m] := by
  simp [ids, push, List.filter_map, Function.comp_def]

theorem mem_ids_push {x : LocalMessageId} :
    x ∈ (t.push m).ids ↔ x = m ∨ x ∈ t.ids := by
  rw [ids_push]
  by_cases h : x = m
  · simp [h]
  · simp [h]

theorem ids_push_new (h : m ∉ t.ids) : (t.push m).ids = t.ids ++ [m] := by
  rw [ids_push, List.filter_eq_self.mpr]
  intro x hx
  have hne : x ≠ m := fun heq => h (heq ▸ hx)
  simpa using hne

theorem mem_foldl_push (hits : List LocalMessageId) {x : LocalMessageId} :
    x ∈ (hits.foldl push t).ids ↔ x ∈ hits ∨ x ∈ t.ids := by
  induction hits generalizing t with
  | nil => simp
  | cons hit rest ih =>
      rw [List.foldl_cons, ih, mem_ids_push, List.mem_cons]
      tauto

theorem getLast_foldl_push (hits : List LocalMessageId) :
    (hits.foldl push t).ids.getLast? = hits.getLast?.or t.ids.getLast? := by
  rcases List.eq_nil_or_concat hits with rfl | ⟨before, hit, rfl⟩
  · rfl
  · rw [List.concat_eq_append, List.foldl_append]
    simp [ids_push]

/-- The display orders count the rows. -/
def Contiguous (t : SearchTable) : Prop :=
  t.rows.map SearchScrollData.displayOrder = List.range t.rows.length

theorem Contiguous.last_order (h : t.Contiguous) {r : SearchScrollData}
    (hlast : t.last = some r) : r.displayOrder + 1 = t.ids.length := by
  have hpos : 0 < t.rows.length := by
    cases hrows : t.rows with
    | nil =>
        simp [last, hrows] at hlast
    | cons r' rest => simp
  have horder := congrArg List.getLast? h
  have hrow : t.rows.getLast? = some r := hlast
  rw [List.getLast?_map, hrow, List.getLast?_range, if_neg (by omega)] at horder
  simp only [Option.map_some, Option.some.injEq] at horder
  rw [ids, List.length_map, horder]
  omega

theorem Contiguous.nextOrder (h : t.Contiguous) :
    t.nextOrder = t.ids.length := by
  cases hlast : t.last with
  | none =>
      have hnil : t.rows = [] := List.getLast?_eq_none_iff.mp hlast
      simp [SearchTable.nextOrder, hlast, ids, hnil]
  | some r =>
      simp [SearchTable.nextOrder, hlast, h.last_order hlast]

theorem Contiguous.push (h : t.Contiguous) (hnew : m ∉ t.ids) :
    (t.push m).Contiguous := by
  have hrows : (t.push m).rows = t.rows ++ [⟨m, t.ids.length⟩] := by
    have hothers :
        t.rows.filter (fun r => r.localMessageId ≠ m) = t.rows := by
      rw [List.filter_eq_self]
      intro r hr
      have hne : r.localMessageId ≠ m :=
        fun heq => hnew (heq ▸ List.mem_map_of_mem hr)
      simpa using hne
    change t.rows.filter (fun r => r.localMessageId ≠ m) ++
      [⟨m, t.nextOrder⟩] = _
    rw [hothers, h.nextOrder]
  have hlength : t.ids.length = t.rows.length := List.length_map _
  unfold Contiguous
  rw [hrows, List.map_append, h, List.length_append, hlength]
  simp [List.range_succ]

end SearchTable

/-!
# Saving a page
-/

namespace HybridSearch

open SearchTable

/-- The rows with the messages of a page that are kept and not yet there. -/
def saved (search : HybridSearch) (t : SearchTable)
    (page : List LocalMessageId) : SearchTable :=
  (page.filter search.kept).foldl addMissing t

theorem saveMessages_getD (search : HybridSearch) (t : SearchTable)
    (page : List LocalMessageId) :
    (search.saveMessages t page).getD t = search.saved t page := by
  unfold saveMessages saved
  dsimp only
  split
  · rename_i hnil
    rw [hnil]
    rfl
  · rfl

theorem ids_foldl_addMissing {messages : List LocalMessageId}
    (h : messages.Nodup) :
    (messages.foldl addMissing t).ids =
      t.ids ++ messages.filter (fun m => m ∉ t.ids) := by
  induction messages generalizing t with
  | nil => simp
  | cons m rest ih =>
      rw [List.foldl_cons, ih h.of_cons]
      unfold addMissing
      split
      · rename_i hmem
        simp [hmem]
      · rename_i hnew
        have hrest : rest.filter (fun x => x ∉ t.ids ++ [m]) =
            rest.filter (fun x => x ∉ t.ids) := by
          refine List.filter_congr ?_
          intro x hx
          have hne : x ≠ m := fun heq => (List.nodup_cons.mp h).left (heq ▸ hx)
          simp [hne]
        rw [ids_push_new hnew, hrest]
        simp [hnew]

theorem contiguous_foldl_addMissing (h : t.Contiguous)
    (messages : List LocalMessageId) :
    (messages.foldl addMissing t).Contiguous := by
  induction messages generalizing t with
  | nil => exact h
  | cons m rest ih =>
      rw [List.foldl_cons]
      refine ih ?_
      unfold addMissing
      split
      · exact h
      · rename_i hnew
        exact h.push hnew

theorem mem_saved {page : List LocalMessageId} (h : page.Nodup)
    {x : LocalMessageId} :
    x ∈ (search.saved t page).ids ↔
      x ∈ t.ids ∨ (x ∈ page ∧ search.kept x = true) := by
  rw [saved, ids_foldl_addMissing (h.filter _), List.mem_append]
  simp only [List.mem_filter, decide_eq_true_eq]
  tauto

theorem ids_saved {page : List LocalMessageId} (h : page.Nodup) :
    (search.saved t page).ids =
      t.ids ++ (page.filter search.kept).filter (fun m => m ∉ t.ids) :=
  ids_foldl_addMissing (h.filter _)

theorem saved_nil : search.saved t [] = t := rfl

theorem upTo_last {r : SearchScrollData} (h : t.last = some r) :
    search.upTo t r.displayOrder =
      t.ids.filter (fun m => ¬ search.deleted m) := by
  unfold upTo ids
  rw [List.filter_map]
  congr 1
  refine List.filter_congr ?_
  intro r' hr'
  have hle := lt_nextOrder hr'
  rw [nextOrder, h] at hle
  simp only [Option.map_some, Option.getD_some] at hle
  simp [Nat.le_of_lt_succ hle]

/-!
# The page after an anchor
-/

/-- The results that come after a message, as many as a page has. -/
def followers (search : HybridSearch) (anchor : LocalMessageId) :
    List LocalMessageId :=
  (if anchor ∈ search.server then
    (search.server.dropWhile (fun m => m ≠ anchor)).tail
  else
    search.server.dropWhile (fun m =>
      search.time anchor < search.time m)).take search.pageSize

theorem servedFrom_subset (anchor : LocalMessageId) :
    (search.servedFrom anchor).Sublist search.server := by
  unfold servedFrom
  split
  · exact List.dropWhile_sublist _
  · exact List.dropWhile_sublist _

theorem followers_nodup (anchor : LocalMessageId) :
    (search.followers anchor).Nodup := by
  refine search.server_nodup.sublist ((List.take_sublist _ _).trans ?_)
  split
  · exact (List.tail_sublist _).trans (List.dropWhile_sublist _)
  · exact List.dropWhile_sublist _

theorem trimPage_servedFrom {anchor : LocalMessageId} {anchorId : MessageId}
    (hid : search.remoteId anchor = some anchorId) :
    search.trimPage anchorId
        ((search.servedFrom anchor).take (search.pageSize + 1)) =
      search.followers anchor := by
  unfold followers
  by_cases hmem : anchor ∈ search.server
  · have hserved : search.servedFrom anchor =
        anchor :: (search.server.dropWhile (fun m => m ≠ anchor)).tail := by
      rw [servedFrom, if_pos hmem]
      have hne : search.server.dropWhile (fun m => m ≠ anchor) ≠ [] := by
        intro hnil
        rw [List.dropWhile_eq_nil_iff] at hnil
        simpa using hnil anchor hmem
      have hhead := List.head_dropWhile_not (fun m => decide (m ≠ anchor)) hne
      have hanchor : (search.server.dropWhile (fun m => m ≠ anchor)).head hne =
          anchor := by
        simpa using hhead
      have hcons := List.cons_head_tail hne
      rw [hanchor] at hcons
      exact hcons.symm
    rw [if_pos hmem, hserved, List.take_succ_cons, trimPage, if_pos hid]
  · have hserved : search.servedFrom anchor = search.server.dropWhile
        (fun m => search.time anchor < search.time m) := by
      rw [servedFrom, if_neg hmem]
    rw [if_neg hmem, <- hserved]
    cases hpage : search.servedFrom anchor with
    | nil => simp [trimPage]
    | cons m rest =>
        have hserver : m ∈ search.server :=
          (servedFrom_subset anchor).mem (hpage ▸ List.mem_cons_self)
        have hother : search.remoteId m ≠ some anchorId := by
          intro hsame
          have heq := search.remoteId_unique m anchor
            (search.server_remoteId m hserver) (hsame.trans hid.symm)
          exact hmem (heq ▸ hserver)
        rw [List.take_succ_cons, trimPage, if_neg hother]
        split
        · rename_i hlong
          simp only [List.length_cons, List.length_take] at hlong
          rw [<- List.take_succ_cons, List.dropLast_eq_take, List.take_take]
          congr 1
          simp only [List.length_take, List.length_cons]
          omega
        · rename_i hshort
          simp only [List.length_cons, List.length_take, not_lt] at hshort
          rw [<- List.take_succ_cons, List.take_of_length_le,
            List.take_of_length_le]
          · simp
            omega
          · simp
            omega

end HybridSearch

/-!
# Tasks
-/

namespace HybridSource

open HybridSearch

variable {s : HybridSource}

theorem syncFirstPage_eq (search : HybridSearch) (s : HybridSource)
    (deduped : Bool) :
    exists total, s.syncFirstPage search deduped =
      { s with
        total := total
        table := search.saved s.table
          (search.server.take search.pageSize) } := by
  have hsaved := saveMessages_getD search s.table
    (search.server.take search.pageSize)
  unfold syncFirstPage
  dsimp only
  split
  · rename_i hnil
    rw [hnil, saved_nil]
    exact ⟨_, rfl⟩
  · split
    · rename_i hnone
      rw [hnone] at hsaved
      rw [<- hsaved]
      exact ⟨_, rfl⟩
    · rename_i table hsome
      rw [hsome] at hsaved
      rw [<- hsaved]
      split
      · exact ⟨_, rfl⟩
      · exact ⟨_, rfl⟩

theorem syncNextPage_eq {last : SearchScrollData} {anchorId : MessageId}
    (hlast : s.table.last = some last)
    (hid : search.remoteId last.localMessageId = some anchorId) :
    s.syncNextPage search =
      { s with
        table := search.saved s.table
          (search.followers last.localMessageId) } := by
  have hsaved := saveMessages_getD search s.table
    (search.followers last.localMessageId)
  unfold syncNextPage
  rw [hlast]
  dsimp only
  rw [hid]
  dsimp only
  rw [trimPage_servedFrom hid]
  split
  · rename_i hnil
    rw [hnil, saved_nil]
  · split
    · rename_i hnone
      rw [hnone] at hsaved
      rw [<- hsaved]
      rfl
    · rename_i table hsome
      rw [hsome] at hsaved
      rw [<- hsaved]
      rfl

theorem syncNextPage_no_remoteId {last : SearchScrollData}
    (hlast : s.table.last = some last)
    (hid : search.remoteId last.localMessageId = none) :
    s.syncNextPage search = s := by
  simp [syncNextPage, hlast, hid]

/-!
# Calls
-/

theorem seenCount_le_allTotal (s : HybridSource) :
    s.seenCount search ≤ s.allTotal search := by
  unfold seenCount allTotal
  cases s.resolveLast with
  | none => simp
  | some last =>
      dsimp only
      split
      · split
        · exact Nat.le_trans (Nat.le_add_right _ _) (Nat.le_max_right _ _)
        · exact Nat.le_max_right _ _
      · exact Nat.zero_le _

theorem answered_returnedNothing {state : HybridSourceState} {done : Bool}
    {items : List LocalMessageId} {remote : Bool} :
    (s.answered state done items remote).returnedNothing = true ↔
      items = [] := by
  simp only [returnedNothing, answered, decide_eq_true_eq, Option.some.injEq,
    Prod.mk.injEq]
  constructor
  · exact fun h => h.left
  · intro h
    simp [h]

theorem answered_task {state : HybridSourceState} {done : Bool}
    {items : List LocalMessageId} (h : items ≠ []) :
    (s.answered state done items true).task = some SearchTask.nextPage := by
  simp only [answered]
  rw [if_pos ⟨h, True.intro⟩]

end HybridSource

namespace HybridSearch

open HybridSource SearchTable

theorem calls_succ (n : Nat) :
    search.calls (n + 1) = (search.calls n).round search :=
  Function.iterate_succ_apply' _ _ _

/-- What the client is after: nothing that is kept is missing when it stops. -/
structure LosesNothing (search : HybridSearch) : Prop where
  stops : exists n, (search.calls n).returnedNothing = true
  stored : forall n, (search.calls n).returnedNothing = true ->
    forall m, m ∈ search.hits ∨ (m ∈ search.server ∧ search.kept m = true) ->
      (search.calls n).table.ids.count m = 1
  seen : forall n,
    (search.calls n).seenCount search ≤ (search.calls n).allTotal search ∧
    ((search.calls n).finishTask search).seenCount search ≤
      ((search.calls n).finishTask search).allTotal search

theorem losesNothing_iff_of_stop {k : Nat}
    (hstop : (search.calls k).returnedNothing = true)
    (hbefore : forall n, n < k -> (search.calls n).returnedNothing = false) :
    search.LosesNothing ↔
      forall m, m ∈ search.hits ∨ (m ∈ search.server ∧ search.kept m = true) ->
        m ∈ (search.calls k).table.ids := by
  have hsame : forall n, search.calls (k + n) = search.calls k := by
    intro n
    induction n with
    | zero => rfl
    | succ n ih =>
        rw [<- Nat.add_assoc, calls_succ, ih,
          HybridSource.round, if_pos hstop]
  constructor
  · intro h m hm
    have hcount := h.stored k hstop m hm
    exact List.count_pos_iff.mp (by omega)
  · intro h
    refine ⟨⟨k, hstop⟩, ?_, fun n =>
      ⟨seenCount_le_allTotal _, seenCount_le_allTotal _⟩⟩
    intro n hn m hm
    have hkn : k ≤ n := by
      by_contra hlt
      rw [hbefore n (by omega)] at hn
      cases hn
    rcases Nat.exists_eq_add_of_le hkn with ⟨d, rfl⟩
    rw [hsame d]
    exact List.count_eq_one_of_mem (search.calls k).table.ids_nodup (h m hm)

end HybridSearch

end Scroller
end MailClient
