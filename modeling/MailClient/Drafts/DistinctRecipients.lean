import Mathlib.Data.List.Flatten
import Mathlib.Data.List.ModifyLast
import MailClient.Drafts.Recipients

/-!
# Addresses that are in a list once

Every operation keeps the addresses of a list apart, but for a group that is
added with an address twice: its entries are compared with the list only.
-/

namespace MailClient
namespace Drafts

namespace RecipientList

variable {list list' : RecipientList} {name : NonEmptyString}
  {isValid : String -> Bool}

/-- No address twice, and no group twice. -/
structure Distinct (list : RecipientList) : Prop where
  emails : list.emails.Nodup
  groups : list.groupNames.Nodup

/-!
# What operations leave
-/

/-- Nothing is added, and what is left stands in the same order. -/
structure Shrinks (list list' : RecipientList) : Prop where
  emails : list'.emails.Sublist list.emails
  groups : list'.groupNames.Sublist list.groupNames

theorem Shrinks.of_eq (hemails : list'.emails = list.emails)
    (hgroups : list'.groupNames = list.groupNames) : Shrinks list list' := by
  constructor
  · rw [hemails]
  · rw [hgroups]

theorem Shrinks.refl (list : RecipientList) : Shrinks list list :=
  Shrinks.of_eq rfl rfl

theorem Shrinks.trans {list'' : RecipientList} (h : Shrinks list list')
    (h' : Shrinks list' list'') : Shrinks list list'' :=
  ⟨h'.emails.trans h.emails, h'.groups.trans h.groups⟩

theorem Distinct.shrink (h : Distinct list) (hshrinks : Shrinks list list') :
    Distinct list' :=
  ⟨h.emails.sublist hshrinks.emails, h.groups.sublist hshrinks.groups⟩

theorem emails_cons (r : Recipient) (rs : List Recipient) :
    emails ⟨r :: rs⟩ = r.all.map SingleRecipient.email ++ emails ⟨rs⟩ := by
  unfold emails all
  rw [List.flatMap_cons, List.map_append]

theorem emails_append (rs rs' : List Recipient) :
    emails ⟨rs ++ rs'⟩ = emails ⟨rs⟩ ++ emails ⟨rs'⟩ := by
  unfold emails all
  rw [List.flatMap_append, List.map_append]

theorem groupNames_append (rs rs' : List Recipient) :
    groupNames ⟨rs ++ rs'⟩ = groupNames ⟨rs⟩ ++ groupNames ⟨rs'⟩ :=
  List.filterMap_append

theorem shrinks_filter (p : Recipient -> Bool) (list : RecipientList) :
    Shrinks list ⟨list.recipients.filter p⟩ := by
  constructor
  · exact ((List.filter_sublist).flatMap _).map _
  · exact (List.filter_sublist).filterMap _

theorem shrinks_mapAll {f : SingleRecipient -> SingleRecipient}
    (hf : forall s, (f s).email = s.email) (list : RecipientList) :
    Shrinks list ⟨list.recipients.map (Recipient.mapAll f)⟩ := by
  have hall : forall r : Recipient,
      (r.mapAll f).all.map SingleRecipient.email =
        r.all.map SingleRecipient.email := by
    intro r
    cases r with
    | single s => simp [Recipient.mapAll, Recipient.all, hf]
    | group g => simp [Recipient.mapAll, Recipient.all, hf]
  refine Shrinks.of_eq ?_ ?_
  · unfold emails all
    rw [List.map_flatMap, List.map_flatMap, List.flatMap_map]
    simp only [hall]
  · unfold groupNames
    rw [List.filterMap_map]
    refine List.filterMap_congr ?_
    intro r _
    cases r with
    | single s => rfl
    | group g => rfl

theorem shrinks_modifyGroup {f : GroupRecipient -> GroupRecipient}
    (hname : forall g, (f g).groupName = g.groupName)
    (hf : forall g, ((f g).recipients.map SingleRecipient.email).Sublist
      (g.recipients.map SingleRecipient.email)) (list : RecipientList) :
    Shrinks list ⟨modifyGroup name f list.recipients⟩ := by
  cases list with
  | mk recipients =>
      dsimp only
      induction recipients with
      | nil => exact Shrinks.refl _
      | cons r rest ih =>
          cases r with
          | single s =>
              exact ⟨ih.emails.cons_cons _, ih.groups⟩
          | group g =>
              unfold modifyGroup
              split
              · constructor
                · rw [emails_cons, emails_cons]
                  exact (hf g).append (List.Sublist.refl _)
                · change (((f g).groupName :: groupNames ⟨rest⟩).Sublist
                    (g.groupName :: groupNames ⟨rest⟩))
                  rw [hname]
              · constructor
                · rw [emails_cons, emails_cons]
                  exact (List.Sublist.refl _).append ih.emails
                · exact ih.groups.cons_cons _

theorem map_modifyFirst {f : SingleRecipient -> SingleRecipient}
    {email : String} (hf : forall s, (f s).email = s.email)
    (recipients : List SingleRecipient) :
    (modifyFirst email f recipients).map SingleRecipient.email =
      recipients.map SingleRecipient.email := by
  induction recipients with
  | nil => rfl
  | cons s rest ih =>
      unfold modifyFirst
      split
      · simp [hf]
      · simp [ih]

theorem shrinks_modifyRecipient {f : SingleRecipient -> SingleRecipient}
    {email : String} (hf : forall s, (f s).email = s.email)
    (list : RecipientList) :
    Shrinks list ⟨modifyRecipient email f list.recipients⟩ := by
  cases list with
  | mk recipients =>
      dsimp only
      induction recipients with
      | nil => exact Shrinks.refl _
      | cons r rest ih =>
          cases r with
          | single s =>
              unfold modifyRecipient
              split
              · refine Shrinks.of_eq ?_ rfl
                exact congrArg (fun e => e :: emails ⟨rest⟩) (hf s)
              · exact ⟨ih.emails.cons_cons _, ih.groups⟩
          | group g =>
              unfold modifyRecipient
              split
              · refine Shrinks.of_eq ?_ rfl
                rw [emails_cons, emails_cons]
                exact congrArg (fun e => e ++ emails ⟨rest⟩)
                  (map_modifyFirst hf g.recipients)
              · constructor
                · rw [emails_cons, emails_cons]
                  exact (List.Sublist.refl _).append ih.emails
                · exact ih.groups.cons_cons _

theorem shrinks_foldl {update : Type}
    {f : RecipientList -> update -> RecipientList}
    (hf : forall list u, Shrinks list (f list u)) (updates : List update)
    (list : RecipientList) : Shrinks list (updates.foldl f list) := by
  induction updates generalizing list with
  | nil => exact Shrinks.refl list
  | cons u rest ih => exact (hf list u).trans (ih (f list u))

/-!
# What operations add
-/

theorem groupNames_modifyGroup {f : GroupRecipient -> GroupRecipient}
    (hname : forall g, (f g).groupName = g.groupName)
    (recipients : List Recipient) :
    groupNames ⟨modifyGroup name f recipients⟩ = groupNames ⟨recipients⟩ := by
  induction recipients with
  | nil => rfl
  | cons r rest ih =>
      cases r with
      | single s => exact ih
      | group g =>
          unfold modifyGroup
          split
          · exact congrArg (fun n => n :: groupNames ⟨rest⟩) (hname g)
          · exact congrArg (fun n => g.groupName :: n) ih

theorem any_isGroup {recipients : List Recipient} :
    recipients.any (isGroup name) = true ↔ name ∈ groupNames ⟨recipients⟩ := by
  unfold groupNames
  rw [List.any_eq_true, List.mem_filterMap]
  constructor
  · intro h
    rcases h with ⟨r, hr, hgroup⟩
    cases r with
    | single s => cases hgroup
    | group g =>
        exact ⟨Recipient.group g, hr,
          congrArg some (of_decide_eq_true hgroup)⟩
  · intro h
    rcases h with ⟨r, hr, hgroup⟩
    cases r with
    | single s => cases hgroup
    | group g =>
        exact ⟨Recipient.group g, hr,
          decide_eq_true (Option.some.inj hgroup)⟩

theorem emails_modifyGroup {f : GroupRecipient -> GroupRecipient}
    {added : List SingleRecipient}
    (hf : forall g, (f g).recipients = g.recipients ++ added)
    {recipients : List Recipient}
    (hgroup : recipients.any (isGroup name) = true) :
    (emails ⟨modifyGroup name f recipients⟩).Perm
      (emails ⟨recipients⟩ ++ added.map SingleRecipient.email) := by
  induction recipients with
  | nil => cases hgroup
  | cons r rest ih =>
      cases r with
      | single s =>
          refine (ih ?_).cons _
          simpa [isGroup] using hgroup
      | group g =>
          unfold modifyGroup
          split
          · rw [emails_cons, emails_cons]
            change (((f g).recipients.map SingleRecipient.email) ++ _).Perm _
            rw [hf, List.map_append, List.append_assoc, List.append_assoc]
            exact List.perm_append_comm.append_left _
          · rename_i hne
            rw [emails_cons, emails_cons, List.append_assoc]
            refine (ih ?_).append_left _
            simpa [isGroup, hne] using hgroup

theorem emails_getOrCreateGroup :
    (list.getOrCreateGroup name).emails = list.emails := by
  unfold getOrCreateGroup
  split
  · rfl
  · rw [emails_append]
    exact List.append_nil _

theorem groupNames_getOrCreateGroup :
    (list.getOrCreateGroup name).groupNames =
      if name ∈ list.groupNames then list.groupNames
      else list.groupNames ++ [name] := by
  unfold getOrCreateGroup
  rw [if_congr any_isGroup rfl rfl]
  split
  · rfl
  · rw [groupNames_append]
    rfl

theorem mem_getOrCreateGroup : name ∈ (list.getOrCreateGroup name).groupNames := by
  rw [groupNames_getOrCreateGroup]
  split
  · assumption
  · exact List.mem_append_right _ (List.mem_singleton_self name)

section Added

variable {entries : List RecipientEntry} {total : Nat}

theorem emails_addGroup :
    ((list.addGroup isValid name entries total).1.emails).Perm
      (list.emails ++
        (list.freshEntries entries).map RecipientEntry.email) := by
  have hadded : ((list.freshEntries entries).map
      (singleRecipient isValid ValidationState.unchecked)).map
        SingleRecipient.email =
          (list.freshEntries entries).map RecipientEntry.email := by
    rw [List.map_map]
    rfl
  have hgroup : (list.getOrCreateGroup name).recipients.any (isGroup name) =
      true := any_isGroup.mpr mem_getOrCreateGroup
  rw [<- hadded, <- @emails_getOrCreateGroup list name]
  exact emails_modifyGroup (fun _ => rfl) hgroup

theorem groupNames_addGroup (h : list.groupNames.Nodup) :
    (list.addGroup isValid name entries total).1.groupNames.Nodup := by
  have hnames : (list.addGroup isValid name entries total).1.groupNames =
      (list.getOrCreateGroup name).groupNames := by
    apply groupNames_modifyGroup
    intro _
    rfl
  rw [hnames, groupNames_getOrCreateGroup]
  split
  · exact h
  · rename_i hout
    rw [List.nodup_append]
    refine ⟨h, List.nodup_singleton name, ?_⟩
    intro a ha b hb hab
    rw [hab, List.mem_singleton.mp hb] at ha
    exact hout ha

theorem addGroup_distinct (h : Distinct list) :
    Distinct (list.addGroup isValid name entries total).1 ↔
      ((list.freshEntries entries).map RecipientEntry.email).Nodup := by
  have hapart : forall email, email ∈ list.emails ->
      email ∉ (list.freshEntries entries).map RecipientEntry.email := by
    intro email hold hnew
    rcases List.mem_map.mp hnew with ⟨entry, hentry, heq⟩
    have hfresh := (List.mem_filter.mp hentry).right
    rw [Bool.not_eq_true', heq, isDuplicateAddress_iff.mpr hold] at hfresh
    cases hfresh
  constructor
  · intro hdistinct
    have hnodup := emails_addGroup.nodup_iff.mp hdistinct.emails
    exact (List.nodup_append.mp hnodup).right.left
  · intro hfresh
    refine ⟨emails_addGroup.nodup_iff.mpr ?_, groupNames_addGroup h.groups⟩
    rw [List.nodup_append]
    refine ⟨h.emails, hfresh, ?_⟩
    intro a ha b hb hab
    exact hapart a ha (hab ▸ hb)

end Added

/-!
# Operations
-/

/-- `validating` stands for the operations of `ValidatingRecipientList`. -/
inductive Op where
  | addSingle (validating : Bool) (entry : RecipientEntry)
  | addGroup (validating : Bool) (name : NonEmptyString)
      (entries : List RecipientEntry) (total : Nat)
  | removeSingle (email : String)
  | removeGroup (name : NonEmptyString)
  | removeGroupRecipients (name : NonEmptyString) (emails : List String)
  | updateValidation (updates : List (String × ValidationState))
  | updatePrivacyLocks (updates : List (String × PrivacyLockState))
  | checkAll
  | recalculateAllPrivacyLocks

namespace Op

/-- The list afterwards, and the entries reported as duplicates. -/
def apply (isValid : String -> Bool) (op : Op) (list : RecipientList) :
    RecipientList × List RecipientEntry :=
  match op with
  | addSingle validating entry =>
      match if validating then ValidatingRecipientList.addSingle isValid entry list
        else RecipientList.addSingle isValid entry list with
      | Except.ok list => (list, [])
      | Except.error _ => (list, [entry])
  | addGroup validating name entries total =>
      if validating then
        ValidatingRecipientList.addGroup isValid name entries total list
      else RecipientList.addGroup isValid name entries total list
  | removeSingle email => (list.removeSingle email, [])
  | removeGroup name => (list.removeGroup name, [])
  | removeGroupRecipients name emails =>
      (list.removeGroupRecipients name emails, [])
  | updateValidation updates => (list.updateValidation updates, [])
  | updatePrivacyLocks updates => (list.updatePrivacyLocks updates, [])
  | checkAll => (list.checkAll, [])
  | recalculateAllPrivacyLocks => (list.recalculateAllPrivacyLocks, [])

/-- The entries that are passed to an operation. -/
def entries : Op -> List RecipientEntry
  | addSingle _ entry => [entry]
  | addGroup _ _ entries _ => entries
  | _ => []

/-- An entry is in the list afterwards, or is reported. -/
def Accounted (isValid : String -> Bool) (op : Op) (list : RecipientList) :
    Prop :=
  forall entry, entry ∈ op.entries ->
    entry ∈ (op.apply isValid list).2 ∨
      exists s, s ∈ (op.apply isValid list).1.all ∧
        s.email = entry.email ∧ s.displayName = entry.name

/-- The new entries of a group have different addresses. -/
def Fresh (list : RecipientList) : Op -> Prop
  | addGroup _ _ entries _ =>
      ((list.freshEntries entries).map RecipientEntry.email).Nodup
  | _ => True

end Op

/-!
# Entries are accounted for
-/

theorem all_cons (r : Recipient) (rs : List Recipient) :
    all ⟨r :: rs⟩ = r.all ++ all ⟨rs⟩ :=
  List.flatMap_cons

theorem mem_modifyGroup {f : GroupRecipient -> GroupRecipient}
    {s : SingleRecipient} (hf : forall g, s ∈ (f g).recipients)
    {recipients : List Recipient}
    (hgroup : recipients.any (isGroup name) = true) :
    s ∈ all ⟨modifyGroup name f recipients⟩ := by
  induction recipients with
  | nil => cases hgroup
  | cons r rest ih =>
      cases r with
      | single s' =>
          refine List.mem_cons_of_mem s' (ih ?_)
          simpa [isGroup] using hgroup
      | group g =>
          unfold modifyGroup
          split
          · rw [all_cons]
            exact List.mem_append_left _ (hf g)
          · rename_i hne
            rw [all_cons]
            refine List.mem_append_right _ (ih ?_)
            simpa [isGroup, hne] using hgroup

theorem mem_modifyGroup_map {f : SingleRecipient -> SingleRecipient}
    {s : SingleRecipient} {recipients : List Recipient}
    (hs : s ∈ all ⟨recipients⟩) :
    s ∈ all ⟨modifyGroup name (fun g =>
        { g with recipients := g.recipients.map f }) recipients⟩ ∨
      f s ∈ all ⟨modifyGroup name (fun g =>
        { g with recipients := g.recipients.map f }) recipients⟩ := by
  induction recipients with
  | nil => cases hs
  | cons r rest ih =>
      rw [all_cons, List.mem_append] at hs
      cases r with
      | single s' =>
          rcases hs with hs | hs
          · exact Or.inl (List.mem_append_left _ hs)
          · exact (ih hs).imp (List.mem_cons_of_mem s')
              (List.mem_cons_of_mem s')
      | group g =>
          unfold modifyGroup
          split
          · rw [all_cons]
            rcases hs with hs | hs
            · exact Or.inr (List.mem_append_left _ (List.mem_map_of_mem hs))
            · exact Or.inl (List.mem_append_right _ hs)
          · rw [all_cons]
            rcases hs with hs | hs
            · exact Or.inl (List.mem_append_left _ hs)
            · exact (ih hs).imp (List.mem_append_right _)
                (List.mem_append_right _)

theorem mem_addGroup (isValid : String -> Bool) (name : NonEmptyString)
    (total : Nat) (list : RecipientList) {entries : List RecipientEntry}
    {entry : RecipientEntry} (hentry : entry ∈ entries) :
    entry ∈ (list.addGroup isValid name entries total).2 ∨
      singleRecipient isValid ValidationState.unchecked entry ∈
        (list.addGroup isValid name entries total).1.all := by
  cases hdup : list.isDuplicateAddress entry.email with
  | true => exact Or.inl (List.mem_filter.mpr ⟨hentry, hdup⟩)
  | false =>
      right
      refine mem_modifyGroup ?_ (any_isGroup.mpr mem_getOrCreateGroup)
      intro g
      refine List.mem_append_right _ (List.mem_map_of_mem ?_)
      exact List.mem_filter.mpr ⟨hentry, by rw [hdup]; rfl⟩

namespace Op

theorem accounted (isValid : String -> Bool) (op : Op) (list : RecipientList) :
    op.Accounted isValid list := by
  intro entry hentry
  cases op with
  | addSingle validating entry' =>
      rw [List.mem_singleton.mp hentry]
      cases hdup : list.isDuplicateAddress entry'.email with
      | true =>
          left
          cases validating with
          | true => simp [apply, ValidatingRecipientList.addSingle,
              RecipientList.addSingle, addSingleWithState, hdup, Except.map]
          | false => simp [apply, RecipientList.addSingle, addSingleWithState,
              hdup]
      | false =>
          right
          cases validating with
          | true =>
              refine ⟨checkRecipient (singleRecipient isValid
                ValidationState.unchecked entry'), ?_, rfl, rfl⟩
              simp [apply, ValidatingRecipientList.addSingle,
                RecipientList.addSingle, addSingleWithState, hdup, Except.map,
                List.modifyLast_concat, all, Recipient.mapAll, Recipient.all]
          | false =>
              refine ⟨singleRecipient isValid ValidationState.unchecked entry',
                ?_, rfl, rfl⟩
              simp [apply, RecipientList.addSingle, addSingleWithState, hdup,
                all, Recipient.all]
  | addGroup validating name entries total =>
      cases validating with
      | false =>
          exact (mem_addGroup isValid name total list hentry).imp id
            (fun hs => ⟨_, hs, rfl, rfl⟩)
      | true =>
          refine (mem_addGroup isValid name total list hentry).imp id ?_
          intro hs
          rcases mem_modifyGroup_map hs with hs | hs
          · exact ⟨_, hs, rfl, rfl⟩
          · exact ⟨_, hs, rfl, rfl⟩
  | removeSingle email => cases hentry
  | removeGroup name => cases hentry
  | removeGroupRecipients name emails => cases hentry
  | updateValidation updates => cases hentry
  | updatePrivacyLocks updates => cases hentry
  | checkAll => cases hentry
  | recalculateAllPrivacyLocks => cases hentry

/-!
# One operation
-/

theorem distinct_append_single {s : SingleRecipient} (h : Distinct list)
    (hfresh : list.isDuplicateAddress s.email = false) :
    Distinct ⟨list.recipients ++ [Recipient.single s]⟩ := by
  constructor
  · rw [emails_append, List.nodup_append]
    refine ⟨h.emails, List.nodup_singleton s.email, ?_⟩
    intro a ha b hb hab
    have hmem : s.email ∈ list.emails := by
      rw [<- List.mem_singleton.mp hb, <- hab]
      exact ha
    rw [isDuplicateAddress_iff.mpr hmem] at hfresh
    cases hfresh
  · rw [groupNames_append]
    change (list.groupNames ++ []).Nodup
    rw [List.append_nil]
    exact h.groups

theorem addSingle_distinct (h : Distinct list) (validating : Bool)
    (entry : RecipientEntry) :
    Distinct ((addSingle validating entry).apply isValid list).1 := by
  unfold apply
  cases hdup : list.isDuplicateAddress entry.email with
  | true =>
      cases validating with
      | true =>
          simpa [ValidatingRecipientList.addSingle, RecipientList.addSingle,
            addSingleWithState, hdup, Except.map] using h
      | false =>
          simpa [RecipientList.addSingle, addSingleWithState, hdup] using h
  | false =>
      have hadded := distinct_append_single (s :=
        singleRecipient isValid ValidationState.unchecked entry) h hdup
      have hchecked := distinct_append_single (s := checkRecipient
        (singleRecipient isValid ValidationState.unchecked entry)) h hdup
      cases validating with
      | true =>
          simpa [ValidatingRecipientList.addSingle, RecipientList.addSingle,
            addSingleWithState, hdup, Except.map, List.modifyLast_concat,
            Recipient.mapAll] using hchecked
      | false =>
          simpa [RecipientList.addSingle, addSingleWithState, hdup]
            using hadded

theorem emails_modifyGroup_map {f : SingleRecipient -> SingleRecipient}
    (hf : forall s, (f s).email = s.email) (recipients : List Recipient) :
    emails ⟨modifyGroup name (fun g =>
      { g with recipients := g.recipients.map f }) recipients⟩ =
      emails ⟨recipients⟩ := by
  induction recipients with
  | nil => rfl
  | cons r rest ih =>
      cases r with
      | single s => exact congrArg (fun e => s.email :: e) ih
      | group g =>
          unfold modifyGroup
          split
          · rw [emails_cons, emails_cons]
            refine congrArg (fun e => e ++ emails ⟨rest⟩) ?_
            simp [Recipient.all, hf]
          · rw [emails_cons, emails_cons, ih]

theorem addGroup_distinct_iff (h : Distinct list) (validating : Bool)
    (name : NonEmptyString) (entries : List RecipientEntry) (total : Nat) :
    Distinct ((addGroup validating name entries total).apply isValid list).1 ↔
      ((list.freshEntries entries).map RecipientEntry.email).Nodup := by
  rw [<- @addGroup_distinct list name isValid entries total h]
  cases validating with
  | false => exact Iff.rfl
  | true =>
      have hemails : ((addGroup true name entries total).apply isValid
          list).1.emails =
            (list.addGroup isValid name entries total).1.emails := by
        apply emails_modifyGroup_map
        intro _
        rfl
      have hgroups : ((addGroup true name entries total).apply isValid
          list).1.groupNames =
            (list.addGroup isValid name entries total).1.groupNames := by
        apply groupNames_modifyGroup
        intro _
        rfl
      constructor
      · intro hdistinct
        exact hdistinct.shrink (Shrinks.of_eq hemails.symm hgroups.symm)
      · intro hdistinct
        exact hdistinct.shrink (Shrinks.of_eq hemails hgroups)

theorem apply_distinct (h : Distinct list) (op : Op) :
    Distinct (op.apply isValid list).1 ↔ op.Fresh list := by
  cases op with
  | addSingle validating entry =>
      exact iff_of_true (addSingle_distinct h validating entry) trivial
  | addGroup validating name entries total =>
      exact addGroup_distinct_iff h validating name entries total
  | removeSingle email =>
      exact iff_of_true (h.shrink (shrinks_filter _ list)) trivial
  | removeGroup name =>
      exact iff_of_true (h.shrink (shrinks_filter _ list)) trivial
  | removeGroupRecipients name emails =>
      refine iff_of_true (h.shrink ?_) trivial
      apply shrinks_modifyGroup
      · intro _
        rfl
      · intro g
        refine List.Sublist.map _ ?_
        change (emails.foldl _ g.recipients).Sublist g.recipients
        generalize g.recipients = recipients
        induction emails generalizing recipients with
        | nil => exact List.Sublist.refl _
        | cons email rest ih => exact (ih _).trans List.filter_sublist
  | updateValidation updates =>
      refine iff_of_true (h.shrink (shrinks_foldl ?_ updates list)) trivial
      intro list u
      apply shrinks_modifyRecipient
      intro _
      rfl
  | updatePrivacyLocks updates =>
      refine iff_of_true (h.shrink (shrinks_foldl ?_ updates list)) trivial
      intro list u
      apply shrinks_modifyRecipient
      intro _
      rfl
  | checkAll =>
      refine iff_of_true (h.shrink ?_) trivial
      apply shrinks_mapAll
      intro _
      rfl
  | recalculateAllPrivacyLocks =>
      refine iff_of_true (h.shrink ?_) trivial
      apply shrinks_mapAll
      intro _
      rfl

/-!
# Sequences of operations
-/

/-- Every list reached is distinct, and every entry passed is accounted for. -/
def AlwaysDistinct (isValid : String -> Bool) (list : RecipientList) :
    List Op -> Prop
  | [] => Distinct list
  | op :: rest =>
      Distinct list ∧ op.Accounted isValid list ∧
        AlwaysDistinct isValid (op.apply isValid list).1 rest

/-- Groups are only added with entries that are new and different. -/
def AlwaysFresh (isValid : String -> Bool) (list : RecipientList) :
    List Op -> Prop
  | [] => True
  | op :: rest =>
      op.Fresh list ∧ AlwaysFresh isValid (op.apply isValid list).1 rest

theorem AlwaysDistinct.distinct {ops : List Op}
    (h : AlwaysDistinct isValid list ops) : Distinct list := by
  cases ops with
  | nil => exact h
  | cons op rest => exact h.left

theorem alwaysDistinct_iff (h : Distinct list) (ops : List Op) :
    AlwaysDistinct isValid list ops ↔ AlwaysFresh isValid list ops := by
  induction ops generalizing list with
  | nil => exact iff_of_true h trivial
  | cons op rest ih =>
      constructor
      · intro hdistinct
        have hnext := hdistinct.right.right.distinct
        exact ⟨(apply_distinct h op).mp hnext,
          (ih hnext).mp hdistinct.right.right⟩
      · intro hfresh
        have hnext : Distinct (op.apply isValid list).1 :=
          (apply_distinct h op).mpr hfresh.left
        exact ⟨h, accounted isValid op list, (ih hnext).mpr hfresh.right⟩

theorem distinct_iff_fresh (isValid : String -> Bool) (ops : List Op) :
    AlwaysDistinct isValid new ops ↔ AlwaysFresh isValid new ops := by
  have hnew : Distinct new := by
    constructor
    · exact List.nodup_nil
    · exact List.nodup_nil
  exact alwaysDistinct_iff hnew ops

/-- A group is added with one address under two names. -/
theorem group_not_distinct :
    ¬ forall isValid ops, AlwaysDistinct isValid new ops := by
  intro h
  have hlist := (h (fun _ => true) [addGroup false ⟨"Team", by decide⟩
    [⟨none, "ann@pm.me"⟩, ⟨some "Ann", "ann@pm.me"⟩] 2]).right.right.emails
  revert hlist
  decide

end Op

end RecipientList

end Drafts
end MailClient
