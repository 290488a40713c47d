import MailClient.Drafts.DistinctRecipients

/-!
# Recipients of a saved draft

A draft is saved with one row for each recipient, which names the group that the
recipient is in.  Recipients that mail cannot be sent to are left out, and the
groups are put together again from the rows.
-/

namespace MailClient
namespace Drafts

structure MessageRecipient where
  address : String
  isProton : Bool
  name : String
  group : Option NonEmptyString
  deriving DecidableEq, Repr

/-- Whether a recipient is saved, and then as an official address or not. -/
def ValidationState.saved : ValidationState -> Option Bool
  | valid official _ => some official
  | validating => some false
  | unchecked => some false
  | doesNotExist => none
  | invalidEmail => none
  | unknown => none

def SingleRecipient.toMessageRecipient (group : Option NonEmptyString)
    (s : SingleRecipient) : Option MessageRecipient :=
  s.state.saved.map (fun isProton =>
    { address := s.email
      isProton := isProton
      name := s.displayName.getD ""
      group := group })

def Recipient.toMessageRecipients : Recipient -> List MessageRecipient
  | single s => (s.toMessageRecipient none).toList
  | group g => g.recipients.filterMap
      (SingleRecipient.toMessageRecipient (some g.groupName))

namespace MessageRecipient

/-- The entry of a row; an empty name is none. -/
def entry (recipient : MessageRecipient) : RecipientEntry where
  name := if recipient.name = "" then none else some recipient.name
  email := recipient.address

end MessageRecipient

namespace RecipientList

def toMessageRecipients (list : RecipientList) : List MessageRecipient :=
  list.recipients.flatMap Recipient.toMessageRecipients

section Loading

variable (isValid : String -> Bool)

/-- The loop body of `from_message_recipients`. -/
def addMessageRecipient (list : RecipientList) (recipient : MessageRecipient) :
    RecipientList :=
  match recipient.group with
  | some name => (list.addGroup isValid name [recipient.entry] 0).1
  | none =>
      match list.addSingle isValid recipient.entry with
      | Except.ok list => list
      | Except.error _ => list

/-- `resolve` is the number of members of a contact group. -/
def setTotal (resolve : NonEmptyString -> Option Nat) : Recipient -> Recipient
  | Recipient.single s => Recipient.single s
  | Recipient.group g => Recipient.group
      { g with
        totalInGroup := (resolve g.groupName).getD g.recipients.length }

def fromMessageRecipients (resolve : NonEmptyString -> Option Nat)
    (recipients : List MessageRecipient) : RecipientList :=
  ⟨((recipients.foldl (addMessageRecipient isValid) new).recipients).map
    (setTotal resolve)⟩

end Loading

end RecipientList

/-!
# What is compared
-/

/-- An empty display name is shown like none. -/
def shownName (name : Option String) : Option String :=
  name.filter (fun name => name ≠ "")

/-- The addresses and display names, by groups. -/
inductive Shown where
  | single (name : Option String) (email : String)
  | group (name : NonEmptyString) (members : List (Option String × String))
  deriving DecidableEq, Repr

def SingleRecipient.shown (s : SingleRecipient) : Option String × String :=
  (shownName s.displayName, s.email)

def Recipient.shown : Recipient -> Shown
  | single s => Shown.single s.shown.1 s.shown.2
  | group g => Shown.group g.groupName (g.recipients.map SingleRecipient.shown)

/-- The recipients that are saved, without groups that have none. -/
def Recipient.sendable : Recipient -> Option Recipient
  | single s => if s.state.saved.isSome then some (single s) else none
  | group g =>
      if g.recipients.any (fun s => s.state.saved.isSome) then
        some (group { g with
          recipients := g.recipients.filter (fun s => s.state.saved.isSome) })
      else none

namespace RecipientList

def shown (list : RecipientList) : List Shown :=
  list.recipients.map Recipient.shown

def sendable (list : RecipientList) : RecipientList :=
  ⟨list.recipients.filterMap Recipient.sendable⟩

/-!
# One recipient after another
-/

section Reloaded

variable {isValid : String -> Bool} {list : RecipientList}
  {name : NonEmptyString}

/-- A recipient as it is read from its row. -/
def reloaded (isValid : String -> Bool) (s : SingleRecipient) :
    SingleRecipient :=
  singleRecipient isValid ValidationState.unchecked
    ⟨shownName s.displayName, s.email⟩

theorem entry_of_saved {s : SingleRecipient} {group : Option NonEmptyString}
    {row : MessageRecipient} (h : s.toMessageRecipient group = some row) :
    row.group = group ∧ row.entry = ⟨shownName s.displayName, s.email⟩ := by
  unfold SingleRecipient.toMessageRecipient at h
  rcases Option.map_eq_some_iff.mp h with ⟨isProton, _, hrow⟩
  rw [<- hrow]
  refine ⟨rfl, ?_⟩
  unfold MessageRecipient.entry shownName
  cases hname : s.displayName with
  | none => rfl
  | some name =>
      by_cases hempty : name = ""
      · simp [hempty, Option.filter]
      · simp [hempty, Option.filter]

theorem saved_of_row {s : SingleRecipient} {group : Option NonEmptyString}
    {row : MessageRecipient} (h : s.toMessageRecipient group = some row) :
    s.state.saved.isSome = true := by
  unfold SingleRecipient.toMessageRecipient at h
  rcases Option.map_eq_some_iff.mp h with ⟨isProton, hsaved, _⟩
  rw [hsaved]
  rfl

theorem emails_group (g : GroupRecipient) :
    emails ⟨[Recipient.group g]⟩ = g.recipients.map SingleRecipient.email := by
  unfold emails all
  rw [List.flatMap_cons, List.flatMap_nil, List.append_nil]
  rfl

theorem not_duplicate {s : SingleRecipient} {rest : List String}
    (h : (list.emails ++ s.email :: rest).Nodup) :
    list.isDuplicateAddress s.email = false := by
  rw [Bool.eq_false_iff, Ne, isDuplicateAddress_iff]
  intro hmem
  exact (List.nodup_append.mp h).right.right _ hmem s.email
    List.mem_cons_self rfl

theorem addSingle_fresh {entry : RecipientEntry}
    (hfresh : list.isDuplicateAddress entry.email = false) :
    list.addSingle isValid entry = Except.ok ⟨list.recipients ++
      [Recipient.single
        (singleRecipient isValid ValidationState.unchecked entry)]⟩ := by
  unfold addSingle addSingleWithState
  rw [hfresh]
  rfl

theorem modifyGroup_append {f : GroupRecipient -> GroupRecipient}
    {recipients rest : List Recipient}
    (hout : name ∉ groupNames ⟨recipients⟩) :
    modifyGroup name f (recipients ++ rest) =
      recipients ++ modifyGroup name f rest := by
  induction recipients with
  | nil => rfl
  | cons r more ih =>
      cases r with
      | single s => exact congrArg (fun rs => Recipient.single s :: rs) (ih hout)
      | group g =>
          have hne : g.groupName ≠ name :=
            fun heq => hout (heq ▸ List.mem_cons_self)
          change (if g.groupName = name then _
            else Recipient.group g :: modifyGroup name f (more ++ rest)) = _
          rw [if_neg hne, ih (fun hmem => hout (List.mem_cons_of_mem _ hmem))]
          rfl

theorem addGroup_new {entry : RecipientEntry}
    (hfresh : list.isDuplicateAddress entry.email = false)
    (hout : name ∉ list.groupNames) :
    (list.addGroup isValid name [entry] 0).1 = ⟨list.recipients ++
      [Recipient.group
        { recipients := [singleRecipient isValid ValidationState.unchecked
            entry]
          groupName := name
          totalInGroup := 0 }]⟩ := by
  have hentries : list.freshEntries [entry] = [entry] := by
    unfold freshEntries
    simp [hfresh]
  have hcreate : (list.getOrCreateGroup name).recipients = list.recipients ++
      [Recipient.group
        { recipients := [], groupName := name, totalInGroup := 0 }] := by
    unfold getOrCreateGroup
    rw [if_neg (fun h => hout (any_isGroup.mp h))]
  unfold addGroup addGroupWithState
  dsimp only
  rw [hentries, hcreate, modifyGroup_append hout]
  unfold modifyGroup
  rw [if_pos rfl]
  rfl

theorem addGroup_last {entry : RecipientEntry} {recipients : List Recipient}
    {members : List SingleRecipient}
    (hlist : list.recipients = recipients ++ [Recipient.group
      { recipients := members, groupName := name, totalInGroup := 0 }])
    (hfresh : list.isDuplicateAddress entry.email = false)
    (hout : name ∉ groupNames ⟨recipients⟩) :
    (list.addGroup isValid name [entry] 0).1 = ⟨recipients ++
      [Recipient.group
        { recipients := members ++
            [singleRecipient isValid ValidationState.unchecked entry]
          groupName := name
          totalInGroup := 0 }]⟩ := by
  have hentries : list.freshEntries [entry] = [entry] := by
    unfold freshEntries
    simp [hfresh]
  have hfound : list.getOrCreateGroup name = list := by
    unfold getOrCreateGroup
    refine if_pos ?_
    rw [hlist, List.any_append]
    simp [isGroup]
  unfold addGroup addGroupWithState
  dsimp only
  rw [hentries, hfound, hlist, modifyGroup_append hout]
  unfold modifyGroup
  rw [if_pos rfl]
  rfl

/-!
# The whole list
-/

def reloadedRecipient (isValid : String -> Bool) : Recipient -> Recipient
  | Recipient.single s => Recipient.single (reloaded isValid s)
  | Recipient.group g => Recipient.group
      { g with
        recipients := g.recipients.map (reloaded isValid)
        totalInGroup := 0 }

theorem foldl_members {recipients : List Recipient}
    {members : List SingleRecipient} {rows : List SingleRecipient}
    (hlist : list.recipients = recipients ++ [Recipient.group
      { recipients := members, groupName := name, totalInGroup := 0 }])
    (hout : name ∉ groupNames ⟨recipients⟩)
    (hnodup : (list.emails ++ rows.map SingleRecipient.email).Nodup)  :
    (rows.filterMap (SingleRecipient.toMessageRecipient (some name))).foldl
        (addMessageRecipient isValid) list =
      ⟨recipients ++ [Recipient.group
        { recipients := members ++ (rows.filter
            (fun s => s.state.saved.isSome)).map (reloaded isValid)
          groupName := name
          totalInGroup := 0 }]⟩ := by
  induction rows generalizing list members with
  | nil =>
      rw [List.filter_nil, List.map_nil, List.append_nil, <- hlist]
      rfl
  | cons s rest ih =>
      rw [List.map_cons] at hnodup
      cases hsaved : s.toMessageRecipient (some name) with
      | none =>
          have hstate : s.state.saved = none := by
            unfold SingleRecipient.toMessageRecipient at hsaved
            exact Option.map_eq_none_iff.mp hsaved
          rw [List.filterMap_cons_none hsaved, List.filter_cons_of_neg
            (by rw [hstate]; exact Bool.false_ne_true)]
          refine ih hlist (hnodup.sublist ?_)
          exact (List.Sublist.refl _).append (List.sublist_cons_self _ _)
      | some row =>
          have hstate : s.state.saved.isSome = true := saved_of_row hsaved
          rcases entry_of_saved hsaved with ⟨hgroup, hentry⟩
          have hfresh : list.isDuplicateAddress row.entry.email = false := by
            rw [hentry]
            exact not_duplicate hnodup
          have hadd : addMessageRecipient isValid list row =
              ⟨recipients ++ [Recipient.group
                { recipients := members ++ [reloaded isValid s]
                  groupName := name
                  totalInGroup := 0 }]⟩ := by
            unfold addMessageRecipient reloaded
            rw [hgroup, <- hentry]
            exact addGroup_last hlist hfresh hout
          have hfilter : (s :: rest).filter (fun s => s.state.saved.isSome) =
              s :: rest.filter (fun s => s.state.saved.isSome) :=
            List.filter_cons_of_pos hstate
          rw [List.filterMap_cons_some hsaved, List.foldl_cons, hadd, hfilter,
            ih rfl]
          · rw [List.append_assoc]
            rfl
          · rw [emails_append]
            have hemails : list.emails = emails ⟨recipients⟩ ++
                members.map SingleRecipient.email := by
              change emails ⟨list.recipients⟩ = _
              rw [hlist, emails_append, emails_group]
            rw [hemails] at hnodup
            rw [emails_group]
            simpa [reloaded, singleRecipient] using hnodup

/-- What is read of a recipient. -/
def reload (isValid : String -> Bool) (r : Recipient) : List Recipient :=
  (r.sendable.map (reloadedRecipient isValid)).toList

theorem foldl_group {members : List SingleRecipient}
    (hout : name ∉ list.groupNames)
    (hnodup : (list.emails ++ members.map SingleRecipient.email).Nodup)
    {total : Nat} :
    (members.filterMap (SingleRecipient.toMessageRecipient (some name))).foldl
        (addMessageRecipient isValid) list =
      ⟨list.recipients ++ reload isValid (Recipient.group
        { recipients := members, groupName := name, totalInGroup := total })⟩ := by
  unfold reload Recipient.sendable
  induction members with
  | nil =>
      rw [List.filterMap_nil, List.foldl_nil]
      exact congrArg RecipientList.mk (List.append_nil _).symm
  | cons s rest ih =>
      rw [List.map_cons] at hnodup
      cases hsaved : s.toMessageRecipient (some name) with
      | none =>
          have hstate : s.state.saved = none := by
            unfold SingleRecipient.toMessageRecipient at hsaved
            exact Option.map_eq_none_iff.mp hsaved
          rw [List.filterMap_cons_none hsaved, ih (hnodup.sublist
            ((List.Sublist.refl _).append (List.sublist_cons_self _ _)))]
          simp [hstate]
      | some row =>
          rcases entry_of_saved hsaved with ⟨hgroup, hentry⟩
          have hstate : s.state.saved.isSome = true := saved_of_row hsaved
          have hfresh : list.isDuplicateAddress row.entry.email = false := by
            rw [hentry]
            exact not_duplicate hnodup
          have hadd : addMessageRecipient isValid list row =
              ⟨list.recipients ++ [Recipient.group
                { recipients := [reloaded isValid s]
                  groupName := name
                  totalInGroup := 0 }]⟩ := by
            unfold addMessageRecipient reloaded
            rw [hgroup, <- hentry]
            exact addGroup_new hfresh hout
          rw [List.filterMap_cons_some hsaved, List.foldl_cons, hadd,
            foldl_members rfl hout]
          · simp [hstate, reloadedRecipient]
          · rw [emails_append, emails_group]
            simpa [reloaded, singleRecipient] using hnodup

theorem foldl_recipient {r : Recipient}
    (hemails : (list.emails ++ emails ⟨[r]⟩).Nodup)
    (hgroups : (list.groupNames ++ groupNames ⟨[r]⟩).Nodup) :
    r.toMessageRecipients.foldl (addMessageRecipient isValid) list =
      ⟨list.recipients ++ reload isValid r⟩ := by
  cases r with
  | group g =>
      rw [emails_group] at hemails
      refine foldl_group ?_ hemails
      intro hmem
      exact (List.nodup_append.mp hgroups).right.right _ hmem g.groupName
        List.mem_cons_self rfl
  | single s =>
      unfold Recipient.toMessageRecipients reload Recipient.sendable
      dsimp only
      cases hsaved : s.toMessageRecipient none with
      | none =>
          have hstate : s.state.saved = none := by
            unfold SingleRecipient.toMessageRecipient at hsaved
            exact Option.map_eq_none_iff.mp hsaved
          simp [hstate]
      | some row =>
          rcases entry_of_saved hsaved with ⟨hgroup, hentry⟩
          have hfresh : list.isDuplicateAddress row.entry.email = false := by
            rw [hentry]
            exact not_duplicate hemails
          rw [Option.toList_some, List.foldl_cons, List.foldl_nil,
            if_pos (saved_of_row hsaved)]
          unfold addMessageRecipient
          rw [hgroup]
          dsimp only
          rw [addSingle_fresh hfresh, hentry]
          rfl

theorem emails_reload (r : Recipient) :
    (emails ⟨reload isValid r⟩).Sublist (emails ⟨[r]⟩) := by
  cases r with
  | single s =>
      unfold reload Recipient.sendable
      dsimp only
      split
      · exact List.Sublist.refl _
      · exact List.nil_sublist _
  | group g =>
      unfold reload Recipient.sendable
      dsimp only
      split
      · rw [emails_group]
        simp only [Option.map_some, Option.toList_some, reloadedRecipient,
          emails_group, List.map_map]
        exact (List.filter_sublist).map _
      · exact List.nil_sublist _

theorem groupNames_reload (r : Recipient) :
    (groupNames ⟨reload isValid r⟩).Sublist (groupNames ⟨[r]⟩) := by
  cases r with
  | single s =>
      unfold reload Recipient.sendable
      dsimp only
      split
      · exact List.Sublist.refl _
      · exact List.nil_sublist _
  | group g =>
      unfold reload Recipient.sendable
      dsimp only
      split
      · exact List.Sublist.refl _
      · exact List.nil_sublist _

theorem foldl_rows {recipients : List Recipient}
    (hemails : (list.emails ++ emails ⟨recipients⟩).Nodup)
    (hgroups : (list.groupNames ++ groupNames ⟨recipients⟩).Nodup) :
    (recipients.flatMap Recipient.toMessageRecipients).foldl
        (addMessageRecipient isValid) list =
      ⟨list.recipients ++ recipients.flatMap (reload isValid)⟩ := by
  induction recipients generalizing list with
  | nil => exact congrArg RecipientList.mk (List.append_nil _).symm
  | cons r rest ih =>
      have hsplit : emails ⟨r :: rest⟩ = emails ⟨[r]⟩ ++ emails ⟨rest⟩ :=
        emails_append [r] rest
      have hnames : groupNames ⟨r :: rest⟩ =
          groupNames ⟨[r]⟩ ++ groupNames ⟨rest⟩ :=
        groupNames_append [r] rest
      rw [hsplit, <- List.append_assoc] at hemails
      rw [hnames, <- List.append_assoc] at hgroups
      rw [List.flatMap_cons, List.foldl_append, foldl_recipient
        (hemails.sublist (List.sublist_append_left _ _))
        (hgroups.sublist (List.sublist_append_left _ _)), ih]
      · rw [List.flatMap_cons, List.append_assoc]
      · rw [emails_append]
        exact hemails.sublist (((List.Sublist.refl _).append
          (emails_reload r)).append (List.Sublist.refl _))
      · rw [groupNames_append]
        exact hgroups.sublist (((List.Sublist.refl _).append
          (groupNames_reload r)).append (List.Sublist.refl _))

theorem shown_reload {resolve : NonEmptyString -> Option Nat} (r : Recipient) :
    ((reload isValid r).map (setTotal resolve)).map Recipient.shown =
      r.sendable.toList.map Recipient.shown := by
  have hshown : forall s : SingleRecipient,
      (reloaded isValid s).shown = s.shown := by
    intro s
    unfold SingleRecipient.shown reloaded singleRecipient shownName
    simp [Option.filter_filter]
  unfold reload
  cases r.sendable with
  | none => rfl
  | some r =>
      cases r with
      | single s =>
          simp [reloadedRecipient, setTotal, Recipient.shown, hshown]
      | group g =>
          simp [reloadedRecipient, setTotal, Recipient.shown, hshown]

theorem shown_fromMessageRecipients {resolve : NonEmptyString -> Option Nat}
    (h : Distinct list) :
    (fromMessageRecipients isValid resolve list.toMessageRecipients).shown =
      list.sendable.shown := by
  have hfold : (list.recipients.flatMap Recipient.toMessageRecipients).foldl
      (addMessageRecipient isValid) new =
        ⟨new.recipients ++ list.recipients.flatMap (reload isValid)⟩ :=
    foldl_rows h.emails h.groups
  unfold fromMessageRecipients toMessageRecipients shown sendable
  rw [hfold]
  dsimp only [new]
  rw [List.nil_append, List.map_flatMap, List.map_flatMap]
  simp only [shown_reload]
  rw [<- List.map_flatMap, <- List.filterMap_eq_flatMap_toList]

theorem sendable_eq (hgroups : forall g, Recipient.group g ∈ list.recipients ->
      g.recipients ≠ [])
    (hsaved : forall s, s ∈ list.all -> s.state.saved.isSome = true) :
    list.sendable = list := by
  have hkept : forall r, r ∈ list.recipients -> r.sendable = some r := by
    intro r hr
    have hall : forall s, s ∈ r.all -> s.state.saved.isSome = true :=
      fun s hs => hsaved s (List.mem_flatMap.mpr ⟨r, hr, hs⟩)
    cases r with
    | single s => exact if_pos (hall s List.mem_cons_self)
    | group g =>
        have hany : g.recipients.any (fun s => s.state.saved.isSome) = true := by
          rcases List.exists_mem_of_ne_nil _ (hgroups g hr) with ⟨s, hs⟩
          exact List.any_eq_true.mpr ⟨s, hs, hall s hs⟩
        unfold Recipient.all at hall
        unfold Recipient.sendable
        dsimp only at hall ⊢
        rw [if_pos hany, List.filter_eq_self.mpr hall]
  unfold sendable
  rw [List.filterMap_congr hkept, List.filterMap_some]

end Reloaded

/-!
# Which recipients a saved draft keeps
-/

/--
What can be sent is there again, with the same names, in the same groups and
order.  This is the whole list if there is nothing else in it.
-/
theorem saved_recipients_kept {isValid : String -> Bool}
    {resolve : NonEmptyString -> Option Nat} {list : RecipientList}
    (h : Distinct list) :
    (fromMessageRecipients isValid resolve list.toMessageRecipients).shown =
        list.sendable.shown ∧
      ((forall g, Recipient.group g ∈ list.recipients -> g.recipients ≠ []) ->
        (forall s, s ∈ list.all -> s.state.saved.isSome = true) ->
        (fromMessageRecipients isValid resolve
          list.toMessageRecipients).shown = list.shown) := by
  constructor
  · exact shown_fromMessageRecipients h
  · intro hgroups hsaved
    rw [shown_fromMessageRecipients h, sendable_eq hgroups hsaved]

theorem saved_group_kept :
    (fromMessageRecipients (fun email => email.contains '@') (fun _ => none)
        (toMessageRecipients ⟨[
          Recipient.single
            { displayName := none
              email := "ann@pm.me"
              state := ValidationState.unknown },
          Recipient.group
            { recipients := [
                { displayName := some "Bob"
                  email := "bob@pm.me"
                  state := ValidationState.valid true true }]
              groupName := ⟨"Team", by decide⟩
              totalInGroup := 3 }]⟩)).shown =
      [Shown.group ⟨"Team", by decide⟩ [(some "Bob", "bob@pm.me")]] :=
  (saved_recipients_kept ⟨by decide, by decide⟩).left

/-- A recipient that could not be checked is left out, and groups are merged. -/
theorem unknown_not_kept :
    (¬ forall isValid resolve (list : RecipientList), list.emails.Nodup ->
        (forall g, Recipient.group g ∈ list.recipients ->
          g.recipients ≠ []) ->
        (forall s, s ∈ list.all -> s.state ≠ ValidationState.invalidEmail ∧
          s.state ≠ ValidationState.doesNotExist) ->
        (fromMessageRecipients isValid resolve
          list.toMessageRecipients).shown = list.shown) ∧
      ¬ forall isValid resolve (list : RecipientList), list.emails.Nodup ->
        (forall g, Recipient.group g ∈ list.recipients ->
          g.recipients ≠ []) ->
        (forall s, s ∈ list.all -> s.state.saved.isSome = true) ->
        (fromMessageRecipients isValid resolve
          list.toMessageRecipients).shown = list.shown := by
  constructor
  · intro h
    have hkept := h (fun _ => true) (fun _ => none) ⟨[Recipient.single
      { displayName := none
        email := "ann@pm.me"
        state := ValidationState.unknown }]⟩
      (by decide) (by simp) (by simp [all, Recipient.all])
    revert hkept
    decide
  · intro h
    have hkept := h (fun _ => true) (fun _ => none) ⟨[
      Recipient.group
        { recipients := [
            { displayName := none
              email := "ann@pm.me"
              state := ValidationState.unchecked }]
          groupName := ⟨"Team", by decide⟩
          totalInGroup := 1 },
      Recipient.group
        { recipients := [
            { displayName := none
              email := "bob@pm.me"
              state := ValidationState.unchecked }]
          groupName := ⟨"Team", by decide⟩
          totalInGroup := 1 }]⟩
      (by decide) (by simp) (by simp [all, Recipient.all, ValidationState.saved])
    revert hkept
    decide

end RecipientList

end Drafts
end MailClient
