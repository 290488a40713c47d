import MailClient.Actions.PendingUndo

/-!
# Almost all mail

Almost all mail is meant to list everything but the trash and spam.  A move to
the trash or to spam sweeps the label away with all other labels that can be
removed, and only leaving the trash or spam brings it back, for all messages of
the entity at once.
-/

namespace MailClient
namespace Actions

open Foundation Foundation.TransitionSystem
open Labels (LabelTable LabelRow LabelType fromOptRid)

variable {cat : Catalog} {kind : MailKind} {id : Nat} {l : LocalLabelId}

/-!
# Labels with a remote id
-/

namespace Catalog

theorem counterpart_inj {rid rid' : LabelId}
    (h : cat.labels.remoteIdCounterpart rid = some l)
    (h' : cat.labels.remoteIdCounterpart rid' = some l) : rid = rid' := by
  rcases Option.map_eq_some_iff.mp h with ⟨r, hfind, hid⟩
  rcases Option.map_eq_some_iff.mp h' with ⟨r', hfind', hid'⟩
  have hsame : r = r' := List.inj_on_of_nodup_map cat.labels.ids_unique
    (List.mem_of_find?_eq_some hfind) (List.mem_of_find?_eq_some hfind')
    (hid.trans hid'.symm)
  have hrid : r.remoteId = some rid := by
    simpa using List.find?_some hfind
  have hrid' : r'.remoteId = some rid' := by
    simpa using List.find?_some hfind'
  rw [hsame, hrid'] at hrid
  exact (Option.some.inj hrid).symm

/-- Almost all mail, and the two labels that keep a message out of it. -/
inductive Sorting (cat : Catalog) : LocalLabelId -> Prop where
  | rest : Sorting cat cat.almostAllMail
  | trash : Sorting cat cat.trash
  | spam : Sorting cat cat.spam

theorem Sorting.remoteId (h : Sorting cat l) :
    exists rid, rid ∈ ["15", "3", "4"] ∧
      cat.labels.remoteIdCounterpart rid = some l := by
  cases h with
  | rest => exact ⟨"15", by decide, cat.almostAllMail_id⟩
  | trash => exact ⟨"3", by decide, cat.trash_id⟩
  | spam => exact ⟨"4", by decide, cat.spam_id⟩

theorem Sorting.removable (h : Sorting cat l) : cat.nonRemovable l = false := by
  rcases h.remoteId with ⟨rid, hrid, hl⟩
  unfold nonRemovable
  rw [List.any_eq_false]
  intro other hother hsome
  have hsame : other = rid := counterpart_inj (of_decide_eq_true hsome) hl
  have hnone : forall rid, rid ∈ ["15", "3", "4"] ->
      rid ∉ ["5", "2", "1", "13", "20", "21", "22", "23", "24", "25", "26"] := by
    decide
  rw [hsame] at hother
  exact hnone rid hrid hother

theorem Sorting.notOtherCategory (h : Sorting cat l) (d : LocalLabelId) :
    l ∉ cat.otherCategories d := by
  rcases h.remoteId with ⟨rid, hrid, hl⟩
  intro hmem
  rcases List.mem_filterMap.mp (List.mem_of_mem_filter hmem) with
    ⟨n, hn, hother⟩
  have hsame : toString n = rid := counterpart_inj hother hl
  have hnone : forall n, n ∈ categoryLabels ->
      toString n ∉ ["15", "3", "4"] := by
    decide
  rw [<- hsame] at hrid
  exact hnone n hn hrid

theorem trash_ne_almostAllMail : cat.trash ≠ cat.almostAllMail := by
  intro h
  have hid := cat.trash_id
  rw [h] at hid
  exact absurd (counterpart_inj hid cat.almostAllMail_id) (by decide)

theorem spam_ne_almostAllMail : cat.spam ≠ cat.almostAllMail := by
  intro h
  have hid := cat.spam_id
  rw [h] at hid
  exact absurd (counterpart_inj hid cat.almostAllMail_id) (by decide)

theorem trash_ne_spam : cat.trash ≠ cat.spam := by
  intro h
  have hid := cat.trash_id
  rw [h] at hid
  exact absurd (counterpart_inj hid cat.spam_id) (by decide)

end Catalog

namespace MoveEntry

theorem isLeft_of_remoteId {rid : LabelId}
    (hmovable : rid ∈ ["0", "6", "4", "3", "8", "7"])
    (h : cat.labels.remoteIdCounterpart rid = some l) :
    isLeft cat l = true := by
  rcases Option.map_eq_some_iff.mp h with ⟨found, hfind, hid⟩
  have hmem := List.mem_of_find?_eq_some hfind
  have hrid : found.remoteId = some rid := by
    simpa using List.find?_some hfind
  have hrow : cat.labelRow l = some found := by
    unfold Catalog.labelRow
    cases hlookup : cat.labels.rows.find? (fun r => r.localId = l) with
    | none =>
        have hnone := List.find?_eq_none.mp hlookup found hmem
        simp [hid] at hnone
    | some r =>
        have hr : r.localId = l := by
          simpa using List.find?_some hlookup
        rw [List.inj_on_of_nodup_map cat.labels.ids_unique
          (List.mem_of_find?_eq_some hlookup) hmem (hr.trans hid.symm)]
  have hmovable : Catalog.isMovableOutOfFolder found = true :=
    decide_eq_true (Or.inr (List.any_eq_true.mpr
      ⟨rid, hmovable, decide_eq_true hrid⟩))
  unfold isLeft
  rw [hrow]
  exact decide_eq_true (Or.inl hmovable)

theorem isLeft_trash : isLeft cat cat.trash = true :=
  isLeft_of_remoteId (by decide) cat.trash_id

theorem isLeft_spam : isLeft cat cat.spam = true :=
  isLeft_of_remoteId (by decide) cat.spam_id

end MoveEntry

/-!
# The labels of one entity
-/

namespace Mailbox

/-- Almost all mail is the mail that is neither in the trash nor in spam. -/
def RestIsAlmostAllMail (cat : Catalog) (db : Mailbox) : Prop :=
  forall m, m ∈ cat.messages.map MessageRow.localId ->
    (⟨cat.almostAllMail, m⟩ ∈ db.messageLabels ↔
      ⟨cat.trash, m⟩ ∉ db.messageLabels ∧ ⟨cat.spam, m⟩ ∉ db.messageLabels)

/-- No message is in the trash and in spam. -/
def NeverBoth (cat : Catalog) (db : Mailbox) : Prop :=
  forall m, m ∈ cat.messages.map MessageRow.localId ->
    ⟨cat.trash, m⟩ ∈ db.messageLabels -> ⟨cat.spam, m⟩ ∉ db.messageLabels

/-- A conversation has these labels if a message of it has them. -/
def Listed (cat : Catalog) (db : Mailbox) : Prop :=
  forall c m l, Catalog.Sorting cat l -> m ∈ cat.messagesOf c ->
    ⟨l, m⟩ ∈ db.messageLabels -> (c, l) ∈ db.conversationLabels

/-- What moves of some kinds keep, and rely on. -/
structure Sorted (cat : Catalog) (kinds : MailKind -> Prop) (db : Mailbox) :
    Prop where
  rest : db.RestIsAlmostAllMail cat
  once : kinds MailKind.message -> db.NeverBoth cat
  listed : kinds MailKind.conversation -> db.Listed cat

theorem conversationOf_eq {m : LocalMessageId} {c : LocalConversationId}
    (h : m ∈ cat.messagesOf c) : cat.conversationOf m = some c := by
  rcases List.mem_map.mp h with ⟨r, hr, hid⟩
  have hc : r.conversationId = c := by
    simpa using (List.mem_filter.mp hr).right
  unfold Catalog.conversationOf
  cases hfind : cat.messages.find? (fun row => row.localId = m) with
  | none =>
      have hnone := List.find?_eq_none.mp hfind r (List.mem_of_mem_filter hr)
      simp [hid] at hnone
  | some r' =>
      have hid' : r'.localId = m := by
        simpa using List.find?_some hfind
      have hsame : r' = r := List.inj_on_of_nodup_map cat.ids_unique
        (List.mem_of_find?_eq_some hfind) (List.mem_of_mem_filter hr)
        (hid'.trans hid.symm)
      rw [hsame, Option.map_some, hc]

/-!
# Conversations stay listed
-/

theorem Listed.applyLabel {db : Mailbox} (h : db.Listed cat)
    (kind : MailKind) (l : LocalLabelId) (id : Nat) :
    (db.applyLabel cat kind l id).2.Listed cat := by
  intro c m l' hl' hm hin
  rcases Finset.mem_union.mp hin with hold | hnew
  · have hlisted := h c m l' hl' hm hold
    unfold Mailbox.applyLabel
    dsimp only
    split
    · exact Finset.mem_insert_of_mem hlisted
    · exact hlisted
  · rw [List.mem_toFinset, mem_pairs] at hnew
    cases hnew.left
    cases kind with
    | message =>
        have hself : m = id := by
          simpa [Catalog.members] using hnew.right
        cases hself
        by_cases hhad : ⟨l', id⟩ ∈ db.messageLabels
        · simpa [Mailbox.applyLabel, Catalog.members, hhad] using
            h c id l' hl' hm hhad
        · simp [Mailbox.applyLabel, Catalog.members, hhad,
            conversationOf_eq hm]
    | conversation =>
        rw [MoveEntry.messagesOf_unique hm hnew.right]
        exact Finset.mem_insert_self _ _

theorem Listed.removeLabel {db : Mailbox} (h : db.Listed cat)
    (kind : MailKind) (l : LocalLabelId) (id : Nat) :
    (db.removeLabel cat kind l id).2.Listed cat := by
  intro c m l' hl' hm hin
  rcases Finset.mem_sdiff.mp hin with ⟨hold, hkept⟩
  have hlisted := h c m l' hl' hm hold
  cases kind with
  | message =>
      unfold Mailbox.removeLabel
      dsimp only
      split
      · rename_i c' hc'
        refine Finset.mem_erase.mpr ⟨?_, hlisted⟩
        intro hpair
        cases hpair
        split at hc'
        · cases hc'
        · have hall := (Option.filter_eq_some_iff.mp hc').right
          have hnone := List.all_eq_true.mp hall m hm
          exact of_decide_eq_true hnone hin
      · exact hlisted
  | conversation =>
      refine Finset.mem_erase.mpr ⟨?_, hlisted⟩
      intro hpair
      cases hpair
      exact hkept (List.mem_toFinset.mpr (mem_pairs.mpr ⟨rfl, hm⟩))

theorem Listed.mono {db db' : Mailbox} (h : db.Listed cat)
    (hlabels : db'.messageLabels ⊆ db.messageLabels)
    (hrows : db'.conversationLabels = db.conversationLabels) :
    db'.Listed cat := by
  intro c m l hl hm hin
  rw [hrows]
  exact h c m l hl hm (hlabels hin)

end Mailbox

open Mailbox

namespace MoveEntry

variable {p : Progress}

theorem stable_listed :
    Stable cat kind id (fun p => p.2.Listed cat) :=
  ⟨fun l _ hp => hp.removeLabel kind l id, fun l _ hp => hp.applyLabel kind l id⟩

/-!
# What a move does to the three labels
-/

theorem foldl_leaveSource_rest (sources : List LocalLabelId) {x : LabelPair}
    (hlabel : x.label = cat.almostAllMail) :
    x ∈ (sources.foldl (fun p source => leaveSource cat kind id source p)
        p).2.messageLabels ↔
      x ∈ p.2.messageLabels ∨ ((cat.trash ∈ sources ∨ cat.spam ∈ sources) ∧
        x.id ∈ cat.members kind id) := by
  induction sources generalizing p with
  | nil => simp
  | cons source rest ih =>
      have hstay : ¬ (isLeft cat source = true ∧ x.label = source ∧
          x.id ∈ cat.members kind id) := by
        intro h
        have hleft := h.left
        rw [<- h.right.left, hlabel, isLeft_almostAllMail] at hleft
        cases hleft
      rw [List.foldl_cons, ih, mem_leaveSource]
      rw [hlabel] at hstay ⊢
      simp only [List.mem_cons, true_and]
      rw [eq_comm (a := source), eq_comm (a := source)]
      tauto

theorem foldl_leaveSource_other (sources : List LocalLabelId) {x : LabelPair}
    (hlabel : x.label ≠ cat.almostAllMail) :
    x ∈ (sources.foldl (fun p source => leaveSource cat kind id source p)
        p).2.messageLabels ↔
      x ∈ p.2.messageLabels ∧ ¬ (x.label ∈ sources ∧
        isLeft cat x.label = true ∧ x.id ∈ cat.members kind id) := by
  induction sources generalizing p with
  | nil => simp
  | cons source rest ih =>
      rw [List.foldl_cons, ih, mem_leaveSource]
      simp only [hlabel, List.mem_cons, false_and, and_false, or_false]
      by_cases hsource : x.label = source
      · rw [<- hsource]
        tauto
      · tauto

theorem arrive_sorting {destination : Option LocalLabelId} {x : LabelPair}
    (hx : Catalog.Sorting cat x.label) :
    x ∈ (arrive cat kind id destination p).2.messageLabels ↔
      x ∈ p.2.messageLabels ∨
        (destination = some x.label ∧ x.id ∈ cat.members kind id) := by
  have hput : forall d, x ∈ (putOn cat kind id d p).2.messageLabels ↔
      x ∈ p.2.messageLabels ∨
        (some d = some x.label ∧ x.id ∈ cat.members kind id) := by
    intro d
    rw [putOn_labels, Finset.mem_union, List.mem_toFinset, mem_pairs,
      Option.some.injEq, eq_comm (a := d)]
  cases destination with
  | none => simp [arrive]
  | some d =>
      rw [<- hput d]
      unfold arrive
      dsimp only
      split
      · rw [mem_foldl_takeOff]
        have hnot := hx.notOtherCategory d
        tauto
      · rfl

theorem leave_swept {destination : Option LocalLabelId} {m : LocalMessageId}
    (hswept : destination = some cat.trash ∨ destination = some cat.spam)
    (hl : Catalog.Sorting cat l) (hm : m ∈ cat.members kind id)
    (hlisted : kind = MailKind.conversation -> p.2.Listed cat) :
    (⟨l, m⟩ : LabelPair) ∉ (leave cat kind id destination p).2.messageLabels := by
  intro hin
  unfold leave removeAllRemovableLabels at hin
  rw [if_pos hswept, mem_foldl_takeOff] at hin
  refine hin.right ⟨?_, hm⟩
  refine List.mem_filter.mpr ⟨?_, by simp [hl.removable]⟩
  cases kind with
  | message =>
      have hself : m = id := List.mem_singleton.mp hm
      rw [labelsOf, Finset.mem_sort, Finset.mem_image]
      exact ⟨⟨l, m⟩, Finset.mem_filter.mpr ⟨hin.left, hself⟩, rfl⟩
  | conversation =>
      rw [labelsOf, Finset.mem_sort, Finset.mem_image]
      exact ⟨(id, l), Finset.mem_filter.mpr
        ⟨hlisted rfl id m l hl hm hin.left, rfl⟩, rfl⟩

/-- The sources that a move elsewhere leaves. -/
def sourcesLeft (cat : Catalog) (destination : Option LocalLabelId)
    (locations : List LocalLabelId) : List LocalLabelId :=
  if destination.any cat.isCategory then [] else locations

theorem leave_elsewhere {destination : Option LocalLabelId}
    (hother : ¬ (destination = some cat.trash ∨
      destination = some cat.spam)) :
    leave cat kind id destination p =
      (sourcesLeft cat destination p.1.originalLocations).foldl
        (fun p source => leaveSource cat kind id source p) p := by
  unfold leave sourcesLeft
  rw [if_neg hother]
  split
  · rfl
  · rfl

/-- The trash and spam are left together by the messages that were in them. -/
def Fits (cat : Catalog) (kind : MailKind) (id : Nat) (db : Mailbox)
    (sources : List LocalLabelId) : Prop :=
  forall m, m ∈ cat.members kind id ->
    m ∈ cat.messages.map MessageRow.localId ->
    cat.trash ∈ sources ∨ cat.spam ∈ sources ->
    (⟨cat.trash, m⟩ ∈ db.messageLabels -> cat.trash ∈ sources) ∧
      (⟨cat.spam, m⟩ ∈ db.messageLabels -> cat.spam ∈ sources)

theorem Fits.sourcesLeft {db : Mailbox} {locations : List LocalLabelId}
    (h : Fits cat kind id db locations) (destination : Option LocalLabelId) :
    Fits cat kind id db (sourcesLeft cat destination locations) := by
  unfold MoveEntry.sourcesLeft
  split
  · intro m _ _ hin
    simp at hin
  · exact h

/-!
# One entry keeps the mail sorted
-/

section Entry

variable {destination : Option LocalLabelId} {locations : List LocalLabelId}
  {db : Mailbox} {m : LocalMessageId}

/-- The tables when an entry has been moved. -/
abbrev moved (cat : Catalog) (kind : MailKind) (id : Nat)
    (destination : Option LocalLabelId) (locations : List LocalLabelId)
    (db : Mailbox) : Mailbox :=
  (moveTo cat kind id destination
    ({ originalLocations := locations }, db)).2

theorem markedRead_listed (h : db.Listed cat) {e : MoveEntry}
    (hmarked : MarkedRead cat kind id destination e db p) :
    p.2.Listed cat := by
  refine h.mono ?_ hmarked.conversationLabels
  rw [hmarked.labels]
  exact Finset.filter_subset _ _

theorem moved_listed (h : db.Listed cat) :
    (moved cat kind id destination locations db).Listed cat := by
  have hmarked : MarkedRead cat kind id destination
      { originalLocations := locations } db
      (markedReadFor cat kind id destination
        ({ originalLocations := locations }, db)) :=
    markedReadFor_spec destination rfl db
  have hremoved : (markedReadFor cat kind id destination
      ({ originalLocations := locations }, db)).1.removedLabels = [] := by
    rw [hmarked.entry]
  exact stable_listed.arrive destination
    (stable_listed.leave destination hremoved (markedRead_listed h hmarked))

theorem moved_swept
    (hswept : destination = some cat.trash ∨ destination = some cat.spam)
    (h : kind = MailKind.conversation -> db.Listed cat)
    (hl : Catalog.Sorting cat l) (hm : m ∈ cat.members kind id) :
    ⟨l, m⟩ ∈ (moved cat kind id destination locations db).messageLabels ↔
      destination = some l := by
  have hmarked : MarkedRead cat kind id destination
      { originalLocations := locations } db
      (markedReadFor cat kind id destination
        ({ originalLocations := locations }, db)) :=
    markedReadFor_spec destination rfl db
  have hgone := leave_swept hswept hl hm
    (fun hkind => markedRead_listed (h hkind) hmarked)
  refine (arrive_sorting hl).trans ?_
  constructor
  · intro hin
    rcases hin with hin | hin
    · exact absurd hin hgone
    · exact hin.left
  · intro hin
    exact Or.inr ⟨hin, hm⟩

theorem moved_elsewhere
    (hother : ¬ (destination = some cat.trash ∨
      destination = some cat.spam))
    (hl : Catalog.Sorting cat l) (hnot : destination ≠ some l) :
    ⟨l, m⟩ ∈ (moved cat kind id destination locations db).messageLabels ↔
      ⟨l, m⟩ ∈ ((sourcesLeft cat destination locations).foldl
        (fun p source => leaveSource cat kind id source p)
        ({ originalLocations := locations }, db)).2.messageLabels := by
  have hunmarked : markedReadFor cat kind id destination
      ({ originalLocations := locations }, db) =
      ({ originalLocations := locations }, db) := by
    unfold markedReadFor
    rw [if_neg (fun htrash => hother (Or.inl htrash))]
  refine (arrive_sorting hl).trans ?_
  rw [hunmarked, leave_elsewhere hother]
  constructor
  · intro hin
    rcases hin with hin | hin
    · exact hin
    · exact absurd hin.left hnot
  · exact Or.inl

theorem moved_sorted {kinds : MailKind -> Prop} (hkind : kinds kind)
    (hdestination : destination ≠ some cat.almostAllMail)
    (h : db.Sorted cat kinds) (hfits : Fits cat kind id db locations) :
    (moved cat kind id destination locations db).Sorted cat kinds := by
  have helsewhere : Elsewhere cat kind id db
      (moved cat kind id destination locations db) :=
    (moveTo_spec destination locations db).elsewhere
  have hmessage : forall m, m ∈ cat.messages.map MessageRow.localId ->
      (⟨cat.almostAllMail, m⟩ ∈
          (moved cat kind id destination locations db).messageLabels ↔
        ⟨cat.trash, m⟩ ∉
            (moved cat kind id destination locations db).messageLabels ∧
          ⟨cat.spam, m⟩ ∉
            (moved cat kind id destination locations db).messageLabels) ∧
      ((⟨cat.trash, m⟩ ∈ db.messageLabels ->
          ⟨cat.spam, m⟩ ∉ db.messageLabels) ->
        ⟨cat.trash, m⟩ ∈
          (moved cat kind id destination locations db).messageLabels ->
        ⟨cat.spam, m⟩ ∉
          (moved cat kind id destination locations db).messageLabels) := by
    intro m hm
    have hrest := h.rest m hm
    have hlisted : kind = MailKind.conversation -> db.Listed cat :=
      fun hconversation => h.listed (hconversation ▸ hkind)
    by_cases hmember : m ∈ cat.members kind id
    · by_cases hswept : destination = some cat.trash ∨
          destination = some cat.spam
      · rw [moved_swept hswept hlisted Catalog.Sorting.rest hmember,
          moved_swept hswept hlisted Catalog.Sorting.trash hmember,
          moved_swept hswept hlisted Catalog.Sorting.spam hmember]
        refine ⟨by tauto, ?_⟩
        intro _ htrash hspam
        exact Catalog.trash_ne_spam
          (Option.some.inj (htrash.symm.trans hspam))
      · rw [moved_elsewhere hswept Catalog.Sorting.rest hdestination,
          moved_elsewhere hswept Catalog.Sorting.trash
            (fun hd => hswept (Or.inl hd)),
          moved_elsewhere hswept Catalog.Sorting.spam
            (fun hd => hswept (Or.inr hd)),
          foldl_leaveSource_rest _ rfl,
          foldl_leaveSource_other _ Catalog.trash_ne_almostAllMail,
          foldl_leaveSource_other _ Catalog.spam_ne_almostAllMail]
        have hleft := hfits.sourcesLeft destination m hmember hm
        simp only [isLeft_trash, isLeft_spam, hmember, and_true]
        refine ⟨?_, fun honce htrash hspam => honce htrash.left hspam.left⟩
        by_cases hany : cat.trash ∈ sourcesLeft cat destination locations ∨
            cat.spam ∈ sourcesLeft cat destination locations
        · have hboth := hleft hany
          exact iff_of_true (Or.inr hany)
            ⟨fun htrash => htrash.right (hboth.left htrash.left),
              fun hspam => hspam.right (hboth.right hspam.left)⟩
        · have hnone := not_or.mp hany
          rw [or_iff_left hany, and_iff_left hnone.left,
            and_iff_left hnone.right]
          exact hrest
    · rw [helsewhere.labels _ hmember, helsewhere.labels _ hmember,
        helsewhere.labels _ hmember]
      exact ⟨hrest, fun honce => honce⟩
  exact ⟨fun m hm => (hmessage m hm).left,
    fun hmessages m hm => (hmessage m hm).right (h.once hmessages m hm),
    fun hconversations => moved_listed (h.listed hconversations)⟩

end Entry

end MoveEntry

/-!
# Locations that a new action finds
-/

namespace Catalog

theorem mem_visibleRows {has : LocalLabelId -> Bool} {r : LabelRow} :
    r ∈ cat.visibleRows has ↔
      r ∈ cat.labels.rows ∧ has r.localId = true ∧ r.deleted = 0 := by
  unfold visibleRows
  rw [List.mem_insertionSort, List.mem_filter, decide_eq_true_eq]

theorem visible_row {rid : LabelId}
    (h : cat.labels.remoteIdCounterpart rid = some l)
    (hvisible : cat.visible l = true) :
    exists r, r ∈ cat.labels.rows ∧ r.localId = l ∧
      r.remoteId = some rid ∧ r.deleted = 0 := by
  rcases Option.map_eq_some_iff.mp h with ⟨found, hfind, hid⟩
  rcases List.any_eq_true.mp hvisible with ⟨r, hr, hshown⟩
  have hshown := of_decide_eq_true hshown
  have hmem := List.mem_of_find?_eq_some hfind
  have hsame : r = found := List.inj_on_of_nodup_map cat.labels.ids_unique
    hr hmem (hshown.left.trans hid.symm)
  refine ⟨found, hmem, hid, ?_, ?_⟩
  · simpa using List.find?_some hfind
  · rw [<- hsame]
    exact hshown.right

end Catalog

namespace Mailbox

variable {db : Mailbox}

theorem mem_of_messageLocation {m : LocalMessageId}
    (h : db.messageLocation cat m = some l) :
    ⟨l, m⟩ ∈ db.messageLabels := by
  have hrow : forall r, r ∈ cat.visibleRows
      (fun l => ⟨l, m⟩ ∈ db.messageLabels) ->
      ⟨r.localId, m⟩ ∈ db.messageLabels := by
    intro r hr
    exact of_decide_eq_true (Catalog.mem_visibleRows.mp hr).right.left
  unfold messageLocation at h
  dsimp only at h
  split at h
  · rename_i r hsystem
    split at h
    · cases h
      rcases List.exists_of_findSome?_eq_some hsystem with ⟨n, _, hfind⟩
      exact hrow r (List.mem_of_find?_eq_some hfind)
    · cases h
  · split at h
    · rename_i r hrows
      cases h
      refine hrow r (List.mem_of_mem_filter (p := Catalog.isExclusiveLocation) ?_)
      rw [hrows]
      exact List.mem_singleton_self r
    · cases h

theorem mem_conversationLocations {c : LocalConversationId} {rid : LabelId}
    (hl : cat.labels.remoteIdCounterpart rid = some l)
    (hexclusive : (fromOptRid (some rid)).any
      (fun n => n ∈ Catalog.exclusiveLocations) = true)
    (hvisible : cat.visible l = true)
    (hin : (c, l) ∈ db.conversationLabels) :
    l ∈ db.conversationLocations cat c := by
  rcases Catalog.visible_row hl hvisible with ⟨r, hr, hid, hrid, hshown⟩
  have hsome : (fromOptRid r.remoteId).isSome := by
    rw [hrid]
    cases hrow : fromOptRid (some rid) with
    | none =>
        rw [hrow] at hexclusive
        cases hexclusive
    | some n => rfl
  refine List.mem_map.mpr ⟨r, List.mem_filter.mpr ⟨?_, ?_⟩, hid⟩
  · refine Catalog.mem_visibleRows.mpr ⟨hr, ?_, hshown⟩
    rw [hid]
    exact decide_eq_true hin
  · unfold Catalog.isExclusiveLocation
    rw [cat.system_type r hr hsome, hrid]
    cases hrow : fromOptRid (some rid) with
    | none =>
        rw [hrow] at hexclusive
        cases hexclusive
    | some n =>
        rw [hrow] at hexclusive
        exact hexclusive

end Mailbox

namespace MoveEntry

variable {db : Mailbox}

/-- The trash and spam are shown, so no location is overlooked. -/
structure Shown (cat : Catalog) : Prop where
  trash : cat.visible cat.trash = true
  spam : cat.visible cat.spam = true

theorem fits_exclusiveLocations {kinds : MailKind -> Prop} (hkind : kinds kind)
    (hshown : kinds MailKind.conversation -> Shown cat)
    (h : db.Sorted cat kinds) :
    Fits cat kind id db (db.exclusiveLocations cat kind id) := by
  intro m hm hknown hin
  cases kind with
  | message =>
      have hself : m = id := List.mem_singleton.mp hm
      cases hself
      have honce := h.once hkind id hknown
      have hcarries : forall l,
          l ∈ db.exclusiveLocations cat MailKind.message id ->
          ⟨l, id⟩ ∈ db.messageLabels := by
        intro l hl
        exact mem_of_messageLocation (Option.mem_toList.mp hl)
      rcases hin with hin | hin
      · refine ⟨fun _ => hin, ?_⟩
        intro hspam
        exact absurd hspam (honce (hcarries _ hin))
      · refine ⟨?_, fun _ => hin⟩
        intro htrash
        exact absurd (hcarries _ hin) (honce htrash)
  | conversation =>
      have hlisted := h.listed hkind
      constructor
      · intro htrash
        exact mem_conversationLocations cat.trash_id (by decide)
          (hshown hkind).trash (hlisted id m _ Catalog.Sorting.trash hm htrash)
      · intro hspam
        exact mem_conversationLocations cat.spam_id (by decide)
          (hshown hkind).spam (hlisted id m _ Catalog.Sorting.spam hm hspam)

theorem Elsewhere.exclusiveLocations {db' : Mailbox} {id' : Nat}
    (h : Elsewhere cat kind id db db') (hne : id' ≠ id) :
    db'.exclusiveLocations cat kind id' =
      db.exclusiveLocations cat kind id' := by
  cases kind with
  | message =>
      have hrows : forall l, (⟨l, id'⟩ ∈ db'.messageLabels) =
          (⟨l, id'⟩ ∈ db.messageLabels) := by
        intro l
        refine propext (h.labels ⟨l, id'⟩ ?_)
        exact fun hm => hne (List.mem_singleton.mp hm)
      simp only [Mailbox.exclusiveLocations, Mailbox.messageLocation, hrows]
  | conversation =>
      have hrows : forall l, ((id', l) ∈ db'.conversationLabels) =
          ((id', l) ∈ db.conversationLabels) := by
        intro l
        exact propext ((h.conversations rfl id' hne).left l)
      simp only [Mailbox.exclusiveLocations, Mailbox.conversationLocations,
        hrows]

end MoveEntry

/-!
# One action
-/

namespace MoveData

theorem updateEntries_sorted {kinds : MailKind -> Prop} (hkind : kinds kind)
    {destination : Option LocalLabelId}
    (hdestination : destination ≠ some cat.almostAllMail)
    (hshown : kinds MailKind.conversation -> MoveEntry.Shown cat)
    (entries : List (Nat × MoveEntry)) {db : Mailbox} (h : db.Sorted cat kinds)
    (hnodup : (entries.map Prod.fst).Nodup)
    (hnew : forall entry, entry ∈ entries -> entry.2 =
      { originalLocations := db.exclusiveLocations cat kind entry.1 }) :
    (updateEntries (fun id p => MoveEntry.moveTo cat kind id destination p)
      entries db).2.Sorted cat kinds := by
  induction entries generalizing db with
  | nil => exact h
  | cons entry rest ih =>
      rcases entry with ⟨id, e⟩
      have he : e = { originalLocations := db.exclusiveLocations cat kind id } :=
        hnew (id, e) List.mem_cons_self
      cases he
      rw [List.map_cons, List.nodup_cons] at hnodup
      have hmoved : (MoveEntry.moved cat kind id destination
          (db.exclusiveLocations cat kind id) db).Sorted cat kinds :=
        MoveEntry.moved_sorted hkind hdestination h
          (MoveEntry.fits_exclusiveLocations hkind hshown h)
      have helsewhere : MoveEntry.Elsewhere cat kind id db
          (MoveEntry.moved cat kind id destination
            (db.exclusiveLocations cat kind id) db) :=
        (MoveEntry.moveTo_spec destination _ db).elsewhere
      refine ih hmoved hnodup.right ?_
      intro entry hentry
      have hne : entry.1 ≠ id := by
        intro hid
        exact hnodup.left (List.mem_map.mpr ⟨entry, hentry, hid⟩)
      have hlocations := helsewhere.exclusiveLocations hne
      rw [hnew entry (List.mem_cons_of_mem _ hentry), <- hlocations]
      rfl

end MoveData

/-!
# Runs of actions
-/

/-- A move of messages or of conversations, built and applied. -/
structure Move where
  kind : MailKind
  destination : Option LocalLabelId
  targets : List Nat
  deriving DecidableEq, Repr

def Move.apply (cat : Catalog) (move : Move) (db : Mailbox) : Mailbox :=
  ((MoveData.new cat move.kind db move.destination move.targets).moveTo cat
    move.kind db).2

/-- Moves of some kinds to any label but almost all mail, one after the other. -/
def moves (cat : Catalog) (kinds : MailKind -> Prop) (db : Mailbox) :
    TransitionSystem Mailbox Move where
  init := fun s => s = db
  step := fun s move s' =>
    kinds move.kind ∧ move.destination ≠ some cat.almostAllMail ∧
      s' = move.apply cat s

section Runs

variable {kinds : MailKind -> Prop}
  (hshown : kinds MailKind.conversation -> MoveEntry.Shown cat)

include hshown

theorem Move.apply_sorted {move : Move} (hkind : kinds move.kind)
    (hdestination : move.destination ≠ some cat.almostAllMail) {db : Mailbox}
    (h : db.Sorted cat kinds) : (move.apply cat db).Sorted cat kinds := by
  refine MoveData.updateEntries_sorted hkind hdestination hshown _ h ?_ ?_
  · unfold MoveData.new
    rw [List.map_map]
    change (move.targets.dedup.map (fun id => id)).Nodup
    rw [List.map_id']
    exact List.nodup_dedup _
  · intro entry hentry
    rcases List.mem_map.mp hentry with ⟨id, _, rfl⟩
    rfl

theorem sorted_of_reachable {db : Mailbox} (h : db.Sorted cat kinds)
    {s : Mailbox} (hreach : Reachable (moves cat kinds db) s) :
    s.Sorted cat kinds := by
  induction hreach with
  | start hinit =>
      cases hinit
      exact h
  | next _ _ hstep ih =>
      rcases hstep with ⟨hkind, hdestination, rfl⟩
      exact Move.apply_sorted hshown hkind hdestination ih

end Runs

/--
Moves of messages ask only that no message is in both, those of conversations
only that its rows list the three labels and that trash and spam are shown.
-/
theorem rest_of_reachable (cat : Catalog) (kinds : MailKind -> Prop)
    (db : Mailbox) (hrest : db.RestIsAlmostAllMail cat)
    (hmessages : kinds MailKind.message -> db.NeverBoth cat)
    (hconversations : kinds MailKind.conversation ->
      MoveEntry.Shown cat ∧ db.Listed cat) (s : Mailbox)
    (hreach : Reachable (moves cat kinds db) s) : s.RestIsAlmostAllMail cat :=
  (sorted_of_reachable (fun hkind => (hconversations hkind).left)
    ⟨hrest, hmessages, fun hkind => (hconversations hkind).right⟩ hreach).rest

/-!
# A conversation in several locations
-/

/-- A conversation of two messages. -/
def twoMessages : Catalog where
  labels := withFolder
  messages := [⟨1, 1⟩, ⟨2, 1⟩]
  trash := 2
  spam := 3
  almostAllMail := 4
  ids_unique := by decide
  trash_id := oneConversation.trash_id
  spam_id := oneConversation.spam_id
  almostAllMail_id := oneConversation.almostAllMail_id
  system_type := oneConversation.system_type

/-- One message is in the trash, the other in the inbox. -/
def partlyTrashed : Mailbox where
  unread := {2}
  messageLabels := {⟨2, 1⟩, ⟨1, 2⟩, ⟨4, 2⟩}
  conversationLabels := {(1, 1), (1, 2), (1, 4)}
  numUnread := fun c => if c = 1 then 1 else 0

instance (cat : Catalog) : DecidablePred (Mailbox.RestIsAlmostAllMail cat) :=
  fun db => inferInstanceAs (Decidable (forall m,
    m ∈ cat.messages.map MessageRow.localId ->
    (⟨cat.almostAllMail, m⟩ ∈ db.messageLabels ↔
      ⟨cat.trash, m⟩ ∉ db.messageLabels ∧ ⟨cat.spam, m⟩ ∉ db.messageLabels)))

instance (cat : Catalog) : DecidablePred (Mailbox.NeverBoth cat) :=
  fun db => inferInstanceAs (Decidable (forall m,
    m ∈ cat.messages.map MessageRow.localId ->
    ⟨cat.trash, m⟩ ∈ db.messageLabels -> ⟨cat.spam, m⟩ ∉ db.messageLabels))

def toWork : Move := ⟨MailKind.conversation, some 5, [1]⟩

theorem partlyTrashed_rest :
    (toWork.apply twoMessages partlyTrashed).RestIsAlmostAllMail
      twoMessages := by
  refine rest_of_reachable twoMessages (fun _ => True)
    partlyTrashed (by decide +kernel) (fun _ => by decide +kernel)
    (fun _ => ⟨⟨by decide +kernel, by decide +kernel⟩, ?_⟩) _
    (Reachable.step (ReachableWhen.start rfl) ⟨True.intro, by decide, rfl⟩)
  intro c m l _ hm hin
  by_cases hc : c = 1
  · cases hc
    have hpair : (⟨l, m⟩ : LabelPair) = ⟨2, 1⟩ ∨
        (⟨l, m⟩ : LabelPair) = ⟨1, 2⟩ ∨ (⟨l, m⟩ : LabelPair) = ⟨4, 2⟩ := by
      simpa [partlyTrashed] using hin
    rcases hpair with hpair | hpair | hpair
    · cases hpair
      decide
    · cases hpair
      decide
    · cases hpair
      decide
  · have hnone : 1 ≠ c := fun h => hc h.symm
    simp [twoMessages, Catalog.messagesOf, hnone] at hm

/-- A message in the trash and in spam. -/
def inBoth : Mailbox where
  unread := ∅
  messageLabels := {⟨2, 1⟩, ⟨3, 1⟩, ⟨1, 2⟩, ⟨4, 2⟩}
  conversationLabels := {(1, 1), (1, 2), (1, 3), (1, 4)}
  numUnread := fun _ => 0

/-- The conversation does not list the spam of its second message. -/
def unlisted : Mailbox where
  unread := ∅
  messageLabels := {⟨2, 1⟩, ⟨3, 2⟩}
  conversationLabels := {(1, 2)}
  numUnread := fun _ => 0

/-- Spam is marked as deleted. -/
def spamHidden : Catalog :=
  { twoMessages with
    labels := LabelTable.ofRows [MoveData.folderRow 1 "0",
      MoveData.folderRow 2 "3",
      { MoveData.folderRow 3 "4" with deleted := 1 },
      MoveData.folderRow 4 "15", customFolder 5 "work" "Work" none] 6
      (by decide) (by decide) (by decide)
    trash_id := by decide
    spam_id := by decide
    almostAllMail_id := by decide
    system_type := by decide +kernel }

def spamListed : Mailbox :=
  { unlisted with conversationLabels := {(1, 2), (1, 3)} }

/-- Some run of such moves ends with mail that is wrongly in almost all mail. -/
def RestLost (cat : Catalog) (kind : MailKind) (db : Mailbox) : Prop :=
  exists s, Reachable (moves cat (fun k => k = kind) db) s ∧
    ¬ s.RestIsAlmostAllMail cat

theorem restLost_of_move {db : Mailbox} (move : Move)
    (hdestination : move.destination ≠ some cat.almostAllMail)
    (hlost : ¬ (move.apply cat db).RestIsAlmostAllMail cat) :
    RestLost cat move.kind db :=
  ⟨move.apply cat db,
    Reachable.step (ReachableWhen.start rfl) ⟨rfl, hdestination, rfl⟩, hlost⟩

/-- Each condition of `rest_of_reachable` is needed. -/
theorem rest_lost :
    (inBoth.RestIsAlmostAllMail twoMessages ∧
      RestLost twoMessages MailKind.message inBoth) ∧
    (unlisted.RestIsAlmostAllMail twoMessages ∧
      unlisted.NeverBoth twoMessages ∧ MoveEntry.Shown twoMessages ∧
      RestLost twoMessages MailKind.conversation unlisted) ∧
    (spamListed.RestIsAlmostAllMail spamHidden ∧
      spamListed.NeverBoth spamHidden ∧
      RestLost spamHidden MailKind.conversation spamListed) := by
  refine ⟨⟨by decide +kernel, ?_⟩, ⟨by decide +kernel, by decide +kernel,
    ⟨by decide +kernel, by decide +kernel⟩, ?_⟩, by decide +kernel,
    by decide +kernel, ?_⟩
  · exact restLost_of_move ⟨MailKind.message, some 5, [1]⟩ (by decide)
      (by decide +kernel)
  · exact restLost_of_move toWork (by decide) (by decide +kernel)
  · exact restLost_of_move toWork (by decide) (by decide +kernel)

end Actions
end MailClient
