import Mathlib.Data.List.Count
import MailClient.Foundation.Loop
import MailClient.Messages.Ids

/-!
# The messages of a page of conversations

With each page of conversations their messages are fetched, page by page, and
the conversations are saved as ones whose messages are there.
-/

namespace MailClient
namespace Scroller
namespace ConversationMessages

open Foundation

structure ApiMessageMetadata where
  id : MessageId
  conversationId : ConversationId
deriving DecidableEq, Repr

structure GetConversationsResponse where
  conversations : List ConversationId
  total : Nat
  stale : Bool
deriving DecidableEq, Repr

structure GetMessagesOptions where
  conversationId : List ConversationId
  page : Nat
  pageSize : Nat

structure GetMessagesResponse where
  messages : List ApiMessageMetadata
  total : Nat
deriving DecidableEq, Repr

structure Session (options failure : Type) where
  getConversations : options -> Except failure GetConversationsResponse
  getMessages : GetMessagesOptions -> Except failure GetMessagesResponse

def messagePageSize : Nat :=
  100

section Fetching

variable {options failure : Type} (session : Session options failure)

/-- The messages so far and the index of the next page. -/
abbrev Fetched :=
  List ApiMessageMetadata × Nat

def fetchPage (conversationIds : List ConversationId) (s : Fetched) :
    Flow Fetched (Except failure (List ApiMessageMetadata)) :=
  match session.getMessages
    { conversationId := conversationIds, page := s.2, pageSize := messagePageSize } with
  | Except.error e => Flow.done (Except.error e)
  | Except.ok response =>
      let wasEmpty := s.1.isEmpty
      let messages := s.1 ++ response.messages
      if wasEmpty || messages.length == response.total then
        Flow.done (Except.ok messages)
      else
        Flow.again (messages, s.2 + 1)

/-- Without an outcome if the loop is still running when the fuel is used up. -/
def fetchConversationsAndMessages (fuel : Nat) (o : options) :
    Option (Except failure (GetConversationsResponse × List ApiMessageMetadata)) :=
  match session.getConversations o with
  | Except.error e => some (Except.error e)
  | Except.ok response =>
      if response.conversations.isEmpty then
        some (Except.ok (response, []))
      else
        (loop (fun _ s => some (fetchPage session response.conversations s)) fuel
          ([], 0)).map (fun messages => messages.map (fun messages => (response, messages)))

end Fetching

structure Conversation where
  remoteId : ConversationId
  hasMessages : Bool
deriving DecidableEq, Repr

/-- The conversations that `save_conversations` saves. -/
def savedConversations (deleted : List ConversationId)
    (response : GetConversationsResponse) : List Conversation :=
  (response.conversations.filter (fun id => id ∉ deleted)).map (fun id => ⟨id, true⟩)

/-!
# A server that does not change
-/

/-- The messages of the server in the order in which it lists them. -/
structure Server (options : Type) where
  messages : List ApiMessageMetadata
  conversations : options -> GetConversationsResponse

namespace Server

variable {options failure : Type} (server : Server options)

def listing (ids : List ConversationId) : List ApiMessageMetadata :=
  server.messages.filter (fun message => message.conversationId ∈ ids)

def session : Session options failure where
  getConversations o := Except.ok (server.conversations o)
  getMessages o := Except.ok
    { messages := ((server.listing o.conversationId).drop (o.page * o.pageSize)).take
        o.pageSize
      total := (server.listing o.conversationId).length }

/--
The fetch ends and gives each message of the conversations once, so that those
are right that are saved as ones with all their messages.
-/
structure AllFetched (failure : Type) (o : options) : Prop where
  fetched : exists fuel messages,
    fetchConversationsAndMessages (server.session : Session options failure) fuel o =
      some (Except.ok (server.conversations o, messages)) ∧
    messages.Perm (server.listing (server.conversations o).conversations) ∧
    forall deleted c, c ∈ savedConversations deleted (server.conversations o) ->
      forall message, message ∈ server.messages ->
        message.conversationId = c.remoteId -> message ∈ messages

theorem listing_nil : server.listing [] = [] :=
  List.filter_eq_nil_iff.mpr (fun _ _ h => by
    rw [decide_eq_true_eq] at h
    exact absurd h List.not_mem_nil)

theorem fetchPage_first (ids : List ConversationId) :
    fetchPage (server.session : Session options failure) ids ([], 0) =
      Flow.done (Except.ok ((server.listing ids).take messagePageSize)) := by
  unfold fetchPage session
  dsimp only
  rw [Nat.zero_mul, List.drop_zero]
  rfl

theorem fetch_eq_some {fuel : Nat} {o : options} {response : GetConversationsResponse}
    {messages : List ApiMessageMetadata}
    (h : fetchConversationsAndMessages (server.session : Session options failure) fuel o =
      some (Except.ok (response, messages))) :
    messages =
      (server.listing (server.conversations o).conversations).take messagePageSize := by
  unfold fetchConversationsAndMessages at h
  have hconversations : (server.session : Session options failure).getConversations o =
      Except.ok (server.conversations o) := rfl
  rw [hconversations] at h
  dsimp only at h
  split at h
  · rename_i hempty
    cases h
    rw [List.isEmpty_iff.mp hempty, listing_nil]
    rfl
  · cases fuel with
    | zero => cases h
    | succ fuel =>
        unfold loop at h
        rw [fetchPage_first] at h
        cases h
        rfl

theorem fetch_returns (o : options) :
    fetchConversationsAndMessages (server.session : Session options failure) 1 o =
      some (Except.ok (server.conversations o,
        (server.listing (server.conversations o).conversations).take messagePageSize)) := by
  unfold fetchConversationsAndMessages
  have hconversations : (server.session : Session options failure).getConversations o =
      Except.ok (server.conversations o) := rfl
  rw [hconversations]
  dsimp only
  split
  · rename_i hempty
    rw [List.isEmpty_iff.mp hempty, listing_nil]
    rfl
  · unfold loop
    rw [fetchPage_first]
    rfl

/-- Nothing is missing exactly if all messages fit on one page. -/
theorem allFetched_iff (failure : Type) (o : options) :
    server.AllFetched failure o ↔
      (server.listing (server.conversations o).conversations).length ≤
        messagePageSize := by
  constructor
  · rintro ⟨fuel, messages, hfetch, hperm, _⟩
    have hlength := hperm.length_eq
    rw [server.fetch_eq_some hfetch, List.length_take] at hlength
    rw [<- hlength]
    exact Nat.min_le_left _ _
  · intro hshort
    refine ⟨1, _, server.fetch_returns o, ?_, ?_⟩
    · rw [List.take_of_length_le hshort]
    · intro deleted c hc message hmessage hconversation
      rcases List.mem_map.mp hc with ⟨id, hid, rfl⟩
      have hlisted := (List.mem_filter.mp hid).left
      rw [List.take_of_length_le hshort]
      refine List.mem_filter.mpr ⟨hmessage, decide_eq_true ?_⟩
      rw [hconversation]
      exact hlisted

/-- One conversation with one message more than a page has. -/
def longConversation : Server Unit where
  messages := (List.range 101).map (fun n => ⟨toString n, "conversation"⟩)
  conversations := fun _ => ⟨["conversation"], 1, false⟩

theorem longConversation_incomplete :
    ¬ forall server : Server Unit, server.AllFetched Unit () := by
  intro hall
  rcases (hall longConversation).fetched with ⟨fuel, messages, hfetch, hperm, _⟩
  have hlength := hperm.length_eq
  rw [fetch_eq_some _ hfetch] at hlength
  revert hlength
  decide +kernel

end Server

end ConversationMessages
end Scroller
end MailClient
