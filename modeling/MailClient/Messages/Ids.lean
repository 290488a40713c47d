/-!
# Ids

Local ids are those of the rows of the database, the others are ids of the
server.
-/

namespace MailClient

abbrev LocalLabelId := Nat

abbrev LabelId := String

abbrev LocalMessageId := Nat

abbrev MessageId := String

abbrev LocalConversationId := Nat

abbrev ConversationId := String

abbrev LocalAttachmentId := Nat

abbrev MetadataId := Nat

abbrev AddressId := String

/-- A row of `message_labels`. -/
structure LabelPair where
  label : LocalLabelId
  id : LocalMessageId
  deriving DecidableEq, Repr

end MailClient
