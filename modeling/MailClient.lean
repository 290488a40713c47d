import MailClient.Foundation.Transition
import MailClient.Foundation.Graph
import MailClient.Foundation.TopologicalSort
import MailClient.Foundation.Calendar
import MailClient.Foundation.Seek
import MailClient.Foundation.Loop
import MailClient.Messages.Ids
import MailClient.Messages.SyncDecision
import MailClient.ActionQueue.Store
import MailClient.ActionQueue.StoredAction
import MailClient.ActionQueue.Queue
import MailClient.ActionQueue.Effects
import MailClient.ActionQueue.Shrinking
import MailClient.ActionQueue.Transactions
import MailClient.ActionQueue.Acyclicity
import MailClient.ActionQueue.Execution
import MailClient.ActionQueue.RebaseOrder
import MailClient.ActionQueue.System
import MailClient.ActionQueue.Guards
import MailClient.ActionQueue.Broadcasts
import MailClient.Scroller.Update
import MailClient.Scroller.Worker
import MailClient.Scroller.Mirror
import MailClient.Recurrence.Jiff
import MailClient.Recurrence.Rule
import MailClient.Recurrence.Fact
import MailClient.Recurrence.Jumps
import MailClient.Recurrence.Matches
import MailClient.Recurrence.Landing
import MailClient.Recurrence.Overshoot
import MailClient.Recurrence.Picker
import MailClient.Recurrence.Iterator
import MailClient.Recurrence.Search
import MailClient.Recurrence.Walk
import MailClient.Recurrence.Found
import MailClient.Recurrence.Groups
import MailClient.Recurrence.Fresh
import MailClient.Recurrence.Dates
import MailClient.Recurrence.Begin
import MailClient.Labels.Label
import MailClient.Labels.Update
import MailClient.Labels.Refresh
import MailClient.Actions.Rollback
import MailClient.EventLoop.Poller
import MailClient.Foundation.Dedup
import MailClient.Scroller.Channel
import MailClient.Scroller.Requests
import MailClient.Scroller.Respawn
import MailClient.Scroller.ViewChanges
import MailClient.Scroller.DataSource
import MailClient.Scroller.HybridSearch
import MailClient.Scroller.PageOrder
import MailClient.Scroller.SearchPages
import MailClient.Actions.Mailbox
import MailClient.Foundation.Recorded
import MailClient.Actions.Move
import MailClient.Actions.MoveRecord
import MailClient.Actions.MoveUndo
import MailClient.Actions.MoveRebase
import MailClient.Actions.PendingUndo
import MailClient.SyncMediator.Mediator
import MailClient.SyncMediator.Retry
import MailClient.BackwardSync.Service
import MailClient.Actions.Counters
import MailClient.Actions.OfflineLabels
import MailClient.BackwardSync.Driver
import MailClient.Labels.Delete
import MailClient.Actions.ServerCounters
import MailClient.AttachmentCache.Cache
import MailClient.SearchIndex.Worker
import MailClient.SearchIndex.Convergence
import MailClient.BackwardSync.PagedHistory
import MailClient.ActionQueue.DependencyTypes
import MailClient.ActionQueue.Cancellation
import MailClient.ActionQueue.FailedExecution
import MailClient.ActionQueue.Draining
import MailClient.TaskService.Service
import MailClient.TaskService.Pausing
import MailClient.TaskService.Background
import MailClient.Drafts.Attachments
import MailClient.Drafts.Metadata
import MailClient.NetworkMonitor.Service
import MailClient.Drafts.Composer
import MailClient.Rsvp.Answer
import MailClient.Rsvp.SingleEdits
import MailClient.ActionQueue.Replacement
import MailClient.Recurrence.FixedPoints
import MailClient.Recurrence.Selection
import MailClient.Recurrence.YearlyOrdinals
import MailClient.Foundation.Folding
import MailClient.Ical.Writer
import MailClient.Ical.Reader
import MailClient.Ical.Folding
import MailClient.Ical.Text
import MailClient.Ical.ParamValue
import MailClient.Recurrence.Series
import MailClient.Recurrence.Copies
import MailClient.Recurrence.Monthly
import MailClient.Recurrence.Ordinals
import MailClient.Foundation.Keyset
import MailClient.Scroller.Rows
import MailClient.Scroller.KeysetPaging
import MailClient.Scroller.SyncedRange
import MailClient.Scroller.SearchPaging
import MailClient.Scroller.SearchRows
import MailClient.Scroller.SearchSaving
import MailClient.Foundation.Utf8
import MailClient.Ical.Malformed
import MailClient.Foundation.PercentEncoding
import MailClient.Mailto.Routes
import MailClient.Scroller.Cursor
import MailClient.Scroller.CursorOrder
import MailClient.Actions.StoredMoves
import MailClient.Scroller.ConversationMessages
import MailClient.Actions.AlmostAllMail
import MailClient.Actions.SharedTables
import MailClient.Conversations.Stats
import MailClient.Conversations.Tables
import MailClient.Conversations.Labelling
import MailClient.Conversations.LabelSpec
import MailClient.Foundation.Counting
import MailClient.Conversations.Incremental
import MailClient.Conversations.Balance
import MailClient.Conversations.OneMessage
import MailClient.Conversations.UnlabelSpec
import MailClient.Conversations.SoftDelete
import MailClient.Conversations.SoftDeleteSpec
import MailClient.Conversations.RowsUndone
import MailClient.Conversations.Undelete
import MailClient.Conversations.DeletionUndone
import MailClient.AttachmentCache.Cleanup
import MailClient.Messages.BodyMetadata
import MailClient.EventLoop.Manager
import MailClient.Labels.Edits
import MailClient.Labels.Dependencies
import MailClient.Labels.Ancestry
import MailClient.Messages.SaveLoaded
import MailClient.Drafts.DistinctRecipients
import MailClient.Drafts.Recipients
import MailClient.Drafts.SavedRecipients
import MailClient.Foundation.Separators
import MailClient.Foundation.Slices
import MailClient.Foundation.Table
import MailClient.Foundation.Writes
import MailClient.Foundation.Tally
import MailClient.Foundation.Replace
import MailClient.Foundation.ChangeLog
import MailClient.HistoricMailbox.Visits
import MailClient.HistoricMailbox.Walker
import MailClient.SearchIndex.Retries
import MailClient.SearchIndex.Unblocked
import MailClient.TaskService.NonPausable
import MailClient.Vcard.Checked
import MailClient.Vcard.Digits
import MailClient.Vcard.Escapes
import MailClient.Vcard.Lists
import MailClient.Vcard.Panics
import MailClient.Vcard.SurvivingLists
import MailClient.Vcard.Timestamps
import MailClient.Vcard.Values
import MailClient.Drafts.Expiration
import MailClient.Drafts.Uploads
import MailClient.Drafts.AttachmentOrder
import MailClient.Drafts.SenderAddress
import MailClient.Drafts.Sending
import MailClient.Drafts.SentDraft
import MailClient.Drafts.SendReverted
