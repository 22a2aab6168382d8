import Mathlib.Data.List.Basic
import Mathlib.Data.Int.Notation

/-!
# The definitions every layer shares

The account, its folders, the message as the application keeps it, what a folder
remembers between cycles, one batch of a cycle, and how a failure is handed on.

Numbers that the protocols and the store keep in a fixed width keep it here:
`UIDVALIDITY`, `EXISTS` and `UIDNEXT` are `UInt32`, a mod-sequence is `UInt64`.
Times are seconds since the Unix epoch, as integers.
-/

namespace Mailbag

/-- An Online Accounts account's identifier: a nonempty text. -/
structure AccountId where
  /-- The identifier's text. -/
  asStr : String
  /-- An empty text is not an account identifier. -/
  nonempty : asStr ≠ ""
  deriving DecidableEq

/-- The text as an account identifier, unless it is empty. -/
def AccountId.tryFrom (id : String) : Option AccountId :=
  if h : id = "" then none else some ⟨id, h⟩

@[simp] theorem AccountId.tryFrom_asStr (account : AccountId) :
    AccountId.tryFrom account.asStr = some account := by
  simp [AccountId.tryFrom, account.nonempty]

/-- An account is known by its text. -/
theorem AccountId.asStr_injective {a b : AccountId} (h : a.asStr = b.asStr) : a = b := by
  cases a
  cases b
  simpa using h

-- The texts of the accounts that the examples are about.
theorem account_ne_empty : "account" ≠ "" := by decide

theorem imap_ne_empty : "imap" ≠ "" := by decide

theorem other_ne_empty : "other" ≠ "" := by decide

/-- What the application makes of a folder's server roles. -/
inductive FolderRole where
  /-- The inbox. -/
  | inbox
  /-- Starred messages, a view. -/
  | starred
  /-- Important messages, a view. -/
  | important
  /-- Junk. -/
  | junk
  /-- Deleted messages. -/
  | trash
  /-- The archive. -/
  | archive
  /-- Drafts. -/
  | drafts
  /-- Sent messages. -/
  | sent
  /-- All mail, a view. -/
  | allMail
  deriving DecidableEq

/-- A folder of an account as its provider lists it. -/
structure Folder where
  /-- What the provider opens it by. -/
  identity : String
  /-- The server's name for display. -/
  name : String
  /-- The parent's identity; none directly under the account. -/
  parent : Option String
  /-- What the application makes of its roles. -/
  role : Option FolderRole
  /-- Whether it can be opened. -/
  selectable : Bool
  deriving DecidableEq

/-- A folder of one account, as a load and the window address it. -/
structure FolderRef where
  /-- The account. -/
  account : AccountId
  /-- The folder's identity. -/
  identity : String
  deriving DecidableEq

/-- Subject, sender and recipients. -/
structure DisplayFields where
  /-- The subject. -/
  subject : Option String
  /-- The sender. -/
  sender : Option String
  /-- The recipients. -/
  recipients : Option String
  deriving DecidableEq

/-- Why a message shows no text. -/
inductive ContentExplanation where
  /-- No supported plain text. -/
  | noPlainText (hasHtml : Bool)
  /-- Encrypted. -/
  | encrypted
  /-- S/MIME. -/
  | securedWithSMime
  /-- A character set nobody knows. -/
  | unknownCharset (name : String)
  /-- A transfer encoding nobody knows. -/
  | unknownEncoding (name : String)
  /-- The entity could not be read. -/
  | undecodable
  deriving DecidableEq

/-- The text of a message, or why the reader shows none. -/
inductive ReceivedContent where
  /-- The text. -/
  | text (text : String)
  /-- The content rules found no text to show. -/
  | explained (explanation : ContentExplanation)
  /-- The server could not describe the message. -/
  | structureUnreadable
  /-- The server did not return the text. -/
  | textNotReturned
  /-- No text was asked for: the message is older than the limit. -/
  | notDownloaded
  deriving DecidableEq

/-- A message as the application keeps it. -/
structure Message where
  /-- The message's identity within its account. -/
  identity : String
  /-- The fields for the list. -/
  fields : DisplayFields
  /-- The received date. -/
  receivedUnix : Option ℤ
  /-- The read state as the server last reported it. -/
  seen : Bool
  /-- The star as the server last reported it. -/
  flagged : Bool
  /-- The text, or why there is none. -/
  content : ReceivedContent
  /-- The first readable words. -/
  preview : String
  deriving DecidableEq

/-- A flag of a message the user can change. -/
inductive MessageFlag where
  /-- Read. -/
  | seen
  /-- The star. -/
  | flagged
  deriving DecidableEq

/-- Both flags of a message as a server reported them. -/
structure MessageFlags where
  /-- Read. -/
  seen : Bool
  /-- The star. -/
  flagged : Bool
  deriving DecidableEq

/-- The value of `flag` among a message's flags. -/
def flagOf : MessageFlag → MessageFlags → Bool
  | .seen, flags => flags.seen
  | .flagged, flags => flags.flagged

/-- The message's flags as the server last reported them. -/
def Message.flags (message : Message) : MessageFlags := ⟨message.seen, message.flagged⟩

/-- A change of one flag the user wants and the server may not have yet. -/
structure PendingChange where
  /-- The message. -/
  identity : String
  /-- The flag. -/
  flag : MessageFlag
  /-- The value the user wants. -/
  wanted : Bool
  deriving DecidableEq

/-- The numbers an IMAP folder's opening returns. -/
structure FolderNumbers where
  /-- UIDVALIDITY, the folder's numbering version; a server may give none. -/
  uidValidity : Option UInt32
  /-- EXISTS, how many messages the folder held. -/
  messageCount : UInt32
  /-- UIDNEXT, the next UID the server predicted; a server may give none. -/
  uidNext : Option UInt32
  /-- HIGHESTMODSEQ, of a mailbox that keeps mod-sequences. -/
  highestModseq : Option UInt64
  deriving DecidableEq

/-- What a folder remembers between cycles. -/
structure FolderState where
  /-- Microsoft 365: where the next round of changes starts. -/
  serverPosition : Option String
  /-- Microsoft 365: where an unfinished first fill continues. -/
  fillPlace : Option String
  /-- Whether the folder's latest cycle completed. -/
  synchronized : Bool
  /-- IMAP: the numbers of the folder's latest state pass. -/
  numbers : Option FolderNumbers
  deriving DecidableEq

/-- A folder never synchronized. -/
def FolderState.default : FolderState := ⟨none, none, false, none⟩

/-- One whole part of a cycle's result, stored in one transaction. -/
structure FolderBatch where
  /-- Identities proven gone from the folder. -/
  removed : List String
  /-- The server's flags of messages the folder holds. -/
  flagStates : List (String × MessageFlags)
  /-- Messages the folder did not hold but its account did. -/
  knownArrived : List (String × MessageFlags)
  /-- Full records to insert or update. -/
  arrived : List Message
  /-- The folder's state, when the batch changes it. -/
  state : Option FolderState
  deriving DecidableEq

/-- A batch that changes nothing. -/
def FolderBatch.default : FolderBatch := ⟨[], [], [], [], none⟩

/-- A message as the list shows it. -/
structure MessageListRow where
  /-- The message. -/
  identity : String
  /-- The fields. -/
  fields : DisplayFields
  /-- The received date. -/
  receivedUnix : Option ℤ
  /-- The read state as the user sees it. -/
  seen : Bool
  /-- The star as the user sees it. -/
  flagged : Bool
  /-- The preview. -/
  preview : String
  deriving DecidableEq

/-- Who said a remote text. -/
inductive RemoteSource where
  /-- An IMAP ALERT. -/
  | serverAlert
  /-- The mail server's reply to the step that failed. -/
  | serverReply
  /-- The mail service's message about a refused request. -/
  | serviceMessage
  /-- The platform's text about a failed connection. -/
  | system
  deriving DecidableEq

/-- Words of the remote side, and who said them. -/
structure RemoteText where
  /-- Who said them. -/
  source : RemoteSource
  /-- The words. -/
  text : String
  deriving DecidableEq

/-- What went wrong with the store. -/
inductive FailureKind where
  /-- The store met a full disk. -/
  | storageFull
  /-- Any other failure of a write to the store. -/
  | mailNotSaved
  /-- Any other failure of a read from the store. -/
  | storedMailUnreadable
  deriving DecidableEq

/-- The kind as a failure's details name it. -/
def FailureKind.debug : FailureKind → String
  | .storageFull => "StorageFull"
  | .mailNotSaved => "MailNotSaved"
  | .storedMailUnreadable => "StoredMailUnreadable"

/-- A failure the user may be told about. -/
structure Failure where
  /-- What went wrong. -/
  kind : FailureKind
  /-- What the remote side said in words. -/
  remoteTexts : List RemoteText
  /-- Identifiers for a report. -/
  details : String
  deriving DecidableEq

/-- Why fewer messages arrived than the mailbox offered: the server refused to finish
the list, with its reply and its code. -/
structure IncompleteList where
  /-- The reply. -/
  reply : String
  /-- Its code. -/
  code : Option String
  deriving DecidableEq

end Mailbag
