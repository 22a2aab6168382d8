import Mailbag.Domain
import Mailbag.Collections.Keyed
import Mathlib.Data.List.Sort

/-!
# The store's rows

The three tables of the store's schema, folders, messages and the memberships
between them, and what each function behind the store's operations does to them
inside the caller's transaction or read.

## The model

A table is the list of its rows. Every statement of the store names rows by `id`,
by `(account, identity)` or by a membership's pair; the schema makes each unique,
and `Store.Shape` proves that they are. A new row takes the next identifier as
SQLite does, one above the highest. `ON DELETE CASCADE` is in the two functions
that delete folders and messages. `content_kind` and `role` are enumerations where
the schema checks a text against a list of codes; `highest_modseq` keeps the 64
bits of a mod-sequence as SQLite's signed integer.
-/

namespace Mailbag.Store

open Collections

/-- The codes of `content_kind`. -/
inductive ContentCode where
  /-- `text`. -/
  | text
  /-- `plain_text_missing`. -/
  | plainTextMissing
  /-- `html_only`. -/
  | htmlOnly
  /-- `encrypted`. -/
  | encrypted
  /-- `smime`. -/
  | smime
  /-- `unknown_charset`. -/
  | unknownCharset
  /-- `unknown_encoding`. -/
  | unknownEncoding
  /-- `undecodable`. -/
  | undecodable
  /-- `structure_unreadable`. -/
  | structureUnreadable
  /-- `text_not_returned`. -/
  | textNotReturned
  /-- `not_downloaded`. -/
  | notDownloaded
  deriving DecidableEq

/-- The code and the detail stored for a content. -/
def contentColumns : ReceivedContent → ContentCode × Option String
  | .text text => (.text, some text)
  | .explained (.noPlainText false) => (.plainTextMissing, none)
  | .explained (.noPlainText true) => (.htmlOnly, none)
  | .explained .encrypted => (.encrypted, none)
  | .explained .securedWithSMime => (.smime, none)
  | .explained (.unknownCharset name) => (.unknownCharset, some name)
  | .explained (.unknownEncoding name) => (.unknownEncoding, some name)
  | .explained .undecodable => (.undecodable, none)
  | .structureUnreadable => (.structureUnreadable, none)
  | .textNotReturned => (.textNotReturned, none)
  | .notDownloaded => (.notDownloaded, none)

/-- A row of `folder`. -/
structure StoredFolder where
  /-- The row. -/
  id : ℕ
  /-- The account. -/
  account : String
  /-- The folder within it. -/
  identity : String
  /-- The server's name for display. -/
  name : String
  /-- The parent's identity. -/
  parent : Option String
  /-- The role. -/
  role : Option FolderRole
  /-- Whether it can be opened. -/
  selectable : Bool
  /-- Where the next round of changes starts. -/
  serverPosition : Option String
  /-- Where an unfinished first fill continues. -/
  fillPlace : Option String
  /-- Whether its latest cycle completed. -/
  synchronized : Bool
  /-- UIDVALIDITY. -/
  uidValidity : Option UInt32
  /-- EXISTS. -/
  messageCount : Option UInt32
  /-- UIDNEXT. -/
  uidNext : Option UInt32
  /-- HIGHESTMODSEQ. -/
  highestModseq : Option Int64
  deriving DecidableEq

/-- A row of `message`. -/
structure StoredMessage where
  /-- The row. -/
  id : ℕ
  /-- The account. -/
  account : String
  /-- The message within it. -/
  identity : String
  /-- The subject. -/
  subject : Option String
  /-- The sender. -/
  sender : Option String
  /-- The recipients. -/
  recipients : Option String
  /-- The received date. -/
  received : Option ℤ
  /-- The read state as the server last reported it. -/
  seen : Bool
  /-- The star as the server last reported it. -/
  flagged : Bool
  /-- The read state the user wants and the server may not have yet. -/
  seenPending : Option Bool
  /-- The star the user wants and the server may not have yet. -/
  flaggedPending : Option Bool
  /-- The content's code. -/
  contentKind : ContentCode
  /-- The content's detail. -/
  contentDetail : Option String
  /-- The preview. -/
  preview : String
  deriving DecidableEq

/-- A row of `membership`: a message's place in a folder. -/
structure Membership where
  /-- The folder's row. -/
  folder : ℕ
  /-- The message's row. -/
  message : ℕ
  deriving DecidableEq

/-- The store's tables. -/
structure Tables where
  /-- `folder`. -/
  folders : List StoredFolder
  /-- `message`. -/
  messages : List StoredMessage
  /-- `membership`. -/
  memberships : List Membership
  deriving DecidableEq

/-- An empty store. -/
def Tables.empty : Tables := ⟨[], [], []⟩

/-- The key the schema makes unique among folders. -/
def StoredFolder.key (row : StoredFolder) : String × String := (row.account, row.identity)

/-- The key the schema makes unique among messages. -/
def StoredMessage.key (row : StoredMessage) : String × String := (row.account, row.identity)

/-- The row with what a folder list says of its folder. -/
def StoredFolder.relisted (row : StoredFolder) (folder : Folder) : StoredFolder :=
  { row with
    name := folder.name
    parent := folder.parent
    role := folder.role
    selectable := folder.selectable }

/-- The row of a folder never synchronized. -/
def StoredFolder.insert (id : ℕ) (account : AccountId) (folder : Folder) : StoredFolder where
  id := id
  account := account.asStr
  identity := folder.identity
  name := folder.name
  parent := folder.parent
  role := folder.role
  selectable := folder.selectable
  serverPosition := none
  fillPlace := none
  synchronized := false
  uidValidity := none
  messageCount := none
  uidNext := none
  highestModseq := none

/-- The content columns after a full record over the stored ones: a text not downloaded
never replaces a content, and one the server did not return never replaces a text. -/
def mergedContent (stored excluded : ContentCode × Option String) : ContentCode × Option String :=
  if excluded.1 = .notDownloaded ∨ (excluded.1 = .textNotReturned ∧ stored.1 = .text) then stored
    else excluded

/-- The row with a full record over it: its pending values stay. -/
def StoredMessage.rewritten (row : StoredMessage) (message : Message) : StoredMessage :=
  let content := mergedContent (row.contentKind, row.contentDetail) (contentColumns message.content)
  { row with
    subject := message.fields.subject
    sender := message.fields.sender
    recipients := message.fields.recipients
    received := message.receivedUnix
    seen := message.seen
    flagged := message.flagged
    preview := message.preview
    contentKind := content.1
    contentDetail := content.2 }

/-- The row of a full record the account did not hold. -/
def StoredMessage.insert (id : ℕ) (account : AccountId) (message : Message) : StoredMessage where
  id := id
  account := account.asStr
  identity := message.identity
  subject := message.fields.subject
  sender := message.fields.sender
  recipients := message.fields.recipients
  received := message.receivedUnix
  seen := message.seen
  flagged := message.flagged
  seenPending := none
  flaggedPending := none
  contentKind := (contentColumns message.content).1
  contentDetail := (contentColumns message.content).2
  preview := message.preview

/-- The identifier SQLite gives a new row. -/
def nextId (ids : List ℕ) : ℕ := ids.foldr max 0 + 1

namespace Tables

variable (t : Tables)

/-- The message row of an account and identity. -/
def message? (account identity : String) : Option StoredMessage :=
  lookup StoredMessage.key t.messages (account, identity)

/-- The folder row of an account and identity. -/
def folder? (account identity : String) : Option StoredFolder :=
  lookup StoredFolder.key t.folders (account, identity)

/-- The message row with an identifier. -/
def messageById (id : ℕ) : Option StoredMessage := lookup StoredMessage.id t.messages id

/-- Delete the folders that satisfy `p`, with their memberships. -/
def deleteFoldersWhere (p : StoredFolder → Bool) : Tables where
  folders := t.folders.filter fun row => !p row
  messages := t.messages
  memberships := t.memberships.filter fun m => !t.folders.any fun row => p row && row.id == m.folder

/-- Delete the messages that satisfy `p`, with their memberships. -/
def deleteMessagesWhere (p : StoredMessage → Bool) : Tables where
  folders := t.folders
  messages := t.messages.filter fun row => !p row
  memberships := t.memberships.filter fun m => !t.messages.any fun row => p row && row.id ==
    m.message

/-- Change the message row of an account and identity by `f`. -/
def updateMessage (account identity : String) (f : StoredMessage → StoredMessage) : Tables :=
  { t with messages := t.messages.map fun row => if row.key = (account, identity) then f row
    else row }

/-! ### Folders -/

/-- Delete the account's folders that `listed` does not hold, with their memberships. -/
def deleteUnlistedFolders (account : AccountId) (listed : List Folder) : Tables :=
  (t.folders.filter fun row => row.account = account.asStr).foldl
    (fun t row =>
      if row.identity ∈ listed.map Folder.identity then t
        else t.deleteFoldersWhere fun r => r.id = row.id)
    t

/-- Update the listed folder when the store holds it, keeping its state, and insert it as
never synchronized when not. -/
def upsertFolder (account : AccountId) (folder : Folder) : Tables :=
  match t.folder? account.asStr folder.identity with
  | some _ =>
    { t with
      folders := t.folders.map fun row =>
        if row.key = (account.asStr, folder.identity) then row.relisted folder else row }
  | none =>
    { t with folders := t.folders ++
      [StoredFolder.insert (nextId (t.folders.map StoredFolder.id)) account folder] }

/-- Update the listed folders the store holds and insert the others. -/
def upsertFolders (account : AccountId) (folders : List Folder) : Tables :=
  folders.foldl (fun t folder => t.upsertFolder account folder) t

/-- The store's row of the folder. -/
def storedFolderId (folder : FolderRef) : Option ℕ :=
  (t.folder? folder.account.asStr folder.identity).map StoredFolder.id

end Tables

/-- The saved state of a row. The numbers are written together, and a server gives the
count with every opening, so the count says whether a pass stored them. -/
def StoredFolder.state (row : StoredFolder) : FolderState where
  serverPosition := row.serverPosition
  fillPlace := row.fillPlace
  synchronized := row.synchronized
  numbers := row.messageCount.map fun messageCount =>
    { uidValidity := row.uidValidity, messageCount := messageCount, uidNext := row.uidNext,
      highestModseq := row.highestModseq.map Int64.toUInt64 }

/-- The row with another saved state. -/
def StoredFolder.withState (row : StoredFolder) (state : FolderState) : StoredFolder :=
  { row with
    serverPosition := state.serverPosition
    fillPlace := state.fillPlace
    synchronized := state.synchronized
    uidValidity := state.numbers.bind FolderNumbers.uidValidity
    messageCount := state.numbers.map FolderNumbers.messageCount
    uidNext := state.numbers.bind FolderNumbers.uidNext
    highestModseq := (state.numbers.bind FolderNumbers.highestModseq).map UInt64.toInt64 }

/-- The server's flags of a row. -/
def StoredMessage.flags (row : StoredMessage) : MessageFlags := ⟨row.seen, row.flagged⟩

/-- The row with the server's flags. -/
def StoredMessage.withFlags (row : StoredMessage) (flags : MessageFlags) : StoredMessage :=
  { row with seen := flags.seen, flagged := flags.flagged }

namespace Tables

variable (t : Tables)

/-- The folder's saved state. -/
def readFolderState (folderId : ℕ) : Option FolderState :=
  (lookup StoredFolder.id t.folders folderId).map StoredFolder.state

/-- The messages a folder holds. -/
def heldMessages (folderId : ℕ) : List StoredMessage :=
  t.memberships.filterMap fun m => if m.folder = folderId then t.messageById m.message else none

/-- The identity and the server's flags of every message the folder holds: a hash map,
here in the order of the memberships. -/
def readFolderIdentities (folderId : ℕ) : List (String × MessageFlags) :=
  (t.heldMessages folderId).map fun row => (row.identity, row.flags)

/-- Which of `identities` the account holds. -/
def readStoredIdentities (account : AccountId) (identities : List String) : List String :=
  identities.filter fun identity => (t.message? account.asStr identity).isSome

/-- Which of `identities` another folder of the folder's account holds. -/
def readIdentitiesInOtherFolders (folder : FolderRef) (identities : List String) : List String :=
  identities.filter fun identity =>
    t.messages.any fun row => row.key = (folder.account.asStr, identity) &&
      t.memberships.any fun m => m.message = row.id &&
        t.folders.any fun other => other.id = m.folder && other.identity != folder.identity

/-- Delete the folder's memberships of messages proven gone from it. -/
def deleteMemberships (folderId : ℕ) (account : AccountId) (removed : List String) : Tables :=
  removed.foldl
    (fun t identity =>
      { t with
        memberships := t.memberships.filter fun m =>
          ¬(m.folder = folderId ∧ some m.message = (t.message? account.asStr identity).map
            StoredMessage.id) })
    t

/-- Write the flags a server reported for the account's messages. The pending values stay. -/
def setFlagStates (account : AccountId) (flagStates : List (String × MessageFlags)) : Tables :=
  flagStates.foldl (fun t entry => t.updateMessage account.asStr entry.1 fun row =>
    row.withFlags entry.2) t

/-- Store a full record once by its identity; the row's identifier. -/
def upsertMessage (account : AccountId) (message : Message) : Tables × ℕ :=
  match t.message? account.asStr message.identity with
  | some stored =>
    (t.updateMessage account.asStr message.identity fun row => row.rewritten message, stored.id)
  | none =>
    let id := nextId (t.messages.map StoredMessage.id)
    ({ t with messages := t.messages ++ [StoredMessage.insert id account message] }, id)

/-- Relate a message to a folder, unless it is. -/
def relate (folderId messageId : ℕ) : Tables :=
  if ⟨folderId, messageId⟩ ∈ t.memberships then t
  else { t with memberships := t.memberships ++ [⟨folderId, messageId⟩] }

/-- Store each full record and relate it to the folder. -/
def storeArrived (folderId : ℕ) (account : AccountId) (arrived : List Message) : Tables :=
  arrived.foldl
    (fun t message =>
      let (t, messageId) := t.upsertMessage account message
      t.relate folderId messageId)
    t

/-- Relate a message the account holds to the folder; one it no longer holds is left out. -/
def relateStored (folderId : ℕ) (account : AccountId) (identity : String) : Tables :=
  match t.message? account.asStr identity with
  | some row => t.relate folderId row.id
  | none => t

/-- Relate messages the account already holds to the folder, with their listed flags. -/
def relateKnown (folderId : ℕ) (account : AccountId)
    (knownArrived : List (String × MessageFlags)) : Tables :=
  (knownArrived.foldl (fun t entry => t.relateStored folderId account entry.1) t).setFlagStates
    account knownArrived

/-- The changes of the folder's messages the user wants and the server may not have yet. -/
def readPendingChanges (folderId : ℕ) : List PendingChange :=
  (t.heldMessages folderId).flatMap fun row =>
    (row.seenPending.map fun wanted => ⟨row.identity, .seen, wanted⟩).toList ++
      (row.flaggedPending.map fun wanted => ⟨row.identity, .flagged, wanted⟩).toList

/-- Save the folder's state. -/
def writeFolderState (folderId : ℕ) (state : FolderState) : Tables :=
  { t with folders := t.folders.map fun row => if row.id = folderId then row.withState state
    else row }

/-- Delete the account's messages that no folder holds. -/
def deleteMessagesWithoutFolder (account : AccountId) : Tables :=
  t.deleteMessagesWhere fun row => row.account = account.asStr && !t.memberships.any fun m =>
    m.message = row.id

/-- Whether a row is listed before another: by its received date, newest first and one
without a date last, then by its identifier, highest first. -/
def listedBefore (a b : StoredMessage) : Bool :=
  match a.received, b.received with
  | some x, some y => y < x || (x = y && b.id ≤ a.id)
  | some _, none => true
  | none, some _ => false
  | none, none => b.id ≤ a.id

/-- A row as the list shows it: each flag is the user's pending value where there is one,
otherwise the server's. -/
def listRow (row : StoredMessage) : MessageListRow where
  identity := row.identity
  fields := ⟨row.subject, row.sender, row.recipients⟩
  receivedUnix := row.received
  seen := row.seenPending.getD row.seen
  flagged := row.flaggedPending.getD row.flagged
  preview := row.preview

/-- The rows of the messages a folder holds, in the order of the list. -/
def readListedRows (folderId : ℕ) : List MessageListRow :=
  ((t.heldMessages folderId).insertionSort fun a b => listedBefore a b = true).map listRow

end Tables

/-- The row's pending value of a flag. -/
def StoredMessage.pending (row : StoredMessage) : MessageFlag → Option Bool
  | .seen => row.seenPending
  | .flagged => row.flaggedPending

/-- The row with another pending value of a flag. -/
def StoredMessage.withPending (row : StoredMessage) : MessageFlag → Option Bool → StoredMessage
  | .seen, wanted => { row with seenPending := wanted }
  | .flagged, wanted => { row with flaggedPending := wanted }

/-- The row with another value of a flag as the server's. -/
def StoredMessage.withFlag (row : StoredMessage) : MessageFlag → Bool → StoredMessage
  | .seen, value => { row with seen := value }
  | .flagged, value => { row with flagged := value }

/-- SQLite's `NULLIF`: nothing when the pending value equals `value`. -/
def nullIf (pending : Option Bool) (value : Bool) : Option Bool :=
  if pending = some value then none else pending

end Mailbag.Store
