import Mailbag.Store.Rows
import Mathlib.Data.List.Dedup

/-!
# The store's operations

Each operation of the store is a `StoreCall` with the type of its answer. `call`
carries one out: it runs in one transaction, whole or not at all, under the
store's lock. `Circumstances` say what the operation meets: whether the load it
belongs to was cancelled by then, and whether SQLite or the file system fails it,
at its opening, in a statement or at the commit.
-/

namespace Mailbag.Store

/-- Whether an operation reads the store or changes it. -/
inductive StoreOperation where
  /-- It reads. -/
  | read
  /-- It writes. -/
  | write
  deriving DecidableEq

/-- What failed inside the store, as SQLite or the file system reported it. -/
structure StoreError where
  /-- The disk is full. -/
  diskFull : Bool
  /-- Their words. -/
  reported : String
  deriving DecidableEq

/-- A row that a statement needs does not exist. -/
def StoreError.noRows : StoreError := ⟨false, "SQLite: Query returned no rows"⟩

/-- The failure of an operation: a full disk whatever the operation, otherwise by what
it did. -/
def storageFailure (operation : StoreOperation) (error : StoreError) : Failure :=
  let kind :=
    match error.diskFull, operation with
    | true, _ => .storageFull
    | false, .write => .mailNotSaved
    | false, .read => .storedMailUnreadable
  { kind, remoteTexts := [], details := s!"Failure: {kind.debug}\n{error.reported}" }

/-- What a cycle reads of its folder at its start. -/
structure FolderSync where
  /-- The folder's state. -/
  state : FolderState
  /-- The identity and the server's flags of every message the folder holds. -/
  stored : List (String × MessageFlags)
  deriving DecidableEq

/-- The server's flags of a message the folder holds. -/
def FolderSync.get (sync : FolderSync) (identity : String) : Option MessageFlags :=
  sync.stored.lookup identity

/-- How a write of a load's result ended when it did not fail. -/
inductive StoreWrite where
  /-- It is written. -/
  | stored
  /-- The load was cancelled before, so nothing was written. -/
  | loadCancelled
  deriving DecidableEq

/-- An operation of the store. -/
inductive StoreCall where
  /-- Replace the account's folder list with a completed one. -/
  | replaceFolders (account : AccountId) (folders : List Folder)
  /-- What a cycle needs of the folder at its start. -/
  | readFolderSync (folder : FolderRef)
  /-- Which of the identities the account already holds. -/
  | storedIdentities (account : AccountId) (identities : List String)
  /-- Which of the identities another folder of the account holds. -/
  | identitiesInOtherFolders (folder : FolderRef) (identities : List String)
  /-- Store one batch of a cycle. -/
  | storeBatch (folder : FolderRef) (batch : FolderBatch)
  /-- The changes of the folder's messages the user wants. -/
  | readPendingChanges (folder : FolderRef)
  /-- Store the value of a flag the user wants. -/
  | writePendingFlag (account : AccountId) (identity : String) (flag : MessageFlag) (wanted : Bool)
  /-- The cycle saw the server hold a value of a flag. -/
  | settleFlags (account : AccountId) (identities : List String) (flag : MessageFlag) (value : Bool)
  /-- The server refused a value of a flag. -/
  | dropPendingFlags (account : AccountId) (identities : List String) (flag : MessageFlag)
      (refused : Bool)
  /-- The folder's messages as the list shows them. -/
  | readFolderRows (folder : FolderRef)
  /-- Delete the stored mail of every other account. -/
  | deleteOtherAccounts (currentAccounts : List AccountId)
  deriving DecidableEq

/-- What the operation answers when it does not fail. -/
abbrev StoreCall.Result : StoreCall → Type
  | .replaceFolders .. => StoreWrite
  | .readFolderSync .. => FolderSync
  | .storedIdentities .. => List String
  | .identitiesInOtherFolders .. => List String
  | .storeBatch .. => StoreWrite
  | .readPendingChanges .. => List PendingChange
  | .writePendingFlag .. => Unit
  | .settleFlags .. => Unit
  | .dropPendingFlags .. => Unit
  | .readFolderRows .. => Option (List MessageListRow)
  | .deleteOtherAccounts .. => List AccountId

/-- Whether the operation reads the store or changes it, as its failure says. -/
def StoreCall.operation : StoreCall → StoreOperation
  | .replaceFolders .. => .write
  | .readFolderSync .. => .write
  | .storedIdentities .. => .read
  | .identitiesInOtherFolders .. => .read
  | .storeBatch .. => .write
  | .readPendingChanges .. => .read
  | .writePendingFlag .. => .write
  | .settleFlags .. => .write
  | .dropPendingFlags .. => .write
  | .readFolderRows .. => .read
  | .deleteOtherAccounts .. => .write

namespace Tables

variable (t : Tables)

/-- Replace the account's folder list: a folder no longer listed goes with its memberships
and with the messages no other folder holds. -/
def replaceFolders (account : AccountId) (folders : List Folder) : Tables :=
  ((t.deleteUnlistedFolders account folders).deleteMessagesWithoutFolder account).upsertFolders
    account folders

/-- The messages proven gone leave the folder, and the store when no other folder holds
them. Only a removal can leave a message in no folder. -/
def applyRemovals (folderId : ℕ) (account : AccountId) (removed : List String) : Tables :=
  if removed = [] then t
  else (t.deleteMemberships folderId account removed).deleteMessagesWithoutFolder account

/-- Store one batch: removals, then the messages left in no folder, flags, full records,
messages the account already held, and the folder's state when the batch carries one. -/
def applyBatch (folderId : ℕ) (account : AccountId) (batch : FolderBatch) : Tables :=
  let t := t.applyRemovals folderId account batch.removed
  let t := t.setFlagStates account batch.flagStates
  let t := t.storeArrived folderId account batch.arrived
  let t := t.relateKnown folderId account batch.knownArrived
  match batch.state with
  | some state => t.writeFolderState folderId state
  | none => t

/-- Change each of the account's messages in `identities` by `f`. -/
def updateMessages (account : AccountId) (identities : List String)
    (f : StoredMessage → StoredMessage) : Tables :=
  identities.foldl (fun t identity => t.updateMessage account.asStr identity f) t

/-- The stored accounts that are not current. -/
def otherAccounts (currentAccounts : List AccountId) : List AccountId :=
  ((t.folders.map StoredFolder.account).dedup.filterMap AccountId.tryFrom).filter
    (· ∉ currentAccounts)

/-- Delete every folder and message of an account. -/
def deleteAccount (account : AccountId) : Tables :=
  (t.deleteFoldersWhere fun row => row.account = account.asStr).deleteMessagesWhere fun row =>
    row.account = account.asStr

/-- Delete the stored mail of every account not current. -/
def deleteOtherAccounts (currentAccounts : List AccountId) : Tables :=
  (t.otherAccounts currentAccounts).foldl (fun t account => t.deleteAccount account) t

/-- The folder's state and the messages it holds, with the server's flags. -/
def readFolderSync (folder : FolderRef) : Option FolderSync := do
  let folderId ← t.storedFolderId folder
  let state ← t.readFolderState folderId
  return ⟨state, t.readFolderIdentities folderId⟩

/-- The folder's messages as the list shows them; none when the folder never completed a
cycle and holds no message, or the store does not hold it. -/
def readFolderRows (folder : FolderRef) : Option (List MessageListRow) := do
  let folderId ← t.storedFolderId folder
  let state ← t.readFolderState folderId
  let rows := t.readListedRows folderId
  if state.synchronized ∨ rows ≠ [] then some rows else none

end Tables

/-- Carry out an operation that SQLite does not fail: what it answers, and the tables it
leaves. An operation that needs the folder's row fails without one. -/
def perform (t : Tables) (cancelled : Bool) : (c : StoreCall) → Except StoreError c.Result × Tables
  | .replaceFolders account folders =>
    if cancelled then (.ok .loadCancelled, t) else (.ok .stored, t.replaceFolders account folders)
  | .readFolderSync folder =>
    match t.readFolderSync folder with
    | some sync => (.ok sync, t)
    | none => (.error .noRows, t)
  | .storedIdentities account identities => (.ok (t.readStoredIdentities account identities), t)
  | .identitiesInOtherFolders folder identities =>
    (.ok (t.readIdentitiesInOtherFolders folder identities), t)
  | .storeBatch folder batch =>
    if cancelled then (.ok .loadCancelled, t)
    else
      match t.storedFolderId folder with
      | some folderId => (.ok .stored, t.applyBatch folderId folder.account batch)
      | none => (.error .noRows, t)
  | .readPendingChanges folder =>
    match t.storedFolderId folder with
    | some folderId => (.ok (t.readPendingChanges folderId), t)
    | none => (.error .noRows, t)
  | .writePendingFlag account identity flag wanted =>
    (.ok (), t.updateMessage account.asStr identity fun row => row.withPending flag (some wanted))
  | .settleFlags account identities flag value =>
    (.ok (), t.updateMessages account identities fun row =>
      (row.withFlag flag value).withPending flag (nullIf (row.pending flag) value))
  | .dropPendingFlags account identities flag refused =>
    (.ok (), t.updateMessages account identities fun row => row.withPending flag
      (nullIf (row.pending flag) refused))
  | .readFolderRows folder => (.ok (t.readFolderRows folder), t)
  | .deleteOtherAccounts currentAccounts =>
    (.ok (t.otherAccounts currentAccounts), t.deleteOtherAccounts currentAccounts)

/-- What an operation meets. -/
structure Circumstances where
  /-- The load it belongs to was cancelled by then. -/
  cancelled : Bool
  /-- SQLite or the file system fails it. -/
  fault : Option StoreError
  deriving DecidableEq

/-- Carry out an operation: a fault leaves the tables as they were. -/
def call (t : Tables) (c : StoreCall) (met : Circumstances) : Except Failure c.Result × Tables :=
  match met.fault with
  | some error => (.error (storageFailure c.operation error), t)
  | none =>
    let (result, t) := perform t met.cancelled c
    (result.mapError (storageFailure c.operation), t)

/-- The tables after operations one after another, from any thread: the lock orders them. -/
def run (t : Tables) (calls : List (StoreCall × Circumstances)) : Tables :=
  calls.foldl (fun t c => (call t c.1 c.2).2) t

end Mailbag.Store
