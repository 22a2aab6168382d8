import Mailbag.Interaction.System
import Mailbag.Loads.Refreshes
import Mailbag.Store.Rows

/-!
# The shown mailbox, and the window's reads of it

The window keeps the rows of the selected mailbox as it last read them. A read runs on the
pool, and several may run at once; each has a number, and only the answer of the latest is
kept. When a change of the stored mail is reported while a read runs, one more read becomes
due, which starts when the running one has answered.

The window's thread handles one event at a time. What the window was told and what it did is
kept in a log, newest first: it is no part of the window, and only its properties are about
it.
-/

namespace Mailbag.Window

open Cycle Loads Store

/-- What the user selected in the sidebar. -/
inductive Selection where
  /-- An account whose folders are not known. -/
  | account (account : AccountId)
  /-- A mailbox. -/
  | mailbox (folder : FolderRef)
  deriving DecidableEq

/-- The selected account, or the account of the selected mailbox. -/
def Selection.accountId : Selection → AccountId
  | .account id => id
  | .mailbox folder => folder.account

/-- What the window has of the shown mailbox's stored rows. -/
inductive StoredMailbox where
  /-- Not read. -/
  | notRead
  /-- Being read; `again` when its rows are on screen. -/
  | reading (again : Bool)
  /-- What the read found; none when no load of the mailbox completed. -/
  | read (rows : Option (List MessageListRow))
  /-- The read failed. -/
  | readFailed (failure : Failure)
  deriving DecidableEq

/-- The selected mailbox's stored rows as the window last read them. -/
structure ShownMailbox where
  /-- The mailbox. -/
  folder : Option FolderRef
  /-- The number of the latest read. -/
  latestRead : ℕ
  /-- Its rows. -/
  stored : StoredMailbox
  /-- A read after a stored batch runs, while the rows stay. -/
  rereading : Bool
  /-- A batch was stored while a read ran: one more read follows it. -/
  readDue : Bool
  deriving DecidableEq

namespace ShownMailbox

variable (s : ShownMailbox)

/-- Whether this mailbox's stored messages are on screen, or being read. -/
def holds (folder : FolderRef) : Bool :=
  s.folder = some folder &&
    match s.stored with
    | .read _ => true
    | .reading _ => true
    | _ => false

/-- Whether a read of the shown mailbox runs. -/
def isReading : Bool :=
  s.rereading ||
    match s.stored with
    | .reading _ => true
    | _ => false

/-- Start a read of the mailbox's stored messages; its number is the latest one. -/
def startRead (folder : FolderRef) : ShownMailbox :=
  let again := s.folder = some folder &&
    match s.stored with
    | .read (some _) => true
    | .reading again => again
    | _ => false
  { folder := some folder
    latestRead := s.latestRead + 1
    stored := .reading again
    rereading := false
    readDue := false }

/-- Start a read of the rows on screen, which stay meanwhile; its number is the latest one. -/
def startReread : ShownMailbox := { s with latestRead := s.latestRead + 1, rereading := true }

/-- Keep what read `read` found, if no newer read started meanwhile; whether it was kept. -/
def finishRead (read : ℕ) (answer : Except Failure (Option (List MessageListRow))) :
    Bool × ShownMailbox :=
  if read ≠ s.latestRead then (false, s)
  else
    let stored := match answer with
      | .ok rows => .read rows
      | .error failure => .readFailed failure
    (true, { s with rereading := false, stored := stored })

/-- Forget what was read; a read still running is dropped when it answers. -/
def forget : ShownMailbox :=
  { folder := none
    latestRead := s.latestRead + 1
    stored := .notRead
    rereading := false
    readDue := false }

/-- Forget what was read of an account that is no longer shown. -/
def forgetExcluded (isVisible : AccountId → Bool) : ShownMailbox :=
  if s.folder.any fun folder => !isVisible folder.account then s.forget else s

/-- Forget a read that failed. -/
def forgetReadFailure : ShownMailbox :=
  match s.stored with
  | .readFailed _ => { s with stored := .notRead }
  | _ => s

end ShownMailbox

/-- What the window was told and what it did. -/
inductive Event where
  /-- A change of an account's stored mail was reported; what was selected then. -/
  | changed (account : AccountId) (selected : Option FolderRef)
  /-- A read of a mailbox started. -/
  | started (read : ℕ) (folder : FolderRef)
  /-- The rows that a read found are kept. -/
  | kept (read : ℕ) (rows : Option (List MessageListRow))
  deriving DecidableEq

/-- The window. -/
structure WindowUi where
  /-- The selection. -/
  selection : Option Selection
  /-- The shown mailbox. -/
  shown : ShownMailbox
  /-- The reads on the pool, by number, with their mailboxes. -/
  reads : List (ℕ × FolderRef)
  /-- What happened, newest first. -/
  log : List Event

namespace WindowUi

variable (w : WindowUi)

/-- The selected mailbox. -/
def selectedMailbox : Option FolderRef :=
  match w.selection with
  | some (.mailbox folder) => some folder
  | _ => none

/-- Run the latest read, of a folder's rows. -/
def spawnRowsRead (folder : FolderRef) : WindowUi :=
  { w with
    reads := w.reads ++ [(w.shown.latestRead, folder)]
    log := .started w.shown.latestRead folder :: w.log }

/-- Read the selected mailbox's stored rows. -/
def readShownMailbox : WindowUi :=
  match w.selectedMailbox with
  | none => w
  | some folder => { w with shown := w.shown.startRead folder }.spawnRowsRead folder

/-- Read the shown mailbox's rows again, while they stay; during a running read only one
more read becomes due. -/
def readShownMailboxAgain : WindowUi :=
  match w.selectedMailbox with
  | none => w
  | some folder =>
    if !w.shown.holds folder then w.readShownMailbox
    else if w.shown.isReading then { w with shown := { w.shown with readDue := true } }
    else { w with shown := w.shown.startReread }.spawnRowsRead folder

/-- Show the selected mail; a mailbox on screen is not read again. -/
def showSelection : WindowUi :=
  match w.selectedMailbox with
  | some folder => if w.shown.holds folder then w else w.readShownMailbox
  | none => { w with shown := w.shown.forget }

/-- A change of an account's stored mail is reported. -/
def report (account : AccountId) : WindowUi :=
  { w with log := .changed account w.selectedMailbox :: w.log }

/-- A cycle changed the store. -/
def showChangedStore (account : AccountId) : WindowUi :=
  let w := w.report account
  if w.selectedMailbox.any (·.account = account) then w.readShownMailboxAgain else w

/-- A load has ended. A completed cycle may have changed the account's messages; a completed
folder list left the selected mailbox's rows as they were. -/
def finishLoad (target : LoadTarget) (result : LoadResult) : WindowUi :=
  match target, result with
  | .folderList, .stored _ =>
    match w.selectedMailbox with
    | some folder => if w.shown.holds folder then w else w.readShownMailbox
    | none => w
  | .mailbox folder, .stored _ =>
    let w := w.report folder.account
    if w.selectedMailbox.any (·.account = folder.account) then w.readShownMailboxAgain else w
  | _, _ => w

/-- A change of a message's flag was written, or was not saved. -/
def flagWritten (account : AccountId) : Except Failure Unit → WindowUi
  | .ok () => (w.report account).readShownMailboxAgain
  | .error _ => w

/-- A load starts: a read that failed is forgotten. -/
def startLoad : WindowUi := { w with shown := w.shown.forgetReadFailure }

/-- A read answers: what the latest found is kept, and the read that became due starts. -/
def readAnswered (read : ℕ) (answer : Except Failure (Option (List MessageListRow))) : WindowUi :=
  let (latest, shown) := w.shown.finishRead read answer
  let w := { w with reads := w.reads.filter (·.1 ≠ read), shown := shown }
  if !latest then w
  else
    let w := match answer with
      | .ok rows => { w with log := .kept read rows :: w.log }
      | .error _ => w
    if w.shown.readDue then { w with shown := { w.shown with readDue := false }
      }.readShownMailboxAgain else w

/-- The user selects something, or collapses the selected row away. -/
def select (selection : Option Selection) : WindowUi :=
  { w with selection := selection }.showSelection

/-- An account update: the selection of an account that is no longer shown is cleared, and
what was read of one forgotten. -/
def applyAccountUpdate (isVisible : AccountId → Bool) : WindowUi :=
  { w with
    selection := w.selection.filter fun selection => isVisible selection.accountId
    shown := w.shown.forgetExcluded isVisible }

/-- The sidebar shows folder lists; `gone` when they no longer have the selected row. -/
def showFolderLists (gone : Bool) : WindowUi :=
  if gone then { w with selection := none, shown := w.shown.forget } else w

end WindowUi

/-- One event that the window handles. -/
inductive Step : WindowUi → WindowUi → Prop
  /-- The user selects. -/
  | select {w : WindowUi} (selection : Option Selection) : Step w (w.select selection)
  /-- A load tells of a change. -/
  | storeChanged {w : WindowUi} (account : AccountId) : Step w (w.showChangedStore account)
  /-- A load ends. -/
  | finished {w : WindowUi} (target : LoadTarget) (result : LoadResult) :
      Step w (w.finishLoad target result)
  /-- A flag was written or not. -/
  | flagWritten {w : WindowUi} (account : AccountId) (written : Except Failure Unit) :
      Step w (w.flagWritten account written)
  /-- A load starts. -/
  | startLoad {w : WindowUi} : Step w w.startLoad
  /-- The user reads the stored mail again. -/
  | readStoredMail {w : WindowUi} : Step w w.readShownMailbox
  /-- A read answers, whichever. -/
  | readAnswered {w : WindowUi} {read : ℕ} {folder : FolderRef} (h : (read, folder) ∈ w.reads)
    (answer : Except Failure (Option (List MessageListRow))) : Step w (w.readAnswered read answer)
  /-- An account update. -/
  | accountUpdate {w : WindowUi} (isVisible : AccountId → Bool) :
      Step w (w.applyAccountUpdate isVisible)
  /-- Folder lists were read. -/
  | folderLists {w : WindowUi} (gone : Bool) : Step w (w.showFolderLists gone)

/-- The window at its start. -/
def WindowUi.start : WindowUi := ⟨none, ⟨none, 0, .notRead, false, false⟩, [], []⟩

end Mailbag.Window
