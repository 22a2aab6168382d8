import Mailbag.Window.MailUiRuns
import Mailbag.Window.ShownMailbox
import Mailbag.Window.Sidebar

/-!
# The window

The window has the sidebar, the refreshes, the folder lists and the rows as it last read them,
and the messages list with the reader. It decides what the list area shows: the account page
that Online Accounts needs, or the selected mailbox's stored mail with its account's latest
refresh.

It reads the store and writes flags on the pool, where several works may run at once. It handles
one event at a time: what the user does, an update of Online Accounts, what a load tells, and the
answers of the pool in any order.

What was read and written is kept in logs, newest first; they are no part of the window, and only
its properties are about them. Left out are the texts of a failure, the toasts and the menus.
-/

namespace Mailbag.Window

open Collections Folders Loads OnlineAccounts

/-! ### What the window keeps -/

/-- The shown accounts' folder lists as the window last read them. -/
structure FolderListsRead where
  /-- The number of the latest read. -/
  latestRead : ℕ
  /-- Whether it runs. -/
  reading : Bool
  /-- Why it failed. -/
  failure : Option Failure

/-- Start a read; its number is the latest one. -/
def FolderListsRead.startRead (s : FolderListsRead) : FolderListsRead :=
  { s with latestRead := s.latestRead + 1, reading := true }

/-- Keep how read `read` ended, if no newer read started meanwhile; whether it was kept. -/
def FolderListsRead.finishRead {α : Type} (s : FolderListsRead) (read : ℕ)
    (answer : Except Failure α) : Bool × FolderListsRead :=
  if read ≠ s.latestRead then (false, s)
  else
    let failure := match answer with
      | .ok _ => none
      | .error failure => some failure
    (true, { s with reading := false, failure := failure })

/-- The user's wanted value of a flag of an account's message. -/
structure FlagWrite where
  /-- The account. -/
  account : AccountId
  /-- The message. -/
  identity : String
  /-- The flag. -/
  flag : MessageFlag
  /-- Its wanted value. -/
  wanted : Bool
  deriving DecidableEq

/-- The operation that a Retry repeats. -/
inductive RetriedOperation where
  /-- A mailbox's load. -/
  | refreshMailbox
  /-- A folder list's load. -/
  | refreshAccount
  /-- The reads of the stored mail. -/
  | readStoredMail
  deriving DecidableEq

/-- The operation that repeats a load of the target. -/
def retriedBy : LoadTarget → RetriedOperation
  | .folderList => .refreshAccount
  | .mailbox _ => .refreshMailbox

/-- What a banner names. -/
inductive Notice where
  /-- A failure. -/
  | failure (failure : Failure)
  /-- Why the list is short. -/
  | shortList (incomplete : IncompleteList)
  deriving DecidableEq

/-- A notice over the stored rows, and the operation its Retry repeats. -/
abbrev Banner := Notice × RetriedOperation

/-- The banner over the stored rows: the latest refresh's failure, or why its list is short. -/
def bannerOf : RefreshOutcome → RetriedOperation → Option Banner
  | .failed failure, retried => some (.failure failure, retried)
  | .stored incomplete, retried => incomplete.map fun incomplete => (.shortList incomplete, retried)

/-- Whether a load's outcome and progress belong to the selection: a mailbox's to that mailbox, a
folder list's to the whole account. -/
def concernsShown (selection : Selection) : LoadTarget → Bool
  | .folderList => true
  | .mailbox folder => selection = .mailbox folder

/-- What the list area shows for the selected mail. -/
inductive ShownMail where
  /-- The stored rows, and the latest refresh's failure or short list. -/
  | messages (folder : FolderRef) (rows : StoredRows) (banner : Option Banner)
  /-- A stored mailbox without messages, and why its list may be short. -/
  | emptyMailbox (banner : Option Banner)
  /-- A failure that left nothing to show, and the operation Retry repeats. -/
  | failed (failure : Failure) (retried : RetriedOperation)
  /-- A state that is not a failure. -/
  | status (title : String) (description : Option String)
  /-- A read is running: with the rows on screen when they are this mailbox's. -/
  | reading (again : Bool)

/-- The page in the list's place. -/
inductive ListPage where
  /-- Online Accounts' page. -/
  | accounts (page : AccountPage)
  /-- A state of the selected mail. -/
  | mailStatus (title : String) (description : Option String)
  /-- A failure that left nothing to show. -/
  | failed (failure : Failure) (retried : RetriedOperation)
  /-- The list. -/
  | messages

/-- What is on screen beside the list and the reader. -/
structure Screen where
  /-- The page. -/
  page : ListPage
  /-- The banner, if one is revealed. -/
  banner : Option Banner
  /-- The mailbox's name and the account's label. -/
  title : Option String × Option String
  /-- Whether the spinner shows. -/
  loading : Bool
  /-- Whether Refresh Mailbox can be chosen. -/
  canRefreshMailbox : Bool
  /-- Whether Refresh Account can be chosen. -/
  canRefreshAccount : Bool

/-- What happened to the folder lists. -/
inductive ListEvent where
  /-- A load stored an account's folder list. -/
  | stored (account : AccountId)
  /-- A read of accounts' folder lists started. -/
  | started (read : ℕ) (accounts : List AccountId)
  /-- What the read found is shown. -/
  | shown (read : ℕ) (lists : List (AccountId × List Folder))
  /-- The read failed. -/
  | failed (read : ℕ) (failure : Failure)

/-- The window. -/
structure MainWindow where
  /-- The sidebar. -/
  sidebar : SidebarUi
  /-- How refreshes ended, and the load that may run. -/
  refreshes : Refreshes
  /-- The folder lists. -/
  folderLists : FolderListsRead
  /-- The selected mailbox's rows. -/
  shown : ShownMailbox
  /-- The rows found last, under the number of their read. -/
  rows : StoredRows
  /-- The messages list and the reader. -/
  mail : MailUi
  /-- The user's changes of flags in the order made; the oldest is being written. -/
  flagWrites : List FlagWrite
  /-- What is on screen. -/
  screen : Screen
  /-- The loads started. -/
  loads : List (AccountId × MailProvider × LoadTarget)
  /-- The accounts that each deletion of other accounts' mail spares, newest first. -/
  deletions : List (List AccountId)
  /-- The reads of rows on the pool. -/
  rowsReads : List (ℕ × FolderRef)
  /-- The reads of folder lists on the pool. -/
  listReads : List (ℕ × List AccountId)
  /-- The reads of messages' contents on the pool. -/
  contentReads : List (AccountId × String)
  /-- The writes of flags on the pool. -/
  runningWrites : List FlagWrite
  /-- What happened to the rows. -/
  log : List Event
  /-- What happened to the folder lists. -/
  listLog : List ListEvent
  /-- The writes that ended, in their order. -/
  ended : List FlagWrite

namespace MainWindow

variable (w : MainWindow)

/-- The window's part that keeps the selected mailbox's rows. -/
def ui : WindowUi := ⟨w.sidebar.accounts.selection, w.shown, w.rowsReads, w.log⟩

/-- What a reading of the rows changes. -/
def withUi (ui : WindowUi) : MainWindow :=
  { w with shown := ui.shown, rowsReads := ui.reads, log := ui.log }

/-- Whether the sidebar shows the account. -/
def showsAccount (account : AccountId) : Bool := account ∈ w.sidebar.accounts.visibleAccounts.ids

/-- The selection the refresh actions load, with the sequence it needs. -/
def selectionWithProvider : Option (Selection × MailProvider) :=
  w.sidebar.accounts.selection.bind fun selection => w.sidebar.selectedProvider.map fun provider =>
    (selection, provider)

/-! ### What is on screen -/

/-- The latest refresh of the selected mail. -/
def outcomeOf (selection : Selection) : Option (LoadTarget × RefreshOutcome) :=
  (w.refreshes.outcomeOf selection.accountId).filter fun outcome => concernsShown selection
    outcome.1

/-- The running load of the selected mail. -/
def loadingOf (selection : Selection) : Option LoadTarget :=
  (w.refreshes.loadingTarget selection.accountId).filter fun target =>
    concernsShown selection target

/-- The selected mail's banner. A refresh of the same mail answers the last one's notice, so none
shows while it runs. -/
def bannerFor (selection : Selection) : Option Banner :=
  ((w.outcomeOf selection).filter fun _ => (w.loadingOf selection).isNone).bind fun outcome =>
    bannerOf outcome.2 (retriedBy outcome.1)

/-- What the window has of the selected mailbox. -/
def storedOf : Selection → StoredMailbox
  | .mailbox folder => if w.shown.folder = some folder then w.shown.stored else .notRead
  | .account _ => .notRead

/-- What the list shows without rows, the first that applies: a load running, a failed read, a
failed refresh, an empty stored mailbox or nothing stored. -/
def shownWithoutRows (selection : Selection) (stored : StoredMailbox) : ShownMail :=
  match w.loadingOf selection, stored, w.outcomeOf selection with
  | some .folderList, _, _ => .status "Loading mailbox list" none
  | some (.mailbox _), _, _ => .status "Loading mailbox" none
  | none, .readFailed failure, _ => .failed failure .readStoredMail
  | none, _, some (target, .failed failure) => .failed failure (retriedBy target)
  | none, .read (some _), _ => .emptyMailbox (w.bannerFor selection)
  | none, _, _ =>
    .status "No mail loaded" (some "Choose Refresh Account or Refresh Mailbox in the main menu.")

/-- What the list shows, the first that applies: stored folder lists that cannot be read; nothing
selected; for a mailbox, its stored rows or a read running; else what shows without rows. -/
def shownMail : ShownMail :=
  match w.folderLists.failure, w.sidebar.accounts.selection with
  | some failure, _ => .failed failure .readStoredMail
  | none, none => .status "Select a mailbox" none
  | none, some selection =>
    match selection, w.storedOf selection with
    | .mailbox folder, .read (some (_ :: _)) => .messages folder w.rows (w.bannerFor selection)
    | _, .reading again => .reading again
    | _, stored => w.shownWithoutRows selection stored

/-- The page and the banner. Online Accounts' page comes first; only stored rows reveal the
banner. -/
def pageOf (shownMail : ShownMail) : ListPage × Option Banner :=
  if w.sidebar.accounts.page ≠ .accountsShown then (.accounts w.sidebar.accounts.page, none)
  else
    match shownMail with
    | .messages _ _ banner =>
      -- the filter or the window's removals may leave no row
      if w.mail.showsNoRow then
        if w.mail.unreadOnly then
          (.mailStatus "No unread messages" (some "Every message in this folder is read."), banner)
        else (.mailStatus "Mailbox is empty" none, banner)
      else (.messages, banner)
    | .emptyMailbox banner => (.mailStatus "Mailbox is empty" none, banner)
    | .failed failure retried => (.failed failure retried, none)
    | .status title description => (.mailStatus title description, none)
    | .reading _ => (.messages, none)

/-- The selected mailbox's name and the account's label. -/
def title : Option String × Option String :=
  match w.sidebar.accounts.selection with
  | some (.mailbox folder) =>
    (w.sidebar.folderName folder, (w.sidebar.accounts.visibleAccounts.lookup folder.account).map
      (·.label))
  | some (.account account) =>
    (none, (w.sidebar.accounts.visibleAccounts.lookup account).map (·.label))
  | none => (none, none)

/-- Whether a refresh can be chosen. -/
def canLoad : Bool := !w.refreshes.isLoading && w.sidebar.selectedProvider.isSome

/-- What is on screen. -/
def screenOf (shownMail : ShownMail) : Screen where
  page := (w.pageOf shownMail).1
  banner := (w.pageOf shownMail).2
  title := w.title
  loading := w.refreshes.isLoading
  canRefreshMailbox := w.canLoad && w.ui.selectedMailbox.isSome
  canRefreshAccount := w.canLoad

/-- The list and the reader show the selected mail. A mailbox read again keeps its rows until the
read answers. -/
def renderMail (animates : Bool) : Except ListFault MailUi :=
  match w.shownMail with
  | .messages folder rows _ => w.mail.showRows folder rows animates
  | .reading true => .ok w.mail
  | _ => .ok w.mail.clear

/-- Show what the window is to show. -/
def render (animates : Bool) : Except ListFault MainWindow := do
  let mail ← w.renderMail animates
  let w := { w with mail := mail }
  return { w with screen := w.screenOf w.shownMail }

/-! ### Reading and writing the store -/

/-- Read every shown account's stored folder list, in one read. -/
def readFolderLists : MainWindow :=
  let accounts := w.sidebar.accounts.visibleAccounts.ids
  let folderLists := w.folderLists.startRead
  { w with
    folderLists := folderLists
    listReads := w.listReads ++ [(folderLists.latestRead, accounts)]
    listLog := .started folderLists.latestRead accounts :: w.listLog }

/-- Show an account's folders; a selection that they no longer show is cleared, and its rows
forgotten. -/
def showFolderList (collationKey : String → String) (account : AccountId)
    (folders : List Folder) : MainWindow :=
  let (gone, sidebar) := w.sidebar.showFolders collationKey account folders
  { w with sidebar := sidebar, shown := if gone then w.shown.forget else w.shown }

/-- Show each account's folders. -/
def showFolderLists (collationKey : String → String) :
    List (AccountId × List Folder) → MainWindow → MainWindow
  | [], w => w
  | (account, folders) :: lists, w =>
    showFolderLists collationKey lists (w.showFolderList collationKey account folders)

/-- Keep how a read of the folder lists ended, if it is the latest; whether it was kept. What it
found is shown in the sidebar; a failed read leaves the sidebar as it was. -/
def takeFolderLists (collationKey : String → String) (read : ℕ)
    (answer : Except Failure (List (AccountId × List Folder))) : Bool × MainWindow :=
  let (latest, folderLists) := w.folderLists.finishRead read answer
  let w := { w with listReads := w.listReads.filter (·.1 ≠ read), folderLists := folderLists }
  if !latest then (false, w)
  else
    match answer with
    | .ok lists =>
      (true, showFolderLists collationKey lists
        { w with listLog := .shown read lists :: w.listLog })
    | .error failure => (true, { w with listLog := .failed read failure :: w.listLog })

/-- A read of the folder lists answers. -/
def folderListsAnswered (collationKey : String → String) (read : ℕ)
    (answer : Except Failure (List (AccountId × List Folder))) (animates : Bool) :
    Except ListFault MainWindow :=
  let (latest, w) := w.takeFolderLists collationKey read answer
  if latest then w.render animates else .ok w

/-- Keep the rows that a read found, if it is the latest, and start the read that became due;
whether they were kept. -/
def takeRows (read : ℕ)
    (answer : Except Failure
      (Option { rows : List MessageListRow // Collections.Unique MessageListRow.identity rows })) :
    Bool × MainWindow :=
  let latest := decide (read = w.shown.latestRead)
  let rows := match answer with
    | .ok (some rows) => if latest then ⟨read, rows.1, rows.2⟩ else w.rows
    | _ => w.rows
  (latest, { w.withUi (w.ui.readAnswered read (answer.map fun rows => rows.map (·.1))) with
    rows := rows })

/-- A read of a mailbox's rows answers. -/
def rowsAnswered (read : ℕ)
    (answer : Except Failure
      (Option { rows : List MessageListRow // Collections.Unique MessageListRow.identity rows }))
    (animates : Bool) : Except ListFault MainWindow :=
  let (latest, w) := w.takeRows read answer
  if latest then w.render animates else .ok w

/-- Write the oldest queued change of a flag. -/
def writeOldestFlag : MainWindow :=
  match w.flagWrites.head? with
  | none => w
  | some change => { w with runningWrites := w.runningWrites ++ [change] }

/-- Queue the user's change of a message's flag; changes are written one at a time in the order
made. -/
def writeFlag (change : FlagWrite) : MainWindow :=
  let w := { w with flagWrites := w.flagWrites ++ [change] }
  if w.flagWrites.length = 1 then w.writeOldestFlag else w

/-- A write ends: the shown mailbox is read again when the change is stored. It leaves the queue,
and the next is written. -/
def flagWriteEnded (change : FlagWrite) (written : Except Failure Unit) : MainWindow :=
  let w := { w with runningWrites := w.runningWrites.erase change, ended := w.ended ++ [change] }
  let w := w.withUi (w.ui.flagWritten change.account written)
  { w with flagWrites := w.flagWrites.tail }.writeOldestFlag

/-- Read an opened message's stored content. -/
def readMessageContent (account : AccountId) (identity : String) : MainWindow :=
  { w with contentReads := w.contentReads ++ [(account, identity)] }

/-- The content is handed to the reader. -/
def contentAnswered (account : AccountId) (identity : String)
    (answer : Except Failure (Option ReceivedContent)) : MainWindow :=
  { w with
    contentReads := w.contentReads.erase (account, identity)
    mail := w.mail.showContent account identity answer }

/-- What the list or the reader asks for: to read a content, to write a flag, to show what is left
without a row. -/
def hear (event : MailEvent) (animates : Bool) : Except ListFault MainWindow :=
  match event with
  | .contentRequested account identity => .ok (w.readMessageContent account identity)
  | .flagChange _ account identity flag wanted =>
    .ok (w.writeFlag ⟨account, identity, flag, wanted⟩)
  | .rowRemoved => w.render animates
  | _ => .ok w

/-- What is asked, in its order. -/
def hearAll (animates : Bool) : List MailEvent → MainWindow → Except ListFault MainWindow
  | [], w => .ok w
  | event :: events, w => do
    let w ← w.hear event animates
    hearAll animates events w

/-- The list or the reader does something, and the window what it is asked for. -/
def actMail (action : MailUi.Action) (animates : Bool) : Except ListFault MainWindow := do
  let mail ← w.mail.act action
  hearAll animates (mail.log.take (mail.log.length - w.mail.log.length)).reverse
    { w with mail := mail }

/-- Whether a read of the stored mail or a write of a flag is waited for. -/
def worksOnStoredMail : Bool :=
  !w.contentReads.isEmpty || w.folderLists.reading || w.shown.isReading || !w.flagWrites.isEmpty

/-! ### Loads -/

/-- A load begins. The list shows its outcome rather than an earlier read that failed. -/
def beginLoad (account : AccountId) (provider : MailProvider) (target : LoadTarget) : MainWindow :=
  { w.withUi w.ui.startLoad with
    folderLists := { w.folderLists with failure := none }
    loads := w.loads ++ [(account, provider, target)]
    refreshes := w.refreshes.beginLoad account target w.loads.length }

/-- Start the only load; what is stored stays on screen meanwhile. -/
def startLoad (account : AccountId) (provider : MailProvider) (target : LoadTarget)
    (animates : Bool) : Except ListFault MainWindow :=
  if w.refreshes.isLoading then .ok w else (w.beginLoad account provider target).render animates

/-- Load the selected mailbox's newest messages. -/
def refreshMailbox (animates : Bool) : Except ListFault MainWindow :=
  match w.selectionWithProvider with
  | some (.mailbox folder, provider) =>
    w.startLoad folder.account provider (.mailbox folder) animates
  | _ => .ok w

/-- Load the folder list of the selected account or of the selected mailbox's account. -/
def refreshAccount (animates : Bool) : Except ListFault MainWindow :=
  match w.selectionWithProvider with
  | some (selection, provider) => w.startLoad selection.accountId provider .folderList animates
  | none => .ok w

/-- A load changed the store. -/
def showChangedStore (account : AccountId) : MainWindow := w.withUi (w.ui.showChangedStore account)

/-- A load is over. A completed folder list is read again with every other. -/
def endLoad (account : AccountId) (target : LoadTarget) (result : Cycle.LoadResult) : MainWindow :=
  let w := { w with refreshes := w.refreshes.finishLoad account result }
  let w := match target, result with
    | .folderList, .stored _ => { w with listLog := .stored account :: w.listLog }.readFolderLists
    | _, _ => w
  w.withUi (w.ui.finishLoad target result)

/-- A load has ended. -/
def finishLoad (account : AccountId) (target : LoadTarget) (result : Cycle.LoadResult)
    (animates : Bool) : Except ListFault MainWindow :=
  (w.endLoad account target result).render animates

/-! ### What the user does -/

/-- The selection is the sidebar's; selecting never loads. -/
def withSelection (sidebar : SidebarUi) : MainWindow :=
  let w := { w with sidebar := sidebar }
  w.withUi w.ui.showSelection

/-- The user selects a row. -/
def selectAt (position : ℕ) (animates : Bool) : Except ListFault MainWindow :=
  let (selected, sidebar) := w.sidebar.selectAt position
  if selected then (w.withSelection sidebar).render animates else .ok { w with sidebar := sidebar }

/-- The user folds a row. -/
def collapse (key : Selection) (animates : Bool) : Except ListFault MainWindow :=
  let (cleared, sidebar) := w.sidebar.collapse key
  if cleared then (w.withSelection sidebar).render animates else .ok { w with sidebar := sidebar }

/-- The folder lists and the selected mailbox's rows are read. -/
def readLists : MainWindow := w.readFolderLists.withUi w.ui.readShownMailbox

/-- Read the stored mail again: the folder lists, the shown mailbox, and the open message's
content. -/
def readStoredMail (animates : Bool) : Except ListFault MainWindow := do
  let w ← w.readLists.actMail .readOpenContentAgain animates
  w.render animates

/-- The user turns the unread filter. -/
def setUnreadFilter (unreadOnly animates : Bool) : Except ListFault MainWindow := do
  let w ← w.actMail (.setUnreadFilter unreadOnly animates) animates
  w.render animates

/-! ### Account updates -/

/-- The accounts of an update whose Mail is on. -/
def accountsWithMail (update : NamedUpdate) : List AccountId :=
  (update.accounts.entries.filter fun entry => entry.2.mailEnabled).map (·.1)

/-- Take over an account update: the outcomes of accounts that are no longer shown are forgotten and
a load running for one cancelled; on a complete answer, the stored mail of accounts gone or with
Mail off is deleted and the folder lists are read. -/
def takeUpdate (update : NamedUpdate) : MainWindow :=
  let w := { w with sidebar := (w.sidebar.applyUpdate update).1 }
  let w := { w with
    refreshes := (w.refreshes.discardExcluded w.showsAccount).1
    shown := w.shown.forgetExcluded w.showsAccount }
  if update.lastCheck = .complete then
    { w with deletions := accountsWithMail update :: w.deletions }.readFolderLists else w

/-- Apply an account update. -/
def applyAccountUpdate (update : NamedUpdate) (animates : Bool) : Except ListFault MainWindow :=
  (w.takeUpdate update).render animates

/-- Quit: a running load is cancelled. -/
def cancelLoads : MainWindow := { w with refreshes := w.refreshes.cancelLoad.1 }

/-! ### One event after another -/

/-- What the user, the loads and the pool do. -/
inductive WindowEvent where
  /-- An update of Online Accounts. -/
  | update (update : NamedUpdate)
  /-- The user selects a row. -/
  | select (position : ℕ)
  /-- The user folds a row. -/
  | collapse (key : Selection)
  /-- The user unfolds a row. -/
  | expand (key : Selection)
  /-- Refresh Mailbox. -/
  | refreshMailbox
  /-- Refresh Account. -/
  | refreshAccount
  /-- A load of the account changed the store. -/
  | storeChanged (account : AccountId)
  /-- A load ended. -/
  | finished (account : AccountId) (target : LoadTarget) (result : Cycle.LoadResult)
  /-- The Retry of a read that failed. -/
  | readStoredMail
  /-- A read of rows answers. -/
  | rowsAnswered (read : ℕ)
      (answer : Except Failure
        (Option { rows : List MessageListRow // Collections.Unique MessageListRow.identity rows }))
  /-- A read of folder lists answers. -/
  | folderListsAnswered (read : ℕ) (answer : Except Failure (List (AccountId × List Folder)))
  /-- A read of a content answers. -/
  | contentAnswered (account : AccountId) (identity : String)
      (answer : Except Failure (Option ReceivedContent))
  /-- A write of a flag ends. -/
  | flagWriteEnded (change : FlagWrite) (written : Except Failure Unit)
  /-- The user turns the unread filter. -/
  | unreadFilter (unreadOnly : Bool)
  /-- The user or a timer has the list or the reader do something. -/
  | mail (action : MailUi.Action)
  /-- The application quits. -/
  | quit

/-- The user's actions and the timers; the window does the other actions itself. -/
def OfUser : MailUi.Action → Prop
  | .activate .. | .removeInWindow .. | .changeFlag .. | .toggleRowStar .. | .afterClosing
      _ | .readAfterOpening | .frame => True
  | _ => False

/-- The tree selects only rows that can be selected; what answers runs on the pool; a read of folder
lists finds one list for each account it was started for, which names each folder once; a timer
fires while it runs. -/
def Enabled : WindowEvent → Prop
  | .select position => (w.sidebar.nodeAt position).any (·.selectable) = true
  | .rowsAnswered read _ => ∃ folder, (read, folder) ∈ w.rowsReads
  | .folderListsAnswered read answer =>
    ∃ accounts, (read, accounts) ∈ w.listReads ∧ ∀ lists, answer = .ok lists →
      lists.map (·.1) = accounts ∧ ∀ entry ∈ lists, Collections.Unique Folder.identity entry.2
  | .contentAnswered account identity _ => (account, identity) ∈ w.contentReads
  | .flagWriteEnded change _ => change ∈ w.runningWrites
  | .mail action => OfUser action ∧ w.mail.Enabled action
  | _ => True

/-- The window after an event. -/
def handle (collationKey : String → String) (animates : Bool) :
    WindowEvent → Except ListFault MainWindow
  | .update update => w.applyAccountUpdate update animates
  | .select position => w.selectAt position animates
  | .collapse key => w.collapse key animates
  | .expand key => .ok { w with sidebar := w.sidebar.expand key }
  | .refreshMailbox => w.refreshMailbox animates
  | .refreshAccount => w.refreshAccount animates
  | .storeChanged account => .ok (w.showChangedStore account)
  | .finished account target result => w.finishLoad account target result animates
  | .readStoredMail => w.readStoredMail animates
  | .rowsAnswered read answer => w.rowsAnswered read answer animates
  | .folderListsAnswered read answer => w.folderListsAnswered collationKey read answer animates
  | .contentAnswered account identity answer => .ok (w.contentAnswered account identity answer)
  | .flagWriteEnded change written => .ok (w.flagWriteEnded change written)
  | .unreadFilter unreadOnly => w.setUnreadFilter unreadOnly animates
  | .mail action => w.actMail action animates
  | .quit => .ok w.cancelLoads

/-- The window when the application starts. -/
def start : MainWindow where
  sidebar := .start
  refreshes := ⟨fun _ => none, none⟩
  folderLists := ⟨0, false, none⟩
  shown := ⟨none, 0, .notRead, false, false⟩
  rows := ⟨0, [], unique_nil⟩
  mail := .start
  flagWrites := []
  screen := ⟨.accounts .loading, none, (none, none), false, false, false⟩
  loads := []
  deletions := []
  rowsReads := []
  listReads := []
  contentReads := []
  runningWrites := []
  log := []
  listLog := []
  ended := []

end MainWindow

end Mailbag.Window
