import Mailbag.Collections.Outline
import Mailbag.Folders.Reached
import Mailbag.Window.AccountRows

/-!
# The sidebar

Each account shown has a row, and under it the folders of its stored list as a tree. The
sidebar shows the selection that the account list owns. A row is unfolded when it comes; the
user folds it, which folds all that is under it away.

The tree's rows are GTK's: a folded row forgets the rows under it, and they come unfolded when
it is unfolded again. Left out are the keyboard's focus, the button beside an account with a
problem, and what a narrow window shows.
-/

namespace Mailbag.Window

open Collections Folders OnlineAccounts

/-- One row of the sidebar, of an account or of a folder. -/
structure SidebarRow where
  /-- What selecting it selects. -/
  key : Selection
  /-- Its title. -/
  title : String
  /-- Its icon. -/
  iconName : String
  /-- Whether it can be selected. -/
  selectable : Bool
  /-- Whether the rows under it are shown. -/
  expanded : Bool
  deriving DecidableEq

/-- The row, folded or not. -/
def SidebarRow.folded (expanded : Bool) (row : SidebarRow) : SidebarRow :=
  { row with expanded := expanded }

/-- An account's row with the folders under it. -/
structure SidebarNode where
  /-- The account. -/
  account : AccountId
  /-- Its row. -/
  row : SidebarRow
  /-- Its folders. -/
  children : List (Collections.Tree SidebarRow)
  /-- The folder list that these show, in identity order. -/
  listedFolders : List Folder

/-- The sidebar. -/
structure SidebarUi where
  /-- The accounts with the selection. -/
  accounts : AccountList
  /-- The accounts' rows. -/
  root : List SidebarNode

/-! ### Rows -/

/-- The name a folder is shown under. `INBOX` is a word of the protocol rather than a name. -/
def shownName (folder : Folder) : String :=
  if eqIgnoreAsciiCase folder.identity "INBOX" then "Inbox" else folder.name

/-- The icon of a folder with this role. -/
def folderIcon : Option FolderRole → String
  | some .inbox => "mailbag-folder-inbox-symbolic"
  | some .starred => "mailbag-folder-starred-symbolic"
  | some .important => "mailbag-folder-important-symbolic"
  | some .junk => "mail-mark-junk-symbolic"
  | some .trash => "user-trash-symbolic"
  | some .archive => "mailbag-folder-archive-symbolic"
  | some .drafts => "document-edit-symbolic"
  | some .sent => "mailbag-folder-sent-symbolic"
  | some .allMail => "folder-symbolic"
  | none => "folder-symbolic"

/-- A folder's row. -/
def folderRow (account : AccountId) (folder : Folder) : SidebarRow :=
  ⟨.mailbox ⟨account, folder.identity⟩, shownName folder, folderIcon folder.role,
    folder.selectable, true⟩

namespace SidebarNode

/-- An account that comes. It can be selected until it has a folder that can be opened. -/
def new (account : AccountId) : SidebarNode :=
  ⟨account, ⟨.account account, "", "", true, true⟩, [], []⟩

variable (node : SidebarNode)

/-- The node as a tree. -/
def tree : Collections.Tree SidebarRow := .node node.row node.children

/-- Its row shows the account. -/
def showAccount (account : AccountRow) : SidebarNode :=
  { node with row := { node.row with title := account.label, iconName := account.iconName } }

/-- The folders under an account are those of its list. The account is a heading once one of them
can be opened. -/
def fillFolders (collationKey : String → String) (folders : List Folder) : SidebarNode :=
  { node with
    children := mapRows (folderRow node.account)
      ((Folders.fillFolders collationKey folders (folders.length + 1) none).getD [])
    row := { node.row with selectable := !folders.any (·.selectable) }
    listedFolders := folders }

/-- The row with the key is folded or unfolded. -/
def fold (key : Selection) (expanded : Bool) : SidebarNode :=
  if node.row.key = key then
    { node with row := node.row.folded expanded, children := mapRows (·.folded true) node.children }
  else { node with
      children :=
        foldRows (·.key = key) (·.folded expanded) (·.folded true) node.children }

end SidebarNode

/-! ### The sidebar -/

/-- What the window shows in place of the mail. -/
inductive AccountPage where
  /-- No answer yet. -/
  | loading
  /-- An account's mail service is not there. -/
  | mailUnavailable
  /-- The accounts could not be read. -/
  | readFailed (cause : ErrorCause)
  /-- There are no accounts. -/
  | noAccounts
  /-- No account can be shown. -/
  | noEligibleAccounts
  /-- The mail itself. -/
  | accountsShown
  deriving DecidableEq

/-- The page for the accounts as they are. -/
def AccountList.page (list : AccountList) : AccountPage :=
  match list.lastCheck with
  | .failed error => .readFailed error.cause
  | lastCheck =>
    if list.visibleAccounts ≠ [] then .accountsShown
    else if lastCheck = .notChecked then .loading
    else if .mailUnavailable ∈ list.excludedReasons then .mailUnavailable
    else if list.excludedReasons = [] then .noAccounts
    else .noEligibleAccounts

namespace SidebarUi

/-- Before the first update. -/
def start : SidebarUi := ⟨.initial, []⟩

variable (ui : SidebarUi)

/-- The rows that are shown. -/
def shown : List SidebarRow := rowsShown (·.expanded) (ui.root.map (·.tree))

/-- The row at a position. -/
def nodeAt (position : ℕ) : Option SidebarRow := ui.shown[position]?

/-- Where the row of a key is, unless it is folded away. -/
def positionOf (key : Selection) : Option ℕ := ui.shown.findIdx? fun row => row.key = key

/-- Whether the selection has a row that can be selected. -/
def showsSelectable (selection : Selection) : Bool :=
  ((ui.positionOf selection).bind ui.nodeAt).any (·.selectable)

/-- The shown name of a folder. -/
def folderName (folder : FolderRef) : Option String :=
  ((ui.positionOf (.mailbox folder)).bind ui.nodeAt).map (·.title)

/-- The load sequence of the selected account. -/
def selectedProvider : Option MailProvider :=
  ui.accounts.selection.bind fun selection =>
    (ui.accounts.visibleAccounts.lookup selection.accountId).map (·.provider)

/-- The accounts that come get their rows, each at its place. -/
def insertMissing : ℕ → AccountRows → List SidebarNode → List SidebarNode
  | _, [], root => root
  | position, (id, _) :: rows, root =>
    insertMissing (position + 1) rows
      (if root.any fun node => node.account = id then root else root.insertIdx position (.new id))

/-- The rows are those of the accounts shown, and show them. -/
def showAccounts (rows : AccountRows) (root : List SidebarNode) : List SidebarNode :=
  (insertMissing 0 rows (root.filter fun node => node.account ∈ rows.ids)).map fun node =>
    match rows.lookup node.account with
    | some account => node.showAccount account
    | none => node

/-- Apply an update; the notices are shown as toasts. -/
def applyUpdate (update : NamedUpdate) : SidebarUi × List AccountHiddenNotice :=
  let (accounts, hiddenNotices) := ui.accounts.applyUpdate update
  (⟨accounts, showAccounts accounts.visibleAccounts ui.root⟩, hiddenNotices)

/-- The folders under an account's row are those of the list. -/
def fillFolders (collationKey : String → String) (account : AccountId)
    (folders : List Folder) : SidebarUi :=
  { ui with
    root := ui.root.map fun node =>
      if node.account = account then node.fillFolders collationKey folders else node }

/-- Whether the selection is of the account and no longer has a row that can be selected. -/
def selectionGone (account : AccountId) : Bool :=
  (ui.accounts.selection.filter fun selection => selection.accountId = account).any fun selection =>
    !ui.showsSelectable selection

/-- The folders in identity order. -/
def inIdentityOrder (folders : List Folder) : List Folder :=
  folders.mergeSort fun a b => decide (a.identity ≤ b.identity)

/-- Show an account's stored folder list, and whether the selection was cleared because the tree no
longer shows it. An unchanged list keeps the rows, so what is folded stays so. -/
def showFolders (collationKey : String → String) (account : AccountId)
    (folders : List Folder) : Bool × SidebarUi :=
  match ui.root.find? fun node => node.account = account with
  | none => (false, ui)
  | some node =>
    if node.listedFolders = inIdentityOrder folders then (false, ui)
    else
      let ui := ui.fillFolders collationKey account (inIdentityOrder folders)
      if ui.selectionGone account then (true, { ui with accounts := ui.accounts.clearSelection })
        else (false, ui)

/-- Select the row the user chose, and whether the selection changed. -/
def selectAt (position : ℕ) : Bool × SidebarUi :=
  match ui.nodeAt position with
  | none => (false, ui)
  | some row =>
    if ui.accounts.selection = some row.key then (false, ui)
      else (true, { ui with accounts := ui.accounts.select row.key })

/-- Clear a selection whose row was folded away, and whether it was. -/
def clearHiddenSelection : Bool × SidebarUi :=
  let hidden := ui.accounts.selection.any fun selection => (ui.positionOf selection).isNone
  (hidden, if hidden then { ui with accounts := ui.accounts.clearSelection } else ui)

/-- The row with the key is folded or unfolded. -/
def fold (key : Selection) (expanded : Bool) : SidebarUi :=
  { ui with root := ui.root.map (·.fold key expanded) }

/-- The user folds a row. Where rows went, so does their selection. -/
def collapse (key : Selection) : Bool × SidebarUi :=
  let folded := ui.fold key false
  if folded.shown.length = ui.shown.length then (false, folded) else folded.clearHiddenSelection

/-- The user unfolds a row. -/
def expand (key : Selection) : SidebarUi := ui.fold key true

/-! ### What happens to the sidebar -/

/-- What the user and the window do with the sidebar. -/
inductive Event where
  /-- An update of Online Accounts is applied. -/
  | update (update : NamedUpdate)
  /-- An account's folder list is shown. -/
  | folders (account : AccountId) (folders : List Folder)
  /-- The user selects a row. -/
  | select (position : ℕ)
  /-- The user folds a row. -/
  | collapse (key : Selection)
  /-- The user unfolds a row. -/
  | expand (key : Selection)

/-- A list names each folder once, and the tree selects only rows that can be selected. -/
def Enabled : Event → Prop
  | .folders _ folders => Unique Folder.identity folders
  | .select position => (ui.nodeAt position).any (·.selectable) = true
  | _ => True

/-- The sidebar after an event. -/
def handle (collationKey : String → String) : Event → SidebarUi
  | .update update => (ui.applyUpdate update).1
  | .folders account folders => (ui.showFolders collationKey account folders).2
  | .select position => (ui.selectAt position).2
  | .collapse key => (ui.collapse key).2
  | .expand key => ui.expand key

end SidebarUi

end Mailbag.Window
