import Mailbag.Collections.Fresh
import Mailbag.OnlineAccounts.AccountList
import Mailbag.Window.ShownMailbox
import Mathlib.Data.List.Sort

/-!
# The account rows of the sidebar

The window applies each update of Online Accounts to its rows. A complete one hides and shows
accounts, takes over their details, and names the rows: an account by its name, and accounts of
one name each with the row's number after it. Any other one only marks the rows.

The maps are ordered by the account, as the source's are.
-/

namespace Mailbag.Window

open Collections OnlineAccounts

/-- One account of Online Accounts, with what its row shows. -/
structure NamedDetails extends AccountDetails where
  /-- Whether the user has to sign in again. -/
  needsAttention : Bool
  /-- The account's name. -/
  displayName : Option String
  /-- The account's address. -/
  emailAddress : Option String
  deriving DecidableEq

/-- The accounts of one answer, ordered by the account. -/
structure NamedAccounts where
  /-- The accounts with their details. -/
  entries : List (AccountId × NamedDetails)
  /-- They are ordered, so none is listed twice. -/
  sorted : entries.Pairwise fun a b => a.1.asStr < b.1.asStr

/-- A problem that a row shows. -/
inductive AccountProblem where
  /-- The last check did not confirm the account. -/
  | checkUnconfirmed
  /-- Its mail service is not there. -/
  | mailUnavailable
  /-- The user has to sign in again. -/
  | attentionNeeded
  deriving DecidableEq

/-- Why an account has no row. -/
inductive ExclusionReason where
  /-- Its Mail is off. -/
  | mailDisabled
  /-- Its provider is not supported. -/
  | unsupportedProvider
  /-- Its mail service is not there. -/
  | mailUnavailable
  deriving DecidableEq

/-- One account's row. -/
structure AccountRow where
  /-- The label, with a number when account names match. -/
  label : String
  /-- The load sequence the account needs. -/
  provider : MailProvider
  /-- The icon. -/
  iconName : String
  /-- The problems. -/
  problems : List AccountProblem
  /-- The account's name or address, before a number is added. -/
  baseLabel : String
  /-- The row's number. -/
  labelNumber : UInt64
  deriving DecidableEq

/-- The icon of an account without its own. -/
def genericAccountIcon : String := "mail-unread-symbolic"

/-- What an account is called: its name, else its address. -/
def accountName (details : NamedDetails) : String :=
  (details.displayName.or details.emailAddress).getD "Mail account"

namespace AccountRow

variable (row : AccountRow)

/-- A check that did not complete says nothing of the account. -/
def markCheckUnconfirmed : AccountRow :=
  if .checkUnconfirmed ∈ row.problems then row
    else { row with problems := row.problems ++ [.checkUnconfirmed] }

/-- Take over the account's details. -/
def updateDetails (details : NamedDetails) (provider : MailProvider) : AccountRow :=
  { row with
    problems := (if details.mailServiceAvailable then [] else [.mailUnavailable]) ++
      if details.needsAttention then [.attentionNeeded] else []
    baseLabel := accountName details
    provider := provider
    iconName := match provider with
      | .gmail => "mailbag-account-google-symbolic"
      | .microsoft365 => "mailbag-account-ms365-symbolic"
      | .genericImap => genericAccountIcon }

end AccountRow

/-- The rows, ordered by the account. -/
abbrev AccountRows := List (AccountId × AccountRow)

namespace AccountRows

variable (rows : AccountRows)

/-- The accounts that have a row. -/
def ids : List AccountId := List.map Prod.fst rows

/-- Insert a row at its account's place. -/
def insert (id : AccountId) (row : AccountRow) : AccountRows :=
  List.orderedInsert (fun a b => a.1.asStr ≤ b.1.asStr) (id, row) rows

/-- Change an account's row. -/
def modify (id : AccountId) (f : AccountRow → AccountRow) : AccountRows :=
  List.map (fun entry => if entry.1 = id then (entry.1, f entry.2) else entry) rows

/-- Remove an account's row. -/
def remove (id : AccountId) : AccountRows := List.filter (fun entry => entry.1 ≠ id) rows

end AccountRows

/-- An update of Online Accounts. -/
abbrev NamedUpdate := AccountUpdate NamedAccounts AccountCheckError

/-- The rows, and what the user selected. -/
structure AccountList where
  /-- The accounts shown, with their rows. -/
  visibleAccounts : AccountRows
  /-- What the user selected. -/
  selection : Option Selection
  /-- How the last read ended. -/
  lastCheck : AccountCheckResult AccountCheckError
  /-- An explicit Retry is running. -/
  retryPending : Bool
  /-- Why accounts of the last complete answer have no row. -/
  excludedReasons : List ExclusionReason
  /-- The number of the next row. -/
  nextLabelNumber : UInt64

/-- Before the first update. -/
def AccountList.initial : AccountList :=
  { visibleAccounts := []
    selection := none
    lastCheck := .notChecked
    retryPending := false
    excludedReasons := []
    nextLabelNumber := 1 }

/-- A row was hidden: its account is removed, or its Mail is off. -/
structure AccountHiddenNotice where
  /-- The row's label. -/
  label : String
  deriving DecidableEq

/-! ### The labels -/

/-- A label with the row's number after it. -/
def withNumber (number : UInt64) (label : String) : String :=
  label ++ " (" ++ toString number ++ ")"

theorem length_lt_withNumber (number : UInt64) (label : String) :
    label.length < (withNumber number label).length := by
  have hopen : " (".length = 2 := rfl
  rw [withNumber, String.length_append, String.length_append, String.length_append, hopen]
  omega

/-- The row's number, added until no label used is the same. -/
def numberedLabel (number : UInt64) (usedLabels : List String) (label : String) : String :=
  growUntilFree (withNumber number) String.length (length_lt_withNumber number) usedLabels label

/-- How many rows have that name. -/
def labelCount (rows : AccountRows) (baseLabel : String) : ℕ :=
  rows.countP fun entry => entry.2.baseLabel = baseLabel

/-- The labels of the rows one after the other, given how often each name occurs. -/
def labelRows (count : String → ℕ) : List String → AccountRows → AccountRows
  | _, [] => []
  | usedLabels, (id, row) :: rows =>
    if 1 < count row.baseLabel then
      let label := numberedLabel row.labelNumber usedLabels row.baseLabel
      (id, { row with label := label }) :: labelRows count (label :: usedLabels) rows
    else (id, { row with label := row.baseLabel }) :: labelRows count usedLabels rows

namespace AccountList

variable (list : AccountList)

/-- Name the rows. -/
def assignDisplayLabels : AccountList :=
  { list with
    visibleAccounts := labelRows (labelCount list.visibleAccounts)
      (list.visibleAccounts.map (·.2.baseLabel)) list.visibleAccounts }

/-! ### One update -/

/-- Select an account with a visible row, or one of its mailboxes; ignore any other. -/
def select (selection : Selection) : AccountList :=
  if selection.accountId ∈ list.visibleAccounts.ids then { list with selection := some selection }
    else list

/-- Nothing is selected. -/
def clearSelection : AccountList := { list with selection := none }

/-- Keep a reason. -/
def exclude (reason : ExclusionReason) : AccountList :=
  { list with excludedReasons := if reason ∈ list.excludedReasons then list.excludedReasons
    else reason :: list.excludedReasons }

/-- The rows of the accounts still listed with Mail on stay; the others are hidden with a notice. -/
def hideRemovedOrDisabledAccounts (accounts : NamedAccounts) :
    AccountList × List AccountHiddenNotice :=
  let stays := fun (entry : AccountId × AccountRow) => (accounts.entries.lookup entry.1).any
    (·.mailEnabled)
  ({ list with visibleAccounts := list.visibleAccounts.filter stays },
    (list.visibleAccounts.filter fun entry => !stays entry).map fun entry => ⟨entry.2.label⟩)

/-- One account's details are looked at. -/
def updateVisibleAccount (account : AccountId × NamedDetails) : AccountList :=
  match mailProvider account.2.provider with
  | none =>
    { list with visibleAccounts := list.visibleAccounts.remove account.1 }.exclude
      .unsupportedProvider
  | some provider =>
    if !account.2.mailEnabled then list.exclude .mailDisabled
    else if account.1 ∈ list.visibleAccounts.ids then
      { list with
        visibleAccounts :=
          list.visibleAccounts.modify account.1 (·.updateDetails account.2 provider) }
    else if account.2.mailServiceAvailable then
      let row : AccountRow :=
        { label := ""
          baseLabel := ""
          provider := provider
          iconName := genericAccountIcon
          problems := []
          labelNumber := list.nextLabelNumber }
      { list with
        nextLabelNumber := list.nextLabelNumber + 1
        visibleAccounts := list.visibleAccounts.insert account.1
          (row.updateDetails account.2 provider) }
    else list.exclude .mailUnavailable

/-- The accounts' details are looked at, one after the other. -/
def updateVisibleAccounts (accounts : NamedAccounts) : AccountList :=
  accounts.entries.foldl updateVisibleAccount list

/-- A selection whose account is no longer shown is dropped. -/
def dropHiddenSelection : AccountList :=
  if list.selection.any fun selection => selection.accountId ∉ list.visibleAccounts.ids then
    { list with selection := none }
  else list

/-- Apply an update. -/
def applyUpdate (update : NamedUpdate) : AccountList × List AccountHiddenNotice :=
  let list := { list with lastCheck := update.lastCheck, retryPending := update.retryPending }
  if update.lastCheck ≠ .complete then
    ({ list with visibleAccounts := list.visibleAccounts.map fun entry =>
      (entry.1, entry.2.markCheckUnconfirmed) }, [])
  else
    let list := { list with excludedReasons := [] }
    let (list, hiddenNotices) := list.hideRemovedOrDisabledAccounts update.accounts
    ((list.updateVisibleAccounts update.accounts).dropHiddenSelection.assignDisplayLabels,
      hiddenNotices)

end AccountList

/-! ### What happens to the rows -/

/-- What the window does with its account list. -/
inductive AccountEvent where
  /-- An update of Online Accounts is applied. -/
  | update (update : NamedUpdate)
  /-- The user selects an account or a mailbox. -/
  | select (selection : Selection)
  /-- The selection is cleared. -/
  | clear

/-- The list after an event. -/
def AccountList.handle (list : AccountList) : AccountEvent → AccountList
  | .update update => (list.applyUpdate update).1
  | .select selection => list.select selection
  | .clear => list.clearSelection

/-- The list after the events, from the beginning. -/
def AccountList.after (events : List AccountEvent) : AccountList := events.foldl handle initial

end Mailbag.Window
