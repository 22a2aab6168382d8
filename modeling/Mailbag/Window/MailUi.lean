import Mailbag.Window.MessageItems

/-!
# The messages list and the reader

The list follows the stored rows of one folder: it leaves out the messages the user took
out in the window and, with the unread filter on, the read ones but the open one. An
animated change closes the rows that leave first, and the list itself changes when a timer
fires after the closing; rows that arrive come in closed and open on the second frame.

The reader shows one message: its envelope from its row object at once, its content when
the window has read it. A second after the opening a timer asks to mark it read.

Widgets are left out: the list's selection and scrolling, which pane a narrow window
shows, the texts as labels show them.
-/

namespace Mailbag.Window

open Collections

/-- A folder's stored rows as one read found them; two reads are told apart by their allocation. -/
structure StoredRows where
  /-- The allocation. -/
  allocation : ℕ
  /-- The rows. -/
  rows : List MessageListRow
  /-- A folder lists no message twice. -/
  unique : Unique MessageListRow.identity rows

/-- Who asks for a change of a flag. -/
inductive Asker where
  /-- The user. -/
  | user
  /-- The second after the opening. -/
  | opening
  deriving DecidableEq

/-- What the list and the reader did, and what they asked the window for. -/
inductive MailEvent where
  /-- A message was opened. -/
  | opened (identity : String)
  /-- The reader was closed. -/
  | closed
  /-- The user asked to mark the open message unread. -/
  | unreadAsked
  /-- The window is asked for a message's content. -/
  | contentRequested (account : AccountId) (identity : String)
  /-- The window answered. -/
  | contentAnswered (account : AccountId) (identity : String)
      (content : Except Failure (Option ReceivedContent))
  /-- The window is asked to store the wanted value of a flag. -/
  | flagChange (asker : Asker) (account : AccountId) (identity : String) (flag : MessageFlag)
      (wanted : Bool)
  /-- The window hears that the user took a row out. -/
  | rowRemoved

/-- What the reader's envelope shows: the row object's stored row and its star. -/
structure Envelope where
  /-- The stored row. -/
  listed : MessageListRow
  /-- The star. -/
  starred : Bool

/-- The messages list and the reader. -/
structure MailUi where
  /-- The row objects. -/
  objects : Objects
  /-- The list. -/
  items : List ItemRef
  /-- Which folder's stored rows the list shows. -/
  listedRows : Option (FolderRef × StoredRows)
  /-- Whether the list shows only the unread messages and the open one. -/
  unreadOnly : Bool
  /-- The messages taken out in the window. -/
  removedInWindow : List String
  /-- Whether the change of the list waits until the rows that leave are closed. -/
  pendingChange : Bool
  /-- The message the reader shows. -/
  openMessage : Option String
  /-- Whether the second after the opening runs. -/
  pendingRead : Bool
  /-- The arrived rows that open on the second frame, with the frames drawn. -/
  openings : List (ℕ × List ItemRef)
  /-- The reader's envelope. -/
  envelope : Option Envelope
  /-- What the reader shows in the body's place; nothing until the content is read. -/
  body : Option (Except Failure ReceivedContent)
  /-- What happened, newest first. -/
  log : List MailEvent

/-- The rows the list shows: the stored rows but those taken out in the window, and with the
unread filter on only the unread ones and the open message. -/
def shownRows (rows : List MessageListRow) (unreadOnly : Bool) (openMessage : Option String)
    (removedInWindow : List String) : List MessageListRow :=
  (rows.filter fun row => row.identity ∉ removedInWindow).filter fun row =>
    !unreadOnly || !row.seen || openMessage = some row.identity

/-- Start closing the rows whose message `rows` no longer lists; whether any started. -/
def closeLeavingRows (objects : Objects) (rows : List MessageListRow) :
    List ItemRef → Objects × Bool
  | [] => (objects, false)
  | item :: items =>
    let stays := (latest (objects.object item).listed.identity
      (collect (rows.map fun row => (row.identity, row)))).any
      (objects.object item).listsSameMessage
    if !stays && (objects.object item).shown then
      ((closeLeavingRows (objects.change item (·.showOver false rowTransitionMs)) rows items).1,
        true)
    else closeLeavingRows objects rows items

/-- The rows open, over the time. -/
def openRows (transitionMs : UInt32) (objects : Objects) (items : List ItemRef) : Objects :=
  items.foldl (fun objects item => objects.change item (·.showOver true transitionMs)) objects

/-- Where the message is listed. -/
def positionOf (objects : Objects) (items : List ItemRef) (identity : String) : Option ℕ :=
  items.findIdx? fun item => (objects.object item).listed.identity = identity

/-- The first row at the positions that is not closed, and whether it is unread. -/
def firstShown (objects : Objects) (items : List ItemRef) (positions : List ℕ) :
    Option (ℕ × Bool) :=
  positions.findSome? fun position =>
    match items[position]? with
    | some item =>
      if (objects.object item).shown then some (position, (objects.object item).unread) else none
    | none => none

/-- The position that opens after the open message leaves the list, from each neighbour's position
and whether it is unread: the one below, unless there is none or only the one above is unread. -/
def nextAfterLeaving : Option (ℕ × Bool) → Option (ℕ × Bool) → Option ℕ
  | none, none => none
  | some (above, _), none => some above
  | some (above, true), some (_, false) => some above
  | none, some (below, _) => some below
  | some (_, false), some (below, _) => some below
  | some (_, true), some (below, true) => some below

namespace MailUi

/-- The window's list and reader before anything is shown. -/
def start : MailUi where
  objects := ⟨fun _ => MessageItem.new ⟨"", ⟨none, none, none⟩, none, false, false, ""⟩, 0⟩
  items := []
  listedRows := none
  unreadOnly := false
  removedInWindow := []
  pendingChange := false
  openMessage := none
  pendingRead := false
  openings := []
  envelope := none
  body := none
  log := []

variable (ui : MailUi)

/-- Empty the reader. -/
def closeReader : MailUi :=
  { ui with
    pendingRead := false
    openMessage := none
    envelope := none
    body := none
    log := .closed :: ui.log }

/-- Show a row object's envelope. -/
def showEnvelope (item : ItemRef) : MailUi :=
  { ui with envelope := some ⟨(ui.objects.object item).listed, (ui.objects.object item).starred⟩ }

/-- Change the list to the rows by difference, and open the closed rows: at once, or on the second
frame after the change. -/
def changeList (shown : List MessageListRow) (change : ListChange) : Except ListFault MailUi := do
  let updated ← updateListByDifference ui.objects ui.items shown change
  let ui := { ui with objects := updated.objects, items := updated.items }
  match change with
  | .atOnce => return { ui with objects := openRows 0 ui.objects updated.closed }
  | .animated =>
    return if updated.closed = [] then ui
      else { ui with openings := ui.openings ++ [(0, updated.closed)] }

/-- The open message stays open while it is listed, with its envelope from its row. -/
def followOpenMessage (shown : List MessageListRow) : MailUi :=
  match ui.openMessage with
  | none => ui
  | some identity =>
    let stillListed := shown.any fun row => row.identity = identity
    match (positionOf ui.objects ui.items identity).filter fun _ => stillListed with
    | some position =>
      match ui.items[position]? with
      | some item => ui.showEnvelope item
      | none => ui
    | none => ui.closeReader

/-- Make the list show what the stored rows, the filter, the open message and the window's own
changes call for. A list off screen, or with the system's animations off, changes at once. -/
def updateShown (change : ListChange) (animates : Bool) : Except ListFault MailUi := do
  match ui.listedRows with
  | none => return ui
  | some (_, stored) =>
    let change := if animates then change else .atOnce
    let shown := shownRows stored.rows ui.unreadOnly ui.openMessage ui.removedInWindow
    match change with
    | .atOnce =>
      let ui ← { ui with pendingChange := false }.changeList shown change
      return ui.followOpenMessage shown
    | .animated =>
      let closing := closeLeavingRows ui.objects shown ui.items
      let ui := { ui with objects := closing.1, pendingChange := ui.pendingChange || closing.2 }
      let ui ← if ui.pendingChange then pure ui else ui.changeList shown change
      return ui.followOpenMessage shown

/-- Empty the list and the reader. -/
def clear : MailUi :=
  match ui.listedRows with
  | none => ui
  | some _ => { ui with items := [], listedRows := none }.closeReader

/-- Show a folder's stored rows. A new read of the folder shown changes the list with animations;
a folder shown anew changes at once, and lists again what was taken out in the window. -/
def showRows (folder : FolderRef) (stored : StoredRows) (animates : Bool) :
    Except ListFault MailUi :=
  let sameRead := ui.listedRows.any fun listed =>
    listed.1 = folder && listed.2.allocation = stored.allocation
  let sameFolder := ui.listedRows.any fun listed => listed.1 = folder
  let sameAccount := ui.listedRows.any fun listed => listed.1.account = folder.account
  if sameRead then .ok ui
  else
    let ui := if sameAccount then ui else ui.clear
    let ui := { ui with listedRows := some (folder, stored) }
    let ui := if sameFolder then ui else { ui with removedInWindow := [] }
    ui.updateShown (if sameFolder then .animated else .atOnce) animates

/-- Show only the unread messages and the open one, or every message. -/
def setUnreadFilter (unreadOnly animates : Bool) : Except ListFault MailUi :=
  { ui with unreadOnly }.updateShown .atOnce animates

/-- Whether the filter or the rows taken out leave none of the stored rows in the list. -/
def showsNoRow : Bool :=
  match ui.listedRows with
  | none => false
  | some (_, stored) =>
    (shownRows stored.rows ui.unreadOnly ui.openMessage ui.removedInWindow).isEmpty

/-- Ask the window for a message's content. -/
def requestContent (account : AccountId) (identity : String) : MailUi :=
  { ui with log := .contentRequested account identity :: ui.log }

/-- Open the row's message: its envelope at once, its content when the window has read it. A closing
row is leaving the list. -/
def openAt (position : ℕ) : MailUi :=
  match ui.items[position]?, ui.listedRows with
  | some item, some (folder, _) =>
    if (ui.objects.object item).shown then
      let identity := (ui.objects.object item).listed.identity
      let ui := { ui with
          openMessage := some identity
          pendingRead := true
          body := none
          log := .opened identity :: ui.log }
      (ui.showEnvelope item).requestContent folder.account identity
    else ui
  | _, _ => ui

/-- The list's row is activated. Under the filter the message open before, if read, leaves at
once. -/
def activate (position : ℕ) (animates : Bool) : Except ListFault MailUi :=
  let ui := ui.openAt position
  if ui.unreadOnly then ui.updateShown .atOnce animates else .ok ui

/-- The row to open after the open row at `position` leaves. -/
def nextAfterLeavingAt (position : ℕ) : Option ℕ :=
  nextAfterLeaving (firstShown ui.objects ui.items (List.range position).reverse)
    (firstShown ui.objects ui.items (List.range' (position + 1) (ui.items.length - (position + 1))))

/-- Take a message out of the list in the window only. When it was the open one, the neighbour the
rule names opens. -/
def removeInWindow (identity : String) (animates : Bool) : Except ListFault MailUi :=
  match positionOf ui.objects ui.items identity with
  | none => .ok ui
  | some position => do
    let ui := { ui with removedInWindow := identity :: ui.removedInWindow }
    let ui := if ui.openMessage = some identity then
        match ui.nextAfterLeavingAt position with
        | some next => ui.openAt next
        | none => ui.closeReader
      else ui
    let ui ← ui.updateShown .animated animates
    return { ui with log := .rowRemoved :: ui.log }

/-- The rows that leave are closed: the timer fires. -/
def afterClosing (animates : Bool) : Except ListFault MailUi :=
  { ui with pendingChange := false }.updateShown .animated animates

/-- A frame is drawn: the rows that arrived two frames ago open. -/
def frame : MailUi :=
  let drawn := ui.openings.map fun opening => (opening.1 + 1, opening.2)
  { ui with
    objects := (drawn.filter fun opening => 2 ≤ opening.1).foldl
      (fun objects opening => openRows rowTransitionMs objects opening.2) ui.objects
    openings := drawn.filter fun opening => opening.1 < 2 }

/-- Ask the window to store the wanted value of a listed message's flag. -/
def changeListedFlag (asker : Asker) (identity : String) (flag : MessageFlag) (wanted : Bool) :
    MailUi :=
  match ui.listedRows with
  | none => ui
  | some (folder, _) =>
    { ui with log := .flagChange asker folder.account identity flag wanted :: ui.log }

/-- Ask the window to store the wanted value of the open message's flag. Marking it unread first
stops the second after the opening from marking it read again. -/
def changeFlag (asker : Asker) (flag : MessageFlag) (wanted : Bool) : MailUi :=
  let ui :=
    if flag = .seen ∧ !wanted then { ui with pendingRead := false, log := .unreadAsked :: ui.log }
    else ui
  match ui.openMessage with
  | none => ui
  | some identity => ui.changeListedFlag asker identity flag wanted

/-- The open message's row object. -/
def openItem : Option ItemRef :=
  (ui.openMessage.bind (positionOf ui.objects ui.items)).bind fun position => ui.items[position]?

/-- The second after the opening has passed: an unread message is marked read. -/
def readAfterOpening : MailUi :=
  let ui := { ui with pendingRead := false }
  if ui.openItem.any fun item => (ui.objects.object item).unread then
    ui.changeFlag .opening .seen true else ui

/-- A click on a row's star stars or unstars its message; where no star shows it asks for
nothing. -/
def toggleRowStar (item : ItemRef) (starShows : Bool) : MailUi :=
  if starShows then ui.changeListedFlag .user (ui.objects.object item).listed.identity .flagged
    (!(ui.objects.object item).starred)
  else ui

/-- The account and identity of the message the reader shows. -/
def openMessageOf : Option (AccountId × String) :=
  match ui.openMessage, ui.listedRows with
  | some identity, some (folder, _) => some (folder.account, identity)
  | _, _ => none

/-- Show a read of the open message's stored content. An answer for a message no longer open is
dropped; a message the store no longer holds closes the reader. -/
def showContent (account : AccountId) (identity : String)
    (content : Except Failure (Option ReceivedContent)) : MailUi :=
  let ui := { ui with log := .contentAnswered account identity content :: ui.log }
  if ui.openMessageOf ≠ some (account, identity) then ui
  else
    match content with
    | .ok (some content) => { ui with body := some (.ok content) }
    | .ok none => ui.closeReader
    | .error failure => { ui with body := some (.error failure) }

/-- Read the open message's content again, as the Retry of a failed read does. -/
def readOpenContentAgain : MailUi :=
  match ui.openMessageOf with
  | some (account, identity) => ui.requestContent account identity
  | none => ui

end MailUi

end Mailbag.Window
