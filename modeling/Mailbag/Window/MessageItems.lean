import Mailbag.Collections.Keyed
import Mailbag.Collections.Matching
import Mailbag.Domain
import Mathlib.Logic.Function.Basic

/-!
# The messages list's row objects, and its update by difference

A row object shows one stored message. It keeps the stored row it was made from; its read
state and star change in place. The list holds references to the objects, and the same
object stays the same row on screen, so an update keeps the objects of the messages still
listed.

A list store counts in 32 bits, and no list it holds is longer; positions are natural
numbers here.
-/

namespace Mailbag.Window

open Collections

/-- How a change of the rows shown reaches the screen. -/
inductive ListChange where
  /-- At once. -/
  | atOnce
  /-- With arriving rows opening and leaving rows closing. -/
  | animated
  deriving DecidableEq

/-- How long a row takes to open or to close, in milliseconds. -/
def rowTransitionMs : UInt32 := 220

/-- A row object: one stored message as its row shows it. -/
structure MessageItem where
  /-- The stored row it was made from; its read state and star may be older than the next two. -/
  listed : MessageListRow
  /-- Whether the row shows the message unread. -/
  unread : Bool
  /-- Whether the row shows the star. -/
  starred : Bool
  /-- Whether the row is open. -/
  shown : Bool
  /-- How long the row takes to open or close. -/
  transitionMs : UInt32

namespace MessageItem

/-- The row object of a stored message. -/
def new (row : MessageListRow) : MessageItem :=
  { listed := row, unread := !row.seen, starred := row.flagged, shown := true, transitionMs := 0 }

variable (item : MessageItem)

/-- Whether the item shows the row apart from its read state and star. -/
def listsSameMessage (row : MessageListRow) : Bool :=
  item.listed.identity = row.identity && item.listed.fields = row.fields &&
    item.listed.receivedUnix = row.receivedUnix && item.listed.preview = row.preview

/-- Open or close the row over that time. -/
def showOver (shown : Bool) (transitionMs : UInt32) : MessageItem :=
  { item with transitionMs := transitionMs, shown := shown }

end MessageItem

/-- A reference to a row object. -/
abbrev ItemRef := ℕ

/-- The row objects made so far. -/
structure Objects where
  /-- What each reference refers to. -/
  object : ItemRef → MessageItem
  /-- The reference of the next object made. -/
  next : ItemRef

namespace Objects

variable (objects : Objects)

/-- Make a row object. -/
def make (item : MessageItem) : Objects × ItemRef :=
  (⟨Function.update objects.object objects.next item, objects.next + 1⟩, objects.next)

/-- Change a row object in place. -/
def change (ref : ItemRef) (f : MessageItem → MessageItem) : Objects :=
  { objects with object := Function.update objects.object ref (f (objects.object ref)) }

end Objects

/-- What ends the update of the list. -/
inductive ListFault where
  /-- The list holds no row object at the position. -/
  | noItem
  /-- There is no row at the position. -/
  | noRow
  /-- The positions to replace are not in the list. -/
  | spliceOutside
  deriving DecidableEq

/-- The row object at the position. -/
def itemAt (items : List ItemRef) (position : ℕ) : Except ListFault ItemRef :=
  match items[position]? with
  | some item => .ok item
  | none => .error .noItem

/-- `rows[position]`. -/
def rowAt (rows : List MessageListRow) (position : ℕ) : Except ListFault MessageListRow :=
  match rows[position]? with
  | some row => .ok row
  | none => .error .noRow

/-- `rows[start..stop]`. -/
def rowsBetween (rows : List MessageListRow) (start stop : ℕ) :
    Except ListFault (List MessageListRow) :=
  if start ≤ stop ∧ stop ≤ rows.length then .ok ((rows.take stop).drop start) else .error .noRow

/-- A change of the list's items as the list store reports it. -/
structure ItemChange where
  /-- The first position changed. -/
  position : ℕ
  /-- How many items were removed there. -/
  removed : ℕ
  /-- How many were added. -/
  added : ℕ
  deriving DecidableEq

/-- `ListStore::splice`, and the change it reports. -/
def splice (items : List ItemRef) (position removals : ℕ) (additions : List ItemRef) :
    Except ListFault (List ItemRef × ItemChange) :=
  if position + removals ≤ items.length then
    .ok (replaced items position removals additions, ⟨position, removals, additions.length⟩)
  else .error .spliceOutside

/-- Replace the middle of the list, unless nothing leaves and nothing comes. -/
def replaceMiddle (items : List ItemRef) (start removals : ℕ) (additions : List ItemRef) :
    Except ListFault (List ItemRef × List ItemChange) :=
  if removals ≠ 0 ∨ additions ≠ [] then
    (splice items start removals additions).map fun (items, change) => (items, [change])
  else .ok (items, [])

/-- Whether the item and the row at two positions show the same message. -/
def sameAt (objects : Objects) (items : List ItemRef) (rows : List MessageListRow)
    (itemPosition rowPosition : ℕ) : Except ListFault Bool := do
  let item ← itemAt items itemPosition
  let row ← rowAt rows rowPosition
  return (objects.object item).listsSameMessage row

/-- A new row object; an animated change brings it in closed. -/
def newItem (change : ListChange) (row : MessageListRow) : MessageItem :=
  match change with
  | .animated => (MessageItem.new row).showOver false rowTransitionMs
  | .atOnce => MessageItem.new row

/-- The item of a new row: the object of the message when the middle still listed it unchanged, else
a new one. -/
def addedItem (change : ListChange) (removed : List (String × ItemRef)) (objects : Objects)
    (row : MessageListRow) : Objects × ItemRef :=
  match latest row.identity removed with
  | some item =>
    if (objects.object item).listsSameMessage row then (objects, item)
      else objects.make (newItem change row)
  | none => objects.make (newItem change row)

/-- The items of the middle's new rows. -/
def addedItems (change : ListChange) (removed : List (String × ItemRef)) :
    Objects → List MessageListRow → Objects × List ItemRef
  | objects, [] => (objects, [])
  | objects, row :: rows =>
    let first := addedItem change removed objects row
    let rest := addedItems change removed first.1 rows
    (rest.1, first.2 :: rest.2)

/-- The row's read state and star, set where they differ. -/
def followRow (row : MessageListRow) (item : MessageItem) : MessageItem :=
  let item := if item.unread = row.seen then { item with unread := !row.seen } else item
  if item.starred ≠ row.flagged then { item with starred := row.flagged } else item

/-- Every row's read state and star change in place; the closed rows. -/
def followRows (items : List ItemRef) :
    Objects → ℕ → List MessageListRow → Except ListFault (Objects × List ItemRef)
  | objects, _, [] => .ok (objects, [])
  | objects, position, row :: rows => do
    let item ← itemAt items position
    let objects := objects.change item (followRow row)
    let rest ← followRows items objects (position + 1) rows
    return (rest.1, if (objects.object item).shown then rest.2 else item :: rest.2)

/-- The list after an update. -/
structure Updated where
  /-- The row objects. -/
  objects : Objects
  /-- The list. -/
  items : List ItemRef
  /-- The changes of its items. -/
  changes : List ItemChange
  /-- The closed rows. -/
  closed : List ItemRef

/-- Make the list's row objects follow the rows: the common beginning and end stay, and one splice
replaces the middle. -/
def updateListByDifference (objects : Objects) (items : List ItemRef) (rows : List MessageListRow)
    (change : ListChange) : Except ListFault Updated := do
  let shown := items.length
  let sameStart ← countWhile (fun n => sameAt objects items rows n n) (min shown rows.length) 0
  let sameEnd ← countWhile
    (fun n => sameAt objects items rows (shown - 1 - n) (rows.length - 1 - n))
    (min (shown - sameStart) (rows.length - sameStart)) 0
  let leaving ← (List.range' sameStart (shown - sameEnd - sameStart)).mapM (itemAt items)
  let removed := collect (leaving.map fun item => ((objects.object item).listed.identity, item))
  let middle ← rowsBetween rows sameStart (rows.length - sameEnd)
  let (objects, added) := addedItems change removed objects middle
  let (items, changes) ← replaceMiddle items sameStart removed.length added
  let (objects, closed) ← followRows items objects 0 rows
  return ⟨objects, items, changes, closed⟩

end Mailbag.Window
