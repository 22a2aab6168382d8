import Mailbag.Window.RowObjects

/-!
# What the list shows, and the reader's message

The list is changed now, or its change waits until the rows that leave are closed. What
holds of the list and of the reader is one invariant (`MailUi.Inv`); between two steps of
an action a part of it holds (`MailUi.Ready`).

## What is proved

* `followOpenMessage_followed` — the reader follows its message's row, or is closed.
* `updateShown_refreshed` — making the list show its rows ends without a fault and
  establishes the invariant.
-/

namespace Mailbag.Window

open Collections List

variable {objects later : Objects} {items : List ItemRef} {rows : List MessageListRow}

/-! ### The invariant -/

/-- The list shows the rows. -/
def Shows (objects : Objects) (items : List ItemRef) (rows : List MessageListRow) : Prop :=
  (items.map fun item => (objects.object item).view) = rows.map rowView

/-- A message the list shows has a row. -/
theorem Shows.exists_row (h : Shows objects items rows) {item : ItemRef} (hitem : item ∈ items) :
    ∃ row ∈ rows, (objects.object item).view = rowView row := by
  have hview : (objects.object item).view ∈ rows.map rowView := h ▸ mem_map_of_mem hitem
  obtain ⟨row, hrow, heq⟩ := mem_map.mp hview
  exact ⟨row, hrow, heq.symm⟩

/-- The envelope shows the row. -/
def Envelope.Of (row : MessageListRow) (envelope : Envelope) : Prop :=
  envelope.listed.identity = row.identity ∧ envelope.listed.fields = row.fields ∧
    envelope.listed.receivedUnix = row.receivedUnix ∧ envelope.starred = row.flagged

theorem envelope_of_view {item : ItemRef} {row : MessageListRow}
    (h : (objects.object item).view = rowView row) :
    Envelope.Of row ⟨(objects.object item).listed, (objects.object item).starred⟩ := by
  simp only [MessageItem.view, rowView, ShownRow.mk.injEq] at h
  exact ⟨h.1, h.2.1, h.2.2.1, h.2.2.2.2.2⟩

namespace MailUi

variable {ui ui' : MailUi} {folder : FolderRef} {stored : StoredRows}

/-- The list and the reader between two steps of an action. -/
structure Ready (ui : MailUi) : Prop where
  /-- The list holds objects that were made, and no message twice. -/
  holds : ui.objects.Holds ui.items
  /-- The open message has a row object in the list. -/
  listed : ∀ identity, ui.openMessage = some identity →
    ∃ item ∈ ui.items, ui.objects.identity item = identity
  /-- A closed reader shows nothing, and no second after an opening runs. -/
  closed : ui.openMessage = none → ui.pendingRead = false ∧ ui.envelope = none ∧ ui.body = none

/-- The rows the list is to show. -/
def rowsToShow (ui : MailUi) (stored : StoredRows) : List MessageListRow :=
  shownRows stored.rows ui.unreadOnly ui.openMessage ui.removedInWindow

/-- Each row of the list is open, or opens on the second frame after it came in. -/
def Opened (ui : MailUi) : Prop :=
  ∀ item ∈ ui.items, (ui.objects.object item).shown = true ∨
    ∃ opening ∈ ui.openings, item ∈ opening.2

/-- No change of the list waits: the list shows the rows, and the reader a message among them. An
answer that the store no longer holds the open message closes the reader and leaves the list as it
was, with that message still listed as the open one is. -/
structure Settled (ui : MailUi) (stored : StoredRows) : Prop where
  /-- The rows. -/
  rows : Shows ui.objects ui.items (ui.rowsToShow stored) ∨
    ∃ identity, GoneSince ui.log identity ∧ ui.openMessage = none ∧
      Shows ui.objects ui.items
        (shownRows stored.rows ui.unreadOnly (some identity) ui.removedInWindow)
  /-- They are open. -/
  opened : ui.Opened
  /-- The reader. -/
  reader : ∀ identity, ui.openMessage = some identity →
    ∃ row ∈ stored.rows, row.identity = identity ∧
    identity ∉ ui.removedInWindow ∧ ∃ envelope, ui.envelope = some envelope ∧ envelope.Of row

/-- **The invariant** of the list and the reader. -/
structure Inv (ui : MailUi) : Prop extends Ready ui where
  /-- Without stored rows the list is empty. -/
  empty : ui.listedRows = none → ui.items = []
  /-- Unless a change of it waits, the list shows the stored rows. -/
  settled : ∀ folder stored, ui.listedRows = some (folder, stored) → ui.pendingChange = false →
    ui.Settled stored

/-- The reader stays as it is, but for its envelope. -/
structure SameReader (ui ui' : MailUi) : Prop where
  /-- The message. -/
  openMessage : ui'.openMessage = ui.openMessage
  /-- The second after its opening. -/
  pendingRead : ui'.pendingRead = ui.pendingRead
  /-- The body. -/
  body : ui'.body = ui.body
  /-- Nothing happened. -/
  log : ui'.log = ui.log

/-- The reader is closed. -/
structure ClosedReader (ui ui' : MailUi) : Prop where
  /-- No message. -/
  openMessage : ui'.openMessage = none
  /-- No second runs. -/
  pendingRead : ui'.pendingRead = false
  /-- No envelope. -/
  envelope : ui'.envelope = none
  /-- No body. -/
  body : ui'.body = none
  /-- The closing. -/
  log : ui'.log = .closed :: ui.log

theorem closeReader_closed (ui : MailUi) : ui.ClosedReader ui.closeReader :=
  ⟨rfl, rfl, rfl, rfl, rfl⟩

/-- What the list is to show stays. -/
structure SameList (ui ui' : MailUi) : Prop where
  /-- The stored rows. -/
  listedRows : ui'.listedRows = ui.listedRows
  /-- The filter. -/
  unreadOnly : ui'.unreadOnly = ui.unreadOnly
  /-- The rows taken out. -/
  removedInWindow : ui'.removedInWindow = ui.removedInWindow

/-- A row of a settled list is a stored one that was not taken out. -/
theorem Settled.exists_row (h : ui.Settled stored) {item : ItemRef} (hitem : item ∈ ui.items) :
    ∃ row ∈ stored.rows, row.identity ∉ ui.removedInWindow ∧
      (ui.objects.object item).view = rowView row := by
  obtain ⟨openMessage, hshows⟩ : ∃ openMessage, Shows ui.objects ui.items
      (shownRows stored.rows ui.unreadOnly openMessage ui.removedInWindow) := by
    rcases h.rows with hshows | ⟨identity, -, -, hshows⟩
    · exact ⟨_, hshows⟩
    · exact ⟨_, hshows⟩
  obtain ⟨row, hrow, hview⟩ := hshows.exists_row hitem
  obtain ⟨hrows, hremoved, -⟩ := mem_shownRows.mp hrow
  exact ⟨row, hrows, hremoved, hview⟩

/-- What changing the list to the rows leaves. -/
structure Changed (ui : MailUi) (rows : List MessageListRow) (ui' : MailUi) : Prop where
  /-- What the list is to show stays. -/
  list : ui.SameList ui'
  /-- The reader stays. -/
  reader : ui.SameReader ui'
  /-- Its envelope too. -/
  envelope : ui'.envelope = ui.envelope
  /-- A change that waits still does. -/
  pendingChange : ui'.pendingChange = ui.pendingChange
  /-- The list holds objects that were made, and no message twice. -/
  holds : ui'.objects.Holds ui'.items
  /-- It shows the rows. -/
  shows : Shows ui'.objects ui'.items rows
  /-- They are open. -/
  opened : ui'.Opened

theorem changeList_changed {rows : List MessageListRow} (hitems : ui.objects.Holds ui.items)
    (hrows : Unique MessageListRow.identity rows) (change : ListChange) :
    ∃ ui', ui.changeList rows change = .ok ui' ∧ ui.Changed rows ui' := by
  obtain ⟨updated, hupdated, h⟩ := updateListByDifference_updates change hitems hrows
  have hshows : Shows updated.objects updated.items rows := by
    have hsame : Forall₂ Eq (updated.items.map fun item => (updated.objects.object item).view)
        (rows.map rowView) := by
      rw [forall₂_map_left_iff, forall₂_map_right_iff]
      exact h.views
    rwa [forall₂_eq_eq_eq] at hsame
  have hclosed : ∀ item ∈ updated.items, item ∈ updated.closed ∨
      (updated.objects.object item).shown = true := by
    intro item hitem
    by_cases hshown : (updated.objects.object item).shown = true
    · exact .inr hshown
    · rw [h.closed]
      exact .inl (mem_filter.mpr ⟨hitem, by simpa using hshown⟩)
  cases change with
  | atOnce =>
    have halike : (openRows 0 updated.objects updated.closed).Alike updated.objects :=
      openRows_alike 0 updated.closed
    refine ⟨{ ui with
      objects := openRows 0 updated.objects updated.closed, items := updated.items },
      by rw [changeList, hupdated]; rfl, ?_⟩
    exact
      { list := ⟨rfl, rfl, rfl⟩
        reader := ⟨rfl, rfl, rfl, rfl⟩
        envelope := rfl
        pendingChange := rfl
        holds := halike.holds h.holds
        shows := (halike.views_eq updated.items).trans hshows
        opened := fun item hitem => .inl (openRows_shown 0 (hclosed item hitem)) }
  | animated =>
    by_cases hnone : updated.closed = []
    · refine ⟨{ ui with objects := updated.objects, items := updated.items }, ?_, ?_⟩
      · rw [changeList, hupdated]
        exact congrArg Except.ok (if_pos hnone)
      · refine ⟨⟨rfl, rfl, rfl⟩, ⟨rfl, rfl, rfl, rfl⟩, rfl, rfl, h.holds, hshows,
          fun item hitem => ?_⟩
        exact .inl ((hclosed item hitem).resolve_left fun hmem => not_mem_nil (hnone ▸ hmem))
    · refine ⟨{ ui with
        objects := updated.objects
        items := updated.items
        openings := ui.openings ++ [(0, updated.closed)] }, ?_, ?_⟩
      · rw [changeList, hupdated]
        exact congrArg Except.ok (if_neg hnone)
      · refine ⟨⟨rfl, rfl, rfl⟩, ⟨rfl, rfl, rfl, rfl⟩, rfl, rfl, h.holds, hshows,
          fun item hitem => ?_⟩
        refine (hclosed item hitem).symm.imp_right fun hmem => ?_
        exact ⟨_, mem_append_right _ (mem_singleton_self _), hmem⟩

/-- The position of a listed message is that of its row object. -/
theorem positionOf_of_mem {identity : String} {item : ItemRef} (hitem : item ∈ items)
    (hid : objects.identity item = identity) :
    ∃ position item', positionOf objects items identity = some position ∧
      items[position]? = some item' ∧ item' ∈ items ∧
      objects.identity item' = identity := by
  have hsome : (positionOf objects items identity).isSome := by
    rw [positionOf, List.findIdx?_isSome, any_eq_true]
    exact ⟨item, hitem, decide_eq_true hid⟩
  obtain ⟨position, hposition⟩ := Option.isSome_iff_exists.mp hsome
  obtain ⟨hlt, hfound, -⟩ := List.findIdx?_eq_some_iff_getElem.mp hposition
  exact ⟨position, items[position], hposition, List.getElem?_eq_getElem hlt, List.getElem_mem hlt,
    of_decide_eq_true hfound⟩

/-- What following the open message makes of the reader: it shows the message's row object while the
message is among the rows, and is closed when it is not. -/
inductive Followed (rows : List MessageListRow) (ui ui' : MailUi) : Prop where
  /-- No message is open. -/
  | none (hopen : ui.openMessage = none) (hsame : ui' = ui)
  /-- The open message is listed. -/
  | listed (identity : String) (item : ItemRef) (hopen : ui.openMessage = some identity)
      (hitem : item ∈ ui.items) (hid : ui.objects.identity item = identity)
      (hlisted : ∃ row ∈ rows, row.identity = identity) (hsame : ui' = ui.showEnvelope item)
  /-- It is not. -/
  | unlisted (identity : String) (hopen : ui.openMessage = some identity)
      (hunlisted : ∀ row ∈ rows, row.identity ≠ identity) (hsame : ui' = ui.closeReader)

theorem followOpenMessage_followed
    (hlisted : ∀ identity, ui.openMessage = some identity →
      (∃ row ∈ rows, row.identity = identity) → ∃ item ∈ ui.items, ui.objects.identity item =
        identity) : Followed rows ui (ui.followOpenMessage rows) := by
  cases hopen : ui.openMessage with
  | none => exact .none hopen (by rw [followOpenMessage, hopen])
  | some identity =>
    by_cases hrow : ∃ row ∈ rows, row.identity = identity
    · obtain ⟨item, hitem, hid⟩ := hlisted identity hopen hrow
      obtain ⟨position, item', hposition, hat, hmem, hid'⟩ := positionOf_of_mem hitem hid
      have hstill : (rows.any fun row => row.identity = identity) = true := by
        obtain ⟨row, hrow, hrowId⟩ := hrow
        exact any_eq_true.mpr ⟨row, hrow, decide_eq_true hrowId⟩
      refine .listed identity item' hopen hmem hid' hrow ?_
      simp only [followOpenMessage, hopen, hposition, hstill, Option.filter_some, if_true, hat]
    · have hstill : (rows.any fun row => row.identity = identity) = false := by
        rw [any_eq_false]
        exact fun row hrow' hrowId => hrow ⟨row, hrow', of_decide_eq_true hrowId⟩
      refine .unlisted identity hopen (fun row hrow' hrowId => hrow ⟨row, hrow', hrowId⟩) ?_
      have hnone : (positionOf ui.objects ui.items identity).filter (fun _ => false) = none := by
        cases positionOf ui.objects ui.items identity <;> rfl
      simp only [followOpenMessage, hopen, hstill, hnone]

theorem followOpenMessage_pendingChange (ui : MailUi) (rows : List MessageListRow) :
    (ui.followOpenMessage rows).pendingChange = ui.pendingChange := by
  rw [followOpenMessage]
  dsimp only
  split
  · rfl
  · split
    · split <;> rfl
    · rfl

/-- What making the list show its rows leaves. -/
structure Refreshed (ui : MailUi) (stored : StoredRows) (ui' : MailUi) : Prop where
  /-- The invariant. -/
  inv : ui'.Inv
  /-- What the list is to show stays. -/
  list : ui.SameList ui'
  /-- The reader stays or is closed. -/
  reader : ui.SameReader ui' ∨ ui.ClosedReader ui'
  /-- The closing changes none of the rows to show. -/
  rowsToShow : ui'.rowsToShow stored = ui.rowsToShow stored
  /-- A change that does not wait is made. -/
  shows : ui'.pendingChange = false → Shows ui'.objects ui'.items (ui'.rowsToShow stored)
  /-- While it waits, no row comes or goes. -/
  waits : ui'.pendingChange = true → ui'.items = ui.items ∧ ui'.objects.Alike ui.objects
  /-- Meanwhile every row that leaves is closed. -/
  leaving : ui'.pendingChange = true → ∀ item ∈ ui'.items,
    ¬Stays ui'.objects (ui'.rowsToShow stored) item → (ui'.objects.object item).shown = false

/-- The reader follows a list that shows the rows. -/
theorem refreshed_of_changed (hready : ui.Ready) {ui₁ : MailUi}
    (h : { ui with pendingChange := false : MailUi }.Changed (ui.rowsToShow stored) ui₁)
    (hstored : ui.listedRows = some (folder, stored)) :
    ui.Refreshed stored (ui₁.followOpenMessage (ui.rowsToShow stored)) := by
  have hpending : ui₁.pendingChange = false := h.pendingChange
  have hopenMessage : ui₁.openMessage = ui.openMessage := h.reader.openMessage
  have hrowsToShow : ui₁.rowsToShow stored = ui.rowsToShow stored := by
    rw [MailUi.rowsToShow, h.list.unreadOnly, hopenMessage, h.list.removedInWindow]
    rfl
  have hshows : Shows ui₁.objects ui₁.items (ui₁.rowsToShow stored) := hrowsToShow ▸ h.shows
  have hlistedRows : ui₁.listedRows = some (folder, stored) := h.list.listedRows.trans hstored
  have hnow : ∀ {P : Prop}, ui₁.pendingChange = true → P :=
    fun hwaits => absurd (hpending.symm.trans hwaits) Bool.false_ne_true
  have hfollowed : Followed (ui.rowsToShow stored) ui₁
      (ui₁.followOpenMessage (ui.rowsToShow stored)) := by
    refine followOpenMessage_followed fun identity hopen ⟨row, hrow, hid⟩ => ?_
    have hview : rowView row ∈ ui₁.items.map fun item => (ui₁.objects.object item).view :=
      h.shows ▸ mem_map_of_mem hrow
    obtain ⟨item, hitem, heq⟩ := mem_map.mp hview
    exact ⟨item, hitem, (congrArg ShownRow.identity heq).trans hid⟩
  generalize ui₁.followOpenMessage (ui.rowsToShow stored) = ui' at hfollowed
  have hclosed : ui₁.openMessage = none →
      ui₁.pendingRead = false ∧ ui₁.envelope = none ∧ ui₁.body = none := by
    rw [hopenMessage, h.reader.pendingRead, h.envelope, h.reader.body]
    exact hready.closed
  cases hfollowed with
  | none hopen hsame =>
    subst hsame
    refine
      { inv := ⟨⟨h.holds, fun identity hsome => ?_, hclosed⟩, fun hnone => ?_,
          fun folder' stored' hrows _ => ?_⟩
        list := ⟨h.list.1, h.list.2, h.list.3⟩
        reader := .inl ⟨h.reader.1, h.reader.2, h.reader.3, h.reader.4⟩
        rowsToShow := hrowsToShow
        shows := fun _ => hshows
        waits := hnow
        leaving := hnow }
    · cases hopen.symm.trans hsome
    · cases hlistedRows.symm.trans hnone
    · cases hlistedRows.symm.trans hrows
      exact ⟨.inl hshows, h.opened, fun identity hsome => (by cases hopen.symm.trans hsome)⟩
  | listed identity item hopen hitem hid hrow hsame =>
    subst hsame
    refine
      { inv := ⟨⟨h.holds, fun identity' hsome => ?_, fun hnone => ?_⟩, fun hnone => ?_,
          fun folder' stored' hrows _ => ⟨.inl ?_, h.opened, fun identity' hsome => ?_⟩⟩
        list := ⟨h.list.1, h.list.2, h.list.3⟩
        reader := .inl ⟨h.reader.1, h.reader.2, h.reader.3, h.reader.4⟩
        rowsToShow := hrowsToShow
        shows := fun _ => hshows
        waits := hnow
        leaving := hnow }
    · cases hopen.symm.trans hsome
      exact ⟨item, hitem, hid⟩
    · cases hopen.symm.trans hnone
    · cases hlistedRows.symm.trans hnone
    · cases hlistedRows.symm.trans hrows
      exact hshows
    · cases hlistedRows.symm.trans hrows
      cases hopen.symm.trans hsome
      obtain ⟨row, hmem, hview⟩ := h.shows.exists_row hitem
      have hrowId : row.identity = identity := (congrArg ShownRow.identity hview).symm.trans hid
      obtain ⟨hrows, hremoved, -⟩ := mem_shownRows.mp hmem
      refine ⟨row, hrows, hrowId, ?_, _, rfl, envelope_of_view hview⟩
      rw [← hrowId]
      exact h.list.removedInWindow.symm ▸ hremoved
  | unlisted identity hopen hunlisted hsame =>
    subst hsame
    have hopen' : ui.openMessage = some identity := hopenMessage.symm.trans hopen
    have hsameRows : ui₁.closeReader.rowsToShow stored = ui.rowsToShow stored := by
      have hclosedRows : shownRows stored.rows ui.unreadOnly none ui.removedInWindow =
          shownRows stored.rows ui.unreadOnly (some identity) ui.removedInWindow :=
        shownRows_closed (by rw [← hopen']; exact hunlisted)
      have hfilter : ui₁.unreadOnly = ui.unreadOnly := h.list.unreadOnly
      have hremoved : ui₁.removedInWindow = ui.removedInWindow := h.list.removedInWindow
      rw [MailUi.rowsToShow, MailUi.rowsToShow, hopen', ← hclosedRows, ← hfilter, ← hremoved]
      rfl
    have hshowsClosed : Shows ui₁.objects ui₁.items (ui₁.closeReader.rowsToShow stored) :=
      hsameRows ▸ h.shows
    refine
      { inv := ⟨⟨h.holds, fun identity' hsome => (by cases hsome), fun _ => ⟨rfl, rfl, rfl⟩⟩,
          fun hnone => ?_, fun folder' stored' hrows _ =>
            ⟨.inl ?_, h.opened, fun identity' hsome => (by cases hsome)⟩⟩
        list := ⟨h.list.1, h.list.2, h.list.3⟩
        reader := .inr ⟨rfl, rfl, rfl, rfl, congrArg (MailEvent.closed :: ·) h.reader.log⟩
        rowsToShow := hsameRows
        shows := fun _ => hshowsClosed
        waits := hnow
        leaving := hnow }
    · cases hlistedRows.symm.trans hnone
    · cases hlistedRows.symm.trans hrows
      exact hshowsClosed

/-- The reader follows a list whose change waits until the rows that leave are closed. -/
theorem refreshed_of_leaving (hready : ui.Ready) {closing : Objects}
    (halike : closing.Alike ui.objects) (hstored : ui.listedRows = some (folder, stored))
    (hleaving : ∀ item ∈ ui.items, ¬Stays closing (ui.rowsToShow stored) item →
      (closing.object item).shown = false) :
    ui.Refreshed stored ({ ui with
      objects := closing, pendingChange := true }.followOpenMessage (ui.rowsToShow stored)) := by
  have hholds : closing.Holds ui.items := halike.holds hready.holds
  have hlisted : ∀ identity, ui.openMessage = some identity →
      ∃ item ∈ ui.items, closing.identity item = identity := by
    intro identity hopen
    obtain ⟨item, hitem, hid⟩ := hready.listed identity hopen
    exact ⟨item, hitem, (halike.identity_eq item).trans hid⟩
  have hfollowed : Followed (ui.rowsToShow stored)
      { ui with objects := closing, pendingChange := true }
      ({ ui with objects := closing, pendingChange := true }.followOpenMessage
        (ui.rowsToShow stored)) :=
    followOpenMessage_followed fun identity hopen _ => hlisted identity hopen
  generalize MailUi.followOpenMessage _ (ui.rowsToShow stored) = ui' at hfollowed
  cases hfollowed with
  | none hopen hsame =>
    subst hsame
    refine
      { inv := ⟨⟨hholds, hlisted, hready.closed⟩, fun hnone => ?_, fun _ _ _ h => (by cases h)⟩
        list := ⟨rfl, rfl, rfl⟩
        reader := .inl ⟨rfl, rfl, rfl, rfl⟩
        rowsToShow := rfl
        shows := fun h => (by cases h)
        waits := fun _ => ⟨rfl, halike⟩
        leaving := fun _ => hleaving }
    cases hstored.symm.trans hnone
  | listed identity item hopen hitem hid hrow hsame =>
    subst hsame
    refine
      { inv := ⟨⟨hholds, hlisted, fun hnone => ?_⟩, fun hnone => ?_,
          fun _ _ _ h => (by cases h)⟩
        list := ⟨rfl, rfl, rfl⟩
        reader := .inl ⟨rfl, rfl, rfl, rfl⟩
        rowsToShow := rfl
        shows := fun h => (by cases h)
        waits := fun _ => ⟨rfl, halike⟩
        leaving := fun _ => hleaving }
    · cases hopen.symm.trans hnone
    · cases hstored.symm.trans hnone
  | unlisted identity hopen hunlisted hsame =>
    subst hsame
    have hopen' : ui.openMessage = some identity := hopen
    have hsameRows : shownRows stored.rows ui.unreadOnly none ui.removedInWindow =
        ui.rowsToShow stored := by
      have hclosedRows : shownRows stored.rows ui.unreadOnly none ui.removedInWindow =
          shownRows stored.rows ui.unreadOnly (some identity) ui.removedInWindow :=
        shownRows_closed (by rw [← hopen']; exact hunlisted)
      rw [hclosedRows, ← hopen']
      rfl
    refine
      { inv := ⟨⟨hholds, fun identity' hsome => (by cases hsome), fun _ => ⟨rfl, rfl, rfl⟩⟩,
          fun hnone => ?_, fun _ _ _ h => (by cases h)⟩
        list := ⟨rfl, rfl, rfl⟩
        reader := .inr ⟨rfl, rfl, rfl, rfl, rfl⟩
        rowsToShow := hsameRows
        shows := fun h => (by cases h)
        waits := fun _ => ⟨rfl, halike⟩
        leaving := fun _ item hitem hstays => ?_ }
    · cases hstored.symm.trans hnone
    · exact hleaving item hitem fun h => hstays (by
        rw [MailUi.rowsToShow]
        exact hsameRows.symm ▸ h)

theorem changeList_refreshed (hready : ui.Ready) (hstored : ui.listedRows = some (folder, stored))
    (change : ListChange) :
    ∃ ui', (do
        let ui₁ ← { ui with pendingChange := false }.changeList (ui.rowsToShow stored) change
        return ui₁.followOpenMessage (ui.rowsToShow stored)) = .ok ui' ∧
      ui.Refreshed stored ui' ∧ ui'.pendingChange = false := by
  have hunique : Unique MessageListRow.identity (ui.rowsToShow stored) :=
    shownRows_unique stored.unique
  have hholds : { ui with pendingChange := false : MailUi }.objects.Holds
      { ui with pendingChange := false : MailUi }.items := hready.holds
  obtain ⟨ui₁, hok, hchanged⟩ := changeList_changed hholds hunique change
  refine ⟨_, by rw [hok]; rfl, refreshed_of_changed hready hchanged hstored, ?_⟩
  exact (followOpenMessage_pendingChange ui₁ _).trans hchanged.pendingChange

/-- Without stored rows there is nothing to show. -/
theorem updateShown_none (hnone : ui.listedRows = none) (change : ListChange) (animates : Bool) :
    ui.updateShown change animates = .ok ui := by
  rw [MailUi.updateShown]
  split
  · rfl
  · rename_i hsome
    cases hnone.symm.trans hsome

theorem updateShown_eq (hstored : ui.listedRows = some (folder, stored)) (change : ListChange)
    (animates : Bool) :
    ui.updateShown change animates =
      match if animates then change else .atOnce with
      | .atOnce => do
        let ui₁ ← { ui with pendingChange := false }.changeList (ui.rowsToShow stored) .atOnce
        return ui₁.followOpenMessage (ui.rowsToShow stored)
      | .animated => do
        let closing := closeLeavingRows ui.objects (ui.rowsToShow stored) ui.items
        let ui₁ := { ui with objects := closing.1, pendingChange := ui.pendingChange || closing.2 }
        let ui₂ ← if ui₁.pendingChange then pure ui₁
          else ui₁.changeList (ui.rowsToShow stored) .animated
        return ui₂.followOpenMessage (ui.rowsToShow stored) := by
  rw [MailUi.updateShown]
  split
  · rename_i hnone
    cases hstored.symm.trans hnone
  · rename_i hsome
    cases hstored.symm.trans hsome
    dsimp only
    generalize (if animates then change else ListChange.atOnce) = change'
    cases change' <;> rfl

/-- **Making the list show its rows** ends without a fault. At once, or with no row left to close,
the change does not wait. -/
theorem updateShown_refreshed (hready : ui.Ready) (hstored : ui.listedRows = some (folder, stored))
    (change : ListChange) (animates : Bool) :
    ∃ ui', ui.updateShown change animates = .ok ui' ∧ ui.Refreshed stored ui' ∧
      (change = .atOnce ∨ animates = false → ui'.pendingChange = false) ∧
      (ui.pendingChange = false →
        (∀ item ∈ ui.items, ¬Stays ui.objects (ui.rowsToShow stored) item →
        (ui.objects.object item).shown = false) → ui'.pendingChange = false) := by
  by_cases hatOnce : (if animates then change else .atOnce) = ListChange.atOnce
  · obtain ⟨ui', hok, hrefreshed, hpending⟩ := changeList_refreshed hready hstored .atOnce
    refine ⟨ui', ?_, hrefreshed, fun _ => hpending, fun _ _ => hpending⟩
    rw [updateShown_eq hstored]
    simp only [hatOnce]
    exact hok
  · have hanimated : (if animates then change else .atOnce) = ListChange.animated := by
      cases hchange : (if animates then change else .atOnce) with
      | atOnce => exact absurd hchange hatOnce
      | animated => rfl
    have hneither : ¬(change = .atOnce ∨ animates = false) := by
      rintro (rfl | rfl)
      · simp at hatOnce
      · exact hatOnce rfl
    have halike : (closeLeavingRows ui.objects (ui.rowsToShow stored) ui.items).1.Alike
        ui.objects := closeLeavingRows_alike _ _
    by_cases hwaits : (ui.pendingChange ||
      (closeLeavingRows ui.objects (ui.rowsToShow stored) ui.items).2) = true
    · refine ⟨_, ?_, refreshed_of_leaving hready halike hstored fun item hitem hstays => ?_,
        fun h => absurd h hneither,
        fun hnow hclosed => ?_⟩
      · rw [updateShown_eq hstored]
        simp only [hanimated, hwaits, if_true]
        rfl
      · exact closeLeavingRows_leaving hitem fun h => hstays ((halike.stays_iff item).mpr h)
      · rw [closeLeavingRows_none hclosed, hnow] at hwaits
        cases hwaits
    · rw [Bool.not_eq_true] at hwaits
      have hready' : { ui with
          objects := (closeLeavingRows ui.objects (ui.rowsToShow stored) ui.items).1 :
              MailUi }.Ready := by
        refine ⟨halike.holds hready.holds, fun identity hopen => ?_, hready.closed⟩
        obtain ⟨item, hitem, hid⟩ := hready.listed identity hopen
        exact ⟨item, hitem, (halike.identity_eq item).trans hid⟩
      obtain ⟨ui', hok, hrefreshed, hpending⟩ := changeList_refreshed hready' hstored .animated
      refine ⟨ui', ?_,
        { inv := hrefreshed.inv
          list := ⟨hrefreshed.list.1, hrefreshed.list.2, hrefreshed.list.3⟩
          reader := ?_
          rowsToShow := hrefreshed.rowsToShow
          shows := hrefreshed.shows
          waits := fun h => absurd (hpending.symm.trans h) Bool.false_ne_true
          leaving := hrefreshed.leaving }, fun _ => hpending, fun _ _ => hpending⟩
      · rw [updateShown_eq hstored]
        simp only [hanimated, hwaits, Bool.false_eq_true, if_false]
        exact hok
      · rcases hrefreshed.reader with h | h
        · exact .inl ⟨h.1, h.2, h.3, h.4⟩
        · exact .inr ⟨h.1, h.2, h.3, h.4, h.5⟩

theorem Ready.clear (h : ui.Ready) : ui.clear.Ready := by
  rw [MailUi.clear]
  split
  · exact h
  · exact ⟨⟨fun item hitem => absurd hitem not_mem_nil, nodup_nil⟩, fun _ h => (by cases h),
      fun _ => ⟨rfl, rfl, rfl⟩⟩

theorem Ready.closeReader (h : ui.Ready) : ui.closeReader.Ready :=
  ⟨h.holds, fun _ hopen => (by cases hopen), fun _ => ⟨rfl, rfl, rfl⟩⟩

/-- Opening a row does nothing, or opens the message of a row that is not closed. -/
theorem openAt_cases (ui : MailUi) (position : ℕ) :
    ui.openAt position = ui ∨ ∃ item folder stored, item ∈ ui.items ∧
    ui.listedRows = some (folder, stored) ∧
      (ui.objects.object item).shown = true ∧ ui.openAt position =
        { ui with
          openMessage := some (ui.objects.identity item)
          pendingRead := true
          envelope := some ⟨(ui.objects.object item).listed, (ui.objects.object item).starred⟩
          body := none
          log := .contentRequested folder.account (ui.objects.identity item) :: .opened
            (ui.objects.identity item) :: ui.log } := by
  rw [openAt]
  split
  · rename_i item folder stored hitem hstored
    split
    · rename_i hshown
      exact .inr ⟨item, folder, stored, mem_of_getElem? hitem, hstored, hshown, rfl⟩
    · exact .inl rfl
  · exact .inl rfl

theorem Ready.openAt (h : ui.Ready) (position : ℕ) : (ui.openAt position).Ready := by
  rcases openAt_cases ui position with heq | ⟨item, folder, stored, hitem, -, -, heq⟩
  · rw [heq]
    exact h
  · rw [heq]
    refine ⟨h.holds, fun identity hopen => ?_, fun hopen => (by cases hopen)⟩
    cases hopen
    exact ⟨item, hitem, rfl⟩

theorem openAt_list (ui : MailUi) (position : ℕ) : ui.SameList (ui.openAt position) := by
  rcases openAt_cases ui position with heq | ⟨item, folder, stored, -, -, -, heq⟩ <;> rw [heq] <;>
    exact ⟨rfl, rfl, rfl⟩

/-- Without the filter the list stays as it is when another message opens. -/
theorem Inv.openAt (h : ui.Inv) (hfilter : ui.unreadOnly = false) (position : ℕ) :
    (ui.openAt position).Inv := by
  refine ⟨h.toReady.openAt position, ?_, ?_⟩ <;>
    rcases openAt_cases ui position with heq | ⟨item, folder, stored, hitem, hstored, -, heq⟩ <;>
    rw [heq]
  · exact h.empty
  · exact fun hnone => (by cases hstored.symm.trans hnone)
  · exact h.settled
  · intro folder' stored' hstored' hpending
    have hsettled := h.settled folder' stored' hstored' hpending
    obtain ⟨row, hrows, hremoved, hview⟩ := hsettled.exists_row hitem
    have hid : ui.objects.identity item = row.identity := congrArg ShownRow.identity hview
    refine ⟨.inl ?_, hsettled.opened, fun identity hopen => ?_⟩
    · -- every message is shown, whichever is open
      have hshows : ∀ openMessage, Shows ui.objects ui.items
          (shownRows stored'.rows ui.unreadOnly openMessage ui.removedInWindow) →
          Shows ui.objects ui.items (shownRows stored'.rows ui.unreadOnly
            (some (ui.objects.identity item)) ui.removedInWindow) := by
        intro openMessage hshows
        rw [hfilter] at hshows ⊢
        exact shownRows_everything openMessage ▸ hshows
      rcases hsettled.rows with hshown | ⟨identity, -, -, hshown⟩
      · exact hshows _ hshown
      · exact hshows _ hshown
    · cases hopen
      exact ⟨row, hrows, hid.symm, hid ▸ hremoved, _, rfl, envelope_of_view hview⟩

/-- A frame opens rows, and changes nothing else the invariant says. -/
theorem Inv.frame (h : ui.Inv) : ui.frame.Inv := by
  have halike : ui.frame.objects.Alike ui.objects := openRows_frames_alike _
  refine ⟨⟨halike.holds h.holds, fun identity hopen => ?_, h.closed⟩, h.empty,
    fun folder stored hstored hpending => ?_⟩
  · obtain ⟨item, hitem, hid⟩ := h.listed identity hopen
    exact ⟨item, hitem, (halike.identity_eq item).trans hid⟩
  · obtain ⟨hrows, hopened, hreader⟩ := h.settled folder stored hstored hpending
    have hshows : ∀ {rows : List MessageListRow}, Shows ui.objects ui.items rows →
        Shows ui.frame.objects ui.items rows := (halike.views_eq ui.items).trans
    refine ⟨hrows.imp hshows ?_, fun item hitem => ?_, hreader⟩
    · rintro ⟨identity, hgone, hopen, hshown⟩
      exact ⟨identity, hgone, hopen, hshows hshown⟩
    · rcases hopened item hitem with hshown | ⟨opening, hopening, hmem⟩
      · exact .inl (openRows_frames_shown (.inr hshown))
      · have hdrawn : (opening.1 + 1, opening.2) ∈
            ui.openings.map fun opening => (opening.1 + 1, opening.2) :=
          mem_map_of_mem hopening
        by_cases hsecond : 2 ≤ opening.1 + 1
        · refine .inl (openRows_frames_shown (.inl ⟨_, mem_filter.mpr ⟨hdrawn, ?_⟩, hmem⟩))
          exact decide_eq_true hsecond
        · refine .inr ⟨_, mem_filter.mpr ⟨hdrawn, ?_⟩, hmem⟩
          exact decide_eq_true (Nat.lt_of_not_le hsecond)

/-- An answer that the store no longer holds the open message closes the reader, and leaves its
row. -/
theorem Inv.closeGone (h : ui.Inv) {account : AccountId} {identity : String}
    (hopen : ui.openMessage = some identity)
    (hopened : (sinceOpened ui.log).map Prod.fst = some identity) :
    { ui with log := .contentAnswered account identity (.ok none) :: ui.log }.closeReader.Inv := by
  refine ⟨Ready.closeReader ⟨h.holds, h.listed, h.closed⟩, h.empty,
    fun folder stored hstored hpending => ?_⟩
  obtain ⟨hrows, hall, -⟩ := h.settled folder stored hstored hpending
  refine ⟨.inr ⟨identity, ⟨[], account, ui.log, rfl, forall_mem_nil _, hopened⟩, rfl, ?_⟩, hall,
    fun identity hsome => (by cases hsome)⟩
  rcases hrows with hshows | ⟨_, -, hnone, -⟩
  · rw [MailUi.rowsToShow, hopen] at hshows
    exact hshows
  · cases hopen.symm.trans hnone

/-- What is only told changes nothing the invariant says. -/
theorem Inv.tell (h : ui.Inv) {event : MailEvent} (hkeeps : event.KeepsMessage) :
    { ui with log := event :: ui.log : MailUi }.Inv :=
  ⟨⟨h.holds, h.listed, h.closed⟩, h.empty, fun folder stored hstored hpending => by
    obtain ⟨hrows, hopened, hreader⟩ := h.settled folder stored hstored hpending
    refine ⟨hrows.imp_right ?_, hopened, hreader⟩
    rintro ⟨identity, hgone, hrest⟩
    exact ⟨identity, hgone.cons hkeeps, hrest⟩⟩

/-- The second after the opening ends. -/
theorem Inv.endSecond (h : ui.Inv) : { ui with pendingRead := false : MailUi }.Inv :=
  ⟨⟨h.holds, h.listed, fun hopen => ⟨rfl, (h.closed hopen).2⟩⟩, h.empty,
    fun folder stored hstored hpending => by
      obtain ⟨hrows, hopened, hreader⟩ := h.settled folder stored hstored hpending
      exact ⟨hrows, hopened, hreader⟩⟩

/-- The open message's body is shown. -/
theorem Inv.showBody (h : ui.Inv) (hopen : ui.openMessage ≠ none)
    (body : Option (Except Failure ReceivedContent)) : { ui with body := body : MailUi }.Inv :=
  ⟨⟨h.holds, h.listed, fun hnone => absurd hnone hopen⟩, h.empty,
    fun folder stored hstored hpending => by
      obtain ⟨hrows, hopened, hreader⟩ := h.settled folder stored hstored hpending
      exact ⟨hrows, hopened, hreader⟩⟩

end MailUi

end Mailbag.Window
