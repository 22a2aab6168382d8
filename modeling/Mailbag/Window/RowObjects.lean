import Mailbag.Window.ListDifference
import Mailbag.Window.MailUiLog

/-!
# Row objects that open and close, and the rows to show

The rows that leave the list are closed before they are taken out of it, when the change is
animated. Which rows the list shows of those stored follows from its filter, the rows taken out
and the message that the reader shows.

## What is proved

* `closeLeavingRows_leaving` — of the rows that leave none stays open.
-/

namespace Mailbag.Window

open Collections List

variable {objects later : Objects} {items : List ItemRef} {rows : List MessageListRow}

/-! ### Row objects that open and close -/

/-- The objects differ only in whether their rows are open, and in how long that takes. -/
structure Objects.Alike (later earlier : Objects) : Prop where
  /-- No object is made. -/
  next_eq : later.next = earlier.next
  /-- The stored rows stay. -/
  listed_eq : ∀ item, (later.object item).listed = (earlier.object item).listed
  /-- The rows show the same. -/
  view_eq : ∀ item, (later.object item).view = (earlier.object item).view

theorem Objects.Alike.refl : objects.Alike objects := ⟨rfl, fun _ => rfl, fun _ => rfl⟩

theorem Objects.Alike.trans {latest : Objects} (h : latest.Alike later)
    (h' : later.Alike objects) : latest.Alike objects where
  next_eq := h.next_eq.trans h'.next_eq
  listed_eq item := (h.listed_eq item).trans (h'.listed_eq item)
  view_eq item := (h.view_eq item).trans (h'.view_eq item)

theorem Objects.Alike.identity_eq (h : later.Alike objects) (item : ItemRef) :
    later.identity item = objects.identity item :=
  congrArg MessageListRow.identity (h.listed_eq item)

theorem Objects.Alike.holds (h : later.Alike objects) (hitems : objects.Holds items) :
    later.Holds items where
  made item hitem := by
    rw [h.next_eq]
    exact hitems.made item hitem
  unique := by
    have hidentity : later.identity = objects.identity := funext h.identity_eq
    rw [hidentity]
    exact hitems.unique

theorem Objects.Alike.views_eq (h : later.Alike objects) (items : List ItemRef) :
    (items.map fun item => (later.object item).view) = items.map fun item =>
      (objects.object item).view :=
  map_congr_left fun item _ => h.view_eq item

theorem showOver_alike (item : ItemRef) (shown : Bool) (transitionMs : UInt32) :
    (objects.change item (·.showOver shown transitionMs)).Alike objects where
  next_eq := rfl
  listed_eq other := by
    by_cases h : other = item
    · rw [h, change_object_self]
      rfl
    · rw [change_object_of_ne h]
  view_eq other := by
    by_cases h : other = item
    · rw [h, change_object_self]
      rfl
    · rw [change_object_of_ne h]

theorem openRows_alike (transitionMs : UInt32) (items : List ItemRef) :
    (openRows transitionMs objects items).Alike objects := by
  induction items generalizing objects with
  | nil => exact .refl
  | cons item items ih => exact ih.trans (showOver_alike item true transitionMs)

/-- A row that is to open, or is open, is open then. -/
theorem openRows_shown (transitionMs : UInt32) {item : ItemRef} {items : List ItemRef}
    (h : item ∈ items ∨ (objects.object item).shown = true) :
    ((openRows transitionMs objects items).object item).shown = true := by
  induction items generalizing objects with
  | nil => exact h.resolve_left not_mem_nil
  | cons other items ih =>
    refine ih ?_
    by_cases hother : item = other
    · rw [hother, change_object_self]
      exact .inr rfl
    · rw [change_object_of_ne hother]
      exact h.imp_left fun hmem => (mem_cons.mp hmem).resolve_left hother

theorem openRows_frames_shown {item : ItemRef} {openings : List (ℕ × List ItemRef)}
    (h : (∃ opening ∈ openings, item ∈ opening.2) ∨ (objects.object item).shown = true) :
    ((openings.foldl (fun objects opening => openRows rowTransitionMs objects opening.2)
      objects).object item).shown = true := by
  induction openings generalizing objects with
  | nil => exact h.resolve_left fun ⟨_, hmem, _⟩ => not_mem_nil hmem
  | cons opening openings ih =>
    refine ih ?_
    rcases h with ⟨opening', hmem, hitem⟩ | hshown
    · rcases mem_cons.mp hmem with rfl | hrest
      · exact .inr (openRows_shown rowTransitionMs (.inl hitem))
      · exact .inl ⟨opening', hrest, hitem⟩
    · exact .inr (openRows_shown rowTransitionMs (.inr hshown))

theorem openRows_frames_alike (openings : List (ℕ × List ItemRef)) :
    (openings.foldl (fun objects opening => openRows rowTransitionMs objects opening.2)
      objects).Alike objects := by
  induction openings generalizing objects with
  | nil => exact .refl
  | cons opening openings ih => exact ih.trans (openRows_alike rowTransitionMs opening.2)

/-- The item's message is listed as the item has it. -/
def Stays (objects : Objects) (rows : List MessageListRow) (item : ItemRef) : Prop :=
  (latest (objects.object item).listed.identity
    (collect (rows.map fun row => (row.identity, row)))).any
    (objects.object item).listsSameMessage

theorem closeLeavingRows_alike (rows : List MessageListRow) (items : List ItemRef) :
    (closeLeavingRows objects rows items).1.Alike objects := by
  induction items generalizing objects with
  | nil => exact .refl
  | cons item items ih =>
    rw [closeLeavingRows]
    split
    · exact ih.trans (showOver_alike item false rowTransitionMs)
    · exact ih

theorem Objects.Alike.stays_iff (h : later.Alike objects) (item : ItemRef) :
    Stays later rows item ↔ Stays objects rows item := by
  have hlists : (later.object item).listsSameMessage = (objects.object item).listsSameMessage := by
    funext row
    rw [MessageItem.listsSameMessage, MessageItem.listsSameMessage, h.listed_eq]
  rw [Stays, Stays, h.listed_eq, hlists]

theorem closeLeavingRows_closed {item : ItemRef} (hclosed : (objects.object item).shown = false)
    (items : List ItemRef) :
    ((closeLeavingRows objects rows items).1.object item).shown = false := by
  induction items generalizing objects with
  | nil => exact hclosed
  | cons other items ih =>
    rw [closeLeavingRows]
    split
    · refine ih ?_
      by_cases h : item = other
      · rw [h, change_object_self]
        rfl
      · rw [change_object_of_ne h]
        exact hclosed
    · exact ih hclosed

/-- It leaves the rows that leave closed. -/
theorem closeLeavingRows_leaving {item : ItemRef} (hitem : item ∈ items)
    (hleaves : ¬Stays objects rows item) :
    ((closeLeavingRows objects rows items).1.object item).shown = false := by
  induction items generalizing objects with
  | nil => exact absurd hitem not_mem_nil
  | cons other items ih =>
    rw [closeLeavingRows]
    split
    · rename_i hstarts
      rcases mem_cons.mp hitem with rfl | hrest
      · refine closeLeavingRows_closed ?_ items
        rw [change_object_self]
        rfl
      · exact ih hrest fun hstays =>
          hleaves (((showOver_alike other false rowTransitionMs).stays_iff item).mp hstays)
    · rename_i hstarts
      rcases mem_cons.mp hitem with rfl | hrest
      · refine closeLeavingRows_closed ?_ items
        rw [Stays, Bool.not_eq_true] at hleaves
        simpa [hleaves] using hstarts
      · exact ih hrest hleaves

/-- When every row that leaves is closed, none starts to close. -/
theorem closeLeavingRows_none
    (hclosed : ∀ item ∈ items, ¬Stays objects rows item → (objects.object item).shown = false) :
    closeLeavingRows objects rows items = (objects, false) := by
  induction items with
  | nil => rfl
  | cons item items ih =>
    have hfirst := hclosed item mem_cons_self
    rw [closeLeavingRows, if_neg, ih fun other hother => hclosed other (mem_cons_of_mem _ hother)]
    rw [Stays, Bool.not_eq_true] at hfirst
    intro hstarts
    rw [Bool.and_eq_true, Bool.not_eq_true'] at hstarts
    exact Bool.false_ne_true ((hfirst hstarts.1).symm.trans hstarts.2)

/-! ### The rows to show -/

section ShownRows

variable {unreadOnly : Bool} {openMessage : Option String} {removed : List String}

theorem mem_shownRows {row : MessageListRow} :
    row ∈ shownRows rows unreadOnly openMessage removed ↔
      row ∈ rows ∧ row.identity ∉ removed ∧
      (unreadOnly = false ∨ row.seen = false ∨ openMessage = some row.identity) := by
  simp only [shownRows, mem_filter, decide_eq_true_eq, Bool.or_eq_true, Bool.not_eq_true',
    and_assoc, or_assoc]

theorem shownRows_unique (h : Unique MessageListRow.identity rows) :
    Unique MessageListRow.identity (shownRows rows unreadOnly openMessage removed) :=
  (h.filter _).filter _

/-- Without the filter the open message changes nothing. -/
theorem shownRows_everything (openMessage' : Option String) :
    shownRows rows false openMessage removed = shownRows rows false openMessage' removed := by
  simp [shownRows]

/-- A message that is not among the rows shows no row for being open. -/
theorem shownRows_closed {identity : String}
    (hunlisted : ∀ row ∈ shownRows rows unreadOnly (some identity) removed, row.identity ≠
      identity) :
    shownRows rows unreadOnly none removed = shownRows rows unreadOnly (some identity) removed := by
  refine filter_congr fun row hrow => ?_
  by_cases hopen : row.identity = identity
  · have hnot := hunlisted row
    rw [mem_shownRows] at hnot
    obtain ⟨hmem, hremoved⟩ := mem_filter.mp hrow
    exact absurd hopen (hnot ⟨hmem, of_decide_eq_true hremoved, .inr (.inr (by rw [hopen]))⟩)
  · have hother : some identity ≠ some row.identity := fun h => hopen (Option.some.inj h).symm
    simp [hother]

end ShownRows

end Mailbag.Window
