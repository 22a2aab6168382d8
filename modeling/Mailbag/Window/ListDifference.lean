import Mailbag.Window.MessageItems

/-!
# The update by difference shows what a new list would

The beginning and the end on which the list and the rows agree are found one after the other,
the second within what the first leaves. The middle then takes the objects of its own
messages again, since no message is listed twice, and the read states and stars follow.

## What is proved

* `addedItems_added` — the middle's rows get the objects their messages had, or new ones.
* `followRows_follows` — every row then shows the row's read state and star, and the closed rows are
  returned.
* `updateListByDifference_rebuilds` — the list shows the new rows, and the messages that stay keep
  their objects.
-/

namespace Mailbag.Window

open Collections List

/-! ### What a row shows -/

/-- What a row of the list shows. -/
structure ShownRow where
  /-- The message. -/
  identity : String
  /-- The fields. -/
  fields : DisplayFields
  /-- The received date. -/
  receivedUnix : Option ℤ
  /-- The preview. -/
  preview : String
  /-- The unread dot. -/
  unread : Bool
  /-- The star. -/
  starred : Bool
  deriving DecidableEq

/-- What the row object shows. -/
def MessageItem.view (item : MessageItem) : ShownRow :=
  ⟨item.listed.identity, item.listed.fields, item.listed.receivedUnix, item.listed.preview,
    item.unread, item.starred⟩

/-- What the list should show of a stored row. -/
def rowView (row : MessageListRow) : ShownRow :=
  ⟨row.identity, row.fields, row.receivedUnix, row.preview, !row.seen, row.flagged⟩

/-- The row objects of a list made anew. -/
def rebuilt (rows : List MessageListRow) : List MessageItem := rows.map MessageItem.new

/-- What the list shows. -/
def Updated.view (updated : Updated) : List ShownRow :=
  updated.items.map fun item => (updated.objects.object item).view

theorem rebuilt_view (rows : List MessageListRow) :
    (rebuilt rows).map MessageItem.view = rows.map rowView := by
  simp [rebuilt, Function.comp_def, MessageItem.view, rowView, MessageItem.new]

/-- The message a listed object is of. -/
def Objects.identity (objects : Objects) (item : ItemRef) : String :=
  (objects.object item).listed.identity

/-- The object lists the row's message with the row's fields. -/
def Lists (objects : Objects) (item : ItemRef) (row : MessageListRow) : Prop :=
  (objects.object item).listsSameMessage row = true

/-- The list holds objects that were made, and no message twice. -/
structure Objects.Holds (objects : Objects) (items : List ItemRef) : Prop where
  /-- The objects were made. -/
  made : ∀ item ∈ items, item < objects.next
  /-- No message is listed twice. -/
  unique : Unique objects.identity items

section Lists

variable {objects : Objects} {item : ItemRef} {row : MessageListRow}

theorem Lists.identity_eq (h : Lists objects item row) : objects.identity item = row.identity := by
  simp only [Lists, MessageItem.listsSameMessage, Bool.and_eq_true, decide_eq_true_eq] at h
  exact h.1.1.1

/-- Only what the object was made from says whether it lists the row. -/
theorem Lists.of_listed {objects' : Objects} {item' : ItemRef} (h : Lists objects item row)
    (hlisted : (objects'.object item').listed = (objects.object item).listed) :
    Lists objects' item' row := by
  rw [Lists, MessageItem.listsSameMessage, hlisted]
  exact h

theorem Lists.view_eq (h : Lists objects item row)
    (hunread : (objects.object item).unread = !row.seen)
    (hstarred : (objects.object item).starred = row.flagged) :
    (objects.object item).view = rowView row := by
  simp only [Lists, MessageItem.listsSameMessage, Bool.and_eq_true, decide_eq_true_eq] at h
  obtain ⟨⟨⟨hidentity, hfields⟩, hreceived⟩, hpreview⟩ := h
  rw [MessageItem.view, rowView, hidentity, hfields, hreceived, hpreview, hunread, hstarred]

theorem identities_eq {items : List ItemRef} {rows : List MessageListRow}
    (h : Forall₂ (Lists objects) items rows) :
    items.map objects.identity = rows.map MessageListRow.identity := by
  induction h with
  | nil => rfl
  | cons hfirst _ ih => rw [List.map_cons, List.map_cons, hfirst.identity_eq, ih]

end Lists

/-! ### The common beginning and end -/

section Ends

variable {objects : Objects} {items : List ItemRef} {rows : List MessageListRow}

theorem itemAt_eq {position : ℕ} {item : ItemRef} (h : items[position]? = some item) :
    itemAt items position = .ok item := by
  rw [itemAt, h]

theorem rowAt_eq {position : ℕ} {row : MessageListRow} (h : rows[position]? = some row) :
    rowAt rows position = .ok row := by
  rw [rowAt, h]

/-- Inside both lists the comparison ends, and says whether they agree there. -/
theorem sameAt_of_lt {i j : ℕ} (hi : i < items.length) (hj : j < rows.length) :
    sameAt objects items rows i j = .ok ((objects.object items[i]).listsSameMessage rows[j]) := by
  rw [sameAt, itemAt_eq (List.getElem?_eq_getElem hi), rowAt_eq (List.getElem?_eq_getElem hj)]
  rfl

/-- Where the comparison finds the same message, the lists agree. -/
theorem agree_of_sameAt {i j : ℕ} (hi : i < items.length) (hj : j < rows.length)
    (h : sameAt objects items rows i j = .ok true) :
    ∃ item row, items[i]? = some item ∧ rows[j]? = some row ∧ Lists objects item row := by
  rw [sameAt_of_lt hi hj] at h
  exact ⟨items[i], rows[j], List.getElem?_eq_getElem hi, List.getElem?_eq_getElem hj,
    Except.ok.inj h⟩

theorem sameStart_counts (objects : Objects) (items : List ItemRef)
    (rows : List MessageListRow) : ∃ sameStart,
    countWhile (fun n => sameAt objects items rows n n) (min items.length rows.length) 0 =
      .ok sameStart ∧
    sameStart ≤ items.length ∧ sameStart ≤ rows.length ∧
    Forall₂ (Lists objects) (items.take sameStart) (rows.take sameStart) := by
  have hinside : ∀ n < min items.length rows.length,
      ∃ same, sameAt objects items rows n n = .ok same :=
    fun n hn => ⟨_, sameAt_of_lt (by omega) (by omega)⟩
  obtain ⟨sameStart, hcount, hle, hsame⟩ := countWhile_counts hinside
  refine ⟨sameStart, hcount, by omega, by omega, ?_⟩
  apply forall₂_take_of_agree
  intro i hi
  exact agree_of_sameAt (by omega) (by omega) (hsame i hi)

/-- The common end, within what a beginning of length `sameStart` leaves. -/
theorem sameEnd_counts (objects : Objects) (items : List ItemRef) (rows : List MessageListRow)
    (sameStart : ℕ) : ∃ sameEnd,
    countWhile (fun n => sameAt objects items rows (items.length - 1 - n) (rows.length - 1 - n))
      (min (items.length - sameStart) (rows.length - sameStart)) 0 = .ok sameEnd ∧
    sameEnd ≤ items.length - sameStart ∧ sameEnd ≤ rows.length - sameStart ∧
    Forall₂ (Lists objects) (items.drop (items.length - sameEnd))
    (rows.drop (rows.length - sameEnd)) := by
  have hinside : ∀ n < min (items.length - sameStart) (rows.length - sameStart),
      ∃ same, sameAt objects items rows (items.length - 1 - n) (rows.length - 1 - n) = .ok same :=
    fun n hn => ⟨_, sameAt_of_lt (by omega) (by omega)⟩
  obtain ⟨sameEnd, hcount, hle, hsame⟩ := countWhile_counts hinside
  refine ⟨sameEnd, hcount, by omega, by omega, forall₂_drop_of_agree (fun i hi => ?_) (by omega)
    (by omega)⟩
  exact agree_of_sameAt (by omega) (by omega) (hsame i hi)

/-- The items from a position on are read one after the other. -/
theorem mapM_itemAt {start count : ℕ} (h : start + count ≤ items.length) :
    (List.range' start count).mapM (itemAt items) = .ok ((items.drop start).take count) := by
  induction count generalizing start with
  | zero => rfl
  | succ count ih =>
    have hstart : start < items.length := by omega
    rw [List.range'_succ, List.mapM_cons, itemAt_eq (List.getElem?_eq_getElem hstart),
      ih (by omega), List.drop_eq_getElem_cons hstart, List.take_succ_cons]
    rfl

theorem rowsBetween_eq {start stop : ℕ} (hstart : start ≤ stop) (hstop : stop ≤ rows.length) :
    rowsBetween rows start stop = .ok ((rows.take stop).drop start) := if_pos ⟨hstart, hstop⟩

end Ends

/-! ### The objects of the middle -/

/-- The objects made before are as they were. -/
structure Objects.Extends (later earlier : Objects) : Prop where
  /-- Objects are only made. -/
  le : earlier.next ≤ later.next
  /-- Those made before stay. -/
  object_eq : ∀ item < earlier.next, later.object item = earlier.object item

section Added

variable {objects later latest' : Objects} {row : MessageListRow}

theorem Objects.Extends.refl : objects.Extends objects := ⟨Nat.le_refl _, fun _ _ => rfl⟩

theorem Objects.Extends.trans (h : latest'.Extends later) (h' : later.Extends objects) :
    latest'.Extends objects where
  le := Nat.le_trans h'.le h.le
  object_eq item hitem := by
    rw [h.object_eq item (Nat.lt_of_lt_of_le hitem h'.le), h'.object_eq item hitem]

theorem make_extends (item : MessageItem) : (objects.make item).1.Extends objects where
  le := Nat.le_succ _
  object_eq _ hother := Function.update_of_ne (Nat.ne_of_lt hother) _ _

theorem lists_newItem (change : ListChange) :
    Lists (objects.make (newItem change row)).1 objects.next row := by
  have hobject : (objects.make (newItem change row)).1.object objects.next = newItem change row :=
    Function.update_self _ _ _
  rw [Lists, hobject]
  cases change <;> simp [newItem, MessageItem.new, MessageItem.showOver,
    MessageItem.listsSameMessage]

/-- The item of a row: its message's object when that lists the row, else a new one; and in either
case one that lists the row. -/
structure AddedFor (removed : List (String × ItemRef)) (objects later : Objects) (item : ItemRef)
    (row : MessageListRow) : Prop where
  /-- The object was made. -/
  made : item < later.next
  /-- It lists the row. -/
  lists : Lists later item row
  /-- It is the object of the message, when that lists the row. -/
  kept : ∀ old, latest row.identity removed = some old → Lists objects old row → item = old

variable {removed : List (String × ItemRef)}

theorem AddedFor.extends {item : ItemRef} (h : AddedFor removed objects later item row)
    (hlater : latest'.Extends later) : AddedFor removed objects latest' item row where
  made := Nat.lt_of_lt_of_le h.made hlater.le
  lists := h.lists.of_listed (by rw [hlater.object_eq item h.made])
  kept := h.kept

theorem addedItem_added (row : MessageListRow) (change : ListChange)
    (hremoved : ∀ identity item, latest identity removed = some item → item < objects.next) :
    (addedItem change removed objects row).1.Extends objects ∧
      AddedFor removed objects (addedItem change removed objects row).1
      (addedItem change removed objects row).2 row := by
  have hnew (hold : ∀ old, latest row.identity removed = some old → ¬ Lists objects old row) :
      (objects.make (newItem change row)).1.Extends objects ∧
        AddedFor removed objects (objects.make (newItem change row)).1
          (objects.make (newItem change row)).2 row :=
    ⟨make_extends _, Nat.lt_succ_self _, lists_newItem change, fun old hlatest hlists =>
      absurd hlists (hold old hlatest)⟩
  rw [addedItem]
  cases hlatest : latest row.identity removed with
  | none =>
    apply hnew
    intro old hold
    rw [hlatest] at hold
    cases hold
  | some item =>
    by_cases hlists : (objects.object item).listsSameMessage row
    · simp only [hlists, if_true]
      refine ⟨.refl, hremoved _ _ hlatest, hlists, fun old hold _ => ?_⟩
      rw [hlatest] at hold
      exact Option.some.inj hold
    · simp only [hlists, if_false, Bool.false_eq_true]
      apply hnew
      intro old hold
      rw [hlatest] at hold
      cases hold
      exact hlists

/-- **The middle's items**: one for each of its rows, the message's own object where that lists the
row. -/
theorem addedItems_added (change : ListChange) (rows : List MessageListRow)
    (hremoved : ∀ identity item, latest identity removed = some item → item < objects.next) :
    (addedItems change removed objects rows).1.Extends objects ∧
      Forall₂ (AddedFor removed objects (addedItems change removed objects rows).1)
      (addedItems change removed objects rows).2 rows := by
  induction rows generalizing objects with
  | nil => exact ⟨.refl, .nil⟩
  | cons row rows ih =>
    obtain ⟨hextends, hfirst⟩ := addedItem_added row change hremoved
    obtain ⟨hlater, hrest⟩ := ih fun identity item h => Nat.lt_of_lt_of_le
      (hremoved identity item h) hextends.le
    refine ⟨hlater.trans hextends, .cons (hfirst.extends hlater)
      (hrest.imp fun item row' hadded => ?_)⟩
    refine ⟨hadded.made, hadded.lists, fun old hold hlists => hadded.kept old hold
      (hlists.of_listed ?_)⟩
    rw [hextends.object_eq old (hremoved _ _ hold)]

end Added

/-! ### The read states and stars -/

@[simp] theorem followRow_eq (row : MessageListRow) (item : MessageItem) :
    followRow row item = { item with unread := !row.seen, starred := row.flagged } := by
  obtain ⟨listed, unread, starred, shown, transitionMs⟩ := item
  cases hunread : unread <;> cases hseen : row.seen <;> cases hstarred : starred <;>
    cases hflagged : row.flagged <;>
    simp [followRow, hseen, hflagged]

/-- What following the rows leaves of the objects: the messages they list and whether they are
open. -/
structure Objects.Follows (later earlier : Objects) : Prop where
  /-- No object is made. -/
  next_eq : later.next = earlier.next
  /-- The stored rows stay. -/
  listed_eq : ∀ item, (later.object item).listed = (earlier.object item).listed
  /-- No row opens or closes. -/
  shown_eq : ∀ item, (later.object item).shown = (earlier.object item).shown

section Follow

variable {objects later : Objects}

theorem Objects.Follows.trans {latest : Objects} (h : latest.Follows later)
    (h' : later.Follows objects) : latest.Follows objects where
  next_eq := by rw [h.next_eq, h'.next_eq]
  listed_eq item := by rw [h.listed_eq, h'.listed_eq]
  shown_eq item := by rw [h.shown_eq, h'.shown_eq]

@[simp] theorem change_object_self (item : ItemRef) (f : MessageItem → MessageItem) :
    (objects.change item f).object item = f (objects.object item) := Function.update_self _ _ _

theorem change_object_of_ne {item other : ItemRef} (h : other ≠ item)
    (f : MessageItem → MessageItem) : (objects.change item f).object other = objects.object other :=
  Function.update_of_ne h _ _

theorem change_follows (item : ItemRef) (row : MessageListRow) :
    (objects.change item (followRow row)).Follows objects where
  next_eq := rfl
  listed_eq other := by
    by_cases h : other = item
    · rw [h, change_object_self, followRow_eq]
    · rw [change_object_of_ne h]
  shown_eq other := by
    by_cases h : other = item
    · rw [h, change_object_self, followRow_eq]
    · rw [change_object_of_ne h]

/-- **Every row follows**: it shows its row's read state and star, the other objects stay as they
were, and the closed rows are returned. -/
theorem followRows_follows (before : List ItemRef) {rest : List ItemRef}
    {rows : List MessageListRow} (h : Forall₂ (Lists objects) rest rows)
    (hnodup : rest.Nodup) :
    ∃ later, followRows (before ++ rest) objects before.length rows =
        .ok (later, rest.filter fun item => !(later.object item).shown) ∧
      later.Follows objects ∧ (∀ item, item ∉ rest → later.object item = objects.object item) ∧
      Forall₂ (fun item row => (later.object item).view = rowView row) rest rows := by
  induction rows generalizing objects before rest with
  | nil =>
    cases h
    exact ⟨objects, rfl, ⟨rfl, fun _ => rfl, fun _ => rfl⟩, fun _ _ => rfl, .nil⟩
  | cons row rows ih =>
    obtain ⟨item, rest, hfirst, hrest, rfl⟩ := List.forall₂_cons_right_iff.mp h
    obtain ⟨hitem, hnodup⟩ := List.nodup_cons.mp hnodup
    have hfollows : (objects.change item (followRow row)).Follows objects := change_follows item row
    have hrest' : Forall₂ (Lists (objects.change item (followRow row))) rest rows :=
      hrest.imp fun other _ hlists => hlists.of_listed (hfollows.listed_eq other)
    obtain ⟨later, hlater, hlaterFollows, hothers, hviews⟩ := ih (before ++ [item]) hrest' hnodup
    -- No later row refers to this object, so it keeps what this step set.
    have hsame : later.object item = (objects.change item (followRow row)).object item :=
      hothers item hitem
    refine ⟨later, ?_, hlaterFollows.trans hfollows, fun other hother => ?_, .cons ?_ hviews⟩
    · have hat : itemAt (before ++ item :: rest) before.length = .ok item := itemAt_eq (by simp)
      rw [List.append_assoc, List.length_append, List.singleton_append] at hlater
      have hrestRun : followRows (before ++ item :: rest) (objects.change item (followRow row))
        (before.length + 1) rows =
          .ok (later, rest.filter fun item => !(later.object item).shown) := hlater
      rw [followRows, hat]
      simp only [Bind.bind, Except.bind, hrestRun, pure, Except.pure, ← hsame]
      cases hshown : (later.object item).shown <;> simp [hshown]
    · rw [List.mem_cons, not_or] at hother
      rw [hothers other hother.2, change_object_of_ne hother.1]
    · have hlists : Lists later item row := hfirst.of_listed (by rw [hsame, hfollows.listed_eq])
      exact hlists.view_eq (by rw [hsame]; simp) (by rw [hsame]; simp)

end Follow

/-! ### The whole update -/

section Update

variable {objects : Objects} {items : List ItemRef} {rows : List MessageListRow}
  {start stop stop' : ℕ}

/-- Outside the common ends, a message listed with its row's fields is in the middle of the list. -/
theorem mem_middle (hrows : Unique MessageListRow.identity rows) (hstart : start ≤ stop)
    (hfront : Forall₂ (Lists objects) (items.take start) (rows.take start))
    (hback : Forall₂ (Lists objects) (items.drop stop) (rows.drop stop')) {item : ItemRef}
    {row : MessageListRow} (hitem : item ∈ items) (hrow : row ∈ (rows.take stop').drop start)
    (h : Lists objects item row) : item ∈ (items.take stop).drop start := by
  have hnodup : rows.Nodup := List.Nodup.of_map _ hrows
  -- A row that the item lists has the row's identity, so it is the row.
  have hsame (row' : MessageListRow) (hrow' : row' ∈ rows) (h' : Lists objects item row') :
      row' = row :=
    hrows.eq_of_key hrow' (List.mem_of_mem_take (List.mem_of_mem_drop hrow))
      (by rw [← h'.identity_eq, h.identity_eq])
  have hsplit : items = items.take start ++ (items.take stop).drop start ++ items.drop stop := by
    have htake : (items.take stop).take start = items.take start := by
      rw [List.take_take, Nat.min_eq_left hstart]
    rw [← htake, List.take_append_drop, List.take_append_drop]
  rw [hsplit, List.mem_append, List.mem_append] at hitem
  rcases hitem with (hitem | hitem) | hitem
  · obtain ⟨row', hrow', h'⟩ := exists_of_forall₂ hfront hitem
    rw [hsame row' (List.mem_of_mem_take hrow') h'] at hrow'
    rw [List.drop_take] at hrow
    exact absurd (List.mem_of_mem_take hrow) (List.disjoint_take_drop hnodup (Nat.le_refl _) hrow')
  · exact hitem
  · obtain ⟨row', hrow', h'⟩ := exists_of_forall₂ hback hitem
    rw [hsame row' (List.mem_of_mem_drop hrow') h'] at hrow'
    exact absurd hrow' (List.disjoint_take_drop hnodup (Nat.le_refl _) (List.mem_of_mem_drop hrow))

/-- The map of the middle's objects by their messages: none is lost, since no message is listed
twice. -/
theorem latest_collect (hunique : Unique objects.identity items) {identity : String}
    {item : ItemRef} :
    latest identity (collect (items.map fun item => (objects.identity item, item))) = some item ↔
      item ∈ items ∧ objects.identity item = identity := by
  have hkeys : ((items.map fun item => (objects.identity item, item)).map Prod.fst).Nodup := by
    rw [List.map_map]
    exact hunique
  rw [collect_of_nodup hkeys, latest_eq_some_iff hkeys, List.mem_map]
  constructor
  · rintro ⟨other, hother, heq⟩
    cases heq
    exact ⟨hother, rfl⟩
  · rintro ⟨hitem, rfl⟩
    exact ⟨item, hitem, rfl⟩

theorem length_collect (hunique : Unique objects.identity items) :
    (collect (items.map fun item => (objects.identity item, item))).length = items.length := by
  rw [collect_of_nodup (by rw [List.map_map]; exact hunique), List.length_map]

/-- An item of the changed list: one that lists its row, the message's own object where that listed
it. -/
structure Keeps (objects : Objects) (items : List ItemRef) (later : Objects) (item : ItemRef)
    (row : MessageListRow) : Prop where
  /-- The object was made. -/
  made : item < later.next
  /-- It lists the row. -/
  lists : Lists later item row
  /-- It is the object that listed the message with the row's fields. -/
  kept : ∀ old ∈ items, Lists objects old row → item = old

theorem Objects.Holds.keeps (h : objects.Holds items) {later : Objects}
    (hlater : later.Extends objects) {item : ItemRef} {row : MessageListRow} (hitem : item ∈ items)
    (hlists : Lists objects item row) : Keeps objects items later item row where
  made := Nat.lt_of_lt_of_le (h.made item hitem) hlater.le
  lists := hlists.of_listed (by rw [hlater.object_eq item (h.made item hitem)])
  kept old hold hlists' := h.unique.eq_of_key hitem hold
    (by rw [hlists.identity_eq, hlists'.identity_eq])

/-- The changed list keeps the objects of the messages that stay. -/
theorem replaced_keeps (hitems : objects.Holds items) (hrows : Unique MessageListRow.identity rows)
    (change : ListChange) (hstop : start ≤ stop) (hstop' : start ≤ stop')
    (hfront : Forall₂ (Lists objects) (items.take start) (rows.take start))
    (hback : Forall₂ (Lists objects) (items.drop stop) (rows.drop stop'))
    {removed : List (String × ItemRef)} {added : Objects × List ItemRef}
    (hremoved : removed = collect (((items.take stop).drop start).map fun item =>
      (objects.identity item, item)))
    (hadded : added = addedItems change removed objects ((rows.take stop').drop start)) :
    added.1.Extends objects ∧ Forall₂ (Keeps objects items added.1)
      (replaced items start (stop - start) added.2) rows := by
  have hmiddle : ((items.take stop).drop start).Sublist items :=
    (List.drop_sublist _ _).trans (List.take_sublist _ _)
  have hunique : Unique objects.identity ((items.take stop).drop start) :=
    hitems.unique.sublist (hmiddle.map _)
  have hmade : ∀ identity item, latest identity removed = some item → item < objects.next := by
    intro identity item hlatest
    rw [hremoved, latest_collect hunique] at hlatest
    exact hitems.made item (hmiddle.subset hlatest.1)
  obtain ⟨hextends, hmiddleRows⟩ := addedItems_added change ((rows.take stop').drop start) hmade
  rw [← hadded] at hextends hmiddleRows
  have hends {ends : List ItemRef} {endRows : List MessageListRow}
    (hsub : ∀ item ∈ ends, item ∈ items)
      (h : Forall₂ (Lists objects) ends endRows) : Forall₂ (Keeps objects items added.1) ends
        endRows :=
    ((List.forall₂_and_left ends endRows).mpr ⟨hsub, h⟩).imp fun item row hlists =>
      hitems.keeps hextends hlists.1 hlists.2
  refine ⟨hextends, forall₂_replaced hstop' ?_ ?_ ?_⟩
  · exact hends (fun item hitem => List.mem_of_mem_take hitem) hfront
  · apply forall₂_of_mem_right hmiddleRows
    intro item row hrow hfor
    refine ⟨hfor.made, hfor.lists, fun old hold hlists => hfor.kept old ?_ hlists⟩
    rw [hremoved, latest_collect hunique]
    exact ⟨mem_middle hrows hstop hfront hback hold hrow hlists, hlists.identity_eq⟩
  · rw [Nat.add_sub_cancel' hstop]
    exact hends (fun item hitem => List.mem_of_mem_drop hitem) hback

/-- One splice at most replaces the middle, inside the list. -/
theorem replaceMiddle_eq {removals : ℕ} (items additions : List ItemRef)
    (h : start + removals ≤ items.length) :
    ∃ changes, replaceMiddle items start removals additions =
      .ok (replaced items start removals additions, changes) ∧
      ∀ change ∈ changes, change.position + change.removed ≤ items.length := by
  by_cases hany : removals ≠ 0 ∨ additions ≠ []
  · refine ⟨[⟨start, removals, additions.length⟩], ?_, fun change hchange => ?_⟩
    · rw [replaceMiddle, if_pos hany, splice, if_pos h]
      rfl
    · rw [List.mem_singleton.mp hchange]
      exact h
  · push Not at hany
    refine ⟨[], ?_, fun change hchange => absurd hchange List.not_mem_nil⟩
    rw [replaceMiddle, if_neg (by simp [hany]), hany.1, hany.2, replaced, List.append_nil,
      Nat.add_zero, List.take_append_drop]

/-- What an update makes of the list. -/
structure Updates (objects : Objects) (items : List ItemRef) (rows : List MessageListRow)
    (updated : Updated) : Prop where
  /-- The list holds objects that were made, and no message twice. -/
  holds : updated.objects.Holds updated.items
  /-- Every row of the list shows its row. -/
  views : Forall₂ (fun item row => (updated.objects.object item).view = rowView row)
    updated.items rows
  /-- The message's object stays where it listed the row. -/
  kept : Forall₂ (fun item row => ∀ old ∈ items, Lists objects old row → item = old)
    updated.items rows
  /-- The closed rows are returned. -/
  closed : updated.closed = updated.items.filter fun item => !(updated.objects.object item).shown
  /-- Only positions of the list are replaced. -/
  inside : ∀ change ∈ updated.changes, change.position + change.removed ≤ items.length

/-- The changed list holds objects that were made, and no message twice. -/
theorem holds_of_keeps (hrows : Unique MessageListRow.identity rows) {middle later : Objects}
    {newItems : List ItemRef} (h : Forall₂ (Keeps objects items middle) newItems rows)
    (hlater : later.Follows middle) : later.Holds newItems where
  made item hitem := by
    obtain ⟨row, -, hkeeps⟩ := exists_of_forall₂ h hitem
    rw [hlater.next_eq]
    exact hkeeps.made
  unique := by
    have hlists : Forall₂ (Lists later) newItems rows :=
      h.imp fun item row hkeeps => hkeeps.lists.of_listed (hlater.listed_eq item)
    rw [Collections.Unique, identities_eq hlists]
    exact hrows

/-- The update ends, and does so. -/
theorem updateListByDifference_updates (change : ListChange) (hitems : objects.Holds items)
    (hrows : Unique MessageListRow.identity rows) :
    ∃ updated, updateListByDifference objects items rows change = .ok updated ∧
      Updates objects items rows updated := by
  obtain ⟨sameStart, hcountStart, hstart, hstart', hfront⟩ := sameStart_counts objects items rows
  obtain ⟨sameEnd, hcountEnd, hend, hend', hback⟩ := sameEnd_counts objects items rows sameStart
  -- What is between the two ends leaves the list.
  have hleaving : (List.range' sameStart (items.length - sameEnd - sameStart)).mapM (itemAt items) =
      .ok ((items.take (items.length - sameEnd)).drop sameStart) := by
    rw [mapM_itemAt (by omega), List.drop_take]
  have hmiddleRows : rowsBetween rows sameStart (rows.length - sameEnd) =
      .ok ((rows.take (rows.length - sameEnd)).drop sameStart) :=
    rowsBetween_eq (by omega) (by omega)
  obtain ⟨removed, hremoved⟩ : ∃ removed, removed =
      collect (((items.take (items.length - sameEnd)).drop sameStart).map fun item =>
        (objects.identity item, item)) := ⟨_, rfl⟩
  obtain ⟨added, hadded⟩ : ∃ added, added = addedItems change removed objects
      ((rows.take (rows.length - sameEnd)).drop sameStart) :=
    ⟨_, rfl⟩
  obtain ⟨-, hkeeps⟩ := replaced_keeps hitems hrows change (by omega) (by omega) hfront hback
    hremoved hadded
  have hlength : removed.length = items.length - sameEnd - sameStart := by
    have hsub : ((items.take (items.length - sameEnd)).drop sameStart).Sublist items :=
      (List.drop_sublist _ _).trans (List.take_sublist _ _)
    rw [hremoved, length_collect (hitems.unique.sublist (hsub.map _)), List.length_drop,
      List.length_take]
    omega
  obtain ⟨changes, hreplaced, hinside⟩ :=
    replaceMiddle_eq items added.2 (show sameStart + removed.length ≤ items.length by omega)
  rw [← hlength] at hkeeps
  have hnodup : (replaced items sameStart removed.length added.2).Nodup := by
    have hidentities : Unique added.1.identity
        (replaced items sameStart removed.length added.2) := by
      rw [Collections.Unique, identities_eq (hkeeps.imp fun _ _ h => h.lists)]
      exact hrows
    exact List.Nodup.of_map _ hidentities
  obtain ⟨later, hfollow, hfollows, -, hviews⟩ :=
    followRows_follows [] (hkeeps.imp fun _ _ h => h.lists) hnodup
  refine ⟨⟨later, replaced items sameStart removed.length added.2, changes,
    (replaced items sameStart removed.length added.2).filter fun item =>
      !(later.object item).shown⟩, ?_,
    ⟨holds_of_keeps hrows hkeeps hfollows, hviews, hkeeps.imp fun _ _ h => h.kept, rfl, hinside⟩⟩
  have hmap : collect (((items.take (items.length - sameEnd)).drop sameStart).map fun item =>
      ((objects.object item).listed.identity, item)) = removed := hremoved.symm
  have hfollow' : followRows (replaced items sameStart removed.length added.2) added.1 0 rows =
      .ok (later, (replaced items sameStart removed.length added.2).filter fun item =>
        !(later.object item).shown) := hfollow
  simp only [updateListByDifference, hcountStart, hcountEnd, hleaving, hmiddleRows, hmap, ← hadded,
    hreplaced, hfollow', Bind.bind, Except.bind]
  rfl

/-- **Updating the list by difference** shows what a list made anew would, and keeps the objects of
the messages that stay: it ends without a fault, every splice is inside the list, and it returns the
closed rows. -/
theorem updateListByDifference_rebuilds (change : ListChange) (hitems : objects.Holds items)
    (hrows : Unique MessageListRow.identity rows) :
    ∃ updated, updateListByDifference objects items rows change = .ok updated ∧
      updated.view = rows.map rowView ∧ updated.view = (rebuilt rows).map MessageItem.view ∧
      (∀ item ∈ items, ∀ (position : ℕ) (row : MessageListRow), rows[position]? = some row →
        (objects.object item).listsSameMessage row → updated.items[position]? = some item) ∧
      (updated.closed = updated.items.filter fun item => !(updated.objects.object item).shown) ∧
      ∀ change ∈ updated.changes, change.position + change.removed ≤ items.length := by
  obtain ⟨updated, hupdated, h⟩ := updateListByDifference_updates change hitems hrows
  have hview : updated.view = rows.map rowView := by
    have hsame : Forall₂ Eq (updated.items.map fun item => (updated.objects.object item).view)
        (rows.map rowView) := by
      rw [forall₂_map_left_iff, forall₂_map_right_iff]
      exact h.views
    rwa [forall₂_eq_eq_eq] at hsame
  refine ⟨updated, hupdated, hview, hview.trans (rebuilt_view rows).symm, ?_, h.closed, h.inside⟩
  intro item hitem position row hrow hlists
  obtain ⟨item', hitem', hkept⟩ := exists_at_of_forall₂ h.kept hrow
  rw [hitem', hkept item hitem hlists]

/-- An unread message without fields. -/
def plainRow (identity : String) : MessageListRow :=
  ⟨identity, ⟨none, none, none⟩, none, false, false, ""⟩

/-- Two messages' row objects, the second of which is closed. -/
def twoObjects : Objects :=
  ⟨fun item => if item = 0 then MessageItem.new (plainRow "a")
    else (MessageItem.new (plainRow "b")).showOver false 0, 2⟩

/-- The two listed messages change places, around one that arrives. -/
theorem updateListByDifference_rebuilds_moved :
    ∃ updated, updateListByDifference twoObjects [0, 1] [plainRow "b", plainRow "c", plainRow "a"]
      .animated = .ok updated ∧
      updated.items[0]? = some 1 ∧ updated.items[2]? = some 0 := by
  have hitems : twoObjects.Holds [0, 1] := ⟨by decide, by unfold Collections.Unique; decide⟩
  have hrows : Collections.Unique MessageListRow.identity
      [plainRow "b", plainRow "c", plainRow "a"] := by
    unfold Collections.Unique
    decide
  obtain ⟨updated, hupdated, -, -, hkept, -⟩ :=
    updateListByDifference_rebuilds .animated hitems hrows
  exact ⟨updated, hupdated, hkept 1 (by decide) 0 (plainRow "b") rfl (by decide),
    hkept 0 (by decide) 2 (plainRow "a") rfl (by decide)⟩

example :
    (updateListByDifference twoObjects [0, 1] [plainRow "a", plainRow "b", plainRow "c",
      plainRow "d"] .atOnce).map
    (fun updated => (updated.items, updated.changes, updated.closed)) =
    .ok ([0, 1, 2, 3], [⟨2, 0, 2⟩], [1]) := by
  rfl

end Update

end Mailbag.Window
