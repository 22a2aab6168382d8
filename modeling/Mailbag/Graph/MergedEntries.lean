import Mailbag.Graph.Changes
import Mathlib.Data.List.DropRight

/-!
# What a page's entries say of one message

`mergePerMessage` keeps a map over all messages while it goes through a page. Seen from one
message it goes through that message's entries alone (`entry_mergePerMessage`), so nothing
depends on how the entries of different messages interleave, and what it leaves is a
statement about the message's own entries: whether all of them remove it, whether some do,
the last one that lists it whole and the partial ones after that.

## What is proved

* `mergePerMessage_entries` — the entry of each message a page names, from its own entries.
-/

namespace Mailbag.Graph

open Collections

/-- The message an entry lists whole. -/
def MessageChange.listed? : MessageChange → Option GraphMessage
  | .listed message => some message
  | _ => none

/-- A partial entry that reports fields other than the read state and the star. -/
def reportsOther : MessageChange → Bool
  | .changed _ _ _ otherFields => otherFields
  | _ => false

/-- The message with an entry's read state and star. -/
def GraphMessage.withChange (message : GraphMessage) : MessageChange → GraphMessage
  | .changed _ isRead flagged _ =>
    { message with isRead := isRead.getD message.isRead, flagged := flagged.getD message.flagged }
  | _ => message

/-- The last message the entries list whole. -/
def lastListed (entries : List MessageChange) : Option GraphMessage :=
  (entries.filterMap MessageChange.listed?).getLast?

/-- The entries after the last one that lists the message whole; all, when none does. -/
def laterEntries (entries : List MessageChange) : List MessageChange :=
  entries.rtakeWhile fun c => c.listed?.isNone

/-- What the merged entry of a message is, from the message's own entries in their order. -/
structure MergedEntry (id : String) (entries : List MessageChange) (entry : MessageChange) :
    Prop where
  /-- All of them remove it. -/
  removed : (∀ c ∈ entries, isRemoved c = true) → entry = .removed id
  /-- Some remove it and some do not. -/
  contradicted : (∃ c ∈ entries, isRemoved c = true) → (∃ c ∈ entries, isRemoved c = false) →
    ∃ isRead flagged, entry = .changed id isRead flagged true
  /-- None removes it, it is listed whole, and no later partial entry reports other fields. -/
  listed : (∀ c ∈ entries, isRemoved c = false) → ∀ message, lastListed entries = some message →
    (∀ c ∈ laterEntries entries, reportsOther c = false) →
      entry = .listed ((laterEntries entries).foldl GraphMessage.withChange message)
  /-- None removes it, and it is not listed whole or a later partial entry reports other fields. -/
  changed : (∀ c ∈ entries, isRemoved c = false) →
    lastListed entries = none ∨ (∃ c ∈ laterEntries entries, reportsOther c = true) →
      ∃ isRead flagged, entry = .changed id isRead flagged ((laterEntries entries).any reportsOther)

@[simp] theorem lastListed_concat (entries : List MessageChange) (change : MessageChange) :
    lastListed (entries ++ [change]) = change.listed?.or (lastListed entries) := by
  rw [lastListed, List.filterMap_append, List.getLast?_append, lastListed]
  cases change <;> rfl

@[simp] theorem laterEntries_concat (entries : List MessageChange) (change : MessageChange) :
    laterEntries (entries ++ [change]) = if change.listed?.isNone then laterEntries entries ++
      [change] else [] :=
  List.rtakeWhile_concat _ _ _

@[simp] theorem lastListed_singleton (change : MessageChange) :
    lastListed [change] = change.listed? := by
  cases change <;> rfl

@[simp] theorem laterEntries_singleton (change : MessageChange) :
    laterEntries [change] = if change.listed?.isNone then [change] else [] := by
  cases change <;> rfl

/-! ### One message's entries alone -/

/-- The merge as one message meets it: its entry, and whether it is trusted to no further one. -/
structure EntryOf where
  /-- The entry so far. -/
  entry : Option MessageChange
  /-- Its entries contradict each other. -/
  readAgain : Bool

/-- One more entry of the message. -/
def EntryOf.add (so : EntryOf) (change : MessageChange) : EntryOf :=
  if so.readAgain then so
  else if so.entry.any fun earlier => isRemoved earlier ≠ isRemoved change then
    ⟨some (readAgainEntry change.id), true⟩
  else ⟨some (combined so.entry change), false⟩

/-- What the merge so far has of a message. -/
def MergedChanges.entryOf (so : MergedChanges) (id : String) : EntryOf :=
  ⟨latest id so.merged, decide (id ∈ so.readAgain)⟩

/-- The other messages' entries, with a new one. -/
theorem latest_replaced (id id' : String) (change : MessageChange)
    (merged : List (String × MessageChange)) :
    latest id ((id', change) :: merged.filter fun entry => entry.1 ≠ id') =
      if id = id' then some change else latest id merged := by
  have hothers : latest id (merged.filter fun entry => entry.1 ≠ id') = if id = id' then none
      else latest id merged := by
    induction merged with
    | nil => simp
    | cons entry merged ih =>
      rw [List.filter_cons]
      by_cases hid' : entry.1 = id'
      · rw [if_neg (by simp [hid']), ih]
        by_cases hid : id = id'
        · simp [hid]
        · have hne : entry.1 ≠ id := fun h => hid (h.symm.trans hid')
          simp [latest, hid, hne]
      · rw [if_pos (by simp [hid']), latest, ih, latest]
        by_cases hid : id = id'
        · have hne : entry.1 ≠ id := fun h => hid' (h.trans hid)
          simp [hid, hid ▸ hne]
        · simp [hid]
  rw [latest, hothers]
  by_cases hid : id = id'
  · simp [hid]
  · have hne : id' ≠ id := fun h => hid h.symm
    simp [hid, hne]

theorem entryOf_add_of_ne (so : MergedChanges) {change : MessageChange} {id : String}
    (hne : id ≠ change.id) : (so.add change).entryOf id = so.entryOf id := by
  rw [MergedChanges.add]
  split
  · rfl
  · dsimp only
    split
    · rw [MergedChanges.entryOf, latest_replaced, if_neg hne]
      simp [MergedChanges.entryOf, hne]
    · rw [MergedChanges.entryOf, latest_replaced, if_neg hne]
      rfl

/-- An entry of this message is added to what the merge has of it. -/
theorem entryOf_add_self (so : MergedChanges) (change : MessageChange) :
    (so.add change).entryOf change.id = (so.entryOf change.id).add change := by
  rw [MergedChanges.add, EntryOf.add]
  by_cases hagain : change.id ∈ so.readAgain
  · simp [MergedChanges.entryOf, hagain]
  · have hfirst : (so.entryOf change.id).readAgain = false := decide_eq_false hagain
    rw [if_neg hagain, hfirst, if_neg Bool.false_ne_true]
    dsimp only [MergedChanges.entryOf]
    split
    · rename_i hcontradicts
      rw [latest_replaced, if_pos rfl, decide_eq_true List.mem_cons_self]
      exact (if_pos hcontradicts).symm
    · rename_i hagrees
      rw [latest_replaced, if_pos rfl, decide_eq_false hagain]
      exact (if_neg hagrees).symm

/-- **The entries of other messages do not matter.** -/
theorem entry_mergePerMessage (changes : List MessageChange) (id : String) :
    latest id (mergePerMessage changes) =
      ((changes.filter fun c => c.id = id).foldl EntryOf.add ⟨none, false⟩).entry := by
  have hfold : ∀ so : MergedChanges, (changes.foldl MergedChanges.add so).entryOf id =
      (changes.filter fun c => c.id = id).foldl EntryOf.add (so.entryOf id) := by
    induction changes with
    | nil => exact fun _ => rfl
    | cons change changes ih =>
      intro so
      rw [List.foldl_cons, ih, List.filter_cons]
      by_cases hid : change.id = id
      · subst hid
        rw [entryOf_add_self, if_pos (by simp), List.foldl_cons]
      · rw [entryOf_add_of_ne so (Ne.symm hid), if_neg (by simpa using hid)]
  exact congrArg EntryOf.entry (hfold ⟨[], []⟩)

/-! ### What the message's entries come to -/

theorem MergedEntry.of_contradicted {id : String} {entries : List MessageChange}
    {isRead flagged : Option Bool} (hremoved : ∃ c ∈ entries, isRemoved c = true)
    (hkept : ∃ c ∈ entries, isRemoved c = false) :
    MergedEntry id entries (.changed id isRead flagged true) := by
  obtain ⟨c, hc, hr⟩ := hremoved
  obtain ⟨d, hd, hk⟩ := hkept
  refine ⟨fun hall => ?_, fun _ _ => ⟨isRead, flagged, rfl⟩, fun hall => ?_, fun hall => ?_⟩
  · rw [hall d hd] at hk
    cases hk
  · rw [hall c hc] at hr
    cases hr
  · rw [hall c hc] at hr
    cases hr

theorem MergedEntry.of_removed {id : String} {entries : List MessageChange} (hne : entries ≠ [])
    (hall : ∀ c ∈ entries, isRemoved c = true) : MergedEntry id entries (.removed id) := by
  obtain ⟨c, hc⟩ := List.exists_mem_of_ne_nil entries hne
  refine ⟨fun _ => rfl, ?_, fun hnone => ?_, fun hnone => ?_⟩
  · rintro - ⟨d, hd, hk⟩
    rw [hall d hd] at hk
    cases hk
  · cases (hall c hc).symm.trans (hnone c hc)
  · cases (hall c hc).symm.trans (hnone c hc)

/-- Entries of which none removes the message. -/
theorem MergedEntry.of_kept {id : String} {entries : List MessageChange} {entry : MessageChange}
    (hne : entries ≠ []) (hnone : ∀ c ∈ entries, isRemoved c = false)
    (hlisted : ∀ message, lastListed entries = some message →
      (∀ c ∈ laterEntries entries, reportsOther c = false) →
        entry = .listed ((laterEntries entries).foldl GraphMessage.withChange message))
    (hchanged : lastListed entries = none ∨ (∃ c ∈ laterEntries entries, reportsOther c = true) →
      ∃ isRead flagged, entry = .changed id isRead flagged
        ((laterEntries entries).any reportsOther)) : MergedEntry id entries entry := by
  obtain ⟨c, hc⟩ := List.exists_mem_of_ne_nil entries hne
  refine ⟨fun hall => ?_, ?_, fun _ => hlisted, fun _ => hchanged⟩
  · cases (hall c hc).symm.trans (hnone c hc)
  · rintro ⟨d, hd, hr⟩ -
    cases hr.symm.trans (hnone d hd)

/-- The two ways of entries that do not remove the message. -/
theorem MergedEntry.kept {id : String} {entries : List MessageChange} {entry : MessageChange}
    (h : MergedEntry id entries entry) (hnone : ∀ c ∈ entries, isRemoved c = false) :
    (∃ message, lastListed entries = some message ∧
      (∀ c ∈ laterEntries entries, reportsOther c = false) ∧
        entry = .listed ((laterEntries entries).foldl GraphMessage.withChange message)) ∨
      (lastListed entries = none ∨ ∃ c ∈ laterEntries entries, reportsOther c = true) ∧
        ∃ isRead flagged, entry = .changed id isRead flagged
          ((laterEntries entries).any reportsOther) := by
  by_cases hother : ∃ c ∈ laterEntries entries, reportsOther c = true
  · exact .inr ⟨.inr hother, h.changed hnone (.inr hother)⟩
  · cases hl : lastListed entries with
    | none => exact .inr ⟨.inl rfl, h.changed hnone (.inl hl)⟩
    | some message =>
      have hnever : ∀ c ∈ laterEntries entries, reportsOther c = false := by
        intro c hc
        by_contra hr
        exact hother ⟨c, hc, by simpa using hr⟩
      exact .inl ⟨message, rfl, hnever, h.listed hnone message hl hnever⟩

/-- **One more entry** over entries that did not remove the message. -/
theorem MergedEntry.combined {id : String} {entries : List MessageChange}
    {entry change : MessageChange} (hid : change.id = id) (h : MergedEntry id entries entry)
    (hnone : ∀ c ∈ entries, isRemoved c = false) (hkept : isRemoved change = false) :
    MergedEntry id (entries ++ [change]) (Graph.combined (some entry) change) := by
  have hnone' : ∀ c ∈ entries ++ [change], isRemoved c = false := by
    intro c hc
    rcases List.mem_append.mp hc with hc | hc
    · exact hnone c hc
    · rw [List.mem_singleton.mp hc]
      exact hkept
  refine .of_kept (by simp) hnone' ?_ ?_
  · intro message hl hnever
    rw [lastListed_concat] at hl
    rw [laterEntries_concat] at hnever ⊢
    cases change with
    | removed id => cases hkept
    | listed listed =>
      cases hl
      cases entry <;> rfl
    | changed id' isRead flagged otherFields =>
      have hrest : otherFields = false := hnever _ (List.mem_append_right _ List.mem_cons_self)
      subst hrest
      rcases h.kept hnone with ⟨message', hl', -, rfl⟩ | ⟨hl' | ⟨c, hc, hr⟩, -⟩
      · cases hl'.symm.trans hl
        simp [MessageChange.listed?, Graph.combined, GraphMessage.withChange]
      · cases hl'.symm.trans hl
      · cases hr.symm.trans (hnever c (List.mem_append_left _ hc))
  · intro hway
    rw [lastListed_concat, laterEntries_concat] at hway
    rw [laterEntries_concat]
    cases change with
    | removed id => cases hkept
    | listed listed => simp [MessageChange.listed?] at hway
    | changed id' isRead flagged otherFields =>
      cases hid
      rcases h.kept hnone with ⟨message, hl, hnever, rfl⟩ | ⟨-, isRead', flagged', rfl⟩
      · cases otherFields with
        | true =>
          exact ⟨isRead, flagged, by simp [MessageChange.listed?, Graph.combined, reportsOther,
            MessageChange.id]⟩
        | false =>
          rcases hway with hway | ⟨c, hc, hr⟩
          · cases hl.symm.trans hway
          · rcases List.mem_append.mp hc with hc | hc
            · cases hr.symm.trans (hnever c hc)
            · rw [List.mem_singleton.mp hc] at hr
              cases hr
      · exact ⟨none, none, by simp [MessageChange.listed?, Graph.combined, reportsOther,
          MessageChange.id, Bool.or_comm]⟩

/-- What is so of a message's entry after its entries `entries`. -/
structure Follows (id : String) (entries : List MessageChange) (so : EntryOf) : Prop where
  /-- Before the first there is none. -/
  first : entries = [] → so = ⟨none, false⟩
  /-- It is trusted to no further entry once two contradict each other. -/
  again : so.readAgain = true ↔ (∃ c ∈ entries, isRemoved c = true) ∧
    ∃ c ∈ entries, isRemoved c = false
  /-- It is what the entries come to. -/
  entry : entries ≠ [] → ∃ entry, so.entry = some entry ∧ MergedEntry id entries entry

theorem exists_mem_concat {entries : List MessageChange} {change : MessageChange}
    {p : MessageChange → Prop} :
    (∃ c ∈ entries ++ [change], p c) ↔ (∃ c ∈ entries, p c) ∨ p change := by
  simp [or_and_right, exists_or]

theorem MergedEntry.of_single {id : String} {change : MessageChange} (hid : change.id = id) :
    MergedEntry id [change] change := by
  cases hid
  cases change with
  | removed id => exact .of_removed (by simp) (by simp [isRemoved])
  | listed message =>
    refine .of_kept (by simp) (by simp [isRemoved]) ?_ ?_ <;> simp [MessageChange.listed?]
  | changed id isRead flagged otherFields =>
    refine .of_kept (by simp) (by simp [isRemoved]) (by simp [MessageChange.listed?]) fun _ => ?_
    exact ⟨isRead, flagged, by simp [MessageChange.listed?, reportsOther, MessageChange.id]⟩

/-- **One more entry of the message.** -/
theorem Follows.add {id : String} {entries : List MessageChange} {so : EntryOf}
    (h : Follows id entries so) {change : MessageChange} (hid : change.id = id) :
    Follows id (entries ++ [change]) (so.add change) := by
  have hmixed : ∀ so' : EntryOf, so'.readAgain = true →
    (∃ isRead flagged, so'.entry = some (.changed id isRead flagged true)) →
      (∃ c ∈ entries ++ [change], isRemoved c = true) →
      (∃ c ∈ entries ++ [change], isRemoved c = false) →
      Follows id (entries ++ [change]) so' := by
    rintro so' hagain ⟨isRead, flagged, hentry⟩ hremoved hkept
    exact ⟨by simp, ⟨fun _ => ⟨hremoved, hkept⟩, fun _ => hagain⟩,
      fun _ => ⟨_, hentry, .of_contradicted hremoved hkept⟩⟩
  rw [EntryOf.add]
  by_cases hagain : so.readAgain = true
  · obtain ⟨hremoved, hkept⟩ := h.again.mp hagain
    obtain ⟨entry, hentry, hmerged⟩ := h.entry (by rintro rfl; simp at hremoved)
    obtain ⟨isRead, flagged, rfl⟩ := hmerged.contradicted hremoved hkept
    rw [if_pos hagain]
    exact hmixed so hagain ⟨isRead, flagged, hentry⟩ (exists_mem_concat.mpr (.inl hremoved))
      (exists_mem_concat.mpr (.inl hkept))
  rw [if_neg hagain]
  by_cases hnil : entries = []
  · subst hnil
    rw [h.first rfl]
    refine ⟨by simp, ?_, fun _ => ⟨change, ?_, .of_single hid⟩⟩
    · cases change <;> simp [isRemoved]
    · cases change <;> rfl
  obtain ⟨entry, hentry, hmerged⟩ := h.entry hnil
  obtain ⟨c₀, hc₀⟩ := List.exists_mem_of_ne_nil entries hnil
  -- The entries do not contradict each other, so they all remove the message or none does.
  have hone : ∀ c ∈ entries, isRemoved c = isRemoved c₀ := by
    intro c hc
    cases hr : isRemoved c <;> cases hr₀ : isRemoved c₀
    · rfl
    · exact absurd (h.again.mpr ⟨⟨c₀, hc₀, hr₀⟩, c, hc, hr⟩) hagain
    · exact absurd (h.again.mpr ⟨⟨c, hc, hr⟩, c₀, hc₀, hr₀⟩) hagain
    · rfl
  have hsame : isRemoved entry = isRemoved c₀ := by
    cases hr₀ : isRemoved c₀ with
    | true => rw [hmerged.removed fun c hc => (hone c hc).trans hr₀, isRemoved]
    | false =>
      rcases hmerged.kept fun c hc => (hone c hc).trans hr₀ with ⟨_, -, -, rfl⟩ | ⟨-, _, _, rfl⟩ <;>
        rfl
  rw [hentry, Option.any_some]
  by_cases hdiffer : isRemoved c₀ = isRemoved change
  · have hall : ∀ c ∈ entries ++ [change], isRemoved c = isRemoved c₀ := by
      intro c hc
      rcases List.mem_append.mp hc with hc | hc
      · exact hone c hc
      · rw [List.mem_singleton.mp hc, hdiffer]
    rw [if_neg (by simp [hsame, hdiffer])]
    refine ⟨by simp, ⟨(fun h => by cases h), ?_⟩, fun _ => ⟨_, rfl, ?_⟩⟩
    · rintro ⟨⟨c, hc, hr⟩, d, hd, hk⟩
      rw [hall c hc] at hr
      rw [hall d hd, hr] at hk
      cases hk
    · cases hr₀ : isRemoved c₀ with
      | true =>
        cases change with
        | removed id' =>
          cases hid
          have hcombined : combined (some entry) (.removed id') = .removed id' := by
            cases entry <;> rfl
          rw [hcombined]
          exact .of_removed (by simp) fun c hc => (hall c hc).trans hr₀
        | _ => cases hr₀.symm.trans hdiffer
      | false =>
        exact hmerged.combined hid (fun c hc => (hone c hc).trans hr₀) (hdiffer.symm.trans hr₀)
  · rw [if_pos (by simp [hsame, hdiffer])]
    refine hmixed _ rfl ⟨none, none, by rw [readAgainEntry, hid]⟩ ?_ ?_ <;> rw [exists_mem_concat]
    · cases hr₀ : isRemoved c₀ with
      | true => exact .inl ⟨c₀, hc₀, hr₀⟩
      | false => exact .inr (by simpa [hr₀] using hdiffer)
    · cases hr₀ : isRemoved c₀ with
      | true => exact .inr (by simpa [hr₀] using hdiffer)
      | false => exact .inl ⟨c₀, hc₀, hr₀⟩

theorem follows (id : String) (entries : List MessageChange) (hown : ∀ c ∈ entries, c.id = id) :
    Follows id entries (entries.foldl EntryOf.add ⟨none, false⟩) := by
  induction entries using List.reverseRecOn with
  | nil => exact ⟨fun _ => rfl, by simp, fun h => absurd rfl h⟩
  | append_singleton entries change ih =>
    rw [List.foldl_append]
    exact (ih fun c hc => hown c (List.mem_append_left _ hc)).add
      (hown change (List.mem_append_right _ List.mem_cons_self))

/-- **One page's entries merged per message**: a message the page names has one entry and no
other has any; the entry is what the message's own entries come to, however those of the
other messages lie between them. -/
theorem mergePerMessage_entries (changes : List MessageChange) :
    ((mergePerMessage changes).map Prod.fst).Nodup ∧
      (∀ id, id ∈ (mergePerMessage changes).map Prod.fst ↔ ∃ change ∈ changes, change.id = id) ∧
      (∀ id entry, (id, entry) ∈ mergePerMessage changes →
        MergedEntry id (changes.filter fun c => c.id = id) entry) ∧
      ∀ id changes', (changes'.filter fun c => c.id = id) = (changes.filter fun c => c.id = id) →
        ∀ entry, (id, entry) ∈ mergePerMessage changes' ↔
          (id, entry) ∈ mergePerMessage changes := by
  have hentry : ∀ changes : List MessageChange, ∀ id entry, (id, entry) ∈ mergePerMessage changes ↔
      ((changes.filter fun c => c.id = id).foldl EntryOf.add ⟨none, false⟩).entry = some entry := by
    intro changes id entry
    rw [← entry_mergePerMessage, latest_eq_some_iff (mergePerMessage_keys changes)]
  refine ⟨mergePerMessage_keys changes, fun id => mem_mergePerMessage, fun id entry hmem => ?_,
    fun id changes' hsame entry => ?_⟩
  · have hown : ∀ c ∈ changes.filter fun c => c.id = id, c.id = id := fun c hc => by
      simpa using (List.mem_filter.mp hc).2
    have hfollows := follows id (changes.filter fun c => c.id = id) hown
    obtain ⟨change, hchange, hid⟩ := mem_mergePerMessage.mp (List.mem_map_of_mem hmem)
    have hne : changes.filter (fun c => c.id = id) ≠ [] :=
      List.ne_nil_of_mem (List.mem_filter.mpr ⟨hchange, by simpa using hid⟩)
    obtain ⟨entry', hentry', hmerged⟩ := hfollows.entry hne
    rw [hentry, hentry', Option.some.injEq] at hmem
    exact hmem ▸ hmerged
  · rw [hentry, hentry, hsame]

/-- Removed, listed and changed in this order, the message is read again. -/
example :
    mergePerMessage [.removed "a", .changed "b" (some true) none false,
      .listed ⟨"a", none, none, [], none, true, true, none⟩,
    .changed "a" none (some false) false] =
      [("a", .changed "a" none none true), ("b", .changed "b" (some true) none false)] := by
  decide

end Mailbag.Graph
