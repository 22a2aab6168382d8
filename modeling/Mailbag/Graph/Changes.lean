import Mailbag.Collections.Keyed
import Mailbag.Graph.Protocol

/-!
# The entries of a delta page, merged per message

The service may repeat and reorder a page's entries. `mergePerMessage` leaves one entry a
message: a later entry wins, a partial one never drops an earlier read state or star, and a
message that one entry removes and another does not is to be read again.

## What is proved

* `mergePerMessage_keys` — a message has one entry.
* `mem_mergePerMessage` — the messages with an entry are those the page names.
* `mergePerMessage_removed` — an entry removes only a message that every entry removes.
-/

namespace Mailbag.Graph

open Collections

/-- The message an entry names. -/
def MessageChange.id : MessageChange → String
  | .removed id => id
  | .listed message => message.immutableId
  | .changed id .. => id

/-- The entry says the message left the folder. -/
def isRemoved : MessageChange → Bool
  | .removed _ => true
  | _ => false

/-- The entry of a message that is to be read again. -/
def readAgainEntry (id : String) : MessageChange := .changed id none none true

/-- An entry with the earlier one for its message. Of two partial entries only whether other
fields changed matters, since a changed message is read again. -/
def combined : Option MessageChange → MessageChange → MessageChange
  | some (.listed message), .changed _ isRead flagged false =>
    .listed { message with
        isRead := isRead.getD message.isRead
        flagged := flagged.getD message.flagged }
  | some (.changed _ _ _ earlierFields), .changed id _ _ otherFields =>
    .changed id none none (otherFields || earlierFields)
  | _, change => change

/-- The entries merged so far, and the messages trusted to no further entry. -/
structure MergedChanges where
  /-- One entry a message. -/
  merged : List (String × MessageChange)
  /-- The messages whose entries contradict each other. -/
  readAgain : List String

/-- Merge one more entry. -/
def MergedChanges.add (so : MergedChanges) (change : MessageChange) : MergedChanges :=
  if change.id ∈ so.readAgain then so
  else
    let earlier := latest change.id so.merged
    let others := so.merged.filter fun entry => entry.1 ≠ change.id
    if earlier.any fun earlier => isRemoved earlier ≠ isRemoved change then
      ⟨(change.id, readAgainEntry change.id) :: others, change.id :: so.readAgain⟩
    else ⟨(change.id, combined earlier change) :: others, so.readAgain⟩

/-- A page's entries merged per message in their order. -/
def mergePerMessage (changes : List MessageChange) : List (String × MessageChange) :=
  (changes.foldl MergedChanges.add ⟨[], []⟩).merged

/-! ### What merging keeps -/

theorem isRemoved_combined (earlier : Option MessageChange) (change : MessageChange) :
    isRemoved (combined earlier change) = isRemoved change := by
  unfold combined
  split <;> rfl

theorem id_combined {earlier : Option MessageChange} {change : MessageChange}
    (h : ∀ e, earlier = some e → e.id = change.id) : (combined earlier change).id = change.id := by
  unfold combined
  split
  · rename_i message _ _ _
    exact h (.listed message) rfl
  · rfl
  · rfl

/-- What is so of the merged entries after the entries `changes`. -/
structure Merges (changes : List MessageChange) (so : MergedChanges) : Prop where
  /-- A message has one entry. -/
  keys : (so.merged.map Prod.fst).Nodup
  /-- It is an entry of that message. -/
  own : ∀ id change, (id, change) ∈ so.merged → change.id = id
  /-- The messages are those named. -/
  names : ∀ id, id ∈ so.merged.map Prod.fst ↔ ∃ change ∈ changes, change.id = id
  /-- Only a message that every entry removes is removed. -/
  removed : ∀ id change, (id, change) ∈ so.merged → isRemoved change = true →
    ∀ c ∈ changes, c.id = id → isRemoved c = true
  /-- A message trusted to no further entry is not removed. -/
  again : ∀ id change, (id, change) ∈ so.merged → id ∈ so.readAgain → isRemoved change = false
  /-- It has an entry. -/
  readAgain : ∀ id ∈ so.readAgain, id ∈ so.merged.map Prod.fst

theorem merges_nil : Merges [] ⟨[], []⟩ :=
  ⟨List.nodup_nil, nofun, fun _ => by simp, nofun, nofun, nofun⟩

/-- The other messages' entries, with a new one. -/
theorem mem_replaced {so : MergedChanges} {id id' : String} {change change' : MessageChange} :
    (id', change') ∈ (id, change) :: so.merged.filter (fun entry => entry.1 ≠ id) ↔
      id' = id ∧ change' = change ∨ id' ≠ id ∧ (id', change') ∈ so.merged := by
  simp [and_comm]

theorem keys_replaced {so : MergedChanges} {id id' : String} {change : MessageChange} :
    id' ∈ ((id, change) :: so.merged.filter (fun entry => entry.1 ≠ id)).map Prod.fst ↔
      id' = id ∨ id' ∈ so.merged.map Prod.fst := by
  by_cases h : id' = id <;> simp [h]

theorem Merges.nodup_replaced {changes : List MessageChange} {so : MergedChanges}
    (h : Merges changes so) {id : String} {change : MessageChange} :
    (((id, change) :: so.merged.filter (fun entry => entry.1 ≠ id)).map Prod.fst).Nodup := by
  rw [List.map_cons, List.nodup_cons]
  exact ⟨by simp, h.keys.sublist (List.filter_sublist.map _)⟩

theorem exists_named_append {changes : List MessageChange} {change : MessageChange} {id : String} :
    (∃ c ∈ changes ++ [change], c.id = id) ↔ id = change.id ∨ ∃ c ∈ changes, c.id = id := by
  simp only [List.mem_append, List.mem_singleton, or_and_right, exists_or, exists_eq_left]
  rw [or_comm, eq_comm]

/-- A new entry for the message the next entry names, in the place of an earlier one. -/
theorem Merges.replace {changes : List MessageChange} {so : MergedChanges} (h : Merges changes so)
    {change entry : MessageChange} {again : List String} (hfirst : change.id ∉ so.readAgain)
    (hown : entry.id = change.id)
    (hremoved : isRemoved entry = true → isRemoved change = true ∧ ∀ c ∈ changes, c.id = change.id →
      isRemoved c = true)
    (hagain : ∀ id ∈ again, id ∈ so.readAgain ∨ id = change.id ∧ isRemoved entry = false) :
    Merges (changes ++ [change]) ⟨(change.id, entry) :: so.merged.filter (fun e => e.1 ≠ change.id),
      again⟩ := by
  refine ⟨h.nodup_replaced, fun id c hc => ?_, fun id => ?_, fun id c hc hr c' hc' hid => ?_,
    fun id c hc hid => ?_,
    fun id hid => ?_⟩
  · rcases mem_replaced.mp hc with ⟨rfl, rfl⟩ | ⟨-, hc⟩
    · exact hown
    · exact h.own id c hc
  · rw [keys_replaced, exists_named_append, h.names]
  · rcases mem_replaced.mp hc with ⟨rfl, rfl⟩ | ⟨hne, hc⟩
    · obtain ⟨hchange, hall⟩ := hremoved hr
      rcases List.mem_append.mp hc' with hc' | hc'
      · exact hall c' hc' hid
      · rw [List.mem_singleton.mp hc']
        exact hchange
    · rcases List.mem_append.mp hc' with hc' | hc'
      · exact h.removed id c hc hr c' hc' hid
      · rw [List.mem_singleton.mp hc'] at hid
        exact absurd hid.symm hne
  · rcases mem_replaced.mp hc with ⟨rfl, rfl⟩ | ⟨hne, hc⟩
    · rcases hagain _ hid with hid | ⟨-, hr⟩
      · exact absurd hid hfirst
      · exact hr
    · exact h.again id c hc ((hagain id hid).resolve_right fun heq => hne heq.1)
  · rw [keys_replaced]
    exact (hagain id hid).symm.imp And.left (h.readAgain id)

theorem Merges.add {changes : List MessageChange} {so : MergedChanges} (h : Merges changes so)
    (change : MessageChange) : Merges (changes ++ [change]) (so.add change) := by
  rw [MergedChanges.add]
  by_cases hagain : change.id ∈ so.readAgain
  · rw [if_pos hagain]
    refine ⟨h.keys, h.own, fun id => ?_, fun id c hc hr c' hc' hid => ?_, h.again, h.readAgain⟩
    · rw [exists_named_append, ← h.names]
      refine ⟨.inr, fun hid => hid.elim (fun heq => ?_) fun hid => hid⟩
      rw [heq]
      exact h.readAgain _ hagain
    · rcases List.mem_append.mp hc' with hc' | hc'
      · exact h.removed id c hc hr c' hc' hid
      · rw [List.mem_singleton.mp hc'] at hid
        subst hid
        rw [h.again _ c hc hagain] at hr
        cases hr
  · rw [if_neg hagain]
    dsimp only
    split
    · refine h.replace hagain rfl (fun h => by cases h) fun id hid => ?_
      exact (List.mem_cons.mp hid).symm.imp_right fun heq => ⟨heq, rfl⟩
    · rename_i hsame
      refine h.replace hagain (id_combined fun e he => h.own _ e (mem_of_latest he)) (fun hr => ?_)
        fun id hid => .inl hid
      rw [isRemoved_combined] at hr
      refine ⟨hr, fun c hc hid => ?_⟩
      -- An earlier entry for the message removes it too, or the two would contradict each other.
      obtain ⟨e, he⟩ := Option.isSome_iff_exists.mp
        (latest_isSome_iff.mpr ((h.names _).mpr ⟨c, hc, hid⟩))
      rw [he] at hsame
      have heq : isRemoved e = true := by simpa [hr] using hsame
      exact h.removed _ e (mem_of_latest he) heq c hc hid

theorem mergePerMessage_merges (changes : List MessageChange) :
    Merges changes (changes.foldl MergedChanges.add ⟨[], []⟩) := by
  suffices ∀ done so, Merges done so →
    Merges (done ++ changes) (changes.foldl MergedChanges.add so) from this [] _ merges_nil
  induction changes with
  | nil => exact fun done so h => by rwa [List.append_nil]
  | cons change changes ih =>
    intro done so h
    have := ih _ _ (h.add change)
    rwa [List.append_assoc] at this

/-- **A message has one entry.** -/
theorem mergePerMessage_keys (changes : List MessageChange) :
    ((mergePerMessage changes).map Prod.fst).Nodup :=
  (mergePerMessage_merges changes).keys

/-- The messages with an entry are those the page names. -/
theorem mem_mergePerMessage {changes : List MessageChange} {id : String} :
    id ∈ (mergePerMessage changes).map Prod.fst ↔ ∃ change ∈ changes, change.id = id :=
  (mergePerMessage_merges changes).names id

/-- It is an entry of that message. -/
theorem mergePerMessage_own {changes : List MessageChange} {id : String} {change : MessageChange}
    (h : (id, change) ∈ mergePerMessage changes) : change.id = id :=
  (mergePerMessage_merges changes).own id change h

/-- **An entry removes only a message that every entry of the page removes.** -/
theorem mergePerMessage_removed {changes : List MessageChange} {id : String}
    {change : MessageChange} (h : (id, change) ∈ mergePerMessage changes)
    (hr : isRemoved change = true) : ∀ c ∈ changes, c.id = id → isRemoved c = true :=
  (mergePerMessage_merges changes).removed id change h hr

end Mailbag.Graph
