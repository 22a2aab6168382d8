import Mailbag.Store.Frames

/-!
# The exact effect of one batch

The lists of a batch are applied one after another and may name the same messages. What
they come to is said here without their order: what the folder holds afterwards, which
messages stay stored, with which server flags, and the folder's state.

## What is proved

* `Shape.stored_iff` — a message is stored exactly when a folder of its account holds it.
* `storeBatch_effect` — the effect of a stored batch; one not stored changes nothing.
-/

namespace Mailbag.Store

open Collections

variable {t : Tables} {folder : FolderRef} {folderId : ℕ}

/-- **A message is stored exactly when some folder of its account holds it.** -/
theorem Shape.stored_iff (h : Shape t) {account identity : String} :
    (t.message? account identity).isSome ↔ ∃ fo, t.Holds account fo identity := by
  constructor
  · intro hsome
    obtain ⟨g, hg⟩ := Option.isSome_iff_exists.mp hsome
    obtain ⟨m, hm, hmg⟩ := h.held g (mem_of_lookup hg)
    obtain ⟨f, hf, g', hg', hfm, hgm, hacc⟩ := h.joins m hm
    obtain rfl := h.messageIds.eq_of_key (mem_of_lookup hg) hg' (hmg.symm.trans hgm.symm)
    have hkey : g.key = (account, identity) := key_of_lookup hg
    refine ⟨f.identity, h.holds_iff.mpr ⟨f, hf, g, hg', ?_, hkey, by rw [hfm, hgm]; exact hm⟩⟩
    exact Prod.ext (hacc.trans (congrArg Prod.fst hkey)) rfl
  · rintro ⟨fo, f, g, hf, hg, hm⟩
    rw [hg]
    rfl

/-- Some folder of the account holds the message once a batch's removals are done. -/
def HeldAfterRemovals (t : Tables) (folder : FolderRef) (removed : List String)
    (identity : String) : Prop :=
  ∃ fo, t.Holds folder.account.asStr fo identity ∧ ¬(fo = folder.identity ∧ identity ∈ removed)

theorem applyRemovals_shape (h : Shape t) (ho : t.Opened folder folderId) (removed : List String) :
    Shape (t.applyRemovals folderId folder.account removed) := by
  obtain ⟨hs, -, hheld⟩ := applyRemovals_statements h ho.hasFolder removed
  exact ⟨hs.linked h.toLinked, hheld⟩

theorem applyRemovals_stored_iff (h : Shape t) (ho : t.Opened folder folderId)
    {removed : List String} {identity : String} :
    ((t.applyRemovals folderId folder.account removed).values? folder.account.asStr
      identity).isSome ↔
      HeldAfterRemovals t folder removed identity := by
  rw [Tables.values?, Option.isSome_map, (applyRemovals_shape h ho removed).stored_iff]
  refine exists_congr fun fo => ?_
  rw [applyRemovals_holds ho]
  simp

/-- The flags a batch reports of the account's messages, in the order it writes them. -/
def reportedFlags (batch : FolderBatch) : List (String × MessageFlags) :=
  batch.flagStates ++ (batch.arrived.map fun m => (m.identity, m.flags)) ++ batch.knownArrived

theorem reported_server {batch : FolderBatch} {identity : String} {v : Option FlagValues}
    {v' : FlagValues} (hv : reported batch identity v = some v') :
    some v'.server = (latest identity (reportedFlags batch)).or (v.map FlagValues.server) := by
  rw [reported, Option.map_eq_some_iff] at hv
  obtain ⟨w, hw, rfl⟩ := hv
  rw [reportedFlags, latest_append, latest_append]
  cases latest identity batch.knownArrived with
  | some flags => rfl
  | none =>
    cases ha : latest identity (batch.arrived.map fun m => (m.identity, m.flags)) with
    | some flags =>
      rw [ha] at hw
      cases hw
      rfl
    | none =>
      rw [ha] at hw
      obtain ⟨v, rfl, rfl⟩ := Option.map_eq_some_iff.mp hw
      cases latest identity batch.flagStates <;> rfl

/-- What a stored batch makes of a store. -/
structure Effect (t u : Tables) (folder : FolderRef) (batch : FolderBatch) : Prop where
  /-- The folder holds what it held without the removed, what arrived, and what the account still
  held. -/
  holds : ∀ identity, u.Holds folder.account.asStr folder.identity identity ↔
    (t.Holds folder.account.asStr folder.identity identity ∧ identity ∉ batch.removed) ∨
      identity ∈ batch.arrived.map Message.identity ∨
        identity ∈ batch.knownArrived.map Prod.fst ∧
        HeldAfterRemovals t folder batch.removed identity
  /-- Every other folder holds what it held. -/
  others : ∀ account fo, (account, fo) ≠ (folder.account.asStr, folder.identity) → ∀ identity,
    u.Holds account fo identity ↔ t.Holds account fo identity
  /-- A message is stored exactly when some folder of the account holds it. -/
  stored : ∀ account identity, (u.message? account identity).isSome ↔
    ∃ fo, u.Holds account fo identity
  /-- A stored message has the server flags of the last report that names it, else those it had. -/
  flags : ∀ identity v, u.values? folder.account.asStr identity = some v →
    some v.server = (latest identity (reportedFlags batch)).or
      ((t.values? folder.account.asStr identity).map FlagValues.server)
  /-- Another account's messages have the flags they had. -/
  otherFlags : ∀ account, account ≠ folder.account.asStr →
    ∀ identity, u.values? account identity = t.values? account identity
  /-- The folder's state is the batch's when it carries one. -/
  state : u.state? folder = batch.state.or (t.state? folder)
  /-- Every other folder's state is as it was. -/
  otherStates : ∀ other : FolderRef, other ≠ folder → u.state? other = t.state? other

/-- An account's messages are those of its part of the tables. -/
theorem message_of_part (h : Linked t) (account identity : String) :
    (t.part account).message? account identity = t.message? account identity := by
  refine (h.messageKeys.lookup_filter _).trans ?_
  cases hrow : t.message? account identity with
  | none =>
    rw [Tables.message?] at hrow
    rw [hrow]
    rfl
  | some row =>
    have haccount : row.account = account := congrArg Prod.fst (key_of_lookup hrow)
    rw [Tables.message?] at hrow
    rw [hrow, Option.filter_some, if_pos (decide_eq_true haccount)]

theorem FolderRef.eq_of_key {a b : FolderRef}
    (h : (a.account.asStr, a.identity) = (b.account.asStr, b.identity)) : a = b := by
  obtain ⟨⟨a, ha⟩, i⟩ := a
  obtain ⟨⟨b, hb⟩, j⟩ := b
  obtain ⟨rfl, rfl⟩ := Prod.mk.inj h
  rfl

theorem applyBatch_otherState (h : Shape t) (ho : t.Opened folder folderId) (batch : FolderBatch)
    {other : FolderRef} (hother : other ≠ folder) :
    (t.applyBatch folderId folder.account batch).state? other = t.state? other := by
  rw [applyBatch_eq]
  have hmail : (t.applyMail folderId folder.account batch).state? other = t.state? other :=
    state_eq_of_folders (applyMail_folders t ho h batch)
  cases batch.state with
  | none => exact hmail
  | some state =>
    rw [← hmail]
    have ho' := opened_afterMail h ho batch
    obtain ⟨f, hf, rfl, hfk⟩ := ho'.row
    simp only [Tables.state?, writeFolderState_folder ho'.linked hf, Option.map_map]
    refine Option.map_congr fun row hrow => ?_
    have hkey : row.key = (other.account.asStr, other.identity) := key_of_lookup hrow
    rw [Function.comp_apply, if_neg]
    exact fun heq => hother (FolderRef.eq_of_key (hkey.symm.trans (heq.trans hfk)))

/-- **The exact effect of one batch**: in every reachable store, a batch that was stored had
exactly its effect, and one that was not, because the load was cancelled or the store
failed, left the store as it was. -/
theorem storeBatch_effect (calls : List (StoreCall × Circumstances)) (folder : FolderRef)
    (batch : FolderBatch) (met : Circumstances) :
    ((call (run .empty calls) (.storeBatch folder batch) met).1 = .ok .stored →
        Effect (run .empty calls) (call (run .empty calls) (.storeBatch folder batch) met).2
          folder batch) ∧
      ((call (run .empty calls) (.storeBatch folder batch) met).1 ≠ .ok .stored →
        (call (run .empty calls) (.storeBatch folder batch) met).2 = run .empty calls) := by
  have h : Shape (run .empty calls) := run_shape shape_empty calls
  have h' : Shape (call (run .empty calls) (.storeBatch folder batch) met).2 := call_shape h _ met
  rcases storeBatch_spec h.toLinked batch met with ⟨folderId, ho, -, hspec⟩ | ⟨hsame, hne⟩
  · refine ⟨fun _ => ?_, fun hne => absurd (congrArg Prod.fst hspec) hne⟩
    have hpart : ∀ other, other ≠ folder.account.asStr →
        (call (run .empty calls) (.storeBatch folder batch) met).2.part other =
          (run .empty calls).part other :=
      fun other => call_part h rfl met
    rw [hspec] at h' hpart ⊢
    refine ⟨fun identity => ?_, fun account fo hfo identity => ?_, fun account identity =>
      h'.stored_iff,
      fun identity v hv => ?_, fun account hacc identity => ?_, applyBatch_state h ho batch,
        fun other hother => ?_⟩
    · rw [applyBatch_holds h ho, applyMail_holds h ho, applyRemovals_stored_iff h ho]
      simp
    · rw [applyBatch_holds h ho, applyMail_holds h ho]
      simp [hfo]
    · rw [applyBatch_values, applyMail_values h ho] at hv
      rw [reported_server hv]
      cases hl : latest identity (reportedFlags batch) with
      | some flags => rfl
      | none =>
        -- No report names the message, so it stayed stored through the removals.
        have hsome := reported_server hv
        rw [hl, Option.none_or] at hsome
        obtain ⟨v', hv', -⟩ := Option.map_eq_some_iff.mp hsome.symm
        rw [hv', applyRemovals_values ho batch.removed hv']
    · rw [Tables.values?, Tables.values?, ← message_of_part h'.toLinked,
        ← message_of_part h.toLinked, hpart account hacc]
    · exact applyBatch_otherState h ho batch hother
  · exact ⟨fun hstored => absurd hstored hne, fun _ => hsame⟩

/-- A message in two folders of an account. -/
def inTwoFolders : List (StoreCall × Circumstances) :=
  let account : AccountId := ⟨"account", account_ne_empty⟩
  let message : Message := ⟨"graph:1", ⟨none, none, none⟩, none, false, false, .notDownloaded, ""⟩
  [(.replaceFolders account [⟨"INBOX", "INBOX", none, none, true⟩,
    ⟨"Archive", "Archive", none, none, true⟩], ⟨false, none⟩),
    (.storeBatch ⟨account, "INBOX"⟩ { FolderBatch.default with arrived := [message] },
      ⟨false, none⟩),
    (.storeBatch ⟨account, "Archive"⟩ { FolderBatch.default with arrived := [message] },
      ⟨false, none⟩)]

/-- Removed from one folder and known there in one batch, the message stays with the last flags. -/
theorem storeBatch_effect_inTwoFolders :
    let account : AccountId := ⟨"account", by decide⟩
    let batch : FolderBatch :=
      { FolderBatch.default with
        removed := ["graph:1"]
        flagStates := [("graph:1", ⟨false, true⟩)]
        knownArrived := [("graph:1", ⟨true, false⟩)] }
    Effect (run .empty inTwoFolders)
      (call (run .empty inTwoFolders) (.storeBatch ⟨account, "INBOX"⟩ batch) ⟨false, none⟩).2
        ⟨account, "INBOX"⟩ batch ∧
      (call (run .empty inTwoFolders) (.storeBatch ⟨account, "INBOX"⟩ batch)
        ⟨false, none⟩).2.heldFlags
        ⟨account, "INBOX"⟩ "graph:1" = some ⟨true, false⟩ :=
  ⟨(storeBatch_effect inTwoFolders _ _ _).1 (by decide), by decide⟩

end Mailbag.Store
