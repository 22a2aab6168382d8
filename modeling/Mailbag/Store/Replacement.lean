import Mailbag.Store.BatchEffect
import Mailbag.Store.Wishes

/-!
# The exact effect of one folder list

A completed folder list replaces the account's folders in one transaction: the unlisted
ones are deleted with their memberships and the messages then in no folder, the listed
ones are updated or inserted. What the three statements come to is said here together,
and with it which state a folder has after any operations.

## What is proved

* `deleteUnlistedFolders_eq` — the deletions one by one are one deletion.
* `run_state` — a folder's state after any operations is the last one written since the
  folder was last inserted.
* `replaceFolders_effect` — the effect of a stored folder list, and the state a cycle reads.
-/

namespace Mailbag.Store

open Collections

variable {t : Tables} {account : AccountId}

/-- What a folder list says of a row's folder. -/
def StoredFolder.listing (row : StoredFolder) : Folder :=
  ⟨row.identity, row.name, row.parent, row.role, row.selectable⟩

/-- What a folder list says last of an identity. -/
def lastListing (identity : String) (folders : List Folder) : Option Folder :=
  latest identity (folders.map fun folder => (folder.identity, folder))

/-- The row's folder is not in the account's folder list. -/
def unlisted (account : AccountId) (listed : List Folder) (row : StoredFolder) : Bool :=
  row.account = account.asStr && !decide (row.identity ∈ listed.map Folder.identity)

/-! ### The folders deleted -/

theorem deleteFoldersWhere_congr {p q : StoredFolder → Bool}
    (h : ∀ row ∈ t.folders, p row = q row) : t.deleteFoldersWhere p = t.deleteFoldersWhere q := by
  have hany : ∀ m : Membership,
      (t.folders.any fun row => p row && row.id == m.folder) = t.folders.any fun row => q row &&
        row.id == m.folder := by
    intro m
    rw [Bool.eq_iff_iff, List.any_eq_true, List.any_eq_true]
    constructor
    · rintro ⟨row, hrow, hp⟩
      exact ⟨row, hrow, h row hrow ▸ hp⟩
    · rintro ⟨row, hrow, hq⟩
      exact ⟨row, hrow, (h row hrow).symm ▸ hq⟩
  rw [Tables.deleteFoldersWhere, Tables.deleteFoldersWhere]
  simp only [hany]
  rw [List.filter_congr fun row hrow => by rw [h row hrow]]

theorem deleteFoldersWhere_none (t : Tables) : (t.deleteFoldersWhere fun _ => false) = t := by
  have hany : (t.folders.any fun _ => false) = false :=
    List.any_eq_false.mpr fun _ _ => Bool.false_ne_true
  simp [Tables.deleteFoldersWhere, hany]

theorem deleteFoldersWhere_or (t : Tables) (p q : StoredFolder → Bool) :
    (t.deleteFoldersWhere p).deleteFoldersWhere q = t.deleteFoldersWhere fun row => p row ||
      q row := by
  simp only [Tables.deleteFoldersWhere, List.filter_filter]
  congr 1
  · refine List.filter_congr fun row _ => ?_
    cases p row <;> cases q row <;> rfl
  · refine List.filter_congr fun m _ => ?_
    rw [Bool.eq_iff_iff]
    simp only [Bool.and_eq_true, Bool.not_eq_true', List.any_eq_false, List.mem_filter,
      Bool.or_eq_true, beq_iff_eq]
    constructor
    · rintro ⟨hq, hp⟩ row hrow ⟨hpq, hid⟩
      rcases hpq with hpr | hqr
      · exact hp row hrow ⟨hpr, hid⟩
      · by_cases hpr : p row = true
        · exact hp row hrow ⟨hpr, hid⟩
        · exact hq row ⟨hrow, by simpa using hpr⟩ ⟨hqr, hid⟩
    · intro hpq
      exact ⟨fun row hrow hq => hpq row hrow.1 ⟨.inr hq.1, hq.2⟩, fun row hrow hp => hpq row hrow
        ⟨.inl hp.1, hp.2⟩⟩

/-- **The unlisted folders are deleted together**, although one by one. -/
theorem deleteUnlistedFolders_eq (h : Linked t) (account : AccountId) (listed : List Folder) :
    t.deleteUnlistedFolders account listed = t.deleteFoldersWhere (unlisted account listed) := by
  have hfold : ∀ (rows : List StoredFolder) (u : Tables),
      rows.foldl (fun t row =>
          if row.identity ∈ listed.map Folder.identity then t
            else t.deleteFoldersWhere fun r => r.id = row.id) u =
        u.deleteFoldersWhere fun r => rows.any fun row =>
          !decide (row.identity ∈ listed.map Folder.identity) && decide (r.id = row.id) := by
    intro rows
    induction rows with
    | nil => exact fun u => (deleteFoldersWhere_none u).symm
    | cons row rows ih =>
      intro u
      rw [List.foldl_cons, ih]
      split
      · rename_i hlisted
        refine deleteFoldersWhere_congr fun r _ => ?_
        rw [List.any_cons, decide_eq_true hlisted, Bool.not_true, Bool.false_and, Bool.false_or]
      · rename_i hlisted
        rw [deleteFoldersWhere_or]
        refine deleteFoldersWhere_congr fun r _ => ?_
        rw [List.any_cons, decide_eq_false hlisted, Bool.not_false, Bool.true_and]
  rw [Tables.deleteUnlistedFolders, hfold]
  refine deleteFoldersWhere_congr fun r hr => ?_
  rw [Bool.eq_iff_iff, List.any_eq_true]
  simp only [unlisted, List.mem_filter, Bool.and_eq_true, decide_eq_true_eq]
  constructor
  · rintro ⟨row, ⟨hrow, hacc⟩, hnot, hid⟩
    obtain rfl := h.folderIds.eq_of_key hr hrow hid
    exact ⟨hacc, hnot⟩
  · rintro ⟨hacc, hnot⟩
    exact ⟨r, ⟨hr, hacc⟩, hnot, rfl⟩

theorem deleteFoldersWhere_folder (h : Linked t) (p : StoredFolder → Bool)
    (account identity : String) :
    (t.deleteFoldersWhere p).folder? account identity = (t.folder? account identity).filter
      fun row => !p row :=
  h.folderKeys.lookup_filter _

theorem deleteFoldersWhere_holds (h : Linked t) (p : StoredFolder → Bool)
    (account folder identity : String) :
    (t.deleteFoldersWhere p).Holds account folder identity ↔
      t.Holds account folder identity ∧ ∀ row, t.folder? account folder = some row →
      p row = false := by
  have hmessage : (t.deleteFoldersWhere p).message? = t.message? := rfl
  simp only [Tables.Holds, deleteFoldersWhere_folder h, hmessage, Option.filter_eq_some_iff]
  constructor
  · rintro ⟨f, g, ⟨hf, hp⟩, hg, hm⟩
    refine ⟨⟨f, g, hf, hg, (List.mem_filter.mp hm).1⟩, fun row hrow => ?_⟩
    cases hf.symm.trans hrow
    simpa using hp
  · rintro ⟨⟨f, g, hf, hg, hm⟩, hkept⟩
    refine ⟨f, g, ⟨hf, by simpa using hkept f hf⟩, hg, List.mem_filter.mpr ⟨hm, ?_⟩⟩
    rw [Bool.not_eq_true', List.any_eq_false]
    intro row hrow hp
    simp only [Bool.and_eq_true, beq_iff_eq] at hp
    rw [h.folderIds.eq_of_key hrow (mem_of_lookup hf) hp.2, hkept f hf] at hp
    exact Bool.false_ne_true hp.1

/-! ### The folders updated and inserted -/

theorem upsertFolder_folder (t : Tables) (a : AccountId) (folder : Folder)
    (account identity : String) :
    (t.upsertFolder a folder).folder? account identity =
      if (account, identity) = (a.asStr, folder.identity) then
        some ((t.folder? account identity).elim
          (StoredFolder.insert (nextId (t.folders.map StoredFolder.id)) a folder)
          fun row => row.relisted folder)
      else t.folder? account identity := by
  rw [Tables.upsertFolder]
  cases hm : t.folder? a.asStr folder.identity with
  | some row =>
    refine (lookup_update (f := fun row : StoredFolder => row.relisted folder) (fun _ => rfl)
      _).trans ?_
    split
    · rename_i hkey
      obtain ⟨rfl, rfl⟩ := Prod.mk.inj hkey
      rw [Tables.folder?] at hm
      rw [Tables.folder?, hm]
      rfl
    · rfl
  | none =>
    have hnew : ∀ row ∈ t.folders, row.key ≠ (a.asStr, folder.identity) := lookup_eq_none_iff.mp hm
    refine (lookup_append_one hnew).trans ?_
    split
    · rename_i hkey
      obtain ⟨rfl, rfl⟩ := Prod.mk.inj
        (show (account, identity) = (a.asStr, folder.identity) from hkey)
      rw [hm]
      exact (if_pos rfl).symm
    · rename_i hkey
      exact (if_neg hkey).symm

theorem upsertFolder_memberships (t : Tables) (a : AccountId) (folder : Folder) :
    (t.upsertFolder a folder).memberships = t.memberships := by
  rw [Tables.upsertFolder]
  split <;> rfl

/-- A listed folder moves no message: a new row has an identifier no membership has. -/
theorem upsertFolder_holds (h : Linked t) (a : AccountId) (folder : Folder)
    (account fo identity : String) :
    (t.upsertFolder a folder).Holds account fo identity ↔ t.Holds account fo identity := by
  have hmessage : (t.upsertFolder a folder).message? account identity =
      t.message? account identity :=
    congrArg (fun messages => lookup StoredMessage.key messages _)
      (upsertFolders_messages t a [folder])
  simp only [Tables.Holds, upsertFolder_folder, hmessage, upsertFolder_memberships]
  split
  · constructor
    · rintro ⟨f, g, hf, hg, hm⟩
      cases hrow : t.folder? account fo with
      | some row =>
        rw [hrow] at hf
        cases hf
        exact ⟨row, g, rfl, hg, hm⟩
      | none =>
        rw [hrow] at hf
        cases hf
        obtain ⟨other, hother, _, _, hid, -⟩ := h.joins _ hm
        exact absurd hid (lt_nextId (List.mem_map_of_mem hother)).ne
    · rintro ⟨f, g, hf, hg, hm⟩
      exact ⟨f.relisted folder, g, by rw [hf]; rfl, hg, hm⟩
  · rfl

theorem upsertFolders_holds (h : Linked t) (a : AccountId) (folders : List Folder)
    (account fo identity : String) :
    (t.upsertFolders a folders).Holds account fo identity ↔ t.Holds account fo identity := by
  induction folders generalizing t with
  | nil => rfl
  | cons folder folders ih =>
    exact (ih ((upsertFolder_tidy t a folder).statements.linked h)).trans
      (upsertFolder_holds h a folder _ _ _)

theorem upsertFolders_listing (t : Tables) (a : AccountId) (folders : List Folder)
    (identity : String) :
    ((t.upsertFolders a folders).folder? a.asStr identity).map StoredFolder.listing =
      (lastListing identity folders).or
      ((t.folder? a.asStr identity).map StoredFolder.listing) := by
  induction folders generalizing t with
  | nil => rfl
  | cons folder folders ih =>
    refine (ih _).trans ?_
    rw [lastListing, lastListing, List.map_cons, latest, Option.or_assoc, upsertFolder_folder]
    congr 1
    by_cases hi : identity = folder.identity
    · subst hi
      rw [if_pos rfl, if_pos rfl]
      cases hrow : t.folder? a.asStr folder.identity with
      | none => rfl
      | some row =>
        have hkey : row.identity = folder.identity := congrArg Prod.snd (key_of_lookup hrow)
        simp [StoredFolder.listing, StoredFolder.relisted, hkey]
    · rw [if_neg fun hkey => hi (Prod.mk.inj hkey).2, if_neg fun hkey => hi hkey.symm,
        Option.none_or]

/-- A folder listed keeps its state, and a new one was never synchronized. -/
theorem upsertFolders_state (t : Tables) (a : AccountId) (folders : List Folder)
    (folder : FolderRef) :
    (t.upsertFolders a folders).state? folder =
      if a = folder.account ∧ folder.identity ∈ folders.map Folder.identity then
        some ((t.state? folder).getD .default)
      else t.state? folder := by
  induction folders generalizing t with
  | nil => simp [Tables.upsertFolders]
  | cons listed folders ih =>
    refine (ih _).trans ?_
    have hone : (t.upsertFolder a listed).state? folder =
        if a = folder.account ∧ folder.identity = listed.identity then
          some ((t.state? folder).getD .default)
        else t.state? folder := by
      rw [Tables.state?, upsertFolder_folder]
      by_cases hkey : a = folder.account ∧ folder.identity = listed.identity
      · rw [if_pos hkey, if_pos (by rw [hkey.1, hkey.2]), Tables.state?]
        cases t.folder? folder.account.asStr folder.identity <;> rfl
      · rw [if_neg hkey, if_neg, Tables.state?]
        intro heq
        obtain ⟨hacc, hid⟩ := Prod.mk.inj heq
        exact hkey ⟨AccountId.asStr_injective hacc.symm, hid⟩
    rw [hone]
    by_cases ha : a = folder.account
    · by_cases hi : folder.identity = listed.identity <;> simp [ha, hi]
    · simp [ha]

/-! ### The folder list -/

/-- What a stored folder list makes of a store. -/
structure Replaced (t u : Tables) (account : AccountId) (listed : List Folder) : Prop where
  /-- No account has two folders or two messages of one identity. -/
  linked : Linked u
  /-- The account's folders are the listed identities, each as its last listing says. -/
  folders : ∀ identity, (u.folder? account.asStr identity).map StoredFolder.listing =
    lastListing identity listed
  /-- A folder listed before keeps its state, and a new one was never synchronized. -/
  states : ∀ identity ∈ listed.map Folder.identity,
    u.state? ⟨account, identity⟩ = some ((t.state? ⟨account, identity⟩).getD .default)
  /-- A listed folder holds what it held, and no other holds anything. -/
  holds : ∀ fo identity, u.Holds account.asStr fo identity ↔
    t.Holds account.asStr fo identity ∧ fo ∈ listed.map Folder.identity
  /-- The messages left are those a listed folder holds, each with the whole row it had. -/
  messages : ∀ identity row, u.message? account.asStr identity = some row ↔
    t.message? account.asStr identity = some row ∧
    ∃ fo ∈ listed.map Folder.identity, t.Holds account.asStr fo identity
  /-- The rows of the other accounts are as they were. -/
  others : ∀ other, other ≠ account.asStr → u.part other = t.part other

theorem mem_identities_iff {identity : String} {folders : List Folder} :
    identity ∈ folders.map Folder.identity ↔ (lastListing identity folders).isSome := by
  rw [lastListing, latest_isSome_iff, List.map_map]
  rfl

theorem unlisted_eq_false {row : StoredFolder} {identity : String} {listed : List Folder}
    (hrow : t.folder? account.asStr identity = some row) :
    unlisted account listed row = false ↔ identity ∈ listed.map Folder.identity := by
  have hkey : row.key = (account.asStr, identity) := key_of_lookup hrow
  have hacc : row.account = account.asStr := congrArg Prod.fst hkey
  have hid : row.identity = identity := congrArg Prod.snd hkey
  simp [unlisted, hacc, hid]

/-- The rows of the folders before the listed ones are updated and inserted. -/
theorem afterDeletions_folder (h : Linked t) (account : AccountId) (listed : List Folder)
    (identity : String) :
    ((t.deleteUnlistedFolders account listed).deleteMessagesWithoutFolder account).folder?
    account.asStr identity =
      if identity ∈ listed.map Folder.identity then t.folder? account.asStr identity else none := by
  show (t.deleteUnlistedFolders account listed).folder? account.asStr identity = _
  rw [deleteUnlistedFolders_eq h, deleteFoldersWhere_folder h]
  cases hrow : t.folder? account.asStr identity with
  | none => simp
  | some row =>
    rw [Option.filter_some]
    exact if_congr ((Bool.not_eq_true' _).to_iff.trans (unlisted_eq_false hrow)) rfl rfl

/-- **The effect of a folder list.** -/
theorem replaceFolders_replaced (h : Shape t) (account : AccountId) (folders : List Folder) :
    Replaced t (t.replaceFolders account folders) account folders := by
  obtain ⟨hs, hheld⟩ := replaceFolders_statements h account folders
  have hshape : Shape (t.replaceFolders account folders) := ⟨hs.linked h.toLinked, hheld⟩
  have hdeleted : Linked (t.deleteUnlistedFolders account folders) :=
    (deleteUnlistedFolders_statements h.toLinked folders).linked h.toLinked
  have hmiddle : Linked ((t.deleteUnlistedFolders account folders).deleteMessagesWithoutFolder
      account) :=
    hdeleted.deleteMessagesWhere _
  have hholds : ∀ fo identity, (t.replaceFolders account folders).Holds account.asStr fo identity ↔
      t.Holds account.asStr fo identity ∧ fo ∈ folders.map Folder.identity := by
    intro fo identity
    rw [Tables.replaceFolders, upsertFolders_holds hmiddle,
      deleteMessagesWithoutFolder_holds hdeleted, deleteUnlistedFolders_eq h.toLinked,
      deleteFoldersWhere_holds h.toLinked]
    refine and_congr_right fun hheld => ?_
    obtain ⟨f, _, hf, -⟩ := hheld
    have hlisted : unlisted account folders f = false ↔ fo ∈ folders.map Folder.identity :=
      unlisted_eq_false hf
    rw [← hlisted, hf]
    simp
  refine ⟨hshape.toLinked, fun identity => ?_, fun identity hlisted => ?_, hholds,
    fun identity row => ?_,
    fun other hother => hs.part h.toLinked hother⟩
  · rw [Tables.replaceFolders, upsertFolders_listing, afterDeletions_folder h.toLinked]
    split
    · rename_i hlisted
      obtain ⟨folder, hfolder⟩ := Option.isSome_iff_exists.mp (mem_identities_iff.mp hlisted)
      rw [hfolder, Option.some_or]
    · rw [Option.map_none, Option.or_none]
  · rw [Tables.replaceFolders, upsertFolders_state, if_pos ⟨rfl, hlisted⟩, Tables.state?,
      Tables.state?, afterDeletions_folder h.toLinked, if_pos hlisted]
  · constructor
    · intro hrow
      obtain ⟨fo, hfo⟩ := hshape.stored_iff.mp (Option.isSome_of_eq_some hrow)
      obtain ⟨hheld, hlisted⟩ := (hholds fo identity).mp hfo
      exact ⟨replaceFolders_message h.toLinked account folders hrow, fo, hlisted, hheld⟩
    · rintro ⟨hrow, fo, hlisted, hheld⟩
      have hstored := hshape.stored_iff.mpr ⟨fo, (hholds fo identity).mpr ⟨hheld, hlisted⟩⟩
      obtain ⟨kept, hkept⟩ := Option.isSome_iff_exists.mp hstored
      rw [hkept, ← hrow, replaceFolders_message h.toLinked account folders hkept]

/-! ### The state a folder has -/

/-- A folder's state after an operation, from the one before; none of a folder not stored. -/
def stateAfter (c : StoreCall × Circumstances) (folder : FolderRef)
    (state : Option FolderState) : Option FolderState :=
  match c.1 with
  | .replaceFolders account folders =>
    if c.2 = ⟨false, none⟩ ∧ account = folder.account then
      if folder.identity ∈ folders.map Folder.identity then some (state.getD .default) else none
    else state
  | .storeBatch other batch =>
    if c.2 = ⟨false, none⟩ ∧ other = folder then state.map fun state => batch.state.getD state
      else state
  | .deleteOtherAccounts current =>
    if c.2.fault = none ∧ folder.account ∉ current then none else state
  | _ => state

/-- A folder's state through operations one after another, from an empty store. -/
def lastState (folder : FolderRef) (calls : List (StoreCall × Circumstances)) :
    Option FolderState :=
  calls.foldl (fun state c => stateAfter c folder state) none

theorem folder_of_part (h : Linked t) (account identity : String) :
    (t.part account).folder? account identity = t.folder? account identity := by
  refine (h.folderKeys.lookup_filter _).trans ?_
  cases hrow : t.folder? account identity with
  | none =>
    rw [Tables.folder?] at hrow
    rw [hrow]
    rfl
  | some row =>
    have haccount : row.account = account := congrArg Prod.fst (key_of_lookup hrow)
    rw [Tables.folder?] at hrow
    rw [hrow, Option.filter_some, if_pos (decide_eq_true haccount)]

theorem state_of_part {u : Tables} (h : Linked t) (hu : Linked u) {folder : FolderRef}
    (hsame : u.part folder.account.asStr = t.part folder.account.asStr) :
    u.state? folder = t.state? folder := by
  rw [Tables.state?, Tables.state?, ← folder_of_part hu, ← folder_of_part h, hsame]

/-- A stored folder list: the state is kept, starts anew or is gone. -/
theorem replaceFolders_state (h : Shape t) (account : AccountId) (folders : List Folder)
    (folder : FolderRef) :
    (t.replaceFolders account folders).state? folder =
      stateAfter (.replaceFolders account folders, ⟨false, none⟩) folder (t.state? folder) := by
  have hreplaced := replaceFolders_replaced h account folders
  simp only [stateAfter]
  by_cases ha : account = folder.account
  · subst ha
    simp only [and_self, if_true]
    split
    · rename_i hlisted
      exact hreplaced.states folder.identity hlisted
    · rename_i hlisted
      have hnone := hreplaced.folders folder.identity
      rw [mem_identities_iff, Option.not_isSome_iff_eq_none] at hlisted
      rw [hlisted, Option.map_eq_none_iff] at hnone
      rw [Tables.state?, hnone, Option.map_none]
  · simp only [ha, and_false, if_false]
    exact state_of_part h.toLinked hreplaced.linked
      (hreplaced.others _ fun heq => ha (AccountId.asStr_injective heq).symm)

/-- A batch: the state is the one it carries, if any. -/
theorem storeBatch_state (h : Shape t) (other : FolderRef) (batch : FolderBatch)
    (met : Circumstances) (folder : FolderRef) :
    (call t (.storeBatch other batch) met).2.state? folder =
      stateAfter (.storeBatch other batch, met) folder (t.state? folder) := by
  simp only [stateAfter]
  rcases storeBatch_spec h.toLinked batch met with ⟨folderId, ho, rfl, hspec⟩ | ⟨hsame, hne⟩
  · rw [hspec]
    by_cases hother : other = folder
    · subst hother
      obtain ⟨f, -, -, hrow⟩ := ho.found
      rw [applyBatch_state h ho, Tables.state?, hrow]
      cases hstate : batch.state <;> simp
    · simp only [hother, and_false, if_false]
      exact applyBatch_otherState h ho batch (Ne.symm hother)
  · rw [hsame]
    split
    · rename_i hstored
      obtain ⟨rfl, rfl⟩ := hstored
      -- Nothing failed and nothing was cancelled, so the folder is not stored.
      cases hid : t.storedFolderId other with
      | some folderId =>
        refine absurd ?_ hne
        simp [call, perform, hid, Except.mapError]
      | none =>
        rw [Tables.storedFolderId, Option.map_eq_none_iff] at hid
        rw [Tables.state?, hid]
        rfl
    · rfl

theorem deleteOtherAccounts_state (h : Shape t) (current : List AccountId)
    (folder : FolderRef) :
    (t.deleteOtherAccounts current).state? folder = if folder.account ∉ current then none
      else t.state? folder := by
  obtain ⟨hshape, hkept, hgone⟩ := deleteOtherAccounts_spec h current
  split
  · rename_i hcur
    have hempty := hgone folder.account.asStr fun account hacc heq =>
      hcur (by rwa [← AccountId.asStr_injective heq])
    rw [Tables.state?, ← folder_of_part hshape.toLinked, hempty]
    rfl
  · rename_i hcur
    exact state_of_part h.toLinked hshape.toLinked (hkept _ (not_not.mp hcur))

/-- **One operation**: the state is the one it writes, keeps or starts. -/
theorem call_state (h : Shape t) (c : StoreCall × Circumstances) (folder : FolderRef) :
    (call t c.1 c.2).2.state? folder = stateAfter c folder (t.state? folder) := by
  obtain ⟨op, met⟩ := c
  by_cases hmoves : op.Moves
  · cases op with
    | replaceFolders account folders =>
      obtain ⟨cancelled, fault⟩ := met
      cases fault with
      | some error => simp [call, stateAfter]
      | none =>
        cases cancelled with
        | true => simp [call, perform, stateAfter]
        | false => exact replaceFolders_state h account folders folder
    | storeBatch other batch => exact storeBatch_state h other batch met folder
    | deleteOtherAccounts current =>
      obtain ⟨cancelled, fault⟩ := met
      cases fault with
      | some error => simp [call, stateAfter]
      | none =>
        refine (deleteOtherAccounts_state h current folder).trans ?_
        simp [stateAfter]
    | _ => exact absurd hmoves id
  · refine (state_eq_of_folders (call_stays hmoves t met).folders).trans ?_
    cases op with
    | replaceFolders => exact absurd trivial hmoves
    | storeBatch => exact absurd trivial hmoves
    | deleteOtherAccounts => exact absurd trivial hmoves
    | _ => rfl

/-- So after any operations. -/
theorem run_state (calls : List (StoreCall × Circumstances)) (folder : FolderRef) :
    (run .empty calls).state? folder = lastState folder calls := by
  have hrun : ∀ (calls : List (StoreCall × Circumstances)) (t : Tables), Shape t →
      (run t calls).state? folder = calls.foldl (fun state c => stateAfter c folder state)
        (t.state? folder) := by
    intro calls
    induction calls with
    | nil => exact fun _ _ => rfl
    | cons c calls ih =>
      intro t h
      refine (ih _ (call_shape h c.1 c.2)).trans ?_
      rw [List.foldl_cons, call_state h]
  exact hrun calls .empty shape_empty

/-- **Replacing the folder list**: in every reachable store, a folder list that was stored had
exactly its effect, and one that was not left the store as it was; and a cycle reads of a
folder the last state written since the folder was last inserted. -/
theorem replaceFolders_effect (calls : List (StoreCall × Circumstances)) :
    (∀ account folders met,
      ((call (run .empty calls) (.replaceFolders account folders) met).1 = .ok .stored →
        Replaced (run .empty calls)
          (call (run .empty calls) (.replaceFolders account folders) met).2 account folders) ∧
      ((call (run .empty calls) (.replaceFolders account folders) met).1 ≠ .ok .stored →
        (call (run .empty calls) (.replaceFolders account folders) met).2 = run .empty calls)) ∧
    ∀ folder cancelled,
      (call (run .empty calls) (.readFolderSync folder) ⟨cancelled, none⟩).1.map FolderSync.state =
        match lastState folder calls with
        | some state => .ok state
        | none => .error (storageFailure .write .noRows) := by
  have h : Shape (run .empty calls) := run_shape shape_empty calls
  refine ⟨fun account folders met => ?_, fun folder cancelled => ?_⟩
  · obtain ⟨cancelled, fault⟩ := met
    cases fault with
    | some error => exact ⟨nofun, fun _ => rfl⟩
    | none =>
      cases cancelled with
      | true => exact ⟨nofun, fun _ => rfl⟩
      | false =>
        exact ⟨fun _ => replaceFolders_replaced h account folders, fun hne => absurd rfl hne⟩
  · rw [← run_state]
    cases hrow : (run .empty calls).folder? folder.account.asStr folder.identity with
    | none =>
      simp [call, perform, Tables.readFolderSync, Tables.storedFolderId, Tables.state?, hrow,
        Except.map,
        Except.mapError, StoreCall.operation]
    | some row =>
      have hread := h.folderIds.lookup_of_mem (mem_of_lookup hrow)
      simp [call, perform, Tables.readFolderSync, Tables.storedFolderId, Tables.readFolderState,
        Tables.state?, hrow, hread, Except.map, Except.mapError]

/-- A folder with a state and a message, and one of another account. -/
def inboxAndOld : List (StoreCall × Circumstances) :=
  let account : AccountId := ⟨"account", account_ne_empty⟩
  let numbers : FolderNumbers := ⟨some 7, 1, none, some 18446744073709551615⟩
  let message : Message :=
    ⟨"imap:7:1", ⟨some "Plan", none, none⟩, none, false, false, .text "Tomorrow", ""⟩
  [(.replaceFolders account [⟨"INBOX", "INBOX", none, some .inbox, true⟩,
    ⟨"Old", "Old", none, none, true⟩], ⟨false, none⟩),
    (.storeBatch ⟨account, "INBOX"⟩
      { FolderBatch.default with
        arrived := [message]
        state := some ⟨none, none, true, some numbers⟩ }, ⟨false, none⟩),
    (.replaceFolders ⟨"other", other_ne_empty⟩ [⟨"INBOX", "INBOX", none, none, true⟩],
      ⟨false, none⟩)]

/-- A folder listed twice keeps its state through the list and has the last name; one no
longer listed is gone. -/
theorem replaceFolders_effect_inboxAndOld :
    let account : AccountId := ⟨"account", by decide⟩
    let folders : List Folder :=
      [⟨"INBOX", "Inbox", none, none, true⟩, ⟨"New", "New", none, none, true⟩,
      ⟨"INBOX", "Eingang", none, some .inbox, true⟩]
    let u := (call (run .empty inboxAndOld) (.replaceFolders account folders) ⟨false, none⟩).2
    Replaced (run .empty inboxAndOld) u account folders ∧
      (u.folder? "account" "INBOX").map StoredFolder.listing =
        some ⟨"INBOX", "Eingang", none, some .inbox, true⟩ ∧
      u.state? ⟨account, "INBOX"⟩ =
        some ⟨none, none, true, some ⟨some 7, 1, none, some 18446744073709551615⟩⟩ ∧
      u.state? ⟨account, "New"⟩ = some .default ∧ u.state? ⟨account, "Old"⟩ = none :=
  ⟨((replaceFolders_effect inboxAndOld).1 _ _ _).1 rfl, by decide, by decide, by decide,
    by decide⟩

end Mailbag.Store
