import Mailbag.Store.Shape

/-!
# What the statements do to the stored mail

The tables are read here as what they keep: the flags of each message an account has,
as the server reported them and as the user wants them (`Tables.values?`), which
messages a folder holds (`Tables.Holds`) with which server flags (`Tables.heldFlags`),
and the folder's saved state (`Tables.state?`). The lemmas say what each statement does
to them, and what going through a list of them does.
-/

namespace Mailbag.Store

open Collections

variable {account : AccountId} {folderId : ℕ} {t u : Tables}

/-- The flags of a message: as the server reported them, and as the user wants them. -/
structure FlagValues where
  /-- As the server last reported them. -/
  server : MessageFlags
  /-- The values the user wants and the server may not have yet. -/
  pending : MessageFlag → Option Bool

/-- The flags of a row. -/
def StoredMessage.values (row : StoredMessage) : FlagValues := ⟨row.flags, row.pending⟩

namespace Tables

/-- The flags of a message the account has. -/
def values? (t : Tables) (account identity : String) : Option FlagValues :=
  (t.message? account identity).map StoredMessage.values

/-- The folder holds the message. -/
def Holds (t : Tables) (account folder identity : String) : Prop :=
  ∃ f g, t.folder? account folder = some f ∧ t.message? account identity = some g ∧
    ⟨f.id, g.id⟩ ∈ t.memberships

instance (t : Tables) (account folder identity : String) :
    Decidable (t.Holds account folder identity) :=
  match hf : t.folder? account folder, hg : t.message? account identity with
  | some f, some g => decidable_of_iff (⟨f.id, g.id⟩ ∈ t.memberships) <| by
      constructor
      · exact fun h => ⟨f, g, hf, hg, h⟩
      · rintro ⟨f', g', hf', hg', h⟩
        cases hf.symm.trans hf'
        cases hg.symm.trans hg'
        exact h
  | none, _ => isFalse fun ⟨_, _, hf', _⟩ => by cases hf.symm.trans hf'
  | some _, none => isFalse fun ⟨_, _, _, hg', _⟩ => by cases hg.symm.trans hg'

/-- The server's flags of a message the folder holds. -/
def heldFlags (t : Tables) (folder : FolderRef) (identity : String) : Option MessageFlags :=
  if t.Holds folder.account.asStr folder.identity identity then
    (t.values? folder.account.asStr identity).map FlagValues.server
  else none

/-- The folder's saved state. -/
def state? (t : Tables) (folder : FolderRef) : Option FolderState :=
  (t.folder? folder.account.asStr folder.identity).map StoredFolder.state

theorem heldFlags_isSome_iff {t : Tables} {folder : FolderRef} {identity : String} :
    (t.heldFlags folder identity).isSome ↔
      t.Holds folder.account.asStr folder.identity identity := by
  rw [heldFlags]
  constructor
  · intro h
    split at h
    · assumption
    · cases h
  · intro h
    obtain ⟨_, g, _, hg, _⟩ := id h
    rw [if_pos h, values?, hg]
    rfl

end Tables

/-! ### One statement -/

@[simp] theorem updateMessage_message (t : Tables) (a : AccountId) (i : String)
    {f : StoredMessage → StoredMessage} (hkey : ∀ r, (f r).key = r.key)
    (account identity : String) :
    (t.updateMessage a.asStr i f).message? account identity =
      if (account, identity) = (a.asStr, i) then (t.message? account identity).map f
          else t.message? account identity :=
  lookup_update hkey _

theorem updateMessage_folder (t : Tables) (a : AccountId) (i : String)
    (f : StoredMessage → StoredMessage) : (t.updateMessage a.asStr i f).folder? = t.folder? := rfl

theorem updateMessage_holds (t : Tables) (a : AccountId) (i : String)
    {f : StoredMessage → StoredMessage} (hid : ∀ r, (f r).id = r.id) (hkey : ∀ r, (f r).key = r.key)
    (account folder identity : String) :
    (t.updateMessage a.asStr i f).Holds account folder identity ↔
      t.Holds account folder identity := by
  have hmem : (t.updateMessage a.asStr i f).memberships = t.memberships := rfl
  simp only [Tables.Holds, updateMessage_folder, updateMessage_message t a i hkey, hmem]
  split
  · simp only [Option.map_eq_some_iff]
    constructor
    · rintro ⟨fr, _, hf, ⟨g, hg, rfl⟩, hm⟩
      exact ⟨fr, g, hf, hg, hid g ▸ hm⟩
    · rintro ⟨fr, g, hf, hg, hm⟩
      exact ⟨fr, f g, hf, ⟨g, hg, rfl⟩, (hid g).symm ▸ hm⟩
  · rfl

/-- An update of message rows changes the flags as it changes those of a row. -/
theorem updateMessage_values (t : Tables) (a : AccountId) (i : String)
    {f : StoredMessage → StoredMessage} (hkey : ∀ r, (f r).key = r.key)
    {g : FlagValues → FlagValues} (hg : ∀ r, (f r).values = g r.values)
    (account identity : String) :
    (t.updateMessage a.asStr i f).values? account identity =
      if (account, identity) = (a.asStr, i) then (t.values? account identity).map g
          else t.values? account identity := by
  rw [Tables.values?, updateMessage_message t a i hkey]
  split
  · rw [Option.map_map, Tables.values?, Option.map_map]
    exact Option.map_congr fun r _ => hg r
  · rfl

/-- Flags reports: the last one for a message counts, and the pending values stay. -/
theorem setFlagStates_values (t : Tables) (a : AccountId)
    (flagStates : List (String × MessageFlags)) (account identity : String) :
    (t.setFlagStates a flagStates).values? account identity =
      (t.values? account identity).map fun v =>
        { v with server := (if account = a.asStr then latest identity flagStates
          else none).getD v.server } := by
  induction flagStates generalizing t with
  | nil => simp [Tables.setFlagStates]
  | cons entry flagStates ih =>
    have := ih (t.updateMessage a.asStr entry.1 fun row => row.withFlags entry.2)
    rw [Tables.setFlagStates] at *
    rw [List.foldl_cons, this,
      updateMessage_values t a entry.1 (f := fun row => row.withFlags entry.2)
        (g := fun v => { v with server := entry.2 }) (fun _ => rfl) fun _ => rfl]
    cases t.values? account identity with
    | none => simp
    | some v =>
      by_cases ha : account = a.asStr
      · by_cases hi : identity = entry.1
        · subst ha hi
          cases hl : latest entry.1 flagStates <;> simp [latest, hl]
        · have hi' : entry.1 ≠ identity := fun h => hi h.symm
          simp [ha, hi, latest, hi']
      · simp [ha]

/-- Flags reports move no message. -/
theorem setFlagStates_holds (t : Tables) (a : AccountId) (flagStates : List (String × MessageFlags))
    (account folder identity : String) :
    (t.setFlagStates a flagStates).Holds account folder identity ↔
      t.Holds account folder identity := by
  induction flagStates generalizing t with
  | nil => rfl
  | cons entry flagStates ih =>
    refine (ih _).trans ?_
    exact updateMessage_holds t a entry.1 (f := fun row => row.withFlags entry.2) (fun _ => rfl)
      (fun _ => rfl) _ _ _

theorem setFlagStates_folder (t : Tables) (a : AccountId)
    (flagStates : List (String × MessageFlags)) :
    (t.setFlagStates a flagStates).folders = t.folders := by
  induction flagStates generalizing t with
  | nil => rfl
  | cons entry flagStates ih => exact ih _

theorem upsertMessage_message (t : Tables) (a : AccountId) (message : Message)
    (account identity : String) :
    (t.upsertMessage a message).1.message? account identity =
      if (account, identity) = (a.asStr, message.identity) then
        some (match t.message? account identity with
          | some row => row.rewritten message
          | none => StoredMessage.insert (nextId (t.messages.map StoredMessage.id)) a message)
      else t.message? account identity := by
  rw [Tables.upsertMessage]
  cases hm : t.message? a.asStr message.identity with
  | some stored =>
    show (t.updateMessage a.asStr message.identity fun row => row.rewritten message).message?
      account identity = _
    rw [updateMessage_message t a message.identity (f := fun row => row.rewritten message)
      fun _ => rfl]
    split
    · rename_i hk
      obtain ⟨rfl, rfl⟩ := Prod.mk.inj hk
      rw [hm]
      rfl
    · rfl
  | none =>
    have hnew : ∀ r ∈ t.messages, r.key ≠
        (StoredMessage.insert (nextId (t.messages.map StoredMessage.id)) a message).key :=
          lookup_eq_none_iff.mp hm
    refine (lookup_append_one hnew).trans ?_
    by_cases hk : (account, identity) = (a.asStr, message.identity)
    · obtain ⟨rfl, rfl⟩ := Prod.mk.inj hk
      rw [hm, if_pos rfl]
      exact if_pos rfl
    · rw [if_neg hk]
      exact if_neg hk

/-- In linked tables, a folder holds a message when a membership joins their rows. -/
theorem Linked.holds_iff (h : Linked t) {account folder identity : String} :
    t.Holds account folder identity ↔ ∃ f ∈ t.folders, ∃ g ∈ t.messages, f.key = (account, folder) ∧
      g.key = (account, identity) ∧ ⟨f.id, g.id⟩ ∈ t.memberships := by
  constructor
  · rintro ⟨f, g, hf, hg, hm⟩
    exact ⟨f, mem_of_lookup hf, g, mem_of_lookup hg, key_of_lookup hf, key_of_lookup hg, hm⟩
  · rintro ⟨f, hf, g, hg, hfk, hgk, hm⟩
    exact ⟨f, g, h.folderKeys.lookup_eq_some_iff.mpr ⟨hf, hfk⟩, h.messageKeys.lookup_eq_some_iff.mpr
      ⟨hg, hgk⟩, hm⟩

/-- A full record moves no message before it is related. -/
theorem upsertMessage_holds (h : Linked t) (a : AccountId) (message : Message)
    (account folder identity : String) :
    (t.upsertMessage a message).1.Holds account folder identity ↔
      t.Holds account folder identity := by
  have h' := (upsertMessage_statement t a message).linked h
  rw [h'.holds_iff, h.holds_iff, upsertMessage_folders, upsertMessage_memberships]
  constructor
  · rintro ⟨f, hf, g, hg, hfk, hgk, hm⟩
    obtain ⟨f', hf', r, hr, hf'm, hrm, hacc⟩ := h.joins _ hm
    rw [Tables.upsertMessage] at hg
    cases hs : t.message? a.asStr message.identity with
    | some stored =>
      simp only [hs, Tables.updateMessage, List.mem_map] at hg
      obtain ⟨g, hg, rfl⟩ := hg
      refine ⟨f, hf, g, hg, hfk, ?_, ?_⟩
      · rw [← hgk]
        split <;> rfl
      · convert hm using 2
        split <;> rfl
    | none =>
      simp only [hs, List.mem_append, List.mem_singleton] at hg
      rcases hg with hg | rfl
      · exact ⟨f, hf, g, hg, hfk, hgk, hm⟩
      · -- nothing is related to a new row
        exact absurd hrm (lt_nextId (List.mem_map_of_mem hr)).ne
  · rintro ⟨f, hf, g, hg, hfk, hgk, hm⟩
    rw [Tables.upsertMessage]
    cases hs : t.message? a.asStr message.identity with
    | some stored =>
      refine ⟨f, hf, _, List.mem_map_of_mem hg, hfk, ?_, ?_⟩
      · rw [← hgk]
        split <;> rfl
      · convert hm using 2
        split <;> rfl
    | none => exact ⟨f, hf, g, List.mem_append_left _ hg, hfk, hgk, hm⟩

@[simp] theorem relate_message (t : Tables) (folderId messageId : ℕ) :
    (t.relate folderId messageId).message? = t.message? := by
  funext account identity
  rw [Tables.message?, relate_messages]
  rfl

theorem relate_holds (h : Linked t) {f : StoredFolder} {g : StoredMessage} (hf : f ∈ t.folders)
    (hg : g ∈ t.messages) (hacc : f.account = g.account) (account folder identity : String) :
    (t.relate f.id g.id).Holds account folder identity ↔
      t.Holds account folder identity ∨ f.key = (account, folder) ∧
      g.key = (account, identity) := by
  rw [(h.relate hf hg hacc).holds_iff, h.holds_iff]
  simp only [relate_folders, relate_messages, relate_memberships]
  constructor
  · rintro ⟨f', hf', g', hg', hfk, hgk, hm | hm⟩
    · exact .inl ⟨f', hf', g', hg', hfk, hgk, hm⟩
    · obtain ⟨hfid, hgid⟩ := Membership.mk.inj hm
      rw [h.folderIds.eq_of_key hf' hf hfid] at hfk
      rw [h.messageIds.eq_of_key hg' hg hgid] at hgk
      exact .inr ⟨hfk, hgk⟩
  · rintro (⟨f', hf', g', hg', hfk, hgk, hm⟩ | ⟨hfk, hgk⟩)
    · exact ⟨f', hf', g', hg', hfk, hgk, .inl hm⟩
    · exact ⟨f, hf, g, hg, hfk, hgk, .inr rfl⟩

theorem writeFolderState_folder (h : Linked t) {f : StoredFolder} (hf : f ∈ t.folders)
    (state : FolderState) (account folder : String) :
    (t.writeFolderState f.id state).folder? account folder =
      (t.folder? account folder).map fun row => if row.key = f.key then row.withState state
      else row := by
  refine (lookup_map fun r => ?_).trans (Option.map_congr fun r hr => ?_)
  · split <;> rfl
  · have hmem : r ∈ t.folders := mem_of_lookup hr
    by_cases hid : r.id = f.id
    · rw [if_pos hid, if_pos (congrArg StoredFolder.key (h.folderIds.eq_of_key hmem hf hid))]
    · rw [if_neg hid,
        if_neg fun hk => hid (congrArg StoredFolder.id (h.folderKeys.eq_of_key hmem hf hk))]

theorem writeFolderState_holds (h : Linked t) {f : StoredFolder} (hf : f ∈ t.folders)
    (state : FolderState) (account folder identity : String) :
    (t.writeFolderState f.id state).Holds account folder identity ↔
      t.Holds account folder identity := by
  have hmsg : (t.writeFolderState f.id state).message? = t.message? := rfl
  have hmem : (t.writeFolderState f.id state).memberships = t.memberships := rfl
  simp only [Tables.Holds, writeFolderState_folder h hf, hmsg, hmem, Option.map_eq_some_iff]
  constructor
  · rintro ⟨_, g, ⟨fr, hfr, rfl⟩, hg, hm⟩
    refine ⟨fr, g, hfr, hg, ?_⟩
    convert hm using 2
    split <;> rfl
  · rintro ⟨fr, g, hfr, hg, hm⟩
    refine ⟨_, g, ⟨fr, hfr, rfl⟩, hg, ?_⟩
    convert hm using 2
    split <;> rfl

/-! ### Removals -/

theorem deleteMemberships_messages (t : Tables) (folderId : ℕ) (a : AccountId)
    (removed : List String) : (t.deleteMemberships folderId a removed).messages = t.messages := by
  induction removed generalizing t with
  | nil => rfl
  | cons identity removed ih => exact ih _

theorem deleteMemberships_folders (t : Tables) (folderId : ℕ) (a : AccountId)
    (removed : List String) : (t.deleteMemberships folderId a removed).folders = t.folders := by
  induction removed generalizing t with
  | nil => rfl
  | cons identity removed ih => exact ih _

/-- The folder lets go of one message. -/
theorem deleteMembership_holds (h : Linked t) {f : StoredFolder} (hf : f ∈ t.folders)
    {a : AccountId} (ha : f.account = a.asStr) (gone account folder identity : String) :
    (t.deleteMemberships f.id a [gone]).Holds account folder identity ↔
      t.Holds account folder identity ∧ ¬((account, folder) = f.key ∧ identity = gone) := by
  have hstep : Linked (t.deleteMemberships f.id a [gone]) :=
    { h with
      memberships := h.memberships.filter _
      joins := fun m hm => h.joins m (List.mem_filter.mp hm).1 }
  rw [hstep.holds_iff, h.holds_iff, deleteMemberships_folders, deleteMemberships_messages]
  simp only [Tables.deleteMemberships, List.foldl_cons, List.foldl_nil, List.mem_filter,
    decide_eq_true_eq]
  constructor
  · rintro ⟨f', hf', g, hg, hfk, hgk, hm, hkept⟩
    refine ⟨⟨f', hf', g, hg, hfk, hgk, hm⟩, fun ⟨hkey, hgone⟩ => hkept ⟨?_, ?_⟩⟩
    · rw [h.folderKeys.eq_of_key hf' hf (hfk.trans hkey)]
    · have hacc : account = a.asStr := (congrArg Prod.fst hkey).trans ha
      have hfound : t.message? a.asStr gone = some g := by
        rw [← hacc, ← hgone]
        exact h.messageKeys.lookup_eq_some_iff.mpr ⟨hg, hgk⟩
      rw [hfound]
      rfl
  · rintro ⟨⟨f', hf', g, hg, hfk, hgk, hm⟩, hnot⟩
    refine ⟨f', hf', g, hg, hfk, hgk, hm, fun ⟨hfid, hgid⟩ => hnot ⟨?_, ?_⟩⟩
    · rw [← hfk, h.folderIds.eq_of_key hf' hf hfid]
    · obtain ⟨r, hr, hrid⟩ := Option.map_eq_some_iff.mp hgid.symm
      have hrg : r = g := h.messageIds.eq_of_key (mem_of_lookup hr) hg hrid
      have hrk : r.key = (a.asStr, gone) := key_of_lookup hr
      rw [hrg, hgk] at hrk
      exact congrArg Prod.snd hrk

/-- The folder lets go of the removed messages. -/
theorem deleteMemberships_holds (h : Linked t) {f : StoredFolder} (hf : f ∈ t.folders)
    {a : AccountId} (ha : f.account = a.asStr) (removed : List String)
    (account folder identity : String) :
    (t.deleteMemberships f.id a removed).Holds account folder identity ↔
      t.Holds account folder identity ∧ ¬((account, folder) = f.key ∧ identity ∈ removed) := by
  induction removed generalizing t with
  | nil =>
    rw [Tables.deleteMemberships]
    simp
  | cons gone removed ih =>
    have hstep : Linked (t.deleteMemberships f.id a [gone]) :=
      { h with
        memberships := h.memberships.filter _
        joins := fun m hm => h.joins m (List.mem_filter.mp hm).1 }
    refine (ih hstep hf).trans ?_
    rw [deleteMembership_holds h hf ha, List.mem_cons]
    tauto

/-- Deleting the messages without a folder moves none of the others. -/
theorem deleteMessagesWithoutFolder_message (h : Linked t) (a : AccountId)
    (account identity : String) :
    (t.deleteMessagesWithoutFolder a).message? account identity =
      (t.message? account identity).filter fun row =>
        !(row.account = a.asStr && !t.memberships.any fun m => m.message = row.id) :=
  h.messageKeys.lookup_filter _

theorem deleteMessagesWithoutFolder_memberships (t : Tables) (a : AccountId) :
    (t.deleteMessagesWithoutFolder a).memberships = t.memberships := by
  refine List.filter_eq_self.mpr fun m hm => ?_
  rw [Bool.not_eq_true', List.any_eq_false]
  intro r _ hdel
  simp only [Bool.and_eq_true, Bool.not_eq_eq_eq_not, Bool.not_true, List.any_eq_false,
    beq_iff_eq] at hdel
  exact hdel.1.2 m hm (by simpa using hdel.2.symm)

theorem deleteMessagesWithoutFolder_holds (h : Linked t) (a : AccountId)
    (account folder identity : String) :
    (t.deleteMessagesWithoutFolder a).Holds account folder identity ↔
      t.Holds account folder identity := by
  have hfolder : (t.deleteMessagesWithoutFolder a).folder? = t.folder? := rfl
  simp only [Tables.Holds, hfolder, deleteMessagesWithoutFolder_message h,
    Option.filter_eq_some_iff, deleteMessagesWithoutFolder_memberships t]
  constructor
  · rintro ⟨f, g, hf, ⟨hg, -⟩, hm⟩
    exact ⟨f, g, hf, hg, hm⟩
  · rintro ⟨f, g, hf, hg, hm⟩
    have hany : (t.memberships.any fun m => m.message = g.id) = true :=
      List.any_eq_true.mpr ⟨_, hm, by simp⟩
    exact ⟨f, g, hf, ⟨hg, by simp [hany]⟩, hm⟩

/-! ### Whole lists -/

/-- The tables an operation on a folder finds: linked, with the folder's row. -/
structure Tables.Opened (t : Tables) (folder : FolderRef) (folderId : ℕ) : Prop where
  /-- Linked. -/
  linked : Linked t
  /-- The folder's row. -/
  row : ∃ f ∈ t.folders, f.id = folderId ∧ f.key = (folder.account.asStr, folder.identity)

theorem Tables.Opened.hasFolder {folder : FolderRef} (h : t.Opened folder folderId) :
    t.HasFolder folder.account folderId := by
  obtain ⟨f, hf, hid, hkey⟩ := h.row
  exact ⟨f, hf, hid, congrArg Prod.fst hkey⟩

/-- The folder's row is found by the folder's name. -/
theorem Tables.Opened.found {folder : FolderRef} (h : t.Opened folder folderId) :
    ∃ f ∈ t.folders, f.id = folderId ∧ t.folder? folder.account.asStr folder.identity = some f := by
  obtain ⟨f, hf, hid, hkey⟩ := h.row
  exact ⟨f, hf, hid, h.linked.folderKeys.lookup_eq_some_iff.mpr ⟨hf, hkey⟩⟩

theorem opened_of_storedFolderId (h : Linked t) {folder : FolderRef}
    (hid : t.storedFolderId folder = some folderId) : t.Opened folder folderId := by
  rw [Tables.storedFolderId, Option.map_eq_some_iff] at hid
  obtain ⟨f, hf, hid⟩ := hid
  exact ⟨h, f, mem_of_lookup hf, hid, key_of_lookup hf⟩

variable {folder : FolderRef}

/-- A full record stored and related: the folder holds it too. -/
theorem storeOne_holds (h : t.Opened folder folderId) (message : Message)
    (account fo identity : String) :
    ((t.upsertMessage folder.account message).1.relate folderId
      (t.upsertMessage folder.account message).2).Holds
        account fo identity ↔
      t.Holds account fo identity ∨
        (account, fo) = (folder.account.asStr, folder.identity) ∧ identity = message.identity := by
  obtain ⟨f, hf, rfl, hfk⟩ := h.row
  obtain ⟨g, hg, hgid, hgk⟩ := upsertMessage_row t folder.account message
  have h' := (upsertMessage_statement t folder.account message).linked h.linked
  have hacc : f.account = g.account := (congrArg Prod.fst hfk).trans (congrArg Prod.fst hgk).symm
  rw [← hgid, relate_holds h' (by rwa [upsertMessage_folders]) hg hacc,
    upsertMessage_holds h.linked, hfk, hgk]
  refine or_congr_right ?_
  simp only [Prod.mk.injEq]
  constructor
  · rintro ⟨⟨rfl, rfl⟩, -, rfl⟩
    exact ⟨⟨rfl, rfl⟩, rfl⟩
  · rintro ⟨⟨rfl, rfl⟩, rfl⟩
    exact ⟨⟨rfl, rfl⟩, rfl, rfl⟩

theorem Tables.Opened.of_tidy (h : t.Opened folder folderId) {account : AccountId}
    (hs : Statements account t u) (hfolders : u.folders = t.folders) : u.Opened folder folderId :=
  ⟨hs.linked h.linked, hfolders ▸ h.row⟩

theorem storeArrived_folders (t : Tables) (folderId : ℕ) (a : AccountId) (arrived : List Message) :
    (t.storeArrived folderId a arrived).folders = t.folders := by
  induction arrived generalizing t with
  | nil => rfl
  | cons message arrived ih =>
    refine (ih _).trans ?_
    rw [relate_folders, upsertMessage_folders]

/-- The folder holds every full record stored. -/
theorem storeArrived_holds (h : t.Opened folder folderId) (arrived : List Message)
    (account fo identity : String) :
    (t.storeArrived folderId folder.account arrived).Holds account fo identity ↔
      t.Holds account fo identity ∨
        (account, fo) = (folder.account.asStr, folder.identity) ∧
        identity ∈ arrived.map Message.identity := by
  induction arrived generalizing t with
  | nil =>
    rw [Tables.storeArrived]
    simp
  | cons message arrived ih =>
    have hstep := storeOne_tidy h.hasFolder message
    refine (ih (h.of_tidy hstep.statements (by rw [relate_folders, upsertMessage_folders]))).trans
      ?_
    rw [storeOne_holds h, List.map_cons, List.mem_cons]
    tauto

/-- A full record's flags are the server's; the pending values stay, and there are none
of a new message. -/
theorem upsertMessage_values (t : Tables) (a : AccountId) (message : Message)
    (account identity : String) :
    (t.upsertMessage a message).1.values? account identity =
      if (account, identity) = (a.asStr, message.identity) then
        some ⟨message.flags, ((t.values? account identity).map FlagValues.pending).getD
          fun _ => none⟩
      else t.values? account identity := by
  rw [Tables.values?, upsertMessage_message, Tables.values?]
  split
  · cases t.message? account identity with
    | none =>
      refine congrArg some (congrArg₂ FlagValues.mk rfl (funext fun flag => ?_))
      cases flag <;> rfl
    | some row =>
      refine congrArg some (congrArg₂ FlagValues.mk rfl (funext fun flag => ?_))
      cases flag <;> rfl
  · rfl

/-- Full records: the last one of a message counts. -/
theorem storeArrived_values (t : Tables) (folderId : ℕ) (a : AccountId) (arrived : List Message)
    (account identity : String) :
    (t.storeArrived folderId a arrived).values? account identity =
      match if account = a.asStr then latest identity (arrived.map fun m =>
        (m.identity, m.flags)) else none with
      | some flags =>
        some ⟨flags, ((t.values? account identity).map FlagValues.pending).getD fun _ => none⟩
      | none => t.values? account identity := by
  induction arrived generalizing t with
  | nil =>
    rw [Tables.storeArrived]
    simp
  | cons message arrived ih =>
    have := ih ((t.upsertMessage a message).1.relate folderId (t.upsertMessage a message).2)
    have hrelate : ((t.upsertMessage a message).1.relate folderId
      (t.upsertMessage a message).2).values? account identity =
        (t.upsertMessage a message).1.values? account identity := by
      rw [Tables.values?, relate_message]
      rfl
    rw [Tables.storeArrived] at *
    rw [List.foldl_cons, this, hrelate, upsertMessage_values]
    by_cases ha : account = a.asStr
    · by_cases hi : identity = message.identity
      · subst ha hi
        cases hl : latest message.identity (arrived.map fun m => (m.identity, m.flags)) <;>
          simp [latest, hl]
      · have hi' : message.identity ≠ identity := fun h => hi h.symm
        simp [ha, hi, latest, hi']
    · simp [ha]

/-- A message the account holds, related to the folder. -/
theorem relateStored_holds (h : t.Opened folder folderId) (stored : String)
    (account fo identity : String) :
    (t.relateStored folderId folder.account stored).Holds account fo identity ↔
      t.Holds account fo identity ∨
        (account, fo) = (folder.account.asStr, folder.identity) ∧ identity = stored ∧
          (t.values? folder.account.asStr stored).isSome := by
  rw [Tables.relateStored, Tables.values?]
  cases hm : t.message? folder.account.asStr stored with
  | none => simp
  | some row =>
    obtain ⟨f, hf, rfl, hfk⟩ := h.row
    have hrk : row.key = (folder.account.asStr, stored) := key_of_lookup hm
    have hacc : f.account = row.account :=
      (congrArg Prod.fst hfk).trans (congrArg Prod.fst hrk).symm
    rw [relate_holds h.linked hf (mem_of_lookup hm) hacc, hfk, hrk]
    refine or_congr_right ?_
    simp only [Prod.mk.injEq, Option.map_some, Option.isSome_some, and_true]
    constructor
    · rintro ⟨⟨rfl, rfl⟩, -, rfl⟩
      exact ⟨⟨rfl, rfl⟩, rfl⟩
    · rintro ⟨⟨rfl, rfl⟩, rfl⟩
      exact ⟨⟨rfl, rfl⟩, rfl, rfl⟩

theorem relateStored_values (t : Tables) (folderId : ℕ) (a : AccountId) (identity : String) :
    (t.relateStored folderId a identity).values? = t.values? := by
  funext account i
  rw [Tables.relateStored]
  split
  · rw [Tables.values?, relate_message]
    rfl
  · rfl

theorem relateStored_folders (t : Tables) (folderId : ℕ) (a : AccountId) (identity : String) :
    (t.relateStored folderId a identity).folders = t.folders := by
  rw [Tables.relateStored]
  split
  · exact relate_folders _ _ _
  · rfl

/-- The messages the account holds, related one after another. -/
theorem relateAll_spec (h : t.Opened folder folderId) (known : List (String × MessageFlags)) :
    let u := known.foldl (fun t entry => t.relateStored folderId folder.account entry.1) t
    u.values? = t.values? ∧ u.folders = t.folders ∧
    ∀ account fo identity, u.Holds account fo identity ↔
      t.Holds account fo identity ∨
        (account, fo) = (folder.account.asStr, folder.identity) ∧ identity ∈ known.map Prod.fst ∧
          (t.values? folder.account.asStr identity).isSome := by
  induction known generalizing t with
  | nil => simp
  | cons entry known ih =>
    have htidy := relateStored_tidy h.hasFolder entry.1
    obtain ⟨hvalues, hfolders, hholds⟩ :=
      ih (h.of_tidy htidy.statements (relateStored_folders _ _ _ _))
    refine ⟨hvalues.trans (relateStored_values _ _ _ _),
      hfolders.trans (relateStored_folders _ _ _ _), ?_⟩
    intro account fo identity
    refine (hholds account fo identity).trans ?_
    rw [relateStored_holds h, relateStored_values, List.map_cons, List.mem_cons]
    by_cases hi : identity = entry.1
    · subst hi
      tauto
    · tauto

/-- The removals of a batch: the folder lets go of the messages, and the store of those no
other folder holds. -/
theorem applyRemovals_holds (h : t.Opened folder folderId) (removed : List String)
    (account fo identity : String) :
    (t.applyRemovals folderId folder.account removed).Holds account fo identity ↔
      t.Holds account fo identity ∧
      ¬((account, fo) = (folder.account.asStr, folder.identity) ∧ identity ∈ removed) := by
  obtain ⟨f, hf, rfl, hfk⟩ := h.row
  rw [Tables.applyRemovals]
  split
  · rename_i hnil
    simp [hnil]
  · have h' := (deleteMemberships_statements (t := t) h.hasFolder removed).1.linked h.linked
    rw [deleteMessagesWithoutFolder_holds h',
      deleteMemberships_holds h.linked hf (congrArg Prod.fst hfk), hfk]

/-- A message still stored has the row it had. -/
theorem applyRemovals_message (h : t.Opened folder folderId) (removed : List String)
    {account identity : String}
    {row : StoredMessage} (hrow : (t.applyRemovals folderId folder.account removed).message? account
      identity = some row) :
    t.message? account identity = some row := by
  rw [Tables.applyRemovals] at hrow
  split at hrow
  · exact hrow
  · have h' := (deleteMemberships_statements (t := t) h.hasFolder removed).1.linked h.linked
    rw [deleteMessagesWithoutFolder_message h'] at hrow
    obtain ⟨hrow, -⟩ := Option.filter_eq_some_iff.mp hrow
    rwa [Tables.message?, deleteMemberships_messages] at hrow

theorem applyRemovals_values (h : t.Opened folder folderId) (removed : List String)
    {account identity : String} {v : FlagValues}
    (hv : (t.applyRemovals folderId folder.account removed).values? account identity = some v) :
    t.values? account identity = some v := by
  obtain ⟨row, hrow, rfl⟩ := Option.map_eq_some_iff.mp hv
  rw [Tables.values?, applyRemovals_message h removed hrow]
  rfl

theorem applyRemovals_folders (t : Tables) (folderId : ℕ) (a : AccountId) (removed : List String) :
    (t.applyRemovals folderId a removed).folders = t.folders := by
  rw [Tables.applyRemovals]
  split
  · rfl
  · exact deleteMemberships_folders t folderId a removed

/-- The account has what a folder of it holds. -/
theorem values_isSome_of_holds {account fo identity : String} (h : t.Holds account fo identity) :
    (t.values? account identity).isSome := by
  obtain ⟨_, g, _, hg, _⟩ := h
  rw [Tables.values?, hg]
  rfl

end Mailbag.Store
