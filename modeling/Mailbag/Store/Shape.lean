import Mailbag.Store.Statements

/-!
# The store's shape

Each operation given an account is a sequence of statements on that account's rows
(`perform_statements`), so it keeps the keys and references and leaves every other
account as it was. What the schema does not say, that some folder holds every stored
message, is `Shape.held`: a statement may break it, each operation restores it.

## What is proved

* `call_shape`: every operation keeps the shape, and `run_shape`: so does every
  sequence of operations from an empty store.
* `call_part`: an operation given one account leaves every row of every other account;
  deleting the other accounts leaves the current ones and no row of the others
  (`deleteOtherAccounts_spec`).
-/

namespace Mailbag.Store

open Collections Relation

/-- Some folder holds every stored message. -/
def Held (t : Tables) : Prop := ∀ g ∈ t.messages, ∃ m ∈ t.memberships, m.message = g.id

/-- The shape of the store. -/
structure Shape (t : Tables) : Prop extends Linked t where
  /-- Some folder holds every stored message. -/
  held : Held t

theorem shape_empty : Shape .empty := ⟨linked_empty, fun _ hg => absurd hg List.not_mem_nil⟩

variable {account : AccountId} {t u : Tables}

/-- No account without a folder has a message. -/
theorem Shape.folder_of_message (h : Shape t) {g : StoredMessage} (hg : g ∈ t.messages) :
    ∃ f ∈ t.folders, f.account = g.account := by
  obtain ⟨m, hm, hmg⟩ := h.held g hg
  obtain ⟨f, hf, g', hg', _, hgid, hacc⟩ := h.joins m hm
  exact ⟨f, hf, by rwa [h.messageIds.eq_of_key hg hg' (hmg.symm.trans hgid.symm)]⟩

/-- The folder of an operation: its row and its account. -/
def Tables.HasFolder (t : Tables) (account : AccountId) (folderId : ℕ) : Prop :=
  ∃ f ∈ t.folders, f.id = folderId ∧ f.account = account.asStr

theorem storedFolderId_hasFolder {folder : FolderRef} {folderId : ℕ}
    (h : t.storedFolderId folder = some folderId) : t.HasFolder folder.account folderId := by
  rw [Tables.storedFolderId, Option.map_eq_some_iff] at h
  obtain ⟨f, hf, rfl⟩ := h
  exact ⟨f, mem_of_lookup hf, rfl, congrArg Prod.fst (key_of_lookup hf)⟩

/-- Statements on an account's rows that leave its folders where they are and every
message that was held held. -/
structure Tidy (account : AccountId) (t u : Tables) : Prop where
  /-- They are statements on the account's rows. -/
  statements : Statements account t u
  /-- The folders stay. -/
  hasFolder : ∀ folderId, t.HasFolder account folderId → u.HasFolder account folderId
  /-- The messages stay held. -/
  held : Held t → Held u

theorem Tidy.refl (account : AccountId) (t : Tables) : Tidy account t t := ⟨.refl, fun _ => id, id⟩

theorem Tidy.trans {v : Tables} (h : Tidy account t u) (h' : Tidy account u v) : Tidy account t v :=
  ⟨h.statements.trans h'.statements, fun id hid => h'.hasFolder id (h.hasFolder id hid),
    h'.held ∘ h.held⟩

/-- One tidy change for each element of a list. -/
theorem Tidy.foldl {β : Type} {folderId : ℕ} {step : Tables → β → Tables}
    (hstep : ∀ t x, t.HasFolder account folderId → Tidy account t (step t x)) (xs : List β)
    (h : t.HasFolder account folderId) : Tidy account t (xs.foldl step t) := by
  induction xs generalizing t with
  | nil => exact .refl account t
  | cons x xs ih => exact (hstep t x h).trans (ih ((hstep t x h).hasFolder _ h))

/-! ### Messages -/

theorem lt_nextId {ids : List ℕ} {id : ℕ} (h : id ∈ ids) : id < nextId ids := by
  induction ids with
  | nil => cases h
  | cons x ids ih =>
    rw [nextId, List.foldr_cons] at *
    rcases List.mem_cons.mp h with rfl | h
    · omega
    · have := ih h
      omega

theorem updateMessage_statement (t : Tables) (account : AccountId) (identity : String)
    {f : StoredMessage → StoredMessage} (hid : ∀ r, (f r).id = r.id)
    (hkey : ∀ r, (f r).key = r.key) :
    Statement account t (t.updateMessage account.asStr identity f) := by
  refine .updateMessages (fun row => if row.key = (account.asStr, identity) then f row
    else row) ?_ ?_ ?_ rfl
  · intro r
    split
    · exact hid r
    · rfl
  · intro r
    split
    · exact hkey r
    · rfl
  · intro r _ hacc
    exact if_neg fun hk => hacc (congrArg Prod.fst hk)

theorem updateMessage_ids (t : Tables) (account : AccountId) (identity : String)
    {f : StoredMessage → StoredMessage} (hid : ∀ r, (f r).id = r.id) :
    (t.updateMessage account.asStr identity f).messages.map StoredMessage.id =
      t.messages.map StoredMessage.id := by
  rw [Tables.updateMessage, List.map_map]
  refine List.map_congr_left fun r _ => ?_
  show (if r.key = _ then f r else r).id = r.id
  split
  · exact hid r
  · rfl

theorem Held.of_ids (hheld : Held t) (hids : ∀ g ∈ u.messages, ∃ r ∈ t.messages, r.id = g.id)
    (hmemberships : ∀ m ∈ t.memberships, m ∈ u.memberships) : Held u := by
  intro g hg
  obtain ⟨r, hr, hrid⟩ := hids g hg
  obtain ⟨m, hm, hmr⟩ := hheld r hr
  exact ⟨m, hmemberships m hm, hmr.trans hrid⟩

theorem updateMessage_tidy (t : Tables) (account : AccountId) (identity : String)
    {f : StoredMessage → StoredMessage} (hid : ∀ r, (f r).id = r.id)
    (hkey : ∀ r, (f r).key = r.key) :
    Tidy account t (t.updateMessage account.asStr identity f) where
  statements := .single (updateMessage_statement t account identity hid hkey)
  hasFolder _ h := h
  held h := by
    refine h.of_ids (fun g hg => ?_) fun m hm => hm
    have := updateMessage_ids t account identity hid ▸ List.mem_map_of_mem
      (f := StoredMessage.id) hg
    simpa using this

theorem updateMessages_tidy (t : Tables) (account : AccountId) (identities : List String)
    {f : StoredMessage → StoredMessage} (hid : ∀ r, (f r).id = r.id)
    (hkey : ∀ r, (f r).key = r.key) : Tidy account t (t.updateMessages account identities f) := by
  induction identities generalizing t with
  | nil => exact .refl account t
  | cons identity identities ih =>
    exact (updateMessage_tidy t account identity hid hkey).trans (ih _)

theorem setFlagStates_tidy (t : Tables) (account : AccountId)
    (flagStates : List (String × MessageFlags)) :
    Tidy account t (t.setFlagStates account flagStates) := by
  induction flagStates generalizing t with
  | nil => exact .refl account t
  | cons entry flagStates ih =>
    exact (updateMessage_tidy t account entry.1 (f := fun row => row.withFlags entry.2)
      (fun _ => rfl) fun _ => rfl).trans
      (ih _)

/-- A full record is one statement. -/
theorem upsertMessage_statement (t : Tables) (account : AccountId) (message : Message) :
    Statement account t (t.upsertMessage account message).1 := by
  rw [Tables.upsertMessage]
  cases hm : t.message? account.asStr message.identity with
  | some stored =>
    exact updateMessage_statement t account _ (f := fun row => row.rewritten message) (fun _ => rfl)
      fun _ => rfl
  | none =>
    have hkey := lookup_eq_none_iff.mp hm
    exact .insertMessage (StoredMessage.insert (nextId (t.messages.map StoredMessage.id)) account
      message) rfl
      (fun r hr => (lt_nextId (List.mem_map_of_mem hr)).ne) hkey rfl

/-- The row of a full record has its identity. -/
theorem upsertMessage_row (t : Tables) (account : AccountId) (message : Message) :
    ∃ g ∈ (t.upsertMessage account message).1.messages,
      g.id = (t.upsertMessage account message).2 ∧ g.key = (account.asStr, message.identity) := by
  rw [Tables.upsertMessage]
  cases hm : t.message? account.asStr message.identity with
  | some stored =>
    have hk : stored.key = (account.asStr, message.identity) := key_of_lookup hm
    refine ⟨stored.rewritten message, ?_, rfl, hk⟩
    exact List.mem_map.mpr ⟨stored, mem_of_lookup hm, if_pos hk⟩
  | none => exact ⟨_, List.mem_append_right _ (List.mem_singleton_self _), rfl, rfl⟩

/-- The other rows of a full record's table are the rows there were. -/
theorem upsertMessage_ids (t : Tables) (account : AccountId) (message : Message) {g : StoredMessage}
    (hg : g ∈ (t.upsertMessage account message).1.messages) :
    (∃ r ∈ t.messages, r.id = g.id) ∨ g.id = (t.upsertMessage account message).2 := by
  rw [Tables.upsertMessage] at *
  cases hm : t.message? account.asStr message.identity with
  | some stored =>
    simp only [hm, Tables.updateMessage, List.mem_map] at hg
    obtain ⟨r, hr, rfl⟩ := hg
    refine .inl ⟨r, hr, ?_⟩
    split <;> rfl
  | none =>
    simp only [hm, List.mem_append, List.mem_singleton] at hg
    rcases hg with hg | rfl
    · exact .inl ⟨g, hg, rfl⟩
    · exact .inr rfl

/-- Relating a stored message to a folder keeps the messages held. -/
theorem relate_memberships (t : Tables) (folderId messageId : ℕ) :
    ∀ m, m ∈ (t.relate folderId messageId).memberships ↔ m ∈ t.memberships ∨
      m = ⟨folderId, messageId⟩ := by
  intro m
  rw [Tables.relate]
  split
  · constructor
    · exact .inl
    · rintro (h | rfl) <;> assumption
  · simp

@[simp] theorem relate_folders (t : Tables) (folderId messageId : ℕ) :
    (t.relate folderId messageId).folders = t.folders := by
  rw [Tables.relate]
  split <;> rfl

@[simp] theorem relate_messages (t : Tables) (folderId messageId : ℕ) :
    (t.relate folderId messageId).messages = t.messages := by
  rw [Tables.relate]
  split <;> rfl

@[simp] theorem upsertMessage_folders (t : Tables) (account : AccountId) (message : Message) :
    (t.upsertMessage account message).1.folders = t.folders := by
  rw [Tables.upsertMessage]
  split <;> rfl

@[simp] theorem upsertMessage_memberships (t : Tables) (account : AccountId) (message : Message) :
    (t.upsertMessage account message).1.memberships = t.memberships := by
  rw [Tables.upsertMessage]
  split <;> rfl

/-- A full record stored and related is held. -/
theorem storeOne_tidy {folderId : ℕ} (hf : t.HasFolder account folderId) (message : Message) :
    Tidy account t ((t.upsertMessage account message).1.relate folderId
      (t.upsertMessage account message).2) where
  statements := by
    obtain ⟨f, hf, rfl, hacc⟩ := hf
    obtain ⟨g, hg, hgid, hgkey⟩ := upsertMessage_row t account message
    refine .tail (.single (upsertMessage_statement t account message)) ?_
    exact .relate f g (by rwa [upsertMessage_folders]) hg hacc (congrArg Prod.fst hgkey)
      (by rw [hgid])
  hasFolder id h := by rwa [Tables.HasFolder, relate_folders, upsertMessage_folders]
  held hheld := by
    intro r hr
    rw [relate_messages] at hr
    rcases upsertMessage_ids t account message hr with ⟨r', hr', hid⟩ | hid
    · obtain ⟨m, hm, hmr⟩ := hheld r' hr'
      exact ⟨m, (relate_memberships _ _ _ m).mpr (.inl (by rwa [upsertMessage_memberships])),
        hmr.trans hid⟩
    · exact ⟨⟨folderId, (t.upsertMessage account message).2⟩, (relate_memberships _ _ _ _).mpr
        (.inr rfl), hid.symm⟩

theorem storeArrived_tidy {folderId : ℕ} (hf : t.HasFolder account folderId)
    (arrived : List Message) : Tidy account t (t.storeArrived folderId account arrived) :=
  Tidy.foldl (fun _ message hf => storeOne_tidy hf message) arrived hf

/-- Relating a message the account holds. -/
theorem relateStored_tidy {folderId : ℕ} (hf : t.HasFolder account folderId) (identity : String) :
    Tidy account t (t.relateStored folderId account identity) := by
  rw [Tables.relateStored]
  cases hm : t.message? account.asStr identity with
  | none => exact .refl account t
  | some row =>
    obtain ⟨f, hf, rfl, hacc⟩ := hf
    have hrow : row.account = account.asStr := congrArg Prod.fst (key_of_lookup hm)
    refine ⟨.single (.relate f row hf (mem_of_lookup hm) hacc hrow rfl), ?_, fun hheld => ?_⟩
    · exact fun id h => by rwa [Tables.HasFolder, relate_folders]
    · refine hheld.of_ids (fun g hg => ⟨g, by rwa [relate_messages] at hg, rfl⟩) fun m hm => ?_
      exact (relate_memberships _ _ _ m).mpr (.inl hm)

theorem relateKnown_tidy {folderId : ℕ} (hf : t.HasFolder account folderId)
    (knownArrived : List (String × MessageFlags)) :
    Tidy account t (t.relateKnown folderId account knownArrived) :=
  (Tidy.foldl (fun _ entry hf => relateStored_tidy hf entry.1) knownArrived hf).trans
    (setFlagStates_tidy _ _ _)

theorem writeFolderState_tidy {folderId : ℕ} (h : Linked t) (hf : t.HasFolder account folderId)
    (state : FolderState) : Tidy account t (t.writeFolderState folderId state) where
  statements := by
    obtain ⟨f, hf, rfl, hacc⟩ := hf
    refine .single (.updateFolders (fun row => if row.id = f.id then row.withState state
      else row) ?_ ?_ ?_ rfl)
    · intro r
      split <;> rfl
    · intro r
      split <;> rfl
    · intro r hr hother
      refine if_neg fun hid => hother ?_
      rwa [h.folderIds.eq_of_key hr hf hid]
  hasFolder id := by
    rintro ⟨f, hf, hid, hacc⟩
    refine ⟨_, List.mem_map_of_mem hf, ?_⟩
    split
    · exact ⟨hid, hacc⟩
    · exact ⟨hid, hacc⟩
  held hheld := hheld

/-! ### Removals -/

theorem deleteMemberships_statements {folderId : ℕ} (hf : t.HasFolder account folderId)
    (removed : List String) :
    Statements account t (t.deleteMemberships folderId account removed) ∧
      (t.deleteMemberships folderId account removed).HasFolder account folderId := by
  induction removed generalizing t with
  | nil => exact ⟨.refl, hf⟩
  | cons identity removed ih =>
    obtain ⟨f, hf', rfl, hacc⟩ := hf
    obtain ⟨hs, hf''⟩ := ih (t := { t with
      memberships := t.memberships.filter fun m =>
        ¬(m.folder = f.id ∧ some m.message = (t.message? account.asStr identity).map
          StoredMessage.id) })
      ⟨f, hf', rfl, hacc⟩
    refine ⟨.head ?_ hs, hf''⟩
    refine .deleteMemberships _ f hf' hacc (fun m _ hp => ?_) rfl
    simp only [not_and, decide_eq_false_iff_not, Classical.not_imp, Decidable.not_not] at hp
    exact hp.1

/-- Deleting the account's messages that no folder holds: every message is held
afterwards when those of the other accounts were. -/
theorem deleteMessagesWithoutFolder_held (h : Linked t)
    (hothers : ∀ g ∈ t.messages, g.account ≠ account.asStr → ∃ m ∈ t.memberships,
      m.message = g.id) :
    Held (t.deleteMessagesWithoutFolder account) := by
  intro g hg
  obtain ⟨hg, hkept⟩ := List.mem_filter.mp hg
  have hheld : ∃ m ∈ t.memberships, m.message = g.id := by
    by_cases hacc : g.account = account.asStr
    · simpa [hacc] using hkept
    · exact hothers g hg hacc
  obtain ⟨m, hm, hmg⟩ := hheld
  refine ⟨m, List.mem_filter.mpr ⟨hm, ?_⟩, hmg⟩
  rw [Bool.not_eq_true', List.any_eq_false]
  intro r hr hdel
  rw [Bool.and_eq_true, beq_iff_eq] at hdel
  obtain ⟨hdel, hrm⟩ := hdel
  rw [h.messageIds.eq_of_key hr hg (hrm.trans hmg)] at hdel
  simp only [Bool.and_eq_true, Bool.not_eq_eq_eq_not, Bool.not_true, List.any_eq_false] at hdel
  exact hdel.2 m hm (by simpa using hmg)

/-- Statements on an account's rows leave the messages of the others held. -/
theorem Statements.held_others (hs : Statements account t u) (h : Shape t) :
    ∀ g ∈ u.messages, g.account ≠ account.asStr → ∃ m ∈ u.memberships, m.message = g.id := by
  intro g hg hother
  have hpart := hs.part h.toLinked hother
  have hg' : g ∈ (t.part g.account).messages := hpart ▸ List.mem_filter.mpr ⟨hg, by simp⟩
  obtain ⟨hg', -⟩ := List.mem_filter.mp hg'
  obtain ⟨m, hm, hmg⟩ := h.held g hg'
  obtain ⟨f, hf, r, hr, hfm, hrm, hacc⟩ := h.joins m hm
  have hin : t.inAccount g.account m = true := by
    rw [h.inAccount_eq hf hfm, decide_eq_true_iff, hacc,
      h.messageIds.eq_of_key hr hg' (hrm.trans hmg)]
  have hm' : m ∈ (u.part g.account).memberships := hpart ▸ List.mem_filter.mpr ⟨hm, hin⟩
  exact ⟨m, (List.mem_filter.mp hm').1, hmg⟩

/-- After statements on an account's rows, deleting its messages without a folder leaves
every message held. -/
theorem Statements.deleteMessagesWithoutFolder (hs : Statements account t u) (h : Shape t) :
    Statements account t (u.deleteMessagesWithoutFolder account) ∧
      Held (u.deleteMessagesWithoutFolder account) := by
  refine ⟨hs.tail (.deleteMessages _ (fun r _ hp => ?_) rfl), deleteMessagesWithoutFolder_held
    (hs.linked h.toLinked) (hs.held_others h)⟩
  simp only [Bool.and_eq_true, decide_eq_true_eq] at hp
  exact hp.1

theorem applyRemovals_statements {folderId : ℕ} (h : Shape t) (hf : t.HasFolder account folderId)
    (removed : List String) :
    Statements account t (t.applyRemovals folderId account removed) ∧
      (t.applyRemovals folderId account removed).HasFolder account folderId ∧
        Held (t.applyRemovals folderId account removed) := by
  rw [Tables.applyRemovals]
  split
  · exact ⟨.refl, hf, h.held⟩
  · obtain ⟨hs, hf'⟩ := deleteMemberships_statements hf removed
    obtain ⟨hs', hheld⟩ := hs.deleteMessagesWithoutFolder h
    exact ⟨hs', hf', hheld⟩

/-! ### The operations -/

theorem applyBatch_statements {folderId : ℕ} (h : Shape t) (hf : t.HasFolder account folderId)
    (batch : FolderBatch) :
    Statements account t (t.applyBatch folderId account batch) ∧
      Held (t.applyBatch folderId account batch) := by
  obtain ⟨hs, hf', hheld⟩ := applyRemovals_statements h hf batch.removed
  have h₁ := setFlagStates_tidy (t.applyRemovals folderId account batch.removed) account
    batch.flagStates
  have h₂ := h₁.trans (storeArrived_tidy (h₁.hasFolder _ hf') batch.arrived)
  have h₃ := h₂.trans (relateKnown_tidy (h₂.hasFolder _ hf') batch.knownArrived)
  rw [Tables.applyBatch]
  split
  · rename_i state _
    have h₄ := h₃.trans (writeFolderState_tidy
      (Statements.linked (hs.trans h₃.statements) h.toLinked) (h₃.hasFolder _ hf') state)
    exact ⟨hs.trans h₄.statements, h₄.held hheld⟩
  · exact ⟨hs.trans h₃.statements, h₃.held hheld⟩

/-- The folders no longer listed are deleted one by one. -/
theorem deleteUnlistedFolders_statements (h : Linked t) (listed : List Folder) :
    Statements account t (t.deleteUnlistedFolders account listed) := by
  suffices ∀ rows : List StoredFolder, (∀ r ∈ rows, r ∈ t.folders ∧ r.account = account.asStr) →
      ∀ u : Tables, u.folders ⊆ t.folders → Statements account u (rows.foldl (fun t row =>
        if row.identity ∈ listed.map Folder.identity then t
            else t.deleteFoldersWhere fun r => r.id = row.id) u) by
    refine this _ (fun r hr => ?_) t (List.Subset.refl _)
    obtain ⟨hr, hacc⟩ := List.mem_filter.mp hr
    exact ⟨hr, by simpa using hacc⟩
  intro rows
  induction rows with
  | nil => exact fun _ _ _ => .refl
  | cons row rows ih =>
    intro hrows u hu
    have hrest := ih fun r hr => hrows r (List.mem_cons_of_mem _ hr)
    rw [List.foldl_cons]
    split
    · exact hrest u hu
    · refine .head (.deleteFolders (fun r => r.id = row.id) (fun r hr hid => ?_) rfl)
        (hrest _ fun r hr => ?_)
      · obtain ⟨hrow, hacc⟩ := hrows row List.mem_cons_self
        rw [h.folderIds.eq_of_key (hu hr) hrow (by simpa using hid)]
        exact hacc
      · exact hu (List.mem_filter.mp hr).1

/-- A listed folder updates its row or inserts one. -/
theorem upsertFolder_tidy (t : Tables) (account : AccountId) (folder : Folder) :
    Tidy account t (t.upsertFolder account folder) := by
  rw [Tables.upsertFolder]
  cases hm : t.folder? account.asStr folder.identity with
  | some row =>
    have hrelisted : ∀ r : StoredFolder,
      (if r.key = (account.asStr, folder.identity) then r.relisted folder else r).id = r.id ∧
        (if r.key = (account.asStr, folder.identity) then r.relisted folder
          else r).key = r.key := by
      intro r
      split <;> exact ⟨rfl, rfl⟩
    refine ⟨.single (.updateFolders _ (fun r => (hrelisted r).1) (fun r => (hrelisted r).2)
      (fun r _ hother => ?_) rfl), ?_, id⟩
    · exact if_neg fun hk => hother (congrArg Prod.fst hk)
    · rintro id ⟨f, hf, hid, hacc⟩
      exact ⟨_, List.mem_map_of_mem hf, (hrelisted f).1.trans hid,
        (congrArg Prod.fst (hrelisted f).2).trans hacc⟩
  | none =>
    have hkey := lookup_eq_none_iff.mp hm
    refine ⟨.single (.insertFolder
      (StoredFolder.insert (nextId (t.folders.map StoredFolder.id)) account folder) rfl
      (fun r hr => (lt_nextId (List.mem_map_of_mem hr)).ne) hkey rfl), ?_, id⟩
    rintro id ⟨f, hf, hrest⟩
    exact ⟨f, List.mem_append_left _ hf, hrest⟩

theorem upsertFolders_tidy (t : Tables) (account : AccountId) (folders : List Folder) :
    Tidy account t (t.upsertFolders account folders) := by
  induction folders generalizing t with
  | nil => exact .refl account t
  | cons folder folders ih => exact (upsertFolder_tidy t account folder).trans (ih _)

theorem replaceFolders_statements (h : Shape t) (account : AccountId) (folders : List Folder) :
    Statements account t (t.replaceFolders account folders) ∧
      Held (t.replaceFolders account folders) := by
  have hdeleted : Statements account t (t.deleteUnlistedFolders account folders) :=
    deleteUnlistedFolders_statements h.toLinked folders
  obtain ⟨hs, hheld⟩ := hdeleted.deleteMessagesWithoutFolder h
  have h' := upsertFolders_tidy
    ((t.deleteUnlistedFolders account folders).deleteMessagesWithoutFolder account) account folders
  exact ⟨hs.trans h'.statements, h'.held hheld⟩

/-- The account an operation is given, itself or by a folder of it. -/
def StoreCall.account? : StoreCall → Option AccountId
  | .replaceFolders account _ => some account
  | .readFolderSync folder => some folder.account
  | .storedIdentities account _ => some account
  | .identitiesInOtherFolders folder _ => some folder.account
  | .storeBatch folder _ => some folder.account
  | .readPendingChanges folder => some folder.account
  | .writePendingFlag account _ _ _ => some account
  | .settleFlags account _ _ _ => some account
  | .dropPendingFlags account _ _ _ => some account
  | .readFolderRows folder => some folder.account
  | .deleteOtherAccounts _ => none

theorem StoredMessage.withPending_id (row : StoredMessage) (flag : MessageFlag)
    (wanted : Option Bool) : (row.withPending flag wanted).id = row.id := by cases flag <;> rfl

theorem StoredMessage.withPending_key (row : StoredMessage) (flag : MessageFlag)
    (wanted : Option Bool) : (row.withPending flag wanted).key = row.key := by cases flag <;> rfl

theorem StoredMessage.withFlag_id (row : StoredMessage) (flag : MessageFlag) (value : Bool) :
    (row.withFlag flag value).id = row.id := by cases flag <;> rfl

theorem StoredMessage.withFlag_key (row : StoredMessage) (flag : MessageFlag) (value : Bool) :
    (row.withFlag flag value).key = row.key := by cases flag <;> rfl

/-- Every operation given an account is a sequence of statements on the account's rows and
leaves every message held. -/
theorem perform_statements (h : Shape t) (cancelled : Bool) (op : StoreCall)
    (haccount : op.account? = some account) :
    Statements account t (perform t cancelled op).2 ∧ Held (perform t cancelled op).2 := by
  have unchanged : Statements account t t ∧ Held t := ⟨.refl, h.held⟩
  have tidy : ∀ u, Tidy account t u → Statements account t u ∧ Held u :=
    fun u hu => ⟨hu.statements, hu.held h.held⟩
  cases op with
  | replaceFolders a folders =>
    cases haccount
    rw [perform]
    split
    · exact unchanged
    · exact replaceFolders_statements h _ folders
  | readFolderSync folder =>
    rw [perform]
    split <;> exact unchanged
  | storedIdentities a ids => exact unchanged
  | identitiesInOtherFolders folder ids => exact unchanged
  | storeBatch folder batch =>
    cases haccount
    rw [perform]
    split
    · exact unchanged
    · split
      · rename_i folderId hid
        exact applyBatch_statements h (storedFolderId_hasFolder hid) batch
      · exact unchanged
  | readPendingChanges folder =>
    rw [perform]
    split <;> exact unchanged
  | writePendingFlag a identity flag wanted =>
    cases haccount
    exact tidy _ (updateMessage_tidy t _ identity (fun r => r.withPending_id flag _) fun r =>
      r.withPending_key flag _)
  | settleFlags a ids flag value =>
    cases haccount
    refine tidy _ (updateMessages_tidy t _ ids (fun r => ?_) fun r => ?_)
    · rw [StoredMessage.withPending_id, StoredMessage.withFlag_id]
    · rw [StoredMessage.withPending_key, StoredMessage.withFlag_key]
  | dropPendingFlags a ids flag refused =>
    cases haccount
    exact tidy _ (updateMessages_tidy t _ ids (fun r => r.withPending_id flag _) fun r =>
      r.withPending_key flag _)
  | readFolderRows folder => exact unchanged
  | deleteOtherAccounts current => cases haccount

/-! ### Deleting accounts -/

theorem deleteAccount_statements (t : Tables) (account : AccountId) :
    Statements account t (t.deleteAccount account) := by
  refine .tail (.single (.deleteFolders (fun r => r.account = account.asStr) ?_ rfl))
    (.deleteMessages _ ?_ rfl)
  · exact fun r _ hr => by simpa using hr
  · exact fun r _ hr => by simpa using hr

/-- Deleting an account keeps the shape. -/
theorem deleteAccount_shape (h : Shape t) (account : AccountId) :
    Shape (t.deleteAccount account) where
  toLinked := (deleteAccount_statements t account).linked h.toLinked
  held g hg := by
    refine (deleteAccount_statements t account).held_others h g hg ?_
    obtain ⟨_, hg⟩ := List.mem_filter.mp hg
    simpa using hg

/-- Deleting accounts one by one: the shape stays, the other accounts stay as they were
and no folder of a deleted account is left. -/
theorem deleteAccounts_spec (h : Shape t) (accounts : List AccountId) :
    Shape (accounts.foldl (fun t account => t.deleteAccount account) t) ∧
      (∀ other, (∀ account ∈ accounts, other ≠ account.asStr) →
        (accounts.foldl (fun t account => t.deleteAccount account) t).part other = t.part other) ∧
      ∀ f ∈ (accounts.foldl (fun t account => t.deleteAccount account) t).folders,
        f ∈ t.folders ∧ ∀ account ∈ accounts, f.account ≠ account.asStr := by
  induction accounts generalizing t with
  | nil => exact ⟨h, fun _ _ => rfl, fun f hf => ⟨hf, nofun⟩⟩
  | cons account accounts ih =>
    obtain ⟨hshape, hpart, hfolders⟩ := ih (deleteAccount_shape h account)
    refine ⟨hshape, fun other hother => ?_, fun f hf => ?_⟩
    · rw [List.foldl_cons, hpart other fun a ha => hother a (List.mem_cons_of_mem _ ha)]
      exact (deleteAccount_statements t account).part h.toLinked (hother account List.mem_cons_self)
    · obtain ⟨hf, hrest⟩ := hfolders f hf
      obtain ⟨hf, hkept⟩ := List.mem_filter.mp hf
      exact ⟨hf, List.forall_mem_cons.mpr ⟨by simpa using hkept, hrest⟩⟩

/-- No row of an account without a folder. -/
theorem Shape.part_empty (h : Shape t) {other : String}
    (hother : ∀ f ∈ t.folders, f.account ≠ other) : t.part other = .empty := by
  have hfolders : (t.folders.filter fun r => r.account = other) = [] := by
    simpa [List.filter_eq_nil_iff] using hother
  have hmessages : (t.messages.filter fun r => r.account = other) = [] := by
    rw [List.filter_eq_nil_iff]
    intro g hg hacc
    obtain ⟨f, hf, hfacc⟩ := h.folder_of_message hg
    exact hother f hf (hfacc.trans (by simpa using hacc))
  have hmemberships : t.memberships.filter (t.inAccount other) = [] := by
    rw [List.filter_eq_nil_iff]
    intro m _ hin
    obtain ⟨f, hf, _, hacc⟩ := Tables.inAccount_iff.mp hin
    exact hother f hf hacc
  rw [Tables.part, hfolders, hmessages, hmemberships]
  rfl

theorem mem_otherAccounts {current : List AccountId} {account : AccountId} :
    account ∈ t.otherAccounts current ↔
      (∃ f ∈ t.folders, AccountId.tryFrom f.account = some account) ∧ account ∉ current := by
  simp [Tables.otherAccounts]

/-- Deleting the other accounts leaves each current account as it was and no row of the
others. -/
theorem deleteOtherAccounts_spec (h : Shape t) (current : List AccountId) :
    Shape (t.deleteOtherAccounts current) ∧
      (∀ account ∈ current,
        (t.deleteOtherAccounts current).part account.asStr = t.part account.asStr) ∧
      ∀ other, (∀ account ∈ current, account.asStr ≠ other) →
        (t.deleteOtherAccounts current).part other = .empty := by
  obtain ⟨hshape, hpart, hfolders⟩ := deleteAccounts_spec h (t.otherAccounts current)
  refine ⟨hshape, fun account hcur => hpart _ fun a ha hsame => ?_, fun other hother =>
    hshape.part_empty ?_⟩
  · obtain ⟨-, hnot⟩ := mem_otherAccounts.mp ha
    exact hnot (AccountId.asStr_injective hsame ▸ hcur)
  · rintro f hf rfl
    obtain ⟨hf, hdeleted⟩ := hfolders f hf
    have hnamed : AccountId.tryFrom f.account = some ⟨f.account, h.named f hf⟩ :=
      dif_neg (h.named f hf)
    refine hdeleted ⟨f.account, h.named f hf⟩
      (mem_otherAccounts.mpr ⟨⟨f, hf, hnamed⟩, fun hcur => ?_⟩) rfl
    exact hother _ hcur rfl

/-! ### The shape -/

theorem perform_shape (h : Shape t) (cancelled : Bool) (op : StoreCall) :
    Shape (perform t cancelled op).2 := by
  cases haccount : op.account? with
  | some account =>
    obtain ⟨hs, hheld⟩ := perform_statements h cancelled op haccount
    exact ⟨hs.linked h.toLinked, hheld⟩
  | none =>
    cases op <;> cases haccount
    exact (deleteOtherAccounts_spec h _).1

/-- Every operation keeps the shape. -/
theorem call_shape (h : Shape t) (op : StoreCall) (met : Circumstances) :
    Shape (call t op met).2 := by
  rw [call]
  split
  · exact h
  · exact perform_shape h met.cancelled op

/-- So does every sequence of operations. -/
theorem run_shape (h : Shape t) (calls : List (StoreCall × Circumstances)) :
    Shape (run t calls) := by
  induction calls generalizing t with
  | nil => exact h
  | cons c calls ih => exact ih (call_shape h c.1 c.2)

/-- An operation given one account leaves every row of every other account. -/
theorem call_part (h : Shape t) {op : StoreCall} (haccount : op.account? = some account)
    (met : Circumstances) {other : String} (hother : other ≠ account.asStr) :
    (call t op met).2.part other = t.part other := by
  rw [call]
  split
  · rfl
  · exact (perform_statements h met.cancelled op haccount).1.part h.toLinked hother

/-- **The store's shape**: after any operations from an empty store, with any
cancellations and failures, every message is held by a folder, memberships join folders
and messages of one account, no account has two folders or two messages of one
identity, and no account without a folder has a message. A further operation given one
account leaves every row of the others; deleting the other accounts leaves the current
ones as they were, and no row of the others. -/
theorem store_shape (calls : List (StoreCall × Circumstances)) :
    Shape (run .empty calls) ∧
      (∀ g ∈ (run .empty calls).messages, ∃ f ∈ (run .empty calls).folders, f.account = g.account) ∧
      ∀ op met,
        (∀ account, op.account? = some account → ∀ other, other ≠ account.asStr →
          (call (run .empty calls) op met).2.part other = (run .empty calls).part other) ∧
        ∀ current, op = .deleteOtherAccounts current →
          (∀ account ∈ current,
            (call (run .empty calls) op met).2.part account.asStr = (run .empty calls).part
              account.asStr) ∧
          (met.fault = none → ∀ other, (∀ account ∈ current, account.asStr ≠ other) →
            (call (run .empty calls) op met).2.part other = .empty) := by
  have h : Shape (run .empty calls) := run_shape shape_empty calls
  refine ⟨h, fun g hg => h.folder_of_message hg, fun op met =>
    ⟨fun account hacc other hother => ?_, ?_⟩⟩
  · exact call_part h hacc met hother
  · rintro current rfl
    obtain ⟨-, hkept, hremoved⟩ := deleteOtherAccounts_spec h current
    rw [call]
    split
    · rename_i error hfault
      exact ⟨fun _ _ => rfl, fun hnone => by rw [hnone] at hfault; cases hfault⟩
    · exact ⟨hkept, fun _ => hremoved⟩

end Mailbag.Store
