import Mailbag.Store.Updates

/-!
# What the operations do to the stored mail

What a whole batch does to the messages, the folders' messages, their flags and the folder's state:
`applyBatch_values`, `applyBatch_holds`, `applyBatch_heldFlags` and `applyBatch_state`, and what
the operations on the flags do. The cycles are verified with these and never look at a row.
-/

namespace Mailbag.Store

open Collections

variable {account : AccountId} {folderId : ℕ} {t u : Tables} {folder : FolderRef}

/-! ### A batch -/

/-- The state a row is written with is the state read back: a mod-sequence keeps its 64 bits. -/
@[simp] theorem StoredFolder.state_withState (row : StoredFolder) (state : FolderState) :
    (row.withState state).state = state := by
  obtain ⟨position, place, synchronized, numbers⟩ := state
  cases numbers with
  | none => rfl
  | some numbers =>
    obtain ⟨validity, count, next, modseq⟩ := numbers
    cases modseq <;> simp [StoredFolder.state, StoredFolder.withState]

/-- The tables before a batch's state is saved. -/
def Tables.applyMail (t : Tables) (folderId : ℕ) (account : AccountId) (batch : FolderBatch) :
    Tables :=
  (((t.applyRemovals folderId account batch.removed).setFlagStates account
    batch.flagStates).storeArrived folderId account
    batch.arrived).relateKnown folderId account batch.knownArrived

theorem applyBatch_eq (t : Tables) (folderId : ℕ) (account : AccountId) (batch : FolderBatch) :
    t.applyBatch folderId account batch =
      match batch.state with
      | some state => (t.applyMail folderId account batch).writeFolderState folderId state
      | none => t.applyMail folderId account batch := rfl

/-- The flags of a message a batch leaves, from those it has after the batch's removals. -/
def reported (batch : FolderBatch) (identity : String) (v : Option FlagValues) :
    Option FlagValues :=
  let listed : Option FlagValues :=
    v.map fun v => { v with server := (latest identity batch.flagStates).getD v.server }
  let arrived : Option FlagValues :=
    match latest identity (batch.arrived.map fun m => (m.identity, m.flags)) with
    | some flags => some ⟨flags, (listed.map FlagValues.pending).getD fun _ => none⟩
    | none => listed
  arrived.map fun v => { v with server := (latest identity batch.knownArrived).getD v.server }

theorem relateKnown_values (h : t.Opened folder folderId) (known : List (String × MessageFlags))
    (account identity : String) :
    (t.relateKnown folderId folder.account known).values? account identity =
      (t.values? account identity).map fun v =>
        { v with server := (if account = folder.account.asStr then latest identity known
          else none).getD v.server } := by
  rw [Tables.relateKnown, setFlagStates_values, (relateAll_spec h known).1]

theorem opened_afterRemovals (h : Shape t) (ho : t.Opened folder folderId) (removed : List String) :
    (t.applyRemovals folderId folder.account removed).Opened folder folderId :=
  ho.of_tidy (applyRemovals_statements h ho.hasFolder removed).1 (applyRemovals_folders _ _ _ _)

theorem opened_afterArrived (h : Shape t) (ho : t.Opened folder folderId)
    (batch : FolderBatch) :
    (((t.applyRemovals folderId folder.account batch.removed).setFlagStates folder.account
      batch.flagStates).storeArrived
      folderId folder.account batch.arrived).Opened folder folderId := by
  have h₁ := opened_afterRemovals h ho batch.removed
  have h₂ := h₁.of_tidy (setFlagStates_tidy _ folder.account batch.flagStates).statements
    (setFlagStates_folder _ _ _)
  exact h₂.of_tidy (storeArrived_tidy h₂.hasFolder batch.arrived).statements
    (storeArrived_folders _ _ _ _)

/-- **The flags after a batch**: of the account's own messages, what the batch reports last. -/
theorem applyMail_values (h : Shape t) (ho : t.Opened folder folderId) (batch : FolderBatch)
    (identity : String) :
    (t.applyMail folderId folder.account batch).values? folder.account.asStr identity =
      reported batch identity ((t.applyRemovals folderId folder.account batch.removed).values?
        folder.account.asStr identity) := by
  rw [Tables.applyMail, relateKnown_values (opened_afterArrived h ho batch), storeArrived_values,
    setFlagStates_values]
  simp only [if_true]
  rfl

/-- The messages of other accounts are as they were. -/
theorem applyMail_values_other (h : Shape t) (ho : t.Opened folder folderId) (batch : FolderBatch)
    {account : String} (ha : account ≠ folder.account.asStr) (identity : String) :
    (t.applyMail folderId folder.account batch).values? account identity =
      (t.applyRemovals folderId folder.account batch.removed).values? account identity := by
  rw [Tables.applyMail, relateKnown_values (opened_afterArrived h ho batch), storeArrived_values,
    setFlagStates_values]
  simp [ha]

/-- **What the folders hold after a batch.** -/
theorem applyMail_holds (h : Shape t) (ho : t.Opened folder folderId) (batch : FolderBatch)
    (account fo identity : String) :
    (t.applyMail folderId folder.account batch).Holds account fo identity ↔
      (t.Holds account fo identity ∧ ¬((account, fo) = (folder.account.asStr, folder.identity) ∧
        identity ∈ batch.removed)) ∨
        (account, fo) = (folder.account.asStr, folder.identity) ∧
          (identity ∈ batch.arrived.map Message.identity ∨
            identity ∈ batch.knownArrived.map Prod.fst ∧
              ((t.applyRemovals folderId folder.account batch.removed).values? folder.account.asStr
                identity).isSome) := by
  have h₁ := opened_afterRemovals h ho batch.removed
  have h₂ := h₁.of_tidy (setFlagStates_tidy _ folder.account batch.flagStates).statements
    (setFlagStates_folder _ _ _)
  have h₃ := opened_afterArrived h ho batch
  rw [Tables.applyMail, Tables.relateKnown, setFlagStates_holds,
    (relateAll_spec h₃ batch.knownArrived).2.2, storeArrived_holds h₂, setFlagStates_holds,
    applyRemovals_holds ho, storeArrived_values, setFlagStates_values]
  simp only [if_true]
  cases hl : latest identity (batch.arrived.map fun m => (m.identity, m.flags)) with
  | none =>
    simp only [Option.isSome_map]
    tauto
  | some flags =>
    have harrived : identity ∈ batch.arrived.map Message.identity := by
      have hs : (latest identity (batch.arrived.map fun m => (m.identity, m.flags))).isSome := by
        rw [hl]; rfl
      rw [latest_isSome_iff, List.map_map] at hs
      exact hs
    simp only [harrived, Option.isSome_some]
    tauto

/-- Saving the state changes no message. -/
theorem applyBatch_values (t : Tables) (folderId : ℕ) (account : AccountId)
    (batch : FolderBatch) :
    (t.applyBatch folderId account batch).values? =
      (t.applyMail folderId account batch).values? := by
  rw [applyBatch_eq]
  split <;> rfl

theorem applyMail_folders (t : Tables) (ho : t.Opened folder folderId) (h : Shape t)
    (batch : FolderBatch) : (t.applyMail folderId folder.account batch).folders = t.folders := by
  rw [Tables.applyMail, Tables.relateKnown, setFlagStates_folder,
    (relateAll_spec (opened_afterArrived h ho batch) _).2.1, storeArrived_folders,
    setFlagStates_folder, applyRemovals_folders]

theorem opened_afterMail (h : Shape t) (ho : t.Opened folder folderId) (batch : FolderBatch) :
    (t.applyMail folderId folder.account batch).Opened folder folderId := by
  have h₃ := opened_afterArrived h ho batch
  refine h₃.of_tidy (relateKnown_tidy h₃.hasFolder batch.knownArrived).statements ?_
  rw [Tables.applyMail, Tables.relateKnown, setFlagStates_folder, (relateAll_spec h₃ _).2.1]

theorem applyBatch_shape (h : Shape t) (ho : t.Opened folder folderId) (batch : FolderBatch) :
    Shape (t.applyBatch folderId folder.account batch) := by
  obtain ⟨hs, hheld⟩ := applyBatch_statements h ho.hasFolder batch
  exact ⟨hs.linked h.toLinked, hheld⟩

theorem applyBatch_holds (h : Shape t) (ho : t.Opened folder folderId) (batch : FolderBatch)
    (account fo identity : String) :
    (t.applyBatch folderId folder.account batch).Holds account fo identity ↔
      (t.applyMail folderId folder.account batch).Holds account fo identity := by
  rw [applyBatch_eq]
  split
  · have ho' := opened_afterMail h ho batch
    obtain ⟨f, hf, rfl, _⟩ := ho'.row
    exact writeFolderState_holds ho'.linked hf _ _ _ _
  · rfl

/-- **The folder after a batch**: what it holds, with which server flags. -/
theorem applyBatch_heldFlags (h : Shape t) (ho : t.Opened folder folderId) (batch : FolderBatch)
    (identity : String) :
    (t.applyBatch folderId folder.account batch).heldFlags folder identity =
      match latest identity batch.knownArrived with
      | some flags =>
        if ((t.applyRemovals folderId folder.account batch.removed).values? folder.account.asStr
          identity).isSome ∨
            identity ∈ batch.arrived.map Message.identity then some flags
        else none
      | none =>
        match latest identity (batch.arrived.map fun m => (m.identity, m.flags)) with
        | some flags => some flags
        | none =>
          if identity ∈ batch.removed then none
          else (t.heldFlags folder identity).map fun flags =>
              (latest identity batch.flagStates).getD flags := by
  have hholds := (applyBatch_holds h ho batch folder.account.asStr folder.identity identity).trans
    (applyMail_holds h ho batch folder.account.asStr folder.identity identity)
  have hremoved := applyRemovals_holds ho batch.removed folder.account.asStr
    folder.identity identity
  have harrived : identity ∈ batch.arrived.map Message.identity ↔
      (latest identity (batch.arrived.map fun m => (m.identity, m.flags))).isSome := by
    rw [latest_isSome_iff, List.map_map]
    rfl
  have hknown : identity ∈ batch.knownArrived.map Prod.fst ↔
      (latest identity batch.knownArrived).isSome :=
    latest_isSome_iff.symm
  simp only [true_and] at hholds hremoved
  rw [Tables.heldFlags, applyBatch_values, applyMail_values h ho, reported]
  simp only [hholds, harrived, hknown]
  generalize hv : (t.applyRemovals folderId folder.account batch.removed).values?
    folder.account.asStr identity = v
  have hnone : v = none → ¬(t.Holds folder.account.asStr folder.identity identity ∧
      identity ∉ batch.removed) := by
    rintro rfl hheld
    have := values_isSome_of_holds (hremoved.mpr hheld)
    rw [hv] at this
    cases this
  cases hk : latest identity batch.knownArrived with
  | some flags =>
    cases ha : latest identity (batch.arrived.map fun m => (m.identity, m.flags)) with
    | some flags' => simp
    | none =>
      cases v with
      | some v => simp
      | none => simp
  | none =>
    cases ha : latest identity (batch.arrived.map fun m => (m.identity, m.flags)) with
    | some flags' => simp
    | none =>
      by_cases hr : identity ∈ batch.removed
      · simp [hr]
      · cases v with
        | some v =>
          have hsame := applyRemovals_values ho batch.removed hv
          simp only [Tables.heldFlags, hsame, hr]
          split <;> simp_all
        | none =>
          have : ¬t.Holds folder.account.asStr folder.identity identity :=
            fun hheld => hnone rfl ⟨hheld, hr⟩
          simp [Tables.heldFlags, this, hr]

theorem state_eq_of_folders (hfolders : u.folders = t.folders) :
    u.state? folder = t.state? folder := by
  rw [Tables.state?, Tables.folder?, hfolders]
  rfl

/-- **The folder's state after a batch**: the one the batch carries, else the one it had. -/
theorem applyBatch_state (h : Shape t) (ho : t.Opened folder folderId) (batch : FolderBatch) :
    (t.applyBatch folderId folder.account batch).state? folder = batch.state.or
      (t.state? folder) := by
  rw [applyBatch_eq]
  cases batch.state with
  | none => exact state_eq_of_folders (applyMail_folders t ho h batch)
  | some state =>
    have ho' := opened_afterMail h ho batch
    obtain ⟨f, hf, rfl, hfound⟩ := ho'.found
    simp only [Tables.state?, writeFolderState_folder ho'.linked hf, hfound, Option.map_some,
      if_true, StoredFolder.state_withState, Option.some_or]

/-! ### The flags' operations -/

/-- Values as an update of the pending or the server's flags leaves them. -/
theorem updateMessages_values (t : Tables) (a : AccountId) (identities : List String)
    {f : StoredMessage → StoredMessage} (hkey : ∀ r, (f r).key = r.key)
    {g : FlagValues → FlagValues} (hg : ∀ r, (f r).values = g r.values) (hidem : ∀ v, g (g v) = g v)
    (account identity : String) :
    (t.updateMessages a identities f).values? account identity =
      if account = a.asStr ∧ identity ∈ identities then (t.values? account identity).map g
      else t.values? account identity := by
  induction identities generalizing t with
  | nil => simp [Tables.updateMessages]
  | cons i identities ih =>
    have := ih (t.updateMessage a.asStr i f)
    rw [Tables.updateMessages] at *
    rw [List.foldl_cons, this, updateMessage_values t a i hkey hg]
    by_cases ha : account = a.asStr
    · by_cases hi : identity = i
      · subst ha hi
        cases t.values? a.asStr identity <;> simp [hidem]
      · simp [ha, hi]
    · simp [ha]

theorem updateMessages_holds (t : Tables) (a : AccountId) (identities : List String)
    {f : StoredMessage → StoredMessage} (hid : ∀ r, (f r).id = r.id) (hkey : ∀ r, (f r).key = r.key)
    (account fo identity : String) :
    (t.updateMessages a identities f).Holds account fo identity ↔ t.Holds account fo identity := by
  induction identities generalizing t with
  | nil => rfl
  | cons i identities ih => exact (ih _).trans (updateMessage_holds t a i hid hkey _ _ _)

theorem updateMessages_folders (t : Tables) (a : AccountId) (identities : List String)
    (f : StoredMessage → StoredMessage) :
    (t.updateMessages a identities f).folders = t.folders := by
  induction identities generalizing t with
  | nil => rfl
  | cons i identities ih => exact ih _

/-- The flags with another value of one. -/
def setFlag (flag : MessageFlag) (value : Bool) (flags : MessageFlags) : MessageFlags :=
  match flag with
  | .seen => { flags with seen := value }
  | .flagged => { flags with flagged := value }

/-- The flags with another pending value of one. -/
def FlagValues.withPending (v : FlagValues) (flag : MessageFlag) (wanted : Option Bool) :
    FlagValues :=
  { v with pending := fun f => if f = flag then wanted else v.pending f }

/-- The flags after the server was seen to hold a value. -/
def FlagValues.settled (v : FlagValues) (flag : MessageFlag) (value : Bool) : FlagValues :=
  ({ v with server := setFlag flag value v.server } : FlagValues).withPending flag
    (nullIf (v.pending flag) value)

/-- The flags after the server refused a value. -/
def FlagValues.dropped (v : FlagValues) (flag : MessageFlag) (refused : Bool) : FlagValues :=
  v.withPending flag (nullIf (v.pending flag) refused)

theorem values_withPending (row : StoredMessage) (flag : MessageFlag) (wanted : Option Bool) :
    (row.withPending flag wanted).values = row.values.withPending flag wanted := by
  refine congrArg₂ FlagValues.mk ?_ (funext fun f => ?_)
  · cases flag <;> rfl
  · cases flag <;> cases f <;> rfl

theorem values_withFlag (row : StoredMessage) (flag : MessageFlag) (value : Bool) :
    (row.withFlag flag value).values =
      { row.values with server := setFlag flag value row.values.server } := by
  refine congrArg₂ FlagValues.mk ?_ (funext fun f => ?_)
  · cases flag <;> rfl
  · cases flag <;> cases f <;> rfl

theorem values_settled (row : StoredMessage) (flag : MessageFlag) (value : Bool) :
    ((row.withFlag flag value).withPending flag (nullIf (row.pending flag) value)).values =
      row.values.settled flag value := by
  rw [values_withPending, values_withFlag]
  rfl

theorem values_dropped (row : StoredMessage) (flag : MessageFlag) (refused : Bool) :
    (row.withPending flag (nullIf (row.pending flag) refused)).values = row.values.dropped flag
      refused :=
  values_withPending row flag _

theorem nullIf_nullIf (pending : Option Bool) (value : Bool) :
    nullIf (nullIf pending value) value = nullIf pending value := by
  rw [nullIf, nullIf]
  split <;> simp_all

theorem FlagValues.pending_withPending (v : FlagValues) (flag : MessageFlag) (wanted : Option Bool)
    (f : MessageFlag) :
    (v.withPending flag wanted).pending f = if f = flag then wanted else v.pending f := rfl

theorem FlagValues.settled_settled (v : FlagValues) (flag : MessageFlag) (value : Bool) :
    (v.settled flag value).settled flag value = v.settled flag value := by
  refine congrArg₂ FlagValues.mk ?_ (funext fun f => ?_)
  · cases flag <;> rfl
  · by_cases hf : f = flag <;> simp [FlagValues.settled, FlagValues.withPending, hf, nullIf_nullIf]

theorem FlagValues.dropped_dropped (v : FlagValues) (flag : MessageFlag) (refused : Bool) :
    (v.dropped flag refused).dropped flag refused = v.dropped flag refused := by
  refine congrArg₂ FlagValues.mk rfl (funext fun f => ?_)
  by_cases hf : f = flag <;> simp [FlagValues.dropped, FlagValues.withPending, hf, nullIf_nullIf]

/-- The window writes a wish. -/
theorem writePending_values (t : Tables) (a : AccountId) (i : String) (flag : MessageFlag)
    (wanted : Option Bool) (account identity : String) :
    (t.updateMessage a.asStr i fun row => row.withPending flag wanted).values? account identity =
      if (account, identity) = (a.asStr, i) then
        (t.values? account identity).map fun v => v.withPending flag wanted
      else t.values? account identity :=
  updateMessage_values t a i (f := fun row => row.withPending flag wanted)
    (fun r => r.withPending_key flag _)
    (g := fun v => v.withPending flag wanted) (fun r => values_withPending r flag _) _ _

/-- The server was seen to hold a value. -/
theorem settle_values (t : Tables) (a : AccountId) (identities : List String) (flag : MessageFlag)
    (value : Bool) (account identity : String) :
    (t.updateMessages a identities fun row =>
        (row.withFlag flag value).withPending flag (nullIf (row.pending flag) value)).values?
        account identity =
      if account = a.asStr ∧ identity ∈ identities then
        (t.values? account identity).map fun v => v.settled flag value
      else t.values? account identity :=
  updateMessages_values t a identities
    (fun r => by rw [StoredMessage.withPending_key, StoredMessage.withFlag_key])
    (g := fun v => v.settled flag value) (fun r => values_settled r flag value)
      (fun v => v.settled_settled flag value) _ _

/-- The server refused a value. -/
theorem drop_values (t : Tables) (a : AccountId) (identities : List String) (flag : MessageFlag)
    (refused : Bool) (account identity : String) :
    (t.updateMessages a identities fun row => row.withPending flag
      (nullIf (row.pending flag) refused)).values? account identity =
      if account = a.asStr ∧ identity ∈ identities then
        (t.values? account identity).map fun v => v.dropped flag refused
      else t.values? account identity :=
  updateMessages_values t a identities (fun r => r.withPending_key flag _)
    (g := fun v => v.dropped flag refused)
    (fun r => values_dropped r flag refused) (fun v => v.dropped_dropped flag refused) _ _

end Mailbag.Store
