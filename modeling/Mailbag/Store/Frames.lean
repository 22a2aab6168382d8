import Mailbag.Store.Effect

/-!
# What a call reads, and what it leaves alone

A cycle's readings tell it what the tables hold: `readFolderSync_spec` says so of the
reading a cycle starts from. Of the other calls of a cycle and of the window, only a
batch moves messages: `Stays` is what all of them keep, `Kept` what all but the
settling of a flag keep, and `storeBatch_spec` is what a batch does.
-/

namespace Mailbag.Store

open Collections

variable {t u v : Tables} {folder : FolderRef} {folderId : ℕ}

/-! ### Readings -/

/-- The messages a folder holds are the account's rows it is related to. -/
theorem mem_heldMessages (h : t.Opened folder folderId) {row : StoredMessage} :
    row ∈ t.heldMessages folderId ↔ t.message? folder.account.asStr row.identity = some row ∧
      t.Holds folder.account.asStr folder.identity row.identity := by
  obtain ⟨f, hf, rfl, hfk⟩ := h.row
  have hfound : t.folder? folder.account.asStr folder.identity = some f :=
    h.linked.folderKeys.lookup_eq_some_iff.mpr ⟨hf, hfk⟩
  rw [Tables.heldMessages, List.mem_filterMap]
  constructor
  · rintro ⟨m, hm, hrow⟩
    split at hrow
    · rename_i hmf
      have hmem := mem_of_lookup hrow
      have hid : row.id = m.message := key_of_lookup hrow
      obtain ⟨f', hf', g, hg, hfm, hgm, hacc⟩ := h.linked.joins m hm
      have hgr : g = row := h.linked.messageIds.eq_of_key hg hmem (hgm.trans hid.symm)
      have hff : f' = f := h.linked.folderIds.eq_of_key hf' hf (hfm.trans hmf)
      have hkey : row.key = (folder.account.asStr, row.identity) :=
        Prod.ext (by rw [← hgr]; exact hacc.symm.trans (by rw [hff]; exact congrArg Prod.fst hfk))
          rfl
      have hmessage : t.message? folder.account.asStr row.identity = some row :=
        h.linked.messageKeys.lookup_eq_some_iff.mpr ⟨hmem, hkey⟩
      refine ⟨hmessage, f, row, hfound, hmessage, ?_⟩
      have : (⟨f.id, row.id⟩ : Membership) = m := by rw [hid, ← hmf]
      rwa [this]
    · cases hrow
  · rintro ⟨hmessage, f', g, hf', hg, hm⟩
    cases hfound.symm.trans hf'
    cases hmessage.symm.trans hg
    refine ⟨_, hm, ?_⟩
    rw [if_pos rfl]
    exact h.linked.messageIds.lookup_of_mem (mem_of_lookup hmessage)

/-- The flags of a message by its identity among the rows read. -/
theorem lookup_heldMessages (h : t.Opened folder folderId) (identity : String) :
    (t.readFolderIdentities folderId).lookup identity = t.heldFlags folder identity := by
  rw [Tables.readFolderIdentities, Tables.heldFlags]
  cases hl : ((t.heldMessages folderId).map fun row => (row.identity, row.flags)).lookup
    identity with
  | some flags =>
    obtain ⟨l, r, heq, -⟩ := List.lookup_eq_some_iff.mp hl
    have hmem : (identity, flags) ∈ (t.heldMessages folderId).map fun row =>
        (row.identity, row.flags) := by
      rw [heq]
      exact List.mem_append_right _ List.mem_cons_self
    obtain ⟨row, hrow, he⟩ := List.mem_map.mp hmem
    obtain ⟨rfl, rfl⟩ := Prod.mk.inj he
    obtain ⟨hmessage, hholds⟩ := (mem_heldMessages h).mp hrow
    rw [if_pos hholds, Tables.values?, hmessage]
    rfl
  | none =>
    rw [if_neg]
    rintro hholds
    obtain ⟨_, g, _, hg, _⟩ := id hholds
    have hgi : g.identity = identity := congrArg Prod.snd (key_of_lookup hg)
    have hmem : g ∈ t.heldMessages folderId :=
      (mem_heldMessages h).mpr ⟨hgi.symm ▸ hg, hgi.symm ▸ hholds⟩
    have := List.lookup_eq_none_iff.mp hl (identity, g.flags)
      (List.mem_map.mpr ⟨g, hmem, by rw [hgi]⟩)
    simp at this

theorem readFolderState_eq (h : t.Opened folder folderId) :
    t.readFolderState folderId = t.state? folder := by
  obtain ⟨f, hf, rfl, hfk⟩ := h.row
  rw [Tables.readFolderState, Tables.state?, h.linked.folderIds.lookup_of_mem hf, Tables.folder?,
    ← hfk, h.linked.folderKeys.lookup_of_mem hf]

theorem state_isSome (h : t.Opened folder folderId) : (t.state? folder).isSome := by
  obtain ⟨f, -, -, hfound⟩ := h.found
  rw [Tables.state?, hfound]
  rfl

theorem perform_of_call {op : StoreCall} {result : op.Result} {met : Circumstances}
    (hcall : call t op met = (.ok result, u)) : perform t met.cancelled op = (.ok result, u) := by
  rw [call] at hcall
  split at hcall
  · cases hcall
  · cases hp : perform t met.cancelled op with
    | mk answer after =>
      rw [hp] at hcall
      obtain ⟨hresult, hafter⟩ := Prod.mk.inj hcall
      cases answer with
      | error e => cases hresult
      | ok a => rw [Except.ok.inj hresult, hafter]

/-- The readings of a folder at the start of a cycle leave the tables as they are. -/
theorem call_reading {op : StoreCall}
    (hop : op = .readFolderSync folder ∨ op = .readPendingChanges folder) (t : Tables)
    (met : Circumstances) : (call t op met).2 = t := by
  rw [call]
  cases met.fault with
  | some error => rfl
  | none =>
    rcases hop with rfl | rfl
    · cases hread : t.readFolderSync folder <;> simp [perform, hread]
    · cases hread : t.storedFolderId folder <;> simp [perform, hread]

/-- **What a cycle starts from** is the folder's state, and the messages it holds with the
server's flags. -/
theorem readFolderSync_spec (h : Linked t) {sync : FolderSync} {met : Circumstances}
    (hcall : call t (.readFolderSync folder) met = (.ok sync, u)) :
    u = t ∧ t.state? folder = some sync.state ∧
      ∀ identity, sync.get identity = t.heldFlags folder identity := by
  have hp := perform_of_call hcall
  rw [perform] at hp
  split at hp
  · rename_i hread
    cases hp
    rw [Tables.readFolderSync, Option.bind_eq_bind, Option.bind_eq_some_iff] at hread
    obtain ⟨folderId, hid, hread⟩ := hread
    rw [Option.bind_eq_bind, Option.bind_eq_some_iff] at hread
    obtain ⟨state, hstate, hread⟩ := hread
    cases hread
    have ho := opened_of_storedFolderId h hid
    exact ⟨rfl, (readFolderState_eq ho).symm.trans hstate, fun identity => lookup_heldMessages ho
      identity⟩
  · cases hp

/-- A message the folder holds has flags among those read. -/
theorem get_isSome_iff {stored : FolderSync} {identity : String} :
    (stored.get identity).isSome ↔ identity ∈ stored.stored.map Prod.fst := by
  rw [FolderSync.get, List.lookup_isSome_iff, List.mem_map]
  simp only [beq_iff_eq, eq_comm (a := identity)]

theorem storedIdentities_spec {account : AccountId} {identities known : List String}
    {met : Circumstances}
    (hcall : call t (.storedIdentities account identities) met = (.ok known, u)) :
    u = t ∧ ∀ identity, identity ∈ known ↔ identity ∈ identities ∧
      (t.values? account.asStr identity).isSome := by
  cases perform_of_call hcall
  refine ⟨rfl, fun identity => ?_⟩
  rw [Tables.readStoredIdentities, List.mem_filter, Tables.values?, Option.isSome_map]

theorem identitiesInOtherFolders_spec (h : Linked t) {identities held : List String}
    {met : Circumstances}
    (hcall : call t (.identitiesInOtherFolders folder identities) met = (.ok held, u)) :
    u = t ∧ ∀ identity, identity ∈ held ↔
      identity ∈ identities ∧ ∃ fo, fo ≠ folder.identity ∧
      t.Holds folder.account.asStr fo identity := by
  cases perform_of_call hcall
  refine ⟨rfl, fun identity => ?_⟩
  rw [Tables.readIdentitiesInOtherFolders, List.mem_filter]
  refine and_congr_right fun _ => ?_
  simp only [List.any_eq_true, Bool.and_eq_true, decide_eq_true_eq, bne_iff_ne]
  constructor
  · rintro ⟨g, hg, hkey, m, hm, hgm, f, hf, hfm, hother⟩
    obtain ⟨f', hf', g', hg', hfm', hgm', hacc⟩ := h.joins m hm
    obtain rfl := h.folderIds.eq_of_key hf hf' (hfm.trans hfm'.symm)
    obtain rfl := h.messageIds.eq_of_key hg hg' (hgm.symm.trans hgm'.symm)
    have hfkey : f.key = (folder.account.asStr, f.identity) :=
      Prod.ext (hacc.trans (congrArg Prod.fst hkey)) rfl
    exact ⟨f.identity, hother, h.holds_iff.mpr ⟨f, hf, g, hg, hfkey, hkey, by rwa [hfm, ← hgm]⟩⟩
  · rintro ⟨fo, hother, hholds⟩
    obtain ⟨f, hf, g, hg, hfkey, hkey, hm⟩ := h.holds_iff.mp hholds
    have hfo : f.identity = fo := congrArg Prod.snd hfkey
    exact ⟨g, hg, hkey, _, hm, rfl, f, hf, rfl, hfo ▸ hother⟩

theorem heldMessages_unique (h : t.Opened folder folderId) :
    Collections.Unique StoredMessage.identity (t.heldMessages folderId) := by
  have hheld : ∀ {m : Membership} {row : StoredMessage}, m ∈ t.memberships →
      (if m.folder = folderId then t.messageById m.message else none) = some row →
        row ∈ t.heldMessages folderId ∧ m = ⟨folderId, row.id⟩ := by
    intro m row hm hrow
    refine ⟨List.mem_filterMap.mpr ⟨m, hm, hrow⟩, ?_⟩
    split at hrow
    · rename_i hfolder
      rw [← hfolder, key_of_lookup hrow]
    · cases hrow
  rw [Collections.Unique, List.Nodup, List.pairwise_map, Tables.heldMessages,
    List.pairwise_filterMap]
  refine h.linked.memberships.imp_of_mem fun {m m'} hm hm' hne row hrow row' hrow' hsame => hne ?_
  obtain ⟨hmem, rfl⟩ := hheld hm hrow
  obtain ⟨hmem', rfl⟩ := hheld hm' hrow'
  have hmessage := ((mem_heldMessages h).mp hmem).1
  have hmessage' := ((mem_heldMessages h).mp hmem').1
  rw [hsame] at hmessage
  rw [Option.some.inj (hmessage.symm.trans hmessage')]

/-- The user's wish for a flag of a message. -/
def Tables.wish? (t : Tables) (account identity : String) (flag : MessageFlag) : Option Bool :=
  (t.values? account identity).bind fun v => v.pending flag

theorem readPendingChanges_spec (h : Linked t) {changes : List PendingChange} {met : Circumstances}
    (hcall : call t (.readPendingChanges folder) met = (.ok changes, u)) :
    u = t ∧ ∀ c ∈ changes, t.Holds folder.account.asStr folder.identity c.identity ∧
      t.wish? folder.account.asStr c.identity c.flag = some c.wanted := by
  have hp := perform_of_call hcall
  rw [perform] at hp
  split at hp
  · rename_i folderId hid
    cases hp
    refine ⟨rfl, fun c hc => ?_⟩
    rw [Tables.readPendingChanges, List.mem_flatMap] at hc
    obtain ⟨row, hrow, hc⟩ := hc
    obtain ⟨hmessage, hholds⟩ := (mem_heldMessages (opened_of_storedFolderId h hid)).mp hrow
    rcases List.mem_append.mp hc with hc | hc
    · obtain ⟨wanted, hwanted, rfl⟩ := Option.map_eq_some_iff.mp (Option.mem_toList.mp hc)
      exact ⟨hholds, by rw [Tables.wish?, Tables.values?, hmessage]; exact hwanted⟩
    · obtain ⟨wanted, hwanted, rfl⟩ := Option.map_eq_some_iff.mp (Option.mem_toList.mp hc)
      exact ⟨hholds, by rw [Tables.wish?, Tables.values?, hmessage]; exact hwanted⟩
  · cases hp

/-- What a pending change is for: a flag of a message. -/
def PendingChange.key (change : PendingChange) : String × MessageFlag :=
  (change.identity, change.flag)

theorem readPendingChanges_unique (h : Linked t) {changes : List PendingChange}
    {met : Circumstances}
    (hcall : call t (.readPendingChanges folder) met = (.ok changes, u)) :
    Collections.Unique PendingChange.key changes := by
  have hp := perform_of_call hcall
  rw [perform] at hp
  split at hp
  · rename_i folderId hid
    cases hp
    rw [Tables.readPendingChanges, Collections.Unique, List.map_flatMap, List.nodup_flatMap]
    refine ⟨fun row _ => ?_, ?_⟩
    · cases row.seenPending <;> cases row.flaggedPending <;> simp [PendingChange.key]
    · have hrows := heldMessages_unique (opened_of_storedFolderId h hid)
      rw [Collections.Unique, List.Nodup, List.pairwise_map] at hrows
      have hidentity : ∀ {row : StoredMessage} {k : String × MessageFlag}, k ∈
        List.map PendingChange.key
          ((row.seenPending.map fun wanted =>
            (⟨row.identity, .seen, wanted⟩ : PendingChange)).toList ++
            (row.flaggedPending.map fun wanted => ⟨row.identity, .flagged, wanted⟩).toList) →
            k.1 = row.identity := by
        intro row k hk
        cases hs : row.seenPending <;> cases hf : row.flaggedPending <;>
          simp [PendingChange.key, hs, hf] at hk
        all_goals rcases hk with rfl | rfl <;> rfl
      exact hrows.imp fun hne k hk hk' => hne ((hidentity hk).symm.trans (hidentity hk'))
  · cases hp

/-- **A refused value**: exactly the named messages' wishes for it end. -/
theorem dropPendingFlags_spec {account : AccountId} {identities : List String} {flag : MessageFlag}
    {refused : Bool} {met : Circumstances} {x : Unit}
    (hcall : call t (.dropPendingFlags account identities flag refused) met = (.ok x, u))
    (account' identity : String) (flag' : MessageFlag) :
    u.wish? account' identity flag' =
      if account' = account.asStr ∧ identity ∈ identities ∧ flag' = flag then
        nullIf (t.wish? account' identity flag') refused
      else t.wish? account' identity flag' := by
  cases perform_of_call hcall
  rw [Tables.wish?, drop_values]
  by_cases hnamed : account' = account.asStr ∧ identity ∈ identities
  · rw [if_pos hnamed, Tables.wish?]
    cases t.values? account' identity with
    | none => simp [nullIf]
    | some v =>
      by_cases hf : flag' = flag <;> simp [FlagValues.dropped, FlagValues.pending_withPending, hf,
        hnamed.1, hnamed.2]
  · rw [if_neg hnamed, if_neg fun h => hnamed ⟨h.1, h.2.1⟩, Tables.wish?]

/-! ### What stays -/

/-- No message enters or leaves a folder, and no folder changes. -/
structure Stays (t u : Tables) : Prop where
  /-- The shape stays. -/
  shape : Shape t → Shape u
  /-- The folders hold what they held. -/
  holds : ∀ account folder identity, u.Holds account folder identity ↔
    t.Holds account folder identity
  /-- The accounts have the messages they had. -/
  values : ∀ account identity, (u.values? account identity).isSome =
    (t.values? account identity).isSome
  /-- The folders are as they were. -/
  folders : u.folders = t.folders

/-- No message enters or leaves a folder, no server flag changes, and no folder. -/
structure Kept (t u : Tables) : Prop extends Stays t u where
  /-- Each message has the server's flags it had. -/
  server : ∀ account identity, (u.values? account identity).map FlagValues.server =
    (t.values? account identity).map FlagValues.server

theorem Stays.refl (t : Tables) : Stays t t := ⟨id, fun _ _ _ => .rfl, fun _ _ => rfl, rfl⟩

theorem Stays.trans (h : Stays t u) (h' : Stays u v) : Stays t v :=
  ⟨h'.shape ∘ h.shape, fun a f i => (h'.holds a f i).trans (h.holds a f i),
    fun a i => (h'.values a i).trans (h.values a i), h'.folders.trans h.folders⟩

theorem Kept.refl (t : Tables) : Kept t t := ⟨.refl t, fun _ _ => rfl⟩

theorem Kept.trans (h : Kept t u) (h' : Kept u v) : Kept t v :=
  ⟨h.toStays.trans h'.toStays, fun a i => (h'.server a i).trans (h.server a i)⟩

theorem Stays.state (h : Stays t u) (folder : FolderRef) : u.state? folder = t.state? folder :=
  state_eq_of_folders h.folders

theorem Stays.heldFlags_isSome (h : Stays t u) (folder : FolderRef) (identity : String) :
    (u.heldFlags folder identity).isSome ↔ (t.heldFlags folder identity).isSome := by
  rw [Tables.heldFlags_isSome_iff, Tables.heldFlags_isSome_iff, h.holds]

theorem Kept.heldFlags (h : Kept t u) (folder : FolderRef) (identity : String) :
    u.heldFlags folder identity = t.heldFlags folder identity := by
  rw [Tables.heldFlags, Tables.heldFlags, h.server]
  simp only [h.holds]

/-- The calls that move messages or change folders. -/
def StoreCall.Moves : StoreCall → Prop
  | .replaceFolders .. => True
  | .storeBatch .. => True
  | .deleteOtherAccounts _ => True
  | _ => False

/-- The call that changes a server's flag without moving a message. -/
def StoreCall.Settles : StoreCall → Prop
  | .settleFlags .. => True
  | _ => False

/-- An update of message rows that keeps their keys. -/
theorem updateMessages_stays (t : Tables) (a : AccountId) (identities : List String)
    {f : StoredMessage → StoredMessage} (hid : ∀ r, (f r).id = r.id) (hkey : ∀ r, (f r).key = r.key)
    (hshape : Shape t → Shape (t.updateMessages a identities f)) :
    Stays t (t.updateMessages a identities f) := by
  refine ⟨hshape, updateMessages_holds t a identities hid hkey, fun account identity => ?_,
    updateMessages_folders t a identities f⟩
  clear hshape
  induction identities generalizing t with
  | nil => rfl
  | cons i identities ih =>
    refine (ih (t.updateMessage a.asStr i f)).trans ?_
    rw [Tables.values?, Tables.values?, updateMessage_message t a i hkey]
    split <;> simp

/-- **A call that is no batch and changes no folder list moves no message.** -/
theorem call_stays {op : StoreCall} (hop : ¬op.Moves) (t : Tables) (met : Circumstances) :
    Stays t (call t op met).2 := by
  have hshape : Shape t → Shape (call t op met).2 := fun h => call_shape h op met
  cases hfault : met.fault with
  | some error =>
    have : (call t op met).2 = t := by rw [call, hfault]
    rw [this]
    exact .refl t
  | none =>
    rw [call, hfault] at hshape ⊢
    cases op with
    | replaceFolders => exact absurd trivial hop
    | storeBatch => exact absurd trivial hop
    | deleteOtherAccounts => exact absurd trivial hop
    | readFolderSync folder => cases hr : t.readFolderSync folder <;> simp [perform, hr, Stays.refl]
    | readPendingChanges folder =>
      cases hr : t.storedFolderId folder <;> simp [perform, hr, Stays.refl]
    | storedIdentities => exact .refl t
    | identitiesInOtherFolders => exact .refl t
    | readFolderRows => exact .refl t
    | writePendingFlag a i flag wanted =>
      exact updateMessages_stays t a [i] (fun r => r.withPending_id flag _)
        (fun r => r.withPending_key flag _) hshape
    | settleFlags a ids flag value =>
      exact updateMessages_stays t a ids
        (fun r => by rw [StoredMessage.withPending_id, StoredMessage.withFlag_id])
        (fun r => by rw [StoredMessage.withPending_key, StoredMessage.withFlag_key]) hshape
    | dropPendingFlags a ids flag refused =>
      exact updateMessages_stays t a ids (fun r => r.withPending_id flag _)
        (fun r => r.withPending_key flag _) hshape

/-- **A call that neither moves a message nor settles a flag keeps every server flag.** -/
theorem call_kept {op : StoreCall} (hop : ¬op.Moves) (hsettles : ¬op.Settles) (t : Tables)
    (met : Circumstances) : Kept t (call t op met).2 := by
  refine ⟨call_stays hop t met, ?_⟩
  cases hfault : met.fault with
  | some error =>
    have : (call t op met).2 = t := by rw [call, hfault]
    simp [this]
  | none =>
    intro account identity
    rw [call, hfault]
    cases op with
    | replaceFolders => exact absurd trivial hop
    | storeBatch => exact absurd trivial hop
    | deleteOtherAccounts => exact absurd trivial hop
    | settleFlags => exact absurd trivial hsettles
    | readFolderSync folder => cases hr : t.readFolderSync folder <;> simp [perform, hr]
    | readPendingChanges folder => cases hr : t.storedFolderId folder <;> simp [perform, hr]
    | storedIdentities => rfl
    | identitiesInOtherFolders => rfl
    | readFolderRows => rfl
    | writePendingFlag a i flag wanted =>
      simp only [perform]
      rw [writePending_values]
      split
      · cases t.values? account identity <;> rfl
      · rfl
    | dropPendingFlags a ids flag refused =>
      simp only [perform]
      rw [drop_values]
      split
      · cases t.values? account identity <;> rfl
      · rfl

/-! ### A flag settled -/

/-- The server's flags after a flag is settled: the value reported, of the messages named. -/
theorem settle_heldFlags (t : Tables) (folder : FolderRef) (identities : List String)
    (flag : MessageFlag) (value : Bool) (met : Circumstances) (identity : String) :
    (call t (.settleFlags folder.account identities flag value) met).2.heldFlags folder identity =
      if met.fault = none ∧ identity ∈ identities then
        (t.heldFlags folder identity).map (setFlag flag value)
      else t.heldFlags folder identity := by
  have hstays : Stays t (call t (.settleFlags folder.account identities flag value) met).2 :=
    call_stays id t met
  rw [Tables.heldFlags, Tables.heldFlags]
  simp only [hstays.holds]
  cases hfault : met.fault with
  | some error => simp [call, hfault]
  | none =>
    simp only [call, hfault, perform]
    rw [settle_values]
    by_cases hi : identity ∈ identities
    · simp only [hi, and_self, if_true]
      split
      · cases t.values? folder.account.asStr identity <;> rfl
      · rfl
    · simp [hi]

/-! ### A batch -/

/-- **A batch that was stored** was applied to the folder's row; one that was not changed
nothing. -/
theorem storeBatch_spec (h : Linked t) (batch : FolderBatch) (met : Circumstances) :
    (∃ folderId, t.Opened folder folderId ∧ met = ⟨false, none⟩ ∧
        call t (.storeBatch folder batch) met =
          (.ok .stored, t.applyBatch folderId folder.account batch)) ∨
      (call t (.storeBatch folder batch) met).2 = t ∧
      (call t (.storeBatch folder batch) met).1 ≠ .ok .stored := by
  obtain ⟨cancelled, fault⟩ := met
  cases fault with
  | some error => exact .inr ⟨rfl, fun h => by cases h⟩
  | none =>
    cases cancelled with
    | true => exact .inr ⟨rfl, fun h => by cases h⟩
    | false =>
      cases hid : t.storedFolderId folder with
      | none =>
        have hcall : call t (.storeBatch folder batch) ⟨false, none⟩ =
            (.error (storageFailure .write .noRows), t) := by
          simp [call, perform, hid, Except.mapError, StoreCall.operation]
        rw [hcall]
        exact .inr ⟨rfl, fun h => by cases h⟩
      | some folderId =>
        refine .inl ⟨folderId, opened_of_storedFolderId h hid, rfl, ?_⟩
        simp [call, perform, hid, Except.mapError]

end Mailbag.Store
