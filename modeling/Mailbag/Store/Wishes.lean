import Mailbag.Store.Effect

/-!
# The user's wishes

The window writes the value of a flag the user wants; a cycle's operations report what
the server holds. They touch the same row from two threads, in any order. This module
states what the row's two values of a flag mean: `ledger` follows a message through a
sequence of operations, with the last value the server was known to hold and the last
wish that nothing ended since (`wishAfter`), from the operation that stores the message
on, as long as it is stored. `wishes_kept` says that the store's rows are that ledger, and
that the list shows the wish where there is one, otherwise the server's value.
-/

namespace Mailbag.Store

open Collections

variable {account : AccountId} {t u : Tables}

/-- What an operation does to the wish for a flag of a message: a wish is written by the
window, and ended by the server's agreement or refusal when it is the value agreed to or
refused; nothing else touches it. -/
def wishAfter (c : StoreCall × Circumstances) (account identity : String) (flag : MessageFlag)
    (wish : Option Bool) : Option Bool :=
  if c.2.fault.isSome then wish
  else
    match c.1 with
    | .writePendingFlag a i f wanted =>
      if account = a.asStr ∧ identity = i ∧ flag = f then some wanted else wish
    | .settleFlags a ids f value =>
      if account = a.asStr ∧ identity ∈ ids ∧ flag = f then nullIf wish value else wish
    | .dropPendingFlags a ids f refused =>
      if account = a.asStr ∧ identity ∈ ids ∧ flag = f then nullIf wish refused else wish
    | _ => wish

/-- The flags a batch reports last of a message with these flags. -/
def batchFlags (batch : FolderBatch) (identity : String) (flags : MessageFlags) : MessageFlags :=
  (latest identity batch.knownArrived).getD
    ((latest identity (batch.arrived.map fun m => (m.identity, m.flags))).getD
      ((latest identity batch.flagStates).getD flags))

/-- What an operation writes as the server's flags of a message. -/
def serverAfter (t : Tables) (c : StoreCall × Circumstances) (account identity : String)
    (flags : MessageFlags) : MessageFlags :=
  if c.2.fault.isSome then flags
  else
    match c.1 with
    | .settleFlags a ids f value =>
      if account = a.asStr ∧ identity ∈ ids then setFlag f value flags else flags
    | .storeBatch folder batch =>
      if c.2.cancelled ∨ (t.storedFolderId folder).isNone ∨
        account ≠ folder.account.asStr then flags
      else batchFlags batch identity flags
    | _ => flags

/-- The flags of a stored message after an operation. -/
def valuesAfter (t : Tables) (c : StoreCall × Circumstances) (account identity : String)
    (v : FlagValues) : FlagValues where
  server := serverAfter t c account identity v.server
  pending flag := wishAfter c account identity flag (v.pending flag)

/-- The flags of a message an operation stored: what it reports, and no wish. -/
def valuesStored (t : Tables) (c : StoreCall × Circumstances) (account identity : String) :
    FlagValues where
  server := serverAfter t c account identity ⟨false, false⟩
  pending _ := none

/-- The flags of a message through operations one after another, from the tables `t` and the
flags `v` on, as long as it is stored. -/
def ledger (account identity : String) :
    Tables → Option FlagValues → List (StoreCall × Circumstances) → Option FlagValues
  | _, v, [] => v
  | t, v, c :: calls =>
    let after := (call t c.1 c.2).2
    let v' :=
      if (after.message? account identity).isSome then
        some (match v with
          | some v => valuesAfter t c account identity v
          | none => valuesStored t c account identity)
      else none
    ledger account identity after v' calls

/-- The batch of an operation removes no message it stores in full, as both cycles build
theirs. -/
def StoreCall.Disjoint : StoreCall → Prop
  | .storeBatch _ batch => ∀ identity ∈ batch.removed, identity ∉ batch.arrived.map Message.identity
  | _ => True

instance (op : StoreCall) : Decidable op.Disjoint := by
  cases op <;> unfold StoreCall.Disjoint <;> infer_instance

/-! ### What a deletion leaves -/

theorem deleteMessagesWhere_message (h : Linked t) (p : StoredMessage → Bool)
    {account identity : String} {row : StoredMessage}
    (hrow : (t.deleteMessagesWhere p).message? account identity = some row) :
    t.message? account identity = some row := by
  have hfilter : (t.deleteMessagesWhere p).message? account identity =
      (t.message? account identity).filter fun row => !p row := h.messageKeys.lookup_filter _
  rw [hfilter] at hrow
  exact (Option.filter_eq_some_iff.mp hrow).1

theorem deleteUnlistedFolders_messages (t : Tables) (a : AccountId) (listed : List Folder) :
    (t.deleteUnlistedFolders a listed).messages = t.messages := by
  rw [Tables.deleteUnlistedFolders]
  generalize t.folders.filter (fun row => row.account = a.asStr) = rows
  induction rows generalizing t with
  | nil => rfl
  | cons row rows ih =>
    rw [List.foldl_cons]
    split
    · exact ih t
    · exact ih _

theorem upsertFolders_messages (t : Tables) (a : AccountId) (folders : List Folder) :
    (t.upsertFolders a folders).messages = t.messages := by
  induction folders generalizing t with
  | nil => rfl
  | cons folder folders ih =>
    refine (ih _).trans ?_
    show (t.upsertFolder a folder).messages = t.messages
    rw [Tables.upsertFolder]
    split <;> rfl

/-- A folder list stores no message and changes none. -/
theorem replaceFolders_message (h : Linked t) (a : AccountId) (folders : List Folder)
    {account identity : String} {row : StoredMessage}
    (hrow : (t.replaceFolders a folders).message? account identity = some row) :
    t.message? account identity = some row := by
  rw [Tables.message?, Tables.replaceFolders, upsertFolders_messages] at hrow
  have h' : Linked (t.deleteUnlistedFolders a folders) :=
    (deleteUnlistedFolders_statements h folders).linked h
  have hkept := deleteMessagesWhere_message h' _ hrow
  rwa [Tables.message?, deleteUnlistedFolders_messages] at hkept

theorem deleteAccounts_message (h : Shape t) (accounts : List AccountId) {account identity : String}
    {row : StoredMessage}
    (hrow :
      (accounts.foldl (fun t a => t.deleteAccount a) t).message? account identity = some row) :
    t.message? account identity = some row := by
  induction accounts generalizing t with
  | nil => exact hrow
  | cons a accounts ih =>
    have hkept := ih (deleteAccount_shape h a) hrow
    exact deleteMessagesWhere_message (h.toLinked.deleteFoldersWhere _) _ hkept

/-! ### One operation -/

/-- In a store of the right shape, a batch keeps the flags of every message it does not
remove. -/
theorem afterRemovals_some (h : Shape t) {folderId : ℕ} {folder : FolderRef}
    (ho : t.Opened folder folderId) {removed : List String} {identity : String}
    (hnot : identity ∉ removed) (account : String) :
    (t.applyRemovals folderId folder.account removed).values? account identity =
      t.values? account identity := by
  cases hv : t.values? account identity with
  | none =>
    cases hv' : (t.applyRemovals folderId folder.account removed).values? account identity with
    | none => rfl
    | some v' => rw [applyRemovals_values ho removed hv'] at hv; cases hv
  | some v =>
    obtain ⟨row, hrow, rfl⟩ := Option.map_eq_some_iff.mp hv
    obtain ⟨m, hm, hmr⟩ := h.held row (mem_of_lookup hrow)
    obtain ⟨f, hf, g, hg, hfm, hgm, hacc⟩ := h.joins m hm
    have hgr : g = row := h.messageIds.eq_of_key hg (mem_of_lookup hrow) (hgm.trans hmr)
    have hkey : row.key = (account, identity) := key_of_lookup hrow
    have hfacc : f.account = account := (hacc.trans (hgr ▸ rfl)).trans (congrArg Prod.fst hkey)
    have hholds : t.Holds account f.identity identity := by
      refine h.holds_iff.mpr ⟨f, hf, row, mem_of_lookup hrow, Prod.ext hfacc rfl, hkey, ?_⟩
      rw [hfm, ← hmr]
      exact hm
    have hholds' := (applyRemovals_holds ho removed account f.identity identity).mpr
      ⟨hholds, fun h => hnot h.2⟩
    obtain ⟨v', hv'⟩ := Option.isSome_iff_exists.mp (values_isSome_of_holds hholds')
    rw [hv', ← hv, applyRemovals_values ho removed hv']

/-- A batch: the pending values stay, and the server's are what it reports last. -/
theorem applyBatch_valuesAfter (h : Shape t) {folderId : ℕ} {folder : FolderRef}
    (ho : t.Opened folder folderId) {batch : FolderBatch}
    (hdisjoint : ∀ identity ∈ batch.removed, identity ∉ batch.arrived.map Message.identity)
    {identity : String} {v' : FlagValues}
    (hv' : (t.applyBatch folderId folder.account batch).values? folder.account.asStr
      identity = some v') :
    v' = ⟨batchFlags batch identity
      (((t.values? folder.account.asStr identity).map FlagValues.server).getD ⟨false, false⟩),
      ((t.values? folder.account.asStr identity).map FlagValues.pending).getD fun _ => none⟩ := by
  have hsame : (t.applyRemovals folderId folder.account batch.removed).values? folder.account.asStr
    identity =
      t.values? folder.account.asStr identity := by
    by_cases hr : identity ∈ batch.removed
    · -- a removed message is not stored again, so it is still there: another folder holds it
      have hlatest : latest identity (batch.arrived.map fun m => (m.identity, m.flags)) = none := by
        rw [latest_eq_none_iff, List.map_map]
        exact hdisjoint identity hr
      rw [applyBatch_values, applyMail_values h ho, reported, hlatest] at hv'
      cases hv : (t.applyRemovals folderId folder.account batch.removed).values?
        folder.account.asStr identity with
      | none => simp [hv] at hv'
      | some v => exact (applyRemovals_values ho _ hv).symm
    · exact afterRemovals_some h ho hr _
  rw [applyBatch_values, applyMail_values h ho, reported, hsame] at hv'
  rw [batchFlags]
  cases hv : t.values? folder.account.asStr identity <;>
    cases ha : latest identity (batch.arrived.map fun m => (m.identity, m.flags)) <;> simp_all

/-- A message stored before and after an operation that touches none of its flags. -/
theorem values_kept {c : StoreCall × Circumstances} {account identity : String} {v' : FlagValues}
    (hv' : t.values? account identity = some v')
    (hserver : ∀ flags, serverAfter t c account identity flags = flags)
    (hwish : ∀ flag wish, wishAfter c account identity flag wish = wish) :
    v' = match t.values? account identity with
      | some v => valuesAfter t c account identity v
      | none => valuesStored t c account identity := by
  simp only [hv', valuesAfter, hserver, hwish]

theorem wishAfter_write (cancelled : Bool) (a : AccountId) (i : String) (f : MessageFlag)
    (wanted : Bool) (account identity : String) (flag : MessageFlag) (wish : Option Bool) :
    wishAfter (.writePendingFlag a i f wanted, ⟨cancelled, none⟩) account identity flag wish =
      if account = a.asStr ∧ identity = i ∧ flag = f then some wanted else wish :=
  rfl

theorem wishAfter_settle (cancelled : Bool) (a : AccountId) (ids : List String) (f : MessageFlag)
    (value : Bool) (account identity : String) (flag : MessageFlag) (wish : Option Bool) :
    wishAfter (.settleFlags a ids f value, ⟨cancelled, none⟩) account identity flag wish =
      if account = a.asStr ∧ identity ∈ ids ∧ flag = f then nullIf wish value else wish :=
  rfl

theorem wishAfter_drop (cancelled : Bool) (a : AccountId) (ids : List String) (f : MessageFlag)
    (refused : Bool) (account identity : String) (flag : MessageFlag) (wish : Option Bool) :
    wishAfter (.dropPendingFlags a ids f refused, ⟨cancelled, none⟩) account identity flag wish =
      if account = a.asStr ∧ identity ∈ ids ∧ flag = f then nullIf wish refused else wish :=
  rfl

theorem serverAfter_settle (t : Tables) (cancelled : Bool) (a : AccountId) (ids : List String)
    (f : MessageFlag) (value : Bool) (account identity : String) (flags : MessageFlags) :
    serverAfter t (.settleFlags a ids f value, ⟨cancelled, none⟩) account identity flags =
      if account = a.asStr ∧ identity ∈ ids then setFlag f value flags else flags :=
  rfl

/-- **One operation**: a message it leaves stored has the flags it had, but for what the
operation reports of it, wishes or ends. -/
theorem call_values (h : Shape t) {c : StoreCall × Circumstances} (hdisjoint : c.1.Disjoint)
    {account identity : String} {v' : FlagValues}
    (hv' : (call t c.1 c.2).2.values? account identity = some v') :
    v' = match t.values? account identity with
      | some v => valuesAfter t c account identity v
      | none => valuesStored t c account identity := by
  obtain ⟨op, cancelled, fault⟩ := c
  cases fault with
  | some error =>
    exact values_kept hv' (fun flags => by simp [serverAfter]) fun flag wish => by simp [wishAfter]
  | none =>
    have hwritten : (perform t cancelled op).2.values? account identity = some v' := hv'
    cases op with
    | replaceFolders a folders =>
      refine values_kept ?_ (fun flags => by simp [serverAfter]) fun flag wish => by
        simp [wishAfter]
      rw [perform] at hwritten
      split at hwritten
      · exact hwritten
      · obtain ⟨row, hrow, rfl⟩ := Option.map_eq_some_iff.mp hwritten
        rw [Tables.values?, replaceFolders_message h.toLinked a folders hrow]
        rfl
    | storeBatch folder batch =>
      rw [perform] at hwritten
      split at hwritten
      · rename_i hcancelled
        exact values_kept hwritten (fun flags => by simp [serverAfter, hcancelled])
          fun flag wish => by simp [wishAfter]
      · rename_i hcancelled
        split at hwritten
        · rename_i folderId hid
          have ho := opened_of_storedFolderId h.toLinked hid
          by_cases ha : account = folder.account.asStr
          · subst ha
            rw [applyBatch_valuesAfter h ho hdisjoint hwritten]
            have hserver : ∀ flags, serverAfter t (.storeBatch folder batch, ⟨cancelled, none⟩)
              folder.account.asStr identity flags =
                batchFlags batch identity flags := by
              intro flags
              simp [serverAfter, hcancelled, hid]
            cases t.values? folder.account.asStr identity with
            | some v => simp [valuesAfter, hserver, wishAfter]
            | none => simp [valuesStored, hserver]
          · rw [applyBatch_values, applyMail_values_other h ho batch ha] at hwritten
            exact values_kept (applyRemovals_values ho _ hwritten)
              (fun flags => by simp [serverAfter, ha])
              fun flag wish => by simp [wishAfter]
        · rename_i hid
          exact values_kept hwritten (fun flags => by simp [serverAfter, hid]) fun flag wish => by
            simp [wishAfter]
    | writePendingFlag a i f wanted =>
      have hwritten := (writePending_values t a i f (some wanted) account identity).symm.trans
        hwritten
      split at hwritten
      · rename_i hkey
        obtain ⟨hacc, hid⟩ := Prod.mk.inj hkey
        obtain ⟨v, hv, rfl⟩ := Option.map_eq_some_iff.mp hwritten
        rw [hv]
        refine congrArg₂ FlagValues.mk (by simp [serverAfter]) (funext fun flag => ?_)
        rw [wishAfter_write, hacc, hid]
        by_cases hf : flag = f <;> simp [hf]
      · rename_i hkey
        have hnot : ¬(account = a.asStr ∧ identity = i) := fun h => hkey (by rw [h.1, h.2])
        refine values_kept hwritten (fun flags => by simp [serverAfter]) fun flag wish => ?_
        rw [wishAfter_write, if_neg fun h => hnot ⟨h.1, h.2.1⟩]
    | settleFlags a ids f value =>
      have hwritten := (settle_values t a ids f value account identity).symm.trans hwritten
      split at hwritten
      · rename_i hnamed
        obtain ⟨v, hv, rfl⟩ := Option.map_eq_some_iff.mp hwritten
        rw [hv]
        refine congrArg₂ FlagValues.mk (by rw [serverAfter_settle, if_pos hnamed])
          (funext fun flag => ?_)
        rw [wishAfter_settle]
        by_cases hf : flag = f <;> simp [hf, hnamed.1, hnamed.2]
      · rename_i hnamed
        refine values_kept hwritten (fun flags => ?_) fun flag wish => ?_
        · rw [serverAfter_settle, if_neg hnamed]
        · rw [wishAfter_settle, if_neg fun h => hnamed ⟨h.1, h.2.1⟩]
    | dropPendingFlags a ids f refused =>
      have hwritten := (drop_values t a ids f refused account identity).symm.trans hwritten
      split at hwritten
      · rename_i hnamed
        obtain ⟨v, hv, rfl⟩ := Option.map_eq_some_iff.mp hwritten
        rw [hv]
        refine congrArg₂ FlagValues.mk (by simp [serverAfter]) (funext fun flag => ?_)
        rw [wishAfter_drop]
        by_cases hf : flag = f <;> simp [hf, hnamed.1, hnamed.2]
      · rename_i hnamed
        refine values_kept hwritten (fun flags => by simp [serverAfter]) fun flag wish => ?_
        rw [wishAfter_drop, if_neg fun h => hnamed ⟨h.1, h.2.1⟩]
    | deleteOtherAccounts current =>
      refine values_kept ?_ (fun flags => by simp [serverAfter]) fun flag wish => by
        simp [wishAfter]
      obtain ⟨row, hrow, rfl⟩ := Option.map_eq_some_iff.mp hwritten
      rw [Tables.values?, deleteAccounts_message h _ hrow]
      rfl
    | readFolderSync folder =>
      refine values_kept ?_ (fun flags => by simp [serverAfter]) fun flag wish => by
        simp [wishAfter]
      rw [perform] at hwritten
      split at hwritten <;> exact hwritten
    | readPendingChanges folder =>
      refine values_kept ?_ (fun flags => by simp [serverAfter]) fun flag wish => by
        simp [wishAfter]
      rw [perform] at hwritten
      split at hwritten <;> exact hwritten
    | storedIdentities a ids =>
      exact values_kept hwritten (fun flags => by simp [serverAfter]) fun flag wish => by
        simp [wishAfter]
    | identitiesInOtherFolders folder ids =>
      exact values_kept hwritten (fun flags => by simp [serverAfter]) fun flag wish => by
        simp [wishAfter]
    | readFolderRows folder =>
      exact values_kept hwritten (fun flags => by simp [serverAfter]) fun flag wish => by
        simp [wishAfter]

/-! ### Sequences of operations -/

theorem values_isSome (t : Tables) (account identity : String) :
    (t.values? account identity).isSome = (t.message? account identity).isSome := Option.isSome_map

theorem run_ledger (h : Shape t) {calls : List (StoreCall × Circumstances)}
    (hdisjoint : ∀ c ∈ calls, c.1.Disjoint) (account identity : String) :
    (run t calls).values? account identity = ledger account identity t (t.values? account identity)
      calls := by
  induction calls generalizing t with
  | nil => rfl
  | cons c calls ih =>
    rw [List.forall_mem_cons] at hdisjoint
    refine (ih (call_shape h c.1 c.2) hdisjoint.2).trans ?_
    refine congrArg (fun v => ledger account identity (call t c.1 c.2).2 v calls) ?_
    cases hv : (call t c.1 c.2).2.values? account identity with
    | none =>
      have hnone := values_isSome (call t c.1 c.2).2 account identity
      rw [hv] at hnone
      rw [← hnone]
      rfl
    | some v =>
      have hsome := values_isSome (call t c.1 c.2).2 account identity
      rw [hv] at hsome
      rw [← hsome, call_values h hdisjoint.1 hv]
      rfl

/-- The value of a flag the user sees: the wish where there is one, otherwise the server's. -/
def FlagValues.shown (v : FlagValues) (flag : MessageFlag) : Bool :=
  (v.pending flag).getD (flagOf flag v.server)

/-- The rows of a folder's list show each message as the user sees it. -/
theorem readFolderRows_shown (h : Linked t) {folder : FolderRef} {rows : List MessageListRow}
    (hrows : t.readFolderRows folder = some rows) :
    ∀ row ∈ rows, ∃ v, t.values? folder.account.asStr row.identity = some v ∧
      row.seen = v.shown .seen ∧ row.flagged = v.shown .flagged := by
  intro row hrow
  simp only [Tables.readFolderRows, Option.bind_eq_bind, Option.bind_eq_some_iff] at hrows
  obtain ⟨folderId, hid, state, _, hrows⟩ := hrows
  split at hrows
  · cases hrows
    obtain ⟨g, hg, rfl⟩ := List.mem_map.mp hrow
    rw [(List.perm_insertionSort _ _).mem_iff, Tables.heldMessages, List.mem_filterMap] at hg
    obtain ⟨m, hm, hg⟩ := hg
    split at hg
    · rename_i hmf
      have hgm := mem_of_lookup hg
      obtain ⟨f, hf, r, hr, hfm, hrm, hacc⟩ := h.joins m hm
      have hrg : r = g := h.messageIds.eq_of_key hr hgm (hrm.trans (key_of_lookup hg).symm)
      obtain ⟨f', hf', hf'id, hf'acc⟩ := storedFolderId_hasFolder hid
      have hff' : f = f' := h.folderIds.eq_of_key hf hf' ((hfm.trans hmf).trans hf'id.symm)
      have hgacc : g.account = folder.account.asStr := by rw [← hrg, ← hacc, hff', hf'acc]
      have hgkey : g.key = (folder.account.asStr, g.identity) := Prod.ext hgacc rfl
      refine ⟨g.values, ?_, rfl, rfl⟩
      show (t.message? folder.account.asStr g.identity).map StoredMessage.values = some g.values
      rw [Tables.message?, h.messageKeys.lookup_eq_some_iff.mpr ⟨hgm, hgkey⟩]
      rfl
    · cases hg
  · cases hrows

/-- **No wish of the user is lost**: after any operations whose batches remove no message
they store, the flags the store keeps of every message are its ledger, and every row of
a folder's list shows the wish of the ledger where there is one, otherwise the server's
value. One more such operation leaves each wish for a message stored before and after it
as `wishAfter` says. -/
theorem wishes_kept (calls : List (StoreCall × Circumstances))
    (hdisjoint : ∀ c ∈ calls, c.1.Disjoint) :
    (∀ account identity, (run .empty calls).values? account identity = ledger account identity
      .empty none calls) ∧
      (∀ folder rows, (run .empty calls).readFolderRows folder = some rows → ∀ row ∈ rows,
        ∃ v, ledger folder.account.asStr row.identity .empty none calls = some v ∧
          row.seen = v.shown .seen ∧ row.flagged = v.shown .flagged) ∧
      ∀ op met, op.Disjoint → ∀ account identity v v', (run .empty calls).values? account
        identity = some v →
        (call (run .empty calls) op met).2.values? account identity = some v' →
          ∀ flag, v'.pending flag = wishAfter (op, met) account identity flag (v.pending flag) := by
  have hledger : ∀ account identity, (run .empty calls).values? account identity =
      ledger account identity .empty none calls := run_ledger shape_empty hdisjoint
  have hshape : Shape (run .empty calls) := run_shape shape_empty calls
  refine ⟨hledger, fun folder rows hrows row hrow => ?_,
    fun op met hop account identity v v' hv hv' flag => ?_⟩
  · rw [← hledger]
    exact readFolderRows_shown hshape.toLinked hrows row hrow
  · have hafter := call_values hshape (c := (op, met)) hop hv'
    rw [hv] at hafter
    rw [hafter]
    rfl

/-- A message read by the user while the server still reports it unread, whose command of
an earlier wish is then confirmed. -/
def readWhileUnread : List (StoreCall × Circumstances) :=
  let account : AccountId := ⟨"account", account_ne_empty⟩
  let folder : FolderRef := ⟨account, "INBOX"⟩
  let message : Message :=
    ⟨"imap:INBOX/1/1", ⟨none, none, none⟩, none, false, false, .notDownloaded, ""⟩
  [(.replaceFolders account [⟨"INBOX", "INBOX", none, some .inbox, true⟩], ⟨false, none⟩),
    (.storeBatch folder ⟨[], [], [], [message], none⟩, ⟨false, none⟩),
    (.writePendingFlag account message.identity .seen true, ⟨false, none⟩),
    (.storeBatch folder ⟨[], [(message.identity, ⟨false, true⟩)], [], [], none⟩, ⟨false, none⟩),
    (.settleFlags account [message.identity] .seen false, ⟨false, none⟩)]

/-- The wish survives the report and the settlement of the other value. -/
theorem wishes_kept_readWhileUnread :
    (∀ c ∈ readWhileUnread, c.1.Disjoint) ∧
      ((ledger "account" "imap:INBOX/1/1" .empty none readWhileUnread).map fun v =>
        (v.server, v.pending .seen)) =
        some (⟨false, true⟩, some true) ∧
      (run .empty readWhileUnread).values? "account" "imap:INBOX/1/1" =
        ledger "account" "imap:INBOX/1/1" .empty none readWhileUnread :=
  ⟨by decide, by decide, (wishes_kept readWhileUnread (by decide)).1 _ _⟩

end Mailbag.Store
