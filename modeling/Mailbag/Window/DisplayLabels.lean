import Mailbag.Window.AccountRows

/-!
# The labels stay distinct, and the selection visible

A pass over the rows keeps every label given so far, and every name, among the used ones. A
numbered label is none of these; a name without a number is the name of one row only.

## What is proved

* `labelRows_labels` — the labels of one pass are distinct.
* `mem_applyUpdate_iff` — the accounts with a row are those that the account list shows.
* `after_sound` — what holds of the rows and of the selection after any events.
* `accountLabels_distinct` — the labels are distinct, names stand alone where they can, the
  selection is visible.
-/

namespace Mailbag.Window

open Collections OnlineAccounts

/-- Lists with the same values hold elements with the same values. -/
theorem exists_of_map_eq {α β : Type} {f : α → β} {xs ys : List α} (h : xs.map f = ys.map f) {x : α}
    (hx : x ∈ xs) : ∃ y ∈ ys, f y = f x := by
  have hmem : f x ∈ xs.map f := List.mem_map_of_mem hx
  rw [h] at hmem
  exact List.mem_map.mp hmem

/-! ### One pass over the labels -/

/-- The labels of the rows. -/
def AccountRows.labels (rows : AccountRows) : List String := List.map (·.2.label) rows

@[simp] theorem labelCount_cons (entry : AccountId × AccountRow) (rows : AccountRows)
    (baseLabel : String) :
    labelCount (entry :: rows) baseLabel =
      labelCount rows baseLabel + if entry.2.baseLabel = baseLabel then 1 else 0 := by
  simp [labelCount, List.countP_cons]

theorem labelCount_pos {rows : AccountRows} {entry : AccountId × AccountRow} (h : entry ∈ rows) :
    0 < labelCount rows entry.2.baseLabel := List.countP_pos_iff.mpr ⟨entry, h, by simp⟩

theorem numberedLabel_not_mem (number : UInt64) (usedLabels : List String) (label : String) :
    numberedLabel number usedLabels label ∉ usedLabels := growUntilFree_not_mem label

/-- The number is added at least once, and only finitely often. -/
theorem numberedLabel_eq_iterate (number : UInt64) (usedLabels : List String) (label : String) :
    ∃ rounds, numberedLabel number usedLabels label = (withNumber number)^[rounds + 1] label := by
  obtain ⟨rounds, heq, -⟩ := growUntilFree_eq_iterate label
  exact ⟨rounds, heq⟩

/-- Whose row it is, its name and its number. -/
def nameOf (entry : AccountId × AccountRow) : AccountId × String × UInt64 :=
  (entry.1, entry.2.baseLabel, entry.2.labelNumber)

/-- Its label and these. -/
def labelOf (entry : AccountId × AccountRow) : String × AccountId × String × UInt64 :=
  (entry.2.label, nameOf entry)

/-- A pass changes no row's account, name or number. -/
theorem labelRows_names (count : String → ℕ) (usedLabels : List String) (rows : AccountRows) :
    (labelRows count usedLabels rows).map nameOf = rows.map nameOf := by
  induction rows generalizing usedLabels with
  | nil => rfl
  | cons entry rows ih =>
    obtain ⟨id, row⟩ := entry
    rw [labelRows]
    split <;> simp [ih, nameOf]

section SameNames

variable {rows later : AccountRows} (h : later.map nameOf = rows.map nameOf)
include h

theorem ids_of_names : later.ids = rows.ids := by
  simpa [AccountRows.ids, Function.comp_def, nameOf] using congrArg (List.map Prod.fst) h

theorem labelCount_of_names (baseLabel : String) :
    labelCount later baseLabel = labelCount rows baseLabel := by
  have hcounted : (later.map nameOf).countP (fun name => name.2.1 = baseLabel) =
      (rows.map nameOf).countP (fun name => name.2.1 = baseLabel) := by rw [h]
  rw [List.countP_map, List.countP_map] at hcounted
  exact hcounted

end SameNames

/-- **The labels of one pass are distinct.** They are labels not used before, or the names of rows
that share them with no other. -/
theorem labelRows_labels {count : String → ℕ} {usedLabels : List String} {rows : AccountRows}
    (hused : ∀ entry ∈ rows, entry.2.baseLabel ∈ usedLabels)
    (hcount : ∀ baseLabel, labelCount rows baseLabel ≤ count baseLabel) :
    (labelRows count usedLabels rows).labels.Nodup ∧
    ∀ label ∈ (labelRows count usedLabels rows).labels,
      label ∉ usedLabels ∨ ∃ entry ∈ rows, count entry.2.baseLabel ≤ 1 ∧
      label = entry.2.baseLabel := by
  induction rows generalizing usedLabels with
  | nil => exact ⟨List.nodup_nil, fun label h => absurd h List.not_mem_nil⟩
  | cons entry rows ih =>
    obtain ⟨id, row⟩ := entry
    have hbase : row.baseLabel ∈ usedLabels := hused (id, row) List.mem_cons_self
    have hrest : ∀ baseLabel, labelCount rows baseLabel ≤ count baseLabel := by
      intro baseLabel
      have := hcount baseLabel
      rw [labelCount_cons] at this
      omega
    rw [labelRows]
    split
    · next hmany =>
      -- A numbered label: not used before, and used from here on.
      have hfresh := numberedLabel_not_mem row.labelNumber usedLabels row.baseLabel
      have hused' : ∀ entry ∈ rows, entry.2.baseLabel ∈ numberedLabel row.labelNumber usedLabels
          row.baseLabel :: usedLabels :=
        fun entry hentry => List.mem_cons_of_mem _ (hused entry (List.mem_cons_of_mem _ hentry))
      obtain ⟨hnodup, hlabels⟩ := ih hused' hrest
      refine ⟨List.nodup_cons.mpr ⟨fun hmem => ?_, hnodup⟩, fun label hmem => ?_⟩
      · rcases hlabels _ hmem with hnot | ⟨entry, hentry, -, heq⟩
        · exact hnot List.mem_cons_self
        · have hlabel : numberedLabel row.labelNumber usedLabels row.baseLabel =
              entry.2.baseLabel := heq
          rw [hlabel] at hfresh
          exact hfresh (hused entry (List.mem_cons_of_mem _ hentry))
      · rcases List.mem_cons.mp hmem with rfl | hmem
        · exact .inl hfresh
        · rcases hlabels label hmem with hnot | ⟨entry, hentry, hone, heq⟩
          · exact .inl fun h => hnot (List.mem_cons_of_mem _ h)
          · exact .inr ⟨entry, List.mem_cons_of_mem _ hentry, hone, heq⟩
    · next hone =>
      -- The name itself: no other row has it.
      obtain ⟨hnodup, hlabels⟩ :=
        ih (fun entry hentry => hused entry (List.mem_cons_of_mem _ hentry)) hrest
      refine ⟨List.nodup_cons.mpr ⟨fun hmem => ?_, hnodup⟩, fun label hmem => ?_⟩
      · rcases hlabels _ hmem with hnot | ⟨entry, hentry, -, heq⟩
        · exact hnot hbase
        · have htwo := hcount row.baseLabel
          have hpos := labelCount_pos hentry
          have hsame : row.baseLabel = entry.2.baseLabel := heq
          rw [labelCount_cons, if_pos rfl, hsame] at htwo
          rw [hsame] at hone
          omega
      · rcases List.mem_cons.mp hmem with rfl | hmem
        · exact .inr ⟨(id, row), List.mem_cons_self, Nat.le_of_not_lt hone, rfl⟩
        · rcases hlabels label hmem with hnot | ⟨entry, hentry, hone, heq⟩
          · exact .inl hnot
          · exact .inr ⟨entry, List.mem_cons_of_mem _ hentry, hone, heq⟩

/-- How a row is labelled: by its name alone when it is the only one with it, else with its number
added until no label is the same. -/
theorem label_of_mem_labelRows {count : String → ℕ} {usedLabels : List String} {rows : AccountRows}
    {entry : AccountId × AccountRow} (h : entry ∈ labelRows count usedLabels rows) :
    (count entry.2.baseLabel ≤ 1 → entry.2.label = entry.2.baseLabel) ∧
      ∃ rounds, entry.2.label = (withNumber entry.2.labelNumber)^[rounds] entry.2.baseLabel := by
  induction rows generalizing usedLabels with
  | nil => exact absurd h List.not_mem_nil
  | cons first rows ih =>
    obtain ⟨id, row⟩ := first
    rw [labelRows] at h
    split at h
    · next hmany =>
      rcases List.mem_cons.mp h with rfl | h
      · obtain ⟨rounds, heq⟩ := numberedLabel_eq_iterate row.labelNumber usedLabels row.baseLabel
        exact ⟨fun hone => absurd hmany (Nat.not_lt.mpr hone), rounds + 1, heq⟩
      · exact ih h
    · rcases List.mem_cons.mp h with rfl | h
      · exact ⟨fun _ => rfl, 0, rfl⟩
      · exact ih h

/-! ### The accounts shown -/

/-- The update with what the rows of the accounts need no more than. -/
def NamedAccounts.toAccounts (accounts : NamedAccounts) : Accounts where
  entries := accounts.entries.map fun account => (account.1, account.2.toAccountDetails)
  nodup := by
    rw [List.map_map, List.Nodup, List.pairwise_map]
    exact accounts.sorted.imp fun hlt heq => by
      rw [Function.comp_apply, Function.comp_apply] at heq
      rw [heq] at hlt
      exact absurd hlt (String.lt_irrefl _)

/-- The same update of the accounts shown. -/
def forgetNames (update : NamedUpdate) : AccountUpdate Accounts AccountCheckError :=
  ⟨update.accounts.toAccounts, update.lastCheck, update.retryPending⟩

namespace AccountRows

variable {rows : AccountRows} {id other : AccountId}

theorem mem_ids : id ∈ rows.ids ↔ ∃ row, (id, row) ∈ rows := by
  simp [ids]

theorem insert_perm (id : AccountId) (row : AccountRow) (rows : AccountRows) :
    (rows.insert id row).Perm ((id, row) :: rows) :=
  List.perm_orderedInsert _ _ _

theorem ids_insert_perm (row : AccountRow) : (rows.insert id row).ids.Perm (id :: rows.ids) :=
  (insert_perm id row rows).map _

@[simp] theorem ids_modify (f : AccountRow → AccountRow) : (rows.modify id f).ids = rows.ids := by
  simp only [ids, modify, List.map_map]
  apply List.map_congr_left
  intro entry _
  simp only [Function.comp_apply]
  split <;> rfl

@[simp] theorem ids_remove : (rows.remove id).ids = rows.ids.filter (· ≠ id) := by
  simp [ids, remove, List.filter_map, Function.comp_def]

end AccountRows

/-- What one account's details make of the rows. -/
inductive RowChange (rows : AccountRows) (account : AccountId × NamedDetails) :
    AccountRows → Prop where
  /-- Its provider is not supported: it has no row. -/
  | unsupported (hprovider : mailProvider account.2.provider = none) :
      RowChange rows account (rows.remove account.1)
  /-- Its Mail is off. -/
  | disabled {provider : MailProvider} (hprovider : mailProvider account.2.provider = some provider)
    (hoff : account.2.mailEnabled = false) : RowChange rows account rows
  /-- Its row takes over the details. -/
  | updated {provider : MailProvider} (hprovider : mailProvider account.2.provider = some provider)
    (hon : account.2.mailEnabled = true) (hmem : account.1 ∈ rows.ids) :
    RowChange rows account (rows.modify account.1 (·.updateDetails account.2 provider))
  /-- It gets a row. -/
  | shown {provider : MailProvider} (hprovider : mailProvider account.2.provider = some provider)
      (hon : account.2.mailEnabled = true) (hmem : account.1 ∉ rows.ids)
      (havailable : account.2.mailServiceAvailable = true) (row : AccountRow) :
      RowChange rows account (rows.insert account.1 (row.updateDetails account.2 provider))
  /-- Its mail service is not there. -/
  | unavailable {provider : MailProvider}
      (hprovider : mailProvider account.2.provider = some provider)
      (hon : account.2.mailEnabled = true) (hmem : account.1 ∉ rows.ids)
      (havailable : account.2.mailServiceAvailable = false) : RowChange rows account rows

namespace AccountList

variable {list : AccountList}

/-- One account's details change its row in one of these ways, and no selection. -/
theorem updateVisibleAccount_change (list : AccountList) (account : AccountId × NamedDetails) :
    RowChange list.visibleAccounts account (list.updateVisibleAccount account).visibleAccounts ∧
      (list.updateVisibleAccount account).selection = list.selection := by
  rw [updateVisibleAccount]
  cases hprovider : mailProvider account.2.provider with
  | none => exact ⟨.unsupported hprovider, rfl⟩
  | some provider =>
    cases hon : account.2.mailEnabled with
    | false => exact ⟨.disabled hprovider hon, rfl⟩
    | true =>
      by_cases hmem : account.1 ∈ list.visibleAccounts.ids
      · simp only [hmem, if_true, Bool.not_true, Bool.false_eq_true, if_false]
        exact ⟨.updated hprovider hon hmem, trivial⟩
      · cases havailable : account.2.mailServiceAvailable with
        | false =>
          simp only [hmem, if_false, Bool.not_true, Bool.false_eq_true]
          exact ⟨.unavailable hprovider hon hmem havailable, rfl⟩
        | true =>
          simp only [hmem, if_false, Bool.not_true, Bool.false_eq_true, if_true]
          exact ⟨.shown hprovider hon hmem havailable _, trivial⟩

end AccountList

/-- The rows of the same accounts: the change is the one of the accounts shown. -/
theorem RowChange.mem_ids_iff {rows later : AccountRows} {account : AccountId × NamedDetails}
    (h : RowChange rows account later) {visible : List AccountId}
    (hsame : ∀ id, id ∈ rows.ids ↔ id ∈ visible) (id : AccountId) :
    id ∈ later.ids ↔ id ∈ OnlineAccounts.updateVisibleAccount visible
      (account.1, account.2.toAccountDetails) := by
  cases h with
  | unsupported hprovider => simp [OnlineAccounts.updateVisibleAccount, hprovider, hsame]
  | disabled hprovider hoff => simp [OnlineAccounts.updateVisibleAccount, hprovider, hoff, hsame]
  | updated hprovider hon hmem =>
    simp [OnlineAccounts.updateVisibleAccount, hprovider, hon, (hsame account.1).mp hmem, hsame]
  | shown hprovider hon hmem havailable row =>
    have hnot : account.1 ∉ visible := fun h => hmem ((hsame account.1).mpr h)
    rw [(AccountRows.ids_insert_perm _).mem_iff]
    simp [OnlineAccounts.updateVisibleAccount, hprovider, hon, hnot, havailable, hsame]
  | unavailable hprovider hon hmem havailable =>
    have hnot : account.1 ∉ visible := fun h => hmem ((hsame account.1).mpr h)
    simp [OnlineAccounts.updateVisibleAccount, hprovider, hon, hnot, havailable, hsame]

theorem RowChange.nodup {rows later : AccountRows} {account : AccountId × NamedDetails}
    (h : RowChange rows account later) (hnodup : rows.ids.Nodup) : later.ids.Nodup := by
  cases h with
  | unsupported _ =>
    rw [AccountRows.ids_remove]
    exact hnodup.filter _
  | disabled _ _ => exact hnodup
  | updated _ _ _ =>
    rw [AccountRows.ids_modify]
    exact hnodup
  | shown _ _ hmem _ row =>
    exact (AccountRows.ids_insert_perm _).nodup_iff.mpr (List.nodup_cons.mpr ⟨hmem, hnodup⟩)
  | unavailable _ _ _ _ => exact hnodup

/-- The row's account is listed with Mail on, and has its name unless it is still to be looked
at. -/
def NamedFrom (accounts pending : List (AccountId × NamedDetails))
    (entry : AccountId × AccountRow) : Prop :=
  ∃ details, (entry.1, details) ∈ accounts ∧ details.mailEnabled = true ∧
    (entry.2.baseLabel = accountName details ∨ (entry.1, details) ∈ pending)

/-- The account looked at has its name, or no row. -/
theorem RowChange.namedFrom {accounts pending : List (AccountId × NamedDetails)}
    {rows later : AccountRows} {account : AccountId × NamedDetails}
    (h : RowChange rows account later) (haccount : account ∈ accounts)
    (hnamed : ∀ entry ∈ rows, NamedFrom accounts (account :: pending) entry) :
    ∀ entry ∈ later, NamedFrom accounts pending entry := by
  -- A row of another account stays as it was said of it.
  have hother (entry : AccountId × AccountRow) (hentry : entry ∈ rows) (hne : entry.1 ≠ account.1) :
      NamedFrom accounts pending entry := by
    obtain ⟨details, hlisted, hon, hbase | hpending⟩ := hnamed entry hentry
    · exact ⟨details, hlisted, hon, .inl hbase⟩
    · rcases List.mem_cons.mp hpending with rfl | hpending
      · exact absurd rfl hne
      · exact ⟨details, hlisted, hon, .inr hpending⟩
  have hself (row : AccountRow) (hon : account.2.mailEnabled = true)
    (hbase : row.baseLabel = accountName account.2) :
      NamedFrom accounts pending (account.1, row) := ⟨account.2, haccount, hon, .inl hbase⟩
  intro entry hentry
  cases h with
  | unsupported _ =>
    obtain ⟨hentry, hne⟩ := List.mem_filter.mp hentry
    exact hother entry hentry (of_decide_eq_true hne)
  | disabled _ hoff =>
    obtain ⟨details, hlisted, hon, hbase | hpending⟩ := hnamed entry hentry
    · exact ⟨details, hlisted, hon, .inl hbase⟩
    · rcases List.mem_cons.mp hpending with rfl | hpending
      · rw [hoff] at hon
        cases hon
      · exact ⟨details, hlisted, hon, .inr hpending⟩
  | updated _ hon _ =>
    obtain ⟨before, hbefore, rfl⟩ := List.mem_map.mp hentry
    by_cases heq : before.1 = account.1
    · rw [if_pos heq, heq]
      exact hself _ hon rfl
    · rw [if_neg heq]
      exact hother before hbefore heq
  | shown _ hon hmem _ row =>
    rcases List.mem_cons.mp ((AccountRows.insert_perm _ _ _).mem_iff.mp hentry) with rfl | hentry
    · exact hself _ hon rfl
    · exact hother entry hentry fun heq => hmem (heq ▸ AccountRows.mem_ids.mpr ⟨entry.2, hentry⟩)
  | unavailable _ _ hmem _ =>
    exact hother entry hentry fun heq => hmem (heq ▸ AccountRows.mem_ids.mpr ⟨entry.2, hentry⟩)

/-! ### One update -/

namespace AccountList

variable {list : AccountList}

/-- After all accounts are looked at, each row has its account's name, and no account has two. -/
theorem updateVisibleAccounts_named {accounts : NamedAccounts}
    (hnodup : list.visibleAccounts.ids.Nodup)
    (hnamed : ∀ entry ∈ list.visibleAccounts, NamedFrom accounts.entries accounts.entries entry) :
    (list.updateVisibleAccounts accounts).visibleAccounts.ids.Nodup ∧
      ∀ entry ∈ (list.updateVisibleAccounts accounts).visibleAccounts, NamedFrom accounts.entries
        [] entry := by
  have hrest : ∀ (pending : List (AccountId × NamedDetails)) (list : AccountList),
    (∀ account ∈ pending, account ∈ accounts.entries) →
      list.visibleAccounts.ids.Nodup →
      (∀ entry ∈ list.visibleAccounts, NamedFrom accounts.entries pending entry) →
      (pending.foldl updateVisibleAccount list).visibleAccounts.ids.Nodup ∧
        ∀ entry ∈ (pending.foldl updateVisibleAccount list).visibleAccounts, NamedFrom
          accounts.entries [] entry := by
    intro pending
    induction pending with
    | nil => exact fun list _ hnodup hnamed => ⟨hnodup, hnamed⟩
    | cons account pending ih =>
      intro list hlisted hnodup hnamed
      rw [List.forall_mem_cons] at hlisted
      have hchange := (updateVisibleAccount_change list account).1
      exact ih (list.updateVisibleAccount account) hlisted.2 (hchange.nodup hnodup)
        (hchange.namedFrom hlisted.1 hnamed)
  exact hrest accounts.entries list (fun account h => h) hnodup hnamed

theorem updateVisibleAccounts_selection (accounts : NamedAccounts) :
    (list.updateVisibleAccounts accounts).selection = list.selection := by
  rw [updateVisibleAccounts]
  induction accounts.entries generalizing list with
  | nil => rfl
  | cons account entries ih => exact ih.trans (updateVisibleAccount_change list account).2

/-- The rows that stay are of accounts listed with Mail on. -/
theorem hideRemovedOrDisabledAccounts_named (list : AccountList) (accounts : NamedAccounts) :
    ∀ entry ∈ (list.hideRemovedOrDisabledAccounts accounts).1.visibleAccounts,
      NamedFrom accounts.entries accounts.entries entry := by
  intro entry hentry
  obtain ⟨details, hget, hon⟩ := (Option.any_eq_true _ _).mp (List.mem_filter.mp hentry).2
  obtain ⟨before, after, heq, -⟩ := List.lookup_eq_some_iff.mp hget
  have hlisted : (entry.1, details) ∈ accounts.entries := by
    rw [heq]
    exact List.mem_append_right _ List.mem_cons_self
  exact ⟨details, hlisted, hon, .inr hlisted⟩

theorem hideRemovedOrDisabledAccounts_nodup (accounts : NamedAccounts)
    (h : list.visibleAccounts.ids.Nodup) :
    (list.hideRemovedOrDisabledAccounts accounts).1.visibleAccounts.ids.Nodup := by
  have hsub : (list.hideRemovedOrDisabledAccounts accounts).1.visibleAccounts.Sublist
      list.visibleAccounts := List.filter_sublist
  exact h.sublist (hsub.map _)

/-- What holds of the rows and of the selection. -/
structure Sound (list : AccountList) : Prop where
  /-- No account has two rows. -/
  nodup : list.visibleAccounts.ids.Nodup
  /-- No two rows have the same label. -/
  labels : list.visibleAccounts.labels.Nodup
  /-- The only row of a name has the name as its label. -/
  alone : ∀ entry ∈ list.visibleAccounts, labelCount list.visibleAccounts entry.2.baseLabel = 1 →
    entry.2.label = entry.2.baseLabel
  /-- A label is the name, with the row's number after it so many times. -/
  rounds : ∀ entry ∈ list.visibleAccounts, ∃ rounds, entry.2.label =
    (withNumber entry.2.labelNumber)^[rounds] entry.2.baseLabel
  /-- The selection is of a visible account. -/
  selected : ∀ selection ∈ list.selection, selection.accountId ∈ list.visibleAccounts.ids

theorem assignDisplayLabels_sound (hnodup : list.visibleAccounts.ids.Nodup)
    (hselected : ∀ selection ∈ list.selection, selection.accountId ∈ list.visibleAccounts.ids) :
    list.assignDisplayLabels.Sound where
  nodup := by
    rw [assignDisplayLabels, ids_of_names (labelRows_names _ _ _)]
    exact hnodup
  labels := by
    have hused : ∀ entry ∈ list.visibleAccounts, entry.2.baseLabel ∈ list.visibleAccounts.map
        (·.2.baseLabel) :=
      fun entry hentry => List.mem_map_of_mem hentry
    exact (labelRows_labels hused fun _ => Nat.le_refl _).1
  alone entry hentry hcount := by
    rw [assignDisplayLabels, labelCount_of_names (labelRows_names _ _ _)] at hcount
    exact (label_of_mem_labelRows hentry).1 (Nat.le_of_eq hcount)
  rounds entry hentry := (label_of_mem_labelRows hentry).2
  selected selection hselection := by
    rw [assignDisplayLabels, ids_of_names (labelRows_names _ _ _)]
    exact hselected selection hselection

@[simp] theorem dropHiddenSelection_visibleAccounts (list : AccountList) :
    list.dropHiddenSelection.visibleAccounts = list.visibleAccounts := by
  rw [dropHiddenSelection]
  split <;> rfl

theorem dropHiddenSelection_selected (list : AccountList) :
    ∀ selection ∈ list.dropHiddenSelection.selection, selection.accountId ∈
      list.visibleAccounts.ids := by
  intro selection hselection
  rw [dropHiddenSelection] at hselection
  split at hselection
  · cases hselection
  · next hvisible =>
    have hsome : list.selection = some selection := hselection
    simpa [hsome] using hvisible

theorem applyUpdate_of_complete (list : AccountList) {update : NamedUpdate}
    (h : update.lastCheck = .complete) :
    ∃ hidden, hidden = ({ list with
          lastCheck := update.lastCheck
          retryPending := update.retryPending
          excludedReasons := [] } : AccountList).hideRemovedOrDisabledAccounts update.accounts ∧
      (list.applyUpdate update).1 =
        (hidden.1.updateVisibleAccounts update.accounts).dropHiddenSelection.assignDisplayLabels :=
  ⟨_, rfl, by rw [applyUpdate, if_neg (not_not.mpr h)]⟩

theorem applyUpdate_of_failed (list : AccountList) {update : NamedUpdate}
    (h : update.lastCheck ≠ .complete) :
    (list.applyUpdate update).1 = { list with
      lastCheck := update.lastCheck, retryPending := update.retryPending
      visibleAccounts := list.visibleAccounts.map fun entry =>
        (entry.1, entry.2.markCheckUnconfirmed) } := by
  rw [applyUpdate, if_pos h]

/-- **A complete update** makes the labels and the selection sound, and each row has the name of its
account. -/
theorem applyUpdate_complete {update : NamedUpdate} (h : update.lastCheck = .complete)
    (hnodup : list.visibleAccounts.ids.Nodup) :
    (list.applyUpdate update).1.Sound ∧ ∀ entry ∈ (list.applyUpdate update).1.visibleAccounts,
      ∃ details, (entry.1, details) ∈ update.accounts.entries ∧ details.mailEnabled = true ∧
        entry.2.baseLabel = accountName details := by
  obtain ⟨hidden, hhidden, heq⟩ := applyUpdate_of_complete list h
  have hhiddenNodup : hidden.1.visibleAccounts.ids.Nodup := by
    rw [hhidden]
    exact hideRemovedOrDisabledAccounts_nodup _ hnodup
  have hhiddenNamed : ∀ entry ∈ hidden.1.visibleAccounts, NamedFrom update.accounts.entries
      update.accounts.entries entry := by
    rw [hhidden]
    exact hideRemovedOrDisabledAccounts_named _ _
  obtain ⟨hnodup', hnamed⟩ := updateVisibleAccounts_named hhiddenNodup hhiddenNamed
  rw [heq]
  refine ⟨assignDisplayLabels_sound ?_ ?_, fun entry hentry => ?_⟩
  · rw [dropHiddenSelection_visibleAccounts]
    exact hnodup'
  · rw [dropHiddenSelection_visibleAccounts]
    exact dropHiddenSelection_selected _
  · obtain ⟨before, hbefore, hsame⟩ := exists_of_map_eq (labelRows_names _ _ _) hentry
    obtain ⟨hid, hrest⟩ := Prod.mk.inj hsame
    rw [dropHiddenSelection_visibleAccounts] at hbefore
    obtain ⟨details, hlisted, hon, hname | hpending⟩ := hnamed before hbefore
    · rw [hid] at hlisted
      exact ⟨details, hlisted, hon, (Prod.mk.inj hrest).1.symm.trans hname⟩
    · exact absurd hpending List.not_mem_nil

theorem markCheckUnconfirmed_eq (row : AccountRow) :
    ∃ problems, row.markCheckUnconfirmed = { row with problems := problems } := by
  rw [AccountRow.markCheckUnconfirmed]
  split
  · exact ⟨row.problems, rfl⟩
  · exact ⟨_, rfl⟩

/-- **An update that is not complete** hides no account and changes no label, no name and no
selection. -/
theorem applyUpdate_failed (list : AccountList) {update : NamedUpdate}
    (h : update.lastCheck ≠ .complete) :
    (list.applyUpdate update).1.visibleAccounts.map labelOf = list.visibleAccounts.map labelOf ∧
      (list.applyUpdate update).1.selection = list.selection := by
  rw [applyUpdate_of_failed list h]
  refine ⟨?_, rfl⟩
  rw [List.map_map]
  apply List.map_congr_left
  intro entry _
  obtain ⟨problems, heq⟩ := markCheckUnconfirmed_eq entry.2
  rw [Function.comp_apply, heq]
  rfl

/-- Where the labels and the names stay, what holds of them stays. -/
theorem Sound.of_labels (h : list.Sound) {later : AccountList}
    (hlabels : later.visibleAccounts.map labelOf = list.visibleAccounts.map labelOf)
    (hselection : later.selection = list.selection) : later.Sound := by
  have hnames : later.visibleAccounts.map nameOf = list.visibleAccounts.map nameOf := by
    simpa [Function.comp_def, labelOf] using congrArg (List.map Prod.snd) hlabels
  have hids : later.visibleAccounts.ids = list.visibleAccounts.ids := ids_of_names hnames
  have hsame : later.visibleAccounts.labels = list.visibleAccounts.labels := by
    simpa [AccountRows.labels, Function.comp_def,
      labelOf] using congrArg (List.map Prod.fst) hlabels
  refine ⟨hids ▸ h.nodup, hsame ▸ h.labels, fun entry hentry hone => ?_, fun entry hentry => ?_,
    fun selection hsome => ?_⟩
  · obtain ⟨before, hbefore, heq⟩ := exists_of_map_eq hlabels hentry
    simp only [labelOf, nameOf, Prod.mk.injEq] at heq
    rw [← heq.1, ← heq.2.2.1]
    apply h.alone before hbefore
    rw [heq.2.2.1, ← hone, labelCount_of_names hnames]
  · obtain ⟨before, hbefore, heq⟩ := exists_of_map_eq hlabels hentry
    simp only [labelOf, nameOf, Prod.mk.injEq] at heq
    rw [← heq.1, ← heq.2.2.1, ← heq.2.2.2]
    exact h.rounds before hbefore
  · rw [hids]
    exact h.selected selection (hselection ▸ hsome)

/-! ### What the other parts see of an update -/

theorem lookup_toAccounts (accounts : NamedAccounts) (id : AccountId) :
    accounts.toAccounts.get id = (accounts.entries.lookup id).map
      NamedDetails.toAccountDetails := by
  show (accounts.entries.map fun account => (account.1, account.2.toAccountDetails)).lookup id =
    (accounts.entries.lookup id).map NamedDetails.toAccountDetails
  induction accounts.entries with
  | nil => rfl
  | cons account entries ih =>
    rw [List.map_cons, List.lookup_cons, List.lookup_cons]
    split
    · rfl
    · exact ih

/-- The accounts with a row are those that the account list shows. -/
theorem mem_applyUpdate_iff (list : AccountList) (update : NamedUpdate) (id : AccountId) :
    id ∈ (list.applyUpdate update).1.visibleAccounts.ids ↔
      id ∈ OnlineAccounts.applyUpdate list.visibleAccounts.ids (forgetNames update) := by
  by_cases hcomplete : update.lastCheck = .complete
  · obtain ⟨hidden, hhidden, heq⟩ := applyUpdate_of_complete list hcomplete
    have hrest : ∀ (pending : List (AccountId × NamedDetails)) (list : AccountList) (visible : List
      AccountId),
        (∀ id, id ∈ list.visibleAccounts.ids ↔ id ∈ visible) →
        (id ∈ (pending.foldl updateVisibleAccount list).visibleAccounts.ids ↔
          id ∈ (pending.map fun account => (account.1, account.2.toAccountDetails)).foldl
            OnlineAccounts.updateVisibleAccount visible) := by
      intro pending
      induction pending with
      | nil => exact fun list visible hsame => hsame id
      | cons account pending ih =>
        exact fun list visible hsame =>
          ih _ _ ((updateVisibleAccount_change list account).1.mem_ids_iff hsame)
    have hstays : ∀ id, id ∈ hidden.1.visibleAccounts.ids ↔
        id ∈ OnlineAccounts.hideRemovedOrDisabledAccounts list.visibleAccounts.ids
          update.accounts.toAccounts := by
      intro id
      rw [hhidden]
      simp [hideRemovedOrDisabledAccounts, OnlineAccounts.hideRemovedOrDisabledAccounts,
        AccountRows.ids, lookup_toAccounts, Option.any_map]
    rw [heq, assignDisplayLabels, ids_of_names (labelRows_names _ _ _),
      dropHiddenSelection_visibleAccounts, OnlineAccounts.applyUpdate, forgetNames, hcomplete]
    exact hrest update.accounts.entries hidden.1 _ hstays
  · have hids : (list.applyUpdate update).1.visibleAccounts.ids = list.visibleAccounts.ids := by
      have hnames := congrArg (List.map Prod.snd) (applyUpdate_failed list hcomplete).1
      rw [List.map_map, List.map_map] at hnames
      exact ids_of_names hnames
    rw [hids, OnlineAccounts.applyUpdate, forgetNames]
    cases hcheck : update.lastCheck with
    | complete => exact absurd hcheck hcomplete
    | notChecked => rfl
    | failed error => rfl

theorem applyUpdate_selection (h : list.Sound) (update : NamedUpdate) :
    (list.applyUpdate update).1.selection =
    list.selection.filter fun selection => selection.accountId ∈
    (list.applyUpdate update).1.visibleAccounts.ids := by
  by_cases hcomplete : update.lastCheck = .complete
  · obtain ⟨hidden, hhidden, heq⟩ := applyUpdate_of_complete list hcomplete
    have hkept : (hidden.1.updateVisibleAccounts update.accounts).selection = list.selection := by
      rw [updateVisibleAccounts_selection, hhidden]
      rfl
    rw [heq, assignDisplayLabels, ids_of_names (labelRows_names _ _ _),
      dropHiddenSelection_visibleAccounts, dropHiddenSelection, hkept]
    cases hselection : list.selection with
    | none => simp [hkept, hselection]
    | some selection =>
      by_cases hvisible : selection.accountId ∈
        (hidden.1.updateVisibleAccounts update.accounts).visibleAccounts.ids <;>
        simp [hkept, hselection, hvisible, Option.filter]
  · have hfailed := applyUpdate_failed list hcomplete
    have hsound := h.of_labels hfailed.1 hfailed.2
    rw [hfailed.2]
    cases hselection : list.selection with
    | none => rfl
    | some selection =>
      have hvisible := hsound.selected selection (hfailed.2.trans hselection)
      simp [Option.filter, hvisible]

/-- The window's own step on an account update does the same to its selection. -/
theorem applyAccountUpdate_selection (h : list.Sound) (update : NamedUpdate) {w : WindowUi}
    (hsame : w.selection = list.selection) :
    (w.applyAccountUpdate fun id =>
      decide (id ∈ (list.applyUpdate update).1.visibleAccounts.ids)).selection =
      (list.applyUpdate update).1.selection := by
  rw [applyUpdate_selection h, ← hsame]
  rfl

/-! ### Any events -/

theorem handle_sound (h : list.Sound) (event : AccountEvent) : (list.handle event).Sound := by
  cases event with
  | update update =>
    by_cases hcomplete : update.lastCheck = .complete
    · exact (applyUpdate_complete hcomplete h.nodup).1
    · exact h.of_labels (applyUpdate_failed list hcomplete).1 (applyUpdate_failed list hcomplete).2
  | select selection =>
    rw [handle, select]
    split
    · next hvisible =>
      refine { h with selected := fun other hother => ?_ }
      cases hother
      exact hvisible
    · exact h
  | clear => exact { h with selected := fun selection hselection => nomatch hselection }

/-- **After any events** the rows and the selection are sound. -/
theorem after_sound (events : List AccountEvent) : (after events).Sound := by
  have hrest : ∀ (list : AccountList), list.Sound → (events.foldl handle list).Sound := by
    induction events with
    | nil => exact fun _ h => h
    | cons event events ih => exact fun list h => ih _ (handle_sound h event)
  apply hrest
  exact ⟨List.nodup_nil, List.nodup_nil, fun _ h => absurd h List.not_mem_nil,
    fun _ h => absurd h List.not_mem_nil, fun _ h => nomatch h⟩

theorem after_append (events : List AccountEvent) (event : AccountEvent) :
    after (events ++ [event]) = (after events).handle event := by
  rw [after, after, List.foldl_append, List.foldl_cons, List.foldl_nil]

theorem labelCount_eq_one {rows : AccountRows} (hnodup : rows.ids.Nodup)
    {entry : AccountId × AccountRow} (hentry : entry ∈ rows)
    (halone : ∀ other ∈ rows, other.2.baseLabel = entry.2.baseLabel → other.1 = entry.1) :
    labelCount rows entry.2.baseLabel = 1 := by
  have hpos := labelCount_pos hentry
  rw [labelCount, List.countP_eq_length_filter] at hpos ⊢
  have hsame : (rows.filter fun other => other.2.baseLabel = entry.2.baseLabel).map Prod.fst =
      List.replicate (rows.filter fun other => other.2.baseLabel = entry.2.baseLabel).length
        entry.1 := by
    rw [List.eq_replicate_iff, List.length_map]
    refine ⟨rfl, fun id hid => ?_⟩
    obtain ⟨other, hother, rfl⟩ := List.mem_map.mp hid
    obtain ⟨hmem, hbase⟩ := List.mem_filter.mp hother
    exact halone other hmem (of_decide_eq_true hbase)
  have hone : (List.replicate
      (rows.filter fun other => other.2.baseLabel = entry.2.baseLabel).length entry.1).Nodup := by
    rw [← hsame]
    exact hnodup.sublist (List.filter_sublist.map _)
  rw [List.nodup_replicate] at hone
  omega

/-- **The labels stay distinct, and the selection visible**, after any events. Naming the rows ends:
a label is the name, with the row's number after it finitely often. The only account of its name is
labelled by the name alone. A complete update gives the rows the names of their accounts; any other
one hides no account and changes no label. -/
theorem accountLabels_distinct (events : List AccountEvent) :
    (after events).visibleAccounts.labels.Nodup ∧
      (∀ entry ∈ (after events).visibleAccounts,
        ∃ rounds, entry.2.label = (withNumber entry.2.labelNumber)^[rounds] entry.2.baseLabel) ∧
      (∀ entry ∈ (after events).visibleAccounts,
        (∀ other ∈ (after events).visibleAccounts, other.2.baseLabel = entry.2.baseLabel →
          other.1 = entry.1) →
        entry.2.label = entry.2.baseLabel) ∧
      (∀ selection ∈ (after events).selection, selection.accountId ∈
        (after events).visibleAccounts.ids) ∧
      (∀ update, update.lastCheck = .complete →
        ∀ entry ∈ (after (events ++ [.update update])).visibleAccounts,
        ∃ details, (entry.1, details) ∈ update.accounts.entries ∧ details.mailEnabled = true ∧
          entry.2.baseLabel = accountName details) ∧
      ∀ update, update.lastCheck ≠ .complete →
        (after (events ++ [.update update])).visibleAccounts.map
        (fun entry => (entry.1, entry.2.label)) =
          (after events).visibleAccounts.map fun entry => (entry.1, entry.2.label) := by
  have h := after_sound events
  refine ⟨h.labels, h.rounds, fun entry hentry halone => h.alone entry hentry
    (labelCount_eq_one h.nodup hentry halone), h.selected,
    fun update hcomplete => ?_, fun update hfailed => ?_⟩
  · rw [after_append]
    exact (applyUpdate_complete hcomplete h.nodup).2
  · rw [after_append]
    have hlabels := congrArg (List.map fun label => (label.2.1, label.1))
      (applyUpdate_failed (after events) hfailed).1
    rw [List.map_map, List.map_map] at hlabels
    exact hlabels

end AccountList

end Mailbag.Window
