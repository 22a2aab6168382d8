import Mailbag.Interaction.System
import Mailbag.Window.SidebarNodes

/-!
# The sidebar in every run

Updates of Online Accounts, folder lists, and what the user selects, folds and unfolds come in
any order.

## What is proved

* `SidebarUi.Sound.handle` — every event keeps what the sidebar shows sound.
* `SidebarUi.sidebar_sound` — in every run each account has one row, in the accounts' order, over
  the tree of the folder list it was last given, and the selection has a row that is shown and
  can be selected.
-/

namespace Mailbag.Window

open Collections Folders Interaction OnlineAccounts Relation

/-! ### The sidebar -/

namespace SidebarUi

variable {collationKey : String → String} {ui : SidebarUi}

/-- The selection has a row that is shown and can be selected. -/
def Shows (ui : SidebarUi) (selection : Selection) : Prop :=
  (selection, true) ∈ ui.shown.map (·.choice)

/-- What holds of the sidebar. -/
structure Sound (collationKey : String → String) (ui : SidebarUi) : Prop where
  /-- The accounts have distinct labels. -/
  accounts : ui.accounts.Sound
  /-- They are in their order. -/
  ordered : ui.accounts.visibleAccounts.Ordered
  /-- Each account shown has one row, in this order. -/
  root : ui.root.map (·.account) = ui.accounts.visibleAccounts.ids
  /-- Under it are the trees of a folder list. -/
  nodes : ∀ node ∈ ui.root, node.Sound collationKey
  /-- It is named like the account. -/
  named : ∀ node ∈ ui.root, ∃ account, (node.account, account) ∈ ui.accounts.visibleAccounts ∧
    node.row.title = account.label ∧ node.row.iconName = account.iconName
  /-- The selection has a row that is shown and can be selected. -/
  selected : ∀ selection ∈ ui.accounts.selection, ui.Shows selection

theorem shown_eq (ui : SidebarUi) : ui.shown = ui.root.flatMap (·.shown) := by
  rw [shown]
  induction ui.root with
  | nil => rfl
  | cons node root ih => rw [List.map_cons, rowsShown, ih, List.flatMap_cons, SidebarNode.shown]

theorem shows_iff {selection : Selection} :
    ui.Shows selection ↔ ∃ node ∈ ui.root, ∃ row ∈ node.shown, row.key = selection ∧
      row.selectable = true := by
  rw [Shows, shown_eq, List.mem_map]
  constructor
  · rintro ⟨row, hrow, heq⟩
    obtain ⟨node, hnode, hrow⟩ := List.mem_flatMap.mp hrow
    exact ⟨node, hnode, row, hrow, Prod.mk.inj heq⟩
  · rintro ⟨node, hnode, row, hrow, rfl, hselectable⟩
    exact ⟨row, List.mem_flatMap.mpr ⟨node, hnode, hrow⟩, Prod.ext rfl hselectable⟩

theorem showsSelectable_eq (selection : Selection) :
    ui.showsSelectable selection = (ui.shown.find? fun row => row.key = selection).any
      (·.selectable) := by
  rw [List.find?_eq_bind_findIdx?_getElem?]
  rfl

theorem shows_of_showsSelectable {selection : Selection}
    (h : ui.showsSelectable selection = true) : ui.Shows selection := by
  rw [showsSelectable_eq] at h
  obtain ⟨row, hfound, hselectable⟩ := (Option.any_eq_true _ _).mp h
  exact List.mem_map.mpr ⟨row, List.mem_of_find?_eq_some hfound,
    Prod.ext (show row.key = selection by simpa using List.find?_some hfound) hselectable⟩

/-- Two rows of one key can both be selected, or none. -/
theorem Sound.selectable_of_key (h : ui.Sound collationKey) {row row' : SidebarRow}
    (hrow : row ∈ ui.shown) (hrow' : row' ∈ ui.shown) (hkey : row.key = row'.key) :
    row.selectable = row'.selectable := by
  rw [shown_eq] at hrow hrow'
  obtain ⟨node, hnode, hrow⟩ := List.mem_flatMap.mp hrow
  obtain ⟨node', hnode', hrow'⟩ := List.mem_flatMap.mp hrow'
  have haccount : node.account = node'.account := by
    rw [← (h.nodes node hnode).accountId hrow, ← (h.nodes node' hnode').accountId hrow', hkey]
  have hnodup : (ui.root.map (·.account)).Nodup := h.root ▸ h.accounts.nodup
  obtain rfl := List.inj_on_of_nodup_map hnodup hnode hnode' haccount
  exact (h.nodes node hnode).selectable_of_key hrow hrow' hkey

/-- Where it shows and can be selected is where it is found. -/
theorem Sound.showsSelectable_iff (h : ui.Sound collationKey) {selection : Selection} :
    ui.showsSelectable selection = true ↔ ui.Shows selection := by
  refine ⟨shows_of_showsSelectable, fun hshows => ?_⟩
  obtain ⟨row, hrow, heq⟩ := List.mem_map.mp hshows
  obtain ⟨hkey, hselectable⟩ := Prod.mk.inj heq
  rw [showsSelectable_eq]
  cases hfound : ui.shown.find? fun row => row.key = selection with
  | none => exact absurd (decide_eq_true hkey) (List.find?_eq_none.mp hfound row hrow)
  | some found =>
    have hfoundKey : found.key = selection := by simpa using List.find?_some hfound
    exact (h.selectable_of_key (List.mem_of_find?_eq_some hfound) hrow
      (hfoundKey.trans hkey.symm)).trans hselectable

/-! ### Every event -/

theorem lookup_of_mem_ids {rows : AccountRows} {id : AccountId} (h : id ∈ rows.ids) :
    ∃ account, rows.lookup id = some account ∧ (id, account) ∈ rows := by
  cases hlookup : rows.lookup id with
  | none =>
    obtain ⟨row, hrow⟩ := AccountRows.mem_ids.mp h
    simpa using List.lookup_eq_none_iff.mp hlookup _ hrow
  | some account =>
    obtain ⟨before, after, heq, -⟩ := List.lookup_eq_some_iff.mp hlookup
    exact ⟨account, rfl, heq ▸ List.mem_append_right _ List.mem_cons_self⟩

/-- The rows of the accounts shown: each of those there were, and a new one for each account that
comes. -/
theorem showAccounts_spec {rows : AccountRows} (hrows : rows.Ordered) {root : List SidebarNode}
    (hroot : (root.map (·.account)).Pairwise fun a b => a.asStr < b.asStr) :
    (showAccounts rows root).map (·.account) = rows.ids ∧
      (∀ shown ∈ showAccounts rows root, ∃ node account, (node ∈ root ∨ ∃ id, node = .new id) ∧
        (node.account, account) ∈ rows ∧ shown = node.showAccount account) ∧
      ∀ node ∈ root, node.account ∈ rows.ids →
        ∃ account, node.showAccount account ∈ showAccounts rows root := by
  have hanti : Std.Antisymm fun a b : AccountId => a.asStr < b.asStr :=
    ⟨fun a b hab hba => absurd (hab.trans hba) (lt_irrefl _)⟩
  set kept := root.filter fun node => node.account ∈ rows.ids with hkept
  have hkeptRoot : (kept.map (·.account)).Pairwise fun a b => a.asStr < b.asStr :=
    hroot.sublist (List.filter_sublist.map _)
  have hnodup : (kept.map (·.account)).Nodup :=
    hkeptRoot.imp fun hlt heq => absurd (heq ▸ hlt) (lt_irrefl _)
  have hsubset : kept.map (·.account) ⊆ rows.ids := by
    intro id hid
    obtain ⟨node, hnode, rfl⟩ := List.mem_map.mp hid
    exact of_decide_eq_true (List.mem_filter.mp hnode).2
  have hsublist : (kept.map (·.account)).Sublist rows.ids :=
    List.sublist_of_subperm_of_pairwise (hnodup.subperm hsubset) hkeptRoot hrows
  obtain ⟨haccounts, hnodes, hstay⟩ : (insertMissing 0 rows kept).map (·.account) = rows.ids ∧
      (∀ node ∈ insertMissing 0 rows kept, node ∈ kept ∨ ∃ id, node = .new id) ∧
      ∀ node ∈ kept, node ∈ insertMissing 0 rows kept :=
        @insertMissing_accounts rows [] kept hsublist hrows.nodup
  have hshown : ∀ node ∈ insertMissing 0 rows kept, ∃ account, rows.lookup node.account =
      some account ∧ (node.account, account) ∈ rows :=
    fun node hnode => lookup_of_mem_ids (haccounts ▸ List.mem_map_of_mem hnode)
  rw [showAccounts, ← hkept]
  refine ⟨?_, fun shown hmem => ?_, fun node hnode hid => ?_⟩
  · rw [List.map_map, ← haccounts]
    refine List.map_congr_left fun node hnode => ?_
    obtain ⟨account, hlookup, -⟩ := hshown node hnode
    simp only [Function.comp_apply, hlookup]
    rfl
  · obtain ⟨node, hnode, rfl⟩ := List.mem_map.mp hmem
    obtain ⟨account, hlookup, haccount⟩ := hshown node hnode
    exact ⟨node, account, (hnodes node hnode).imp_left fun h => (List.mem_filter.mp h).1,
      haccount, by rw [hlookup]⟩
  · have hnode' := hstay node (List.mem_filter.mpr ⟨hnode, decide_eq_true hid⟩)
    obtain ⟨account, hlookup, -⟩ := hshown node hnode'
    exact ⟨account, List.mem_map.mpr ⟨node, hnode', by rw [hlookup]⟩⟩

/-- What showing an account leaves of its rows but the title and the icon. -/
theorem choice_showAccount (node : SidebarNode) (account : AccountRow) :
    (node.showAccount account).shown.map (·.choice) = node.shown.map (·.choice) := rfl

theorem Sound.applyUpdate (h : ui.Sound collationKey) (update : NamedUpdate) :
    (ui.applyUpdate update).1.Sound collationKey := by
  have haccounts : (ui.accounts.applyUpdate update).1.Sound :=
    AccountList.handle_sound h.accounts (.update update)
  have hordered := AccountList.applyUpdate_ordered h.ordered update
  have hroot : (ui.root.map (·.account)).Pairwise fun a b => a.asStr < b.asStr := h.root ▸ h.ordered
  obtain ⟨hids, hnodes, hstay⟩ := showAccounts_spec hordered hroot
  refine ⟨haccounts, hordered, hids, fun shown hshown => ?_, fun shown hshown => ?_,
    fun selection hselection => ?_⟩
  · obtain ⟨node, account, hnode | ⟨id, rfl⟩, -, rfl⟩ := hnodes shown hshown
    · exact (h.nodes node hnode).showAccount account
    · exact (SidebarNode.sound_new id).showAccount account
  · obtain ⟨node, account, -, haccount, rfl⟩ := hnodes shown hshown
    exact ⟨account, haccount, rfl, rfl⟩
  · -- the selection stays when its account does, and so does its row
    have hkept : selection ∈ (ui.accounts.applyUpdate update).1.selection := hselection
    rw [AccountList.applyUpdate_selection h.accounts, Option.mem_def,
      Option.filter_eq_some_iff] at hkept
    obtain ⟨hwas, hvisible⟩ := hkept
    obtain ⟨node, hnode, row, hrow, hkey, hselectable⟩ := shows_iff.mp (h.selected selection hwas)
    have hid : node.account ∈ (ui.accounts.applyUpdate update).1.visibleAccounts.ids := by
      rw [← (h.nodes node hnode).accountId hrow, hkey]
      exact of_decide_eq_true hvisible
    obtain ⟨account, hshown⟩ := hstay node hnode hid
    have hchoice : (selection, true) ∈ (node.showAccount account).shown.map (·.choice) := by
      rw [choice_showAccount]
      exact List.mem_map.mpr ⟨row, hrow, Prod.ext hkey hselectable⟩
    rw [Shows, shown_eq, List.map_flatMap]
    exact List.mem_flatMap.mpr ⟨_, hshown, hchoice⟩

/-- The rows of the other accounts stay. -/
theorem shows_of_map {f : SidebarNode → SidebarNode} {selection : Selection}
    (hshows : ui.Shows selection)
    (h : ∀ node ∈ ui.root, (selection, true) ∈ node.shown.map (·.choice) → (selection, true) ∈
      (f node).shown.map (·.choice)) :
    { ui with root := ui.root.map f : SidebarUi }.Shows selection := by
  rw [Shows, shown_eq, List.map_flatMap] at hshows ⊢
  obtain ⟨node, hnode, hmem⟩ := List.mem_flatMap.mp hshows
  exact List.mem_flatMap.mpr ⟨_, List.mem_map_of_mem hnode, h node hnode hmem⟩

theorem Sound.clearSelection (h : ui.Sound collationKey) :
    { ui with accounts := ui.accounts.clearSelection : SidebarUi }.Sound collationKey :=
  { h with accounts := { h.accounts with selected := fun _ hselection => (by cases hselection) }
           selected := fun _ hselection => (by cases hselection) }

/-- What showing a list does: nothing, when the account is not there or shows the list, or its trees
are filled and a selection that they no longer show is cleared. -/
theorem showFolders_cases (ui : SidebarUi) (collationKey : String → String) (account : AccountId)
    (folders : List Folder) :
    (ui.showFolders collationKey account folders = (false, ui) ∧
      (account ∈ ui.root.map (·.account) → ∃ node ∈ ui.root, node.account = account ∧
        node.listedFolders = inIdentityOrder folders)) ∨
    (ui.showFolders collationKey account folders =
      (false, ui.fillFolders collationKey account (inIdentityOrder folders)) ∧
      (ui.fillFolders collationKey account (inIdentityOrder folders)).selectionGone
        account = false) ∨
    (ui.showFolders collationKey account folders =
        (true, { ui.fillFolders collationKey account (inIdentityOrder folders) with
          accounts := ui.accounts.clearSelection }) ∧
      (ui.fillFolders collationKey account (inIdentityOrder folders)).selectionGone account =
        true) := by
  rw [SidebarUi.showFolders]
  cases hfound : ui.root.find? fun node => node.account = account with
  | none =>
    refine .inl ⟨rfl, fun hmem => ?_⟩
    obtain ⟨node, hnode, haccount⟩ := List.mem_map.mp hmem
    exact absurd (decide_eq_true haccount) (List.find?_eq_none.mp hfound node hnode)
  | some node =>
    have haccount : node.account = account := by simpa using List.find?_some hfound
    dsimp only
    split
    · next hsame =>
        exact .inl ⟨rfl, fun _ => ⟨node, List.mem_of_find?_eq_some hfound, haccount, hsame⟩⟩
    · split
      · next hgone => exact .inr (.inr ⟨rfl, hgone⟩)
      · next hgone => exact .inr (.inl ⟨rfl, Bool.eq_false_iff.mpr hgone⟩)

/-- Filling an account's trees leaves all but the selection sound. -/
theorem Sound.fillFolders (h : ui.Sound collationKey) (account : AccountId) {folders : List Folder}
    (hunique : Collections.Unique Folder.identity folders)
    (hselected : ∀ selection ∈ ui.accounts.selection,
      (ui.fillFolders collationKey account folders).Shows selection) :
    (ui.fillFolders collationKey account folders).Sound collationKey := by
  refine ⟨h.accounts, h.ordered, ?_, fun shown hshown => ?_, fun shown hshown => ?_, hselected⟩
  · rw [SidebarUi.fillFolders, List.map_map, ← h.root]
    refine List.map_congr_left fun node _ => ?_
    rw [Function.comp_apply]
    split <;> rfl
  · obtain ⟨node, hnode, rfl⟩ := List.mem_map.mp hshown
    split
    · exact (h.nodes node hnode).fillFolders hunique
    · exact h.nodes node hnode
  · obtain ⟨node, hnode, rfl⟩ := List.mem_map.mp hshown
    obtain ⟨row, hrow, htitle, hicon⟩ := h.named node hnode
    split <;> exact ⟨row, hrow, htitle, hicon⟩

theorem Sound.showFolders (h : ui.Sound collationKey) (account : AccountId) {folders : List Folder}
    (hunique : Collections.Unique Folder.identity folders) :
    (ui.showFolders collationKey account folders).2.Sound collationKey := by
  have hsorted : Collections.Unique Folder.identity (inIdentityOrder folders) :=
    ((List.mergeSort_perm folders _).map Folder.identity).nodup_iff.mpr hunique
  rcases showFolders_cases ui collationKey account folders with ⟨heq, -⟩ | ⟨heq, hkept⟩ | ⟨heq, -⟩
  · rw [heq]
    exact h
  · rw [heq]
    refine h.fillFolders account hsorted fun selection hselection => ?_
    by_cases hof : selection.accountId = account
    · -- it was looked for in the new rows
      have hwas : (ui.fillFolders collationKey account
          (inIdentityOrder folders)).accounts.selection = some selection := hselection
      rw [selectionGone, hwas] at hkept
      simp only [Option.filter, hof, decide_true, if_true, Option.any_some,
        Bool.not_eq_false'] at hkept
      exact shows_of_showsSelectable hkept
    · refine shows_of_map (h.selected selection hselection) fun node hnode hmem => ?_
      obtain ⟨row, hrow, hchoice⟩ := List.mem_map.mp hmem
      have hother : node.account ≠ account := by
        rw [← (h.nodes node hnode).accountId hrow, (Prod.mk.inj hchoice).1]
        exact hof
      rw [if_neg hother]
      exact hmem
  · rw [heq]
    have hcleared := h.clearSelection.fillFolders account hsorted fun selection hselection =>
      (by cases hselection)
    exact hcleared

theorem Sound.selectAt (h : ui.Sound collationKey) {position : ℕ}
    (hselectable : (ui.nodeAt position).any (·.selectable) = true) :
    (ui.selectAt position).2.Sound collationKey := by
  obtain ⟨row, hrow, hselectable⟩ := (Option.any_eq_true _ _).mp hselectable
  rw [SidebarUi.selectAt, hrow]
  dsimp only
  split
  · exact h
  · have haccounts : (ui.accounts.select row.key).Sound :=
      AccountList.handle_sound h.accounts (.select row.key)
    rw [AccountList.select] at haccounts ⊢
    split at haccounts
    · next hvisible =>
      rw [if_pos hvisible]
      refine { h with accounts := haccounts, selected := fun selection hselection => ?_ }
      cases hselection
      exact List.mem_map.mpr ⟨row, List.mem_of_getElem? hrow, Prod.ext rfl hselectable⟩
    · next hhidden =>
      rw [if_neg hhidden]
      exact h

/-- Folding or unfolding leaves all but the selection sound. -/
theorem Sound.fold (h : ui.Sound collationKey) (key : Selection) (expanded : Bool)
    (hselected : ∀ selection ∈ ui.accounts.selection, (ui.fold key expanded).Shows selection) :
    (ui.fold key expanded).Sound collationKey := by
  have hsame : ∀ node : SidebarNode, (node.fold key expanded).account = node.account ∧
      (node.fold key expanded).row.title = node.row.title ∧
      (node.fold key expanded).row.iconName = node.row.iconName := by
    intro node
    rw [SidebarNode.fold]
    split <;> exact ⟨rfl, rfl, rfl⟩
  refine ⟨h.accounts, h.ordered, ?_, fun shown hshown => ?_, fun shown hshown => ?_, hselected⟩
  · rw [SidebarUi.fold, List.map_map, ← h.root]
    exact List.map_congr_left fun node _ => (hsame node).1
  · obtain ⟨node, hnode, rfl⟩ := List.mem_map.mp hshown
    exact (h.nodes node hnode).fold key expanded
  · obtain ⟨node, hnode, rfl⟩ := List.mem_map.mp hshown
    obtain ⟨row, hrow, htitle, hicon⟩ := h.named node hnode
    exact ⟨row, (hsame node).1 ▸ hrow, (hsame node).2.1.trans htitle, (hsame node).2.2.trans hicon⟩

theorem Sound.expand (h : ui.Sound collationKey) (key : Selection) :
    (ui.expand key).Sound collationKey :=
  h.fold key true fun selection hselection =>
    shows_of_map (h.selected selection hselection) fun node _ hmem =>
      (node.shown_expand key).subset hmem

/-- Folding only hides rows. -/
theorem shown_collapse (ui : SidebarUi) (key : Selection) :
    ((ui.fold key false).shown.map (·.choice)).Sublist (ui.shown.map (·.choice)) := by
  rw [shown_eq, shown_eq, fold]
  induction ui.root with
  | nil => exact .slnil
  | cons node root ih =>
    rw [List.map_cons, List.flatMap_cons, List.flatMap_cons, List.map_append, List.map_append]
    exact (node.shown_collapse key).append ih

theorem Sound.collapse (h : ui.Sound collationKey) (key : Selection) :
    (ui.collapse key).2.Sound collationKey := by
  have hsub := ui.shown_collapse key
  rw [SidebarUi.collapse]
  split
  · next hlength =>
    -- no row went
    have hsame := hsub.eq_of_length (by simpa using hlength)
    refine h.fold key false fun selection hselection => ?_
    rw [Shows, hsame]
    exact h.selected selection hselection
  · rw [clearHiddenSelection]
    dsimp only
    split
    · have hcleared := h.clearSelection.fold key false fun selection hselection =>
        (by cases hselection)
      exact hcleared
    · next hfound =>
      refine h.fold key false fun selection hselection => ?_
      have hwas : (ui.fold key false).accounts.selection = some selection := hselection
      rw [hwas, Option.any_some, Bool.not_eq_true, Option.isNone_eq_false_iff, positionOf,
        List.findIdx?_isSome, List.any_eq_true] at hfound
      obtain ⟨row, hrow, hkey⟩ := hfound
      have hkey : row.key = selection := of_decide_eq_true hkey
      -- the row was there before, and could be selected
      obtain ⟨row', hrow', hchoice⟩ :=
        List.mem_map.mp (hsub.subset (List.mem_map_of_mem (f := SidebarRow.choice) hrow))
      obtain ⟨hkey', hselectable'⟩ := Prod.mk.inj hchoice
      obtain ⟨chosen, hchosen, hchoice'⟩ := List.mem_map.mp (h.selected selection hselection)
      obtain ⟨hchosenKey, hchosenSelectable⟩ := Prod.mk.inj hchoice'
      have hsame := h.selectable_of_key hrow' hchosen (hkey'.trans (hkey.trans hchosenKey.symm))
      exact List.mem_map.mpr ⟨row, hrow,
        Prod.ext hkey (hselectable'.symm.trans (hsame.trans hchosenSelectable))⟩

/-- Every event keeps the sidebar sound. -/
theorem Sound.handle (h : ui.Sound collationKey) {event : Event}
    (henabled : ui.Enabled event) : (ui.handle collationKey event).Sound collationKey := by
  cases event with
  | update update => exact h.applyUpdate update
  | folders account folders => exact h.showFolders account henabled
  | select position => exact h.selectAt henabled
  | collapse key => exact h.collapse key
  | expand key => exact h.expand key

/-- An event that may come. -/
def Step (collationKey : String → String) (ui ui' : SidebarUi) : Prop :=
  ∃ event, ui.Enabled event ∧ ui' = ui.handle collationKey event

theorem sound_start : Sound collationKey start where
  accounts := AccountList.after_sound []
  ordered := .nil
  root := rfl
  nodes := fun _ h => absurd h List.not_mem_nil
  named := fun _ h => absurd h List.not_mem_nil
  selected := fun _ h => (by cases h)

/-- Every event keeps it sound. -/
theorem Sound.steps {ui' : SidebarUi} (hsound : ui.Sound collationKey)
    (h : ReflTransGen (Step collationKey) ui ui') : ui'.Sound collationKey :=
  invariant hsound (fun _ _ h hstep => by
    obtain ⟨event, henabled, rfl⟩ := hstep
    exact h.handle henabled) h

/-- **What the sidebar shows is sound in every run**: each account shown has one row, in the
accounts' order and named like it, over the trees of a folder list; and the selection has a row that
is shown and can be selected. -/
theorem sidebar_sound (h : ReflTransGen (Step collationKey) start ui) :
    ui.Sound collationKey ∧ ∀ selection, ui.accounts.selection = some selection →
      ui.showsSelectable selection = true := by
  have hsound := sound_start.steps h
  exact ⟨hsound, fun selection hselection => hsound.showsSelectable_iff.mpr
    (hsound.selected selection hselection)⟩

/-! ### An account with its inbox -/

/-- An IMAP account. -/
def oneAccount : NamedUpdate :=
  ⟨⟨[(⟨"imap", imap_ne_empty⟩, ⟨⟨.imapSmtp, true, true⟩, false, some "Work", none⟩)],
    List.pairwise_singleton _ _⟩, .complete, false⟩

/-- Its inbox. -/
def oneInbox : List Folder := [⟨"INBOX", "INBOX", none, some .inbox, true⟩]

/-- The account comes, its list is shown, and the user selects the inbox. -/
def selecting : SidebarUi :=
  ((start.handle id (.update oneAccount)).handle id
    (.folders ⟨"imap", imap_ne_empty⟩ oneInbox)).handle id (.select 1)

theorem root_oneAccount : (start.handle id (.update oneAccount)).root =
    [⟨⟨"imap", imap_ne_empty⟩, ⟨.account ⟨"imap", imap_ne_empty⟩, "Work", genericAccountIcon, true,
      true⟩, [], []⟩] :=
  rfl

theorem shown_oneInbox :
    ((start.handle id (.update oneAccount)).handle id
      (.folders ⟨"imap", imap_ne_empty⟩ oneInbox)).shown =
    [⟨.account ⟨"imap", imap_ne_empty⟩, "Work", genericAccountIcon, false, true⟩,
      ⟨.mailbox ⟨⟨"imap", imap_ne_empty⟩, "INBOX"⟩, "Inbox", "mailbag-folder-inbox-symbolic", true,
        true⟩] := by
  have hname : eqIgnoreAsciiCase "INBOX" "INBOX" = true := decide_eq_true rfl
  have hselection : (start.handle id (.update oneAccount)).accounts.selection = none := rfl
  generalize hui : start.handle id (.update oneAccount) = ui at hselection
  have hroot : ui.root = _ := hui ▸ root_oneAccount
  simp [handle, SidebarUi.showFolders, hroot, inIdentityOrder, oneInbox, fillFolders,
    SidebarNode.fillFolders, Folders.fillFolders, fill, sortSiblings, selectionGone, hselection,
    shown, SidebarNode.tree, rowsShown, Collections.Tree.rowsShown, folderRow, shownName,
    folderIcon, hname]

theorem selecting_reached : ReflTransGen (Step id) start selecting := by
  refine ((ReflTransGen.single ⟨.update oneAccount, trivial, rfl⟩).tail
    ⟨.folders ⟨"imap", imap_ne_empty⟩ oneInbox, List.nodup_singleton _, rfl⟩).tail
      ⟨.select 1, ?_, rfl⟩
  rw [Enabled, nodeAt, shown_oneInbox]
  rfl

/-- The folders leave the accounts as they are. -/
theorem accounts_oneInbox :
    ((start.handle id (.update oneAccount)).handle id
      (.folders ⟨"imap", imap_ne_empty⟩ oneInbox)).accounts =
    (start.handle id (.update oneAccount)).accounts := by
  change ((start.handle id (.update oneAccount)).showFolders id ⟨"imap", imap_ne_empty⟩
    oneInbox).2.accounts = _
  rcases showFolders_cases (start.handle id (.update oneAccount)) id ⟨"imap", imap_ne_empty⟩
    oneInbox with
    ⟨heq, -⟩ | ⟨heq, -⟩ | ⟨-, hgone⟩
  · rw [heq]
  · rw [heq]
    rfl
  · cases hgone

theorem selection_selecting :
    selecting.accounts.selection = some (.mailbox ⟨⟨"imap", imap_ne_empty⟩, "INBOX"⟩) := by
  change (selectAt ((start.handle id (.update oneAccount)).handle id
    (.folders ⟨"imap", imap_ne_empty⟩ oneInbox)) 1).2.accounts.selection = _
  simp only [selectAt, nodeAt, shown_oneInbox, accounts_oneInbox]
  rfl

/-- The inbox is selected, and its row shown. -/
theorem sidebar_sound_selecting :
    selecting.accounts.selection = some (.mailbox ⟨⟨"imap", imap_ne_empty⟩, "INBOX"⟩) ∧
    selecting.showsSelectable (.mailbox ⟨⟨"imap", imap_ne_empty⟩, "INBOX"⟩) = true :=
  ⟨selection_selecting, (sidebar_sound selecting_reached).2 _ selection_selecting⟩

end SidebarUi

end Mailbag.Window
