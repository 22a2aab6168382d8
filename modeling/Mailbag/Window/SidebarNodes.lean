import Mailbag.Window.DisplayLabels
import Mailbag.Window.Sidebar
import Mathlib.Data.String.Basic

/-!
# The rows of each account in the sidebar

The accounts that come get their rows among those there, and what the sidebar shows of one
account is the tree of its folder list.

## What is proved

* `insertMissing_accounts` — each account that comes gets its row at its place.
-/

namespace Mailbag.Window

open Collections Folders Interaction OnlineAccounts Relation

/-! ### The accounts' order -/

/-- The rows are in the accounts' order, so no account has two. -/
def AccountRows.Ordered (rows : AccountRows) : Prop :=
  rows.ids.Pairwise fun a b => a.asStr < b.asStr

theorem AccountRows.Ordered.nodup {rows : AccountRows} (h : rows.Ordered) : rows.ids.Nodup :=
  h.imp fun hlt heq => absurd (heq ▸ hlt) (String.lt_irrefl _)

theorem AccountRows.Ordered.sublist {rows later : AccountRows} (h : rows.Ordered)
    (hsub : later.Sublist rows) : later.Ordered :=
  List.Pairwise.sublist (hsub.map Prod.fst) h

theorem AccountRows.Ordered.insert {rows : AccountRows} (h : rows.Ordered) {id : AccountId}
    (hid : id ∉ rows.ids) (row : AccountRow) : (rows.insert id row).Ordered := by
  induction rows with
  | nil => exact List.pairwise_singleton _ _
  | cons entry rows ih =>
    rw [Ordered, ids, List.map_cons, List.pairwise_cons] at h
    rw [ids, List.map_cons, List.mem_cons, not_or] at hid
    rw [AccountRows.insert, List.orderedInsert_cons]
    by_cases hle : id.asStr ≤ entry.1.asStr
    · rw [if_pos hle]
      have hlt : id.asStr < entry.1.asStr :=
        lt_of_le_of_ne hle fun heq => hid.1 (AccountId.asStr_injective heq)
      refine List.pairwise_cons.mpr ⟨fun other hother => ?_, List.pairwise_cons.mpr h⟩
      rcases List.mem_cons.mp hother with rfl | hother
      · exact hlt
      · exact hlt.trans (h.1 other hother)
    · rw [if_neg hle]
      refine List.pairwise_cons.mpr ⟨fun other hother => ?_, ih h.2 hid.2⟩
      rcases List.mem_cons.mp ((ids_insert_perm row).mem_iff.mp hother) with rfl | hother
      · exact lt_of_not_ge hle
      · exact h.1 other hother

theorem RowChange.ordered {rows later : AccountRows} {account : AccountId × NamedDetails}
    (h : RowChange rows account later) (hordered : rows.Ordered) : later.Ordered := by
  cases h with
  | unsupported => exact hordered.sublist List.filter_sublist
  | disabled => exact hordered
  | updated =>
    rw [AccountRows.Ordered, AccountRows.ids_modify]
    exact hordered
  | shown hprovider hon hmem havailable row => exact hordered.insert hmem _
  | unavailable => exact hordered

theorem AccountList.applyUpdate_ordered {list : AccountList} (h : list.visibleAccounts.Ordered)
    (update : NamedUpdate) : (list.applyUpdate update).1.visibleAccounts.Ordered := by
  by_cases hcomplete : update.lastCheck = .complete
  · obtain ⟨hidden, hhidden, heq⟩ := applyUpdate_of_complete list hcomplete
    have hhidden' : hidden.1.visibleAccounts.Ordered := by
      rw [hhidden]
      exact h.sublist List.filter_sublist
    have hall : ∀ (entries : List (AccountId × NamedDetails)) (list : AccountList),
      list.visibleAccounts.Ordered →
        (entries.foldl updateVisibleAccount list).visibleAccounts.Ordered := by
      intro entries
      induction entries with
      | nil => exact fun _ h => h
      | cons entry entries ih =>
        exact fun list h => ih _ ((updateVisibleAccount_change list entry).1.ordered h)
    rw [heq, assignDisplayLabels, AccountRows.Ordered, ids_of_names (labelRows_names _ _ _),
      dropHiddenSelection_visibleAccounts]
    exact hall _ _ hhidden'
  · rw [applyUpdate_of_failed list hcomplete, AccountRows.Ordered, AccountRows.ids, List.map_map]
    exact h

/-! ### The accounts' rows -/

theorem insertIdx_append {α : Type} (done rest : List α) (x : α) :
    (done ++ rest).insertIdx done.length x = done ++ x :: rest := by
  induction done with
  | nil => rfl
  | cons y done ih =>
    rw [List.cons_append, List.length_cons, List.insertIdx_succ_cons, ih, List.cons_append]

/-- **Each account that comes gets its row at its place**, and the others keep theirs. -/
theorem insertMissing_accounts {rows : AccountRows} {done rest : List SidebarNode}
    (hrest : (rest.map (·.account)).Sublist rows.ids)
    (hnodup : (done.map (·.account) ++ rows.ids).Nodup) :
    (SidebarUi.insertMissing done.length rows (done ++ rest)).map (·.account) = done.map
    (·.account) ++ rows.ids ∧
      (∀ node ∈ SidebarUi.insertMissing done.length rows (done ++ rest), node ∈ done ++ rest ∨ ∃ id,
        node = .new id) ∧
      ∀ node ∈ done ++ rest, node ∈ SidebarUi.insertMissing done.length rows (done ++ rest) := by
  induction rows generalizing done rest with
  | nil =>
    obtain rfl : rest = [] := List.map_eq_nil_iff.mp (List.sublist_nil.mp hrest)
    exact ⟨by simp [SidebarUi.insertMissing, AccountRows.ids], fun node hnode => .inl hnode,
      fun node hnode => hnode⟩
  | cons entry rows ih =>
    obtain ⟨id, row⟩ := entry
    change ((rest.map (·.account)).Sublist (id :: AccountRows.ids rows)) at hrest
    change (done.map (·.account) ++ id :: AccountRows.ids rows).Nodup at hnodup
    have hdone : ∀ node ∈ done, node.account ≠ id := fun node hnode heq =>
      (List.nodup_append.mp hnodup).2.2 _ (List.mem_map_of_mem hnode) _ List.mem_cons_self heq
    have hid : id ∉ AccountRows.ids rows := (List.nodup_cons.mp (List.nodup_append.mp hnodup).2.1).1
    -- the account's row is the first of the rest, or it is inserted there
    have hnext : ∃ node rest',
        (if (done ++ rest).any fun node => node.account = id then done ++ rest
          else (done ++ rest).insertIdx done.length (.new id)) = (done ++ [node]) ++ rest' ∧
        node.account = id ∧
        (rest'.map (·.account)).Sublist (AccountRows.ids rows) ∧ (node ∈ rest ∨ node = .new id) ∧
        (∀ other ∈ rest, other = node ∨ other ∈ rest') ∧ ∀ other ∈ rest', other ∈ rest := by
      by_cases hmem : ∃ node ∈ rest, node.account = id
      · obtain ⟨node, hnode, hnodeId⟩ := hmem
        rw [if_pos (List.any_eq_true.mpr ⟨node, List.mem_append_right _ hnode,
          decide_eq_true hnodeId⟩)]
        cases rest with
        | nil => cases hnode
        | cons first rest =>
          rw [List.map_cons] at hrest
          have hfirst : first.account = id ∧
              (rest.map (·.account)).Sublist (AccountRows.ids rows) := by
            cases hrest with
            | cons _ hsub =>
              exact absurd (hsub.subset (hnodeId ▸ List.mem_map_of_mem (f := (·.account)) hnode))
                hid
            | cons_cons _ hsub => exact ⟨rfl, hsub⟩
          exact ⟨first, rest, by simp, hfirst.1, hfirst.2, .inl List.mem_cons_self,
            fun other hother => List.mem_cons.mp hother,
            fun other hother => List.mem_cons_of_mem _ hother⟩
      · have hnone : ∀ node ∈ rest, node.account ≠ id :=
          fun node hnode heq => hmem ⟨node, hnode, heq⟩
        have hany : ((done ++ rest).any fun node => node.account = id) = false := by
          rw [List.any_eq_false]
          intro node hnode
          rcases List.mem_append.mp hnode with hnode | hnode
          · simpa using hdone node hnode
          · simpa using hnone node hnode
        rw [hany]
        refine ⟨.new id, rest, ?_, rfl, ?_, .inr rfl, fun other hother => .inr hother,
          fun other hother => hother⟩
        · rw [if_neg Bool.false_ne_true, insertIdx_append]
          simp
        · refine (List.sublist_cons_iff.mp hrest).resolve_right ?_
          rintro ⟨accounts, haccounts, -⟩
          obtain ⟨node, hnode, hnodeId⟩ :=
            List.mem_map.mp (haccounts ▸ List.mem_cons_self : id ∈ rest.map (·.account))
          exact hnone node hnode hnodeId
    obtain ⟨node, rest', heq, hnode, hrest', hfrom, hkept, hback⟩ := hnext
    rw [SidebarUi.insertMissing, heq]
    have hlength : done.length + 1 = (done ++ [node]).length := by simp
    have hnodup' : ((done ++ [node]).map (·.account) ++ AccountRows.ids rows).Nodup := by
      rw [List.map_append, List.append_assoc, List.map_singleton, hnode]
      exact hnodup
    obtain ⟨haccounts, hnodes, hstay⟩ := ih hrest' hnodup'
    rw [hlength]
    refine ⟨?_, fun other hother => ?_, fun other hother => hstay other ?_⟩
    · rw [haccounts, List.map_append, List.append_assoc, List.map_singleton, hnode]
      rfl
    · rcases hnodes other hother with hmem | hnew
      · rw [List.append_assoc, List.mem_append] at hmem
        rcases hmem with hmem | hmem
        · exact .inl (List.mem_append_left _ hmem)
        · rcases List.mem_cons.mp hmem with rfl | hmem
          · rcases hfrom with hmem | rfl
            · exact .inl (List.mem_append_right _ hmem)
            · exact .inr ⟨id, rfl⟩
          · exact .inl (List.mem_append_right _ (hback other hmem))
      · exact .inr hnew
    · rw [List.append_assoc, List.mem_append]
      rcases List.mem_append.mp hother with hmem | hmem
      · exact .inl hmem
      · exact .inr (List.mem_cons.mpr (hkept other hmem))

/-! ### One account's rows -/

/-- What selecting a row selects, and whether it can be. -/
def SidebarRow.choice (row : SidebarRow) : Selection × Bool := (row.key, row.selectable)

namespace SidebarNode

variable {collationKey : String → String} {node : SidebarNode}

/-- What holds of an account's rows. -/
structure Sound (collationKey : String → String) (node : SidebarNode) : Prop where
  /-- Its row selects the account. -/
  key : node.row.key = .account node.account
  /-- It can be selected until a folder can be opened. -/
  heading : node.row.selectable = !node.listedFolders.any (·.selectable)
  /-- The list names each folder once. -/
  unique : Collections.Unique Folder.identity node.listedFolders
  /-- Under it are the trees of the list, apart from what is folded. -/
  tree : ∃ trees, Folders.fillFolders collationKey node.listedFolders
    (node.listedFolders.length + 1) none = some trees ∧
    mapRows (·.folded true) node.children = mapRows (folderRow node.account) trees

theorem sound_new (account : AccountId) : Sound collationKey (new account) where
  key := rfl
  heading := rfl
  unique := unique_nil
  tree := ⟨[], by simp [Folders.fillFolders, fill, sortSiblings, new], rfl⟩

/-- The rows that are shown. -/
def shown (node : SidebarNode) : List SidebarRow := node.tree.rowsShown (·.expanded)

theorem shown_eq (node : SidebarNode) :
    node.shown = node.row :: if node.row.expanded then rowsShown (·.expanded) node.children
      else [] :=
  rfl

/-- Every row is the account's or one of a folder of its list. -/
theorem Sound.row_cases (h : node.Sound collationKey) {row : SidebarRow}
    (hrow : row ∈ node.shown) : row = node.row ∨
    ∃ folder ∈ node.listedFolders, row.choice = (.mailbox ⟨node.account, folder.identity⟩,
      folder.selectable) := by
  rw [shown_eq, List.mem_cons] at hrow
  refine hrow.imp_right fun hrow => ?_
  have hunder : row ∈ allRows node.children := by
    split at hrow
    · exact (rowsShown_sublist _ _).subset hrow
    · cases hrow
  obtain ⟨trees, hfill, hsame⟩ := h.tree
  have hfolded : row.folded true ∈ allRows (mapRows (folderRow node.account) trees) := by
    rw [← hsame, allRows_mapRows]
    exact List.mem_map_of_mem hunder
  rw [allRows_mapRows] at hfolded
  obtain ⟨folder, hfolder, heq⟩ := List.mem_map.mp hfolded
  exact ⟨folder, mem_allRows_of_fill (fun siblings => List.mergeSort_perm siblings _) hfill hfolder,
    (congrArg SidebarRow.choice heq).symm⟩

theorem Sound.accountId (h : node.Sound collationKey) {row : SidebarRow}
    (hrow : row ∈ node.shown) : row.key.accountId = node.account := by
  rcases h.row_cases hrow with rfl | ⟨folder, -, heq⟩
  · rw [h.key]
    rfl
  · rw [(Prod.mk.inj heq).1]
    rfl

/-- Two rows of one key are of one account, or of one folder. -/
theorem Sound.selectable_of_key (h : node.Sound collationKey) {row row' : SidebarRow}
    (hrow : row ∈ node.shown) (hrow' : row' ∈ node.shown) (hkey : row.key = row'.key) :
    row.selectable = row'.selectable := by
  rcases h.row_cases hrow with rfl | ⟨folder, hfolder, heq⟩
  · rcases h.row_cases hrow' with rfl | ⟨folder', -, heq'⟩
    · rfl
    · rw [h.key, (Prod.mk.inj heq').1] at hkey
      cases hkey
  · rcases h.row_cases hrow' with rfl | ⟨folder', hfolder', heq'⟩
    · rw [h.key, (Prod.mk.inj heq).1] at hkey
      cases hkey
    · rw [(Prod.mk.inj heq).1, (Prod.mk.inj heq').1] at hkey
      have hidentity : folder.identity = folder'.identity :=
        congrArg FolderRef.identity (Selection.mailbox.inj hkey)
      rw [(Prod.mk.inj heq).2, (Prod.mk.inj heq').2, h.unique.eq_of_key hfolder hfolder' hidentity]

theorem Sound.showAccount (h : node.Sound collationKey) (account : AccountRow) :
    (node.showAccount account).Sound collationKey :=
  ⟨h.key, h.heading, h.unique, h.tree⟩

/-- A folder list's trees have an end. -/
theorem Sound.fillFolders (h : node.Sound collationKey) {folders : List Folder}
    (hunique : Collections.Unique Folder.identity folders) :
    (node.fillFolders collationKey folders).Sound collationKey where
  key := h.key
  heading := rfl
  unique := hunique
  tree := by
    have hsome : (Folders.fillFolders collationKey folders (folders.length + 1) none).isSome :=
      fill_of_unique hunique fun siblings => List.mergeSort_perm siblings _
    obtain ⟨trees, hfilled⟩ := Option.isSome_iff_exists.mp hsome
    refine ⟨trees, hfilled, ?_⟩
    rw [SidebarNode.fillFolders, hfilled, Option.getD_some, mapRows_mapRows]
    rfl

theorem folded_folded (expanded expanded' : Bool) (row : SidebarRow) :
    (row.folded expanded).folded expanded' = row.folded expanded' := rfl

theorem Sound.fold (h : node.Sound collationKey) (key : Selection) (expanded : Bool) :
    (node.fold key expanded).Sound collationKey := by
  rw [SidebarNode.fold]
  obtain ⟨trees, hfill, hsame⟩ := h.tree
  split
  · refine ⟨h.key, h.heading, h.unique, trees, hfill, ?_⟩
    rw [mapRows_mapRows]
    exact hsame
  · refine ⟨h.key, h.heading, h.unique, trees, hfill, ?_⟩
    rw [mapRows_foldRows (folded_folded expanded true) (folded_folded true true)]
    exact hsame

/-- Folding a row only hides rows. -/
theorem shown_collapse (node : SidebarNode) (key : Selection) :
    ((node.fold key false).shown.map (·.choice)).Sublist (node.shown.map (·.choice)) := by
  rw [fold]
  split
  · rw [shown_eq, shown_eq, List.map_cons, List.map_cons]
    exact .cons_cons _ (List.nil_sublist _)
  · rw [shown_eq, shown_eq, List.map_cons, List.map_cons]
    refine .cons_cons _ ?_
    split
    · refine rowsShown_fold_sublist ?_ ?_ node.children
      · exact fun _ => rfl
      · exact fun _ => rfl
    · exact .slnil

/-- Unfolding a row only shows rows. -/
theorem shown_expand (node : SidebarNode) (key : Selection) :
    (node.shown.map (·.choice)).Sublist ((node.fold key true).shown.map (·.choice)) := by
  rw [fold]
  split
  · rw [shown_eq, shown_eq, List.map_cons, List.map_cons]
    refine .cons_cons _ ?_
    have hall : ∀ row ∈ allRows (mapRows (·.folded true) node.children), row.expanded = true := by
      intro row hrow
      rw [allRows_mapRows] at hrow
      obtain ⟨under, -, rfl⟩ := List.mem_map.mp hrow
      rfl
    have hunder : (rowsShown (·.expanded) (mapRows (·.folded true) node.children)).map (·.choice) =
        (allRows node.children).map (·.choice) := by
      rw [rowsShown_of_expanded hall, allRows_mapRows, List.map_map]
      rfl
    simp only [SidebarRow.folded, if_true] at hunder ⊢
    rw [hunder]
    split
    · exact (rowsShown_sublist _ _).map SidebarRow.choice
    · exact List.nil_sublist _
  · rw [shown_eq, shown_eq, List.map_cons, List.map_cons]
    refine .cons_cons _ ?_
    split
    · refine rowsShown_unfold_sublist ?_ ?_ ?_ ?_ node.children
      · exact fun _ => rfl
      · exact fun _ => rfl
      · exact fun _ => rfl
      · exact fun _ => rfl
    · exact .slnil

end SidebarNode

end Mailbag.Window
