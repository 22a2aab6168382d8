import Mailbag.Window.MainWindowScreen

/-!
# Which folder lists the sidebar shows

A read of the folder lists starts whenever a load stored one and whenever the accounts may have
changed; of several reads the latest counts. So the sidebar shows what was found by a read that
started after both.

## What is proved

* `folders_as_read` — once no read runs, each account's rows are the folder list that the latest
  read found, if it did not fail.
-/

namespace Mailbag.Window

open Collections Folders Interaction Loads OnlineAccounts Relation

namespace MainWindow

variable {collationKey : String → String} {w w' w₁ : MainWindow}

/-! ### Which accounts have which folders -/

/-- Each account keeps its folders. -/
def SameLists (ui ui' : SidebarUi) : Prop :=
  ∀ node' ∈ ui'.root, ∃ node ∈ ui.root, node'.account = node.account ∧
    node'.listedFolders = node.listedFolders

theorem SameLists.refl (ui : SidebarUi) : SameLists ui ui :=
  fun node hnode => ⟨node, hnode, rfl, rfl⟩

theorem sameLists_fold (ui : SidebarUi) (key : Selection) (expanded : Bool) :
    SameLists ui (ui.fold key expanded) := by
  intro node' hnode'
  obtain ⟨node, hnode, rfl⟩ := List.mem_map.mp hnode'
  refine ⟨node, hnode, ?_⟩
  rw [SidebarNode.fold]
  split <;> exact ⟨rfl, rfl⟩

theorem sameLists_collapse (ui : SidebarUi) (key : Selection) :
    SameLists ui (ui.collapse key).2 := by
  have hfold := sameLists_fold ui key false
  have hroot : (ui.collapse key).2.root = (ui.fold key false).root := by
    rw [SidebarUi.collapse]
    split
    · rfl
    · change (if (ui.fold key false).accounts.selection.any _ then _ else _ : SidebarUi).root = _
      split <;> rfl
  intro node' hnode'
  exact hfold node' (hroot ▸ hnode')

theorem sameLists_selectAt (ui : SidebarUi) (position : ℕ) :
    SameLists ui (ui.selectAt position).2 := by
  cases hselected : (ui.selectAt position).1 with
  | false =>
    rw [selectAt_same hselected]
    exact .refl ui
  | true =>
    obtain ⟨row, -, heq⟩ := selectAt_selection hselected
    rw [heq]
    exact .refl ui

/-- A check that failed adds and hides no account. -/
theorem applyUpdate_ids {list : AccountList} {update : NamedUpdate}
    (h : update.lastCheck ≠ .complete) :
    (list.applyUpdate update).1.visibleAccounts.ids = list.visibleAccounts.ids := by
  rw [AccountList.applyUpdate_of_failed list h, AccountRows.ids, AccountRows.ids, List.map_map]
  rfl

theorem sameLists_applyUpdate {ui : SidebarUi} (hsound : ui.Sound collationKey)
    {update : NamedUpdate} (h : update.lastCheck ≠ .complete) :
    SameLists ui (ui.applyUpdate update).1 := by
  have hordered := AccountList.applyUpdate_ordered hsound.ordered update
  have hroot : (ui.root.map (·.account)).Pairwise fun a b => a.asStr < b.asStr :=
    hsound.root ▸ hsound.ordered
  obtain ⟨hids, -, hstay⟩ := SidebarUi.showAccounts_spec hordered hroot
  have hnodup : ((SidebarUi.showAccounts (ui.accounts.applyUpdate update).1.visibleAccounts
      ui.root).map (·.account)).Nodup :=
    hids ▸ hordered.nodup
  intro node' hnode'
  have hid : node'.account ∈ ui.root.map (·.account) := by
    rw [hsound.root, ← applyUpdate_ids h, ← hids]
    exact List.mem_map_of_mem hnode'
  obtain ⟨node, hnode, haccount⟩ := List.mem_map.mp hid
  have hvisible : node.account ∈ (ui.accounts.applyUpdate update).1.visibleAccounts.ids := by
    rw [applyUpdate_ids h, ← hsound.root]
    exact List.mem_map_of_mem hnode
  obtain ⟨account, hshown⟩ := hstay node hnode hvisible
  -- the account has one row
  have heq : node' = node.showAccount account :=
    List.inj_on_of_nodup_map hnodup hnode' hshown haccount.symm
  exact ⟨node, hnode, heq ▸ ⟨rfl, rfl⟩⟩

/-- An account's folders are those of its list; the other accounts keep theirs. -/
theorem showFolders_nodes {ui : SidebarUi} (hsound : ui.Sound collationKey) (account : AccountId)
    (folders : List Folder) :
    ∀ node ∈ (ui.showFolders collationKey account folders).2.root,
      (node.account = account → node.listedFolders = SidebarUi.inIdentityOrder folders) ∧
      (node.account ≠ account → node ∈ ui.root) := by
  have hfilled : ∀ node ∈ (ui.fillFolders collationKey account
    (SidebarUi.inIdentityOrder folders)).root,
      (node.account = account → node.listedFolders = SidebarUi.inIdentityOrder folders) ∧
      (node.account ≠ account → node ∈ ui.root) := by
    intro node' hnode'
    obtain ⟨node, hnode, rfl⟩ := List.mem_map.mp hnode'
    by_cases haccount : node.account = account
    · rw [if_pos haccount]
      exact ⟨fun _ => rfl, fun hother => absurd haccount hother⟩
    · rw [if_neg haccount]
      exact ⟨fun hsame => absurd hsame haccount, fun _ => hnode⟩
  rcases SidebarUi.showFolders_cases ui collationKey account folders with ⟨heq, hlisted⟩ | ⟨heq,
    -⟩ | ⟨heq, -⟩
  · rw [heq]
    intro node hnode
    refine ⟨fun haccount => ?_, fun _ => hnode⟩
    obtain ⟨same, hsame, hsameAccount, hfolders⟩ := hlisted (haccount ▸ List.mem_map_of_mem hnode)
    have hnodup : (ui.root.map (·.account)).Nodup := hsound.root ▸ hsound.ordered.nodup
    rw [List.inj_on_of_nodup_map hnodup hnode hsame (haccount.trans hsameAccount.symm)]
    exact hfolders
  · rw [heq]
    exact hfilled
  · rw [heq]
    exact hfilled

/-- Each account has the folders that the lists have of it. -/
theorem showFolderLists_nodes {lists : List (AccountId × List Folder)}
    (hunique : ∀ entry ∈ lists, Collections.Unique Folder.identity entry.2) (w : MainWindow)
    (hsound : w.sidebar.Sound collationKey) :
    ∀ node ∈ (showFolderLists collationKey lists w).sidebar.root,
      (∃ folders, (node.account, folders) ∈ lists ∧ node.listedFolders = SidebarUi.inIdentityOrder
        folders) ∨
        node.account ∉ lists.map (·.1) ∧ node ∈ w.sidebar.root := by
  induction lists generalizing w with
  | nil => exact fun node hnode => .inr ⟨List.not_mem_nil, hnode⟩
  | cons entry lists ih =>
    intro node hnode
    have hstep : SidebarUi.Step collationKey w.sidebar
        (w.showFolderList collationKey entry.1 entry.2).sidebar :=
      ⟨.folders entry.1 entry.2, hunique entry List.mem_cons_self, rfl⟩
    rcases ih (fun other hother => hunique other (List.mem_cons_of_mem _ hother))
      (w.showFolderList collationKey entry.1 entry.2)
      (hsound.steps (.single hstep)) node hnode with ⟨folders, hfolders,
        hlisted⟩ | ⟨hother, hbefore⟩
    · exact .inl ⟨folders, List.mem_cons_of_mem _ hfolders, hlisted⟩
    · obtain ⟨hsame, hstays⟩ := showFolders_nodes hsound entry.1 entry.2 node hbefore
      by_cases haccount : node.account = entry.1
      · refine .inl ⟨entry.2, ?_, hsame haccount⟩
        rw [haccount]
        exact List.mem_cons_self
      · refine .inr ⟨fun hmem => ?_, hstays haccount⟩
        rcases List.mem_cons.mp hmem with heq | hmem
        · exact haccount heq
        · exact hother hmem

/-! ### The reads of the folder lists -/

/-- The accounts that are shown. -/
def shownAccounts (w : MainWindow) : List AccountId := w.sidebar.accounts.visibleAccounts.ids

/-- Each account has the folders that were found of it. -/
def ShowsLists (w : MainWindow) (lists : List (AccountId × List Folder)) : Prop :=
  lists.map (·.1) = w.shownAccounts ∧
  ∀ node ∈ w.sidebar.root, ∃ folders, (node.account, folders) ∈ lists ∧
    node.listedFolders = SidebarUi.inIdentityOrder folders

/-- How the latest read ended. -/
inductive Answered (w : MainWindow) : ListEvent → Prop
  /-- What it found is shown. -/
  | shown {lists : List (AccountId × List Folder)} (hshows : ShowsLists w lists) :
      Answered w (.shown w.folderLists.latestRead lists)
  /-- It failed. -/
  | failed (failure : Failure) : Answered w (.failed w.folderLists.latestRead failure)

/-- What the window knows of its reads of the folder lists. -/
structure ListsRead (w : MainWindow) : Prop where
  /-- None is newer than the latest. -/
  le : ∀ read accounts, (read, accounts) ∈ w.listReads → read ≤ w.folderLists.latestRead
  /-- The latest on the pool runs, of the accounts that are shown. -/
  running : ∀ accounts, (w.folderLists.latestRead, accounts) ∈ w.listReads →
    w.folderLists.reading = true ∧ accounts = w.shownAccounts
  /-- While it runs nothing happened since it started. -/
  reading : w.folderLists.reading = true →
    (w.folderLists.latestRead, w.shownAccounts) ∈ w.listReads ∧
    ∃ before, w.listLog = .started w.folderLists.latestRead w.shownAccounts :: before
  /-- Else nothing happened since it ended. -/
  idle : w.folderLists.reading = false → (w.listLog = [] ∧ w.sidebar.root = []) ∨
    ∃ answer before, w.listLog = answer :: .started w.folderLists.latestRead w.shownAccounts ::
      before ∧ Answered w answer

theorem ShowsLists.same {lists : List (AccountId × List Folder)} (h : ShowsLists w lists)
    (haccounts : w'.shownAccounts = w.shownAccounts)
    (hlists : SameLists w.sidebar w'.sidebar) : ShowsLists w' lists := by
  refine ⟨h.1.trans haccounts.symm, fun node' hnode' => ?_⟩
  obtain ⟨node, hnode, haccount, hsame⟩ := hlists node' hnode'
  obtain ⟨folders, hfolders, hlisted⟩ := h.2 node hnode
  exact ⟨folders, haccount.symm ▸ hfolders, hsame.trans hlisted⟩

/-- Nothing happens to the folder lists. -/
theorem ListsRead.same (h : ListsRead w) (haccounts : w'.shownAccounts = w.shownAccounts)
    (hlists : SameLists w.sidebar w'.sidebar) (hreads : w'.listReads = w.listReads)
    (hlatest : w'.folderLists.latestRead = w.folderLists.latestRead)
    (hreading : w'.folderLists.reading = w.folderLists.reading)
    (hlog : w'.listLog = w.listLog) : ListsRead w' := by
  refine ⟨?_, ?_, ?_, fun hidle => ?_⟩
  · rw [hreads, hlatest]
    exact h.le
  · rw [hreads, hlatest, hreading, haccounts]
    exact h.running
  · rw [hreads, hlatest, hreading, haccounts, hlog]
    exact h.reading
  · rw [hlatest, haccounts, hlog]
    rcases h.idle (hreading ▸ hidle) with ⟨hnothing, hroot⟩ | ⟨answer, before, heq, hanswered⟩
    · refine .inl ⟨hnothing, List.eq_nil_iff_forall_not_mem.mpr fun node' hnode' => ?_⟩
      obtain ⟨node, hnode, -⟩ := hlists node' hnode'
      rw [hroot] at hnode
      cases hnode
    · refine .inr ⟨answer, before, heq, ?_⟩
      cases hanswered with
      | shown hshows => exact hlatest ▸ .shown (hshows.same haccounts hlists)
      | failed failure => exact hlatest ▸ .failed failure

theorem ListsRead.onlyMail (h : ListsRead w) (honly : OnlyMail w w') : ListsRead w' := by
  refine h.same (congrArg (·.accounts.visibleAccounts.ids) honly.sidebar) (honly.sidebar ▸ .refl _)
    honly.listReads ?_ ?_ honly.listLog
  · exact congrArg FolderListsRead.latestRead honly.folderLists
  · exact congrArg FolderListsRead.reading honly.folderLists

/-- A read starts, of the accounts that are shown. -/
theorem listsRead_started
    (hle : ∀ read accounts, (read, accounts) ∈ w.listReads → read ≤ w.folderLists.latestRead) :
    ListsRead w.readFolderLists where
  le read accounts hmem := by
    rcases List.mem_append.mp hmem with hmem | hmem
    · exact (hle read accounts hmem).trans (Nat.le_succ _)
    · cases List.mem_singleton.mp hmem
      exact le_rfl
  running accounts hmem := by
    rcases List.mem_append.mp hmem with hmem | hmem
    · exact absurd (hle _ accounts hmem) (Nat.not_succ_le_self _)
    · cases List.mem_singleton.mp hmem
      exact ⟨rfl, rfl⟩
  reading _ := ⟨List.mem_append_right _ (List.mem_singleton_self _), w.listLog, rfl⟩
  idle hidle := by cases hidle

theorem ListsRead.dropped (h : ListsRead w) {read : ℕ} (hlate : read ≠ w.folderLists.latestRead) :
    ListsRead { w with listReads := w.listReads.filter (·.1 ≠ read) } where
  le read accounts hmem := h.le read accounts (List.mem_of_mem_filter hmem)
  running accounts hmem := h.running accounts (List.mem_of_mem_filter hmem)
  reading hreading := by
    obtain ⟨hmem, hlog⟩ := h.reading hreading
    exact ⟨List.mem_filter.mpr ⟨hmem, decide_eq_true hlate.symm⟩, hlog⟩
  idle hidle := by
    rcases h.idle hidle with hnothing | ⟨answer, before, heq, hanswered⟩
    · exact .inl hnothing
    · refine .inr ⟨answer, before, heq, ?_⟩
      cases hanswered with
      | shown hshows => exact .shown hshows
      | failed failure => exact .failed failure

/-- The latest read answers. -/
theorem ListsRead.answered (h : ListsRead w) {accounts : List AccountId}
    (hmem : (w.folderLists.latestRead, accounts) ∈ w.listReads)
    (haccounts : w'.shownAccounts = w.shownAccounts)
    (hreads : w'.listReads = w.listReads.filter (·.1 ≠ w.folderLists.latestRead))
    (hlatest : w'.folderLists.latestRead = w.folderLists.latestRead)
    (hidle : w'.folderLists.reading = false) {answer : ListEvent}
    (hlog : w'.listLog = answer :: w.listLog) (hanswered : Answered w' answer) : ListsRead w' where
  le read accounts hmem := by
    rw [hreads] at hmem
    rw [hlatest]
    exact h.le read accounts (List.mem_of_mem_filter hmem)
  running accounts hmem := by
    rw [hreads, hlatest] at hmem
    exact absurd rfl (of_decide_eq_true (List.mem_filter.mp hmem).2)
  reading hreading := by
    rw [hidle] at hreading
    cases hreading
  idle _ := by
    obtain ⟨-, before, hbefore⟩ := h.reading (h.running accounts hmem).1
    exact .inr ⟨answer, before, by rw [hlog, hlatest, haccounts, hbefore], hanswered⟩

/-- **A change keeps what is known of the folder lists.** -/
theorem Change.keepsLists (hchange : Change collationKey w w') (h : ListsRead w)
    (hsound : w.sidebar.Sound collationKey) : ListsRead w' := by
  cases hchange with
  | nothing => exact h
  | updated update =>
    by_cases hcomplete : update.lastCheck = .complete
    · rw [takeUpdate, if_pos hcomplete]
      exact listsRead_started h.le
    · rw [takeUpdate, if_neg hcomplete]
      exact h.same (applyUpdate_ids hcomplete) (sameLists_applyUpdate hsound hcomplete) rfl
        rfl rfl rfl
  | selected henabled hselected =>
    obtain ⟨row, -, heq⟩ := selectAt_selection hselected
    refine h.same (congrArg AccountRows.ids ?_) (sameLists_selectAt w.sidebar _) rfl rfl rfl rfl
    change (w.sidebar.selectAt _).2.accounts.visibleAccounts = _
    rw [heq]
    exact select_visibleAccounts _ _
  | cleared =>
    exact h.same (congrArg AccountRows.ids (collapse_visibleAccounts _ _))
      (sameLists_collapse w.sidebar _) rfl rfl rfl rfl
  | loadStarted => exact h.same rfl (.refl _) rfl rfl rfl rfl
  | loadEnded account target result =>
    cases target with
    | folderList =>
      cases result with
      | stored incomplete =>
        have hstarted : ListsRead { w with
            refreshes := w.refreshes.finishLoad account (.stored incomplete)
            listLog := .stored account :: w.listLog }.readFolderLists := listsRead_started h.le
        exact hstarted.same rfl (.refl _) rfl rfl rfl rfl
      | failed => exact h.same rfl (.refl _) rfl rfl rfl rfl
      | cancelled => exact h.same rfl (.refl _) rfl rfl rfl rfl
    | mailbox => cases result <;> exact h.same rfl (.refl _) rfl rfl rfl rfl
  | rowsRead => exact h.same rfl (.refl _) rfl rfl rfl rfl
  | @listsRead answer henabled =>
    obtain ⟨accounts, hmem, hfound⟩ := henabled
    cases answer with
    | ok lists =>
      obtain ⟨hlists, hunique⟩ := hfound lists rfl
      have hids : (showFolderLists collationKey lists
        (w.listsAnswered none (.shown w.folderLists.latestRead lists))).shownAccounts =
          w.shownAccounts := congrArg AccountRows.ids (showFolderLists_visibleAccounts lists _)
      have hnodes := showFolderLists_nodes hunique
        (w.listsAnswered none (.shown w.folderLists.latestRead lists)) hsound
      have hshown : ShowsLists
          (showFolderLists collationKey lists
            (w.listsAnswered none (.shown w.folderLists.latestRead lists))) lists := by
        have hsame : lists.map (·.1) = w.shownAccounts := hlists.trans (h.running accounts hmem).2
        refine ⟨hsame.trans hids.symm, fun node hnode => ?_⟩
        rcases hnodes node hnode with hfolders | ⟨hother, hbefore⟩
        · exact hfolders
        · refine absurd ?_ hother
          rw [hsame, shownAccounts, ← hsound.root]
          exact List.mem_map_of_mem hbefore
      rw [takeFolderLists_ok]
      rw [showFolderLists_eq] at hids hshown ⊢
      exact h.answered hmem hids rfl rfl rfl rfl (.shown hshown)
    | error failure =>
      rw [takeFolderLists_error]
      exact h.answered hmem rfl rfl rfl rfl rfl (.failed failure)

theorem Silent.keepsLists (hsilent : Silent collationKey w w') (h : ListsRead w) :
    ListsRead w' := by
  cases hsilent with
  | listsDropped hlate answer =>
    rw [takeFolderLists_late hlate]
    exact h.dropped hlate
  | listsReadAgain =>
    have hstarted : ListsRead w.readFolderLists := listsRead_started h.le
    exact hstarted.same rfl (.refl _) rfl rfl rfl rfl
  | folded hkept =>
    exact h.same (congrArg (·.visibleAccounts.ids) (collapse_selection hkept))
      (sameLists_collapse w.sidebar _) rfl rfl rfl rfl
  | unfolded key => exact h.same rfl (sameLists_fold w.sidebar key true) rfl rfl rfl rfl
  | flagWritten hwrite written =>
    rw [flagWriteEnded, writeOldestFlag]
    split <;> exact h.same rfl (.refl _) rfl rfl rfl rfl
  | storeChanged => exact h.same rfl (.refl _) rfl rfl rfl rfl
  | rowsDropped => exact h.same rfl (.refl _) rfl rfl rfl rfl
  | contentRead => exact h.same rfl (.refl _) rfl rfl rfl rfl
  | quit => exact h.same rfl (.refl _) rfl rfl rfl rfl

theorem Move.keepsLists (hmove : Move collationKey w w') (h : ListsRead w)
    (hsound : w.sidebar.Sound collationKey) : ListsRead w' := by
  cases hmove with
  | shown hchange hrender => exact (hchange.keepsLists h hsound).onlyMail (render_onlyMail hrender)
  | silent hsilent => exact hsilent.keepsLists h
  | acts hheard henabled hacts => exact h.onlyMail (actMail_onlyMail hacts)

theorem listsRead_start : ListsRead start :=
  ⟨fun _ _ hmem => (by cases hmem), fun _ hmem => (by cases hmem), fun hreading =>
    (by cases hreading), fun _ => .inl ⟨rfl, rfl⟩⟩

theorem Reached.listsRead (h : Reached collationKey w) : ListsRead w :=
  h.keeps listsRead_start fun _ _ hsane hread hmove => hmove.keepsLists hread hsane.sidebar

/-- The rows under the account are those of the folders, as trees, but for what is folded. -/
def RowsOf (collationKey : String → String) (folders : List Folder) (node : SidebarNode) : Prop :=
  ∃ trees, Folders.fillFolders collationKey folders (folders.length + 1) none = some trees ∧
    Collections.mapRows (·.folded true) node.children =
      Collections.mapRows (folderRow node.account) trees

/-- **The folder lists are shown as they were read.** In every run the latest read of them is of the
accounts that are shown, and since it started none was stored; once it has answered and did not
fail, each account's rows are those of the folder list that it found. -/
theorem folders_as_read (h : Reached collationKey w) :
    (w.folderLists.reading = true → (w.folderLists.latestRead, w.shownAccounts) ∈ w.listReads ∧
      ∃ before, w.listLog = .started w.folderLists.latestRead w.shownAccounts :: before) ∧
    (w.folderLists.reading = false → (w.listLog = [] ∧ w.sidebar.root = []) ∨
      ∃ answer before,
        w.listLog = answer :: .started w.folderLists.latestRead w.shownAccounts :: before ∧
        ((∃ failure, answer = .failed w.folderLists.latestRead failure) ∨
          ∃ lists, answer = .shown w.folderLists.latestRead lists ∧
            lists.map (·.1) = w.shownAccounts ∧
            ∀ node ∈ w.sidebar.root, ∃ folders, (node.account, folders) ∈ lists ∧
              node.listedFolders = SidebarUi.inIdentityOrder folders ∧
              RowsOf collationKey (SidebarUi.inIdentityOrder folders) node)) := by
  have hkept := h.listsRead
  refine ⟨hkept.reading, fun hidle => (hkept.idle hidle).imp_right ?_⟩
  rintro ⟨answer, before, hlog, hanswered⟩
  refine ⟨answer, before, hlog, ?_⟩
  cases hanswered with
  | failed failure => exact .inl ⟨failure, rfl⟩
  | shown hshows =>
    refine .inr ⟨_, rfl, hshows.1, fun node hnode => ?_⟩
    obtain ⟨folders, hmem, hlisted⟩ := hshows.2 node hnode
    exact ⟨folders, hmem, hlisted, hlisted ▸ (h.sane.sidebar.nodes node hnode).tree⟩

/-- The account's rows are its list's. -/
theorem folders_as_read_inbox : ∃ w, Reached id w ∧ w.sidebar.root ≠ [] ∧
    ∀ node ∈ w.sidebar.root, node.listedFolders = SidebarUi.inIdentityOrder SidebarUi.oneInbox ∧
      RowsOf id (SidebarUi.inIdentityOrder SidebarUi.oneInbox) node := by
  obtain ⟨w, hinbox⟩ := inbox_reached
  obtain ⟨read, before, hlog⟩ := hinbox.listLog
  have hw := hinbox.reached
  refine ⟨w, hw, fun hnil => ?_, fun node hnode => ?_⟩
  · have hsound := hw.sane.sidebar
    have hvisible := selected_visible hsound (hinbox.sidebar ▸ SidebarUi.selection_selecting)
    rw [← hsound.root, hnil] at hvisible
    cases hvisible
  · rcases (folders_as_read hw).2 hinbox.listReading with ⟨hnothing, -⟩ |
      ⟨answer, earlier, heq, ⟨failure, rfl⟩ | ⟨lists, rfl, -, hnodes⟩⟩
    · cases hnothing.symm.trans hlog
    · cases heq.symm.trans hlog
    · cases heq.symm.trans hlog
      obtain ⟨folders, hmem, hlisted, hrows⟩ := hnodes node hnode
      obtain rfl : folders = SidebarUi.oneInbox := (Prod.mk.inj (List.mem_singleton.mp hmem)).2
      exact ⟨hlisted, hrows⟩

end MainWindow

end Mailbag.Window
