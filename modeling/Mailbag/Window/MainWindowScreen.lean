import Mailbag.Window.MainWindowFlags

/-!
# What is on screen

The list and the page in its place, the banner and the refresh actions follow what the window
has, in every run. A banner is only shown for the selected mail, and not while a refresh answers it.

## What is proved

* `screen_follows` — the list is empty where nothing is to be listed, a running load shows and keeps
  the refresh actions off, and a banner is the latest refresh of the selected mail.
* `loads_of_shown` — the outcomes kept, and a running load that was not cancelled, are of accounts
  that are shown.
-/

namespace Mailbag.Window

open Collections Folders Interaction Loads OnlineAccounts Relation

namespace MainWindow

variable {collationKey : String → String} {w w' w₁ : MainWindow}

/-! ### Where the list has rows -/

/-- The selected mailbox's rows are shown, or it is read again while they stay. -/
def ShowsRows (w : MainWindow) : Prop :=
  w.folderLists.failure = none ∧ ∃ folder, w.sidebar.accounts.selection = some (.mailbox folder) ∧
  w.shown.folder = some folder ∧
    ((∃ row rest, w.shown.stored = .read (some (row :: rest))) ∨ w.shown.stored = .reading true)

theorem showsRows_of_messages {folder : FolderRef} {rows : StoredRows} {banner : Option Banner}
    (h : w.shownMail = .messages folder rows banner) : w.ShowsRows := by
  obtain ⟨hfailure, hselection, hfolder, -, hstored⟩ := shownMail_messages h
  exact ⟨hfailure, folder, hselection, hfolder, .inl hstored⟩

theorem showsRows_of_reading (h : w.shownMail = .reading true) : w.ShowsRows := by
  have hagain := shownMail_reading h
  rw [shownMail] at h
  split at h
  · cases h
  · cases h
  · rename_i selection hfailure hselection
    by_cases hread : w.storedOf selection = .notRead
    · split at h
      · cases h
      · rename_i hstored
        cases hread.symm.trans hstored
      · exact absurd h ((w.shownWithoutRows_cases _ _).2 true)
    · obtain ⟨folder, rfl, hfolder, -⟩ := storedOf_eq hread
      exact ⟨hfailure, folder, hselection, hfolder, .inr hagain⟩

theorem renderMail_clear (h : ¬ w.ShowsRows) (animates : Bool) :
    w.renderMail animates = .ok w.mail.clear := by
  rw [renderMail]
  split
  · rename_i hshown
    exact absurd (showsRows_of_messages hshown) h
  · rename_i hshown
    exact absurd (showsRows_of_reading hshown) h
  · rfl

/-- A read that starts leaves the rows, or reads the same mailbox again. -/
theorem ShowsRows.of_reads (h : w.ShowsRows)
    (hreads : ReadsShown w.ui.selectedMailbox w.shown w'.shown)
    (hselection : w'.sidebar.accounts.selection = w.sidebar.accounts.selection)
    (hfailure : w'.folderLists.failure = w.folderLists.failure) : w'.ShowsRows := by
  obtain ⟨hnone, folder, hselected, hfolder, hstored⟩ := h
  refine ⟨hfailure.trans hnone, folder, hselection.trans hselected, ?_⟩
  have hplace : w.ui.selectedMailbox = some folder := by
    change WindowUi.selectedMailbox ⟨w.sidebar.accounts.selection, w.shown, w.rowsReads, w.log⟩ = _
    rw [hselected]
    rfl
  generalize w'.shown = s at hreads
  cases hreads with
  | nothing => exact ⟨hfolder, hstored⟩
  | @started folder' hstarted =>
    cases hplace.symm.trans hstarted
    refine ⟨rfl, .inr ?_⟩
    rcases hstored with ⟨row, rest, hstored⟩ | hstored <;>
      simp [ShownMailbox.startRead, hfolder, hstored]
  | reread => exact ⟨hfolder, hstored⟩
  | due => exact ⟨hfolder, hstored⟩

/-! ### Which banner shows -/

theorem pageOf_banner {shownMail : ShownMail} {banner : Banner}
    (h : (w.pageOf shownMail).2 = some banner) :
    w.sidebar.accounts.page = .accountsShown ∧
      ((∃ folder rows, shownMail = .messages folder rows (some banner)) ∨ shownMail = .emptyMailbox
        (some banner)) := by
  unfold pageOf at h
  split at h
  · cases h
  · rename_i hpage
    refine ⟨not_not.mp hpage, ?_⟩
    cases shownMail with
    | messages folder rows shown =>
      refine .inl ⟨folder, rows, ?_⟩
      have hshown : shown = some banner := by
        dsimp only at h
        split at h
        · split at h <;> exact h
        · exact h
      rw [hshown]
    | emptyMailbox shown => exact .inr (congrArg ShownMail.emptyMailbox h)
    | failed => cases h
    | status => cases h
    | reading => cases h

theorem shownWithoutRows_empty {selection : Selection} {stored : StoredMailbox}
    {banner : Option Banner} (h : w.shownWithoutRows selection stored = .emptyMailbox banner) :
    banner = w.bannerFor selection := by
  unfold shownWithoutRows at h
  split at h <;> cases h
  rfl

theorem shownMail_banner {banner : Banner}
    (h : (∃ folder rows, w.shownMail = .messages folder rows (some banner)) ∨
      w.shownMail = .emptyMailbox (some banner)) :
    w.folderLists.failure = none ∧ ∃ selection, w.sidebar.accounts.selection = some selection ∧
      w.bannerFor selection = some banner := by
  rw [shownMail] at h
  split at h
  · simp at h
  · simp at h
  · rename_i selection hfailure hselection
    refine ⟨hfailure, selection, hselection, ?_⟩
    split at h
    · rcases h with ⟨folder, rows, h⟩ | h
      · exact (ShownMail.messages.inj h).2.2
      · cases h
    · simp at h
    · rcases h with ⟨folder, rows, h⟩ | h
      · exact absurd h ((w.shownWithoutRows_cases _ _).1 folder rows _)
      · exact (shownWithoutRows_empty h).symm

/-- The selected mail's banner is how its latest refresh ended; none shows while one runs. -/
theorem bannerFor_eq_some {selection : Selection} {banner : Banner}
    (h : w.bannerFor selection = some banner) :
    ∃ target outcome, w.refreshes.outcomeOf selection.accountId = some (target, outcome) ∧
      concernsShown selection target = true ∧
      w.loadingOf selection = none ∧ bannerOf outcome (retriedBy target) = some banner := by
  obtain ⟨⟨target, outcome⟩, houtcome, hbanner⟩ := Option.bind_eq_some_iff.mp h
  obtain ⟨houtcome, hloading⟩ := Option.filter_eq_some_iff.mp houtcome
  obtain ⟨houtcome, hconcerns⟩ := Option.filter_eq_some_iff.mp houtcome
  exact ⟨target, outcome, houtcome, hconcerns, Option.isNone_iff_eq_none.mp hloading, hbanner⟩

/-! ### The screen in every run -/

/-- What is on screen follows what the window has. -/
structure OnScreen (w : MainWindow) : Prop where
  /-- The list. -/
  empty : ¬ w.ShowsRows → w.mail.listedRows = none
  /-- A load that runs. -/
  loading : w.refreshes.isLoading = true →
    w.screen.loading = true ∧ w.screen.canRefreshMailbox = false ∧
    w.screen.canRefreshAccount = false
  /-- The banner. -/
  banner : ∀ banner, w.screen.banner = some banner → w.sidebar.accounts.page = .accountsShown ∧
    w.folderLists.failure = none ∧
    ∃ selection, w.sidebar.accounts.selection = some selection ∧ w.bannerFor selection = some banner

/-- **What is shown is on screen.** -/
theorem render_onScreen (hmail : MailUi.Reached w.mail) {animates : Bool}
    (h : w.render animates = .ok w') : OnScreen w' := by
  obtain ⟨mail, hshown, rfl⟩ := render_eq h
  refine ⟨fun hnot => ?_, fun hloading => ?_, fun banner hbanner => ?_⟩
  · have hnone : ¬ w.ShowsRows := hnot
    cases (renderMail_clear hnone animates).symm.trans hshown
    exact (MailUi.clear_kept hmail.kept.1 hmail.kept.2).2.2
  · have hfree : w.refreshes.isLoading = true := hloading
    simp [screenOf, canLoad, hfree]
  · obtain ⟨hpage, hcause⟩ := pageOf_banner hbanner
    exact ⟨hpage, shownMail_banner hcause⟩

/-- Where only a read may start, the screen shows the same. -/
theorem OnScreen.leaves (h : OnScreen w) (hleaves : Leaves w w')
    (hrefreshes : w'.refreshes = w.refreshes) : OnScreen w' where
  empty hnot := hleaves.listedRows.trans (h.empty fun hshows =>
    hnot (hshows.of_reads hleaves.reads (congrArg AccountList.selection hleaves.accounts)
      hleaves.failure))
  loading hloading := by
    rw [hleaves.screen]
    exact h.loading (hrefreshes ▸ hloading)
  banner banner hbanner := by
    obtain ⟨hpage, hnone, selection, hselection, hfor⟩ := h.banner banner (hleaves.screen ▸ hbanner)
    rw [hleaves.accounts]
    refine ⟨hpage, hleaves.failure.trans hnone, selection, hselection, ?_⟩
    rw [bannerFor, outcomeOf, loadingOf, hrefreshes]
    exact hfor

/-- Quitting ends the load without an outcome. -/
theorem OnScreen.cancelLoads (h : OnScreen w) : OnScreen w.cancelLoads where
  empty := h.empty
  loading hloading := by cases hloading
  banner banner hbanner := by
    obtain ⟨hpage, hnone, selection, hselection, hfor⟩ := h.banner banner hbanner
    refine ⟨hpage, hnone, selection, hselection, ?_⟩
    obtain ⟨target, outcome, houtcome, hconcerns, -, hof⟩ := bannerFor_eq_some hfor
    have hsame : w.cancelLoads.outcomeOf selection = some (target, outcome) :=
      Option.filter_eq_some_iff.mpr ⟨houtcome, hconcerns⟩
    have hfree : w.cancelLoads.loadingOf selection = none := rfl
    rw [bannerFor, hsame, hfree]
    exact hof

/-- **Every move keeps the screen.** -/
theorem Move.onScreen (hmove : Move collationKey w w') (h : OnScreen w)
    (hsane : Sane collationKey w) : OnScreen w' := by
  cases hmove with
  | shown hchange hrender => exact render_onScreen (hchange.mail.symm ▸ hsane.mail) hrender
  | silent hsilent =>
    have hleaves := hsilent.leaves
    cases hsilent with
    | quit => exact h.cancelLoads
    | listsDropped hlate answer =>
      rw [takeFolderLists_late hlate] at hleaves ⊢
      exact h.leaves hleaves rfl
    | flagWritten hwrite written => exact h.leaves hleaves (writeOldestFlag_onlyMail _).refreshes
    | storeChanged => exact h.leaves hleaves rfl
    | rowsDropped => exact h.leaves hleaves rfl
    | contentRead => exact h.leaves hleaves rfl
    | folded => exact h.leaves hleaves rfl
    | unfolded => exact h.leaves hleaves rfl
    | listsReadAgain => exact h.leaves hleaves rfl
  | acts hheard henabled hacts =>
    refine (actMail_induction (P := fun w => OnScreen w ∧ MailUi.Reached w.mail)
      (fun w w' hw hleaves _ hmail hrefreshes _ => ?_)
      (fun w hw => hw.2) (fun w w' animates hw hrender => ?_) hheard henabled hacts
        ⟨h, hsane.mail⟩).1
    · exact ⟨hw.1.leaves hleaves hrefreshes, ReflTransGen.trans hw.2 hmail.to_reflTransGen⟩
    · exact ⟨render_onScreen hw.2 hrender, ReflTransGen.trans hw.2 (render_steps hrender)⟩

theorem onScreen_start : OnScreen start :=
  ⟨fun _ => rfl, fun hloading => (by cases hloading), fun _ hbanner => (by cases hbanner)⟩

/-! ### The inbox is refreshed -/

theorem accounts_selecting : SidebarUi.selecting.accounts =
    (SidebarUi.start.handle id (.update SidebarUi.oneAccount)).accounts.select
    (.mailbox WindowUi.inbox) := by
  change (SidebarUi.selectAt ((SidebarUi.start.handle id (.update SidebarUi.oneAccount)).handle id
    (.folders ⟨"imap", imap_ne_empty⟩ SidebarUi.oneInbox)) 1).2.accounts = _
  simp only [SidebarUi.selectAt, SidebarUi.nodeAt, SidebarUi.shown_oneInbox,
    SidebarUi.accounts_oneInbox]
  rfl

theorem refreshing_reached :
    ∃ w, Reached id w ∧ w.sidebar = SidebarUi.selecting ∧ w.folderLists.failure = none ∧
    w.shown.folder = some WindowUi.inbox ∧ w.shown.stored = .read (some [plainRow "7"]) ∧
    ∃ load, w.refreshes.runningLoad = some ⟨WindowUi.inbox.account, .mailbox WindowUi.inbox,
      some load⟩ := by
  obtain ⟨w, hinbox⟩ := inbox_reached
  have hw := hinbox.reached
  have hsidebar := hinbox.sidebar
  have hstored := hinbox.stored
  have hselection : w.selectionWithProvider = some (.mailbox WindowUi.inbox, .genericImap) := by
    rw [selectionWithProvider, SidebarUi.selectedProvider, hsidebar, accounts_selecting]
    rfl
  have hnone : w.refreshes.isLoading = false := by
    rw [Refreshes.isLoading, hinbox.runningLoad]
    rfl
  obtain ⟨w', hw', hrender⟩ := hw.shown .refreshMailbox false trivial
    (show w.refreshMailbox false =
      (w.beginLoad WindowUi.inbox.account .genericImap (.mailbox WindowUi.inbox)).render false by
      rw [refreshMailbox, hselection]
      exact if_neg (by simp [hnone])) rfl
  have honly := render_onlyMail hrender
  have hshown : w'.shown = w.shown := by
    have hui := congrArg WindowUi.shown honly.ui
    change w'.shown = w.shown.forgetReadFailure at hui
    rw [hui, ShownMailbox.forgetReadFailure, hstored]
  refine ⟨w', hw', honly.sidebar.trans hsidebar, ?_, ?_, ?_, w.loads.length, ?_⟩
  · rw [honly.folderLists]
    rfl
  · rw [hshown]
    exact hinbox.folder
  · rw [hshown]
    exact hstored
  · rw [honly.refreshes]
    rfl

theorem pageOf_messages (hpage : w.sidebar.accounts.page = .accountsShown) (folder : FolderRef)
    (rows : StoredRows) (banner : Option Banner) :
    (w.pageOf (.messages folder rows banner)).2 = banner := by
  unfold pageOf
  rw [if_neg (not_not.mpr hpage)]
  dsimp only
  split
  · split <;> rfl
  · rfl

theorem failed_reached (failure : Failure) : ∃ w, Reached id w ∧ w.sidebar = SidebarUi.selecting ∧
    w.screen.banner = some (.failure failure, .refreshMailbox) := by
  obtain ⟨w, hw, hsidebar, hfailure, hfolder, hstored, load, hload⟩ := refreshing_reached
  obtain ⟨w', hw', hrender⟩ :=
    hw.shown (.finished WindowUi.inbox.account (.mailbox WindowUi.inbox) (.failed failure)) false
    trivial rfl rfl
  refine ⟨w', hw', (render_onlyMail hrender).sidebar.trans hsidebar, ?_⟩
  obtain ⟨mail, -, rfl⟩ := render_eq hrender
  generalize hended : w.endLoad WindowUi.inbox.account (.mailbox WindowUi.inbox)
    (.failed failure) = ended
  have hsidebar' : ended.sidebar = SidebarUi.selecting := hended ▸ hsidebar
  have hselection : ended.sidebar.accounts.selection = some (.mailbox WindowUi.inbox) := by
    rw [hsidebar']
    exact SidebarUi.selection_selecting
  have houtcome : ended.bannerFor (.mailbox WindowUi.inbox) =
      some (.failure failure, .refreshMailbox) := by
    have hrefreshes : ended.refreshes = w.refreshes.finishLoad WindowUi.inbox.account
        (.failed failure) := hended ▸ rfl
    have hends : ended.refreshes = ⟨Function.update w.refreshes.outcomes WindowUi.inbox.account
        (some (.mailbox WindowUi.inbox, .failed failure)), none⟩ := by
      rw [hrefreshes, Refreshes.finishLoad, hload]
      rfl
    rw [bannerFor, outcomeOf, loadingOf, hends, Refreshes.outcomeOf]
    change (((Function.update w.refreshes.outcomes WindowUi.inbox.account _) WindowUi.inbox.account
      |>.filter _).filter _).bind _ = _
    rw [Function.update_self]
    rfl
  have hfailure' : ended.folderLists.failure = none := by
    rw [← hended]
    exact hfailure
  have hfolder' : ended.shown.folder = some WindowUi.inbox := by
    rw [← hended]
    exact hfolder
  have hstored' : ended.shown.stored = .read (some [plainRow "7"]) := by
    rw [← hended]
    exact hstored
  have hpage : ended.sidebar.accounts.page = .accountsShown := by
    rw [hsidebar', accounts_selecting]
    rfl
  change (pageOf { ended with mail := mail } ended.shownMail).2 = _
  rw [messages_of_read hfailure' hselection hfolder' hstored', houtcome]
  refine pageOf_messages ?_ WindowUi.inbox ended.rows _
  exact hpage

/-- **The screen follows the window.** In every run the list is empty unless the selected mailbox's
rows are shown or read again; while a load runs the screen tells so and no other can be chosen; and
a banner is how the latest refresh of the selected mail ended, of which none runs. -/
theorem screen_follows (h : Reached collationKey w) :
    (¬ w.ShowsRows → w.mail.listedRows = none ∧ w.mail.items = []) ∧
      (w.refreshes.isLoading = true →
        w.screen.loading = true ∧ w.screen.canRefreshMailbox = false ∧
          w.screen.canRefreshAccount = false) ∧
      ∀ banner, w.screen.banner = some banner → w.sidebar.accounts.page = .accountsShown ∧
        w.folderLists.failure = none ∧
        ∃ selection target outcome, w.sidebar.accounts.selection = some selection ∧
          w.refreshes.outcomeOf selection.accountId = some (target, outcome) ∧
          concernsShown selection target = true ∧
          w.loadingOf selection = none ∧ bannerOf outcome (retriedBy target) = some banner := by
  have hscreen : OnScreen w :=
    h.keeps onScreen_start fun _ _ hsane hscreen hmove => hmove.onScreen hscreen hsane
  have hinv := h.sane.mail.kept.1
  refine ⟨fun hnot => ⟨hscreen.empty hnot, hinv.empty (hscreen.empty hnot)⟩, hscreen.loading,
    fun banner hbanner => ?_⟩
  obtain ⟨hpage, hfailure, selection, hselection, hfor⟩ := hscreen.banner banner hbanner
  obtain ⟨target, outcome, hcause⟩ := bannerFor_eq_some hfor
  exact ⟨hpage, hfailure, selection, target, outcome, hselection, hcause⟩

/-- The banner over the inbox tells of the refresh that failed. -/
theorem screen_follows_failed : ∃ w target outcome, Reached id w ∧
    w.refreshes.outcomeOf WindowUi.inbox.account = some (target, outcome) ∧
    bannerOf outcome (retriedBy target) =
    some (.failure ⟨.mailNotSaved, [], ""⟩, .refreshMailbox) := by
  obtain ⟨w, hw, hsidebar, hbanner⟩ := failed_reached ⟨.mailNotSaved, [], ""⟩
  obtain ⟨-, -, selection, target, outcome, hselection, houtcome, -, -, hof⟩ :=
    (screen_follows hw).2.2 _ hbanner
  rw [hsidebar] at hselection
  cases hselection.symm.trans SidebarUi.selection_selecting
  exact ⟨w, target, outcome, hw, houtcome, hof⟩

/-! ### Loads are of accounts that are shown -/

/-- What loads leave and run is of accounts that are shown. -/
structure LoadsShown (w : MainWindow) : Prop where
  /-- The outcomes kept. -/
  outcomes : ∀ account, w.refreshes.outcomes account ≠ none →
    account ∈ w.sidebar.accounts.visibleAccounts.ids
  /-- The load that runs, unless it was cancelled. -/
  running : ∀ running, w.refreshes.runningLoad = some running → running.cancellation ≠ none →
    running.accountId ∈ w.sidebar.accounts.visibleAccounts.ids

theorem LoadsShown.same (h : LoadsShown w) (hrefreshes : w'.refreshes = w.refreshes)
    (hvisible : w'.sidebar.accounts.visibleAccounts = w.sidebar.accounts.visibleAccounts) :
    LoadsShown w' := by
  refine ⟨?_, ?_⟩ <;> rw [hrefreshes, hvisible]
  · exact h.outcomes
  · exact h.running

theorem selected_visible (hsound : w.sidebar.Sound collationKey) {selection : Selection}
    (hselection : w.sidebar.accounts.selection = some selection) :
    selection.accountId ∈ w.sidebar.accounts.visibleAccounts.ids := by
  obtain ⟨node, hnode, row, hrow, hkey, -⟩ :=
    SidebarUi.shows_iff.mp (hsound.selected selection hselection)
  rw [← hsound.root, ← hkey, (hsound.nodes node hnode).accountId hrow]
  exact List.mem_map_of_mem hnode

theorem select_visibleAccounts (list : AccountList) (selection : Selection) :
    (list.select selection).visibleAccounts = list.visibleAccounts := by
  rw [AccountList.select]
  split <;> rfl

theorem collapse_visibleAccounts (ui : SidebarUi) (key : Selection) :
    (ui.collapse key).2.accounts.visibleAccounts = ui.accounts.visibleAccounts := by
  rw [SidebarUi.collapse]
  split
  · rfl
  · change (if (ui.fold key false).accounts.selection.any _ then _
      else _ : SidebarUi).accounts.visibleAccounts = _
    split <;> rfl

theorem showFolderLists_visibleAccounts (lists : List (AccountId × List Folder))
    (w : MainWindow) :
    (showFolderLists collationKey lists w).sidebar.accounts.visibleAccounts =
      w.sidebar.accounts.visibleAccounts := by
  induction lists generalizing w with
  | nil => rfl
  | cons entry lists ih =>
    refine (ih (w.showFolderList collationKey entry.1 entry.2)).trans ?_
    change (w.sidebar.showFolders collationKey entry.1 entry.2).2.accounts.visibleAccounts = _
    rcases SidebarUi.showFolders_cases w.sidebar collationKey entry.1 entry.2
      with ⟨heq, -⟩ | ⟨heq, -⟩ | ⟨heq, -⟩ <;> rw [heq] <;> rfl

/-- An update forgets the outcomes of accounts that it hides, and cancels a load of one. -/
theorem takeUpdate_refreshes (w : MainWindow) (update : NamedUpdate) :
    (w.takeUpdate update).sidebar = (w.sidebar.applyUpdate update).1 ∧
      (w.takeUpdate update).refreshes = (w.refreshes.discardExcluded fun account =>
        decide (account ∈ (w.sidebar.applyUpdate update).1.accounts.visibleAccounts.ids)).1 := by
  rw [takeUpdate]
  split <;> exact ⟨rfl, rfl⟩

/-- Whatever ran before an update, what runs after it is of an account that is shown. -/
theorem loadsShown_takeUpdate (w : MainWindow) (update : NamedUpdate) :
    LoadsShown (w.takeUpdate update) := by
  obtain ⟨hsidebar, hrefreshes⟩ := takeUpdate_refreshes w update
  refine ⟨fun account hkept => ?_, fun running hrunning hcancellation => ?_⟩
  · rw [hrefreshes, Refreshes.discardExcluded_outcomes] at hkept
    rw [hsidebar]
    by_contra hhidden
    exact hkept (if_neg (by simpa using hhidden))
  · rw [hrefreshes, Refreshes.discardExcluded_runningLoad] at hrunning
    obtain ⟨before, -, heq⟩ := Option.map_eq_some_iff.mp hrunning
    rw [hsidebar]
    split at heq
    · rename_i hvisible
      cases heq
      exact of_decide_eq_true hvisible
    · cases heq
      exact absurd rfl hcancellation

/-- A load that ends leaves the outcome of its own account, if it was not cancelled. -/
theorem loadsShown_endLoad (h : LoadsShown w) (account : AccountId) (target : LoadTarget)
    (result : Cycle.LoadResult) : LoadsShown (w.endLoad account target result) := by
  have hsidebar : (w.endLoad account target result).sidebar = w.sidebar := by
    cases target <;> cases result <;> rfl
  have hrefreshes : (w.endLoad account target result).refreshes =
      w.refreshes.finishLoad account result := by
    cases target <;> cases result <;> rfl
  cases hfound : w.refreshes.runningLoad.filter (·.accountId = account) with
  | none =>
    have hnothing : w.refreshes.finishLoad account result = w.refreshes := by
      rw [Refreshes.finishLoad, hfound]
    exact h.same (hrefreshes.trans hnothing) (congrArg (·.accounts.visibleAccounts) hsidebar)
  | some running =>
    obtain ⟨hrunning, haccount⟩ := Option.filter_eq_some_iff.mp hfound
    cases of_decide_eq_true haccount
    refine ⟨fun account hkept => ?_, fun later hlater => ?_⟩
    · rw [hrefreshes, Refreshes.finishLoad_outcomes hrunning] at hkept
      rw [hsidebar]
      split at hkept
      · rename_i cancellation outcome hcancellation hof
        by_cases hsame : account = running.accountId
        · rw [hsame]
          exact h.running running hrunning (by rw [hcancellation]; exact Option.some_ne_none _)
        · rw [Function.update_of_ne hsame] at hkept
          exact h.outcomes account hkept
      · exact h.outcomes account hkept
    · rw [hrefreshes, Refreshes.finishLoad_runningLoad hrunning] at hlater
      cases hlater

theorem Change.loadsShown (hchange : Change collationKey w w') (h : LoadsShown w)
    (hsound : w.sidebar.Sound collationKey) : LoadsShown w' := by
  cases hchange with
  | nothing => exact h
  | updated update => exact loadsShown_takeUpdate w update
  | selected henabled hselected =>
    obtain ⟨row, -, heq⟩ := selectAt_selection hselected
    refine h.same rfl ?_
    change (w.sidebar.selectAt _).2.accounts.visibleAccounts = _
    rw [heq]
    exact select_visibleAccounts _ _
  | cleared => exact h.same rfl (collapse_visibleAccounts _ _)
  | loadStarted hselection hfree provider target =>
    refine ⟨h.outcomes, fun running hrunning _ => ?_⟩
    cases hrunning
    exact selected_visible hsound hselection
  | loadEnded account target result => exact loadsShown_endLoad h account target result
  | rowsRead => exact h.same rfl rfl
  | @listsRead answer =>
    cases answer with
    | ok lists =>
      rw [takeFolderLists_ok]
      refine h.same ?_ (showFolderLists_visibleAccounts lists _)
      rw [showFolderLists_eq]
      rfl
    | error failure =>
      rw [takeFolderLists_error]
      exact h.same rfl rfl

theorem Silent.loadsShown (hsilent : Silent collationKey w w') (h : LoadsShown w) :
    LoadsShown w' := by
  have hleaves := hsilent.leaves
  have hvisible := congrArg AccountList.visibleAccounts hleaves.accounts
  cases hsilent with
  | quit => exact ⟨h.outcomes, fun running hrunning => (by cases hrunning)⟩
  | listsDropped hlate answer =>
    rw [takeFolderLists_late hlate]
    exact h.same rfl rfl
  | flagWritten hwrite written => exact h.same (writeOldestFlag_onlyMail _).refreshes hvisible
  | storeChanged => exact h.same rfl hvisible
  | rowsDropped => exact h.same rfl hvisible
  | contentRead => exact h.same rfl hvisible
  | folded => exact h.same rfl hvisible
  | unfolded => exact h.same rfl hvisible
  | listsReadAgain => exact h.same rfl hvisible

theorem Move.loadsShown (hmove : Move collationKey w w') (h : LoadsShown w)
    (hsound : w.sidebar.Sound collationKey) : LoadsShown w' := by
  cases hmove with
  | shown hchange hrender =>
    have honly := render_onlyMail hrender
    exact (hchange.loadsShown h hsound).same honly.refreshes
      (congrArg (·.accounts.visibleAccounts) honly.sidebar)
  | silent hsilent => exact hsilent.loadsShown h
  | acts hheard henabled hacts =>
    have honly := actMail_onlyMail hacts
    exact h.same honly.refreshes (congrArg (·.accounts.visibleAccounts) honly.sidebar)

/-- An account that is shown after a complete check is listed with its Mail on. -/
theorem withMail_of_visible {list : AccountList} {update : NamedUpdate}
    (hcomplete : update.lastCheck = .complete) {account : AccountId}
    (h : account ∈ (list.applyUpdate update).1.visibleAccounts.ids) :
    account ∈ accountsWithMail update := by
  rw [AccountList.mem_applyUpdate_iff] at h
  have hsame : (forgetNames update).accounts.withMail = accountsWithMail update := by
    simp only [forgetNames, NamedAccounts.toAccounts, Accounts.withMail, accountsWithMail,
      List.filter_map, List.map_map]
    rfl
  by_contra hother
  rw [← hsame, ← Accounts.excludes_iff_withMail] at hother
  exact applyUpdate_excluded hcomplete hother h

/-- **Loads are of accounts that are shown.** In every run the outcomes kept, and the load that runs
unless it was cancelled, are of accounts that are shown; and where a complete update deletes the
stored mail of other accounts, the load that still runs is of an account whose mail the deletion
spares. -/
theorem loads_of_shown (h : Reached collationKey w) :
    (∀ account, w.refreshes.outcomeOf account ≠ none →
        account ∈ w.sidebar.accounts.visibleAccounts.ids) ∧
      (∀ running, w.refreshes.runningLoad = some running → running.cancellation ≠ none →
        running.accountId ∈ w.sidebar.accounts.visibleAccounts.ids) ∧
      ∀ update, update.lastCheck = .complete →
        ∃ spared, (w.takeUpdate update).deletions = spared :: w.deletions ∧
          spared = accountsWithMail update ∧
          ∀ running, (w.takeUpdate update).refreshes.runningLoad = some running →
            running.cancellation ≠ none → running.accountId ∈ spared := by
  have hshown : LoadsShown w :=
    h.keeps ⟨fun _ hkept => absurd rfl hkept, fun _ hrunning => (by cases hrunning)⟩
      fun _ _ hsane hshown hmove => hmove.loadsShown hshown hsane.sidebar
  refine ⟨hshown.outcomes, hshown.running, fun update hcomplete =>
    ⟨accountsWithMail update, ?_, rfl,
    fun running hrunning hcancellation => ?_⟩⟩
  · rw [takeUpdate, if_pos hcomplete]
    rfl
  · have hvisible := (loadsShown_takeUpdate w update).running running hrunning hcancellation
    rw [(takeUpdate_refreshes w update).1] at hvisible
    exact withMail_of_visible hcomplete hvisible

/-- The load of the inbox is of an account that is shown, and whose mail the same accounts' next
update spares. -/
theorem loads_of_shown_refreshing : ∃ w, Reached id w ∧ w.refreshes.runningLoad.isSome = true ∧
    WindowUi.inbox.account ∈ w.sidebar.accounts.visibleAccounts.ids ∧
    ∃ spared, (w.takeUpdate SidebarUi.oneAccount).deletions = spared :: w.deletions ∧
      (w.takeUpdate SidebarUi.oneAccount).refreshes.runningLoad = w.refreshes.runningLoad ∧
      WindowUi.inbox.account ∈ spared := by
  obtain ⟨w, hw, hsidebar, -, -, -, load, hload⟩ := refreshing_reached
  obtain ⟨-, hvisible, hspares⟩ := loads_of_shown hw
  obtain ⟨spared, hdeletions, -, hrunning⟩ := hspares SidebarUi.oneAccount rfl
  have hkept : (w.takeUpdate SidebarUi.oneAccount).refreshes.runningLoad =
      some ⟨WindowUi.inbox.account, .mailbox WindowUi.inbox, some load⟩ := by
    rw [(takeUpdate_refreshes w SidebarUi.oneAccount).2, Refreshes.discardExcluded_runningLoad,
      hload]
    refine congrArg some (if_pos (decide_eq_true ?_))
    change WindowUi.inbox.account ∈
      (w.sidebar.accounts.applyUpdate SidebarUi.oneAccount).1.visibleAccounts.ids
    rw [AccountList.mem_applyUpdate_iff, hsidebar, accounts_selecting]
    exact List.mem_singleton_self _
  exact ⟨w, hw, by rw [hload]; rfl, hvisible _ hload (Option.some_ne_none load), spared, hdeletions,
    hkept.trans hload.symm, hrunning _ hkept (Option.some_ne_none load)⟩

end MainWindow

end Mailbag.Window
