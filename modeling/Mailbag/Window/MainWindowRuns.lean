import Mailbag.Window.MainWindowParts

/-!
# The window in every run

What the user does, updates of Online Accounts, what loads tell and the answers of the pool come in
any order.

## What is proved

* `handle_ok` — every event that may come is handled.
* `Reached.keeps` — what every move keeps, where the parts are as they are in every run, holds in
  every run.
* `event_handled` — every event is handled, and the parts make their own steps.
-/

namespace Mailbag.Window

open Collections Folders Interaction Loads OnlineAccounts Relation

namespace MainWindow

variable {collationKey : String → String} {w w' w₁ : MainWindow}

/-! ### Every event is handled -/

theorem renderMail_ok (h : MailUi.Reached w.mail) (animates : Bool) :
    ∃ mail, w.renderMail animates = .ok mail := by
  rw [renderMail]
  split
  · rename_i folder rows banner hshown
    obtain ⟨mail, hok, -⟩ := MailUi.showRows_kept h.kept.1 h.kept.2 folder rows animates
    exact ⟨mail, hok⟩
  · exact ⟨_, rfl⟩
  · exact ⟨_, rfl⟩

theorem render_ok (h : MailUi.Reached w.mail) (animates : Bool) :
    ∃ w', w.render animates = .ok w' := by
  obtain ⟨mail, hmail⟩ := renderMail_ok h animates
  exact ⟨_, by rw [render, hmail]; rfl⟩

theorem hearAll_ok (h : MailUi.Reached w.mail) (animates : Bool) (events : List MailEvent) :
    ∃ w', hearAll animates events w = .ok w' := by
  induction events generalizing w with
  | nil => exact ⟨w, rfl⟩
  | cons event events ih =>
    obtain ⟨heard, hheard, hmail⟩ : ∃ heard, w.hear event animates = .ok heard ∧
        MailUi.Reached heard.mail := by
      cases event with
      | contentRequested account identity => exact ⟨_, rfl, h⟩
      | flagChange asker account identity flag wanted =>
        exact ⟨_, rfl, (writeFlag_mail w _).symm ▸ h⟩
      | rowRemoved =>
        obtain ⟨w', hrender⟩ := render_ok h animates
        exact ⟨w', hrender, ReflTransGen.trans h (render_steps hrender)⟩
      | opened => exact ⟨w, rfl, h⟩
      | closed => exact ⟨w, rfl, h⟩
      | unreadAsked => exact ⟨w, rfl, h⟩
      | contentAnswered => exact ⟨w, rfl, h⟩
    obtain ⟨w', hall⟩ := ih hmail
    exact ⟨w', by rw [hearAll, hheard]; exact hall⟩

theorem actMail_ok (h : MailUi.Reached w.mail) {action : MailUi.Action}
    (henabled : w.mail.Enabled action) (animates : Bool) :
    ∃ w', w.actMail action animates = .ok w' := by
  obtain ⟨mail, hact, -⟩ := MailUi.act_kept h.kept.1 h.kept.2 henabled
  have hreached : MailUi.Reached mail := ReflTransGen.tail h ⟨action, henabled, hact⟩
  obtain ⟨w', hall⟩ := hearAll_ok (w := { w with mail := mail }) hreached animates
    (mail.log.take (mail.log.length - w.mail.log.length)).reverse
  exact ⟨w', by rw [actMail, hact]; exact hall⟩

theorem startLoad_ok (h : MailUi.Reached w.mail) (account : AccountId) (provider : MailProvider)
    (target : LoadTarget) (animates : Bool) :
    ∃ w', w.startLoad account provider target animates = .ok w' := by
  rw [startLoad]
  split
  · exact ⟨w, rfl⟩
  · exact render_ok (w := w.beginLoad account provider target) h animates

theorem actMail_render_ok (h : MailUi.Reached w.mail) {action : MailUi.Action}
    (hheard : Heard action) (henabled : w.mail.Enabled action) (animates : Bool) : ∃ w', (do
      let w ← w.actMail action animates
      w.render animates) = .ok w' := by
  obtain ⟨acted, hacts⟩ := actMail_ok h henabled animates
  have hmove : Move id w acted := .acts hheard henabled hacts
  obtain ⟨w', hrender⟩ := render_ok (ReflTransGen.trans h hmove.mail) animates
  exact ⟨w', by rw [hacts]; exact hrender⟩

theorem takeFolderLists_mail (w : MainWindow) (read : ℕ)
    (answer : Except Failure (List (AccountId × List Folder))) :
    (w.takeFolderLists collationKey read answer).2.mail = w.mail := by
  by_cases hlatest : read = w.folderLists.latestRead
  · subst hlatest
    cases answer with
    | ok lists =>
      rw [takeFolderLists_ok, showFolderLists_eq]
      rfl
    | error failure =>
      rw [takeFolderLists_error]
      rfl
  · rw [takeFolderLists_late hlatest]

/-- An event is handled where the list keeps what it holds. -/
theorem handle_ok (h : MailUi.Reached w.mail) {event : WindowEvent} (henabled : w.Enabled event)
    (animates : Bool) : ∃ w', w.handle collationKey animates event = .ok w' := by
  cases event with
  | update update =>
    have hchange : Change collationKey w (w.takeUpdate update) := .updated update
    exact render_ok (hchange.mail.symm ▸ h) animates
  | select position =>
    change ∃ w', (if (w.sidebar.selectAt position).1 then (w.withSelection
      (w.sidebar.selectAt position).2).render animates
      else .ok { w with sidebar := (w.sidebar.selectAt position).2 }) = .ok w'
    split
    · exact render_ok (w := w.withSelection _) h animates
    · exact ⟨_, rfl⟩
  | collapse key =>
    change ∃ w', (if (w.sidebar.collapse key).1 then (w.withSelection
      (w.sidebar.collapse key).2).render animates
      else .ok { w with sidebar := (w.sidebar.collapse key).2 }) = .ok w'
    split
    · exact render_ok (w := w.withSelection _) h animates
    · exact ⟨_, rfl⟩
  | expand key => exact ⟨_, rfl⟩
  | refreshMailbox =>
    change ∃ w', w.refreshMailbox animates = .ok w'
    rw [refreshMailbox]
    split
    · exact startLoad_ok h _ _ _ animates
    · exact ⟨w, rfl⟩
  | refreshAccount =>
    change ∃ w', w.refreshAccount animates = .ok w'
    rw [refreshAccount]
    split
    · exact startLoad_ok h _ _ _ animates
    · exact ⟨w, rfl⟩
  | storeChanged account => exact ⟨_, rfl⟩
  | finished account target result =>
    have hchange : Change collationKey w (w.endLoad account target result) :=
      .loadEnded account target result
    exact render_ok (hchange.mail.symm ▸ h) animates
  | readStoredMail =>
    have hheard : Heard .readOpenContentAgain := trivial
    exact actMail_render_ok (w := w.readLists) h hheard trivial animates
  | rowsAnswered read answer =>
    change ∃ w', (if decide (read = w.shown.latestRead) then (w.takeRows read answer).2.render
      animates
      else .ok (w.takeRows read answer).2) = .ok w'
    split
    · exact render_ok (w := (w.takeRows read answer).2) h animates
    · exact ⟨_, rfl⟩
  | folderListsAnswered read answer =>
    change ∃ w', (if (w.takeFolderLists collationKey read answer).1 then (w.takeFolderLists
      collationKey read answer).2.render animates
      else .ok (w.takeFolderLists collationKey read answer).2) = .ok w'
    split
    · exact render_ok ((takeFolderLists_mail w read answer).symm ▸ h) animates
    · exact ⟨_, rfl⟩
  | contentAnswered account identity answer => exact ⟨_, rfl⟩
  | flagWriteEnded change written => exact ⟨_, rfl⟩
  | unreadFilter unreadOnly =>
    have hheard : Heard (.setUnreadFilter unreadOnly animates) := trivial
    exact actMail_render_ok h hheard trivial animates
  | mail action => exact actMail_ok h henabled.2 animates
  | quit => exact ⟨_, rfl⟩

/-! ### In every run -/

/-- What the parts of the window keep. -/
structure Sane (collationKey : String → String) (w : MainWindow) : Prop where
  /-- The sidebar. -/
  sidebar : w.sidebar.Sound collationKey
  /-- The list and the reader. -/
  mail : MailUi.Reached w.mail
  /-- The window that reads the rows. -/
  fresh : WindowUi.Fresh w.ui

theorem Move.sane (h : Move collationKey w w') (hsane : Sane collationKey w) :
    Sane collationKey w' where
  sidebar := hsane.sidebar.steps h.sidebar
  mail := ReflTransGen.trans hsane.mail h.mail
  fresh := invariant hsane.fresh (fun _ _ => WindowUi.Fresh.step) (h.ui hsane.sidebar)

theorem sane_start : Sane collationKey start := ⟨SidebarUi.sound_start, .refl, WindowUi.fresh_start⟩

theorem Reached.sane (h : Reached collationKey w) : Sane collationKey w :=
  h.induction sane_start fun _ _ hsane hmove => hmove.sane hsane

/-- What every move keeps, where the parts are as they are in every run, holds in every run. -/
theorem Reached.keeps {I : MainWindow → Prop} (h : Reached collationKey w) (hstart : I start)
    (hmove : ∀ w w', Sane collationKey w → I w → Move collationKey w w' → I w') : I w := by
  refine (h.induction (I := fun w => Sane collationKey w ∧ I w) ⟨sane_start, hstart⟩
    fun w w' hw hmoves => ?_).2
  exact ⟨hmoves.sane hw.1, hmove w w' hw.1 hw.2 hmoves⟩

/-! ### What the list shows -/

/-- Where no rows show, no read runs. -/
theorem shownWithoutRows_cases (w : MainWindow) (selection : Selection) (stored : StoredMailbox) :
    (∀ folder rows banner, w.shownWithoutRows selection stored ≠ .messages folder rows banner) ∧
      ∀ again, w.shownWithoutRows selection stored ≠ .reading again := by
  unfold shownWithoutRows
  split <;> exact ⟨fun _ _ _ h => (by cases h), fun _ h => (by cases h)⟩

/-- What the window has of the selected mailbox, when it has read or reads it. -/
theorem storedOf_eq {selection : Selection} (h : w.storedOf selection ≠ .notRead) :
    ∃ folder, selection = .mailbox folder ∧ w.shown.folder = some folder ∧
      w.storedOf selection = w.shown.stored := by
  cases selection with
  | account => exact absurd rfl h
  | mailbox folder =>
    rw [storedOf] at h ⊢
    split at h
    · rename_i hfolder
      exact ⟨folder, rfl, hfolder, if_pos hfolder⟩
    · exact absurd rfl h

theorem shownMail_messages {folder : FolderRef} {rows : StoredRows} {banner : Option Banner}
    (h : w.shownMail = .messages folder rows banner) : w.folderLists.failure = none ∧
      w.sidebar.accounts.selection = some (.mailbox folder) ∧ w.shown.folder = some folder ∧
      rows = w.rows ∧
      ∃ row rest, w.shown.stored = .read (some (row :: rest)) := by
  rw [shownMail] at h
  split at h
  · cases h
  · cases h
  · rename_i selection hfailure hselection
    split at h
    · rename_i folder' row rest hstored
      cases h
      obtain ⟨folder', heq, hfolder, hsame⟩ :=
        storedOf_eq (fun hnot => (by cases hnot.symm.trans hstored))
      cases heq
      exact ⟨hfailure, hselection, hfolder, rfl, row, rest, hsame.symm.trans hstored⟩
    · cases h
    · exact absurd h ((w.shownWithoutRows_cases _ _).1 folder rows banner)

theorem messages_of_read {folder : FolderRef} {row : MessageListRow} {rest : List MessageListRow}
    (hfailure : w.folderLists.failure = none)
    (hselection : w.sidebar.accounts.selection = some (.mailbox folder))
    (hfolder : w.shown.folder = some folder)
    (hstored : w.shown.stored = .read (some (row :: rest))) :
    w.shownMail = .messages folder w.rows (w.bannerFor (.mailbox folder)) := by
  rw [shownMail, hfailure, hselection]
  dsimp only
  rw [storedOf, if_pos hfolder, hstored]

theorem shownMail_reading {again : Bool} (h : w.shownMail = .reading again) :
    w.shown.stored = .reading again := by
  rw [shownMail] at h
  split at h
  · cases h
  · cases h
  · rename_i selection hfailure hselection
    split at h
    · cases h
    · rename_i again' hstored
      cases h
      obtain ⟨folder, -, -, hsame⟩ := storedOf_eq (fun hnot => (by cases hnot.symm.trans hstored))
      exact hsame.symm.trans hstored
    · exact absurd h ((w.shownWithoutRows_cases _ _).2 again)

/-! ### The inbox on screen -/

/-- An event whose change is shown leads to the window that shows it. -/
theorem Reached.shown (h : Reached collationKey w) (event : WindowEvent) (animates : Bool)
    (henabled : w.Enabled event)
    (hchange : w.handle collationKey animates event = w₁.render animates)
    (hmail : w₁.mail = w.mail) : ∃ w', Reached collationKey w' ∧ w₁.render animates = .ok w' := by
  obtain ⟨w', hrender⟩ := render_ok (hmail.symm ▸ h.parts.2.1) animates
  exact ⟨w', h.tail ⟨event, animates, henabled, hchange.trans hrender⟩, hrender⟩

/-- Nothing was listed, asked for or written. -/
structure Idle (w : MainWindow) : Prop where
  /-- The list and the reader. -/
  mail : w.mail = .start
  /-- The writes asked for. -/
  flagWrites : w.flagWrites = []
  /-- Those that run. -/
  runningWrites : w.runningWrites = []
  /-- Those that ended. -/
  ended : w.ended = []
  /-- The contents read. -/
  contentReads : w.contentReads = []

/-- Where no rows were read, none are listed. -/
theorem Idle.render (h : Idle w) (hnone : ∀ rows, w.shown.stored ≠ .read rows) {animates : Bool}
    (hrender : w.render animates = .ok w') : Idle w' := by
  obtain ⟨mail, hmail, rfl⟩ := render_eq hrender
  refine ⟨?_, h.flagWrites, h.runningWrites, h.ended, h.contentReads⟩
  rw [renderMail] at hmail
  split at hmail
  · rename_i hshown
    obtain ⟨-, -, -, -, row, rest, hstored⟩ := shownMail_messages hshown
    exact absurd hstored (hnone _)
  · cases hmail
    exact h.mail
  · cases hmail
    change w.mail.clear = .start
    rw [h.mail]
    rfl

/-- The list with the inbox's one message, found by the read of that number. -/
def oneListed (read : ℕ) : MailUi :=
  match MailUi.start.showRows WindowUi.inbox ⟨read, [plainRow "7"],
    List.nodup_singleton _⟩ false with
  | .ok ui => ui
  | .error _ => .start

/-- The inbox is on screen with its one message, and nothing was asked for. -/
structure OnInbox (w : MainWindow) : Prop where
  /-- The window after some events. -/
  reached : Reached id w
  /-- The inbox is selected. -/
  sidebar : w.sidebar = SidebarUi.selecting
  /-- The folder list was read. -/
  listFailure : w.folderLists.failure = none
  /-- No read of it runs. -/
  listReading : w.folderLists.reading = false
  /-- It is shown. -/
  listLog : ∃ read before,
    w.listLog = .shown read [(WindowUi.inbox.account, SidebarUi.oneInbox)] :: before
  /-- The inbox was read. -/
  folder : w.shown.folder = some WindowUi.inbox
  /-- It has the message. -/
  stored : w.shown.stored = .read (some [plainRow "7"])
  /-- No read of it runs. -/
  reading : w.shown.isReading = false
  /-- No load runs. -/
  runningLoad : w.refreshes.runningLoad = none
  /-- The message is listed. -/
  mail : ∃ read, w.mail = oneListed read
  /-- No write was asked for. -/
  flagWrites : w.flagWrites = []
  /-- None runs. -/
  runningWrites : w.runningWrites = []
  /-- None ended. -/
  ended : w.ended = []

/-- The account comes, its folder list and the selected inbox are read. -/
theorem inbox_reached : ∃ w, OnInbox w := by
  have hstart : Reached id start := .refl
  obtain ⟨a, ha, harender⟩ := hstart.shown (.update SidebarUi.oneAccount) false trivial rfl rfl
  have hao := render_onlyMail harender
  have hsidebar : a.sidebar = SidebarUi.start.handle id (.update SidebarUi.oneAccount) :=
    hao.sidebar.trans rfl
  have hlists : a.folderLists = ⟨1, true, none⟩ := hao.folderLists.trans rfl
  have hreads : a.listReads = [(1, [WindowUi.inbox.account])] := hao.listReads.trans rfl
  have hshown : a.shown = ⟨none, 0, .notRead, false, false⟩ :=
    (congrArg WindowUi.shown hao.ui).trans rfl
  have hidle : Idle a := Idle.render ⟨rfl, rfl, rfl, rfl, rfl⟩ (fun _ h => (by cases h)) harender
  -- the folder list
  have hlatest : 1 = a.folderLists.latestRead := by rw [hlists]
  obtain ⟨b, hb, hbrender⟩ := ha.shown
    (.folderListsAnswered a.folderLists.latestRead
      (.ok [(WindowUi.inbox.account, SidebarUi.oneInbox)])) false
    ⟨[WindowUi.inbox.account], by rw [hreads, ← hlatest]; exact List.mem_singleton_self _,
      fun lists heq => by
      cases heq
      exact ⟨rfl, fun entry hentry => List.mem_singleton.mp hentry ▸ List.nodup_singleton _⟩⟩
    (a.handle_folderListsAnswered false _) (takeFolderLists_mail a _ _)
  have hbo := render_onlyMail hbrender
  rw [takeFolderLists_ok] at hbo
  have hsidebar : b.sidebar = (SidebarUi.start.handle id (.update SidebarUi.oneAccount)).handle id
      (.folders WindowUi.inbox.account SidebarUi.oneInbox) := by
    rw [hbo.sidebar, ← hsidebar]
    rfl
  have hfinished : b.folderLists = ⟨a.folderLists.latestRead, false, none⟩ := by
    rw [hbo.folderLists, showFolderLists_eq]
    rfl
  have hlog : b.listLog = .shown a.folderLists.latestRead
      [(WindowUi.inbox.account, SidebarUi.oneInbox)] :: a.listLog := by
    rw [hbo.listLog, showFolderLists_eq]
    rfl
  have hshown : b.shown.folder = none := by
    have hui := (congrArg WindowUi.shown hbo.ui).trans
      (congrArg WindowUi.shown (showFolderList_ui _ _ _))
    change b.shown = _ at hui
    rw [hui, WindowUi.showFolderLists]
    split
    · rfl
    · exact congrArg ShownMailbox.folder hshown
  have hidle : Idle b := by
    refine Idle.render ⟨?_, ?_, ?_, ?_, ?_⟩ (fun rows hrows => ?_) hbrender
    · exact (takeFolderLists_mail a _ _).trans hidle.mail
    · rw [takeFolderLists_ok, showFolderLists_eq]
      exact hidle.flagWrites
    · rw [takeFolderLists_ok, showFolderLists_eq]
      exact hidle.runningWrites
    · rw [takeFolderLists_ok, showFolderLists_eq]
      exact hidle.ended
    · rw [takeFolderLists_ok, showFolderLists_eq]
      exact hidle.contentReads
    · -- what was read would be of a mailbox
      have hsame := congrArg WindowUi.shown (render_onlyMail hbrender).ui
      have hread : b.shown.stored = .read rows := (congrArg ShownMailbox.stored hsame).trans hrows
      obtain ⟨folder, -, hfolder, -⟩ := hb.sane.fresh.held rows hread
      cases hshown.symm.trans hfolder
  -- the user selects the inbox
  have hselecting : (b.sidebar.selectAt 1).2 = SidebarUi.selecting := by
    rw [hsidebar]
    rfl
  have hrow : b.sidebar.nodeAt 1 =
      some ⟨.mailbox WindowUi.inbox, "Inbox", "mailbag-folder-inbox-symbolic", true, true⟩ := by
    rw [hsidebar, SidebarUi.nodeAt, WindowUi.inbox, SidebarUi.shown_oneInbox]
    rfl
  have hother : (b.sidebar.selectAt 1).1 = true := by
    have hnone : b.sidebar.accounts.selection = none := by
      rw [hsidebar, WindowUi.inbox, SidebarUi.accounts_oneInbox]
      rfl
    rw [SidebarUi.selectAt, hrow, hnone]
    rfl
  obtain ⟨c, hc, hcrender⟩ := hb.shown (.select 1) false (by rw [Enabled, hrow]; rfl)
    (handle_select hother false) rfl
  have hco := render_onlyMail hcrender
  have hui : c.ui = ({ b.ui with selection := some (.mailbox WindowUi.inbox) } :
      WindowUi).showSelection := by
    rw [hco.ui, withSelection_ui, hselecting, SidebarUi.selection_selecting]
    rfl
  have hread : c.ui = ({ b.ui with
      selection := some (.mailbox WindowUi.inbox)
      shown := b.shown.startRead WindowUi.inbox } : WindowUi).spawnRowsRead WindowUi.inbox := by
    rw [hui, WindowUi.showSelection]
    have hnot : b.ui.shown.holds WindowUi.inbox = false := by
      have hfolder : b.ui.shown.folder = none := hshown
      rw [ShownMailbox.holds, hfolder]
      rfl
    simp only [WindowUi.selectedMailbox, hnot]
    rfl
  have hidle : Idle c := by
    have hselected : Idle (b.withSelection (b.sidebar.selectAt 1).2) :=
      ⟨hidle.mail, hidle.flagWrites, hidle.runningWrites, hidle.ended, hidle.contentReads⟩
    refine hselected.render (fun rows hrows => ?_) hcrender
    have hsame := congrArg WindowUi.shown (render_onlyMail hcrender).ui
    have hreading := congrArg (·.shown.stored) hread
    have hstored : c.shown.stored = .read rows := (congrArg ShownMailbox.stored hsame).trans hrows
    cases hstored.symm.trans hreading
  have hmem : (c.shown.latestRead, WindowUi.inbox) ∈ c.rowsReads := by
    have hreads := congrArg WindowUi.reads hread
    have hshown := congrArg WindowUi.shown hread
    change c.rowsReads = _ at hreads
    change c.shown = _ at hshown
    rw [hreads, hshown]
    exact List.mem_append_right _ (List.mem_singleton_self _)
  -- its rows
  obtain ⟨d, hd, hdrender⟩ := hc.shown
    (.rowsAnswered c.shown.latestRead (.ok (some ⟨[plainRow "7"], List.nodup_singleton _⟩))) false
      ⟨WindowUi.inbox, hmem⟩
    (c.handle_rowsAnswered false _) rfl
  have hdo := render_onlyMail hdrender
  have hshown : d.shown = { c.shown with
        rereading := false
        stored := .read (some [plainRow "7"])
        readDue := false } := by
    have hanswered := congrArg WindowUi.shown (hdo.ui.trans (takeRows_ui c _ _))
    change d.shown = _ at hanswered
    rw [hanswered, show c.shown.latestRead = c.ui.shown.latestRead from rfl,
      WindowUi.readAnswered_latest]
    have hdue : c.ui.shown.readDue = false := by rw [hread]; rfl
    rw [hdue]
    rfl
  have hrefreshes : d.refreshes = a.refreshes := by
    rw [hdo.refreshes]
    change c.refreshes = _
    rw [hco.refreshes]
    change b.refreshes = _
    rw [hbo.refreshes, showFolderLists_eq]
    rfl
  have hlists : d.folderLists = ⟨a.folderLists.latestRead, false, none⟩ :=
    (hdo.folderLists.trans hco.folderLists).trans hfinished
  have hsidebar : d.sidebar = SidebarUi.selecting := by
    rw [hdo.sidebar]
    exact hco.sidebar.trans hselecting
  have hfolder : d.shown.folder = some WindowUi.inbox := by
    rw [hshown]
    exact congrArg (·.shown.folder) hread
  have hstored : d.shown.stored = .read (some [plainRow "7"]) := by rw [hshown]
  -- they are listed
  obtain ⟨mail, hmail, rfl⟩ := render_eq hdrender
  have hselection : (c.takeRows c.shown.latestRead
      (.ok (some ⟨[plainRow "7"], List.nodup_singleton _⟩))).2.sidebar.accounts.selection =
        some (.mailbox WindowUi.inbox) :=
    (congrArg (·.accounts.selection) hsidebar).trans SidebarUi.selection_selecting
  have hfailure : (c.takeRows c.shown.latestRead
      (.ok (some ⟨[plainRow "7"], List.nodup_singleton _⟩))).2.folderLists.failure = none :=
    congrArg FolderListsRead.failure hlists
  have hlisted : mail = oneListed c.shown.latestRead := by
    rw [renderMail, messages_of_read hfailure hselection hfolder hstored] at hmail
    have hmailStart : (c.takeRows c.shown.latestRead
        (.ok (some ⟨[plainRow "7"], List.nodup_singleton _⟩))).2.mail = .start := hidle.mail
    have hrows : (c.takeRows c.shown.latestRead
        (.ok (some ⟨[plainRow "7"], List.nodup_singleton _⟩))).2.rows =
          ⟨c.shown.latestRead, [plainRow "7"], List.nodup_singleton _⟩ := by simp [takeRows]
    dsimp only at hmail
    rw [hmailStart, hrows] at hmail
    exact (Except.ok.inj (hmail.symm.trans rfl))
  exact ⟨_, {
    reached := hd
    sidebar := hsidebar
    listFailure := hfailure
    listReading := congrArg FolderListsRead.reading hlists
    listLog := ⟨_, _, (hdo.listLog.trans hco.listLog).trans hlog⟩
    folder := hfolder
    stored := hstored
    reading := (congrArg ShownMailbox.isReading hshown).trans rfl
    runningLoad := (congrArg Refreshes.runningLoad (hrefreshes.trans hao.refreshes)).trans rfl
    mail := ⟨_, hlisted⟩
    flagWrites := hidle.flagWrites
    runningWrites := hidle.runningWrites
    ended := hidle.ended }⟩

/-! ### What holds in every run -/

/-- **The window is its parts at work.** Every event that may come is handled without a fault, and
what it does is steps of the sidebar, of the list with the reader, and of the window that reads the
rows. -/
theorem event_handled (h : Reached collationKey w) (event : WindowEvent)
    (henabled : w.Enabled event) (animates : Bool) :
    ∃ w', w.handle collationKey animates event = .ok w' ∧
      ReflTransGen (SidebarUi.Step collationKey) w.sidebar w'.sidebar ∧
      ReflTransGen MailUi.Step w.mail w'.mail ∧ ReflTransGen Step w.ui w'.ui := by
  have hsane := h.sane
  obtain ⟨w', hhandle⟩ : ∃ w', w.handle collationKey animates event = .ok w' :=
    handle_ok hsane.mail henabled animates
  refine ⟨w', hhandle, ?_⟩
  have hparts := invariant (I := fun v => Sane collationKey v ∧
    ReflTransGen (SidebarUi.Step collationKey) w.sidebar v.sidebar ∧
    ReflTransGen MailUi.Step w.mail v.mail ∧ ReflTransGen Step w.ui v.ui)
      ⟨hsane, .refl, .refl, .refl⟩ (fun v v' hv hmove => ?_)
    (handle_moves henabled hhandle)
  · exact hparts.2
  · obtain ⟨hsane, hsidebar, hmail, hui⟩ := hv
    exact ⟨hmove.sane hsane, hsidebar.trans hmove.sidebar, hmail.trans hmove.mail,
      hui.trans (hmove.ui hsane.sidebar)⟩

/-- The account with the inbox on screen is refreshed. -/
theorem event_handled_inbox :
    ∃ w w', Reached id w ∧ w.sidebar = SidebarUi.selecting ∧
      w.handle id false .refreshAccount = .ok w' ∧
    ReflTransGen (SidebarUi.Step id) w.sidebar w'.sidebar ∧
    ReflTransGen MailUi.Step w.mail w'.mail ∧ ReflTransGen Step w.ui w'.ui := by
  obtain ⟨w, hw⟩ := inbox_reached
  obtain ⟨w', hhandled⟩ := event_handled hw.reached .refreshAccount trivial false
  exact ⟨w, w', hw.reached, hw.sidebar, hhandled⟩

end MainWindow

end Mailbag.Window
