import Mailbag.Window.MainWindowRuns

/-!
# The window's list shows the store

The list has the rows that the window read of the selected mailbox.

## What is proved

* `render_listed` — what is shown is listed.
* `Move.drawn` — every move keeps what the list shows.
* `list_shows_stored` — the list shows the selected mailbox's rows, as a read found them after the
  last reported change.
-/

namespace Mailbag.Window

open Collections Folders Interaction Loads OnlineAccounts Relation

namespace MainWindow

variable {collationKey : String → String} {w w' w₁ : MainWindow}

/-! ### Which rows are listed -/

theorem kept_inj {log : List Event} (h : Log.Every InOrder log) {read : ℕ}
    {rows rows' : Option (List MessageListRow)} (hkept : .kept read rows ∈ log)
    (hkept' : .kept read rows' ∈ log) : rows = rows' := by
  induction log with
  | nil => cases hkept
  | cons event log ih =>
    rcases List.mem_cons.mp hkept with rfl | hearlier
    · rcases List.mem_cons.mp hkept' with heq | hearlier'
      · cases heq
        rfl
      · exact absurd (h.1.1 read rows' hearlier') (lt_irrefl read)
    · rcases List.mem_cons.mp hkept' with rfl | hearlier'
      · exact absurd (h.1.1 read rows hearlier) (lt_irrefl read)
      · exact ih h.2 hearlier hearlier'

/-- A read of the folder found the row. -/
def Found (log : List Event) (folder : FolderRef) (row : MessageListRow) : Prop :=
  ∃ read rows, .started read folder ∈ log ∧ .kept read (some rows) ∈ log ∧ row ∈ rows

theorem Found.mono {log log' : List Event} {folder : FolderRef} {row : MessageListRow}
    (h : Found log folder row) (hlog : log ⊆ log') : Found log' folder row := by
  obtain ⟨read, rows, hstarted, hkept, hrow⟩ := h
  exact ⟨read, rows, hlog hstarted, hlog hkept, hrow⟩

theorem found_of_read (hfresh : WindowUi.Fresh w.ui) {folder : FolderRef}
    {rows : List MessageListRow} (hfolder : w.shown.folder = some folder)
    (hstored : w.shown.stored = .read (some rows)) : ∀ row ∈ rows, Found w.log folder row := by
  intro row hrow
  obtain ⟨folder', read, hplace, later, before, hlog, -, hstarted⟩ := hfresh.held _ hstored
  cases hplace.symm.trans hfolder
  have hlog : w.log = later ++ .kept read (some rows) :: before := hlog
  refine ⟨read, rows, ?_, ?_, hrow⟩
  · rw [hlog]
    exact List.mem_append_right _ (List.mem_cons_of_mem _ hstarted)
  · rw [hlog]
    exact List.mem_append_right _ List.mem_cons_self

/-- The list shows what the window has of the selected mailbox. -/
structure Listed (w : MainWindow) : Prop where
  /-- The list's rows are of the mailbox read last. -/
  folder : ∀ folder stored, w.mail.listedRows = some (folder, stored) → w.shown.folder = some folder
  /-- They were kept. -/
  kept : ∀ folder stored, w.mail.listedRows = some (folder, stored) →
    .kept stored.allocation (some stored.rows) ∈ w.log
  /-- A read of the mailbox found them. -/
  found : ∀ folder stored, w.mail.listedRows = some (folder, stored) →
    ∀ row ∈ stored.rows, Found w.log folder row
  /-- Where rows show, the list has them. -/
  messages : ∀ folder rows banner, w.shownMail = .messages folder rows banner →
    w.mail.listedRows = some (folder, rows)
  /-- They are those that the last answer left. -/
  rows : ∀ rows, w.shown.stored = .read (some rows) → w.rows.rows = rows ∧
    .kept w.rows.allocation (some rows) ∈ w.log

/-- **What is shown is listed.** -/
theorem render_listed (hmail : MailUi.Reached w.mail) (hfresh : WindowUi.Fresh w.ui)
    (hagain : w.shown.stored = .reading true → ∀ folder stored, w.mail.listedRows =
      some (folder, stored) → w.shown.folder = some folder)
    (hkept : ∀ folder stored, w.mail.listedRows = some (folder, stored) → .kept stored.allocation
      (some stored.rows) ∈ w.log)
    (hfound : ∀ folder stored, w.mail.listedRows = some (folder, stored) → ∀ row ∈ stored.rows,
      Found w.log folder row)
    (hrows : ∀ rows, w.shown.stored = .read (some rows) → w.rows.rows = rows ∧
      .kept w.rows.allocation (some rows) ∈ w.log)
    {animates : Bool} (h : w.render animates = .ok w') : Listed w' := by
  obtain ⟨mail, hrender, rfl⟩ := render_eq h
  -- rows that show are listed
  have hshows : ∀ folder rows banner, w.shownMail = .messages folder rows banner →
      mail.listedRows = some (folder, rows) := by
    intro folder rows banner hshown
    rw [renderMail, hshown] at hrender
    rcases MailUi.showRows_listedRows hmail.kept.1.toReady hrender with hlisted | ⟨stored, hlisted,
      hbefore, hallocation⟩
    · exact hlisted
    · -- the same read found them
      obtain ⟨-, -, -, rfl, row, rest, hstored⟩ := shownMail_messages hshown
      obtain ⟨hsame, hlast⟩ := hrows _ hstored
      have hbefore := hkept folder stored hbefore
      rw [hallocation] at hbefore
      have hrows : stored.rows = w.rows.rows :=
        (Option.some.inj (kept_inj hfresh.order hbefore hlast)).trans hsame.symm
      have heq : stored = w.rows := by
        cases stored
        cases hw : w.rows
        rw [hw] at hallocation hrows
        cases hallocation
        cases hrows
        rfl
      rw [hlisted, heq]
  have hlists : ∀ folder stored, mail.listedRows = some (folder, stored) →
      w.shown.folder = some folder ∧ .kept stored.allocation (some stored.rows) ∈ w.log ∧
        ∀ row ∈ stored.rows, Found w.log folder row := by
    intro folder stored hlisted
    rw [renderMail] at hrender
    split at hrender
    · rename_i folder' rows banner hshown
      cases (hshows folder' rows banner hshown).symm.trans hlisted
      obtain ⟨-, -, hfolder, rfl, row, rest, hstored⟩ := shownMail_messages hshown
      obtain ⟨hsame, hlast⟩ := hrows _ hstored
      refine ⟨hfolder, hsame ▸ hlast, fun row' hrow => ?_⟩
      exact found_of_read hfresh hfolder hstored row' (hsame ▸ hrow)
    · rename_i hshown
      cases hrender
      exact ⟨hagain (shownMail_reading hshown) folder stored hlisted, hkept folder stored hlisted,
        hfound folder stored hlisted⟩
    · cases hrender
      cases (MailUi.clear_kept hmail.kept.1 hmail.kept.2).2.2.symm.trans hlisted
  exact
    { folder := fun folder stored hlisted => (hlists folder stored hlisted).1
      kept := fun folder stored hlisted => (hlists folder stored hlisted).2.1
      found := fun folder stored hlisted => (hlists folder stored hlisted).2.2
      messages := hshows
      rows := hrows }

/-! ### Moves keep what the list shows -/

theorem Change.shownMoves (h : Change collationKey w w₁) :
    ((∃ selected, ShownMoves selected w.shown w₁.shown) ∧ w₁.rows = w.rows) ∨
      ∃ answer, w₁ = (w.takeRows w.shown.latestRead answer).2 := by
  cases h with
  | nothing => exact .inl ⟨⟨none, .reads .nothing⟩, rfl⟩
  | updated update =>
    refine .inl ⟨⟨none, ?_⟩, ?_⟩
    · have hshown : (w.takeUpdate update).shown = w.shown.forgetExcluded fun id =>
          decide (id ∈ (w.sidebar.accounts.applyUpdate update).1.visibleAccounts.ids) := by
        rw [takeUpdate]
        split <;> rfl
      rw [hshown]
      exact forgetExcluded_moves _
    · rw [takeUpdate]
      split <;> rfl
  | @selected position =>
    exact .inl ⟨⟨_, showSelection_moves
      { w with sidebar := (w.sidebar.selectAt position).2 : MainWindow }.ui⟩, rfl⟩
  | @cleared key =>
    exact .inl ⟨⟨_, showSelection_moves
      { w with sidebar := (w.sidebar.collapse key).2 : MainWindow }.ui⟩, rfl⟩
  | loadStarted => exact .inl ⟨⟨none, .failureForgotten⟩, rfl⟩
  | loadEnded account target result =>
    refine .inl ⟨⟨w.ui.selectedMailbox, ?_⟩, ?_⟩
    · have hshown := congrArg WindowUi.shown (endLoad_ui w account target result)
      change (w.endLoad account target result).shown = _ at hshown
      rw [hshown]
      exact .reads (finishLoad_reads w.ui target result)
    · cases target <;> cases result <;> rfl
  | rowsRead hread answer => exact .inr ⟨answer, rfl⟩
  | @listsRead answer =>
    refine .inl ⟨⟨w.ui.selectedMailbox, ?_⟩, ?_⟩
    · cases answer with
      | ok lists =>
        rw [takeFolderLists_ok]
        exact showFolderLists_shown lists
          (w.listsAnswered none (.shown w.folderLists.latestRead lists))
      | error failure =>
        rw [takeFolderLists_error]
        exact .reads .nothing
    · cases answer with
      | ok lists =>
        rw [takeFolderLists_ok, showFolderLists_eq]
        rfl
      | error failure =>
        rw [takeFolderLists_error]
        rfl

/-- **A change that is shown keeps what the list shows.** -/
theorem Change.listed (hchange : Change collationKey w w₁) (h : Listed w)
    (hsane : Sane collationKey w) {animates : Bool} (hrender : w₁.render animates = .ok w') :
    Listed w' := by
  have hlog : w.log ⊆ w₁.log := steps_log (hchange.ui hsane.sidebar)
  have hmail : MailUi.Reached w₁.mail := hchange.mail.symm ▸ hsane.mail
  have hfresh : WindowUi.Fresh w₁.ui :=
    invariant hsane.fresh (fun _ _ => WindowUi.Fresh.step) (hchange.ui hsane.sidebar)
  refine render_listed hmail hfresh (fun hagain folder stored hlisted => ?_)
    (fun folder stored hlisted => ?_) (fun folder stored hlisted row hrow => ?_)
    (fun rows hrows => ?_) hrender
  · rw [hchange.mail] at hlisted
    have hfolder := h.folder folder stored hlisted
    rcases hchange.shownMoves with ⟨⟨selected, hmoves⟩, -⟩ | ⟨answer, rfl⟩
    · exact hmoves.again hagain hfolder
    · obtain ⟨answered, hsame, hreads, -⟩ := takeRows_latest w answer
      exact hreads.folder (fun folder hfolder => hsane.fresh.placed folder
        (hsame.symm.trans hfolder)) (hsame.trans hfolder)
  · rw [hchange.mail] at hlisted
    exact hlog (h.kept folder stored hlisted)
  · rw [hchange.mail] at hlisted
    exact (h.found folder stored hlisted row hrow).mono hlog
  · rcases hchange.shownMoves with ⟨⟨selected, hmoves⟩, hsame⟩ | ⟨answer, rfl⟩
    · obtain ⟨hbefore, hkept⟩ := h.rows rows (hmoves.read hrows).1
      rw [hsame]
      exact ⟨hbefore, hlog hkept⟩
    · obtain ⟨answered, -, hreads, hkept⟩ := takeRows_latest w answer
      exact hkept rows (hreads.read hrows).1

/-- What is shown stays, where only a read may start. -/
structure Leaves (w w' : MainWindow) : Prop where
  /-- The rows, or a read of them. -/
  reads : ReadsShown w.ui.selectedMailbox w.shown w'.shown
  /-- Whose rows the list shows. -/
  listedRows : w'.mail.listedRows = w.mail.listedRows
  /-- The accounts. -/
  accounts : w'.sidebar.accounts = w.sidebar.accounts
  /-- Whether the folder lists could be read. -/
  failure : w'.folderLists.failure = w.folderLists.failure
  /-- The rows found last. -/
  rows : w'.rows = w.rows
  /-- What is on screen. -/
  screen : w'.screen = w.screen

theorem Listed.leaves (h : Listed w) (hleaves : Leaves w w') (hfresh : WindowUi.Fresh w.ui)
    (hlog : w.log ⊆ w'.log) : Listed w' where
  folder folder stored hlisted :=
    hleaves.reads.folder (fun _ => hfresh.placed _)
      (h.folder folder stored (hleaves.listedRows ▸ hlisted))
  kept folder stored hlisted := hlog (h.kept folder stored (hleaves.listedRows ▸ hlisted))
  found folder stored hlisted row hrow :=
    (h.found folder stored (hleaves.listedRows ▸ hlisted) row hrow).mono hlog
  messages folder rows banner hshown := by
    obtain ⟨hnone, hselected, hfolder, hsame, row, rest, hstored⟩ := shownMail_messages hshown
    obtain ⟨hbefore, hplace⟩ := hleaves.reads.read hstored
    rw [hleaves.accounts] at hselected
    have hshown := messages_of_read (hleaves.failure.symm.trans hnone) hselected
      (hplace.symm.trans hfolder) hbefore
    rw [hleaves.listedRows, hsame, hleaves.rows]
    exact h.messages folder w.rows _ hshown
  rows rows hstored := by
    obtain ⟨hsame, hkept⟩ := h.rows rows (hleaves.reads.read hstored).1
    rw [hleaves.rows]
    exact ⟨hsame, hlog hkept⟩

theorem takeRows_late {read : ℕ} (hlate : read ≠ w.shown.latestRead)
    (answer : Except Failure
      (Option { rows : List MessageListRow // Collections.Unique MessageListRow.identity rows })) :
    (w.takeRows read answer).2.shown = w.shown ∧ (w.takeRows read answer).2.rows = w.rows := by
  refine ⟨?_, ?_⟩
  · have hshown := congrArg WindowUi.shown (takeRows_ui w read answer)
    change (w.takeRows read answer).2.shown = _ at hshown
    have hother : read ≠ w.ui.shown.latestRead := hlate
    rw [hshown]
    simp only [WindowUi.readAnswered, ShownMailbox.finishRead, if_pos hother]
    rfl
  · cases answer with
    | error => rfl
    | ok found => cases found <;> simp [takeRows, hlate]

theorem Silent.leaves (h : Silent collationKey w w') : Leaves w w' := by
  cases h with
  | storeChanged account => exact ⟨showChangedStore_reads w.ui account, rfl, rfl, rfl, rfl, rfl⟩
  | rowsDropped hread hlate answer =>
    obtain ⟨hshown, hrows⟩ := takeRows_late hlate answer
    exact ⟨hshown ▸ .nothing, rfl, rfl, rfl, hrows, rfl⟩
  | listsDropped hlate answer =>
    rw [takeFolderLists_late hlate]
    exact ⟨.nothing, rfl, rfl, rfl, rfl, rfl⟩
  | contentRead account identity answer =>
    exact ⟨.nothing, MailUi.showContent_listedRows w.mail account identity answer, rfl, rfl,
      rfl, rfl⟩
  | @flagWritten change hwrite written =>
    rw [flagWriteEnded, writeOldestFlag]
    split <;> exact ⟨flagWritten_reads w.ui change.account written, rfl, rfl, rfl, rfl, rfl⟩
  | folded hkept => exact ⟨.nothing, rfl, collapse_selection hkept, rfl, rfl, rfl⟩
  | unfolded key => exact ⟨.nothing, rfl, rfl, rfl, rfl, rfl⟩
  | listsReadAgain => exact ⟨readShownMailbox_reads w.ui, rfl, rfl, rfl, rfl, rfl⟩
  | quit => exact ⟨.nothing, rfl, rfl, rfl, rfl, rfl⟩

/-! ### What the list or the reader does -/

/-- Nothing that the user or a timer does changes whose rows the list shows. -/
theorem act_listedRows {ui ui' : MailUi} (hinv : ui.Inv) {action : MailUi.Action}
    (hheard : Heard action) (h : ui.act action = .ok ui') : ui'.listedRows = ui.listedRows := by
  cases action with
  | showRows => exact hheard.elim
  | showContent => exact hheard.elim
  | clear => exact hheard.elim
  | readOpenContentAgain =>
    cases h
    rw [MailUi.readOpenContentAgain]
    split <;> rfl
  | setUnreadFilter unreadOnly animates =>
    have hready : { ui with unreadOnly := unreadOnly : MailUi }.Ready :=
      ⟨hinv.holds, hinv.listed, hinv.closed⟩
    have hsame := MailUi.updateShown_listedRows hready h
    exact hsame
  | activate position animates =>
    have hopened := (MailUi.openAt_list ui position).listedRows
    rw [MailUi.act, MailUi.activate] at h
    split at h
    · exact (MailUi.updateShown_listedRows (hinv.toReady.openAt position) h).trans hopened
    · cases h
      exact hopened
  | removeInWindow identity animates =>
    have hready : { ui with removedInWindow := identity :: ui.removedInWindow : MailUi }.Ready :=
      ⟨hinv.holds, hinv.listed, hinv.closed⟩
    rcases MailUi.removeInWindow_cases h with rfl |
      ⟨ui₁, ui₂, rfl | ⟨position, rfl⟩ | rfl, hshown, rfl⟩
    · rfl
    · exact (MailUi.updateShown_listedRows hready hshown).trans rfl
    · exact (MailUi.updateShown_listedRows (hready.openAt position) hshown).trans
        (MailUi.openAt_list _ position).listedRows
    · exact (MailUi.updateShown_listedRows hready.closeReader hshown).trans rfl
  | changeFlag flag wanted =>
    cases h
    exact MailUi.changeFlag_listedRows ui .user flag wanted
  | toggleRowStar item starShows =>
    cases h
    rw [MailUi.toggleRowStar]
    split
    · exact MailUi.changeListedFlag_listedRows ui .user _ .flagged _
    · rfl
  | afterClosing animates =>
    have hready : { ui with pendingChange := false : MailUi }.Ready :=
      ⟨hinv.holds, hinv.listed, hinv.closed⟩
    have hsame := MailUi.updateShown_listedRows hready h
    exact hsame
  | readAfterOpening =>
    cases h
    rw [MailUi.readAfterOpening]
    split
    · exact MailUi.changeFlag_listedRows _ .opening .seen true
    · rfl
  | frame =>
    cases h
    rfl

theorem writeFlag_leaves (w : MainWindow) (change : FlagWrite) : Leaves w (w.writeFlag change) := by
  rw [writeFlag, writeOldestFlag]
  split
  · split <;> exact ⟨.nothing, rfl, rfl, rfl, rfl, rfl⟩
  · exact ⟨.nothing, rfl, rfl, rfl, rfl, rfl⟩

/-- What the list or the reader does leaves what is shown, unless a row that it takes out is shown
so. -/
theorem actMail_induction {P : MainWindow → Prop}
    (hleaves : ∀ w w', P w → Leaves w w' → w'.ui = w.ui → ReflGen MailUi.Step w.mail w'.mail →
      w'.refreshes = w.refreshes → w'.sidebar = w.sidebar → P w')
    (hreached : ∀ w, P w → MailUi.Reached w.mail)
    (hrender : ∀ w w' animates, P w → w.render animates = .ok w' → P w')
    {action : MailUi.Action} {animates : Bool} (hheard : Heard action)
    (henabled : w.mail.Enabled action) (h : w.actMail action animates = .ok w') (hw : P w) :
    P w' := by
  obtain ⟨mail, hact, hall⟩ := actMail_eq h
  have hlisted : mail.listedRows = w.mail.listedRows :=
    act_listedRows (hreached w hw).kept.1 hheard hact
  refine hearAll_induction (P := P) (fun w change hw => ?_) (fun w account identity hw => ?_)
    hrender hall (hleaves w _ hw ⟨.nothing, hlisted, rfl, rfl, rfl, rfl⟩ rfl
      (.single ⟨action, henabled, hact⟩) rfl rfl)
  · have honly := writeFlag_onlyMail w change
    exact hleaves w _ hw (writeFlag_leaves w change) honly.ui
      ((writeFlag_mail w change).symm ▸ .refl)
      honly.refreshes honly.sidebar
  · exact hleaves w _ hw ⟨.nothing, rfl, rfl, rfl, rfl, rfl⟩ rfl .refl rfl rfl

/-! ### Moves keep the rows in the list -/

/-- The list shows what the window has, and each row in it shows a row that a read of its folder
found. -/
structure Drawn (w : MainWindow) : Prop extends Listed w where
  /-- The rows. -/
  draws : w.mail.Draws (Found w.log)

/-- What the list does keeps that, where the list shows what the window has then. -/
theorem Drawn.step (h : Drawn w) (hmail : MailUi.Reached w.mail)
    (hstep : ReflGen MailUi.Step w.mail w'.mail) (hlog : w.log ⊆ w'.log) (hlisted : Listed w') :
    Drawn w' := by
  have hdraws : w.mail.Draws (Found w'.log) := h.draws.mono fun _ _ hfound => hfound.mono hlog
  refine ⟨hlisted, ?_⟩
  rcases (reflGen_iff _ _ _).mp hstep with heq | ⟨action, henabled, hact⟩
  · exact heq ▸ hdraws
  · have hreached : MailUi.Reached w'.mail := ReflTransGen.tail hmail ⟨action, henabled, hact⟩
    exact hdraws.act hmail.kept.1 hreached.kept.1 hact hlisted.found

/-- **Every move keeps what the list shows.** -/
theorem Move.drawn (hmove : Move collationKey w w') (h : Drawn w) (hsane : Sane collationKey w) :
    Drawn w' := by
  have hshown : ∀ {w w₁ w' : MainWindow} {animates : Bool}, Change collationKey w w₁ → Drawn w →
      Sane collationKey w → w₁.render animates = .ok w' → Drawn w' := by
    intro w w₁ w' animates hchange h hsane hrender
    have hlisted := hchange.listed h.toListed hsane hrender
    have hlog : w.log ⊆ w₁.log := steps_log (hchange.ui hsane.sidebar)
    obtain ⟨mail, hmail, rfl⟩ := render_eq hrender
    exact h.step hsane.mail (hchange.mail ▸ renderMail_step hmail) hlog hlisted
  cases hmove with
  | shown hchange hrender => exact hshown hchange h hsane hrender
  | silent hsilent =>
    have hlog := steps_log hsilent.ui
    have hlisted := h.toListed.leaves hsilent.leaves hsane.fresh hlog
    exact h.step hsane.mail hsilent.mail hlog hlisted
  | acts hheard henabled hacts =>
    refine (actMail_induction (P := fun w => Drawn w ∧ Sane collationKey w)
      (fun w w' hw hleaves hui hmail _ hsidebar => ?_) (fun w hw => hw.2.mail)
      (fun w w' animates hw hrender => ?_) hheard henabled hacts ⟨h, hsane⟩).1
    · have hsame : w'.log = w.log := congrArg WindowUi.log hui
      have hlog : w.log ⊆ w'.log := hsame ▸ fun _ hevent => hevent
      have hlisted := hw.1.toListed.leaves hleaves hw.2.fresh hlog
      refine ⟨hw.1.step hw.2.mail hmail hlog hlisted, hsidebar.symm ▸ hw.2.sidebar, ?_,
        hui.symm ▸ hw.2.fresh⟩
      exact ReflTransGen.trans hw.2.mail hmail.to_reflTransGen
    · have hchange : Change collationKey w w := .nothing
      have hmove : Move collationKey w w' := .shown hchange hrender
      exact ⟨hshown hchange hw.1 hw.2 hrender, hmove.sane hw.2⟩

/-! ### In every run -/

theorem listed_start : Listed start :=
  ⟨fun _ _ h => (by cases h), fun _ _ h => (by cases h), fun _ _ h => (by cases h),
    fun _ _ _ h => (by cases h), fun _ h => (by cases h)⟩

theorem Reached.drawn (h : Reached collationKey w) : Drawn w :=
  h.keeps ⟨listed_start, fun _ hitem => (by cases hitem)⟩
    fun _ _ hsane hdrawn hmove => hmove.drawn hdrawn hsane

theorem selection_of_selectedMailbox {v : WindowUi} {folder : FolderRef}
    (h : v.selectedMailbox = some folder) : v.selection = some (.mailbox folder) := by
  rw [WindowUi.selectedMailbox] at h
  split at h
  · rename_i hselection
    cases h
    exact hselection
  · cases h

/-- **The list shows the store.** In every run each row in the list, also while a change of it
waits, shows a row that a read of the selected mailbox found. Where stored rows of that mailbox were
read, the list is to show them as the last read found them, which no reported change follows, unless
a read runs; and once no change of it waits, it shows them: all but those taken out in the window
and, with the filter on, the read ones that are not open, with the one that was open where the store
no longer held it and nothing was opened since. -/
theorem list_shows_stored (h : Reached collationKey w) :
    (∀ item ∈ w.mail.items, ∃ folder row,
        w.sidebar.accounts.selection = some (.mailbox folder) ∧ Found w.log folder row ∧
          (w.mail.objects.object item).view = rowView row) ∧
      (∀ folder stored, w.mail.listedRows = some (folder, stored) →
        w.sidebar.accounts.selection = some (.mailbox folder)) ∧
      ∀ folder row rest, w.folderLists.failure = none →
        w.sidebar.accounts.selection = some (.mailbox folder) → w.shown.folder = some folder →
        w.shown.stored = .read (some (row :: rest)) →
        ∃ stored, w.mail.listedRows = some (folder, stored) ∧ stored.rows = row :: rest ∧
          (w.mail.pendingChange = false → w.mail.Settled stored) ∧
          (w.shown.isReading = false → ∃ read, KeptFrom folder read (some (row :: rest)) w.log ∧
            ¬ ChangedSince folder read w.log) := by
  have hsane := h.sane
  have hdrawn := h.drawn
  have hselected : ∀ folder stored, w.mail.listedRows = some (folder, stored) →
      w.sidebar.accounts.selection = some (.mailbox folder) := fun folder stored hrows =>
    selection_of_selectedMailbox (hsane.fresh.placed folder (hdrawn.folder folder stored hrows))
  refine ⟨fun item hitem => ?_, hselected,
    fun folder row rest hfailure hselection hfolder hstored => ?_⟩
  · obtain ⟨folder, stored, row, hlisted, hfound, hview⟩ := hdrawn.draws item hitem
    exact ⟨folder, row, hselected folder stored hlisted, hfound, hview⟩
  · have hrows := hdrawn.messages folder w.rows _
      (messages_of_read hfailure hselection hfolder hstored)
    refine ⟨w.rows, hrows, (hdrawn.rows _ hstored).1,
      hsane.mail.kept.1.settled folder w.rows hrows, fun hreading => ?_⟩
    obtain ⟨folder', read, hfolder', hkept, hchanged⟩ := hsane.fresh.seen _ hstored hreading
    cases hfolder'.symm.trans hfolder
    exact ⟨read, hkept, hchanged⟩

/-- The inbox's message is in the list. -/
theorem list_shows_stored_inbox : ∃ w stored, Reached id w ∧ w.mail.items = [0] ∧
    (w.mail.objects.object 0).view = rowView (plainRow "7") ∧
    (∃ folder row, w.sidebar.accounts.selection = some (.mailbox folder) ∧
      Found w.log folder row ∧ (w.mail.objects.object 0).view = rowView row) ∧
    w.mail.listedRows = some (WindowUi.inbox, stored) ∧ stored.rows = [plainRow "7"] ∧
    w.mail.Settled stored ∧
    ∃ read, KeptFrom WindowUi.inbox read (some [plainRow "7"]) w.log ∧
      ¬ ChangedSince WindowUi.inbox read w.log := by
  obtain ⟨w, hw⟩ := inbox_reached
  obtain ⟨read, hmail⟩ := hw.mail
  have hselection : w.sidebar.accounts.selection = some (.mailbox WindowUi.inbox) := by
    rw [hw.sidebar]
    exact SidebarUi.selection_selecting
  have hitems : w.mail.items = [0] := by rw [hmail]; rfl
  have hview : (w.mail.objects.object 0).view = rowView (plainRow "7") := by rw [hmail]; rfl
  have hnow : w.mail.pendingChange = false := by rw [hmail]; rfl
  obtain ⟨hdrawn, -, hshows⟩ := list_shows_stored hw.reached
  obtain ⟨stored, hlisted, hrows, hsettled, hseen⟩ := hshows WindowUi.inbox (plainRow "7") []
    hw.listFailure hselection hw.folder hw.stored
  exact ⟨w, stored, hw.reached, hitems, hview, hdrawn 0 (hitems ▸ List.mem_singleton_self 0),
    hlisted,
    hrows, hsettled hnow, hseen hw.reading⟩

end MainWindow

end Mailbag.Window
