import Mailbag.Window.MainWindowMoves

/-!
# The parts of the window

The sidebar, the list with the reader, and the window that reads the rows each make steps of
their own.

## What is proved

* `Move.sidebar`, `Move.mail`, `Move.ui` — a move is steps of the sidebar, of the list with the
  reader, and of the window that reads the rows.
* `Reached.parts` — so in every run each part is what its own steps reach.
-/

namespace Mailbag.Window

open Collections Folders Interaction Loads OnlineAccounts Relation

namespace MainWindow

variable {collationKey : String → String} {w w' w'' : MainWindow}

/-! ### Steps of the parts -/

theorem withUi_ui {ui : WindowUi} (h : ui.selection = w.sidebar.accounts.selection) :
    (w.withUi ui).ui = ui := by
  cases ui
  cases h
  rfl

theorem showFolderLists_eq (lists : List (AccountId × List Folder)) (w : MainWindow) :
    showFolderLists collationKey lists w =
      { w with
        sidebar := (showFolderLists collationKey lists w).sidebar
        shown := (showFolderLists collationKey lists w).shown } := by
  induction lists generalizing w with
  | nil => rfl
  | cons entry lists ih => exact ih (w.showFolderList collationKey entry.1 entry.2)

/-- An account's folders are a step of the window that reads the rows. -/
theorem showFolderList_ui (w : MainWindow) (account : AccountId) (folders : List Folder) :
    (w.showFolderList collationKey account folders).ui = w.ui.showFolderLists
      (w.sidebar.showFolders collationKey account folders).1 := by
  change (⟨(w.sidebar.showFolders collationKey account folders).2.accounts.selection,
    if (w.sidebar.showFolders collationKey account folders).1 then w.shown.forget
      else w.shown, w.rowsReads, w.log⟩ : WindowUi) = _
  rcases SidebarUi.showFolders_cases w.sidebar collationKey account folders
    with ⟨heq, -⟩ | ⟨heq, -⟩ | ⟨heq, -⟩ <;> rw [heq] <;> rfl

theorem showFolderLists_sidebar {lists : List (AccountId × List Folder)}
    (hunique : ∀ entry ∈ lists, Collections.Unique Folder.identity entry.2) (w : MainWindow) :
    ReflTransGen (SidebarUi.Step collationKey) w.sidebar
      (showFolderLists collationKey lists w).sidebar := by
  induction lists generalizing w with
  | nil => exact .refl
  | cons entry lists ih =>
    have hstep : SidebarUi.Step collationKey w.sidebar
        (w.showFolderList collationKey entry.1 entry.2).sidebar :=
      ⟨.folders entry.1 entry.2, hunique entry List.mem_cons_self, rfl⟩
    exact .head hstep (ih (fun other hother => hunique other (List.mem_cons_of_mem _ hother))
      (w.showFolderList collationKey entry.1 entry.2))

theorem showFolderLists_ui (lists : List (AccountId × List Folder)) (w : MainWindow) :
    ReflTransGen Step w.ui (showFolderLists collationKey lists w).ui := by
  induction lists generalizing w with
  | nil => exact .refl
  | cons entry lists ih =>
    have hstep : Step w.ui (w.showFolderList collationKey entry.1 entry.2).ui := by
      rw [showFolderList_ui]
      exact .folderLists _
    exact .head hstep (ih (w.showFolderList collationKey entry.1 entry.2))

/-- The window once its latest read of the folder lists has answered. -/
def listsAnswered (w : MainWindow) (failure : Option Failure) (event : ListEvent) : MainWindow :=
  { w with
    listReads := w.listReads.filter (·.1 ≠ w.folderLists.latestRead)
    folderLists := ⟨w.folderLists.latestRead, false, failure⟩
    listLog := event :: w.listLog }

theorem takeFolderLists_ok (w : MainWindow) (lists : List (AccountId × List Folder)) :
    (w.takeFolderLists collationKey w.folderLists.latestRead (.ok lists)).2 =
      showFolderLists collationKey lists
      (w.listsAnswered none (.shown w.folderLists.latestRead lists)) := by
  simp [takeFolderLists, FolderListsRead.finishRead, listsAnswered]

theorem takeFolderLists_error (w : MainWindow) (failure : Failure) :
    (w.takeFolderLists collationKey w.folderLists.latestRead (.error failure)).2 =
      w.listsAnswered (some failure) (.failed w.folderLists.latestRead failure) := by
  simp [takeFolderLists, FolderListsRead.finishRead, listsAnswered]

theorem takeFolderLists_late {read : ℕ} (hlate : read ≠ w.folderLists.latestRead)
    (answer : Except Failure (List (AccountId × List Folder))) :
    (w.takeFolderLists collationKey read answer).2 =
      { w with listReads := w.listReads.filter (·.1 ≠ read) } := by
  simp [takeFolderLists, FolderListsRead.finishRead, hlate]

theorem takeRows_ui (w : MainWindow) (read : ℕ)
    (answer : Except Failure
      (Option { rows : List MessageListRow // Collections.Unique MessageListRow.identity rows })) :
    (w.takeRows read answer).2.ui = w.ui.readAnswered read
      (answer.map fun rows => rows.map (·.1)) :=
  withUi_ui (w := w) (readAnswered_selection w.ui read _)

/-- An update is a step of the window that reads the rows, as its selection is dropped with its
account. -/
theorem takeUpdate_ui (hsound : w.sidebar.Sound collationKey) (update : NamedUpdate) :
    (w.takeUpdate update).ui =
      w.ui.applyAccountUpdate fun id =>
      decide (id ∈ (w.sidebar.accounts.applyUpdate update).1.visibleAccounts.ids) := by
  have hselection := AccountList.applyAccountUpdate_selection hsound.accounts update (w := w.ui) rfl
  have hui : (w.takeUpdate update).ui = ⟨(w.sidebar.accounts.applyUpdate update).1.selection,
      w.shown.forgetExcluded fun id =>
      decide (id ∈ (w.sidebar.accounts.applyUpdate update).1.visibleAccounts.ids), w.rowsReads,
          w.log⟩ := by
    rw [takeUpdate]
    split <;> rfl
  rw [hui, ← hselection]
  rfl

theorem selectAt_selection {ui : SidebarUi} {position : ℕ}
    (h : (ui.selectAt position).1 = true) :
    ∃ row, ui.nodeAt position = some row ∧
      (ui.selectAt position).2 = { ui with accounts := ui.accounts.select row.key } := by
  rw [SidebarUi.selectAt] at h ⊢
  split at h
  · cases h
  · rename_i row hrow
    split at h
    · cases h
    · rename_i hother
      exact ⟨row, hrow, if_neg hother ▸ rfl⟩

/-- Another selection is a step of the window that reads the rows. -/
theorem withSelection_ui (w : MainWindow) (sidebar : SidebarUi) :
    (w.withSelection sidebar).ui = w.ui.select sidebar.accounts.selection :=
  withUi_ui (w := { w with sidebar := sidebar }) (showSelection_selection _)

theorem endLoad_ui (w : MainWindow) (account : AccountId) (target : LoadTarget)
    (result : Cycle.LoadResult) :
    (w.endLoad account target result).ui = w.ui.finishLoad target result := by
  cases target <;> cases result <;> exact withUi_ui (finishLoad_selection w.ui _ _)

theorem collapse_selection {ui : SidebarUi} {key : Selection} (h : (ui.collapse key).1 = false) :
    (ui.collapse key).2.accounts = ui.accounts := by
  rw [SidebarUi.collapse] at h ⊢
  split at h
  · rename_i hlength
    rw [if_pos hlength]
    rfl
  · rename_i hlength
    rw [if_neg hlength]
    rw [SidebarUi.clearHiddenSelection] at h ⊢
    dsimp only at h ⊢
    rw [h]
    rfl

/-- **A change's steps of the window that reads the rows.** -/
theorem Change.ui (h : Change collationKey w w') (hsound : w.sidebar.Sound collationKey) :
    ReflTransGen Step w.ui w'.ui := by
  cases h with
  | nothing => exact .refl
  | updated update =>
    rw [takeUpdate_ui hsound]
    exact .single (.accountUpdate _)
  | selected =>
    rw [withSelection_ui]
    exact .single (.select _)
  | cleared =>
    rw [withSelection_ui]
    exact .single (.select _)
  | loadStarted => exact .single .startLoad
  | loadEnded account target result =>
    rw [endLoad_ui]
    exact .single (.finished target result)
  | rowsRead hread answer =>
    rw [takeRows_ui]
    exact .single (.readAnswered hread _)
  | @listsRead answer =>
    cases answer with
    | ok lists =>
      rw [takeFolderLists_ok]
      exact showFolderLists_ui lists (w.listsAnswered none (.shown w.folderLists.latestRead lists))
    | error failure =>
      rw [takeFolderLists_error]
      exact .refl

theorem Change.sidebar (h : Change collationKey w w') :
    ReflTransGen (SidebarUi.Step collationKey) w.sidebar w'.sidebar := by
  cases h with
  | nothing => exact .refl
  | updated update =>
    have hsidebar : (w.takeUpdate update).sidebar = (w.sidebar.applyUpdate update).1 := by
      rw [takeUpdate]
      split <;> rfl
    rw [hsidebar]
    exact .single ⟨.update update, trivial, rfl⟩
  | @selected position henabled => exact .single ⟨.select position, henabled, rfl⟩
  | @cleared key => exact .single ⟨.collapse key, trivial, rfl⟩
  | loadStarted => exact .refl
  | loadEnded account target result => cases target <;> cases result <;> exact .refl
  | rowsRead => exact .refl
  | @listsRead answer henabled =>
    cases answer with
    | ok lists =>
      rw [takeFolderLists_ok]
      obtain ⟨accounts, -, hlists⟩ := henabled
      exact showFolderLists_sidebar (hlists lists rfl).2
        (w.listsAnswered none (.shown w.folderLists.latestRead lists))
    | error failure =>
      rw [takeFolderLists_error]
      exact .refl

theorem Change.mail (h : Change collationKey w w') : w'.mail = w.mail := by
  cases h with
  | nothing => rfl
  | updated update =>
    rw [takeUpdate]
    split <;> rfl
  | selected => rfl
  | cleared => rfl
  | loadStarted => rfl
  | loadEnded account target result => cases target <;> cases result <;> rfl
  | rowsRead => rfl
  | @listsRead answer =>
    cases answer with
    | ok lists =>
      rw [takeFolderLists_ok, showFolderLists_eq]
      rfl
    | error failure =>
      rw [takeFolderLists_error]
      rfl

theorem Silent.ui (h : Silent collationKey w w') : ReflTransGen Step w.ui w'.ui := by
  cases h with
  | storeChanged account =>
    rw [show (w.showChangedStore account).ui = w.ui.showChangedStore account from withUi_ui
      (showChangedStore_selection w.ui account)]
    exact .single (.storeChanged account)
  | rowsDropped hread hlate answer =>
    rw [takeRows_ui]
    exact .single (.readAnswered hread _)
  | listsDropped hlate answer =>
    rw [takeFolderLists_late hlate]
    exact .refl
  | contentRead => exact .refl
  | @flagWritten change hwrite written =>
    have hui : (w.flagWriteEnded change written).ui = w.ui.flagWritten change.account written := by
      rw [flagWriteEnded, (writeOldestFlag_onlyMail _).ui]
      exact withUi_ui (flagWritten_selection w.ui change.account written)
    rw [hui]
    exact .single (.flagWritten change.account written)
  | @folded key hkept =>
    have hui : ({ w with sidebar := (w.sidebar.collapse key).2 : MainWindow }).ui = w.ui := by
      rw [ui, collapse_selection hkept]
      rfl
    rw [hui]
  | unfolded => exact .refl
  | listsReadAgain =>
    rw [show w.readLists.ui = w.ui.readShownMailbox from withUi_ui
      (readShownMailbox_selection w.ui)]
    exact .single .readStoredMail
  | quit => exact .refl

theorem Silent.sidebar (h : Silent collationKey w w') :
    ReflTransGen (SidebarUi.Step collationKey) w.sidebar w'.sidebar := by
  cases h with
  | @folded key => exact .single ⟨.collapse key, trivial, rfl⟩
  | unfolded key => exact .single ⟨.expand key, trivial, rfl⟩
  | flagWritten hwrite written =>
    rw [flagWriteEnded, (writeOldestFlag_onlyMail _).sidebar]
    exact .refl
  | listsDropped hlate answer => rw [takeFolderLists_late hlate]
  | storeChanged => exact .refl
  | rowsDropped => exact .refl
  | contentRead => exact .refl
  | listsReadAgain => exact .refl
  | quit => exact .refl

/-- Showing is a step of the list and the reader, at most. -/
theorem renderMail_step {animates : Bool} {mail : MailUi} (h : w.renderMail animates = .ok mail) :
    ReflGen MailUi.Step w.mail mail := by
  rw [renderMail] at h
  split at h
  · rename_i folder rows banner hshown
    exact .single ⟨.showRows folder rows animates, trivial, h⟩
  · cases h
    exact .refl
  · cases h
    exact .single ⟨.clear, trivial, rfl⟩

theorem render_steps {animates : Bool} (h : w.render animates = .ok w') :
    ReflTransGen MailUi.Step w.mail w'.mail := by
  obtain ⟨mail, hmail, rfl⟩ := render_eq h
  exact (renderMail_step hmail).to_reflTransGen

theorem writeFlag_mail (w : MainWindow) (change : FlagWrite) :
    (w.writeFlag change).mail = w.mail := by
  rw [writeFlag]
  split
  · rw [writeOldestFlag]
    split <;> rfl
  · rfl

/-- Where nothing is shown anew, the list and the reader take an answer at most. -/
theorem Silent.mail (h : Silent collationKey w w') : ReflGen MailUi.Step w.mail w'.mail := by
  cases h with
  | contentRead account identity answer =>
    exact .single ⟨.showContent account identity answer, trivial, rfl⟩
  | listsDropped hlate answer =>
    rw [takeFolderLists_late hlate]
  | flagWritten hwrite written =>
    rw [flagWriteEnded, writeOldestFlag]
    split <;> exact .refl
  | storeChanged => exact .refl
  | rowsDropped => exact .refl
  | folded => exact .refl
  | unfolded => exact .refl
  | listsReadAgain => exact .refl
  | quit => exact .refl

/-- **A move's steps of the list and the reader.** -/
theorem Move.mail (h : Move collationKey w w') : ReflTransGen MailUi.Step w.mail w'.mail := by
  cases h with
  | shown hchange hrender =>
    rw [← hchange.mail]
    exact render_steps hrender
  | silent hsilent => exact hsilent.mail.to_reflTransGen
  | @acts action animates hheard henabled hacts =>
    obtain ⟨mail, hact, hall⟩ := actMail_eq hacts
    refine hearAll_induction (P := fun w₁ => ReflTransGen MailUi.Step w.mail w₁.mail)
      (fun w₁ change h₁ => ?_) (fun _ _ _ h₁ => h₁)
      (fun _ _ _ h₁ hrender => h₁.trans (render_steps hrender)) hall
        (.single ⟨action, henabled, hact⟩)
    rw [writeFlag_mail]
    exact h₁

/-- **A move's steps of the sidebar.** -/
theorem Move.sidebar (h : Move collationKey w w') :
    ReflTransGen (SidebarUi.Step collationKey) w.sidebar w'.sidebar := by
  cases h with
  | shown hchange hrender =>
    rw [(render_onlyMail hrender).sidebar]
    exact hchange.sidebar
  | silent hsilent => exact hsilent.sidebar
  | acts hheard henabled hacts => rw [(actMail_onlyMail hacts).sidebar]

/-- **A move's steps of the window that reads the rows.** -/
theorem Move.ui (h : Move collationKey w w') (hsound : w.sidebar.Sound collationKey) :
    ReflTransGen Step w.ui w'.ui := by
  cases h with
  | shown hchange hrender =>
    rw [(render_onlyMail hrender).ui]
    exact hchange.ui hsound
  | silent hsilent => exact hsilent.ui
  | acts hheard henabled hacts => rw [(actMail_onlyMail hacts).ui]

/-! ### What moves do to the rows -/

/-- An answer of the latest read is kept, and a read may follow it. -/
theorem takeRows_latest (w : MainWindow)
    (answer : Except Failure
      (Option { rows : List MessageListRow // Collections.Unique MessageListRow.identity rows })) :
    ∃ answered : WindowUi, answered.shown.folder = w.shown.folder ∧
      ReadsShown w.ui.selectedMailbox answered.shown
      (w.takeRows w.shown.latestRead answer).2.shown ∧
      ∀ rows, answered.shown.stored = .read (some rows) →
        (w.takeRows w.shown.latestRead answer).2.rows.rows = rows ∧
        .kept (w.takeRows w.shown.latestRead answer).2.rows.allocation (some rows) ∈
        (w.takeRows w.shown.latestRead answer).2.log := by
  have hui := takeRows_ui w w.shown.latestRead answer
  rw [show w.shown.latestRead = w.ui.shown.latestRead from rfl, WindowUi.readAnswered_latest] at hui
  have hshown := congrArg WindowUi.shown hui
  have hlog := congrArg WindowUi.log hui
  cases answer with
  | error failure =>
    refine ⟨w.ui.fail failure, rfl, ?_, fun rows hrows => (by cases hrows)⟩
    change (w.takeRows w.shown.latestRead _).2.shown = _ at hshown
    rw [hshown]
    exact (due_reads (w.ui.fail failure) w.ui.shown.readDue).1
  | ok found =>
    have hdue := due_reads (w.ui.keep (found.map (·.1))) w.ui.shown.readDue
    change (w.takeRows w.shown.latestRead _).2.shown = _ at hshown
    change (w.takeRows w.shown.latestRead _).2.log = _ at hlog
    refine ⟨w.ui.keep (found.map (·.1)), rfl, ?_, fun rows hrows => ?_⟩
    · rw [hshown]
      exact hdue.1
    · cases found with
      | none => cases hrows
      | some found =>
        cases hrows
        have hrows : (w.takeRows w.shown.latestRead (.ok (some found))).2.rows =
            ⟨w.shown.latestRead, found.1, found.2⟩ := by
          simp [takeRows]
        rw [hrows, hlog]
        exact ⟨rfl, hdue.2 List.mem_cons_self⟩

/-- Folder lists keep the rows or forget them. -/
theorem showFolderLists_shown (lists : List (AccountId × List Folder)) (w : MainWindow) :
    ShownMoves w.ui.selectedMailbox w.shown (showFolderLists collationKey lists w).shown := by
  suffices (showFolderLists collationKey lists w).shown = w.shown ∨
      (showFolderLists collationKey lists w).shown.stored = .notRead by
    rcases this with heq | hforgotten
    · exact .reads (heq ▸ .nothing)
    · exact .forgotten hforgotten
  induction lists generalizing w with
  | nil => exact .inl rfl
  | cons entry lists ih =>
    rcases ih (w.showFolderList collationKey entry.1 entry.2) with heq | hforgotten
    · rw [showFolderLists, heq]
      by_cases hgone : (w.sidebar.showFolders collationKey entry.1 entry.2).1 = true
      · refine .inr ?_
        change (if (w.sidebar.showFolders collationKey entry.1 entry.2).1 then w.shown.forget
          else w.shown).stored = _
        rw [if_pos hgone]
        rfl
      · exact .inl (if_neg hgone)
    · exact .inr hforgotten

/-! ### Runs -/

/-- An event that may come is handled. -/
def Handles (collationKey : String → String) (w w' : MainWindow) : Prop :=
  ∃ event animates, w.Enabled event ∧ w.handle collationKey animates event = .ok w'

/-- The window after any events. -/
def Reached (collationKey : String → String) (w : MainWindow) : Prop :=
  ReflTransGen (Handles collationKey) start w

/-- What every move keeps holds in every run. -/
theorem Reached.induction {I : MainWindow → Prop} (hstart : I start)
    (hmove : ∀ w w', I w → Move collationKey w w' → I w') (h : Reached collationKey w) : I w :=
  invariant hstart (fun _ _ hw ⟨_, _, henabled, hhandle⟩ => invariant hw hmove
    (handle_moves henabled hhandle)) h

/-- **The parts make their own steps**: in every run the sidebar, the list with the reader, and the
window that reads the rows are what their own steps reach. -/
theorem Reached.parts (h : Reached collationKey w) :
    ReflTransGen (SidebarUi.Step collationKey) .start w.sidebar ∧ MailUi.Reached w.mail ∧
      ReflTransGen Step .start w.ui := by
  refine h.induction (I := fun w => ReflTransGen (SidebarUi.Step collationKey) .start w.sidebar ∧
    MailUi.Reached w.mail ∧
    ReflTransGen Step .start w.ui) ⟨.refl, .refl, .refl⟩ fun w w' hw hmove => ?_
  obtain ⟨hsidebar, hmail, hui⟩ := hw
  exact ⟨hsidebar.trans hmove.sidebar, hmail.trans hmove.mail,
    hui.trans (hmove.ui (SidebarUi.sound_start.steps hsidebar))⟩

end MainWindow

end Mailbag.Window
