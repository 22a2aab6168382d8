import Mailbag.Window.MainWindow
import Mailbag.Window.ShownMoves
import Mailbag.Window.SidebarRuns

/-!
# What the window can do

Every event that the window handles is a chain of moves: a change that is then shown, a change
that shows nothing anew, or something that the list or the reader does. What holds in every run
is proved of each kind of move once.

## What is proved

* `handle_moves` — an event that is handled is a chain of moves.
-/

namespace Mailbag.Window

open Collections Folders Interaction Loads OnlineAccounts Relation

namespace MainWindow

variable {collationKey : String → String} {w w' w'' : MainWindow}

/-! ### What only the list, the reader and the screen see -/

/-- Only the list and the reader, the screen, and what they ask for change. -/
def OnlyMail (w w' : MainWindow) : Prop :=
  w' =
    { w with
      mail := w'.mail
      screen := w'.screen
      flagWrites := w'.flagWrites
      runningWrites := w'.runningWrites
      contentReads := w'.contentReads }

theorem OnlyMail.trans (h : OnlyMail w w') (h' : OnlyMail w' w'') : OnlyMail w w'' := by
  rw [OnlyMail] at h h' ⊢
  rw [h', h]

theorem OnlyMail.sidebar (h : OnlyMail w w') : w'.sidebar = w.sidebar :=
  (congrArg MainWindow.sidebar h).trans rfl

theorem OnlyMail.refreshes (h : OnlyMail w w') : w'.refreshes = w.refreshes :=
  (congrArg MainWindow.refreshes h).trans rfl

theorem OnlyMail.folderLists (h : OnlyMail w w') : w'.folderLists = w.folderLists :=
  (congrArg MainWindow.folderLists h).trans rfl

theorem OnlyMail.ui (h : OnlyMail w w') : w'.ui = w.ui := (congrArg MainWindow.ui h).trans rfl

theorem OnlyMail.listReads (h : OnlyMail w w') : w'.listReads = w.listReads :=
  (congrArg MainWindow.listReads h).trans rfl

theorem OnlyMail.listLog (h : OnlyMail w w') : w'.listLog = w.listLog :=
  (congrArg MainWindow.listLog h).trans rfl

/-- What goes on did not fail before. -/
theorem bind_eq_ok {ε α β : Type} {x : Except ε α} {f : α → Except ε β} {b : β}
    (h : x >>= f = .ok b) : ∃ a, x = .ok a ∧ f a = .ok b := by
  cases x with
  | error => cases h
  | ok a => exact ⟨a, rfl, h⟩

/-- Showing is what the list and the reader do, and the screen. -/
theorem render_eq {animates : Bool} (h : w.render animates = .ok w') :
    ∃ mail, w.renderMail animates = .ok mail ∧
      w' = { w with mail := mail, screen := { w with mail := mail }.screenOf w.shownMail } := by
  obtain ⟨mail, hmail, heq⟩ := bind_eq_ok h
  cases heq
  exact ⟨mail, hmail, rfl⟩

theorem render_onlyMail {animates : Bool} (h : w.render animates = .ok w') : OnlyMail w w' := by
  obtain ⟨mail, -, rfl⟩ := render_eq h
  rfl

theorem writeOldestFlag_onlyMail (w : MainWindow) : OnlyMail w w.writeOldestFlag := by
  rw [writeOldestFlag]
  split <;> rfl

theorem writeFlag_onlyMail (w : MainWindow) (change : FlagWrite) :
    OnlyMail w (w.writeFlag change) := by
  rw [writeFlag]
  split
  · have hqueued : OnlyMail w { w with flagWrites := w.flagWrites ++ [change] } := rfl
    exact hqueued.trans (writeOldestFlag_onlyMail _)
  · rfl

/-- What hears nothing of the list but by writing flags, reading contents and showing. -/
theorem hearAll_induction {P : MainWindow → Prop} (hflag : ∀ w change, P w → P (w.writeFlag change))
    (hcontent : ∀ w account identity, P w → P (w.readMessageContent account identity))
    (hrender : ∀ w w' animates, P w → w.render animates = .ok w' → P w') {animates : Bool}
    {events : List MailEvent} (h : hearAll animates events w = .ok w') (hw : P w) : P w' := by
  induction events generalizing w with
  | nil =>
    cases h
    exact hw
  | cons event events ih =>
    obtain ⟨heard, hheard, h⟩ := bind_eq_ok h
    refine ih h ?_
    cases event with
    | contentRequested account identity =>
      cases hheard
      exact hcontent w account identity hw
    | flagChange asker account identity flag wanted =>
      cases hheard
      exact hflag w ⟨account, identity, flag, wanted⟩ hw
    | rowRemoved => exact hrender w heard animates hw hheard
    | opened => cases hheard; exact hw
    | closed => cases hheard; exact hw
    | unreadAsked => cases hheard; exact hw
    | contentAnswered => cases hheard; exact hw

/-- The list or the reader acts, and what it asks for is heard. -/
theorem actMail_eq {action : MailUi.Action} {animates : Bool}
    (h : w.actMail action animates = .ok w') :
    ∃ mail, w.mail.act action = .ok mail ∧
      hearAll animates (mail.log.take (mail.log.length - w.mail.log.length)).reverse
      { w with mail := mail } = .ok w' :=
  bind_eq_ok h

/-- What an action adds to the log is what is heard. -/
theorem actMail_of {action : MailUi.Action} {mail : MailUi} {new : List MailEvent}
    (hact : w.mail.act action = .ok mail) (hlog : mail.log = new ++ w.mail.log) (animates : Bool) :
    w.actMail action animates = hearAll animates new.reverse { w with mail := mail } := by
  have hnew : mail.log.take (mail.log.length - w.mail.log.length) = new := by simp [hlog]
  rw [actMail, hact, ← hnew]
  rfl

theorem actMail_onlyMail {action : MailUi.Action} {animates : Bool}
    (h : w.actMail action animates = .ok w') : OnlyMail w w' := by
  obtain ⟨mail, -, hheard⟩ := actMail_eq h
  refine hearAll_induction (P := OnlyMail w)
    (fun w₁ change h₁ => h₁.trans (writeFlag_onlyMail w₁ change))
    (fun w₁ account identity h₁ => h₁.trans rfl)
      (fun w₁ w₂ animates h₁ h₂ => h₁.trans (render_onlyMail h₂)) hheard rfl

/-! ### Moves -/

/-- A change that is shown then. -/
inductive Change (collationKey : String → String) (w : MainWindow) : MainWindow → Prop
  /-- Nothing changes. -/
  | nothing : Change collationKey w w
  /-- An update of Online Accounts. -/
  | updated (update : NamedUpdate) : Change collationKey w (w.takeUpdate update)
  /-- The user selects another row. -/
  | selected {position : ℕ} (henabled : (w.sidebar.nodeAt position).any (·.selectable) = true)
      (hselected : (w.sidebar.selectAt position).1 = true) :
      Change collationKey w (w.withSelection (w.sidebar.selectAt position).2)
  /-- The user folds the selected row away. -/
  | cleared {key : Selection} (hcleared : (w.sidebar.collapse key).1 = true) :
    Change collationKey w (w.withSelection (w.sidebar.collapse key).2)
  /-- A load of the selected mail starts. -/
  | loadStarted {selection : Selection} (hselection : w.sidebar.accounts.selection = some selection)
    (hfree : w.refreshes.isLoading = false) (provider : MailProvider) (target : LoadTarget) :
    Change collationKey w (w.beginLoad selection.accountId provider target)
  /-- A load ends. -/
  | loadEnded (account : AccountId) (target : LoadTarget) (result : Cycle.LoadResult) :
    Change collationKey w (w.endLoad account target result)
  /-- The latest read of rows answers. -/
  | rowsRead {folder : FolderRef} (hread : (w.shown.latestRead, folder) ∈ w.rowsReads)
    (answer : Except Failure
      (Option { rows : List MessageListRow // Collections.Unique MessageListRow.identity rows })) :
    Change collationKey w (w.takeRows w.shown.latestRead answer).2
  /-- The latest read of folder lists answers. -/
  | listsRead {answer : Except Failure (List (AccountId × List Folder))}
    (henabled : w.Enabled (.folderListsAnswered w.folderLists.latestRead answer)) :
    Change collationKey w (w.takeFolderLists collationKey w.folderLists.latestRead answer).2

/-- A change that shows nothing anew. -/
inductive Silent (collationKey : String → String) (w : MainWindow) : MainWindow → Prop
  /-- A load changed the store. -/
  | storeChanged (account : AccountId) : Silent collationKey w (w.showChangedStore account)
  /-- An older read of rows answers. -/
  | rowsDropped {read : ℕ} {folder : FolderRef} (hread : (read, folder) ∈ w.rowsReads)
      (hlate : read ≠ w.shown.latestRead)
    (answer : Except Failure
      (Option { rows : List MessageListRow // Collections.Unique MessageListRow.identity rows })) :
    Silent collationKey w (w.takeRows read answer).2
  /-- An older read of folder lists answers. -/
  | listsDropped {read : ℕ} (hlate : read ≠ w.folderLists.latestRead)
      (answer : Except Failure (List (AccountId × List Folder))) :
      Silent collationKey w (w.takeFolderLists collationKey read answer).2
  /-- A content is read. -/
  | contentRead (account : AccountId) (identity : String)
      (answer : Except Failure (Option ReceivedContent)) :
      Silent collationKey w (w.contentAnswered account identity answer)
  /-- A write of a flag ends. -/
  | flagWritten {change : FlagWrite} (hwrite : change ∈ w.runningWrites)
      (written : Except Failure Unit) : Silent collationKey w (w.flagWriteEnded change written)
  /-- The user folds a row that is not selected. -/
  | folded {key : Selection} (hkept : (w.sidebar.collapse key).1 = false) :
    Silent collationKey w { w with sidebar := (w.sidebar.collapse key).2 }
  /-- The user unfolds a row. -/
  | unfolded (key : Selection) : Silent collationKey w { w with sidebar := w.sidebar.expand key }
  /-- The stored mail is read. -/
  | listsReadAgain : Silent collationKey w w.readLists
  /-- The application quits. -/
  | quit : Silent collationKey w w.cancelLoads

/-- Whether an action is done through the window, which hears what it asks for. -/
def Heard : MailUi.Action → Prop
  | .readOpenContentAgain => True
  | .setUnreadFilter .. => True
  | action => OfUser action

/-- A move of the window. -/
inductive Move (collationKey : String → String) (w w' : MainWindow) : Prop
  /-- A change that is shown. -/
  | shown {w₁ : MainWindow} {animates : Bool} (hchange : Change collationKey w w₁)
      (hrender : w₁.render animates = .ok w')
  /-- A change that shows nothing anew. -/
  | silent (hsilent : Silent collationKey w w')
  /-- The list or the reader acts. -/
  | acts {action : MailUi.Action} {animates : Bool} (hheard : Heard action)
      (henabled : w.mail.Enabled action) (hacts : w.actMail action animates = .ok w')

/-- The selection does not change where the user selects it again. -/
theorem selectAt_same {ui : SidebarUi} {position : ℕ} (h : (ui.selectAt position).1 = false) :
    (ui.selectAt position).2 = ui := by
  rw [SidebarUi.selectAt] at h ⊢
  split at h
  · rfl
  · split at h
    · rename_i hsame
      rw [if_pos hsame]
    · cases h

theorem takeFolderLists_latest (w : MainWindow) (read : ℕ)
    (answer : Except Failure (List (AccountId × List Folder))) :
    (w.takeFolderLists collationKey read answer).1 = decide (read = w.folderLists.latestRead) := by
  by_cases hread : read = w.folderLists.latestRead
  · cases answer <;> simp [takeFolderLists, FolderListsRead.finishRead, hread]
  · simp [takeFolderLists, FolderListsRead.finishRead, hread]

/-- The latest read of rows is shown. -/
theorem handle_rowsAnswered (w : MainWindow) (animates : Bool)
    (answer : Except Failure
      (Option { rows : List MessageListRow // Collections.Unique MessageListRow.identity rows })) :
    w.handle collationKey animates (.rowsAnswered w.shown.latestRead answer) =
      (w.takeRows w.shown.latestRead answer).2.render animates := by
  change (if decide (w.shown.latestRead = w.shown.latestRead) then (w.takeRows w.shown.latestRead
    answer).2.render animates
    else .ok (w.takeRows w.shown.latestRead answer).2) = _
  rw [if_pos (decide_eq_true rfl)]

/-- So is the latest read of folder lists. -/
theorem handle_folderListsAnswered (w : MainWindow) (animates : Bool)
    (answer : Except Failure (List (AccountId × List Folder))) :
    w.handle collationKey animates (.folderListsAnswered w.folderLists.latestRead answer) =
      (w.takeFolderLists collationKey w.folderLists.latestRead answer).2.render animates := by
  change (if (w.takeFolderLists collationKey w.folderLists.latestRead answer).1 then
    (w.takeFolderLists collationKey w.folderLists.latestRead answer).2.render animates
    else .ok (w.takeFolderLists collationKey w.folderLists.latestRead answer).2) = _
  rw [takeFolderLists_latest, decide_eq_true rfl, if_pos rfl]

/-- So is another selection. -/
theorem handle_select {position : ℕ} (h : (w.sidebar.selectAt position).1 = true)
    (animates : Bool) :
    w.handle collationKey animates (.select position) =
      (w.withSelection (w.sidebar.selectAt position).2).render animates := by
  change (if (w.sidebar.selectAt position).1 then (w.withSelection
    (w.sidebar.selectAt position).2).render animates
    else .ok { w with sidebar := (w.sidebar.selectAt position).2 }) = _
  rw [if_pos h]

theorem OfUser.heard {action : MailUi.Action} (h : OfUser action) : Heard action := by
  cases action <;> first | exact h | exact trivial

theorem selection_of_withProvider {selection : Selection} {provider : MailProvider}
    (h : w.selectionWithProvider = some (selection, provider)) :
    w.sidebar.accounts.selection = some selection := by
  rw [selectionWithProvider, Option.bind_eq_some_iff] at h
  obtain ⟨selected, hselected, hmap⟩ := h
  obtain ⟨_, _, heq⟩ := Option.map_eq_some_iff.mp hmap
  cases heq
  exact hselected

/-- A load starts where none runs. -/
theorem startLoad_moves {selection : Selection}
    (hselection : w.sidebar.accounts.selection = some selection) {provider : MailProvider}
    {target : LoadTarget} {animates : Bool}
    (h : w.startLoad selection.accountId provider target animates = .ok w') :
    ReflTransGen (Move collationKey) w w' := by
  rw [startLoad] at h
  split at h
  · cases h
    exact .refl
  · rename_i hloading
    exact .single (.shown (.loadStarted hselection (Bool.eq_false_iff.mpr hloading) provider target)
      h)

/-- **An event that is handled is a chain of moves.** -/
theorem handle_moves {animates : Bool} {event : WindowEvent} (henabled : w.Enabled event)
    (h : w.handle collationKey animates event = .ok w') :
    ReflTransGen (Move collationKey) w w' := by
  cases event with
  | update update => exact .single (.shown (.updated update) h)
  | select position =>
    cases hselected : (w.sidebar.selectAt position).1 with
    | true =>
      rw [handle_select hselected] at h
      exact .single (.shown (.selected henabled hselected) h)
    | false =>
      change (if (w.sidebar.selectAt position).1 then (w.withSelection
        (w.sidebar.selectAt position).2).render animates
        else .ok { w with sidebar := (w.sidebar.selectAt position).2 }) = .ok w' at h
      rw [hselected, selectAt_same hselected] at h
      cases h
      exact .refl
  | collapse key =>
    change (if (w.sidebar.collapse key).1 then (w.withSelection (w.sidebar.collapse key).2).render
      animates
      else .ok { w with sidebar := (w.sidebar.collapse key).2 }) = .ok w' at h
    cases hcleared : (w.sidebar.collapse key).1 with
    | true =>
      rw [hcleared, if_pos rfl] at h
      exact .single (.shown (.cleared hcleared) h)
    | false =>
      rw [hcleared] at h
      cases h
      exact .single (.silent (.folded hcleared))
  | expand key =>
    cases h
    exact .single (.silent (.unfolded key))
  | refreshMailbox =>
    change w.refreshMailbox animates = .ok w' at h
    rw [refreshMailbox] at h
    split at h
    · rename_i folder provider hselection
      exact startLoad_moves (selection_of_withProvider hselection) h
    · cases h
      exact .refl
  | refreshAccount =>
    change w.refreshAccount animates = .ok w' at h
    rw [refreshAccount] at h
    split at h
    · rename_i selection provider hselection
      exact startLoad_moves (selection_of_withProvider hselection) h
    · cases h
      exact .refl
  | storeChanged account =>
    cases h
    exact .single (.silent (.storeChanged account))
  | finished account target result => exact .single (.shown (.loadEnded account target result) h)
  | readStoredMail =>
    obtain ⟨w₁, hacts, hrender⟩ := bind_eq_ok h
    exact ((ReflTransGen.single (.silent .listsReadAgain)).tail
      (.acts (show Heard .readOpenContentAgain from trivial) trivial hacts)).tail
      (.shown .nothing hrender)
  | rowsAnswered read answer =>
    obtain ⟨folder, hread⟩ := henabled
    by_cases hlatest : read = w.shown.latestRead
    · subst hlatest
      rw [handle_rowsAnswered] at h
      exact .single (.shown (.rowsRead hread answer) h)
    · change (if decide (read = w.shown.latestRead) then (w.takeRows read answer).2.render animates
        else .ok (w.takeRows read answer).2) = .ok w' at h
      rw [decide_eq_false hlatest] at h
      cases h
      exact .single (.silent (.rowsDropped hread hlatest answer))
  | folderListsAnswered read answer =>
    by_cases hlatest : read = w.folderLists.latestRead
    · subst hlatest
      rw [handle_folderListsAnswered] at h
      exact .single (.shown (.listsRead henabled) h)
    · change (if (w.takeFolderLists collationKey read answer).1 then (w.takeFolderLists collationKey
        read answer).2.render animates
        else .ok (w.takeFolderLists collationKey read answer).2) = .ok w' at h
      rw [takeFolderLists_latest, decide_eq_false hlatest] at h
      cases h
      exact .single (.silent (.listsDropped hlatest answer))
  | contentAnswered account identity answer =>
    cases h
    exact .single (.silent (.contentRead account identity answer))
  | flagWriteEnded change written =>
    cases h
    exact .single (.silent (.flagWritten henabled written))
  | unreadFilter unreadOnly =>
    obtain ⟨w₁, hacts, hrender⟩ := bind_eq_ok h
    exact (ReflTransGen.single
      (.acts (show Heard (.setUnreadFilter unreadOnly animates) from trivial) trivial hacts)).tail
      (.shown .nothing hrender)
  | mail action => exact .single (.acts henabled.1.heard henabled.2 h)
  | quit =>
    cases h
    exact .single (.silent .quit)

end MainWindow

end Mailbag.Window
