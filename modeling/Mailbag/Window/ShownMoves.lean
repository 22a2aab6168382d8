import Mailbag.Window.StoredChanges

/-!
# What becomes of the shown mailbox's rows

Without an answer the rows are read, or forgotten, or a failure of theirs is forgotten. Only an
answer brings rows.

## What is proved

* `ReadsShown.read`, `ShownMoves.read` — rows that are there without an answer were there before.
* `ShownMoves.again` — a mailbox is read again only where it stays the same.
* `steps_log` — the log of the reads only grows.
-/

namespace Mailbag.Window

open Interaction Loads Relation

/-! ### What reading does to the shown mailbox -/

/-- What a window with this selected mailbox does to read it. -/
inductive ReadsShown (selected : Option FolderRef) (s : ShownMailbox) : ShownMailbox → Prop
  /-- Nothing. -/
  | nothing : ReadsShown selected s s
  /-- It starts a read. -/
  | started {folder : FolderRef} (hselected : selected = some folder) :
      ReadsShown selected s (s.startRead folder)
  /-- It starts one while the rows stay. -/
  | reread : ReadsShown selected s s.startReread
  /-- One more becomes due. -/
  | due : ReadsShown selected s { s with readDue := true }

/-- What is kept of the rows without an answer. -/
inductive ShownMoves (selected : Option FolderRef) (s : ShownMailbox) : ShownMailbox → Prop
  /-- It is read. -/
  | reads {s' : ShownMailbox} (hreads : ReadsShown selected s s') : ShownMoves selected s s'
  /-- It is forgotten. -/
  | forgotten {s' : ShownMailbox} (hforgotten : s'.stored = .notRead) : ShownMoves selected s s'
  /-- A failure is forgotten. -/
  | failureForgotten : ShownMoves selected s s.forgetReadFailure

section ShownMailbox

variable {selected : Option FolderRef} {s s' : ShownMailbox} {w : WindowUi}

/-- Rows are read only by an answer. -/
theorem ReadsShown.read (h : ReadsShown selected s s') {rows : Option (List MessageListRow)}
    (hrows : s'.stored = .read rows) : s.stored = .read rows ∧ s'.folder = s.folder := by
  cases h with
  | nothing => exact ⟨hrows, rfl⟩
  | started => cases hrows
  | reread => exact ⟨hrows, rfl⟩
  | due => exact ⟨hrows, rfl⟩

/-- What is read is the selected mailbox. -/
theorem ReadsShown.folder (h : ReadsShown selected s s')
    (hplaced : ∀ folder, s.folder = some folder → selected = some folder) {folder : FolderRef}
    (hfolder : s.folder = some folder) : s'.folder = some folder := by
  cases h with
  | nothing => exact hfolder
  | started hselected => exact hselected.symm.trans (hplaced folder hfolder)
  | reread => exact hfolder
  | due => exact hfolder

theorem ShownMoves.read (h : ShownMoves selected s s') {rows : Option (List MessageListRow)}
    (hrows : s'.stored = .read rows) : s.stored = .read rows ∧ s'.folder = s.folder := by
  cases h with
  | reads hreads => exact hreads.read hrows
  | forgotten hforgotten => cases hforgotten.symm.trans hrows
  | failureForgotten =>
    rw [ShownMailbox.forgetReadFailure] at hrows ⊢
    split at hrows
    · cases hrows
    · exact ⟨hrows, rfl⟩

/-- A mailbox is read again only where it stays the same. -/
theorem ShownMoves.again (h : ShownMoves selected s s') (hagain : s'.stored = .reading true)
    {folder : FolderRef} (hfolder : s.folder = some folder) : s'.folder = some folder := by
  cases h with
  | reads hreads =>
    cases hreads with
    | nothing => exact hfolder
    | @started folder' =>
      simp only [ShownMailbox.startRead, StoredMailbox.reading.injEq, Bool.and_eq_true,
        decide_eq_true_eq] at hagain
      exact hagain.1.symm.trans hfolder
    | reread => exact hfolder
    | due => exact hfolder
  | forgotten hforgotten => cases hforgotten.symm.trans hagain
  | failureForgotten =>
    rw [ShownMailbox.forgetReadFailure] at hagain ⊢
    split at hagain
    · cases hagain
    · exact hfolder

theorem readShownMailbox_reads (w : WindowUi) :
    ReadsShown w.selectedMailbox w.shown w.readShownMailbox.shown := by
  rw [WindowUi.readShownMailbox]
  split
  · exact .nothing
  · rename_i folder hselected
    exact .started hselected

theorem readShownMailboxAgain_reads (w : WindowUi) :
    ReadsShown w.selectedMailbox w.shown w.readShownMailboxAgain.shown := by
  rw [WindowUi.readShownMailboxAgain]
  split
  · exact .nothing
  · split
    · exact readShownMailbox_reads w
    · split
      · exact .due
      · exact .reread

theorem showChangedStore_reads (w : WindowUi) (account : AccountId) :
    ReadsShown w.selectedMailbox w.shown (w.showChangedStore account).shown := by
  rw [WindowUi.showChangedStore]
  split
  · exact readShownMailboxAgain_reads (w.report account)
  · exact .nothing

theorem flagWritten_reads (w : WindowUi) (account : AccountId) (written : Except Failure Unit) :
    ReadsShown w.selectedMailbox w.shown (w.flagWritten account written).shown := by
  cases written with
  | ok => exact readShownMailboxAgain_reads (w.report account)
  | error => exact .nothing

theorem finishLoad_reads (w : WindowUi) (target : LoadTarget) (result : Cycle.LoadResult) :
    ReadsShown w.selectedMailbox w.shown (w.finishLoad target result).shown := by
  unfold WindowUi.finishLoad
  split
  · split
    · split
      · exact .nothing
      · exact readShownMailbox_reads w
    · exact .nothing
  · next folder incomplete =>
    dsimp only
    split
    · exact readShownMailboxAgain_reads (w.report folder.account)
    · exact .nothing
  · exact .nothing

theorem showSelection_moves (w : WindowUi) :
    ShownMoves w.selectedMailbox w.shown w.showSelection.shown := by
  rw [WindowUi.showSelection]
  split
  · split
    · exact .reads .nothing
    · exact .reads (readShownMailbox_reads w)
  · exact .forgotten rfl

theorem forgetExcluded_moves (isVisible : AccountId → Bool) :
    ShownMoves selected s (s.forgetExcluded isVisible) := by
  rw [ShownMailbox.forgetExcluded]
  split
  · exact .forgotten rfl
  · exact .reads .nothing

/-! ### Reading keeps the selection -/

@[simp] theorem readShownMailbox_selection (w : WindowUi) :
    w.readShownMailbox.selection = w.selection := by
  rw [WindowUi.readShownMailbox]
  split <;> rfl

@[simp] theorem readShownMailboxAgain_selection (w : WindowUi) :
    w.readShownMailboxAgain.selection = w.selection := by
  rw [WindowUi.readShownMailboxAgain]
  split
  · rfl
  · split
    · exact readShownMailbox_selection w
    · split <;> rfl

@[simp] theorem showSelection_selection (w : WindowUi) :
    w.showSelection.selection = w.selection := by
  rw [WindowUi.showSelection]
  split
  · split
    · rfl
    · exact readShownMailbox_selection w
  · rfl

@[simp] theorem showChangedStore_selection (w : WindowUi) (account : AccountId) :
    (w.showChangedStore account).selection = w.selection := by
  rw [WindowUi.showChangedStore]
  split
  · exact readShownMailboxAgain_selection (w.report account)
  · rfl

@[simp] theorem flagWritten_selection (w : WindowUi) (account : AccountId)
    (written : Except Failure Unit) : (w.flagWritten account written).selection = w.selection := by
  cases written with
  | ok => exact readShownMailboxAgain_selection (w.report account)
  | error => rfl

@[simp] theorem finishLoad_selection (w : WindowUi) (target : LoadTarget)
    (result : Cycle.LoadResult) : (w.finishLoad target result).selection = w.selection := by
  unfold WindowUi.finishLoad
  split
  · split
    · split
      · rfl
      · exact readShownMailbox_selection w
    · rfl
  · next folder incomplete =>
    dsimp only
    split
    · exact readShownMailboxAgain_selection (w.report folder.account)
    · rfl
  · rfl

@[simp] theorem readAnswered_selection (w : WindowUi) (read : ℕ)
    (answer : Except Failure (Option (List MessageListRow))) :
    (w.readAnswered read answer).selection = w.selection := by
  by_cases hread : read = w.shown.latestRead
  · subst hread
    rw [WindowUi.readAnswered_latest]
    cases answer <;> dsimp only <;> split <;> simp [WindowUi.keep, WindowUi.fail]
  · simp [WindowUi.readAnswered, ShownMailbox.finishRead, hread]

/-! ### Reading only adds to the log -/

theorem readShownMailbox_log (w : WindowUi) : w.log ⊆ w.readShownMailbox.log := by
  rw [WindowUi.readShownMailbox]
  split
  · exact fun _ h => h
  · exact List.subset_cons_self _ _

theorem readShownMailboxAgain_log (w : WindowUi) : w.log ⊆ w.readShownMailboxAgain.log := by
  rw [WindowUi.readShownMailboxAgain]
  split
  · exact fun _ h => h
  · split
    · exact readShownMailbox_log w
    · split
      · exact fun _ h => h
      · exact List.subset_cons_self _ _

theorem reportAndRead_log (w : WindowUi) (account : AccountId) :
    w.log ⊆ (w.report account).readShownMailboxAgain.log :=
  List.Subset.trans (List.subset_cons_self _ _) (readShownMailboxAgain_log (w.report account))

theorem readAnswered_log (w : WindowUi) (read : ℕ)
    (answer : Except Failure (Option (List MessageListRow))) :
    w.log ⊆ (w.readAnswered read answer).log := by
  by_cases hread : read = w.shown.latestRead
  · subst hread
    rw [WindowUi.readAnswered_latest]
    have hkept : ∀ rows, w.log ⊆ (w.keep rows).log := fun rows => List.subset_cons_self _ _
    cases answer with
    | ok rows =>
      dsimp only
      split
      · exact List.Subset.trans (hkept rows) (readShownMailboxAgain_log _)
      · exact hkept rows
    | error failure =>
      dsimp only
      split
      · exact readShownMailboxAgain_log (w.fail failure)
      · exact fun _ h => h
  · simp [WindowUi.readAnswered, ShownMailbox.finishRead, hread]

theorem Step.log {w' : WindowUi} (h : Step w w') : w.log ⊆ w'.log := by
  cases h with
  | select selection =>
    rw [WindowUi.select, WindowUi.showSelection]
    split
    · split
      · exact fun _ h => h
      · exact readShownMailbox_log { w with selection := selection }
    · exact fun _ h => h
  | storeChanged account =>
    rw [WindowUi.showChangedStore]
    split
    · exact reportAndRead_log w account
    · exact List.subset_cons_self _ _
  | finished target result =>
    unfold WindowUi.finishLoad
    split
    · split
      · split
        · exact fun _ h => h
        · exact readShownMailbox_log w
      · exact fun _ h => h
    · next folder incomplete =>
      dsimp only
      split
      · exact reportAndRead_log w folder.account
      · exact List.subset_cons_self _ _
    · exact fun _ h => h
  | flagWritten account written =>
    cases written with
    | ok => exact reportAndRead_log w account
    | error => exact fun _ h => h
  | startLoad => exact fun _ h => h
  | readStoredMail => exact readShownMailbox_log w
  | readAnswered hread answer => exact readAnswered_log w _ answer
  | accountUpdate isVisible => exact fun _ h => h
  | folderLists gone =>
    rw [WindowUi.showFolderLists]
    split <;> exact fun _ h => h

/-- Every step adds to it. -/
theorem steps_log {w' : WindowUi} (h : ReflTransGen Step w w') : w.log ⊆ w'.log :=
  invariant (I := fun v => w.log ⊆ v.log) (fun _ h => h)
    (fun _ _ hlog hstep => List.Subset.trans hlog hstep.log) h

/-- A read may follow what has answered. -/
theorem due_reads (answered : WindowUi) (due : Bool) :
    ReadsShown answered.selectedMailbox answered.shown
    (if due then answered.readShownMailboxAgain else answered).shown ∧
      answered.log ⊆ (if due then answered.readShownMailboxAgain else answered).log := by
  cases due with
  | false => exact ⟨.nothing, fun _ h => h⟩
  | true => exact ⟨readShownMailboxAgain_reads answered, readShownMailboxAgain_log answered⟩

end ShownMailbox

end Mailbag.Window
