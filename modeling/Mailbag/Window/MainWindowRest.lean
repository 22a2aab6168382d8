import Mailbag.Window.MainWindowFolders

/-!
# The window comes to rest

Reads and writes run on the pool, and an answer may start another: a read that became due, a read
after a flag was written, the next write. Left alone, the window still comes to rest.

## What is proved

* `waits_for_pool` — the window waits for answers exactly while works on the pool will give them.
* `comes_to_rest` — with nothing but answers, in any order, it has none left after a number of them
  that is known beforehand.
-/

namespace Mailbag.Window

open Collections Folders Interaction Loads OnlineAccounts Relation

namespace MainWindow

variable {collationKey : String → String} {w w' w₁ : MainWindow}

/-! ### What the window waits for -/

/-- **The window waits for what runs.** In every run it waits for an answer if and only if a work on
the pool will give one that it takes: a content, the latest read of the folder lists or of the rows,
or a write of a flag. -/
theorem waits_for_pool (h : Reached collationKey w) : w.worksOnStoredMail = true ↔
    w.contentReads ≠ [] ∨ (w.folderLists.latestRead, w.shownAccounts) ∈ w.listReads ∨
      (∃ folder, (w.shown.latestRead, folder) ∈ w.rowsReads) ∨ w.runningWrites ≠ [] := by
  have hfresh := h.sane.fresh
  have hlists := h.listsRead
  have hread : w.folderLists.reading = true ↔
      (w.folderLists.latestRead, w.shownAccounts) ∈ w.listReads :=
    ⟨fun hreading => (hlists.reading hreading).1, fun hmem => (hlists.running _ hmem).1⟩
  have hrows : w.shown.isReading = true ↔ ∃ folder, (w.shown.latestRead, folder) ∈ w.rowsReads := by
    constructor
    · intro hreading
      obtain ⟨folder, -, hmem⟩ := hfresh.reading hreading
      exact ⟨folder, hmem⟩
    · rintro ⟨folder, hmem⟩
      exact (hfresh.running folder hmem).1
  have hwrites : w.flagWrites ≠ [] ↔ w.runningWrites ≠ [] := by
    rw [h.inTurn.running]
    cases w.flagWrites <;> simp
  rw [← hread, ← hrows, ← hwrites, worksOnStoredMail]
  simp [or_assoc]

/-! ### Every answer leaves less to do -/

/-- The answers that reads of rows are still to give, with one that is due. -/
def rowsLeft (v : WindowUi) : ℕ := v.reads.length + v.shown.readDue.toNat

theorem rowsLeft_readShownMailboxAgain (v : WindowUi) :
    rowsLeft v.readShownMailboxAgain ≤ rowsLeft v + 1 := by
  unfold WindowUi.readShownMailboxAgain WindowUi.readShownMailbox WindowUi.spawnRowsRead
  cases v.selectedMailbox with
  | none => exact Nat.le_succ _
  | some folder =>
    dsimp only
    split
    · simp only [rowsLeft, ShownMailbox.startRead, List.length_append, List.length_singleton,
        Bool.toNat_false]
      omega
    · split
      · simp only [rowsLeft, Bool.toNat_true]
        omega
      · simp only [rowsLeft, ShownMailbox.startReread, List.length_append, List.length_singleton]
        omega

/-- A read that answers is one less, though the one that was due may start. -/
theorem rowsLeft_readAnswered {v : WindowUi} {read : ℕ} {folder : FolderRef}
    (hmem : (read, folder) ∈ v.reads)
    (answer : Except Failure (Option (List MessageListRow))) :
    rowsLeft (v.readAnswered read answer) < rowsLeft v := by
  have hanswered : (v.reads.filter (·.1 ≠ read)).length < v.reads.length :=
    List.length_filter_lt_length_iff_exists.mpr ⟨(read, folder), hmem, by simp⟩
  by_cases hread : read = v.shown.latestRead
  · subst hread
    rw [WindowUi.readAnswered_latest]
    have hagain : ∀ answered : WindowUi, answered.reads = v.reads.filter
      (·.1 ≠ v.shown.latestRead) → answered.shown.readDue = false →
        rowsLeft (if v.shown.readDue then answered.readShownMailboxAgain
          else answered) < rowsLeft v := by
      intro answered hreads hdue
      have hleft : rowsLeft answered < v.reads.length := by
        rw [rowsLeft, hreads, hdue]
        exact hanswered
      have hnext := rowsLeft_readShownMailboxAgain answered
      cases hwas : v.shown.readDue with
      | true =>
        rw [if_pos rfl, rowsLeft.eq_def v, hwas, Bool.toNat_true]
        omega
      | false =>
        rw [if_neg Bool.false_ne_true, rowsLeft.eq_def v, hwas]
        exact hleft
    cases answer with
    | ok rows => exact hagain (v.keep rows) rfl rfl
    | error failure => exact hagain (v.fail failure) rfl rfl
  · unfold WindowUi.readAnswered ShownMailbox.finishRead
    rw [if_pos hread]
    exact Nat.add_lt_add_right hanswered _

theorem rowsLeft_flagWritten (v : WindowUi) (account : AccountId) (written : Except Failure Unit) :
    rowsLeft (v.flagWritten account written) ≤ rowsLeft v + 1 := by
  cases written with
  | ok => exact rowsLeft_readShownMailboxAgain (v.report account)
  | error => exact Nat.le_succ _

/-- The answers that are still to be given, where each write of a flag may lead to a read. -/
def answersLeft (w : MainWindow) : ℕ :=
  2 * w.flagWrites.length + rowsLeft w.ui + w.listReads.length + w.contentReads.length

/-- Whether an event is the answer of a work on the pool. -/
def IsAnswer : WindowEvent → Prop
  | .rowsAnswered .. | .folderListsAnswered .. | .contentAnswered .. | .flagWriteEnded .. => True
  | _ => False

theorem render_answersLeft {animates : Bool} (h : w.render animates = .ok w') :
    w'.answersLeft = w.answersLeft := by
  obtain ⟨mail, -, rfl⟩ := render_eq h
  rfl

theorem takeRows_answersLeft {read : ℕ} {folder : FolderRef} (hread : (read, folder) ∈ w.rowsReads)
    (answer : Except Failure
      (Option { rows : List MessageListRow // Collections.Unique MessageListRow.identity rows })) :
    (w.takeRows read answer).2.answersLeft < w.answersLeft := by
  have hrows := rowsLeft_readAnswered (v := w.ui) hread (answer.map fun rows => rows.map (·.1))
  rw [← takeRows_ui] at hrows
  change 2 * w.flagWrites.length + rowsLeft (w.takeRows read answer).2.ui + w.listReads.length +
    w.contentReads.length < _
  rw [answersLeft]
  omega

/-- Folder lists may forget the rows, and with them the read that was due. -/
theorem showFolderLists_answersLeft (lists : List (AccountId × List Folder)) (w : MainWindow) :
    (showFolderLists collationKey lists w).answersLeft ≤ w.answersLeft := by
  induction lists generalizing w with
  | nil => exact le_rfl
  | cons entry lists ih =>
    refine (ih (w.showFolderList collationKey entry.1 entry.2)).trans ?_
    have hrows : rowsLeft (w.showFolderList collationKey entry.1 entry.2).ui ≤ rowsLeft w.ui := by
      rw [showFolderList_ui, WindowUi.showFolderLists]
      split
      · exact Nat.add_le_add_left (Nat.zero_le _) _
      · exact le_rfl
    change 2 * w.flagWrites.length + rowsLeft (w.showFolderList collationKey entry.1 entry.2).ui +
      w.listReads.length +
      w.contentReads.length ≤ _
    rw [answersLeft]
    omega

theorem takeFolderLists_answersLeft {read : ℕ} {accounts : List AccountId}
    (hread : (read, accounts) ∈ w.listReads)
    (answer : Except Failure (List (AccountId × List Folder))) :
    (w.takeFolderLists collationKey read answer).2.answersLeft < w.answersLeft := by
  have hanswered : (w.listReads.filter (·.1 ≠ read)).length < w.listReads.length :=
    List.length_filter_lt_length_iff_exists.mpr ⟨(read, accounts), hread, by simp⟩
  have hless : ∀ left : MainWindow, left.flagWrites = w.flagWrites → left.ui = w.ui →
    left.contentReads = w.contentReads →
      left.listReads = w.listReads.filter (·.1 ≠ read) → left.answersLeft < w.answersLeft := by
    intro left hwrites hui hcontents hreads
    rw [answersLeft, answersLeft, hwrites, hui, hcontents, hreads]
    omega
  by_cases hlatest : read = w.folderLists.latestRead
  · subst hlatest
    cases answer with
    | ok lists =>
      rw [takeFolderLists_ok]
      exact (showFolderLists_answersLeft lists _).trans_lt (hless _ rfl rfl rfl rfl)
    | error failure =>
      rw [takeFolderLists_error]
      exact hless _ rfl rfl rfl rfl
  · rw [takeFolderLists_late hlatest]
    exact hless _ rfl rfl rfl rfl

theorem flagWriteEnded_answersLeft (hturn : InTurn w) {change : FlagWrite}
    (hwrite : change ∈ w.runningWrites) (written : Except Failure Unit) :
    (w.flagWriteEnded change written).answersLeft < w.answersLeft := by
  have hqueued : w.flagWrites ≠ [] := by
    intro hnone
    rw [hturn.running, hnone] at hwrite
    cases hwrite
  have hlength : w.flagWrites.tail.length + 1 = w.flagWrites.length := by
    rw [List.length_tail]
    exact Nat.sub_add_cancel (List.length_pos_iff.mpr hqueued)
  have hrows := rowsLeft_flagWritten w.ui change.account written
  have honly : OnlyMail _ (w.flagWriteEnded change written) := writeOldestFlag_onlyMail _
  have hui : (w.flagWriteEnded change written).ui = w.ui.flagWritten change.account written :=
    honly.ui.trans (withUi_ui (flagWritten_selection w.ui change.account written))
  have hwrites : (w.flagWriteEnded change written).flagWrites = w.flagWrites.tail ∧
      (w.flagWriteEnded change written).listReads = w.listReads ∧
      (w.flagWriteEnded change written).contentReads = w.contentReads := by
    rw [flagWriteEnded, writeOldestFlag]
    split <;> exact ⟨rfl, rfl, rfl⟩
  rw [answersLeft, answersLeft, hui, hwrites.1, hwrites.2.1, hwrites.2.2]
  omega

/-- **Every answer leaves less.** -/
theorem answer_answersLeft (hturn : InTurn w) {event : WindowEvent} {animates : Bool}
    (hanswer : IsAnswer event) (henabled : w.Enabled event)
    (h : w.handle collationKey animates event = .ok w') : w'.answersLeft < w.answersLeft := by
  cases event with
  | rowsAnswered read answer =>
    obtain ⟨folder, hread⟩ := henabled
    have hless := takeRows_answersLeft hread answer
    change (if decide (read = w.shown.latestRead) then (w.takeRows read answer).2.render animates
      else .ok (w.takeRows read answer).2) = .ok w' at h
    split at h
    · exact (render_answersLeft h).trans_lt hless
    · cases h
      exact hless
  | folderListsAnswered read answer =>
    obtain ⟨accounts, hread, -⟩ := henabled
    have hless : (w.takeFolderLists collationKey read answer).2.answersLeft < w.answersLeft :=
      takeFolderLists_answersLeft hread answer
    change (if (w.takeFolderLists collationKey read answer).1 then (w.takeFolderLists collationKey
      read answer).2.render animates
      else .ok (w.takeFolderLists collationKey read answer).2) = .ok w' at h
    split at h
    · exact (render_answersLeft h).trans_lt hless
    · cases h
      exact hless
  | contentAnswered account identity answer =>
    cases h
    have hless : (w.contentReads.erase (account, identity)).length < w.contentReads.length := by
      rw [List.length_erase_of_mem henabled]
      exact Nat.sub_lt (List.length_pos_of_mem henabled) Nat.one_pos
    exact Nat.add_lt_add_left hless _
  | flagWriteEnded change written =>
    cases h
    exact flagWriteEnded_answersLeft hturn henabled written
  | _ => exact hanswer.elim

/-! ### Nothing but answers -/

/-- An answer is handled. -/
def Answers (collationKey : String → String) (w w' : MainWindow) : Prop :=
  ∃ event animates, IsAnswer event ∧ w.Enabled event ∧ w.handle collationKey animates event = .ok w'

theorem Answers.reached (h : Reached collationKey w) (hanswers : Answers collationKey w w') :
    Reached collationKey w' := by
  obtain ⟨event, animates, -, henabled, hhandle⟩ := hanswers
  exact h.tail ⟨event, animates, henabled, hhandle⟩

theorem Answers.answersLeft (h : Reached collationKey w)
    (hanswers : Answers collationKey w w') : w'.answersLeft < w.answersLeft := by
  obtain ⟨event, animates, hanswer, henabled, hhandle⟩ := hanswers
  exact answer_answersLeft h.inTurn hanswer henabled hhandle

/-- While the window waits, an answer may come. -/
theorem answers_of_works (h : Reached collationKey w) (hworks : w.worksOnStoredMail = true) :
    ∃ w', Answers collationKey w w' := by
  obtain ⟨event, hanswer, henabled⟩ : ∃ event, IsAnswer event ∧ w.Enabled event := by
    rcases (waits_for_pool h).mp hworks with hcontents | hlists | ⟨folder, hrows⟩ | hwrites
    · obtain ⟨⟨account, identity⟩, hmem⟩ := List.exists_mem_of_ne_nil _ hcontents
      exact ⟨.contentAnswered account identity (.ok none), trivial, hmem⟩
    · exact ⟨.folderListsAnswered w.folderLists.latestRead (.error ⟨.storedMailUnreadable, [], ""⟩),
        trivial, w.shownAccounts, hlists,
        fun lists heq => by cases heq⟩
    · exact ⟨.rowsAnswered w.shown.latestRead (.ok none), trivial, folder, hrows⟩
    · obtain ⟨change, hmem⟩ := List.exists_mem_of_ne_nil _ hwrites
      exact ⟨.flagWriteEnded change (.ok ()), trivial, hmem⟩
  obtain ⟨w', hhandle⟩ : ∃ w', w.handle collationKey false event = .ok w' :=
    handle_ok h.sane.mail henabled false
  exact ⟨w', event, false, hanswer, henabled, hhandle⟩

theorem answers_le (run : ℕ → MainWindow) (h : Reached collationKey (run 0)) (n : ℕ)
    (hrun : ∀ i < n, Answers collationKey (run i) (run (i + 1))) :
    n + (run n).answersLeft ≤ (run 0).answersLeft ∧
      Reached collationKey (run n) := by
  induction n with
  | zero => exact ⟨(Nat.zero_add _).le, h⟩
  | succ n ih =>
    obtain ⟨hle, hreached⟩ := ih fun i hi => hrun i (hi.trans (Nat.lt_succ_self n))
    have hlast := hrun n (Nat.lt_succ_self n)
    have hless := hlast.answersLeft hreached
    exact ⟨by omega, hlast.reached hreached⟩

theorem exists_rest (h : Reached collationKey w) :
    ∃ w', ReflTransGen (Answers collationKey) w w' ∧ w'.worksOnStoredMail = false := by
  induction hleft : w.answersLeft using Nat.strong_induction_on generalizing w with
  | _ left ih =>
    by_cases hworks : w.worksOnStoredMail = true
    · obtain ⟨next, hnext⟩ := answers_of_works h hworks
      obtain ⟨w', hrest, hidle⟩ :=
        ih next.answersLeft (hleft ▸ hnext.answersLeft h) (hnext.reached h) rfl
      exact ⟨w', hrest.head hnext, hidle⟩
    · exact ⟨w, .refl, Bool.eq_false_iff.mpr hworks⟩

/-- **Left alone, the window comes to rest.** From every state of every run, with nothing but
answers coming, in any order, another answer may come as long as the window waits for one, no more
come than were left at first, and so it waits for none in the end. -/
theorem comes_to_rest (h : Reached collationKey w) :
    (∀ w', ReflTransGen (Answers collationKey) w w' → w'.worksOnStoredMail = true → ∃ w'',
      Answers collationKey w' w'') ∧
      (∀ (run : ℕ → MainWindow) (n : ℕ), run 0 = w →
        (∀ i < n, Answers collationKey (run i) (run (i + 1))) → n ≤ w.answersLeft) ∧
      ∃ w', ReflTransGen (Answers collationKey) w w' ∧ w'.worksOnStoredMail = false := by
  refine ⟨fun w' hanswers hworks => ?_, fun run n hstart hrun => ?_, exists_rest h⟩
  · exact answers_of_works (invariant h (fun _ _ hreached hnext => hnext.reached hreached) hanswers)
      hworks
  · subst hstart
    exact (Nat.le_add_right _ _).trans (answers_le run h n hrun).1

/-- While a flag is written and a content read. -/
theorem comes_to_rest_changing : ∃ w, Reached id w ∧ w.flagWrites = [readChange] ∧
    w.contentReads ≠ [] ∧ w.worksOnStoredMail = true ∧ (∃ w', Answers id w w') ∧
    ∃ w', ReflTransGen (Answers id) w w' ∧ w'.worksOnStoredMail = false := by
  obtain ⟨w, hw, -, hwrites, hreads⟩ := changing_reached
  have hworks : w.worksOnStoredMail = true := by simp [worksOnStoredMail, hwrites]
  obtain ⟨hgoesOn, -, hrests⟩ := comes_to_rest hw
  exact ⟨w, hw, hwrites, hreads, hworks, hgoesOn w .refl hworks, hrests⟩

end MainWindow

end Mailbag.Window
