import Mailbag.Window.ShownMailbox

/-!
# No stored change stays unseen

The rows the window holds are out of date from the report of a change until a read that
starts after it has answered. The window keeps that no longer than a read runs: while one
runs, either it started after every such report, or one more read is due.

## What is proved

* `Fresh.step` — every event keeps the rows, or the read that runs, as new as the last
  reported change, unless one more read is due.
* `stored_changes_seen` — the rows held while no read runs come from a read that started
  after the last change reported while their mailbox was selected.
-/

namespace Mailbag.Window

open Cycle Interaction Loads Relation Store

/-! ### Reading the log -/

/-- A change of the mailbox's account was reported, while it was selected, since its read `read`
started. -/
def ChangedSince (folder : FolderRef) (read : ℕ) : List Event → Prop
  | [] => False
  | .changed account selected :: before =>
    (account = folder.account ∧ selected = some folder) ∨ ChangedSince folder read before
  | .started read' folder' :: before =>
    (read', folder') ≠ (read, folder) ∧ ChangedSince folder read before
  | .kept .. :: before => ChangedSince folder read before

/-- The rows kept last are those that the mailbox's read `read` found. -/
def KeptFrom (folder : FolderRef) (read : ℕ) (rows : Option (List MessageListRow))
    (log : List Event) : Prop :=
  ∃ later before, log = later ++ .kept read rows :: before ∧
    (∀ read' rows', .kept read' rows' ∉ later) ∧
    .started read folder ∈ before

/-- What a read's number says when it starts and when its rows are kept. -/
def InOrder : Event → List Event → Prop
  | .started read _, before => ∀ read' folder, .started read' folder ∈ before → read' < read
  | .kept read _, before =>
    (∀ read' rows, .kept read' rows ∈ before → read' < read) ∧
    ∀ read' folder, .started read' folder ∈ before → read' ≤ read
  | .changed .., _ => True

theorem KeptFrom.cons {folder : FolderRef} {read : ℕ} {rows : Option (List MessageListRow)}
    {log : List Event} {event : Event} (h : KeptFrom folder read rows log)
    (hevent : ∀ read' rows', event ≠ .kept read' rows') :
    KeptFrom folder read rows (event :: log) := by
  obtain ⟨later, before, rfl, hlast, hstarted⟩ := h
  refine ⟨event :: later, before, rfl, fun read' rows' hmem => ?_, hstarted⟩
  rcases List.mem_cons.mp hmem with heq | hmem
  · exact hevent read' rows' heq.symm
  · exact hlast read' rows' hmem

theorem started_after {folder : FolderRef} {read : ℕ} {log later before : List Event}
    (h : ¬ ChangedSince folder read log)
    (hlog : log = later ++ .changed folder.account (some folder) :: before) :
    .started read folder ∈ later := by
  induction later generalizing log with
  | nil =>
    subst hlog
    exact absurd (.inl ⟨rfl, rfl⟩) h
  | cons event later ih =>
    subst hlog
    cases event with
    | changed account selected =>
      exact List.mem_cons_of_mem _ (ih (fun hrest => h (.inr hrest)) rfl)
    | kept =>
      have hrest : ¬ ChangedSince folder read (later ++ .changed folder.account (some folder) ::
          before) := h
      exact List.mem_cons_of_mem _ (ih hrest rfl)
    | started read' folder' =>
      by_cases hsame : (read', folder') = (read, folder)
      · cases hsame
        exact List.mem_cons_self
      · exact List.mem_cons_of_mem _ (ih (fun hrest => h ⟨hsame, hrest⟩) rfl)

/-! ### What holds of the reads -/

namespace WindowUi

/-- What holds of the reads and of the rows they found. -/
structure Reads (w : WindowUi) : Prop where
  /-- The latest read has the highest number. -/
  le : ∀ read folder, .started read folder ∈ w.log → read ≤ w.shown.latestRead
  /-- A read on the pool was started. -/
  started : ∀ read folder, (read, folder) ∈ w.reads → .started read folder ∈ w.log
  /-- A read whose rows were kept has answered. -/
  kept : ∀ read rows, .kept read rows ∈ w.log → read ≤ w.shown.latestRead ∧
    ∀ folder, (read, folder) ∉ w.reads
  /-- Reads start and are kept in the order of their numbers. -/
  order : Log.Every InOrder w.log
  /-- The read that the window waits for runs. -/
  reading : w.shown.isReading = true → ∃ folder, w.shown.folder = some folder ∧
    (w.shown.latestRead, folder) ∈ w.reads
  /-- The window waits for the latest read while it runs. -/
  running : ∀ folder, (w.shown.latestRead, folder) ∈ w.reads → w.shown.isReading = true ∧
    w.shown.folder = some folder
  /-- The rows read again stay meanwhile. -/
  rereading : w.shown.rereading = true → ∃ rows, w.shown.stored = .read rows
  /-- The rows on screen are those kept last. -/
  held : ∀ rows, w.shown.stored = .read rows → ∃ folder read, w.shown.folder = some folder ∧
    KeptFrom folder read rows w.log
  /-- One more read is due only while one runs. -/
  due : w.shown.readDue = true → w.shown.isReading = true

/-- What the window has read is of the selected mailbox. -/
def Placed (w : WindowUi) : Prop :=
  ∀ folder, w.shown.folder = some folder → w.selectedMailbox = some folder

/-- The rows are as new as the last reported change, or a read that is as new runs, or one more is
due. -/
structure Fresh (w : WindowUi) : Prop extends Reads w where
  /-- What the window has read is of the selected mailbox. -/
  placed : Placed w
  /-- The read that runs is as new, or one more is due. -/
  current : w.shown.isReading = true → w.shown.readDue = true ∨
    ∀ folder, w.shown.folder = some folder → ¬ ChangedSince folder w.shown.latestRead w.log
  /-- The rows are as new when no read runs. -/
  seen : ∀ rows, w.shown.stored = .read rows → w.shown.isReading = false →
    ∃ folder read, w.shown.folder = some folder ∧ KeptFrom folder read rows w.log ∧
      ¬ ChangedSince folder read w.log

variable {w : WindowUi}

/-- A read starts: what is said of it is about the new number. -/
theorem Reads.spawn (h : Reads w) {shown : ShownMailbox} {folder : FolderRef}
    (hlatest : shown.latestRead = w.shown.latestRead + 1) (hfolder : shown.folder = some folder)
    (hreading : shown.isReading = true)
    (hrereading : shown.rereading = true → ∃ rows, shown.stored = .read rows)
    (hheld : ∀ rows, shown.stored = .read rows → w.shown.stored = .read rows ∧ w.shown.folder =
      some folder) : Reads ({ w with shown := shown }.spawnRowsRead folder) where
  le read folder' hmem := by
    rcases List.mem_cons.mp hmem with heq | hmem
    · cases heq
      exact le_rfl
    · exact (h.le read folder' hmem).trans (hlatest ▸ Nat.le_succ _)
  started read folder' hmem := by
    rcases List.mem_append.mp hmem with hmem | hmem
    · exact List.mem_cons_of_mem _ (h.started read folder' hmem)
    · cases List.mem_singleton.mp hmem
      exact List.mem_cons_self
  kept read rows hmem := by
    have hmem : .kept read rows ∈ w.log := (List.mem_cons.mp hmem).resolve_left (by simp)
    obtain ⟨hle, hnot⟩ := h.kept read rows hmem
    refine ⟨hle.trans (hlatest ▸ Nat.le_succ _), fun folder' hread => ?_⟩
    rcases List.mem_append.mp hread with hread | hread
    · exact hnot folder' hread
    · have hnumber : read = shown.latestRead := congrArg Prod.fst (List.mem_singleton.mp hread)
      omega
  order := ⟨fun read' folder' hmem => by
    show read' < shown.latestRead
    exact hlatest ▸ Nat.lt_succ_of_le (h.le read' folder' hmem), h.order⟩
  reading _ := ⟨folder, hfolder, List.mem_append_right _ List.mem_cons_self⟩
  running folder' hmem := by
    refine ⟨hreading, ?_⟩
    rcases List.mem_append.mp hmem with hmem | hmem
    · have hle := h.le _ _ (h.started _ _ hmem)
      have hnumber : shown.latestRead ≤ w.shown.latestRead := hle
      omega
    · have hsame : folder' = folder := congrArg Prod.snd (List.mem_singleton.mp hmem)
      exact hsame ▸ hfolder
  rereading := hrereading
  held rows hrows := by
    obtain ⟨hstored, hplace⟩ := hheld rows hrows
    obtain ⟨folder', read, hfolder', hkept⟩ := h.held rows hstored
    exact ⟨folder', read, hfolder.trans (hplace.symm.trans hfolder'), hkept.cons (by simp)⟩
  due _ := hreading

theorem not_changedSince_started (folder : FolderRef) (read : ℕ) (log : List Event) :
    ¬ ChangedSince folder read (.started read folder :: log) := fun h => h.1 rfl

theorem Reads.readShownMailbox (h : Reads w) {folder : FolderRef}
    (hselected : w.selectedMailbox = some folder) : Fresh w.readShownMailbox := by
  unfold WindowUi.readShownMailbox
  rw [hselected]
  have hreading : (w.shown.startRead folder).isReading = true := rfl
  refine ⟨h.spawn rfl rfl hreading (fun hre => by cases hre) (fun rows hrows => by cases hrows), ?_,
    fun _ => ?_, ?_⟩
  · intro folder' hfolder'
    cases hfolder'
    exact hselected
  · refine .inr fun folder' hfolder' => ?_
    cases hfolder'
    exact not_changedSince_started _ _ _
  · intro rows hrows
    cases hrows

/-- A mailbox whose rows the window waits for, or has. -/
theorem Reads.holds (h : Reads w) (hplaced : Placed w) {folder : FolderRef}
    (hselected : w.selectedMailbox = some folder) (hreading : w.shown.isReading = true) :
    w.shown.holds folder = true := by
  obtain ⟨folder', hfolder', -⟩ := h.reading hreading
  obtain rfl : folder' = folder := Option.some.inj ((hplaced folder' hfolder').symm.trans hselected)
  unfold ShownMailbox.holds
  cases hrereading : w.shown.rereading with
  | true =>
    obtain ⟨rows, hrows⟩ := h.rereading hrereading
    simp [hfolder', hrows]
  | false =>
    rw [ShownMailbox.isReading, hrereading, Bool.false_or] at hreading
    cases hstored : w.shown.stored <;> simp_all

/-- Without a selected mailbox the window has nothing, and waits for nothing. -/
theorem Reads.nothing (h : Reads w) (hplaced : Placed w)
    (hselected : w.selectedMailbox = none) : Fresh w := by
  have hfolder : w.shown.folder = none := by
    cases hfolder : w.shown.folder with
    | none => rfl
    | some folder => cases hselected.symm.trans (hplaced folder hfolder)
  refine ⟨h, hplaced, fun hreading => ?_, fun rows hrows _ => ?_⟩
  · obtain ⟨folder, hsome, -⟩ := h.reading hreading
    cases hfolder.symm.trans hsome
  · obtain ⟨folder, read, hsome, -⟩ := h.held rows hrows
    cases hfolder.symm.trans hsome

/-- **A read again makes up for every report**: a read starts, or one more becomes due. -/
theorem Reads.readShownMailboxAgain (h : Reads w) (hplaced : Placed w) :
    Fresh w.readShownMailboxAgain := by
  unfold WindowUi.readShownMailboxAgain
  cases hselected : w.selectedMailbox with
  | none => exact h.nothing hplaced hselected
  | some folder =>
    dsimp only
    split
    · exact h.readShownMailbox hselected
    · next hholds =>
      have hfolder : w.shown.folder = some folder := by
        simp only [ShownMailbox.holds, Bool.not_eq_true', Bool.not_eq_false, Bool.and_eq_true,
          decide_eq_true_eq] at hholds
        exact hholds.1
      split
      · next hreading =>
        -- One more read is due.
        refine ⟨⟨h.le, h.started, h.kept, h.order, h.reading, h.running, h.rereading, h.held,
          fun _ => hreading⟩, hplaced,
          fun _ => .inl rfl, fun rows _ hnot => ?_⟩
        have hnot : w.shown.isReading = false := hnot
        exact absurd (hreading.symm.trans hnot) Bool.noConfusion
      · next hreading =>
        -- The rows stay while they are read again.
        have hstored : ∃ rows, w.shown.stored = .read rows := by
          simp only [ShownMailbox.holds, Bool.not_eq_true', Bool.not_eq_false,
            Bool.and_eq_true] at hholds
          simp only [ShownMailbox.isReading, Bool.or_eq_true, not_or] at hreading
          cases hstored : w.shown.stored <;> simp_all
        have hreading' : w.shown.startReread.isReading = true := by
          simp [ShownMailbox.isReading, ShownMailbox.startReread]
        refine ⟨h.spawn rfl hfolder hreading' (fun _ => hstored)
          (fun rows hrows => ⟨hrows, hfolder⟩), ?_, fun _ => ?_,
          fun rows _ hnot => absurd (hreading'.symm.trans hnot) Bool.noConfusion⟩
        · intro folder' hfolder'
          exact hplaced folder' hfolder'
        · refine .inr fun folder' hfolder' => ?_
          obtain rfl : folder' = folder := Option.some.inj (hfolder'.symm.trans hfolder)
          exact not_changedSince_started _ _ _

theorem Reads.report (h : Reads w) (account : AccountId) : Reads (w.report account) where
  le read folder hmem := h.le read folder ((List.mem_cons.mp hmem).resolve_left (by simp))
  started read folder hmem := List.mem_cons_of_mem _ (h.started read folder hmem)
  kept read rows hmem := h.kept read rows ((List.mem_cons.mp hmem).resolve_left (by simp))
  order := ⟨trivial, h.order⟩
  reading := h.reading
  running := h.running
  rereading := h.rereading
  held rows hrows := by
    obtain ⟨folder, read, hfolder, hkept⟩ := h.held rows hrows
    exact ⟨folder, read, hfolder, hkept.cons (by simp)⟩
  due := h.due

theorem Fresh.report (h : Fresh w) {account : AccountId}
    (hother : ∀ folder, w.selectedMailbox = some folder → folder.account ≠ account) :
    Fresh (w.report account) := by
  have hunseen : ∀ folder read, w.shown.folder = some folder → ¬ ChangedSince folder read w.log →
      ¬ ChangedSince folder read (w.report account).log := by
    rintro folder read hfolder hnot (⟨haccount, -⟩ | hrest)
    · exact hother folder (h.placed folder hfolder) haccount.symm
    · exact hnot hrest
  refine ⟨h.toReads.report account, h.placed, fun hreading => ?_, fun rows hrows hnot => ?_⟩
  · refine (h.current hreading).imp_right fun hcurrent folder hfolder => ?_
    exact hunseen folder _ hfolder (hcurrent folder hfolder)
  · obtain ⟨folder, read, hfolder, hkept, hseen⟩ := h.seen rows hrows hnot
    exact ⟨folder, read, hfolder, hkept.cons (by simp), hunseen folder read hfolder hseen⟩

/-- A change is reported, and the mailbox read again when it is of the account. -/
theorem Fresh.reportAndRead (h : Fresh w) (account : AccountId) :
    Fresh (if w.selectedMailbox.any
      (·.account = account) then (w.report account).readShownMailboxAgain
        else w.report account) := by
  split
  · exact (h.toReads.report account).readShownMailboxAgain h.placed
  · next hany =>
    refine h.report fun folder hselected haccount => hany ?_
    simp [hselected, haccount]

theorem Reads.forget (h : Reads w) (selection : Option Selection) :
    Fresh { w with selection := selection, shown := w.shown.forget } where
  le read folder hmem := (h.le read folder hmem).trans (Nat.le_succ _)
  started := h.started
  kept read rows hmem := ⟨(h.kept read rows hmem).1.trans (Nat.le_succ _),
    (h.kept read rows hmem).2⟩
  order := h.order
  reading hreading := by cases hreading
  running folder hmem := by
    have hle : w.shown.latestRead + 1 ≤ w.shown.latestRead := h.le _ _ (h.started _ _ hmem)
    omega
  rereading hrereading := by cases hrereading
  held rows hrows := by cases hrows
  due hdue := by cases hdue
  placed folder hfolder := by cases hfolder
  current hreading := by cases hreading
  seen rows hrows := by cases hrows

theorem Fresh.select (h : Fresh w) (selection : Option Selection) : Fresh (w.select selection) := by
  have hreads : Reads { w with selection := selection } :=
    ⟨h.le, h.started, h.kept, h.order, h.reading, h.running, h.rereading, h.held, h.due⟩
  unfold WindowUi.select WindowUi.showSelection
  split
  · next folder hselected =>
    split
    · next hholds =>
      -- The mailbox is the one on screen.
      have hfolder : w.shown.folder = some folder := by
        simp only [ShownMailbox.holds, Bool.and_eq_true, decide_eq_true_eq] at hholds
        exact hholds.1
      refine ⟨hreads, fun folder' hfolder' => ?_, h.current, h.seen⟩
      rw [hselected, ← hfolder]
      exact hfolder'
    · exact hreads.readShownMailbox hselected
  · exact h.toReads.forget selection

theorem Fresh.startLoad (h : Fresh w) : Fresh w.startLoad := by
  unfold WindowUi.startLoad ShownMailbox.forgetReadFailure
  split
  · next failure hstored =>
    have hreading : ShownMailbox.isReading { w.shown with stored := .notRead } =
        w.shown.isReading := by
      simp [ShownMailbox.isReading, hstored]
    refine ⟨⟨h.le, h.started, h.kept, h.order, ?_, ?_, fun hrereading => ?_, fun rows hrows =>
      (by cases hrows), ?_⟩, h.placed, ?_,
      fun rows hrows => (by cases hrows)⟩
    · exact fun hread => h.reading (hreading ▸ hread)
    · exact fun folder hmem => ⟨hreading.trans (h.running folder hmem).1, (h.running folder hmem).2⟩
    · obtain ⟨rows, hrows⟩ := h.rereading hrereading
      cases hstored.symm.trans hrows
    · exact fun hdue => hreading.trans (h.due hdue)
    · exact fun hread => h.current (hreading ▸ hread)
  · exact h

theorem Fresh.applyAccountUpdate (h : Fresh w) (isVisible : AccountId → Bool) :
    Fresh (w.applyAccountUpdate isVisible) := by
  unfold WindowUi.applyAccountUpdate ShownMailbox.forgetExcluded
  split
  · exact h.toReads.forget _
  · next hany =>
    refine ⟨⟨h.le, h.started, h.kept, h.order, h.reading, h.running, h.rereading, h.held, h.due⟩,
      fun folder hfolder => ?_,
      h.current, h.seen⟩
    -- The mailbox's account is shown, so the selection stays.
    have hfolder' : w.shown.folder = some folder := hfolder
    have hvisible : isVisible folder.account = true := by simpa [hfolder'] using hany
    have hselected := h.placed folder hfolder'
    unfold WindowUi.selectedMailbox at hselected ⊢
    split at hselected
    · next folder' hselection =>
      cases hselected
      have hkept : w.selection.filter (fun selection => isVisible selection.accountId) =
          some (.mailbox folder) := by
        rw [hselection, Option.filter_some, if_pos]
        exact hvisible
      simp only [hkept]
    · cases hselected

theorem Fresh.dropped (h : Fresh w) {read : ℕ} (hread : read ≠ w.shown.latestRead) :
    Fresh { w with reads := w.reads.filter (·.1 ≠ read) } where
  le := h.le
  started read' folder hmem := h.started read' folder (List.mem_of_mem_filter hmem)
  kept read' rows hmem := ⟨(h.kept read' rows hmem).1, fun folder hread' =>
    (h.kept read' rows hmem).2 folder (List.mem_of_mem_filter hread')⟩
  order := h.order
  reading hreading := by
    obtain ⟨folder, hfolder, hmem⟩ := h.reading hreading
    exact ⟨folder, hfolder, List.mem_filter.mpr ⟨hmem, by simpa using hread.symm⟩⟩
  running folder hmem := h.running folder (List.mem_of_mem_filter hmem)
  rereading := h.rereading
  held := h.held
  due := h.due
  placed := h.placed
  current := h.current
  seen := h.seen

/-- The window after the latest read found rows, with no more read due. -/
def keep (w : WindowUi) (rows : Option (List MessageListRow)) : WindowUi :=
  { w with
    reads := w.reads.filter (·.1 ≠ w.shown.latestRead)
    shown := { w.shown with rereading := false, stored := .read rows, readDue := false }
    log := .kept w.shown.latestRead rows :: w.log }

/-- The window after the latest read failed, with no more read due. -/
def fail (w : WindowUi) (failure : Failure) : WindowUi :=
  { w with
    reads := w.reads.filter (·.1 ≠ w.shown.latestRead)
    shown := { w.shown with rereading := false, stored := .readFailed failure, readDue := false } }

theorem latest_answered {w : WindowUi} {folder : FolderRef} :
    (w.shown.latestRead, folder) ∉ w.reads.filter (·.1 ≠ w.shown.latestRead) := fun hmem => by
  simpa using (List.mem_filter.mp hmem).2

/-- The rows that the latest read found are kept. -/
theorem Reads.keep (h : Reads w) {folder : FolderRef}
    (hmem : (w.shown.latestRead, folder) ∈ w.reads) (rows : Option (List MessageListRow)) :
    Reads (w.keep rows) where
  le read folder' hstarted := h.le read folder' ((List.mem_cons.mp hstarted).resolve_left (by simp))
  started read folder' hread :=
    List.mem_cons_of_mem _ (h.started read folder' (List.mem_of_mem_filter hread))
  kept read rows' hkept := by
    rcases List.mem_cons.mp hkept with heq | hkept
    · cases heq
      exact ⟨le_rfl, fun _ => latest_answered⟩
    · exact ⟨(h.kept read rows' hkept).1, fun folder' hread => (h.kept read rows' hkept).2 folder'
        (List.mem_of_mem_filter hread)⟩
  order := by
    refine ⟨⟨fun read rows' hkept => ?_, h.le⟩, h.order⟩
    obtain ⟨hle, hnot⟩ := h.kept read rows' hkept
    exact lt_of_le_of_ne hle fun heq => hnot folder (heq ▸ hmem)
  reading hreading := by cases hreading
  running folder' hread := absurd hread latest_answered
  rereading hrereading := by cases hrereading
  held rows' hrows := by
    cases hrows
    exact ⟨folder, _, (h.running folder hmem).2, [], w.log, rfl, fun _ _ => List.not_mem_nil,
      h.started _ _ hmem⟩
  due hdue := by cases hdue

theorem Reads.fail (h : Reads w) (failure : Failure) : Reads (w.fail failure) where
  le := h.le
  started read folder' hread := h.started read folder' (List.mem_of_mem_filter hread)
  kept read rows hkept :=
    ⟨(h.kept read rows hkept).1, fun folder' hread => (h.kept read rows hkept).2 folder'
      (List.mem_of_mem_filter hread)⟩
  order := h.order
  reading hreading := by cases hreading
  running folder' hread := absurd hread latest_answered
  rereading hrereading := by cases hrereading
  held rows hrows := by cases hrows
  due hdue := by cases hdue

theorem readAnswered_latest (w : WindowUi)
    (answer : Except Failure (Option (List MessageListRow))) :
    w.readAnswered w.shown.latestRead answer =
      let answered :=
  match answer with
        | .ok rows => w.keep rows
        | .error failure => w.fail failure
      if w.shown.readDue then answered.readShownMailboxAgain else answered := by
  unfold WindowUi.readAnswered ShownMailbox.finishRead
  rw [if_neg (by simp)]
  cases hdue : w.shown.readDue <;> cases answer <;> simp [WindowUi.keep, WindowUi.fail]

/-- **The latest read answers**: its rows are as new as every report, or the read that was due
starts. -/
theorem Fresh.readAnswered (h : Fresh w) {read : ℕ} {folder : FolderRef}
    (hmem : (read, folder) ∈ w.reads)
    (answer : Except Failure (Option (List MessageListRow))) :
    Fresh (w.readAnswered read answer) := by
  by_cases hread : read = w.shown.latestRead
  · subst hread
    obtain ⟨hreading, hfolder⟩ := h.running folder hmem
    rw [readAnswered_latest]
    cases answer with
    | ok rows =>
      dsimp only
      split
      · exact (h.keep hmem rows).readShownMailboxAgain h.placed
      · next hdue =>
        refine ⟨h.keep hmem rows, h.placed, fun hreading => (by cases hreading),
          fun rows' hrows _ => ?_⟩
        cases hrows
        refine ⟨folder, w.shown.latestRead, hfolder,
          ⟨[], w.log, rfl, fun _ _ => List.not_mem_nil, h.started _ _ hmem⟩, ?_⟩
        exact (h.current hreading).resolve_left hdue folder hfolder
    | error failure =>
      dsimp only
      split
      · exact (h.fail failure).readShownMailboxAgain h.placed
      · exact ⟨h.fail failure, h.placed, fun hreading => (by cases hreading), fun rows hrows =>
          (by cases hrows)⟩
  · unfold WindowUi.readAnswered ShownMailbox.finishRead
    rw [if_pos hread]
    exact h.dropped hread

/-- **Every event keeps the rows as new as the reports**, or a read that is as new runs or is
due. -/
theorem Fresh.step {w' : WindowUi} (h : Fresh w) (hstep : Step w w') : Fresh w' := by
  cases hstep with
  | select selection => exact h.select selection
  | storeChanged account => exact h.reportAndRead account
  | finished target result =>
    unfold WindowUi.finishLoad
    split
    · split
      · next folder hselected =>
        split
        · exact h
        · exact h.toReads.readShownMailbox hselected
      · exact h
    · next folder _ => exact h.reportAndRead folder.account
    · exact h
  | flagWritten account written =>
    cases written with
    | ok => exact (h.toReads.report account).readShownMailboxAgain h.placed
    | error => exact h
  | startLoad => exact h.startLoad
  | readStoredMail =>
    cases hselected : w.selectedMailbox with
    | none =>
      unfold WindowUi.readShownMailbox
      rw [hselected]
      exact h
    | some folder => exact h.toReads.readShownMailbox hselected
  | readAnswered hmem answer => exact h.readAnswered hmem answer
  | accountUpdate isVisible => exact h.applyAccountUpdate isVisible
  | folderLists gone =>
    unfold WindowUi.showFolderLists
    split
    · exact h.toReads.forget none
    · exact h

theorem fresh_start : Fresh .start where
  le read folder hmem := by cases hmem
  started read folder hmem := by cases hmem
  kept read rows hmem := by cases hmem
  order := trivial
  reading hreading := by cases hreading
  running folder hmem := by cases hmem
  rereading hrereading := by cases hrereading
  held rows hrows := by cases hrows
  due hdue := by cases hdue
  placed folder hfolder := by cases hfolder
  current hreading := by cases hreading
  seen rows hrows := by cases hrows

theorem fresh_reached (h : ReflTransGen Step .start w) : Fresh w :=
  invariant fresh_start (fun _ _ => Fresh.step) h

/-- While a read runs, a read again starts none. -/
theorem Fresh.reads_again (h : Fresh w) (hreading : w.shown.isReading = true)
    (account : AccountId) : ((w.report account).readShownMailboxAgain).reads = w.reads := by
  have hselected' : (w.report account).selectedMailbox = w.selectedMailbox := rfl
  unfold WindowUi.readShownMailboxAgain
  cases hselected : w.selectedMailbox with
  | none =>
    rw [hselected', hselected]
    rfl
  | some folder =>
    have hholds : (w.report account).shown.holds folder = true :=
      h.holds h.placed hselected hreading
    have hreading' : (w.report account).shown.isReading = true := hreading
    rw [hselected', hselected]
    dsimp only
    rw [hholds, hreading']
    rfl

theorem length_readShownMailboxAgain (w : WindowUi) :
    w.readShownMailboxAgain.reads.length ≤ w.reads.length + 1 := by
  unfold WindowUi.readShownMailboxAgain WindowUi.readShownMailbox WindowUi.spawnRowsRead
  cases w.selectedMailbox with
  | none => exact Nat.le_succ _
  | some folder =>
    dsimp only
    split
    · simp
    · split
      · exact Nat.le_succ _
      · simp

/-- Reads do not pile up: a read that answers is followed by one more at most. -/
theorem length_readAnswered {read : ℕ} {folder : FolderRef} (hmem : (read, folder) ∈ w.reads)
    (answer : Except Failure (Option (List MessageListRow))) :
    (w.readAnswered read answer).reads.length ≤ w.reads.length := by
  have hanswered : (w.reads.filter (·.1 ≠ read)).length < w.reads.length :=
    List.length_filter_lt_length_iff_exists.mpr ⟨(read, folder), hmem, by simp⟩
  by_cases hread : read = w.shown.latestRead
  · subst hread
    rw [readAnswered_latest]
    cases answer with
    | ok rows =>
      dsimp only
      split
      · exact (length_readShownMailboxAgain (w.keep rows)).trans hanswered
      · exact hanswered.le
    | error failure =>
      dsimp only
      split
      · exact (length_readShownMailboxAgain (w.fail failure)).trans hanswered
      · exact hanswered.le
  · unfold WindowUi.readAnswered ShownMailbox.finishRead
    rw [if_pos hread]
    exact hanswered.le

/-- **No stored change stays unseen.** When a mailbox is selected, its rows are held and no read of
it runs, the rows come from a read of it that started after the last change of its account that was
reported while it was selected. The window waits for a read only while it runs. Rows are kept of the
newest read only, in the order of the reads. One more read is due only while one runs: a report then
starts none, and an answer one at most. -/
theorem stored_changes_seen (h : ReflTransGen Step .start w) :
    (∀ folder, w.selectedMailbox = some folder → w.shown.holds folder = true →
      w.shown.isReading = false →
      ∃ rows read later before, w.shown.stored = .read rows ∧
        w.log = later ++ .kept read rows :: before ∧
        (∀ read' rows', .kept read' rows' ∉ later) ∧ .started read folder ∈ before ∧
        ∀ later' before', w.log = later' ++ .changed folder.account (some folder) :: before' →
          .started read folder ∈ later') ∧
    (w.shown.isReading = true → ∃ folder, w.selectedMailbox = some folder ∧
      (w.shown.latestRead, folder) ∈ w.reads) ∧
    (∀ later before read rows, w.log = later ++ .kept read rows :: before →
      (∀ read' rows', .kept read' rows' ∈ before → read' < read) ∧
        ∀ read' folder, .started read' folder ∈ before → read' ≤ read) ∧
    (w.shown.readDue = true → w.shown.isReading = true) ∧
    (w.shown.isReading = true → ∀ account, (w.showChangedStore account).reads = w.reads ∧
      (w.flagWritten account (.ok ())).reads = w.reads ∧ ∀ folder incomplete,
        (w.finishLoad (.mailbox folder) (.stored incomplete)).reads = w.reads) ∧
    ∀ read folder answer, (read, folder) ∈ w.reads →
      (w.readAnswered read answer).reads.length ≤ w.reads.length := by
  have hfresh := fresh_reached h
  have hreport : w.shown.isReading = true →
      ∀ account, (w.showChangedStore account).reads = w.reads := by
    intro hreading account
    unfold WindowUi.showChangedStore
    dsimp only
    split
    · exact hfresh.reads_again hreading account
    · rfl
  refine ⟨fun folder hselected hholds hreading => ?_, fun hreading => ?_,
    fun later before read rows hlog => ?_, hfresh.due,
    fun hreading account => ⟨hreport hreading account, hfresh.reads_again hreading account,
      fun folder _ =>
      hreport hreading folder.account⟩, fun read folder answer hmem =>
        length_readAnswered hmem answer⟩
  · obtain ⟨rows, hrows⟩ : ∃ rows, w.shown.stored = .read rows := by
      simp only [ShownMailbox.holds, Bool.and_eq_true] at hholds
      simp only [ShownMailbox.isReading, Bool.or_eq_false_iff] at hreading
      cases hstored : w.shown.stored <;> simp_all
    obtain ⟨folder', read, hfolder', ⟨later, before, hlog, hlast, hstarted⟩, hseen⟩ :=
      hfresh.seen rows hrows hreading
    obtain rfl : folder' = folder :=
      Option.some.inj ((hfresh.placed folder' hfolder').symm.trans hselected)
    exact ⟨rows, read, later, before, hrows, hlog, hlast, hstarted, fun later' before' hlog' =>
      started_after hseen hlog'⟩
  · obtain ⟨folder, hfolder, hmem⟩ := hfresh.reading hreading
    exact ⟨folder, hfresh.placed folder hfolder, hmem⟩
  · exact hfresh.order.at hlog

/-! ### A change reported while the mailbox is read -/

/-- The mailbox. -/
def inbox : FolderRef := ⟨⟨"imap", imap_ne_empty⟩, "INBOX"⟩

/-- It is selected, a change is reported while it is read, and both reads have answered. -/
def readTwice : WindowUi :=
  (((start.select (some (.mailbox inbox))).showChangedStore inbox.account).readAnswered 1
    (.ok none)).readAnswered 2 (.ok (some []))

/-- The rows come from the second read, which started after the report. -/
theorem stored_changes_seen_readTwice :
    ∃ rows read later before, readTwice.shown.stored = .read rows ∧
    readTwice.log = later ++ .kept read rows :: before ∧
    (∀ read' rows', .kept read' rows' ∉ later) ∧
    .started read inbox ∈ before ∧ ∀ later' before',
      readTwice.log = later' ++ .changed inbox.account (some inbox) :: before' →
      .started read inbox ∈ later' := by
  have hfirst : (1, inbox) ∈
      ((start.select (some (.mailbox inbox))).showChangedStore inbox.account).reads := by
    decide
  have hsecond : (2, inbox) ∈
      (((start.select (some (.mailbox inbox))).showChangedStore inbox.account).readAnswered 1
        (.ok none)).reads := by
    decide
  have hread : ReflTransGen Step start readTwice :=
    (((ReflTransGen.single (.select _)).tail (.storeChanged _)).tail (.readAnswered hfirst _)).tail
      (.readAnswered hsecond _)
  exact (stored_changes_seen hread).1 inbox (by decide) (by decide) (by decide)

end WindowUi
end Mailbag.Window
