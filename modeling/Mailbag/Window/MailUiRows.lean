import Mailbag.Window.MailUiActs

/-!
# Whose rows the list shows, also while a change of it waits

The list shows rows of one folder. Rows of another folder are shown at once, so while a change
waits the list has the rows it had.

## What is proved

* `MailUi.showRows_cases`, `MailUi.removeInWindow_cases` — what showing rows and taking one out do
  before the list is made to show what is left.
* `MailUi.showRows_listedRows` — whose rows the list shows then.
* `MailUi.act_waits` — after an action whose change waits, the list has the rows it had.
* `MailUi.Draws.act` — so each row in the list shows a row of the folder shown.
-/

namespace Mailbag.Window

open Collections List

namespace MailUi

variable {ui ui' ui'' : MailUi} {folder : FolderRef} {stored : StoredRows} {change : ListChange}
  {animates : Bool}

/-- The list has the row objects it had, of the folder it had; they may open or close. -/
structure SameRows (ui ui' : MailUi) : Prop where
  /-- The list. -/
  items : ui'.items = ui.items
  /-- The row objects. -/
  alike : ui'.objects.Alike ui.objects
  /-- The folder. -/
  folder : ui'.listedRows.map Prod.fst = ui.listedRows.map Prod.fst

theorem SameRows.refl (ui : MailUi) : ui.SameRows ui := ⟨rfl, .refl, rfl⟩

theorem SameRows.trans (h : ui.SameRows ui') (h' : ui'.SameRows ui'') : ui.SameRows ui'' :=
  ⟨h'.items.trans h.items, h'.alike.trans h.alike, h'.folder.trans h.folder⟩

/-! ### What an action does before the list shows what is left -/

theorem openAt_rows (ui : MailUi) (position : ℕ) : ui.SameRows (ui.openAt position) := by
  rcases openAt_cases ui position with heq | ⟨item, folder, stored, -, -, -, heq⟩ <;> rw [heq] <;>
    exact ⟨rfl, .refl, rfl⟩

/-- Rows of the same read change nothing. Others are shown, at once unless the folder stays. -/
theorem showRows_cases (hready : ui.Ready) (h : ui.showRows folder stored animates = .ok ui') :
    (ui' = ui ∧ ∃ stored', ui.listedRows = some (folder, stored') ∧
      stored'.allocation = stored.allocation) ∨
    ∃ ui₁ change, ui₁.Ready ∧ ui₁.listedRows = some (folder, stored) ∧
      (ui₁.log = ui.log ∨ ui₁.log = .closed :: ui.log) ∧ (change = .atOnce ∨ ui.SameRows ui₁) ∧
      ui₁.updateShown change animates = .ok ui' := by
  rw [MailUi.showRows] at h
  dsimp only at h
  split at h
  · rename_i hsame
    cases h
    obtain ⟨⟨folder', stored'⟩, hlisted, heq⟩ := (Option.any_eq_true _ _).mp hsame
    rw [Bool.and_eq_true, decide_eq_true_eq, decide_eq_true_eq] at heq
    obtain ⟨rfl, hallocation⟩ := heq
    exact .inl ⟨rfl, stored', hlisted, hallocation⟩
  · refine .inr ?_
    by_cases hfolder : (ui.listedRows.any fun listed => listed.1 = folder) = true
    · -- the folder stays, and so does its account
      obtain ⟨⟨folder', stored'⟩, hlisted, heq⟩ := (Option.any_eq_true _ _).mp hfolder
      obtain rfl : folder' = folder := of_decide_eq_true heq
      have haccount : (ui.listedRows.any fun listed => listed.1.account = folder'.account) = true :=
        (Option.any_eq_true _ _).mpr ⟨_, hlisted, decide_eq_true rfl⟩
      simp only [if_pos hfolder, if_pos haccount] at h
      refine ⟨{ ui with listedRows := some (folder', stored) }, .animated,
        ⟨hready.holds, hready.listed, hready.closed⟩, rfl, .inl rfl, .inr ?_, h⟩
      exact ⟨rfl, .refl, by rw [hlisted]; rfl⟩
    · simp only [if_neg hfolder] at h
      split at h
      · exact ⟨{ ui with listedRows := some (folder, stored), removedInWindow := [] }, .atOnce,
          ⟨hready.holds, hready.listed, hready.closed⟩, rfl, .inl rfl, .inl rfl, h⟩
      · have hclear := hready.clear
        refine ⟨{ ui.clear with listedRows := some (folder, stored), removedInWindow := [] },
          .atOnce,
          ⟨hclear.holds, hclear.listed, hclear.closed⟩, rfl, ?_, .inl rfl, h⟩
        rw [MailUi.clear]
        split
        · exact .inl rfl
        · exact .inr rfl

/-- A message that is not listed is not taken out. Else its row is, the open message follows, and
the list is made to show what is left. -/
theorem removeInWindow_cases {identity : String}
    (h : ui.removeInWindow identity animates = .ok ui') :
    ui' = ui ∨ ∃ ui₁ ui₂,
      (ui₁ = { ui with removedInWindow := identity :: ui.removedInWindow } ∨
        (∃ position, ui₁ =
          { ui with removedInWindow := identity :: ui.removedInWindow }.openAt position) ∨
        ui₁ = { ui with removedInWindow := identity :: ui.removedInWindow }.closeReader) ∧
      ui₁.updateShown .animated animates = .ok ui₂ ∧
      ui' = { ui₂ with log := .rowRemoved :: ui₂.log } := by
  rw [MailUi.removeInWindow] at h
  split at h
  · cases h
    exact .inl rfl
  · -- what follows is the same, whatever becomes of the open message
    have hnext : ∀ ui₁ : MailUi, (do
        let ui₂ ← ui₁.updateShown .animated animates
        return { ui₂ with log := .rowRemoved :: ui₂.log }) = Except.ok ui' →
        ∃ ui₂, ui₁.updateShown .animated animates = .ok ui₂ ∧
          ui' = { ui₂ with log := .rowRemoved :: ui₂.log } := by
      intro ui₁ h
      cases hupdated : ui₁.updateShown .animated animates with
      | error fault =>
        rw [hupdated] at h
        cases h
      | ok ui₂ =>
        rw [hupdated] at h
        cases h
        exact ⟨ui₂, rfl, rfl⟩
    dsimp only at h
    split at h
    · split at h
      · obtain ⟨ui₂, hrest⟩ := hnext _ h
        exact .inr ⟨_, ui₂, .inr (.inl ⟨_, rfl⟩), hrest⟩
      · obtain ⟨ui₂, hrest⟩ := hnext _ h
        exact .inr ⟨_, ui₂, .inr (.inr rfl), hrest⟩
    · obtain ⟨ui₂, hrest⟩ := hnext _ h
      exact .inr ⟨_, ui₂, .inl rfl, hrest⟩

/-! ### Whose rows the list shows -/

/-- Showing its rows anew keeps whose rows the list shows. -/
theorem updateShown_listedRows (hready : ui.Ready) (h : ui.updateShown change animates = .ok ui') :
    ui'.listedRows = ui.listedRows := by
  cases hstored : ui.listedRows with
  | none =>
    cases (updateShown_none hstored change animates).symm.trans h
    exact hstored
  | some listed =>
    obtain ⟨folder, stored⟩ := listed
    obtain ⟨ui'', hok, hrefreshed, -⟩ := updateShown_refreshed hready hstored change animates
    cases hok.symm.trans h
    exact hrefreshed.list.listedRows.trans hstored

theorem showRows_listedRows (hready : ui.Ready) (h : ui.showRows folder stored animates = .ok ui') :
    ui'.listedRows = some (folder, stored) ∨
      ∃ stored', ui'.listedRows = some (folder, stored') ∧
        ui.listedRows = some (folder, stored') ∧ stored'.allocation = stored.allocation := by
  rcases showRows_cases hready h with ⟨rfl, stored', hlisted, hallocation⟩ |
    ⟨ui₁, change, hready₁, hlisted, -, -, hshown⟩
  · exact .inr ⟨stored', hlisted, hlisted, hallocation⟩
  · exact .inl ((updateShown_listedRows hready₁ hshown).trans hlisted)

theorem showContent_listedRows (ui : MailUi) (account : AccountId) (identity : String)
    (content : Except Failure (Option ReceivedContent)) :
    (ui.showContent account identity content).listedRows = ui.listedRows := by
  unfold MailUi.showContent
  dsimp only
  split
  · rfl
  · split <;> rfl

theorem changeListedFlag_listedRows (ui : MailUi) (asker : Asker) (identity : String)
    (flag : MessageFlag) (wanted : Bool) :
    (ui.changeListedFlag asker identity flag wanted).listedRows = ui.listedRows := by
  rw [MailUi.changeListedFlag]
  split <;> rfl

theorem changeFlag_listedRows (ui : MailUi) (asker : Asker) (flag : MessageFlag) (wanted : Bool) :
    (ui.changeFlag asker flag wanted).listedRows = ui.listedRows := by
  have hasked :
      (if flag = .seen ∧ !wanted then
          { ui with pendingRead := false, log := .unreadAsked :: ui.log }
        else ui).listedRows = ui.listedRows := by
    split <;> rfl
  rw [MailUi.changeFlag]
  split
  · exact hasked
  · exact (changeListedFlag_listedRows _ asker _ flag wanted).trans hasked

/-! ### While a change waits -/

theorem updateShown_waits (hready : ui.Ready) (h : ui.updateShown change animates = .ok ui')
    (hwaits : ui'.pendingChange = true) : ui.SameRows ui' := by
  cases hstored : ui.listedRows with
  | none =>
    cases (updateShown_none hstored change animates).symm.trans h
    exact .refl ui
  | some listed =>
    obtain ⟨folder, stored⟩ := listed
    obtain ⟨ui'', hok, hrefreshed, -⟩ := updateShown_refreshed hready hstored change animates
    cases hok.symm.trans h
    obtain ⟨hitems, halike⟩ := hrefreshed.waits hwaits
    exact ⟨hitems, halike, congrArg (Option.map Prod.fst) hrefreshed.list.listedRows⟩

/-- A change at once does not wait. -/
theorem updateShown_atOnce (hready : ui.Ready) (hstored : ui.listedRows = some (folder, stored))
    (h : ui.updateShown .atOnce animates = .ok ui') : ui'.pendingChange = false := by
  obtain ⟨ui'', hok, -, hnow, -⟩ := updateShown_refreshed hready hstored .atOnce animates
  cases hok.symm.trans h
  exact hnow (.inl rfl)

theorem changeListedFlag_rows (ui : MailUi) (asker : Asker) (identity : String)
    (flag : MessageFlag) (wanted : Bool) :
    ui.SameRows (ui.changeListedFlag asker identity flag wanted) := by
  rw [MailUi.changeListedFlag]
  split <;> exact ⟨rfl, .refl, rfl⟩

theorem changeFlag_rows (ui : MailUi) (asker : Asker) (flag : MessageFlag) (wanted : Bool) :
    ui.SameRows (ui.changeFlag asker flag wanted) := by
  have hasked : ui.SameRows
      (if flag = .seen ∧ !wanted then
          { ui with pendingRead := false, log := .unreadAsked :: ui.log }
        else ui) := by
    split <;> exact ⟨rfl, .refl, rfl⟩
  rw [MailUi.changeFlag]
  split
  · exact hasked
  · exact hasked.trans (changeListedFlag_rows _ asker _ flag wanted)

/-- **While a change waits**, no action brings a row into the list or takes one out, but by emptying
it. -/
theorem act_waits (hinv : ui.Inv) {action : Action} (h : ui.act action = .ok ui')
    (hwaits : ui'.pendingChange = true) : ui'.items = [] ∨ ui.SameRows ui' := by
  cases action with
  | showRows folder stored animates =>
    rcases showRows_cases hinv.toReady h with ⟨rfl, -⟩ |
      ⟨ui₁, change, hready₁, hlisted, -, rfl | hsame, hshown⟩
    · exact .inr (.refl ui')
    · cases (updateShown_atOnce hready₁ hlisted hshown).symm.trans hwaits
    · exact .inr (hsame.trans (updateShown_waits hready₁ hshown hwaits))
  | showContent account identity content =>
    cases h
    refine .inr ?_
    unfold MailUi.showContent
    dsimp only
    split
    · exact ⟨rfl, .refl, rfl⟩
    · split <;> exact ⟨rfl, .refl, rfl⟩
  | clear =>
    cases h
    cases hstored : ui.listedRows with
    | none =>
      rw [MailUi.clear, hstored]
      exact .inl (hinv.empty hstored)
    | some listed =>
      rw [MailUi.clear, hstored]
      exact .inl rfl
  | readOpenContentAgain =>
    cases h
    rw [MailUi.readOpenContentAgain]
    split <;> exact .inr ⟨rfl, .refl, rfl⟩
  | setUnreadFilter unreadOnly animates =>
    have hready : { ui with unreadOnly := unreadOnly : MailUi }.Ready :=
      ⟨hinv.holds, hinv.listed, hinv.closed⟩
    have hsame := updateShown_waits hready h hwaits
    exact .inr ⟨hsame.items, hsame.alike, hsame.folder⟩
  | activate position animates =>
    rw [act, MailUi.activate] at h
    split at h
    · exact .inr ((openAt_rows ui position).trans
        (updateShown_waits (hinv.toReady.openAt position) h hwaits))
    · cases h
      exact .inr (openAt_rows ui position)
  | removeInWindow identity animates =>
    have hready : { ui with removedInWindow := identity :: ui.removedInWindow : MailUi }.Ready :=
      ⟨hinv.holds, hinv.listed, hinv.closed⟩
    have hsame : ui.SameRows { ui with removedInWindow := identity :: ui.removedInWindow } :=
      ⟨rfl, .refl, rfl⟩
    rcases removeInWindow_cases h with rfl |
      ⟨ui₁, ui₂, rfl | ⟨position, rfl⟩ | rfl, hshown, rfl⟩
    · exact .inr (.refl ui')
    · have hrows := hsame.trans (updateShown_waits hready hshown hwaits)
      exact .inr ⟨hrows.items, hrows.alike, hrows.folder⟩
    · have hrows := (hsame.trans (openAt_rows _ position)).trans
        (updateShown_waits (hready.openAt position) hshown hwaits)
      exact .inr ⟨hrows.items, hrows.alike, hrows.folder⟩
    · have hrows := updateShown_waits hready.closeReader hshown hwaits
      exact .inr ⟨hrows.items, hrows.alike, hrows.folder⟩
  | changeFlag flag wanted =>
    cases h
    exact .inr (changeFlag_rows ui .user flag wanted)
  | toggleRowStar item starShows =>
    cases h
    rw [MailUi.toggleRowStar]
    split
    · exact .inr (changeListedFlag_rows ui .user _ .flagged _)
    · exact .inr (.refl ui)
  | afterClosing animates =>
    have hready : { ui with pendingChange := false : MailUi }.Ready :=
      ⟨hinv.holds, hinv.listed, hinv.closed⟩
    have hsame := updateShown_waits hready h hwaits
    exact .inr ⟨hsame.items, hsame.alike, hsame.folder⟩
  | readAfterOpening =>
    cases h
    have hsecond : ui.SameRows { ui with pendingRead := false } := ⟨rfl, .refl, rfl⟩
    rw [MailUi.readAfterOpening]
    split
    · exact .inr (hsecond.trans (changeFlag_rows _ .opening .seen true))
    · exact .inr hsecond
  | frame =>
    cases h
    exact .inr ⟨rfl, openRows_frames_alike _, rfl⟩

/-! ### The rows in the list -/

/-- Each row in the list shows a row that `P` has of the folder shown. -/
def Draws (P : FolderRef → MessageListRow → Prop) (ui : MailUi) : Prop :=
  ∀ item ∈ ui.items, ∃ folder stored row, ui.listedRows = some (folder, stored) ∧ P folder row ∧
    (ui.objects.object item).view = rowView row

theorem Draws.mono {P Q : FolderRef → MessageListRow → Prop} (h : ui.Draws P)
    (hle : ∀ folder row, P folder row → Q folder row) : ui.Draws Q := by
  intro item hitem
  obtain ⟨folder, stored, row, hlisted, hrow, hview⟩ := h item hitem
  exact ⟨folder, stored, row, hlisted, hle folder row hrow, hview⟩

/-- **Each row in the list shows a row of the folder shown**, also while a change waits. -/
theorem Draws.act {P : FolderRef → MessageListRow → Prop} (h : ui.Draws P) (hinv : ui.Inv)
    (hinv' : ui'.Inv) {action : Action} (hact : ui.act action = .ok ui')
    (hrows : ∀ folder stored, ui'.listedRows = some (folder, stored) →
      ∀ row ∈ stored.rows, P folder row) : ui'.Draws P := by
  intro item hitem
  by_cases hwaits : ui'.pendingChange = true
  · rcases act_waits hinv hact hwaits with hempty | hsame
    · exact absurd (hempty ▸ hitem) not_mem_nil
    · obtain ⟨folder, stored, row, hlisted, hrow, hview⟩ := h item (hsame.items ▸ hitem)
      have hfolder : ui'.listedRows.map Prod.fst = some folder := by
        rw [hsame.folder, hlisted]
        rfl
      obtain ⟨⟨_, stored'⟩, hlisted', rfl⟩ := Option.map_eq_some_iff.mp hfolder
      exact ⟨_, stored', row, hlisted', hrow, (hsame.alike.view_eq item).trans hview⟩
  · cases hlisted : ui'.listedRows with
    | none => exact absurd (hinv'.empty hlisted ▸ hitem) not_mem_nil
    | some listed =>
      obtain ⟨folder, stored⟩ := listed
      have hsettled := hinv'.settled folder stored hlisted (Bool.eq_false_iff.mpr hwaits)
      obtain ⟨row, hrow, -, hview⟩ := hsettled.exists_row hitem
      exact ⟨folder, stored, row, rfl, hrows folder stored hlisted row hrow, hview⟩

end MailUi

end Mailbag.Window
