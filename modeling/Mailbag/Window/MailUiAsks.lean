import Mailbag.Window.MailUiRows

/-!
# What the list and the reader ask the window for

They ask for the content of a message that is opened, or that is read again, and to store the
wanted value of a flag.

## What is proved

* `MailUi.GrowsQuietly.updateShown`, `MailUi.GrowsQuietly.showRows`,
  `MailUi.GrowsQuietly.showContent`
  — what the window shows asks for nothing.
* `MailUi.act_asks` — what an action asks for is about a message of the list.
-/

namespace Mailbag.Window

open Collections Interaction List

namespace MailUi

variable {ui ui' ui'' : MailUi} {folder : FolderRef} {stored : StoredRows}

/-- What the new events ask the window to read or to store is about messages with a row in the list,
of the folder shown. -/
def AsksOfList (ui : MailUi) (new : List MailEvent) : Prop :=
  ∀ event ∈ new, ∀ account identity, event.asked = some (account, identity) →
    (∃ folder stored, ui.listedRows = some (folder, stored) ∧ folder.account = account) ∧
      ∃ item ∈ ui.items, ui.objects.identity item = identity

/-- Nothing is asked. -/
def AsksNothing (new : List MailEvent) : Prop := ∀ event ∈ new, event.asked = none

/-- The log grew by events that ask nothing. -/
def GrowsQuietly (ui ui' : MailUi) : Prop := ∃ new, ui'.log = new ++ ui.log ∧ AsksNothing new

/-- It grew by events that ask of the list. -/
def GrowsOfList (ui ui' : MailUi) : Prop := ∃ new, ui'.log = new ++ ui.log ∧ ui.AsksOfList new

/-! ### Nothing is asked -/

theorem GrowsQuietly.same (h : ui'.log = ui.log) : ui.GrowsQuietly ui' := ⟨[], h, forall_mem_nil _⟩

theorem GrowsQuietly.one {event : MailEvent} (h : ui'.log = event :: ui.log)
    (hevent : event.asked = none) : ui.GrowsQuietly ui' :=
  ⟨[event], h, forall_mem_singleton.mpr hevent⟩

theorem GrowsQuietly.trans (h : ui.GrowsQuietly ui') (h' : ui'.GrowsQuietly ui'') :
    ui.GrowsQuietly ui'' := by
  obtain ⟨new, hlog, hnew⟩ := h
  obtain ⟨new', hlog', hnew'⟩ := h'
  exact ⟨new' ++ new, by rw [hlog', hlog, append_assoc], forall_mem_append.mpr ⟨hnew', hnew⟩⟩

theorem GrowsQuietly.closeReader (ui : MailUi) : ui.GrowsQuietly ui.closeReader := .one rfl rfl

theorem GrowsQuietly.clear (ui : MailUi) : ui.GrowsQuietly ui.clear := by
  rw [MailUi.clear]
  split
  · exact .same rfl
  · exact .one rfl rfl

theorem GrowsQuietly.updateShown (hready : ui.Ready) {change : ListChange} {animates : Bool}
    (h : ui.updateShown change animates = .ok ui') : ui.GrowsQuietly ui' := by
  cases hstored : ui.listedRows with
  | none =>
    cases (updateShown_none hstored change animates).symm.trans h
    exact .same rfl
  | some listed =>
    obtain ⟨folder, stored⟩ := listed
    obtain ⟨ui'', hok, hrefreshed, -⟩ := updateShown_refreshed hready hstored change animates
    cases hok.symm.trans h
    rcases hrefreshed.reader with hsame | hclosed
    · exact .same hsame.log
    · exact .one hclosed.log rfl

/-- Showing rows asks for nothing. -/
theorem GrowsQuietly.showRows (hready : ui.Ready) {animates : Bool}
    (h : ui.showRows folder stored animates = .ok ui') : ui.GrowsQuietly ui' := by
  rcases showRows_cases hready h with ⟨rfl, -⟩ | ⟨ui₁, change, hready₁, -, hlog, -, hshown⟩
  · exact .same rfl
  · refine GrowsQuietly.trans ?_ (.updateShown hready₁ hshown)
    rcases hlog with hlog | hlog
    · exact .same hlog
    · exact .one hlog rfl

/-- Nor does showing a content. -/
theorem GrowsQuietly.showContent (ui : MailUi) (account : AccountId) (identity : String)
    (content : Except Failure (Option ReceivedContent)) :
    ui.GrowsQuietly (ui.showContent account identity content) := by
  have htold : ui.GrowsQuietly
      { ui with log := .contentAnswered account identity content :: ui.log } := .one rfl rfl
  unfold MailUi.showContent
  dsimp only
  split
  · exact htold
  · split
    · exact htold
    · exact htold.trans (.closeReader _)
    · exact htold

/-! ### What is asked is of the list -/

theorem GrowsQuietly.ofList (h : ui.GrowsQuietly ui') : ui.GrowsOfList ui' := by
  obtain ⟨new, hlog, hnew⟩ := h
  refine ⟨new, hlog, fun event hevent account identity hasked => ?_⟩
  cases (hnew event hevent).symm.trans hasked

/-- What follows asks for nothing more. -/
theorem GrowsOfList.quiet (h : ui.GrowsOfList ui') (h' : ui'.GrowsQuietly ui'') :
    ui.GrowsOfList ui'' := by
  obtain ⟨new, hlog, hnew⟩ := h
  obtain ⟨new', hlog', hnew'⟩ := h'
  refine ⟨new' ++ new, by rw [hlog', hlog, append_assoc],
    fun event hevent account identity hasked => ?_⟩
  rcases mem_append.mp hevent with hlater | hearlier
  · cases (hnew' event hlater).symm.trans hasked
  · exact hnew event hearlier account identity hasked

/-- One of the new events asks, about a message of the list. -/
theorem GrowsOfList.one {event : MailEvent} {quiet : List MailEvent} {identity : String}
    (hlog : ui'.log = event :: quiet ++ ui.log) (hquiet : AsksNothing quiet)
    (hstored : ui.listedRows = some (folder, stored))
    (hevent : event.asked = some (folder.account, identity))
    (hlisted : ∃ item ∈ ui.items, ui.objects.identity item = identity) : ui.GrowsOfList ui' := by
  refine ⟨_, hlog, fun event' hmem account identity' hasked => ?_⟩
  rcases mem_cons.mp hmem with rfl | hrest
  · cases hevent.symm.trans hasked
    exact ⟨⟨folder, stored, hstored, rfl⟩, hlisted⟩
  · cases (hquiet event' hrest).symm.trans hasked

theorem GrowsOfList.openAt (ui : MailUi) (position : ℕ) : ui.GrowsOfList (ui.openAt position) := by
  rcases openAt_cases ui position with heq | ⟨item, folder, stored, hitem, hstored, -, heq⟩
  · rw [heq]
    exact (GrowsQuietly.same rfl).ofList
  · rw [heq]
    exact .one rfl (forall_mem_singleton.mpr rfl) hstored rfl ⟨item, hitem, rfl⟩

theorem GrowsOfList.changeFlag (hinv : ui.Inv) (asker : Asker) (flag : MessageFlag)
    (wanted : Bool) : ui.GrowsOfList (ui.changeFlag asker flag wanted) := by
  -- marking it unread is told first
  obtain ⟨log, hlog, hsame, hstored, hopen⟩ : ∃ log, AsksNothing log ∧
      (if flag = .seen ∧ !wanted then
          { ui with pendingRead := false, log := .unreadAsked :: ui.log }
        else ui).log = log ++ ui.log ∧
      (if flag = .seen ∧ !wanted then
          { ui with pendingRead := false, log := .unreadAsked :: ui.log }
        else ui).listedRows = ui.listedRows ∧
      (if flag = .seen ∧ !wanted then
          { ui with pendingRead := false, log := .unreadAsked :: ui.log }
        else ui).openMessage = ui.openMessage := by
    split
    · exact ⟨[.unreadAsked], forall_mem_singleton.mpr rfl, rfl, rfl, rfl⟩
    · exact ⟨[], forall_mem_nil _, rfl, rfl, rfl⟩
  have hquiet : ∀ {ui₁ : MailUi}, ui₁.log = log ++ ui.log → ui.GrowsOfList ui₁ :=
    fun h => GrowsQuietly.ofList ⟨log, h, hlog⟩
  rw [MailUi.changeFlag]
  split
  · exact hquiet hsame
  · rename_i identity hidentity
    rw [MailUi.changeListedFlag]
    split
    · exact hquiet hsame
    · rename_i folder stored hfolder
      refine .one (congrArg (_ :: ·) hsame) hlog (hstored.symm.trans hfolder) rfl ?_
      exact hinv.listed identity (hopen.symm.trans hidentity)

/-- Whatever an action asks for is about a message with a row in the list, of the folder shown. -/
theorem act_asks (hinv : ui.Inv) {action : Action} (henabled : ui.Enabled action)
    (h : ui.act action = .ok ui') : ui.GrowsOfList ui' := by
  cases action with
  | showRows folder stored animates =>
    have hgrows := GrowsQuietly.showRows hinv.toReady h
    exact hgrows.ofList
  | showContent account identity content =>
    cases h
    exact (GrowsQuietly.showContent ui account identity content).ofList
  | clear =>
    cases h
    exact (GrowsQuietly.clear ui).ofList
  | readOpenContentAgain =>
    cases h
    rw [MailUi.readOpenContentAgain]
    split
    · rename_i account identity hof
      obtain ⟨folder, stored, hstored, rfl⟩ := listedRows_of_openMessageOf hof
      exact .one rfl (forall_mem_nil _) hstored rfl
        (hinv.listed identity (openMessage_of_openMessageOf hof))
    · exact (GrowsQuietly.same rfl).ofList
  | setUnreadFilter unreadOnly animates =>
    have hready : { ui with unreadOnly := unreadOnly : MailUi }.Ready :=
      ⟨hinv.holds, hinv.listed, hinv.closed⟩
    have hgrows := GrowsQuietly.updateShown hready h
    exact GrowsQuietly.ofList hgrows
  | activate position animates =>
    rw [act, MailUi.activate] at h
    split at h
    · have hgrows := GrowsQuietly.updateShown (hinv.toReady.openAt position) h
      exact (GrowsOfList.openAt ui position).quiet hgrows
    · cases h
      exact .openAt ui position
  | removeInWindow identity animates =>
    have hready : { ui with removedInWindow := identity :: ui.removedInWindow : MailUi }.Ready :=
      ⟨hinv.holds, hinv.listed, hinv.closed⟩
    rcases removeInWindow_cases h with rfl |
      ⟨ui₁, ui₂, rfl | ⟨position, rfl⟩ | rfl, hshown, rfl⟩
    · exact (GrowsQuietly.same rfl).ofList
    · have hgrows := GrowsQuietly.updateShown hready hshown
      have htold : ui₂.GrowsQuietly { ui₂ with log := .rowRemoved :: ui₂.log } := .one rfl rfl
      exact GrowsQuietly.ofList (hgrows.trans htold)
    · have hopened : ui.GrowsOfList
          ({ ui with removedInWindow := identity :: ui.removedInWindow }.openAt position) :=
        GrowsOfList.openAt { ui with removedInWindow := identity :: ui.removedInWindow } position
      have hgrows := GrowsQuietly.updateShown (hready.openAt position) hshown
      exact hopened.quiet (hgrows.trans (.one rfl rfl))
    · have hclosed : ui.GrowsQuietly
          { ui with removedInWindow := identity :: ui.removedInWindow }.closeReader := .one rfl rfl
      have hgrows := GrowsQuietly.updateShown hready.closeReader hshown
      exact (hclosed.trans (hgrows.trans (.one rfl rfl))).ofList
  | changeFlag flag wanted =>
    cases h
    exact .changeFlag hinv .user flag wanted
  | toggleRowStar item starShows =>
    cases h
    rw [MailUi.toggleRowStar]
    split
    · rw [MailUi.changeListedFlag]
      split
      · exact (GrowsQuietly.same rfl).ofList
      · rename_i folder stored hstored
        exact .one rfl (forall_mem_nil _) hstored rfl ⟨item, henabled, rfl⟩
    · exact (GrowsQuietly.same rfl).ofList
  | afterClosing animates =>
    have hready : { ui with pendingChange := false : MailUi }.Ready :=
      ⟨hinv.holds, hinv.listed, hinv.closed⟩
    have hgrows := GrowsQuietly.updateShown hready h
    exact GrowsQuietly.ofList hgrows
  | readAfterOpening =>
    cases h
    rw [MailUi.readAfterOpening]
    split
    · exact GrowsOfList.changeFlag hinv.endSecond .opening .seen true
    · exact GrowsQuietly.ofList (.same rfl)
  | frame =>
    cases h
    exact GrowsQuietly.ofList (.same rfl)

end MailUi

end Mailbag.Window
