import Mailbag.Interaction.System
import Mailbag.Window.MailUiList

/-!
# What the user and the window do to the list and the reader

The window shows rows and answers, the user opens, filters, takes out and marks, timers
fire and frames are drawn. Each action keeps the invariant of the list, and what the log
says of the reader.

## What is proved

* `MailUi.Told.openAt`, `MailUi.Told.readAfterOpening`, `MailUi.Told.showContent` — what is
  opened, marked and answered is told.
* `MailUi.act_kept` — every action ends without a fault and keeps both.
-/

namespace Mailbag.Window

open Collections Interaction List Relation

namespace MailUi

variable {ui ui' : MailUi} {folder : FolderRef} {stored : StoredRows}

/-- What the log says of the reader. -/
structure Told (ui : MailUi) : Prop where
  /-- The open message was opened last. -/
  opened : (sinceOpened ui.log).map Prod.fst = ui.openMessage
  /-- While the second after the opening runs, nothing ended it. -/
  second : ui.pendingRead = true → ∀ identity, ui.openMessage = some identity →
    OpenSince ui.log identity
  /-- What the reader shows is an answer about its message. -/
  body : ∀ content, ui.body = some content →
    ∃ account identity, ui.openMessageOf = some (account, identity) ∧
    AnsweredSince ui.log account identity content
  /-- The marks the second after an opening asked for. -/
  marks : Log.Every MarkedInTime ui.log

theorem Told.same (h : ui.Told) (hreader : ui.SameReader ui')
    (hof : ui'.openMessageOf = ui.openMessageOf) : ui'.Told := by
  refine ⟨?_, ?_, ?_, ?_⟩
  · rw [hreader.log, hreader.openMessage]
    exact h.opened
  · rw [hreader.pendingRead, hreader.openMessage, hreader.log]
    exact h.second
  · rw [hreader.body, hof, hreader.log]
    exact h.body
  · rw [hreader.log]
    exact h.marks

theorem Told.close (h : ui.Told) (hclosed : ui.ClosedReader ui') : ui'.Told := by
  refine ⟨?_, fun hpending => ?_, fun content hbody => ?_, ?_⟩
  · rw [hclosed.log, hclosed.openMessage, sinceOpened_closed]
    rfl
  · exact absurd (hclosed.pendingRead.symm.trans hpending) Bool.false_ne_true
  · cases hclosed.body.symm.trans hbody
  · rw [hclosed.log, Log.every_cons]
    exact ⟨fun _ _ _ _ h => (by cases h), h.marks⟩

theorem openMessageOf_of_list (hlist : ui.SameList ui') (hopen : ui'.openMessage = ui.openMessage) :
    ui'.openMessageOf = ui.openMessageOf := by
  rw [openMessageOf, openMessageOf, hlist.listedRows, hopen]

/-- The reader stays or is closed. -/
theorem Told.refreshed (h : ui.Told) (hrefreshed : ui.Refreshed stored ui') : ui'.Told := by
  rcases hrefreshed.reader with hsame | hclosed
  · exact h.same hsame (openMessageOf_of_list hrefreshed.list hsame.openMessage)
  · exact h.close hclosed

/-- An event that neither opens a message nor closes the reader is told; one that ends the second
after the opening, when no such second runs. -/
theorem Told.tell (h : ui.Told) {event : MailEvent} (hkeeps : event.KeepsMessage)
    (hmarked : MarkedInTime event ui.log) (hends : ui.pendingRead = true → ¬event.EndsSecond) :
    { ui with log := event :: ui.log : MailUi }.Told := by
  refine ⟨?_, fun hpending identity hopen => ?_, fun content hbody => ?_, ?_⟩
  · rw [sinceOpened_cons hkeeps, Option.map_map]
    exact h.opened
  · obtain ⟨since, hsince, hquiet⟩ := h.second hpending identity hopen
    exact ⟨event :: since, by rw [sinceOpened_cons hkeeps, hsince]; rfl,
      forall_mem_cons.mpr ⟨hends hpending, hquiet⟩⟩
  · obtain ⟨account, identity, hof, since, hsince, hanswered⟩ := h.body content hbody
    exact ⟨account, identity, hof, event :: since, by rw [sinceOpened_cons hkeeps, hsince]; rfl,
      mem_cons_of_mem _ hanswered⟩
  · rw [Log.every_cons]
    exact ⟨hmarked, h.marks⟩

theorem Told.endSecond (h : ui.Told) : { ui with pendingRead := false : MailUi }.Told :=
  ⟨h.opened, fun hpending => (by cases hpending), h.body, h.marks⟩

theorem Told.openAt (h : ui.Told) (position : ℕ) : (ui.openAt position).Told := by
  rcases openAt_cases ui position with heq | ⟨item, folder, stored, -, -, -, heq⟩
  · rw [heq]
    exact h
  · rw [heq]
    refine ⟨rfl, fun _ identity hopen => ?_, fun content hbody => (by cases hbody), ?_⟩
    · cases hopen
      exact ⟨[.contentRequested folder.account (ui.objects.identity item)], rfl,
        forall_mem_singleton.mpr fun hends => hends.elim⟩
    · rw [Log.every_cons, Log.every_cons]
      exact ⟨fun _ _ _ _ h => (by cases h), fun _ _ _ _ h => (by cases h), h.marks⟩

/-- Nothing is opened, closed or asked for, but the flag. -/
theorem Told.changeListedFlag (h : ui.Told) (asker : Asker) {identity : String} {flag : MessageFlag}
    {wanted : Bool}
    (hasker : asker = .opening → ui.pendingRead = false ∧ flag = .seen ∧ wanted = true ∧
      OpenSince ui.log identity) : (ui.changeListedFlag asker identity flag wanted).Told := by
  rw [MailUi.changeListedFlag]
  split
  · exact h
  · refine h.tell trivial (fun account identity' flag' wanted' heq => ?_) fun hpending hends => ?_
    · cases heq
      exact (hasker rfl).2
    · cases asker with
      | user => exact hends
      | opening => exact Bool.false_ne_true ((hasker rfl).1.symm.trans hpending)

theorem Told.changeFlag (h : ui.Told) (flag : MessageFlag) (wanted : Bool) :
    (ui.changeFlag .user flag wanted).Told := by
  have hasked : (if flag = .seen ∧
      !wanted then { ui with pendingRead := false, log := .unreadAsked :: ui.log }
        else ui).Told := by
    split
    · exact h.endSecond.tell trivial (fun _ _ _ _ heq => (by cases heq)) fun hpending =>
        (by cases hpending)
    · exact h
  rw [MailUi.changeFlag]
  generalize (if flag = .seen ∧ !wanted then { ui with pendingRead := false, log := .unreadAsked ::
    ui.log } else ui) = ui₁ at hasked ⊢
  split
  · exact hasked
  · exact hasked.changeListedFlag .user fun hasker => (by cases hasker)

/-- The second after the opening marks the message that is open since. -/
theorem Told.readAfterOpening (h : ui.Told) (hpending : ui.pendingRead = true) :
    ui.readAfterOpening.Told := by
  rw [MailUi.readAfterOpening]
  split
  · rw [MailUi.changeFlag]
    simp only [Bool.not_true, Bool.false_eq_true, and_false, if_false]
    split
    · exact h.endSecond
    · rename_i identity hopen
      exact h.endSecond.changeListedFlag .opening fun _ =>
        ⟨rfl, rfl, rfl, h.second hpending identity hopen⟩
  · exact h.endSecond

theorem openMessage_of_openMessageOf {account : AccountId} {identity : String}
    (hof : ui.openMessageOf = some (account, identity)) : ui.openMessage = some identity := by
  rw [openMessageOf] at hof
  split at hof
  · rename_i hopen _
    cases hof
    exact hopen
  · cases hof

/-- The open message is of the folder shown. -/
theorem listedRows_of_openMessageOf {account : AccountId} {identity : String}
    (hof : ui.openMessageOf = some (account, identity)) :
    ∃ folder stored, ui.listedRows = some (folder, stored) ∧ folder.account = account := by
  rw [openMessageOf] at hof
  split at hof
  · rename_i folder stored _ hstored
    cases hof
    exact ⟨folder, stored, hstored, rfl⟩
  · cases hof

theorem Told.showContent (h : ui.Told) (account : AccountId) (identity : String)
    (content : Except Failure (Option ReceivedContent)) :
    (ui.showContent account identity content).Told := by
  have hanswered : { ui with log := .contentAnswered account identity content ::
      ui.log : MailUi }.Told :=
    h.tell trivial (fun _ _ _ _ heq => (by cases heq)) fun _ hends => hends.elim
  have hsince : ui.openMessageOf = some (account, identity) → ∃ since,
      sinceOpened (.contentAnswered account identity content :: ui.log) =
        some (identity, .contentAnswered account identity content :: since) := by
    intro hof
    have hopen := openMessage_of_openMessageOf hof
    obtain ⟨⟨identity', since⟩, hsince, hid⟩ := Option.map_eq_some_iff.mp (h.opened.trans hopen)
    cases hid
    have hkeeps : (MailEvent.contentAnswered account identity' content).KeepsMessage := trivial
    exact ⟨since, by rw [sinceOpened_cons hkeeps, hsince]; rfl⟩
  unfold MailUi.showContent
  dsimp only
  split
  · exact hanswered
  · rename_i hof
    obtain ⟨since, hsince⟩ := hsince (not_not.mp hof)
    split
    · refine ⟨hanswered.opened, hanswered.second, fun content' hbody => ?_, hanswered.marks⟩
      cases hbody
      exact ⟨account, identity, not_not.mp hof, _, hsince, mem_cons_self⟩
    · exact hanswered.close (closeReader_closed _)
    · refine ⟨hanswered.opened, hanswered.second, fun content' hbody => ?_, hanswered.marks⟩
      cases hbody
      exact ⟨account, identity, not_not.mp hof, _, hsince, mem_cons_self⟩

theorem Told.requestContent (h : ui.Told) (account : AccountId) (identity : String) :
    (ui.requestContent account identity).Told :=
  h.tell trivial (fun _ _ _ _ heq => (by cases heq)) fun _ hends => hends.elim

/-! ### Actions -/

/-- What the window, the user and the timers do. -/
inductive Action where
  /-- The window shows a folder's stored rows. -/
  | showRows (folder : FolderRef) (stored : StoredRows) (animates : Bool)
  /-- The window shows the answer about a message's content. -/
  | showContent (account : AccountId) (identity : String)
      (content : Except Failure (Option ReceivedContent))
  /-- The window has no rows to show. -/
  | clear
  /-- The window reads the open message's content again. -/
  | readOpenContentAgain
  /-- The user turns the unread filter. -/
  | setUnreadFilter (unreadOnly animates : Bool)
  /-- The user opens a row. -/
  | activate (position : ℕ) (animates : Bool)
  /-- The user takes a row's message out. -/
  | removeInWindow (identity : String) (animates : Bool)
  /-- The user changes a flag of the open message. -/
  | changeFlag (flag : MessageFlag) (wanted : Bool)
  /-- The user clicks on a row's star. -/
  | toggleRowStar (item : ItemRef) (starShows : Bool)
  /-- The rows that leave are closed. -/
  | afterClosing (animates : Bool)
  /-- The second after the opening has passed. -/
  | readAfterOpening
  /-- A frame is drawn. -/
  | frame

/-- A timer fires while it runs, and a row is clicked while it is in the list. -/
def Enabled (ui : MailUi) : Action → Prop
  | .afterClosing _ => ui.pendingChange = true
  | .readAfterOpening => ui.pendingRead = true
  | .toggleRowStar item _ => item ∈ ui.items
  | _ => True

/-- What an action makes of the list and the reader. -/
def act (ui : MailUi) : Action → Except ListFault MailUi
  | .showRows folder stored animates => ui.showRows folder stored animates
  | .showContent account identity content => .ok (ui.showContent account identity content)
  | .clear => .ok ui.clear
  | .readOpenContentAgain => .ok ui.readOpenContentAgain
  | .setUnreadFilter unreadOnly animates => ui.setUnreadFilter unreadOnly animates
  | .activate position animates => ui.activate position animates
  | .removeInWindow identity animates => ui.removeInWindow identity animates
  | .changeFlag flag wanted => .ok (ui.changeFlag .user flag wanted)
  | .toggleRowStar item starShows => .ok (ui.toggleRowStar item starShows)
  | .afterClosing animates => ui.afterClosing animates
  | .readAfterOpening => .ok ui.readAfterOpening
  | .frame => .ok ui.frame

/-- The action ends without a fault and keeps both invariants. -/
def Kept (result : Except ListFault MailUi) : Prop := ∃ ui', result = .ok ui' ∧ ui'.Inv ∧ ui'.Told

/-- Making the list show its rows keeps both, whatever the action changed before. -/
theorem updateShown_kept (hready : ui.Ready) (htold : ui.Told)
    (hempty : ui.listedRows = none → ui.Inv) (change : ListChange) (animates : Bool) :
    Kept (ui.updateShown change animates) := by
  cases hstored : ui.listedRows with
  | none => exact ⟨ui, updateShown_none hstored change animates, hempty hstored, htold⟩
  | some listed =>
    obtain ⟨folder, stored⟩ := listed
    obtain ⟨ui', hok, hrefreshed, -⟩ := updateShown_refreshed hready hstored change animates
    exact ⟨ui', hok, hrefreshed.inv, htold.refreshed hrefreshed⟩

theorem clear_kept (hinv : ui.Inv) (htold : ui.Told) :
    ui.clear.Inv ∧ ui.clear.Told ∧ ui.clear.listedRows = none := by
  rw [MailUi.clear]
  split
  · rename_i hnone
    exact ⟨hinv, htold, hnone⟩
  · have hclosed : ui.ClosedReader { ui with items := [], listedRows := none }.closeReader :=
      ⟨rfl, rfl, rfl, rfl, rfl⟩
    refine ⟨⟨⟨⟨fun item hitem => absurd hitem not_mem_nil, nodup_nil⟩, fun _ h => (by cases h),
      fun _ => ⟨rfl, rfl, rfl⟩⟩,
      fun _ => rfl, fun _ _ h => (by cases h)⟩, htold.close hclosed, rfl⟩

theorem showRows_kept (hinv : ui.Inv) (htold : ui.Told) (folder : FolderRef) (stored : StoredRows)
    (animates : Bool) : Kept (ui.showRows folder stored animates) := by
  rw [MailUi.showRows]
  dsimp only
  split
  · exact ⟨ui, rfl, hinv, htold⟩
  · -- what stays shown keeps its account; anything else was cleared
    have hkept :
      ∀ removed, ({ (if ui.listedRows.any fun listed => listed.1.account = folder.account then ui
        else ui.clear) with
        listedRows := some (folder, stored), removedInWindow := removed } : MailUi).Ready ∧
        ({ (if ui.listedRows.any fun listed => listed.1.account = folder.account then ui
          else ui.clear) with
          listedRows := some (folder, stored), removedInWindow := removed } : MailUi).Told := by
      intro removed
      split
      · rename_i haccount
        refine ⟨⟨hinv.holds, hinv.listed, hinv.closed⟩, htold.opened, htold.second,
          fun content hbody => ?_, htold.marks⟩
        obtain ⟨account, identity, hof, hanswered⟩ := htold.body content hbody
        refine ⟨account, identity, ?_, hanswered⟩
        rw [← hof, openMessageOf, openMessageOf]
        cases hlisted : ui.listedRows with
        | none => rw [hlisted] at haccount; cases haccount
        | some listed =>
          rw [hlisted] at haccount
          have hsame : listed.1.account = folder.account := of_decide_eq_true haccount
          cases ui.openMessage <;> simp [hsame]
      · obtain ⟨hinv', htold', hnone⟩ := clear_kept hinv htold
        refine ⟨⟨hinv'.holds, hinv'.listed, hinv'.closed⟩, htold'.opened, htold'.second,
          fun content hbody => ?_, htold'.marks⟩
        obtain ⟨account, identity, hof, -⟩ := htold'.body content hbody
        rw [openMessageOf, hnone] at hof
        split at hof <;> simp_all
    split
    · exact updateShown_kept (hkept _).1 (hkept _).2 (fun h => (by cases h)) _ animates
    · exact updateShown_kept (hkept _).1 (hkept _).2 (fun h => (by cases h)) _ animates

theorem removeInWindow_kept (hinv : ui.Inv) (htold : ui.Told) (identity : String)
    (animates : Bool) : Kept (ui.removeInWindow identity animates) := by
  rw [MailUi.removeInWindow]
  split
  · exact ⟨ui, rfl, hinv, htold⟩
  · rename_i position hposition
    have hlisted : ui.listedRows ≠ none := by
      intro hnone
      rw [hinv.empty hnone] at hposition
      cases hposition
    have hready : { ui with removedInWindow := identity :: ui.removedInWindow : MailUi }.Ready :=
      ⟨hinv.holds, hinv.listed, hinv.closed⟩
    have htold' : { ui with removedInWindow := identity :: ui.removedInWindow : MailUi }.Told :=
      htold.same ⟨rfl, rfl, rfl, rfl⟩ rfl
    generalize hui : ({ ui with removedInWindow := identity :: ui.removedInWindow } : MailUi) =
      ui₁ at hready htold' ⊢
    have hlisted₁ : ui₁.listedRows ≠ none := hui ▸ hlisted
    have hkept : ∀ ui₂ : MailUi, ui₂.Ready → ui₂.Told → ui₂.listedRows ≠ none → Kept (do
        let ui₃ ← ui₂.updateShown .animated animates
        return { ui₃ with log := .rowRemoved :: ui₃.log }) := by
      intro ui₂ hready₂ htold₂ hlisted₂
      obtain ⟨ui₃, hok, hinv₃, htold₃⟩ :=
        updateShown_kept hready₂ htold₂ (fun h => absurd h hlisted₂) .animated animates
      refine ⟨{ ui₃ with log := .rowRemoved :: ui₃.log }, by rw [hok]; rfl, hinv₃.tell trivial, ?_⟩
      exact htold₃.tell trivial (fun _ _ _ _ heq => (by cases heq)) fun _ hends => hends.elim
    dsimp only
    split
    · -- the neighbour opens, or the reader is closed
      cases ui₁.nextAfterLeavingAt position with
      | none => exact hkept _ hready.closeReader (htold'.close (closeReader_closed ui₁)) hlisted₁
      | some next =>
        exact hkept _ (hready.openAt next) (htold'.openAt next)
          ((openAt_list ui₁ next).listedRows.symm ▸ hlisted₁)
    · exact hkept _ hready htold' hlisted₁

theorem Inv.changeListedFlag (h : ui.Inv) (asker : Asker) (identity : String) (flag : MessageFlag)
    (wanted : Bool) : (ui.changeListedFlag asker identity flag wanted).Inv := by
  rw [MailUi.changeListedFlag]
  split
  · exact h
  · exact h.tell trivial

theorem Inv.changeFlag (h : ui.Inv) (asker : Asker) (flag : MessageFlag) (wanted : Bool) :
    (ui.changeFlag asker flag wanted).Inv := by
  have hasked : (if flag = .seen ∧
      !wanted then { ui with pendingRead := false, log := .unreadAsked :: ui.log }
        else ui).Inv := by
    split
    · exact h.endSecond.tell trivial
    · exact h
  rw [MailUi.changeFlag]
  generalize (if flag = .seen ∧ !wanted then { ui with pendingRead := false, log := .unreadAsked ::
    ui.log } else ui) = ui₁ at hasked ⊢
  split
  · exact hasked
  · exact hasked.changeListedFlag asker _ flag wanted

theorem Inv.showContent (h : ui.Inv) (htold : ui.Told) (account : AccountId) (identity : String)
    (content : Except Failure (Option ReceivedContent)) :
    (ui.showContent account identity content).Inv := by
  have hanswered : { ui with log := .contentAnswered account identity content :: ui.log }.Inv :=
    h.tell trivial
  have hopen : ui.openMessageOf = some (account, identity) → ui.openMessage ≠ none := by
    intro hof hnone
    cases hnone.symm.trans (openMessage_of_openMessageOf hof)
  unfold MailUi.showContent
  dsimp only
  split
  · exact hanswered
  · rename_i hof
    split
    · exact hanswered.showBody (hopen (not_not.mp hof)) _
    · have hopen := openMessage_of_openMessageOf (not_not.mp hof)
      exact h.closeGone hopen (htold.opened.trans hopen)
    · exact hanswered.showBody (hopen (not_not.mp hof)) _

/-- **Every action** ends without a fault and keeps both invariants. -/
theorem act_kept (hinv : ui.Inv) (htold : ui.Told) {action : Action}
    (henabled : ui.Enabled action) : Kept (ui.act action) := by
  cases action with
  | showRows folder stored animates => exact showRows_kept hinv htold folder stored animates
  | showContent account identity content =>
    exact ⟨_, rfl, hinv.showContent htold account identity content,
      htold.showContent account identity content⟩
  | clear => exact ⟨_, rfl, (clear_kept hinv htold).1, (clear_kept hinv htold).2.1⟩
  | readOpenContentAgain =>
    refine ⟨_, rfl, ?_, ?_⟩ <;> rw [MailUi.readOpenContentAgain] <;> split
    · exact hinv.tell trivial
    · exact hinv
    · exact htold.requestContent _ _
    · exact htold
  | setUnreadFilter unreadOnly animates =>
    have htold' : { ui with unreadOnly := unreadOnly : MailUi }.Told :=
      htold.same ⟨rfl, rfl, rfl, rfl⟩ rfl
    have hready : { ui with unreadOnly := unreadOnly : MailUi }.Ready :=
      ⟨hinv.holds, hinv.listed, hinv.closed⟩
    refine updateShown_kept hready htold' (fun hnone => ?_) .atOnce animates
    exact ⟨⟨hinv.holds, hinv.listed, hinv.closed⟩, hinv.empty, fun folder stored hstored =>
      (by cases hnone.symm.trans hstored)⟩
  | activate position animates =>
    rw [act, MailUi.activate]
    have hlist := openAt_list ui position
    split
    · refine updateShown_kept (hinv.toReady.openAt position) (htold.openAt position)
        (fun hnone => ?_) .atOnce animates
      have hsame : ui.openAt position = ui := by
        rcases openAt_cases ui position with heq | ⟨_, _, _, -, hstored, -, -⟩
        · exact heq
        · cases hstored.symm.trans (hlist.listedRows.symm.trans hnone)
      rw [hsame]
      exact hinv
    · rename_i hfilter
      rw [Bool.not_eq_true, hlist.unreadOnly] at hfilter
      exact ⟨_, rfl, hinv.openAt hfilter position, htold.openAt position⟩
  | removeInWindow identity animates => exact removeInWindow_kept hinv htold identity animates
  | changeFlag flag wanted =>
    exact ⟨_, rfl, hinv.changeFlag .user flag wanted, htold.changeFlag flag wanted⟩
  | toggleRowStar item starShows =>
    refine ⟨_, rfl, ?_, ?_⟩ <;> rw [MailUi.toggleRowStar] <;> split
    · exact hinv.changeListedFlag .user _ _ _
    · exact hinv
    · exact htold.changeListedFlag .user fun hasker => (by cases hasker)
    · exact htold
  | afterClosing animates =>
    have htold' : { ui with pendingChange := false : MailUi }.Told :=
      htold.same ⟨rfl, rfl, rfl, rfl⟩ rfl
    have hready : { ui with pendingChange := false : MailUi }.Ready :=
      ⟨hinv.holds, hinv.listed, hinv.closed⟩
    refine updateShown_kept hready htold' (fun hnone => ?_) .animated animates
    exact ⟨⟨hinv.holds, hinv.listed, hinv.closed⟩, hinv.empty, fun folder stored hstored =>
      (by cases hnone.symm.trans hstored)⟩
  | readAfterOpening =>
    refine ⟨_, rfl, ?_, htold.readAfterOpening henabled⟩
    rw [MailUi.readAfterOpening]
    split
    · exact hinv.endSecond.changeFlag .opening .seen true
    · exact hinv.endSecond
  | frame =>
    refine ⟨_, rfl, hinv.frame, ?_⟩
    exact htold.same ⟨rfl, rfl, rfl, rfl⟩ rfl

end MailUi

end Mailbag.Window
