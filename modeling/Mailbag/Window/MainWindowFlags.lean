import Mailbag.Window.MainWindowListed

/-!
# The window writes flags in their order

The user's changes of flags are queued, and the oldest one is written.

## What is proved

* `Move.inTurn` — every move keeps the writes in their turn.
* `flags_written_in_order` — the user's changes of flags are written one at a time, in their order.
-/

namespace Mailbag.Window

open Collections Folders Interaction Loads OnlineAccounts Relation

namespace MainWindow

variable {collationKey : String → String} {w w' w₁ : MainWindow}

/-! ### Flags are written in their order -/

/-- The write that an event asks for. -/
def askedWrite : MailEvent → Option FlagWrite
  | .flagChange _ account identity flag wanted => some ⟨account, identity, flag, wanted⟩
  | _ => none

/-- The writes asked for, newest first. -/
def askedWrites (log : List MailEvent) : List FlagWrite := log.filterMap askedWrite

/-- The writes asked for have ended or are queued, in their order, and the oldest queued one alone
runs. -/
structure InTurn (w : MainWindow) : Prop where
  /-- What runs. -/
  running : w.runningWrites = w.flagWrites.head?.toList
  /-- What was asked for. -/
  asked : w.ended ++ w.flagWrites = (askedWrites w.mail.log).reverse

theorem askedWrites_quiet {ui ui' : MailUi} (h : ui.GrowsQuietly ui') :
    askedWrites ui'.log = askedWrites ui.log := by
  obtain ⟨new, hlog, hnew⟩ := h
  have hnone : askedWrites new = [] := by
    rw [askedWrites, List.filterMap_eq_nil_iff]
    intro event hmem
    cases event with
    | flagChange asker account identity flag wanted => cases hnew _ hmem
    | contentRequested => rfl
    | contentAnswered => rfl
    | rowRemoved => rfl
    | opened => rfl
    | closed => rfl
    | unreadAsked => rfl
  rw [hlog, askedWrites, List.filterMap_append]
  exact congrArg (· ++ askedWrites ui.log) hnone

theorem renderMail_quiet {mail : MailUi} (hmail : MailUi.Reached w.mail) {animates : Bool}
    (h : w.renderMail animates = .ok mail) : w.mail.GrowsQuietly mail := by
  rw [renderMail] at h
  split at h
  · exact .showRows hmail.kept.1.toReady h
  · cases h
    exact .same rfl
  · cases h
    exact .clear w.mail

/-- The queue stays where nothing is asked for. -/
theorem InTurn.quiet (h : InTurn w) (hwrites : w'.flagWrites = w.flagWrites)
    (hrunning : w'.runningWrites = w.runningWrites) (hended : w'.ended = w.ended)
    (hmail : w.mail.GrowsQuietly w'.mail) : InTurn w' where
  running := by rw [hrunning, hwrites, h.running]
  asked := by rw [hended, hwrites, h.asked, askedWrites_quiet hmail]

theorem InTurn.render (h : InTurn w) (hmail : MailUi.Reached w.mail) {animates : Bool}
    (hrender : w.render animates = .ok w') : InTurn w' := by
  obtain ⟨mail, hshown, rfl⟩ := render_eq hrender
  exact h.quiet rfl rfl rfl (renderMail_quiet hmail hshown)

/-- A write asked for runs where none is queued, and else waits for its turn. -/
theorem writeFlag_eq (w : MainWindow) (change : FlagWrite) : w.writeFlag change =
    { w with
      flagWrites := w.flagWrites ++ [change]
      runningWrites := if w.flagWrites = [] then w.runningWrites ++ [change]
        else w.runningWrites } := by
  rw [writeFlag]
  cases hwrites : w.flagWrites with
  | nil => simp [writeOldestFlag]
  | cons first rest => simp

theorem hearAll_inTurn {animates : Bool} {events : List MailEvent}
    (h : hearAll animates events w = .ok w') (hmail : MailUi.Reached w.mail)
    (hrunning : w.runningWrites = w.flagWrites.head?.toList)
    (hasked : w.ended ++ w.flagWrites ++ events.filterMap askedWrite =
      (askedWrites w.mail.log).reverse) : InTurn w' := by
  induction events generalizing w with
  | nil =>
    cases h
    exact ⟨hrunning, by simpa using hasked⟩
  | cons event events ih =>
    obtain ⟨heard, hheard, h⟩ := bind_eq_ok h
    cases event with
    | flagChange asker account identity flag wanted =>
      cases hheard
      refine ih h ((writeFlag_mail w _).symm ▸ hmail) ?_ ?_
      · rw [writeFlag_eq]
        cases hwrites : w.flagWrites with
        | nil => simp [hrunning, hwrites]
        | cons first rest => simp [hrunning, hwrites]
      · rw [writeFlag_eq, ← hasked]
        simp [askedWrite]
    | rowRemoved =>
      obtain ⟨mail, hshown, rfl⟩ := render_eq hheard
      have hquiet := askedWrites_quiet (renderMail_quiet hmail hshown)
      exact ih h (ReflTransGen.trans hmail (renderMail_step hshown).to_reflTransGen) hrunning
        (hasked.trans (congrArg List.reverse hquiet.symm))
    | contentRequested account identity =>
      cases hheard
      exact ih h hmail hrunning hasked
    | opened =>
      cases hheard
      exact ih h hmail hrunning hasked
    | closed =>
      cases hheard
      exact ih h hmail hrunning hasked
    | unreadAsked =>
      cases hheard
      exact ih h hmail hrunning hasked
    | contentAnswered =>
      cases hheard
      exact ih h hmail hrunning hasked

theorem Change.writes (h : Change collationKey w w') :
    w'.flagWrites = w.flagWrites ∧ w'.runningWrites = w.runningWrites ∧ w'.ended = w.ended := by
  cases h with
  | nothing => exact ⟨rfl, rfl, rfl⟩
  | updated update =>
    rw [takeUpdate]
    split <;> exact ⟨rfl, rfl, rfl⟩
  | selected => exact ⟨rfl, rfl, rfl⟩
  | cleared => exact ⟨rfl, rfl, rfl⟩
  | loadStarted => exact ⟨rfl, rfl, rfl⟩
  | loadEnded account target result => cases target <;> cases result <;> exact ⟨rfl, rfl, rfl⟩
  | rowsRead => exact ⟨rfl, rfl, rfl⟩
  | @listsRead answer =>
    cases answer with
    | ok lists =>
      rw [takeFolderLists_ok, showFolderLists_eq]
      exact ⟨rfl, rfl, rfl⟩
    | error failure =>
      rw [takeFolderLists_error]
      exact ⟨rfl, rfl, rfl⟩

theorem flagWriteEnded_writes (w : MainWindow) (change : FlagWrite)
    (written : Except Failure Unit) :
    (w.flagWriteEnded change written).ended = w.ended ++ [change] ∧
      (w.flagWriteEnded change written).flagWrites = w.flagWrites.tail ∧
      (w.flagWriteEnded change written).contentReads = w.contentReads ∧
      (w.flagWriteEnded change written).mail = w.mail ∧
      (w.flagWriteEnded change written).runningWrites =
        w.runningWrites.erase change ++ w.flagWrites.tail.head?.toList := by
  rw [flagWriteEnded, writeOldestFlag]
  split
  · rename_i hnone
    have hnone : w.flagWrites.tail.head? = none := hnone
    exact ⟨rfl, rfl, rfl, rfl, by simp [hnone, withUi]⟩
  · rename_i next hnext
    have hnext : w.flagWrites.tail.head? = some next := hnext
    exact ⟨rfl, rfl, rfl, rfl, by simp [hnext, withUi]⟩

/-- The write that ended was the oldest; the next one runs. -/
theorem InTurn.ended (h : InTurn w) {change : FlagWrite} (hwrite : change ∈ w.runningWrites)
    (written : Except Failure Unit) : InTurn (w.flagWriteEnded change written) := by
  obtain ⟨rest, hrest⟩ : ∃ rest, w.flagWrites = change :: rest := by
    rw [h.running] at hwrite
    cases hwrites : w.flagWrites with
    | nil =>
      rw [hwrites] at hwrite
      cases hwrite
    | cons first rest =>
      rw [hwrites] at hwrite
      exact ⟨rest, by rw [List.mem_singleton.mp hwrite]⟩
  have hnone : w.runningWrites.erase change = [] := by simp [h.running, hrest]
  obtain ⟨hended, hwrites, -, hmail, hrunning⟩ := flagWriteEnded_writes w change written
  refine ⟨?_, ?_⟩
  · rw [hrunning, hwrites, hnone, List.nil_append]
  · rw [hended, hwrites, hmail, ← h.asked, hrest]
    simp

/-- **Every move keeps the writes in their turn.** -/
theorem Move.inTurn (hmove : Move collationKey w w') (h : InTurn w)
    (hmail : MailUi.Reached w.mail) : InTurn w' := by
  cases hmove with
  | shown hchange hrender =>
    obtain ⟨hwrites, hrunning, hended⟩ := hchange.writes
    have hsame := hchange.mail
    exact (h.quiet hwrites hrunning hended (.same (congrArg MailUi.log hsame))).render
      (hsame.symm ▸ hmail) hrender
  | silent hsilent =>
    cases hsilent with
    | flagWritten hwrite written => exact h.ended hwrite written
    | contentRead account identity answer =>
      exact h.quiet rfl rfl rfl (.showContent w.mail account identity answer)
    | listsDropped hlate answer =>
      rw [takeFolderLists_late hlate]
      exact h.quiet rfl rfl rfl (.same rfl)
    | storeChanged => exact h.quiet rfl rfl rfl (.same rfl)
    | rowsDropped => exact h.quiet rfl rfl rfl (.same rfl)
    | folded => exact h.quiet rfl rfl rfl (.same rfl)
    | unfolded => exact h.quiet rfl rfl rfl (.same rfl)
    | listsReadAgain => exact h.quiet rfl rfl rfl (.same rfl)
    | quit => exact h.quiet rfl rfl rfl (.same rfl)
  | @acts action animates hheard henabled hacts =>
    obtain ⟨mail, hact, hall⟩ := actMail_eq hacts
    obtain ⟨new, hlog, -⟩ := MailUi.act_asks hmail.kept.1 henabled hact
    have hreached : MailUi.Reached mail := ReflTransGen.tail hmail ⟨action, henabled, hact⟩
    refine hearAll_inTurn hall hreached h.running ?_
    -- what the action told is what is new in the log
    have hnew : mail.log.take (mail.log.length - w.mail.log.length) = new := by simp [hlog]
    rw [hnew, List.filterMap_reverse, h.asked]
    change _ = (mail.log.filterMap askedWrite).reverse
    rw [hlog, List.filterMap_append, List.reverse_append]
    rfl

theorem Reached.inTurn (h : Reached collationKey w) : InTurn w :=
  h.keeps ⟨rfl, rfl⟩ fun _ _ hsane hturn hmove => hmove.inTurn hturn hsane.mail

/-! ### Two changes of flags -/

/-- The star of the inbox's message. -/
def starChange : FlagWrite := ⟨WindowUi.inbox.account, "7", .flagged, true⟩

/-- That it is read. -/
def readChange : FlagWrite := ⟨WindowUi.inbox.account, "7", .seen, true⟩

/-- In the inbox the message is starred, opened and marked read; the star was written. -/
theorem changing_reached : ∃ w, Reached id w ∧ w.ended = [starChange] ∧
    w.flagWrites = [readChange] ∧ w.contentReads ≠ [] := by
  obtain ⟨w, hw⟩ := inbox_reached
  obtain ⟨read, hmail⟩ := hw.mail
  -- it is starred
  obtain ⟨starred, hstarred⟩ : ∃ mail, mail = (oneListed read).toggleRowStar 0 true := ⟨_, rfl⟩
  obtain ⟨a, heq⟩ : ∃ a, a = { w with
      mail := starred, flagWrites := [starChange], runningWrites := [starChange] } := ⟨_, rfl⟩
  have ha : Reached id a := by
    refine hw.reached.tail ⟨.mail (.toggleRowStar 0 true), false, ⟨trivial, ?_⟩, ?_⟩
    · rw [hmail]
      exact List.mem_singleton_self 0
    · have hact : w.mail.act (.toggleRowStar 0 true) = .ok starred := by rw [hmail, hstarred]; rfl
      have hlog : starred.log = [.flagChange .user starChange.account "7" .flagged true] ++
          w.mail.log := by rw [hmail, hstarred]; rfl
      refine (actMail_of hact hlog false).trans (congrArg Except.ok ?_)
      refine (writeFlag_eq { w with mail := starred } starChange).trans ?_
      simp [heq, hw.flagWrites, hw.runningWrites]
  have hmailA : a.mail = starred := by rw [heq]
  -- opened
  obtain ⟨opened, hopened⟩ : ∃ mail, mail = starred.openAt 0 := ⟨_, rfl⟩
  obtain ⟨b, heqB⟩ : ∃ b, b = { a with
      mail := opened, contentReads := a.contentReads ++ [(starChange.account, "7")] } := ⟨_, rfl⟩
  have hb : Reached id b := by
    refine ha.tail ⟨.mail (.activate 0 false), false, ⟨trivial, trivial⟩, ?_⟩
    have hact : a.mail.act (.activate 0 false) = .ok opened := by
      rw [hmailA, hopened, hstarred]
      rfl
    have hlog : opened.log = [.contentRequested starChange.account "7", .opened "7"] ++
        a.mail.log := by
      rw [hmailA, hopened, hstarred]
      rfl
    rw [heqB]
    exact actMail_of hact hlog false
  have hmailB : b.mail = opened := by rw [heqB]
  -- marked read
  obtain ⟨marked, hmarked⟩ : ∃ mail, mail = opened.changeFlag .user .seen true := ⟨_, rfl⟩
  obtain ⟨c, heqC⟩ : ∃ c, c = { b with
      mail := marked, flagWrites := [starChange, readChange] } := ⟨_, rfl⟩
  have hc : Reached id c := by
    refine hb.tail ⟨.mail (.changeFlag .seen true), false, ⟨trivial, trivial⟩, ?_⟩
    have hact : b.mail.act (.changeFlag .seen true) = .ok marked := by
      rw [hmailB, hmarked]
      rfl
    have hlog : marked.log = [.flagChange .user readChange.account "7" .seen true] ++
        b.mail.log := by
      rw [hmailB, hmarked, hopened, hstarred]
      rfl
    refine (actMail_of hact hlog false).trans (congrArg Except.ok ?_)
    refine (writeFlag_eq { b with mail := marked } readChange).trans ?_
    simp [heqC, heqB, heq]
  -- and the star is written
  have hrunning : starChange ∈ c.runningWrites := by
    rw [heqC, heqB, heq]
    exact List.mem_singleton_self _
  have hd := hc.tail ⟨.flagWriteEnded starChange (.ok ()), false, hrunning, rfl⟩
  obtain ⟨hended, hwrites, hreads, -⟩ := flagWriteEnded_writes c starChange (.ok ())
  refine ⟨_, hd, ?_, ?_, ?_⟩
  · rw [hended, heqC, heqB, heq]
    exact congrArg (· ++ [starChange]) hw.ended
  · rw [hwrites, heqC]
    rfl
  · rw [hreads, heqC, heqB]
    exact List.append_ne_nil_of_right_ne_nil _ (List.cons_ne_nil _ _)

/-! ### In every run -/

/-- **Flags are written one at a time, in the order the user changed them.** In every run the writes
that ended and those queued are the changes asked for, each once and in their order, and the oldest
queued one runs alone. -/
theorem flags_written_in_order (h : Reached collationKey w) :
    w.ended ++ w.flagWrites = (askedWrites w.mail.log).reverse ∧
      w.runningWrites = w.flagWrites.head?.toList := by
  have hturn := h.inTurn
  exact ⟨hturn.asked, hturn.running⟩

theorem flags_written_in_order_changing : ∃ w, Reached id w ∧ w.ended = [starChange] ∧
    w.flagWrites = [readChange] ∧ w.ended ++ w.flagWrites = (askedWrites w.mail.log).reverse ∧
    w.runningWrites = w.flagWrites.head?.toList := by
  obtain ⟨w, hw, hended, hwrites, -⟩ := changing_reached
  exact ⟨w, hw, hended, hwrites, flags_written_in_order hw⟩

end MainWindow

end Mailbag.Window
