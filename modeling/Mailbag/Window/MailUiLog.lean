import Mailbag.Window.MailUi

/-!
# What the log of the list and the reader says

The log tells what was opened and closed, what was asked and what was answered. The message
the reader shows is read off it, with what happened since it was opened.
-/

namespace Mailbag.Window

/-! ### Since the open message was opened -/

/-- The message opened last, unless the reader was closed since, and what happened since, newest
first. -/
def sinceOpened : List MailEvent → Option (String × List MailEvent)
  | [] => none
  | .opened identity :: _ => some (identity, [])
  | .closed :: _ => none
  | event :: log => (sinceOpened log).map fun opened => (opened.1, event :: opened.2)

/-- The event opens no message and closes none. -/
def MailEvent.KeepsMessage : MailEvent → Prop
  | .opened _ => False
  | .closed => False
  | _ => True

/-- The event ends the second after an opening: it marked the message read, or the user marked it
unread. -/
def MailEvent.EndsSecond : MailEvent → Prop
  | .unreadAsked => True
  | .flagChange .opening .. => True
  | _ => False

/-- The message that the window is asked to read or to change, with its account. -/
def MailEvent.asked : MailEvent → Option (AccountId × String)
  | .contentRequested account identity => some (account, identity)
  | .flagChange _ account identity _ _ => some (account, identity)
  | _ => none

@[simp] theorem sinceOpened_opened (identity : String) (log : List MailEvent) :
    sinceOpened (.opened identity :: log) = some (identity, []) := rfl

@[simp] theorem sinceOpened_closed (log : List MailEvent) :
    sinceOpened (.closed :: log) = none := rfl

theorem sinceOpened_cons {event : MailEvent} (h : event.KeepsMessage) (log : List MailEvent) :
    sinceOpened (event :: log) =
      (sinceOpened log).map fun opened => (opened.1, event :: opened.2) := by
  cases event with
  | opened => exact h.elim
  | closed => exact h.elim
  | unreadAsked => rfl
  | contentRequested => rfl
  | contentAnswered => rfl
  | flagChange => rfl
  | rowRemoved => rfl

/-- The message was opened, and since then no other was, the reader was not closed, the user did not
mark it unread and it was not marked read. -/
def OpenSince (log : List MailEvent) (identity : String) : Prop :=
  ∃ since, sinceOpened log = some (identity, since) ∧ ∀ event ∈ since, ¬event.EndsSecond

/-- A mark that the second after an opening asks for is the read mark of the message opened. -/
def MarkedInTime (event : MailEvent) (before : List MailEvent) : Prop :=
  ∀ account identity flag wanted, event = .flagChange .opening account identity flag wanted →
    flag = .seen ∧ wanted = true ∧ OpenSince before identity

/-- The window answered that this is the open message's content. -/
def AnsweredSince (log : List MailEvent) (account : AccountId) (identity : String)
    (content : Except Failure ReceivedContent) : Prop :=
  ∃ since, sinceOpened log = some (identity, since) ∧
    .contentAnswered account identity (content.map some) ∈ since

/-! ### A message that went -/

/-- The window answered that the store no longer holds the open message, which closed the reader,
and no message was opened or closed since. -/
def GoneSince (log : List MailEvent) (identity : String) : Prop :=
  ∃ since account before,
    log = since ++ .closed :: .contentAnswered account identity (.ok none) :: before ∧
      (∀ event ∈ since, event.KeepsMessage) ∧ (sinceOpened before).map Prod.fst = some identity

theorem GoneSince.cons {event : MailEvent} {log : List MailEvent} {identity : String}
    (h : GoneSince log identity) (hkeeps : event.KeepsMessage) :
    GoneSince (event :: log) identity := by
  obtain ⟨since, account, before, rfl, hquiet, hopened⟩ := h
  exact ⟨event :: since, account, before, rfl, List.forall_mem_cons.mpr ⟨hkeeps, hquiet⟩, hopened⟩

end Mailbag.Window
