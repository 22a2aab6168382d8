import Mailbag.Imap.Mailbox
import Mailbag.Imap.Rules

/-!
# The server of a mailbox

A server that answers the commands of a cycle by the history of one mailbox. A command
takes time: it is answered between two moments, and what it says of a message is what the
message was at some moment between them. Others change the mailbox at any time; a STORE
command is one of the changes of the history.
-/

namespace Mailbag.Imap

open Cycle Interaction Relation Store

/-- The numbers an opening may return. -/
structure Mailbox.Opens (m : Mailbox) (numbers : MailboxNumbers) : Prop where
  /-- UIDVALIDITY. -/
  uidValidity : ∀ v, numbers.uidValidity = some v → m.uidValidity = v
  /-- EXISTS. -/
  messageCount : numbers.messageCount.toNat = m.uids.card
  /-- UIDNEXT. -/
  uidNext : ∀ n, numbers.uidNext = some n → n.toNat = m.uidNext
  /-- HIGHESTMODSEQ. -/
  highestModseq : ∀ n, numbers.highestModseq = some n → n.toNat = m.highestModseq

/-- The command asks for flags. -/
def FetchItems.AsksFlags : FetchItems → Prop
  | .listing .. => True
  | .rows .. => True
  | _ => False

/-- The command asks for Gmail's identifier. -/
def FetchItems.AsksIdentifier : FetchItems → Prop
  | .listing items _ => items = .withGmailAttributes
  | .rows items _ => items = .withGmailAttributes
  | _ => False

/-- The command names the message: by its UID, or as one changed above a mod-sequence. -/
def Mailbox.Named (m : Mailbox) (set : UidSet) (items : FetchItems) (uid : UInt32) : Prop :=
  match set, items with
  | .uids uids, _ => uid ∈ uids
  | .all, .listing _ (some since) => since.toNat < m.modseq uid
  | .all, _ => True

instance (m : Mailbox) (set : UidSet) (items : FetchItems) (uid : UInt32) :
    Decidable (m.Named set items uid) :=
  match set, items with
  | .uids uids, _ => inferInstanceAs (Decidable (uid ∈ uids))
  | .all, .listing _ (some since) => inferInstanceAs (Decidable (since.toNat < m.modseq uid))
  | .all, .listing _ none | .all, .rows .. | .all, .structure' | .all, .sections .. =>
    inferInstanceAs (Decidable True)

/-- The responses to a command given at moment `a` and completed at moment `b`. -/
structure MailboxHistory.Answers (history : MailboxHistory) (a b : ℕ) (set : UidSet)
    (items : FetchItems) (responses : List Fetch) : Prop where
  /-- What they say of a message was so at some moment. -/
  said : items.AsksFlags → ∀ uid, Names responses uid → ∃ n, a ≤ n ∧ n ≤ b ∧
    uid ∈ (history.moment n).uids ∧
    lastFlags responses uid = some ((history.moment n).flags uid) ∧
      (items.AsksIdentifier → lastGmailId responses uid = (history.moment n).gmailMsgId uid)
  /-- A message the command names that is there all the time is answered. -/
  answered : ∀ uid, (history.moment a).Named set items uid →
    (∀ n, a ≤ n → n ≤ b → uid ∈ (history.moment n).uids) →
    Imap.Answers responses uid items

/-- The server of a mailbox: every command completes with OK. Its world is the moment. -/
abbrev mailboxServer (history : MailboxHistory) : Server ImapCommand.Reply where
  World := ℕ
  step a b := a ≤ b
  answer a command answer b := a ≤ b ∧
    match command, answer with
    | .openMailbox _, .ok numbers =>
      ∃ n, a ≤ n ∧ n ≤ b ∧ (history.moment n).Opens numbers ∧ numbers.uidValidity.isSome
    | .openMailbox _, .error _ => False
    | .select _, .ok numbers =>
      ∃ n, a ≤ n ∧ n ≤ b ∧ (history.moment n).Opens numbers ∧ numbers.uidValidity.isSome
    | .select _, .error _ => False
    | .uidFetch set items, answer =>
      answer.ended = none ∧ history.Answers a b set items answer.responses
    | .uidStore _ _ _, answer => answer.ended = none

/-- What the responses say of a message was so at some moment between two. -/
def MailboxHistory.Truthful (history : MailboxHistory) (a b : ℕ) (items : FetchItems)
    (responses : List Fetch) : Prop :=
  items.AsksFlags → ∀ uid, Names responses uid → ∃ n, a ≤ n ∧ n ≤ b ∧
  uid ∈ (history.moment n).uids ∧
    lastFlags responses uid = some ((history.moment n).flags uid)

/-- What a server's openings return: the mailbox's numbers, each time those it keeps of the
mailbox, UIDNEXT and HIGHESTMODSEQ or not. -/
structure Openings (history : MailboxHistory) where
  /-- The numbers returned of a mailbox. -/
  numbers : Mailbox → MailboxNumbers
  /-- They are its numbers. -/
  opens : ∀ n, (history.moment n).Opens (numbers (history.moment n))

/-- The server of a mailbox that may also refuse a command or break it off: what it says
is so, and a command that completes with OK is answered. Its world is the moment. -/
abbrev lawfulServer (history : MailboxHistory) (openings : Openings history) :
    Server ImapCommand.Reply where
  World := ℕ
  step a b := a ≤ b
  answer a command answer b := a ≤ b ∧
    match command, answer with
    | .openMailbox _, .ok numbers =>
      ∃ n, a ≤ n ∧ n ≤ b ∧ numbers = openings.numbers (history.moment n)
    | .openMailbox _, .error _ => True
    | .select _, .ok numbers => ∃ n, a ≤ n ∧ n ≤ b ∧ numbers = openings.numbers (history.moment n)
    | .select _, .error _ => True
    | .uidFetch set items, answer => history.Truthful a b items answer.responses ∧
        (answer.ended = none → history.Answers a b set items answer.responses)
    | .uidStore _ _ _, _ => True

variable {history : MailboxHistory}

/-- Its world goes from moment to later moment. -/
theorem moments_of_leads {a b : ℕ} (h : ReflTransGen (mailboxServer history).Leads a b) :
    a ≤ b := by
  induction h with
  | refl => exact le_rfl
  | tail _ hstep ih =>
    rcases hstep with hstep | ⟨_, _, hanswer⟩
    · exact ih.trans hstep
    · exact ih.trans hanswer.1

/-- An opening's numbers are those of a moment. -/
theorem opens_of_opening {e : Happened (mailboxServer history)} {numbers : MailboxNumbers}
    (hopening : opening? e = some numbers)
    (hreal : answered (mailboxServer history) e.before e.op e.ans e.after) :
    ∃ n, e.before.1 ≤ n ∧ n ≤ e.after.1 ∧ (history.moment n).Opens numbers ∧
      numbers.uidValidity.isSome := by
  obtain ⟨before, op, answer, after⟩ := e
  cases op with
  | store op => cases hopening
  | server c =>
    obtain ⟨⟨-, hanswer⟩, -⟩ := hreal
    cases c with
    | openMailbox mailbox =>
      cases answer with
      | ok numbers' =>
        cases hopening
        exact hanswer
      | error e => cases hopening
    | select mailbox =>
      cases answer with
      | ok numbers' =>
        cases hopening
        exact hanswer
      | error e => cases hopening
    | uidFetch => cases hopening
    | uidStore => cases hopening

end Mailbag.Imap
