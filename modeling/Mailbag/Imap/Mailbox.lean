import Mailbag.Domain
import Mathlib.Data.Finset.Card

/-!
# A mailbox and its history

A mailbox that obeys RFC 3501 and RFC 7162, in its own terms: the messages it holds by
their UIDs, UIDNEXT, and the mod-sequences of its messages. Nothing here says what a
client knows of it.

## The model

`Keeps m m'` is what may happen to a mailbox under one UIDVALIDITY, in one change or in
many: messages arrive with UIDs from UIDNEXT on, messages leave, and a message whose
flags change takes a mod-sequence above HIGHESTMODSEQ. A mailbox may also be renumbered,
which raises UIDVALIDITY (`Becomes`). A mailbox that keeps no mod-sequences is one that
never tells them. A `MailboxHistory` is the mailbox at every moment.

## What is proved

* `Keeps.mem_between` — a UID is never used again.
* `Keeps.uids_eq` — with equal UIDNEXT and as many messages the messages are the same.
* `Keeps.flags_eq` — a message whose mod-sequence is not above an earlier HIGHESTMODSEQ has
  the flags it had then.
-/

namespace Mailbag.Imap

/-- A mailbox at one moment. -/
structure Mailbox where
  /-- UIDVALIDITY. -/
  uidValidity : UInt32
  /-- UIDNEXT. -/
  uidNext : ℕ
  /-- The UIDs of its messages. -/
  uids : Finset UInt32
  /-- Their flags. -/
  flags : UInt32 → MessageFlags
  /-- X-GM-MSGID, in a Gmail mailbox. -/
  gmailMsgId : UInt32 → Option UInt64
  /-- Their mod-sequences. -/
  modseq : UInt32 → ℕ
  /-- HIGHESTMODSEQ. -/
  highestModseq : ℕ
  /-- UIDNEXT is above every UID. -/
  below : ∀ uid ∈ uids, uid.toNat < uidNext
  /-- HIGHESTMODSEQ is the highest mod-sequence. -/
  highest : ∀ uid ∈ uids, modseq uid ≤ highestModseq
  /-- A Gmail mailbox has a message once. -/
  once : ∀ uid ∈ uids, ∀ uid' ∈ uids, (gmailMsgId uid).isSome → gmailMsgId uid = gmailMsgId uid' →
    uid = uid'

namespace Mailbox

/-- What a mailbox may become under one UIDVALIDITY. -/
structure Keeps (m m' : Mailbox) : Prop where
  /-- UIDNEXT never falls. -/
  uidNext : m.uidNext ≤ m'.uidNext
  /-- An arrival takes a UID not below UIDNEXT. -/
  arrives : ∀ uid ∈ m'.uids, uid ∉ m.uids → m.uidNext ≤ uid.toNat
  /-- A message keeps its Gmail identifier. -/
  gmailMsgId : ∀ uid ∈ m.uids, uid ∈ m'.uids → m'.gmailMsgId uid = m.gmailMsgId uid
  /-- Its mod-sequence never falls. -/
  modseq : ∀ uid ∈ m.uids, uid ∈ m'.uids → m.modseq uid ≤ m'.modseq uid
  /-- A change of its flags raises it above HIGHESTMODSEQ. -/
  flags : ∀ uid ∈ m.uids, uid ∈ m'.uids → m'.flags uid ≠ m.flags uid →
    m.highestModseq < m'.modseq uid
  /-- HIGHESTMODSEQ never falls. -/
  highestModseq : m.highestModseq ≤ m'.highestModseq

/-- What a mailbox may become: it keeps its numbering, or is renumbered. -/
def Becomes (m m' : Mailbox) : Prop :=
  m.uidValidity.toNat < m'.uidValidity.toNat ∨ m'.uidValidity = m.uidValidity ∧ m.Keeps m'

variable {m m' m'' : Mailbox}

theorem Keeps.refl (m : Mailbox) : m.Keeps m :=
  ⟨le_rfl, fun _ h h' => absurd h h', fun _ _ _ => rfl, fun _ _ _ => le_rfl, fun _ _ _ h =>
    absurd rfl h, le_rfl⟩

/-- A message that is there before and after was there in between. -/
theorem Keeps.mem_between (h : m.Keeps m') (h' : m'.Keeps m'') {uid : UInt32} (hm : uid ∈ m.uids)
    (hm'' : uid ∈ m''.uids) : uid ∈ m'.uids := by
  by_contra hnot
  have harrived := h'.arrives uid hm'' hnot
  have hbelow := m.below uid hm
  have hnext := h.uidNext
  omega

theorem Keeps.trans (h : m.Keeps m') (h' : m'.Keeps m'') : m.Keeps m'' := by
  refine ⟨h.uidNext.trans h'.uidNext, fun uid hm'' hm => ?_, fun uid hm hm'' => ?_,
    fun uid hm hm'' => ?_,
    fun uid hm hm'' hne => ?_, h.highestModseq.trans h'.highestModseq⟩
  · by_cases hm' : uid ∈ m'.uids
    · exact h.arrives uid hm' hm
    · exact h.uidNext.trans (h'.arrives uid hm'' hm')
  · have hm' := h.mem_between h' hm hm''
    exact (h'.gmailMsgId uid hm' hm'').trans (h.gmailMsgId uid hm hm')
  · have hm' := h.mem_between h' hm hm''
    exact (h.modseq uid hm hm').trans (h'.modseq uid hm' hm'')
  · have hm' := h.mem_between h' hm hm''
    by_cases he : m'.flags uid = m.flags uid
    · exact lt_of_le_of_lt h.highestModseq (h'.flags uid hm' hm'' (he ▸ hne))
    · exact lt_of_lt_of_le (h.flags uid hm hm' he) (h'.modseq uid hm' hm'')

theorem Keeps.subset (h : m.Keeps m') (hnext : m'.uidNext = m.uidNext) : m'.uids ⊆ m.uids := by
  intro uid hm'
  by_contra hm
  have harrived := h.arrives uid hm' hm
  have hbelow := m'.below uid hm'
  omega

/-- **With equal UIDNEXT and as many messages the messages are the same.** -/
theorem Keeps.uids_eq (h : m.Keeps m') (hnext : m'.uidNext = m.uidNext)
    (hcard : m'.uids.card = m.uids.card) : m'.uids = m.uids :=
  Finset.eq_of_subset_of_card_le (h.subset hnext) hcard.ge

/-- **A message not changed above HIGHESTMODSEQ has the flags it had.** -/
theorem Keeps.flags_eq (h : m.Keeps m') {uid : UInt32} (hm : uid ∈ m.uids) (hm' : uid ∈ m'.uids)
    (hmodseq : m'.modseq uid ≤ m.highestModseq) : m'.flags uid = m.flags uid := by
  by_contra hne
  have := h.flags uid hm hm' hne
  omega

theorem Keeps.flags_between (h : m.Keeps m') (h' : m'.Keeps m'') {uid : UInt32} (hm : uid ∈ m.uids)
    (hm'' : uid ∈ m''.uids) (hmodseq : m''.modseq uid ≤ m.highestModseq) :
    m'.flags uid = m.flags uid := by
  have hm' := h.mem_between h' hm hm''
  exact h.flags_eq hm hm' ((h'.modseq uid hm' hm'').trans hmodseq)

end Mailbox

/-- A mailbox at every moment. -/
structure MailboxHistory where
  /-- The mailbox at a moment. -/
  moment : ℕ → Mailbox
  /-- From each moment to the next it obeys the protocol. -/
  lawful : ∀ n, (moment n).Becomes (moment (n + 1))

namespace MailboxHistory

open Mailbox

variable (history : MailboxHistory)

theorem becomes {i j : ℕ} (hij : i ≤ j) :
    (history.moment i).uidValidity.toNat ≤ (history.moment j).uidValidity.toNat ∧
      ((history.moment j).uidValidity = (history.moment i).uidValidity → (history.moment i).Keeps
        (history.moment j)) := by
  induction j, hij using Nat.le_induction with
  | base => exact ⟨le_rfl, fun _ => Keeps.refl _⟩
  | succ j _ ih =>
    obtain ⟨hle, hkeeps⟩ := ih
    rcases history.lawful j with hlt | ⟨hsame, hstep⟩
    · refine ⟨by omega, fun heq => ?_⟩
      rw [heq] at hlt
      omega
    · exact ⟨by rw [hsame]; exact hle, fun heq => (hkeeps (hsame ▸ heq)).trans hstep⟩

theorem uidValidity_between {i j k : ℕ} (hij : i ≤ j) (hjk : j ≤ k)
    (hsame : (history.moment k).uidValidity = (history.moment i).uidValidity) :
    (history.moment j).uidValidity = (history.moment i).uidValidity := by
  have hle := (history.becomes hij).1
  have hle' := (history.becomes hjk).1
  rw [hsame] at hle'
  exact UInt32.toNat_inj.mp (le_antisymm hle' hle)

/-- **The mailbox keeps its numbering** between two moments under one UIDVALIDITY. -/
theorem keeps {i j k l : ℕ} (hij : i ≤ j) (hjk : j ≤ k) (hkl : k ≤ l)
    (hsame : (history.moment l).uidValidity = (history.moment i).uidValidity) :
    (history.moment j).Keeps (history.moment k) := by
  refine (history.becomes hjk).2 ?_
  rw [history.uidValidity_between hij (hjk.trans hkl) hsame,
    history.uidValidity_between (hij.trans hjk) hkl hsame]

end MailboxHistory

end Mailbag.Imap
