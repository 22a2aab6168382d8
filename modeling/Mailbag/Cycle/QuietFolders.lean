import Mailbag.Cycle.Settled

/-!
# A folder that is as its mailbox is

The mailbox of a Generic IMAP folder has not changed since the last opening of a cycle that
ended with the folder synchronized and no refusal. The folder then holds its messages and
flags and is marked with its numbers.

## What is proved

* `passBatch_quiet` — a pass that lists what the folder holds stores nothing.
* `ready_of_settled` — after the first cycle the folder is as the mailbox is (`Ready`).
-/

namespace Mailbag.Cycle

open Collections Imap Interaction Program Relation Store

variable {history : MailboxHistory} {openings : Openings history} {folder : FolderRef} {m : Mailbox}
  {t t' : Tables}

/-! ### What a listing says of a mailbox that stays as it is -/

section Still

variable {a b : ℕ} {items : RowItems} {since : Option UInt64} {responses : List Fetch}

/-- A listed message is one of the mailbox, with its flags. -/
theorem listed_of_truthful {start : String}
    (ht : history.Truthful a b (.listing items since) responses)
    (hstill : ∀ k, a ≤ k → k ≤ b → history.moment k = m) {message : ListedMessage}
    (hm : message ∈ identified (some start) (listing responses)) :
    message.uid ∈ m.uids ∧ identityIn (some start) m message.uid = some message.identity ∧
      message.flags = m.flags message.uid := by
  obtain ⟨hnames, hi, hflags⟩ := mem_identified.mp hm
  obtain ⟨n, han, hnb, hmem, hlast⟩ := ht trivial message.uid hnames
  rw [hstill n han hnb] at hmem hlast
  exact ⟨hmem, hi, by rw [hflags, hlast]; rfl⟩

/-- A completed listing of every message shows each of the mailbox. -/
theorem listed_of_answers (start : String)
    (ha : history.Answers a b .all (.listing items none) responses)
    (hstill : ∀ k, a ≤ k → k ≤ b → history.moment k = m) {uid : UInt32} (hmem : uid ∈ m.uids) :
    ∃ message ∈ identified (some start) (listing responses), message.uid = uid ∧
      identityIn (some start) m uid = some message.identity := by
  have hthere : ∀ n, a ≤ n → n ≤ b → uid ∈ (history.moment n).uids ∧
      identityIn (some start) (history.moment n) uid = some (start ++ toString uid) :=
    fun n han hnb => by rw [hstill n han hnb]; exact ⟨hmem, rfl⟩
  have hitems : (some start : Option String) = none → items = .withGmailAttributes := nofun
  obtain ⟨message, hm, huid, hid⟩ := listed_of_there ha hitems trivial hthere
  exact ⟨message, hm, huid, hid ▸ rfl⟩

/-- A folder that holds what a completed listing showed is as the mailbox is. -/
theorem mirrors_of_reflects {start : String}
    (ht : history.Truthful a b (.listing items none) responses)
    (ha : history.Answers a b .all (.listing items none) responses)
    (hstill : ∀ k, a ≤ k → k ≤ b → history.moment k = m)
    (hreflects : Reflects (identified (some start) (listing responses)) folder t) :
    Mirrors (some start) m folder t := by
  intro identity flags
  rw [hreflects identity flags]
  constructor
  · rintro ⟨message, hm, rfl, rfl⟩
    obtain ⟨hmem, hid, hflags⟩ := listed_of_truthful ht hstill hm
    exact ⟨message.uid, hmem, hid, hflags.symm⟩
  · rintro ⟨uid, hmem, hid, rfl⟩
    obtain ⟨message, hm, rfl, hid'⟩ := listed_of_answers start ha hstill hmem
    obtain ⟨-, -, hflags⟩ := listed_of_truthful ht hstill hm
    exact ⟨message, hm, Option.some.inj (hid'.symm.trans hid), hflags⟩

end Still

/-! ### A folder that is as the mailbox is -/

/-- No change of the folder's messages is pending. -/
def NoPending (folder : FolderRef) (t : Tables) : Prop :=
  ∀ folderId, t.storedFolderId folder = some folderId → t.readPendingChanges folderId = []

/-- The folder is as a mailbox is, whose openings return the numbers: it is marked with them,
and unless they call for no listing it holds the mailbox's messages with their flags. -/
structure Ready (folder : FolderRef) (m : Mailbox) (numbers : MailboxNumbers) (t : Tables) :
    Prop where
  /-- The store's shape. -/
  shape : Shape t
  /-- The mark. -/
  marked : MarkedWith folder numbers t
  /-- The messages. -/
  rows : passPlan (folderNumbers numbers) (some (folderNumbers numbers)) false = .nothing ∨
    ∀ generic, genericPrefix .generic folder.identity numbers.uidValidity = .ok generic →
      Mirrors generic m folder t

/-- What keeps the folder's rows keeps it so. -/
theorem Ready.same {numbers : MailboxNumbers} (hr : Ready folder m numbers t) (hshape : Shape t')
    (hstate : t'.state? folder = t.state? folder)
    (hheld : ∀ identity, t'.heldFlags folder identity = t.heldFlags folder identity) :
    Ready folder m numbers t' := by
  obtain ⟨-, ⟨state, hs, hmark⟩, hrows⟩ := hr
  refine ⟨hshape, ⟨state, hstate.trans hs, hmark⟩, hrows.imp_right
    fun hmirrors generic hgeneric identity flags => ?_⟩
  rw [hheld]
  exact hmirrors generic hgeneric identity flags

theorem Ready.kept {numbers : MailboxNumbers} (hr : Ready folder m numbers t)
    (hk : Kept t t') : Ready folder m numbers t' :=
  hr.same (hk.shape hr.shape) (hk.toStays.state folder) (hk.heldFlags folder)

/-- **A pass that lists what the folder holds** stores nothing and misses no message. -/
theorem passBatch_quiet {listed : List ListedMessage} {refusal : Option ServerReply}
    {stored : FolderSync} {numbers : FolderNumbers} {plan : PassPlan}
    (hmarked : stored.state.synchronized ∧ stored.state.numbers = some numbers)
    (hheld : ∀ message ∈ listed, stored.get message.identity = some message.flags)
    (hall : refusal = none → plan = .everything → ∀ identity, (stored.get identity).isSome →
      identity ∈ listed.map ListedMessage.identity) :
    passBatch listed refusal stored numbers plan = .default ∧
      missingMessages listed stored = [] := by
  have hmissing : missingMessages listed stored = [] := by
    refine List.eq_nil_iff_forall_not_mem.mpr fun message hm => ?_
    obtain ⟨hm, hnone⟩ := mem_missingMessages.mp hm
    rw [hheld message hm] at hnone
    cases hnone
  have hremoved : (passBatch listed refusal stored numbers plan).removed = [] := by
    refine List.eq_nil_iff_forall_not_mem.mpr fun identity hr => ?_
    obtain ⟨hrefusal, hplan, hstored, hnot⟩ := mem_removed.mp hr
    exact hnot (hall hrefusal hplan identity (get_isSome_iff.mpr hstored))
  have hflags : (passBatch listed refusal stored numbers plan).flagStates = [] := by
    refine List.map_eq_nil_iff.mpr (List.filter_eq_nil_iff.mpr fun message hm => ?_)
    simp [hheld message hm]
  have hstate : (passBatch listed refusal stored numbers plan).state = none := by
    simp [passBatch, passState, hmissing, hmarked]
  have hfields : passBatch listed refusal stored numbers plan =
      ⟨(passBatch listed refusal stored numbers plan).removed,
        (passBatch listed refusal stored numbers plan).flagStates, [], [],
        (passBatch listed refusal stored numbers plan).state⟩ := rfl
  rw [hfields, hremoved, hflags, hstate]
  exact ⟨rfl, hmissing⟩

/-! ### The first cycle -/

/-- The latest opening of a run saw the mailbox as it is ever since, up to moment `last`. -/
def UnchangedSince (openings : Openings history) (tr : History (lawfulServer history openings))
    (last : ℕ) : Prop :=
  ∃ (pre post : History (lawfulServer history openings)) (g : Happened
    (lawfulServer history openings)) (n : ℕ),
    tr = pre ++ g :: post ∧ opening? g = some (openings.numbers (history.moment n)) ∧
    (∀ e ∈ post, opening? e = none) ∧ g.before.1 ≤ n ∧ n ≤ g.after.1 ∧
      ∀ k, n ≤ k → k ≤ last → history.moment k = history.moment n

/-- The server's world goes from moment to later moment. -/
theorem moves_le {s u : ℕ × Tables} (hm : moves (lawfulServer history openings) s u) :
    s.1 ≤ u.1 := by
  rcases hm with ⟨hstep, -⟩ | ⟨hsame, -⟩
  · exact hstep
  · exact hsame.ge

theorem answered_le {s u : ℕ × Tables} {o : CycleOp ImapCommand}
    {answer : CycleAns ImapCommand.Reply o}
    (ha : answered (lawfulServer history openings) s o answer u) : s.1 ≤ u.1 := by
  cases o with
  | store op => exact ha.1.ge
  | server c => exact ha.1.1

theorem run_ordered {α : Type} {p : ImapCycle α} {s u : ℕ × Tables}
    {tr : History (lawfulServer history openings)} {r : Outcome CycleEnd α}
    (hrun : Run (surroundings (lawfulServer history openings)) p s tr r u) :
    s.1 ≤ u.1 ∧ (∀ e ∈ tr, s.1 ≤ e.before.1 ∧ e.after.1 ≤ u.1) ∧
      tr.Pairwise fun e e' => e.after.1 ≤ e'.before.1 := by
  have hmove : ∀ s u : ℕ × Tables, moves (lawfulServer history openings) s u → s.1 ≤ u.1 :=
    fun _ _ => moves_le
  have hanswer : ∀ (s : ℕ × Tables) o answer (u : ℕ × Tables), answered
    (lawfulServer history openings) s o answer u →
      s.1 ≤ u.1 := fun _ _ _ _ => answered_le
  have htrans : ∀ s t u : ℕ × Tables, s.1 ≤ t.1 → t.1 ≤ u.1 → s.1 ≤ u.1 := fun _ _ _ => le_trans
  exact hrun.ordered (fun s u : ℕ × Tables => s.1 ≤ u.1) (fun s => Nat.le_refl s.1) htrans
    hmove hanswer

theorem numbersAt_of_last {S : Server ImapCommand.Reply} {pre post : History S} {g : Happened S}
    {numbers : MailboxNumbers} (hg : opening? g = some numbers)
    (hpost : ∀ e ∈ post, opening? e = none) : numbersAt (pre ++ g :: post) = some numbers := by
  rw [numbersAt, List.reverse_append, List.reverse_cons, List.findSome?_append,
    List.findSome?_append]
  rw [List.findSome?_eq_none_iff.mpr fun e he => hpost e (List.mem_reverse.mp he)]
  simp [hg]

/-- **After the first cycle** the folder is as the mailbox is. -/
theorem ready_of_settled {α : Type} {p : ImapCycle α} {s u : ℕ × Tables}
    {tr : History (lawfulServer history openings)} {r : Outcome CycleEnd α}
    (hrun : Run (surroundings (lawfulServer history openings)) p s tr r u) {last : ℕ}
    (hlast : u.1 ≤ last) (hunchanged : UnchangedSince openings tr last) (hshape : Shape u.2)
    {numbers : MailboxNumbers} (hn : numbersAt tr = some numbers)
    (hsettled : Settled folder numbers tr u.2) :
    ∃ n ≤ u.1, (∀ k, n ≤ k → k ≤ last → history.moment k = history.moment n) ∧
      numbers = openings.numbers (history.moment n) ∧
      Ready folder (history.moment n) numbers u.2 := by
  obtain ⟨pre, post, g, n, rfl, hg, hpost, hbefore, hafter, hstill⟩ := hunchanged
  obtain rfl : openings.numbers (history.moment n) = numbers :=
    Option.some.inj ((numbersAt_of_last hg hpost).symm.trans hn)
  obtain ⟨-, hends, hpairs⟩ := run_ordered hrun
  have hgend := (hends g (by simp)).2
  refine ⟨n, hafter.trans hgend, hstill, rfl, hshape, hsettled.marked, ?_⟩
  rcases hsettled.rows with hnothing | ⟨listed, hlisted, hreflects⟩
  · exact .inl hnothing
  · refine .inr fun generic hgeneric => ?_
    generalize hh : pre ++ g :: post = h at hlisted
    cases hlisted with
    | empty hcount =>
      -- an empty mailbox, and nothing held
      have hcard := (openings.opens n).messageCount
      rw [hcount] at hcard
      have hnone := Finset.card_eq_zero.mp hcard.symm
      intro identity flags
      rw [hreflects identity flags, hnone]
      simp
    | @listing h₁ h₂ l answer generic' hlists hended hquiet hgeneric' =>
      -- the listing came after the opening
      obtain ⟨before, items, after, rfl⟩ := hlists
      have hl : (⟨before, .server (.uidFetch .all (.listing items none)), answer, after⟩ :
          Happened (lawfulServer history openings)) ∈ post := by
        rcases List.append_eq_append_iff.mp hh with ⟨as, rfl, htail⟩ | ⟨bs, rfl, htail⟩
        · cases as with
          | nil =>
            cases (List.cons.inj htail).1
            cases hg
          | cons e as =>
            rw [(List.cons.inj htail).2]
            simp
        · cases bs with
          | nil =>
            cases (List.cons.inj htail).1
            cases hg
          | cons e bs =>
            have hmem : g ∈ h₂ := by rw [(List.cons.inj htail).2]; simp
            rw [hquiet g hmem] at hg
            cases hg
      have hpost := (List.pairwise_append.mp hpairs).2.1
      have hfrom := hafter.trans ((List.pairwise_cons.mp hpost).1 _ hl)
      have hmem := List.mem_append_right pre (List.mem_cons_of_mem g hl)
      have hto := (hends _ hmem).2.trans hlast
      obtain ⟨⟨-, htruthful, hanswers⟩, -⟩ := hrun.answered _ hmem
      cases hgeneric'.symm.trans hgeneric
      cases hv : (openings.numbers (history.moment n)).uidValidity with
      | none =>
        rw [hv] at hgeneric
        cases hgeneric
      | some v =>
        rw [hv] at hgeneric
        cases hgeneric
        exact mirrors_of_reflects htruthful (hanswers hended)
          (fun k hk hk' => hstill k (hfrom.trans hk) (hk'.trans hto)) hreflects

end Mailbag.Cycle
