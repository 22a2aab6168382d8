import Mailbag.Imap.Rules

/-!
# The rows of the messages asked for

`fetchRowsByUid` reads the rows of the given messages: all of them with their structures
in one command, then what that one left out apart. A row may be missing for two reasons: its
message disappeared, or the server withheld it. Only the first may go without a word.

## What is proved

* `fetchRowsByUid_accounts` — the rows are of messages asked for, one each, in descending
  UID order; unless a refusal comes with them, a message without a row was left out by a
  command the server completed with OK; and a refusal of a structure that is marked
  temporary fails the read.
-/

namespace Mailbag.Imap

open Cycle Interaction Program Relation Store

/-! ### The order of the rows -/

/-- Later rows have lower UIDs. -/
abbrev Descending (rows : List MessageRow) : Prop :=
  rows.Pairwise fun row row' => row'.uid < row.uid

/-- **The rows of a command** stand in descending UID order, one for each message. -/
theorem collectRows_descending (fetches : List Fetch) (uids : List UInt32) :
    Descending (collectRows fetches uids) := by
  have hkeys : (byUid fetches uids).toList.reverse.Pairwise fun p q => q.1 < p.1 := by
    rw [List.pairwise_reverse]
    exact (Std.TreeMap.ordered_keys_toList (t := byUid fetches uids)).imp Std.compare_eq_lt.mp
  refine hkeys.filterMap _ fun p q hlt row hrow row' hrow' => ?_
  rw [uid_of_rowOf hrow, uid_of_rowOf hrow']
  exact hlt

theorem Descending.of_uids {rows rows' : List MessageRow} (h : Descending rows)
    (hsub : (rows'.map MessageRow.uid).Sublist (rows.map MessageRow.uid)) : Descending rows' := by
  have huids : (rows.map MessageRow.uid).Pairwise fun a b => b < a := List.pairwise_map.mpr h
  exact List.pairwise_map.mp (huids.sublist hsub)

/-- Rows of different messages, put in order. -/
theorem descending_insertionSort {rows : List MessageRow} (h : (rows.map MessageRow.uid).Nodup) :
    Descending (rows.insertionSort fun a b => b.uid ≤ a.uid) := by
  have : Std.Total fun a b : MessageRow => b.uid ≤ a.uid := ⟨fun a b => UInt32.le_total b.uid a.uid⟩
  have : IsTrans MessageRow fun a b => b.uid ≤ a.uid :=
    ⟨fun _ _ _ hab hbc => UInt32.le_trans hbc hab⟩
  have hsorted := List.pairwise_insertionSort (fun a b : MessageRow => b.uid ≤ a.uid) rows
  have hdistinct : (rows.insertionSort fun a b => b.uid ≤ a.uid).Pairwise
      fun a b => a.uid ≠ b.uid := by
    have hperm := (List.perm_insertionSort (fun a b : MessageRow => b.uid ≤ a.uid) rows).map
      MessageRow.uid
    exact List.pairwise_map.mp (hperm.nodup_iff.mpr h)
  exact (hsorted.and hdistinct).imp fun ⟨hle, hne⟩ => UInt32.lt_of_le_of_ne hle fun he =>
    hne he.symm

/-- The rows read apart are among the rows, in their order. -/
theorem fetchStructuresApart_returns (reader : MailboxReader) (rows : List MessageRow) :
    (reader.fetchStructuresApart rows).Returns fun r => (r.1.map MessageRow.uid).Sublist
      (rows.map MessageRow.uid) := by
  induction rows generalizing reader with
  | nil => exact List.Sublist.slnil
  | cons row rows ih =>
    refine (Returns.unknown _).bind ?_
    rintro ⟨responses, reader⟩ -
    have hkeep : ∀ row' : MessageRow, row'.uid = row.uid →
        ((reader.fetchStructuresApart rows).bind fun r =>
          (.done (row' :: r.1, r.2) : ImapProgram (List MessageRow × MailboxReader))).Returns
            fun r => (r.1.map MessageRow.uid).Sublist ((row :: rows).map MessageRow.uid) := by
      intro row' hu
      refine (ih reader).bind fun r hr => ?_
      show ((row' :: r.1).map MessageRow.uid).Sublist _
      rw [List.map_cons, List.map_cons, hu]
      exact hr.cons_cons _
    dsimp only
    split
    · refine (ih reader).bind fun r hr => ?_
      show (List.map MessageRow.uid (if _ then r.1 else _ :: r.1)).Sublist _
      split
      · exact hr.cons _
      · exact hr.cons_cons _
    · split
      · trivial
      · exact hkeep _ rfl
    · split
      · exact hkeep _ rfl
      · trivial

theorem Descending.nodup {rows : List MessageRow} (h : Descending rows) :
    (rows.map MessageRow.uid).Nodup :=
  List.pairwise_map.mpr (h.imp fun hlt => (UInt32.ne_of_lt hlt).symm)

theorem readUnansweredApart_descending (reader : MailboxReader) (uids : List UInt32)
    (items : RowItems) {rows : List MessageRow} (h : Descending rows) :
    (reader.readUnansweredApart uids items rows).Returns fun r => Descending r.1 := by
  have hkept : Descending (rows.filter fun row => row.structure'.isSome) := h.filter _
  rw [MailboxReader.readUnansweredApart]
  generalize rows.filter (fun row => row.structure'.isSome) = rows' at hkept ⊢
  dsimp only
  split
  · exact hkept
  · refine (Returns.unknown _).bind ?_
    rintro ⟨responses, reader⟩ -
    refine (Returns.unknown _).bind fun refusal _ => ?_
    refine (fetchStructuresApart_returns _ _).bind ?_
    rintro ⟨apart, reader⟩ hsub
    have hapart := (collectRows_descending _ _).of_uids hsub
    refine descending_insertionSort ?_
    rw [List.map_append]
    refine List.nodup_append.mpr ⟨hkept.nodup, hapart.nodup, fun uid hrow uid' hrow' he => ?_⟩
    -- a row read apart is of a message that had no row yet
    obtain ⟨row, hmem, rfl⟩ := List.mem_map.mp (hsub.subset hrow')
    have hunanswered := (List.mem_filter.mp (mem_collectRows.mp hmem).1).2
    exact absurd (he ▸ hrow) (by simpa using hunanswered)

/-- The rows stand in descending UID order. -/
theorem fetchRowsByUid_descending (reader : MailboxReader) (uids : List UInt32) (items : RowItems) :
    (reader.fetchRowsByUid uids items).Returns fun r => Descending r.1.rows := by
  rw [MailboxReader.fetchRowsByUid]
  split
  · exact List.Pairwise.nil
  · refine (Returns.unknown _).bind ?_
    rintro ⟨responses, reader⟩ -
    have hrows := collectRows_descending responses.fetches uids
    dsimp only
    split
    · exact hrows
    · split
      · exact hrows
      · exact (readUnansweredApart_descending _ _ _ hrows).bind fun _ hr => hr
    · split
      · exact (readUnansweredApart_descending _ _ _ hrows).bind fun _ hr => hr
      · trivial

/-! ### The commands given -/

/-- The operation opens the mailbox, or asks for rows, or for the structure of one message. -/
inductive ForRows : CycleOp ImapCommand → Prop where
  /-- A fresh session. -/
  | opening (mailbox : String) : ForRows (.server (.openMailbox mailbox))
  /-- Rows. -/
  | rows (uids : List UInt32) (items : RowItems) (structures : Bool) :
      ForRows (.server (.uidFetch (.uids uids) (.rows items structures)))
  /-- The structure of one message, on its own. -/
  | structure' (uid : UInt32) : ForRows (.server (.uidFetch (.uids [uid]) .structure'))

/-- The operation opens the mailbox. -/
def Opens (o : CycleOp ImapCommand) : Prop := ∃ mailbox, o = .server (.openMailbox mailbox)

theorem Opens.forRows {o : CycleOp ImapCommand} (ho : Opens o) : ForRows o := by
  obtain ⟨mailbox, rfl⟩ := ho
  exact .opening mailbox

theorem connected_opens (reader : MailboxReader) : reader.connected.Asks Opens := by
  rw [MailboxReader.connected]
  split
  · exact (Asks.request ⟨_, rfl⟩).bind fun _ => (Asks.ofExcept _).bind fun _ =>
      (Asks.ofExcept _).bind fun _ => trivial
  · trivial

theorem fetch_forRows (reader : MailboxReader) {uids : List UInt32} {items : FetchItems}
    (h : ForRows (.server (.uidFetch (.uids uids) items))) :
    (reader.fetch uids items).Asks ForRows :=
  ((connected_opens _).mono fun _ => Opens.forRows).bind fun _ => (Asks.request h).bind
    fun _ => trivial

theorem fetchStructuresApart_forRows (reader : MailboxReader) (rows : List MessageRow) :
    (reader.fetchStructuresApart rows).Asks ForRows := by
  induction rows generalizing reader with
  | nil => trivial
  | cons row rows ih =>
    refine (fetch_forRows _ (.structure' row.uid)).bind ?_
    rintro ⟨responses, reader⟩
    dsimp only
    split
    · exact (ih _).bind fun _ => trivial
    · split
      · trivial
      · exact (ih _).bind fun _ => trivial
    · split
      · exact (ih _).bind fun _ => trivial
      · trivial

theorem readUnansweredApart_forRows (reader : MailboxReader) (uids : List UInt32) (items : RowItems)
    (rows : List MessageRow) : (reader.readUnansweredApart uids items rows).Asks ForRows := by
  rw [MailboxReader.readUnansweredApart]
  dsimp only
  split
  · trivial
  · exact (fetch_forRows _ (.rows _ _ _)).bind fun _ => (Asks.ofExcept _).bind fun _ =>
      (fetchStructuresApart_forRows _ _).bind fun _ => trivial

theorem fetchRowsByUid_forRows (reader : MailboxReader) (uids : List UInt32) (items : RowItems) :
    (reader.fetchRowsByUid uids items).Asks ForRows := by
  rw [MailboxReader.fetchRowsByUid]
  split
  · trivial
  · refine (fetch_forRows _ (.rows _ _ _)).bind ?_
    rintro ⟨responses, reader⟩
    dsimp only
    split
    · trivial
    · split
      · trivial
      · exact (readUnansweredApart_forRows _ _ _ _).bind fun _ => trivial
    · split
      · exact (readUnansweredApart_forRows _ _ _ _).bind fun _ => trivial
      · trivial

/-! ### A structure refused for now -/

/-- The server refused a structure and marked the refusal temporary: what a read fails with. -/
def RefusedForNow : (o : CycleOp ImapCommand) → CycleAns ImapCommand.Reply o → ImapError → Prop
  | .server (.uidFetch _ .structure'), answer, error =>
    ∃ reply, answer.ended = some (.no reply) ∧ isTemporary reply ∧
      error = refused .fetchMessages reply
  | _, _, _ => False

/-- The operation asks for no structure on its own. -/
inductive NotStructure : CycleOp ImapCommand → Prop where
  /-- A fresh session. -/
  | opening (mailbox : String) : NotStructure (.server (.openMailbox mailbox))
  /-- Rows. -/
  | rows (uids : List UInt32) (items : RowItems) (structures : Bool) :
      NotStructure (.server (.uidFetch (.uids uids) (.rows items structures)))

theorem NotStructure.failsOn {α : Type} {p : ImapProgram α} (hp : p.Asks NotStructure) :
    p.FailsOn RefusedForNow := by
  refine .of_asks (fun o answer error ho => ?_) hp
  cases ho <;> exact id

theorem connected_notStructure (reader : MailboxReader) : reader.connected.Asks NotStructure :=
  (connected_opens reader).mono fun _ ⟨mailbox, ho⟩ => ho ▸ .opening mailbox

theorem fetch_rows_notStructure (reader : MailboxReader) (uids : List UInt32) (items : RowItems)
    (structures : Bool) : (reader.fetch uids (.rows items structures)).Asks NotStructure :=
  (connected_notStructure reader).bind fun _ => (Asks.request (.rows _ _ _)).bind fun _ => trivial

/-- A command and what follows from how it ended. -/
theorem fetch_bind {α : Type} (reader : MailboxReader) (uids : List UInt32) (items : FetchItems)
    (f : FetchResponses × MailboxReader → ImapProgram α) :
    (reader.fetch uids items).bind f = reader.connected.bind fun reader' =>
      .ask (.server (.uidFetch (.uids uids) items)) fun (answer : FetchAnswer) =>
        f (collectFetches answer,
          { reader' with needsReconnect := (collectFetches answer).ended.isParseFailure }) :=
  bind_assoc _ _ _

theorem fetchStructuresApart_fails (reader : MailboxReader) (rows : List MessageRow) :
    (reader.fetchStructuresApart rows).FailsOn RefusedForNow := by
  induction rows generalizing reader with
  | nil => trivial
  | cons row rows ih =>
    rw [MailboxReader.fetchStructuresApart, bind_eq, fetch_bind]
    refine (NotStructure.failsOn (connected_notStructure reader)).bind
      fun reader' answer => ⟨?_, ?_⟩
    · rintro error ⟨reply, hended, htemporary, rfl⟩
      simp [collectFetches, hended, htemporary]
    · dsimp only
      split
      · exact (ih _).bind fun _ => trivial
      · split
        · trivial
        · exact (ih _).bind fun _ => trivial
      · split
        · exact (ih _).bind fun _ => trivial
        · trivial

theorem readUnansweredApart_fails (reader : MailboxReader) (uids : List UInt32) (items : RowItems)
    (rows : List MessageRow) :
    (reader.readUnansweredApart uids items rows).FailsOn RefusedForNow := by
  rw [MailboxReader.readUnansweredApart]
  dsimp only
  split
  · trivial
  · exact (NotStructure.failsOn (fetch_rows_notStructure _ _ _ _)).bind fun _ =>
      (NotStructure.failsOn (Asks.ofExcept _)).bind fun _ => (fetchStructuresApart_fails _ _).bind
        fun _ => trivial

/-- A temporary refusal of a structure fails the read. -/
theorem fetchRowsByUid_fails (reader : MailboxReader) (uids : List UInt32) (items : RowItems) :
    (reader.fetchRowsByUid uids items).FailsOn RefusedForNow := by
  rw [MailboxReader.fetchRowsByUid]
  split
  · trivial
  · refine (NotStructure.failsOn (fetch_rows_notStructure _ _ _ _)).bind ?_
    rintro ⟨responses, reader⟩
    dsimp only
    split
    · trivial
    · split
      · trivial
      · exact (readUnansweredApart_fails _ _ _ _).bind fun _ => trivial
    · split
      · exact (readUnansweredApart_fails _ _ _ _).bind fun _ => trivial
      · trivial

/-! ### Why a message has no row -/

variable {S : Server ImapCommand.Reply}

/-- The command named the message. -/
def NamedBy (e : Happened S) (uid : UInt32) : Prop :=
  ∃ uids items, e.op = .server (.uidFetch (.uids uids) items) ∧ uid ∈ uids

/-- A command that named the message completed with OK without its header lines, or, when it
asked for its structure alone, without a structure. -/
inductive LeftOut (uid : UInt32) : Happened S → Prop where
  /-- Without its header lines. -/
  | row {before after : S.World × Tables} {uids : List UInt32} {items : RowItems}
      {structures : Bool} {answer : FetchAnswer} (hnamed : uid ∈ uids)
      (hended : answer.ended = none) (hrow : ¬GivesHeaders answer.responses uid) :
      LeftOut uid ⟨before, .server (.uidFetch (.uids uids) (.rows items structures)), answer, after⟩
  /-- Without a structure. -/
  | structure' {before after : S.World × Tables} {answer : FetchAnswer}
      (hended : answer.ended = none)
      (hstructure : ¬∃ fetch ∈ answer.responses, fetch.bodystructure.isSome) :
      LeftOut uid ⟨before, .server (.uidFetch (.uids [uid]) .structure'), answer, after⟩

/-- A command that did not complete with OK: the server refused it, or its answer could not be
parsed, or the connection failed. -/
def NotCompleted : (o : CycleOp ImapCommand) → CycleAns ImapCommand.Reply o → Prop
  | .server (.uidFetch _ _), answer => answer.ended ≠ none
  | _, _ => True

theorem leftOut_of_unanswered {e : Happened S} {uid : UInt32} (hasked : ForRows e.op)
    (h : Unanswered e uid) : LeftOut uid e := by
  obtain ⟨before, uids, items, answer, after, rfl, -, huid, hended, hnot⟩ := h
  cases hasked with
  | rows => exact .row huid hended hnot
  | structure' uid' =>
    obtain rfl := List.mem_singleton.mp huid
    exact .structure' hended hnot

theorem LeftOut.completed {e : Happened S} {uid : UInt32} (h : LeftOut uid e) :
    NamedBy e uid ∧ ¬NotCompleted e.op e.ans := by
  cases h with
  | row hnamed hended _ => exact ⟨⟨_, _, rfl, hnamed⟩, fun hnot => hnot hended⟩
  | structure' hended _ => exact ⟨⟨_, _, rfl, List.mem_cons_self⟩, fun hnot => hnot hended⟩

/-- **A withheld row is never taken for a message that disappeared.** In every run, the rows
returned are of messages asked for, in strictly descending UID order; when no refusal comes
with them, a message without a row was left out by a command the server completed with OK,
so one that only refused or unreadable commands named has its row; and a refusal of a
structure marked temporary is the last answer of the run, which fails with it. -/
theorem fetchRowsByUid_accounts {reader : MailboxReader} {uids : List UInt32} {items : RowItems}
    {s u : S.World × Tables} {tr : History S} {r : Outcome ImapError (MessageList × MailboxReader)}
    (hrun : Run (surroundings S) (reader.fetchRowsByUid uids items) s tr r u) :
    (∀ list reader', r = .returned (list, reader') →
      (∀ row ∈ list.rows, row.uid ∈ uids) ∧ Descending list.rows ∧
        (list.refusal = none → ∀ uid ∈ uids, uid ∉ list.rows.map MessageRow.uid → ∃ e ∈ tr,
          LeftOut uid e) ∧
        ∀ uid ∈ uids, uid ∉ list.rows.map MessageRow.uid →
          (∀ e ∈ tr, NamedBy e uid → NotCompleted e.op e.ans) →
          list.refusal ≠ none) ∧
      ∀ e ∈ tr, ∀ error, RefusedForNow e.op e.ans error → tr.getLast? = some e ∧
        (r = .failed error ∨ r = .cut) := by
  refine ⟨?_, fun e he error hrefused => hrun.failed_of_failsOn (fetchRowsByUid_fails _ _ _) he
    hrefused⟩
  rintro list reader' rfl
  have hJ : Steady (S := S) (fun _ _ => True) fun _ _ => True :=
    steady_of_kept (fun _ _ _ => trivial) (fun _ _ _ => trivial) fun _ _ _ _ _ _ => trivial
  obtain ⟨-, hread, haccounted⟩ :=
    (fetchRowsByUid_safe hJ (h := []) trivial _ _ _ hrun).2 _ rfl
  have hleft : list.refusal = none → ∀ uid ∈ uids, uid ∉ list.rows.map MessageRow.uid →
      ∃ e ∈ tr, LeftOut uid e := by
    intro hnone uid huid hrow
    obtain ⟨e, he, hunanswered⟩ := ((haccounted hnone uid huid).resolve_left hrow).exists_mem
    exact ⟨e, he, leftOut_of_unanswered (hrun.asked (fetchRowsByUid_forRows _ _ _) e he)
      hunanswered⟩
  refine ⟨hread.named, hrun.returns (fetchRowsByUid_descending _ _ _), hleft,
    fun uid huid hrow hnot hnone => ?_⟩
  obtain ⟨e, he, hout⟩ := hleft hnone uid huid hrow
  exact hout.completed.2 (hnot e he hout.completed.1)

/-- A server whose answer with the structures cannot be read, which then has rows of the first
and third message, and no structure of the third; it refuses the first one's for good. -/
def withholding : (command : ImapCommand) → command.Reply
  | .openMailbox _ => .ok ⟨some 7, 3, none, none⟩
  | .select _ => .ok ⟨some 7, 3, none, none⟩
  | .uidFetch (.uids [3]) .structure' => ⟨[], none⟩
  | .uidFetch _ .structure' => ⟨[], some (.no ⟨none, "too deep"⟩)⟩
  | .uidFetch _ (.rows _ false) =>
    ⟨[⟨some 3, none, none, none, [(.messageHeader, [])], none⟩,
      ⟨some 2, some ⟨true, false⟩, none, none, [], none⟩,
      ⟨some 1, none, none, none, [(.messageHeader, [])], none⟩], none⟩
  | .uidFetch _ _ => ⟨[], some .unparsable⟩
  | .uidStore .. => ⟨[], none⟩

/-- A reader of the mailbox. -/
def withheldReader : MailboxReader := ⟨"INBOX", ⟨some 7, 3, none, none⟩, false⟩

/-- Only the first message has a row, and no refusal comes with it: the other two were left out. -/
theorem fetchRowsByUid_accounts_withholding :
    ∃ (tr : History (anyServer ImapCommand.Reply)) (list : MessageList), list.rows.map
      MessageRow.uid = [1] ∧ list.refusal = none ∧
      (∃ e ∈ tr, LeftOut 2 e) ∧ ∃ e ∈ tr, LeftOut 3 e := by
  have hreturned : ∃ list reader',
    (exec (scripted withholding) (withheldReader.fetchRowsByUid [1, 2, 3] .standard)
      ((), .empty)).2.1 =
      .returned (list, reader') ∧ list.rows.map MessageRow.uid = [1] ∧ list.refusal = none :=
    ⟨_, _, rfl, rfl, rfl⟩
  obtain ⟨list, reader', hreturned, hrows, hnone⟩ := hreturned
  have hrun := run_scripted withholding (withheldReader.fetchRowsByUid [1, 2, 3] .standard) .empty
  obtain ⟨-, -, hleft, -⟩ := (fetchRowsByUid_accounts hrun).1 list reader' hreturned
  exact ⟨_, list, hrows, hnone, hleft hnone 2 (by decide) (by rw [hrows]; decide),
    hleft hnone 3 (by decide) (by rw [hrows]; decide)⟩

end Mailbag.Imap
