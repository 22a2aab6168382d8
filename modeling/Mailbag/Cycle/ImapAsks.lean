import Mailbag.Cycle.Imap
import Mailbag.Imap.RowsByUid

/-!
# What the parts of an IMAP cycle ask

Only the sending step gives commands that change flags. Every other part of the cycle asks
the store, or the server for what it has (`Reads`).
-/

namespace Mailbag.Cycle

open Imap Interaction Program Store

/-- The operation changes a flag of messages on the server. -/
def ChangesFlags (o : CycleOp ImapCommand) : Prop :=
  ∃ uids flag set, o = .server (.uidStore uids flag set)

/-- The operation is a command that changes no flag. -/
def Reads (o : CycleOp ImapCommand) : Prop := ∃ c, o = .server c ∧ ¬ChangesFlags o

theorem Reads.not_changesFlags {o : CycleOp ImapCommand} (ho : Reads o) : ¬ChangesFlags o := by
  obtain ⟨c, -, hnot⟩ := ho
  exact hnot

theorem not_changesFlags_store (op : StoreCall) : ¬ChangesFlags (.store op) := by
  rintro ⟨uids, flag, set, ho⟩
  cases ho

/-! ### The reader -/

theorem openMailbox_reads (mailbox : String) : (command (.openMailbox mailbox)).Asks Reads :=
  .request ⟨_, rfl, by rintro ⟨_, _, _, ho⟩; cases ho⟩

theorem select_reads (mailbox : String) : (command (.select mailbox)).Asks Reads :=
  .request ⟨_, rfl, by rintro ⟨_, _, _, ho⟩; cases ho⟩

theorem uidFetch_reads (set : UidSet) (items : FetchItems) :
    (command (.uidFetch set items)).Asks Reads :=
  .request ⟨_, rfl, by rintro ⟨_, _, _, ho⟩; cases ho⟩

theorem openReader_reads (mailbox : String) : (MailboxReader.openMailbox mailbox).Asks Reads :=
  (openMailbox_reads _).bind fun _ => (Asks.ofExcept _).bind fun _ => trivial

theorem connected_reads (reader : MailboxReader) : reader.connected.Asks Reads := by
  rw [MailboxReader.connected]
  split
  · exact (openMailbox_reads _).bind fun _ => (Asks.ofExcept _).bind fun _ => (Asks.ofExcept _).bind
      fun _ => trivial
  · trivial

theorem reopen_reads (reader : MailboxReader) : reader.reopen.Asks Reads := by
  rw [MailboxReader.reopen]
  split
  · exact (openMailbox_reads _).bind fun _ => (Asks.ofExcept _).bind fun _ => (Asks.ofExcept _).bind
      fun _ => trivial
  · exact (select_reads _).bind fun _ => (Asks.ofExcept _).bind fun _ => (Asks.ofExcept _).bind
      fun _ => trivial

theorem fetchListing_reads (reader : MailboxReader) (set : UidSet) (items : FetchItems) :
    (reader.fetchListing set items).Asks Reads := by
  refine (connected_reads _).bind fun _ => (uidFetch_reads _ _).bind fun answer => ?_
  dsimp only
  split <;> trivial

theorem list_reads (reader : MailboxReader) (items : RowItems) (changedSince : Option UInt64) :
    (reader.list items changedSince).Asks Reads := by
  rw [MailboxReader.list]
  split
  · trivial
  · exact fetchListing_reads _ _ _

theorem fetch_reads (reader : MailboxReader) (uids : List UInt32) (items : FetchItems) :
    (reader.fetch uids items).Asks Reads :=
  (connected_reads _).bind fun _ => (uidFetch_reads _ _).bind fun _ => trivial

theorem fetchRowsByUid_reads (reader : MailboxReader) (uids : List UInt32) (items : RowItems) :
    (reader.fetchRowsByUid uids items).Asks Reads := by
  refine (fetchRowsByUid_forRows reader uids items).mono fun o ho => ?_
  cases ho <;> exact ⟨_, rfl, by rintro ⟨_, _, _, ho⟩; cases ho⟩

theorem fetchShapes_reads (reader : MailboxReader)
    (shapes : List ((TextParts × Option UInt32) × List UInt32)) :
    (reader.fetchShapes shapes).Asks Reads := by
  induction shapes generalizing reader with
  | nil => trivial
  | cons shape shapes ih =>
    exact (fetch_reads _ _ _).bind fun _ => (Asks.ofExcept _).bind fun _ => (ih _).bind
      fun _ => trivial

theorem readContents_reads (rules : ContentRules) (reader : MailboxReader) (rows : List MessageRow)
    (recent : List UInt32) : (readContents rules reader rows recent).Asks Reads :=
  (fetchShapes_reads _ _).bind fun _ => trivial

/-! ### The cycle -/

/-- A part of the cycle that changes no flag on the server. -/
abbrev ChangesNone {α : Type} (p : ImapCycle α) : Prop := p.Asks fun o => ¬ChangesFlags o

theorem readerStep_changesNone {α : Type} {p : ImapProgram α} (hp : p.Asks Reads) :
    ChangesNone (readerStep p) :=
  (hp.mono fun _ => Reads.not_changesFlags).mapFail

theorem storeCall_changesNone (op : StoreCall) : ChangesNone (storeCall op) :=
  Asks.bind (Asks.request (o := CycleOp.store op) (not_changesFlags_store op)) fun _ => .ofExcept _

theorem store_changesNone (batches : BatchWriter) (batch : FolderBatch) :
    ChangesNone (batches.store batch) := by
  rw [BatchWriter.store]
  split
  · trivial
  · refine (storeCall_changesNone _).bind fun written => ?_
    cases written <;> trivial

theorem settleAll_changesNone (batches : BatchWriter)
    (groups : List ((MessageFlag × Bool) × List String)) :
    ChangesNone (settleAll batches groups) := by
  induction groups with
  | nil => trivial
  | cons group groups ih =>
    rw [settleAll]
    split
    · exact ih
    · exact (storeCall_changesNone _).bind fun _ => ih

theorem openFolder_changesNone (rule : IdentityRule) (folder : String) :
    ChangesNone (ImapFolder.openFolder rule folder) :=
  (readerStep_changesNone (openReader_reads _)).bind fun _ => trivial

theorem listPlanned_changesNone (server : ImapFolder) (plan : PassPlan) :
    ChangesNone (listPlanned server plan) := by
  cases plan with
  | nothing => trivial
  | changedFlags since => exact (readerStep_changesNone (list_reads _ _ _)).bind fun _ => trivial
  | everything => exact (readerStep_changesNone (list_reads _ _ _)).bind fun _ => trivial

theorem runStatePass_changesNone (server : ImapFolder) (stored : FolderSync)
    (numbers : FolderNumbers) (batches : BatchWriter) (plan : PassPlan) :
    ChangesNone (runStatePass server stored numbers batches plan) :=
  (listPlanned_changesNone _ _).bind fun _ => (Asks.ofExcept _).bind fun _ =>
    (store_changesNone _ _).bind fun _ => trivial

theorem fetchArrivals_changesNone (server : ImapFolder) (rules : ContentRules)
    (messages : List ListedMessage) (recentLimit : ℤ) (batches : BatchWriter) :
    ChangesNone (server.fetchArrivals rules messages recentLimit batches) :=
  (storeCall_changesNone _).bind fun _ => (readerStep_changesNone (fetchRowsByUid_reads _ _ _)).bind
    fun _ =>
    (readerStep_changesNone (readContents_reads _ _ _ _)).bind fun _ => trivial

theorem secondPass_changesNone (batches : BatchWriter) (numbers : FolderNumbers)
    (refusal : Option ServerReply) (server : ImapFolder) :
    ChangesNone (secondPass batches numbers refusal server) :=
  (readerStep_changesNone (reopen_reads _)).bind fun _ => (storeCall_changesNone _).bind fun _ =>
    (runStatePass_changesNone _ _ _ _ _).bind fun _ => trivial

end Mailbag.Cycle
