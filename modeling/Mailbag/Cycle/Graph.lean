import Mailbag.Cycle.Batches
import Mailbag.Graph.Changes
import Mailbag.Imap.Texts

/-!
# The cycle of a Microsoft 365 folder

The pages of the service's delta reading, each stored as a batch, until the reading
completes with the position the next cycle starts from. The user's pending changes are
sent after each stored page of a first or full reading and after a round's last page.

## The model

The entries of a page are merged into a hash map and gone through in its order, which is
no order the cycle knows: `HashOrder` is any order, another for each page. The loop over
the pages is `iterate`: a run is followed for some number of pages.
-/

namespace Mailbag.Cycle

open Collections Graph Imap Interaction Store

/-- A part of a Microsoft 365 cycle. -/
abbrev GraphCycle (α : Type) : Type := CycleProgram GraphRequest.Reply α

/-- A failed request fails the cycle. -/
def CycleEnd.ofGraph (error : GraphError) : CycleEnd := .failed (.microsoftGraph error)

/-- Make a request. -/
def graphRequest (request : GraphRequest) : GraphCycle request.Reply :=
  Program.request (CycleOp.server request : CycleOp GraphRequest)

/-- The result of a request; a failed one ends the cycle. -/
def graphResult {α : Type} (answer : Except GraphError α) : GraphCycle α :=
  Program.ofExcept (answer.mapError CycleEnd.ofGraph)

/-- A stored Microsoft 365 message's identity. -/
def graphIdentity (graphId : String) : String := "graph:" ++ graphId

/-- The service's id of a stored Microsoft 365 message. -/
def graphId (identity : String) : Option String :=
  if "graph:".toList <+: identity.toList then
    some (.ofList (identity.toList.drop "graph:".toList.length)) else none

theorem graphId_graphIdentity (id : String) : graphId (graphIdentity id) = some id := by
  rw [graphId, graphIdentity, String.toList_append, if_pos (List.prefix_append _ _), List.drop_left,
    String.ofList_toList]

/-! ### The sending step -/

/-- Whether the service refused the change itself: a 4xx answer other than the token's 401. -/
def refusesTheChange (error : GraphError) : Bool :=
  match error.failure with
  | .refused status _ => 400 ≤ status ∧ status < 500 ∧ status ≠ 401
  | _ => false

/-- What a change asks of the service. -/
def flagUpdate (change : PendingChange) : FlagUpdate :=
  match change.flag with
  | .seen => .read change.wanted
  | .flagged => .starred change.wanted

/-- Send one pending change and settle it. A refused one is dropped and fails the cycle. -/
def sendGraphChange (batches : BatchWriter) (change : PendingChange) : GraphCycle Unit :=
  match graphId change.identity with
  -- A Microsoft 365 folder's messages all have such an identity: the code panics without one.
  | none => .cut
  | some id =>
    (graphRequest (.updateMessageFlags id (flagUpdate change))).bind fun
      | .ok () => batches.settle [change.identity] change.flag change.wanted
      | .error error =>
        if refusesTheChange error then
          (batches.dropPending [change.identity] change.flag change.wanted).bind fun _ =>
            .fail (.failed (.microsoftGraphChangeRefused error))
        else .fail (.ofGraph error)

/-- Send changes one after another. -/
def sendGraphChangesOf (batches : BatchWriter) : List PendingChange → GraphCycle Unit
  | [] => return ()
  | change :: changes => do
    let () ← sendGraphChange batches change
    sendGraphChangesOf batches changes

/-- Send the folder's pending changes to the service. -/
def sendGraphChanges (batches : BatchWriter) : GraphCycle Unit := do
  let pending ← batches.pendingChanges
  sendGraphChangesOf batches pending

/-! ### A page as a batch -/

/-- What the cycle is reading. -/
inductive Reading where
  /-- A first reading of a folder never synchronized; `continued` when it goes on from a saved
  place. -/
  | firstFill (continued : Bool)
  /-- The changes since the saved position. -/
  | round
  /-- A first reading after the service rejected the saved position: at its end, the stored
  messages it did not list, by identity, are removed. -/
  | fullRereading (listed : List String)
  deriving DecidableEq

/-- A message to store in full, and whether its text is to be fetched. -/
structure Arrival where
  /-- The message. -/
  message : GraphMessage
  /-- The message is recent, and the account lacks it or its fields were reported again. -/
  wantsText : Bool

/-- The message arrived after the limit. -/
def isRecent (message : GraphMessage) (recentLimit : ℤ) : Bool :=
  message.receivedUnix.any fun received => recentLimit ≤ received

/-- The names, or else the addresses, shown together. -/
def displayNames (mailboxes : List Graph.Mailbox) : Option String :=
  match mailboxes.filterMap fun mailbox => mailbox.name.or mailbox.address with
  | [] => none
  | names => some (", ".intercalate names)

/-- The message's subject, sender and recipients for the list and the reader. -/
def receivedFields (message : GraphMessage) : DisplayFields where
  subject := message.subject
  sender := displayNames message.sender.toList
  recipients := displayNames message.recipients

/-- An arrival as the store keeps it: with its text when it wanted one, otherwise without
one, which keeps a stored content. -/
def storedMessage (rules : ContentRules) (texts : List (String × Option String))
    (arrival : Arrival) : Message where
  identity := graphIdentity arrival.message.immutableId
  fields := receivedFields arrival.message
  receivedUnix := arrival.message.receivedUnix
  seen := arrival.message.isRead
  flagged := arrival.message.flagged
  content :=
    if arrival.wantsText then
      match latest arrival.message.immutableId texts with
      | some (some text) => .text text
      | _ => .textNotReturned
    else .notDownloaded
  preview := rules.previewOfText (arrival.message.bodyPreview.getD "")

/-- The message as it is now, if it is in the folder. -/
def readInFolder (id folder : String) : GraphCycle (Option GraphMessage) :=
  (graphRequest (.readMessage id)).bind
    fun (answer : Except GraphError (Option (GraphMessage × String))) =>
    (graphResult answer).bind fun found =>
      .done ((found.filter fun found => found.2 = folder).map Prod.fst)

/-- The texts of messages, one by one. -/
def readTextsOf : List GraphMessage → GraphCycle (List (String × Option String))
  | [] => return []
  | message :: messages =>
    (graphRequest (.readMessageText message.immutableId)).bind
      fun (answer : Except GraphError (Option String)) =>
      (graphResult answer).bind fun text =>
        (readTextsOf messages).bind fun texts => .done ((message.immutableId, text) :: texts)

/-- The texts of the arrivals that want one: for a page of a first reading, by the range of
their dates in one request; for a round of changes one by one. -/
def readTexts (arrivals : List Arrival) (reading : Reading) (folder : String) :
    GraphCycle (List (String × Option String)) :=
  let recent := (arrivals.filter Arrival.wantsText).map Arrival.message
  if recent.isEmpty then .done []
  else
    match reading with
    | .round => readTextsOf recent
    | .firstFill _ | .fullRereading _ =>
      let dates := recent.filterMap GraphMessage.receivedUnix
      match dates.min?, dates.max? with
      | some first, some last =>
        (graphRequest (.readTextsReceivedBetween folder first last)).bind
          fun (answer : Except GraphError (List (String × Option String))) => graphResult answer
      | _, _ => .done []

/-- What the account and its other folders hold of a page's messages. -/
structure KnownMessages where
  /-- Those another folder holds. -/
  heldElsewhere : List String
  /-- Those the account holds. -/
  heldByAccount : List String

/-- Whether an entry's message is read again: one another folder holds, one an entry
changed, and one a round lists that the account holds. -/
def readsAgain (known : KnownMessages) (reading : Reading) (id : String) : MessageChange → Bool
  | .removed _ => false
  | .listed _ =>
    graphIdentity id ∈ known.heldElsewhere || graphIdentity id ∈ known.heldByAccount &&
      reading = .round
  | .changed .. => true

/-- Whether an arrival's text is fetched. -/
def wantsText (known : KnownMessages) (recentLimit : ℤ) (id : String) (change : MessageChange)
    (message : GraphMessage) : Bool :=
  let fieldsReported := match change with
    | .listed _ => true
    | .changed _ _ _ otherFields => otherFields
    | .removed _ => false
  (graphIdentity id ∉ known.heldByAccount || fieldsReported) && isRecent message recentLimit

/-- What one entry makes of its message: gone from the folder, or arrived. A message read
again is kept only if it is in this folder now. -/
def readEntry (known : KnownMessages) (reading : Reading) (recentLimit : ℤ) (folder : String)
    (id : String) (change : MessageChange) : GraphCycle (Option (String ⊕ Arrival)) :=
  if readsAgain known reading id change then
    (readInFolder id folder).bind fun
      | some message => .done (some (.inr ⟨message, wantsText known recentLimit id change message⟩))
      | none => .done (some (.inl (graphIdentity id)))
  else
    match change with
    | .removed _ => .done (some (.inl (graphIdentity id)))
    | .listed message =>
      .done (some (.inr ⟨message, wantsText known recentLimit id change message⟩))
    | .changed .. => .done none

/-- What the entries make of their messages. -/
def readEntries (known : KnownMessages) (reading : Reading) (recentLimit : ℤ) (folder : String) :
    List (String × MessageChange) → GraphCycle (List (String ⊕ Arrival))
  | [] => .done []
  | (id, change) :: changes =>
    (readEntry known reading recentLimit folder id change).bind fun outcome =>
      (readEntries known reading recentLimit folder changes).bind fun outcomes =>
        .done (outcome.toList ++ outcomes)

/-- One page's changes as a batch. -/
def batchFromChanges (rules : ContentRules) (changes : List (String × MessageChange))
    (reading : Reading) (recentLimit : ℤ) (batches : BatchWriter) : GraphCycle FolderBatch := do
  let identities := changes.map fun entry => graphIdentity entry.1
  let heldElsewhere ← batches.identitiesInOtherFolders identities
  let heldByAccount ← batches.storedIdentities identities
  let outcomes ← readEntries ⟨heldElsewhere, heldByAccount⟩ reading recentLimit
    batches.folder.identity changes
  let arrivals := outcomes.filterMap Sum.getRight?
  let texts ← readTexts arrivals reading batches.folder.identity
  return { FolderBatch.default with
    removed := outcomes.filterMap Sum.getLeft?
    arrived := arrivals.map (storedMessage rules texts) }

end Mailbag.Cycle
