import Mailbag.Cycle.Pending

/-!
# The cycle of an IMAP folder

The cycle of a Generic IMAP or Gmail folder: a state pass learns the folder's state from
the numbers its opening returns and lists what they call for; the missing messages are
fetched newest first, a batch at a time; the user's pending changes are sent by the
listing's UIDs after the listing and after each batch; a cycle that fetched messages or
sent commands ends with a second pass.
-/

namespace Mailbag.Cycle

open Collections Imap Interaction Store

/-- How many missing messages one batch fetches. -/
def batchSize : ℕ := 100

/-- How a listed message is identified in its account. -/
inductive IdentityRule where
  /-- By its place: folder, UIDVALIDITY and UID. -/
  | generic
  /-- By Gmail's identifier, the same in every label. -/
  | gmail
  deriving DecidableEq

/-- What a state pass lists. -/
inductive PassPlan where
  /-- Nothing: the folder is as stored. -/
  | nothing
  /-- Only flags changed since a mod-sequence. -/
  | changedFlags (since : UInt64)
  /-- Every message with its number and flags. -/
  | everything
  deriving DecidableEq

/-- What the pass lists. Without a reference, under another numbering, with a number missing
on either side or with pending changes, every message is listed. -/
def passPlan (numbers : FolderNumbers) (reference : Option FolderNumbers)
    (pendingChanges : Bool) : PassPlan :=
  match reference with
  | none => .everything
  | some reference =>
    let sameMessages := numbers.uidValidity.isSome ∧ numbers.uidValidity = reference.uidValidity ∧
      numbers.messageCount = reference.messageCount ∧ numbers.uidNext.isSome ∧
      numbers.uidNext = reference.uidNext
    match reference.highestModseq, numbers.highestModseq with
    | some since, some highestModseq =>
      if sameMessages ∧ pendingChanges = false then
        if highestModseq = since then .nothing else .changedFlags since
      else .everything
    | _, _ => .everything

/-- What a state pass found. -/
structure StatePass where
  /-- The messages its listing showed. -/
  listed : List ListedMessage
  /-- The server's refusal to finish the listing. -/
  refusal : Option ServerReply

/-- The opening's numbers as the folder stores them. -/
def folderNumbers (numbers : MailboxNumbers) : FolderNumbers where
  uidValidity := numbers.uidValidity
  messageCount := numbers.messageCount
  uidNext := numbers.uidNext
  highestModseq := numbers.highestModseq

/-- The folder's state after a pass: not completed while messages are missing; completed with
the pass's numbers when none are missing and the listing completed, unless the folder is
marked so already. -/
def passState (stored : FolderState) (numbers : FolderNumbers) (complete missing : Bool) :
    Option FolderState :=
  if missing then some .default
  else
    let markedSo := stored.synchronized ∧ stored.numbers = some numbers
    if complete ∧ ¬markedSo then
      some { FolderState.default with synchronized := true, numbers := some numbers } else none

/-- The listed messages the folder does not hold, highest UID first. -/
def missingMessages (listed : List ListedMessage) (stored : FolderSync) : List ListedMessage :=
  (listed.filter fun message => (stored.get message.identity).isNone).insertionSort fun a b =>
    b.uid ≤ a.uid

/-- What the listing proves: removals, when it completed and listed every message, and the
flags that differ from the stored ones. -/
def listingChanges (listed : List ListedMessage) (stored : FolderSync)
    (removalsProven : Bool) : FolderBatch :=
  { FolderBatch.default with
    removed :=
      if removalsProven then
        (stored.stored.map Prod.fst).filter fun identity => identity ∉
          listed.map ListedMessage.identity
      else []
    flagStates :=
      (listed.filter fun message => (stored.get message.identity).any fun flags => flags ≠
        message.flags).map
        fun message => (message.identity, message.flags) }

/-- Why the list is short. -/
def shortList (refusal : ServerReply) : IncompleteList := ⟨refusal.text, refusal.code⟩

/-- What a Generic IMAP identity starts with: RFC 3501 requires UIDVALIDITY with every opened
mailbox. A Gmail identity has no such prefix. -/
def genericPrefix (rule : IdentityRule) (folder : String) (uidValidity : Option UInt32) :
    Except ImapError (Option String) :=
  match rule, uidValidity with
  | .generic, some uidValidity => .ok (some s!"imap:{folder}/{uidValidity}/")
  | .generic, none => .error (.of (.failed .openMailbox))
  | .gmail, _ => .ok none

/-- The identity of a listed message: none of a Gmail message listed without its identifier. -/
def identityOf (generic : Option String) (uid : UInt32) (gmailId : Option UInt64) : Option String :=
  match generic, gmailId with
  | some generic, _ => some (generic ++ toString uid)
  | none, some gmailId => some s!"gmail:{gmailId}"
  | none, none => none

/-- The listed messages with their identities; one without an identity is left out. -/
def identified (generic : Option String) (messages : List ListedUid) : List ListedMessage :=
  messages.filterMap fun message =>
    (identityOf generic message.uid message.gmailMessageId).map fun identity =>
      ⟨identity, message.uid, message.flags⟩

/-- An open IMAP folder for one cycle. -/
structure ImapFolder where
  /-- The reader. -/
  reader : MailboxReader
  /-- How its messages are identified. -/
  identityRule : IdentityRule

namespace ImapFolder

/-- Open the folder. -/
def openFolder (identityRule : IdentityRule) (folder : String) : ImapCycle ImapFolder := do
  let reader ← readerStep (MailboxReader.openMailbox folder)
  return ⟨reader, identityRule⟩

variable (server : ImapFolder)

/-- What the listing and the rows ask for beyond RFC 3501. -/
def rowItems : RowItems :=
  match server.identityRule with
  | .generic => .standard
  | .gmail => .withGmailAttributes

/-- A listing of every message. -/
def listMessages : ImapCycle (FolderListing × ImapFolder) := do
  let (listing, reader) ← readerStep (server.reader.listMessages server.rowItems)
  return (listing, { server with reader })

/-- A listing of the changed flags. -/
def listChangedFlags (since : UInt64) : ImapCycle (FolderListing × ImapFolder) := do
  let (listing, reader) ← readerStep (server.reader.listChangedFlags since server.rowItems)
  return (listing, { server with reader })

/-- Each listed message with its identity in the account. A Gmail message listed without its
identifier is left out. -/
def identify (listing : FolderListing) (folder : String) :
    Except ImapError (List ListedMessage) := do
  let generic ← genericPrefix server.identityRule folder server.reader.uidValidity
  return identified generic listing.messages

/-- The arrivals of a batch: the rows with what was read of them, one that is gone left out.
Rows come each once. -/
def arrivals (rules : ContentRules) (unknown : List ListedMessage) (rows : List MessageRow)
    (contents : List (UInt32 × ReceivedContent × String)) : List Message :=
  rows.filterMap fun row => do
    let (content, preview) ← contents.lookup row.uid
    let listed ← unknown.find? fun message => message.uid = row.uid
    some
      { identity := listed.identity
        fields := rules.decodeDisplayFields row.listHeaders
        receivedUnix := row.internalDate
        seen := row.seen
        flagged := row.flagged
        content
        preview }

/-- One batch of missing messages: those the account already holds, related without fetching
them, and the others with their rows and previews and, for those received after
`recentLimit`, their text. -/
def fetchArrivals (rules : ContentRules) (messages : List ListedMessage) (recentLimit : ℤ)
    (batches : BatchWriter) : ImapCycle ((FolderBatch × Option ServerReply) × ImapFolder) := do
  let held ← batches.storedIdentities (messages.map ListedMessage.identity)
  let known := messages.filter fun message => message.identity ∈ held
  let unknown := messages.filter fun message => message.identity ∉ held
  let (rows, reader) ← readerStep
    (server.reader.fetchRowsByUid (unknown.map ListedMessage.uid) server.rowItems)
  let recent := (rows.rows.filter fun row => row.internalDate.any fun date => recentLimit ≤
    date).map MessageRow.uid
  let (contents, reader) ← readerStep (readContents rules reader rows.rows recent)
  let batch : FolderBatch :=
    { FolderBatch.default with
      knownArrived := known.map fun message => (message.identity, message.flags)
      arrived := arrivals rules unknown rows.rows contents }
  return ((batch, rows.refusal), { server with reader })

end ImapFolder

/-- What a plan lists. -/
def listPlanned (server : ImapFolder) : PassPlan → ImapCycle (FolderListing × ImapFolder)
  | .nothing => return (⟨[], none⟩, server)
  | .changedFlags since => server.listChangedFlags since
  | .everything => server.listMessages

/-- Run the pass's listing and store what it proves with the opening's numbers, in one batch:
removals only from a complete listing of every message, the changed flags, and the folder's
state. -/
def runStatePass (server : ImapFolder) (stored : FolderSync) (numbers : FolderNumbers)
    (batches : BatchWriter) (plan : PassPlan) : ImapCycle (StatePass × ImapFolder) := do
  let (listing, server) ← listPlanned server plan
  let listed ← Program.ofExcept
    ((server.identify listing batches.folder.identity).mapError CycleEnd.ofImap)
  let missing := missingMessages listed stored
  let complete := listing.refusal.isNone
  let removalsProven := complete && plan = .everything
  let batch := { listingChanges listed stored removalsProven with
    state := passState stored.state numbers complete (missing ≠ []) }
  let () ← batches.store batch
  return (⟨listed, listing.refusal⟩, server)

/-- Fetch the missing messages a batch at a time, and send the pending changes after each. A
row command the server refused to finish ends it with the refusal. -/
def fetchMissing (rules : ContentRules) (recentLimit : ℤ) (batches : BatchWriter)
    (listed : List ListedMessage) :
    List (List ListedMessage) → ImapFolder → SentChanges →
      ImapCycle (ServerReply ⊕ ImapFolder × SentChanges)
  | [], server, sent => return .inr (server, sent)
  | messages :: rest, server, sent => do
    let ((batch, refusal), server) ← server.fetchArrivals rules messages recentLimit batches
    let () ← batches.store batch
    let (reader, sent) ← sendImapChanges server.reader listed sent batches
    match refusal with
    | some refusal => return .inl refusal
    | none => fetchMissing rules recentLimit batches listed rest { server with reader } sent

/-- The second pass: the folder as the server has it after the fill and the cycle's own
commands. Its reference is the first pass's numbers; a refused first listing gives none. -/
def secondPass (batches : BatchWriter) (numbers : FolderNumbers) (firstRefusal : Option ServerReply)
    (server : ImapFolder) : ImapCycle LoadResult := do
  let reader ← readerStep server.reader.reopen
  let storedNow ← batches.readFolderSync
  let numbersNow := folderNumbers reader.numbers
  let reference := if firstRefusal.isNone then some numbers else none
  let plan := passPlan numbersNow reference false
  let (second, _) ← runStatePass { server with reader } storedNow numbersNow batches plan
  return batches.finish ((firstRefusal.or second.refusal).map shortList)

/-- The cycle of an IMAP folder. -/
def synchronizeImapFolder (rules : ContentRules) (identityRule : IdentityRule) (recentLimit : ℤ)
    (batches : BatchWriter) : ImapCycle LoadResult := do
  let server ← ImapFolder.openFolder identityRule batches.folder.identity
  let stored ← batches.readFolderSync
  let pending ← batches.pendingChanges
  let reference := if stored.state.synchronized then stored.state.numbers else none
  let numbers := folderNumbers server.reader.numbers
  let plan := passPlan numbers reference (pending ≠ [])
  let (first, server) ← runStatePass server stored numbers batches plan
  let () ← endChangesTheListingShows first.listed pending batches
  let (reader, sent) ← sendImapChanges server.reader first.listed [] batches
  let missing := missingMessages first.listed stored
  let fetched ← fetchMissing rules recentLimit batches first.listed (missing.toChunks batchSize)
    { server with reader } sent
  match fetched with
  | .inl refusal => return batches.finish (some (shortList refusal))
  | .inr (server, sent) =>
    if missing ≠ [] ∨ sent ≠ [] then secondPass batches numbers first.refusal server
    else return batches.finish (first.refusal.map shortList)

end Mailbag.Cycle
