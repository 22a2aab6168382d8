import Mailbag.Cycle.Batches
import Mailbag.Imap.FetchResponses
import Mathlib.Data.List.Sort

/-!
# A signed-in session with one mailbox

`MailboxReader` runs the commands of a cycle. After a response that could not be parsed
its session is closed, and the next command runs on a fresh one; another UIDVALIDITY
there fails, since the UIDs then name other messages. Every function returns the reader
as it left it.

What each function leaves to the cycle is its rule in `Imap.Rules`: the reader keeps the
numbers of the latest opening, a listing is what the last command's responses report, and a
message whose row or text is missing was named by a command that completed with OK without
answering for it.
-/

namespace Mailbag.Imap

open Cycle Interaction Relation Store

/-- A part of a cycle that fails with an error of the session. -/
abbrev ImapProgram (α : Type) : Type :=
  Program (CycleOp ImapCommand) (CycleAns ImapCommand.Reply) ImapError α

/-- Give the server a command. -/
def command (c : ImapCommand) : ImapProgram c.Reply := Program.request (CycleOp.server c)

/-- A signed-in session with one mailbox of an account. -/
structure MailboxReader where
  /-- The mailbox name as LIST gave it. -/
  mailboxName : String
  /-- The numbers the latest opening returned. -/
  numbers : MailboxNumbers
  /-- The session was closed after an unreadable response. -/
  needsReconnect : Bool

/-- Whether the server marked its refusal temporary. -/
def isTemporary (reply : ServerReply) : Bool :=
  match reply.code with
  | some code => code.map Char.toUpper = "UNAVAILABLE"
  | none => false

/-- The failure of a command the server refused. -/
def refused (step : ImapStep) (reply : ServerReply) : ImapError := ⟨.failed step, some reply⟩

/-- The refusal of a row command; any other failure fails the read. -/
def rowRefusal : FetchEnd → Except ImapError (Option ServerReply)
  | .completed => .ok none
  | .rejected reply => .ok (some reply)
  | .failed error => .error (commandFailure .fetchMessages error)

/-- Whether the server refused a text command; a refusal it marks temporary, and any other
failure, fails the read. -/
def textRejected : FetchEnd → Except ImapError Bool
  | .completed => .ok false
  | .rejected reply => if isTemporary reply then .error (refused .fetchText reply) else .ok true
  | .failed error => .error (commandFailure .fetchText error)

/-- The text parts to read from one message. -/
structure TextRequest where
  /-- The message. -/
  uid : UInt32
  /-- The parts. -/
  parts : TextParts
  /-- Read only the first octets of each body section. -/
  limit : Option UInt32
  deriving DecidableEq

/-- Whether a shape comes before another: a single-part body before the leaves of a
multipart, which are compared number by number, and no limit before any. -/
def compareShape : TextParts × Option UInt32 → TextParts × Option UInt32 → Ordering
  | (.singlePartBody, limit), (.singlePartBody, limit') => compare limit limit'
  | (.singlePartBody, _), (.multipartLeaves _, _) => .lt
  | (.multipartLeaves _, _), (.singlePartBody, _) => .gt
  | (.multipartLeaves leaves, limit), (.multipartLeaves leaves', limit') =>
    (compare leaves leaves').then (compare limit limit')

/-- The messages to read, by the shape of what to read of them. -/
def uidsByShape (requests : List TextRequest) : List ((TextParts × Option UInt32) × List UInt32) :=
  let byShape : Std.TreeMap (TextParts × Option UInt32) (List UInt32) compareShape :=
    requests.foldl (fun m request => m.alter (request.parts, request.limit) fun uids =>
      some (uids.getD [] ++ [request.uid])) ∅
  byShape.toList

namespace MailboxReader

/-- Connect, sign in and open the mailbox. -/
def openMailbox (mailbox : String) : ImapProgram MailboxReader := do
  let opened ← command (.openMailbox mailbox)
  let numbers ← Program.ofExcept opened
  return ⟨mailbox, numbers, false⟩

variable (reader : MailboxReader)

/-- The mailbox version the read UIDs belong to. -/
def uidValidity : Option UInt32 := reader.numbers.uidValidity

/-- Another UIDVALIDITY means the UIDs now name other messages. -/
def requireSameNumbering (numbers : MailboxNumbers) : Except ImapError Unit :=
  if numbers.uidValidity = reader.numbers.uidValidity then .ok () else .error (.of .mailboxChanged)

/-- Replace the session with a fresh one on the same mailbox. -/
def reconnect : ImapProgram MailboxReader := do
  let opened ← command (.openMailbox reader.mailboxName)
  let numbers ← Program.ofExcept opened
  let () ← Program.ofExcept (reader.requireSameNumbering numbers)
  return { reader with numbers, needsReconnect := false }

/-- A usable session: a fresh one when the earlier one was closed. -/
def connected : ImapProgram MailboxReader :=
  if reader.needsReconnect then reader.reconnect else .done reader

/-- Open the mailbox again, so that its numbers are the server's now. -/
def reopen : ImapProgram MailboxReader :=
  if reader.needsReconnect then reader.reconnect
  else do
    let opened ← command (.select reader.mailboxName)
    let numbers ← Program.ofExcept (opened.mapError (commandFailure .openMailbox))
    let () ← Program.ofExcept (reader.requireSameNumbering numbers)
    return { reader with numbers }

/-- One `UID FETCH` of `items` for the messages `set` names, read as it arrives. A NO or BAD
leaves the listing incomplete with the server's reason. -/
def fetchListing (set : UidSet) (items : FetchItems) :
    ImapProgram (FolderListing × MailboxReader) := do
  let reader ← reader.connected
  let answer ← command (.uidFetch set items)
  let listed := listing answer.responses
  match answer.ended with
  | none => return (⟨listed, none⟩, reader)
  | some (.no status) => return (⟨listed, some status⟩, reader)
  | some (.bad status) => return (⟨listed, some status⟩, reader)
  | some error => .fail (commandFailure .fetchMessages error)

/-- A listing of the mailbox; an empty mailbox is listed without a command. -/
def list (rowItems : RowItems) (changedSince : Option UInt64) :
    ImapProgram (FolderListing × MailboxReader) :=
  if reader.numbers.messageCount = 0 then return (⟨[], none⟩, reader)
  else reader.fetchListing .all (.listing rowItems changedSince)

/-- Every message of the mailbox by UID with its flags. -/
def listMessages (rowItems : RowItems) : ImapProgram (FolderListing × MailboxReader) :=
  reader.list rowItems none

/-- Only the messages whose mod-sequence rose above `since`. -/
def listChangedFlags (since : UInt64) (rowItems : RowItems) :
    ImapProgram (FolderListing × MailboxReader) :=
  reader.list rowItems (some since)

/-- The flags of the given messages, right after a command changed them. -/
def fetchFlags (uids : List UInt32) : ImapProgram (FolderListing × MailboxReader) :=
  reader.fetchListing (.uids uids) (.listing .standard none)

/-- Run one UID FETCH command and keep every response received before it ended. -/
def fetch (uids : List UInt32) (items : FetchItems) :
    ImapProgram (FetchResponses × MailboxReader) := do
  let reader ← reader.connected
  let answer ← command (.uidFetch (.uids uids) items)
  let responses := collectFetches answer
  return (responses, { reader with needsReconnect := responses.ended.isParseFailure })

/-- Read each row's structure on its own. A row whose structure could not be read keeps none;
a row the server no longer answers for is dropped, its message disappeared. A refusal the
server marks temporary fails the read. -/
def fetchStructuresApart (reader : MailboxReader) :
    List MessageRow → ImapProgram (List MessageRow × MailboxReader)
  | [] => return ([], reader)
  | row :: rows => do
    let (responses, reader) ← reader.fetch [row.uid] .structure'
    let row := { row with structure' := structureOf responses.fetches }
    match responses.ended with
    | .completed =>
      let (rest, reader) ← fetchStructuresApart reader rows
      return (if row.structure'.isNone then rest else row :: rest, reader)
    | .rejected reply =>
      if isTemporary reply then .fail (refused .fetchMessages reply)
      else
        let (rest, reader) ← fetchStructuresApart reader rows
        return (row :: rest, reader)
    | .failed error =>
      if error.isParseFailure then
        let (rest, reader) ← fetchStructuresApart reader rows
        return (row :: rest, reader)
      else .fail (commandFailure .fetchMessages error)

/-- Read the messages the row command did not answer for, or answered without a structure:
their rows in one command, then each structure on its own. -/
def readUnansweredApart (uids : List UInt32) (rowItems : RowItems) (rows : List MessageRow) :
    ImapProgram (List MessageRow × Option ServerReply × MailboxReader) :=
  let rows := rows.filter fun row => row.structure'.isSome
  let unanswered := uids.filter fun uid => uid ∉ rows.map MessageRow.uid
  if unanswered = [] then return (rows, none, reader)
  else do
    let (responses, reader) ← reader.fetch unanswered (.rows rowItems false)
    let answered := collectRows responses.fetches unanswered
    let refusal ← Program.ofExcept (rowRefusal responses.ended)
    let (answered, reader) ← reader.fetchStructuresApart answered
    return ((rows ++ answered).insertionSort fun a b => b.uid ≤ a.uid, refusal, reader)

/-- The rows of the given messages with their part structures, in descending UID order. A
message the server did not answer for is left out. -/
def fetchRowsByUid (uids : List UInt32) (rowItems : RowItems) :
    ImapProgram (MessageList × MailboxReader) :=
  if uids = [] then return (⟨[], none⟩, reader)
  else do
    let (responses, reader) ← reader.fetch uids (.rows rowItems true)
    let rows := collectRows responses.fetches uids
    match responses.ended with
    | .completed => return (⟨rows, none⟩, reader)
    | .rejected reply =>
      if rows.length = uids.length ∧ rows.all (fun row => row.structure'.isSome) then
        return (⟨rows, some reply⟩, reader)
      else
        let (rows, refusal, reader) ← reader.readUnansweredApart uids rowItems rows
        return (⟨rows, refusal⟩, reader)
    | .failed error =>
      if error.isParseFailure then
        let (rows, refusal, reader) ← reader.readUnansweredApart uids rowItems rows
        return (⟨rows, refusal⟩, reader)
      else .fail (commandFailure .fetchMessages error)

/-- The text parts read by the commands for the given shapes, one after another: for each
requested message its text, with the request's limit. -/
def fetchShapes (reader : MailboxReader) :
    List ((TextParts × Option UInt32) × List UInt32) →
      ImapProgram (List (UInt32 × Option UInt32 × MessageText) × MailboxReader)
  | [] => return ([], reader)
  | ((parts, limit), uids) :: shapes => do
    let paths := sectionPaths parts
    let (responses, reader) ← reader.fetch uids (.sections paths limit)
    let rejected ← Program.ofExcept (textRejected responses.ended)
    let texts := uids.map fun uid => (uid, limit, messageText responses.fetches uid paths rejected)
    let (rest, reader) ← fetchShapes reader shapes
    return (texts ++ rest, reader)

/-- Read text parts, one command per distinct request shape. -/
def fetchText (requests : List TextRequest) :
    ImapProgram (List (UInt32 × Option UInt32 × MessageText) × MailboxReader) :=
  reader.fetchShapes (uidsByShape requests)

/-- Set or clear `flag` on the messages `uids`. The refusal when the server answered NO or
BAD. -/
def storeFlags (uids : List UInt32) (flag : MessageFlag) (set : Bool) :
    ImapProgram (Option ImapError × MailboxReader) := do
  let reader ← reader.connected
  let answer ← command (.uidStore uids flag set)
  match (collectFetches answer).ended with
  | .completed => return (none, reader)
  | .rejected reply => return (some (refused .storeFlags reply), reader)
  | .failed (.bad status) => return (some (refused .storeFlags status), reader)
  | .failed error => .fail (commandFailure .storeFlags error)

end MailboxReader

end Mailbag.Imap
