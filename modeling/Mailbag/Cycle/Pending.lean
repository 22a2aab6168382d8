import Mailbag.Imap.Texts

/-!
# The sending step of an IMAP cycle

The folder's pending changes go to the server; a change ends when the server reports the
message holding it, in the listing at the cycle's start or in the flags read right after
the command; a refused one is dropped and fails the cycle.
-/

namespace Mailbag.Cycle

open Collections Imap Interaction Store

/-- A part of an IMAP cycle. -/
abbrev ImapCycle (α : Type) : Type := CycleProgram ImapCommand.Reply α

/-- An error of the session fails the cycle. -/
def CycleEnd.ofImap (error : ImapError) : CycleEnd := .failed (.imap error)

/-- A part of the cycle the reader runs. -/
def readerStep {α : Type} (p : ImapProgram α) : ImapCycle α := p.mapFail CycleEnd.ofImap

/-- A listed message the cycle knows by its identity. -/
structure ListedMessage where
  /-- The identity in the account. -/
  identity : String
  /-- The UID. -/
  uid : UInt32
  /-- The flags. -/
  flags : MessageFlags
  deriving DecidableEq

/-- The listed messages by their identity: a later one of an identity replaces an earlier one. -/
def byIdentity (listed : List ListedMessage) : List (String × ListedMessage) :=
  listed.map fun message => (message.identity, message)

/-- How many messages one IMAP command changes. -/
def uidsPerCommand : ℕ := 100

/-- The value an IMAP cycle sent for each message's flag. -/
abbrev SentChanges : Type := List ((String × MessageFlag) × Bool)

/-- A flag and a wanted value, in the order they are gone through. -/
def flagValues : List (MessageFlag × Bool) :=
  [(.seen, false), (.seen, true), (.flagged, false), (.flagged, true)]

/-- The messages whose pending change of a flag to a value the listing shows the server holds. -/
def shownChanges (listed : List ListedMessage) (pending : List PendingChange) (flag : MessageFlag)
    (wanted : Bool) : List String :=
  (pending.filter fun change => change.flag = flag ∧ change.wanted = wanted ∧
    (latest change.identity (byIdentity listed)).any fun message =>
      flagOf change.flag message.flags = change.wanted).map PendingChange.identity

/-- Settle each of the groups that is not empty. -/
def settleAll (batches : BatchWriter) : List ((MessageFlag × Bool) × List String) → ImapCycle Unit
  | [] => return ()
  | ((flag, value), identities) :: groups => do
    if identities = [] then settleAll batches groups
    else
      let () ← batches.settle identities flag value
      settleAll batches groups

/-- End, without a command, the pending changes whose value the listing shows the server
holds. -/
def endChangesTheListingShows (listed : List ListedMessage) (pending : List PendingChange)
    (batches : BatchWriter) : ImapCycle Unit :=
  settleAll batches (flagValues.map fun (flag, value) =>
    ((flag, value), shownChanges listed pending flag value))

/-- The messages a pending change of a flag to a value is to be sent for, by UID: those the
listing shows, unless this cycle sent the value already. -/
def messagesToSend (listed : List ListedMessage) (sent : SentChanges) (pending : List PendingChange)
    (flag : MessageFlag) (wanted : Bool) : List (String × UInt32) :=
  let messages := pending.filterMap fun change =>
    if change.flag = flag ∧ change.wanted = wanted ∧
        sent.lookup (change.identity, change.flag) ≠ some change.wanted then
      (latest change.identity (byIdentity listed)).map fun message => (change.identity, message.uid)
    else none
  messages.insertionSort fun a b => a.2 ≤ b.2

/-- The commands to send: per flag, wanted value and hundred messages. -/
def commandsToSend (listed : List ListedMessage) (sent : SentChanges)
    (pending : List PendingChange) : List ((MessageFlag × Bool) × List (String × UInt32)) :=
  flagValues.flatMap fun (flag, wanted) =>
    ((messagesToSend listed sent pending flag wanted).toChunks uidsPerCommand).map
      ((flag, wanted), ·)

/-- The messages of a command that the reading after it shows with the wanted value. -/
def confirmedBy (reading : FolderListing) (flag : MessageFlag) (wanted : Bool)
    (messages : List (String × UInt32)) : List String :=
  (reading.messages.filter fun message => flagOf flag message.flags = wanted).filterMap
    fun message =>
    (messages.find? fun named => named.2 = message.uid).map Prod.fst

/-- Send one command and settle what the flags read right after it confirm. -/
def sendCommand (reader : MailboxReader) (sent : SentChanges) (batches : BatchWriter)
    (flag : MessageFlag) (wanted : Bool) (messages : List (String × UInt32)) :
    ImapCycle (MailboxReader × SentChanges) := do
  let identities := messages.map Prod.fst
  let uids := messages.map Prod.snd
  let (refusal, reader) ← readerStep (reader.storeFlags uids flag wanted)
  match refusal with
  | some refusal =>
    let () ← batches.dropPending identities flag wanted
    .fail (.ofImap refusal)
  | none =>
    let sent := identities.foldl (fun sent identity => ((identity, flag), wanted) :: sent) sent
    let (reading, reader) ← readerStep (reader.fetchFlags uids)
    let confirmed := confirmedBy reading flag wanted messages
    if confirmed = [] then return (reader, sent)
    else
      let () ← batches.settle confirmed flag wanted
      return (reader, sent)

/-- Send the commands one after another. -/
def sendCommands (batches : BatchWriter) :
    List ((MessageFlag × Bool) × List (String × UInt32)) → MailboxReader → SentChanges →
      ImapCycle (MailboxReader × SentChanges)
  | [], reader, sent => return (reader, sent)
  | ((flag, wanted), messages) :: commands, reader, sent => do
    let (reader, sent) ← sendCommand reader sent batches flag wanted messages
    sendCommands batches commands reader sent

/-- Send the folder's pending changes to the server by the UIDs the listing gave. A message
the listing lacks keeps its change for a later cycle. -/
def sendImapChanges (reader : MailboxReader) (listed : List ListedMessage) (sent : SentChanges)
    (batches : BatchWriter) : ImapCycle (MailboxReader × SentChanges) := do
  let pending ← batches.pendingChanges
  sendCommands batches (commandsToSend listed sent pending) reader sent

end Mailbag.Cycle
