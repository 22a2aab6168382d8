import Mailbag.Domain

/-!
# IMAP as a cycle meets it

The commands a cycle gives an IMAP server and what the server answers: the numbers of
an opening, the FETCH responses to a command in the order they arrived, unsolicited
ones among them, and how the command ended. A response says only what it carries: each
of its fields may be missing.

## The model

Connecting, signing in and opening are one command, `openMailbox`, which answers with
the numbers or with the error of the step that failed. A FETCH or STORE command answers
with `FetchAnswer`. Texts of commands are kept as what they ask for (`FetchItems`).
-/

namespace Mailbag.Imap

/-- The step of a load that failed. -/
inductive ImapStep where
  /-- Connecting. -/
  | connect
  /-- TLS, certificate verification or STARTTLS. -/
  | secureConnection
  /-- Signing in. -/
  | signIn
  /-- Listing the mailboxes. -/
  | listMailboxes
  /-- Opening the mailbox. -/
  | openMailbox
  /-- The message list or part structures. -/
  | fetchMessages
  /-- The texts. -/
  | fetchText
  /-- Setting or clearing a flag of messages. -/
  | storeFlags
  deriving DecidableEq

/-- What the server said about a failure. -/
structure ServerReply where
  /-- The response code of a NO or BAD. -/
  code : Option String
  /-- The text. -/
  text : String
  deriving DecidableEq

/-- What failed. -/
inductive ImapFailure where
  /-- The step failed. -/
  | failed (step : ImapStep)
  /-- The server stopped responding during the step. -/
  | timedOut (step : ImapStep)
  /-- The server offers no way to sign in. -/
  | noSignInMethod
  /-- The mailbox was replaced while the reader reconnected. -/
  | mailboxChanged
  deriving DecidableEq

/-- A failed step, with the server's own reason. -/
structure ImapError where
  /-- What failed. -/
  failure : ImapFailure
  /-- The server's reason, if it gave one. -/
  serverReply : Option ServerReply
  deriving DecidableEq

/-- A failure the server did not explain. -/
def ImapError.of (failure : ImapFailure) : ImapError := ⟨failure, none⟩

/-- The numbers a mailbox's opening returns. -/
structure MailboxNumbers where
  /-- UIDVALIDITY; a server may give none. -/
  uidValidity : Option UInt32
  /-- EXISTS. -/
  messageCount : UInt32
  /-- UIDNEXT; a server may give none. -/
  uidNext : Option UInt32
  /-- HIGHESTMODSEQ, of a mailbox opened with CONDSTORE that keeps mod-sequences. -/
  highestModseq : Option UInt64
  deriving DecidableEq

/-- How a command failed to complete with OK, as the session reports it. -/
inductive SessionError where
  /-- The server completed it with NO. -/
  | no (status : ServerReply)
  /-- The server completed it with BAD. -/
  | bad (status : ServerReply)
  /-- The server said BYE. -/
  | bye (status : ServerReply)
  /-- The server stopped responding. -/
  | timedOut
  /-- A response could not be parsed. -/
  | unparsable
  /-- Any other failure of the connection. -/
  | broken
  deriving DecidableEq

/-- A body section as FETCH names it. -/
inductive SectionName where
  /-- The header of the whole message. -/
  | messageHeader
  /-- The MIME header of a part. -/
  | partHeader (part : List UInt32)
  /-- The body of a part. -/
  | part (part : List UInt32)
  deriving DecidableEq

/-- One part of a message as the server's BODYSTRUCTURE describes it. -/
inductive MessagePart where
  /-- The part's section numbers, its type, its parameters, and its own parts. -/
  | mk (section' : List UInt32) (mediaType mediaSubtype : String)
      (parameters : List (String × String)) (disposition contentId : Option String)
      (children : List MessagePart)

/-- The parts of a multipart. -/
def MessagePart.children : MessagePart → List MessagePart
  | .mk _ _ _ _ _ _ children => children

/-- One FETCH response. -/
structure Fetch where
  /-- The message it names, if it names one. -/
  uid : Option UInt32
  /-- Its flags, when it carries FLAGS. -/
  flags : Option MessageFlags
  /-- X-GM-MSGID. -/
  gmailMsgId : Option UInt64
  /-- INTERNALDATE, as seconds since the Unix epoch. -/
  internalDate : Option ℤ
  /-- The body sections it carries with data. -/
  sections : List (SectionName × List UInt8)
  /-- The part structure. -/
  bodystructure : Option MessagePart

/-- The data of a body section. -/
def Fetch.getSection (fetch : Fetch) (name : SectionName) : Option (List UInt8) :=
  fetch.sections.lookup name

/-- What a command was answered: the FETCH responses in their order, and the error that
ended it, none after OK. -/
structure FetchAnswer where
  /-- The responses received before the command ended. -/
  responses : List Fetch
  /-- How it failed to complete. -/
  ended : Option SessionError

/-- What the listing and the rows ask for beyond RFC 3501. -/
inductive RowItems where
  /-- Nothing. -/
  | standard
  /-- Gmail's message identifier, and its labels in the rows. -/
  | withGmailAttributes
  deriving DecidableEq

/-- The messages a FETCH command names. -/
inductive UidSet where
  /-- `1:*`, every message. -/
  | all
  /-- These. -/
  | uids (uids : List UInt32)
  deriving DecidableEq

/-- What a FETCH command asks for. -/
inductive FetchItems where
  /-- UIDs and flags, of the messages whose mod-sequence rose above a value when one is given. -/
  | listing (items : RowItems) (changedSince : Option UInt64)
  /-- List fields, with the part structures unless they are read apart. -/
  | rows (items : RowItems) (withStructures : Bool)
  /-- Part structures. -/
  | structure'
  /-- Header and body sections, the bodies up to a limit. -/
  | sections (paths : List (SectionName × SectionName)) (limit : Option UInt32)
  deriving DecidableEq

/-- A command of a cycle. -/
inductive ImapCommand where
  /-- Connect, sign in and open the mailbox. -/
  | openMailbox (mailbox : String)
  /-- SELECT the mailbox on the open session. -/
  | select (mailbox : String)
  /-- UID FETCH. -/
  | uidFetch (messages : UidSet) (items : FetchItems)
  /-- UID STORE, adding or taking away one flag. -/
  | uidStore (uids : List UInt32) (flag : MessageFlag) (set : Bool)
  deriving DecidableEq

/-- What the server answers a command. -/
abbrev ImapCommand.Reply : ImapCommand → Type
  | .openMailbox _ => Except ImapError MailboxNumbers
  | .select _ => Except SessionError MailboxNumbers
  | .uidFetch .. => FetchAnswer
  | .uidStore .. => FetchAnswer

/-- The error of a command that failed at `step`. -/
def commandFailure (step : ImapStep) : SessionError → ImapError
  | .no status => ⟨.failed step, some status⟩
  | .bad status => ⟨.failed step, some status⟩
  | .bye status => ⟨.failed step, some status⟩
  | .timedOut => .of (.timedOut step)
  | .unparsable => .of (.failed step)
  | .broken => .of (.failed step)

end Mailbag.Imap
