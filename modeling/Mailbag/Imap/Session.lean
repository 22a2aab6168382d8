import Mailbag.Folders.MailboxNames
import Mailbag.Imap.SignInName
import Mailbag.Interaction.Failing

/-!
# Connecting, signing in, opening and listing

What `Imap.Protocol` takes as one command, `openMailbox`, command by command: the TCP
connection, STARTTLS on the connection not yet encrypted, the TLS handshake, the sign-in, what
is asked for between the sign-in and the mailbox, and SELECT; and the LIST of an account's
mailboxes, which begins alike.

## The model

`SessionOp` is what is asked of the network and of the server. An operation over TLS is
answered with its result and with what the server said by itself meanwhile (`Heard`), which
waits until the notices collect it; what a server says on the connection not yet encrypted
comes with no notices to follow it. The server challenges an AUTHENTICATE as often as it likes:
`rounds` says how many challenges are followed. Lines for the record are left out, and of a
server's texts the model knows what `SignInName` does.
-/

namespace Mailbag.Imap

open Interaction

/-! ### An account -/

/-- How the connection is secured. There is no unencrypted option. -/
inductive Encryption where
  /-- TLS from the first byte. -/
  | implicitTls
  /-- STARTTLS before sign-in. -/
  | startTls
  deriving DecidableEq

/-- The port of a host that names none. -/
def Encryption.defaultPort : Encryption → ℕ
  | .implicitTls => 993
  | .startTls => 143

/-- What the account signs in with. -/
inductive Credential where
  /-- A password. -/
  | password (password : String)
  /-- An OAuth access token. -/
  | accessToken (token : String)
  deriving DecidableEq

/-- Where and how to sign in. -/
structure ImapAccount where
  /-- The host, optionally with a port. -/
  host : String
  /-- The sign-in name. -/
  login : String
  /-- What it signs in with. -/
  credential : Credential
  /-- How the connection is secured. -/
  encryption : Encryption

/-- How this client names itself. -/
structure ClientIdentity where
  /-- The program that speaks IMAP. -/
  name : String
  /-- Its version. -/
  version : String
  /-- Who makes it. -/
  vendor : String
  /-- Where to write about it. -/
  contact : String
  /-- Where it is described. -/
  supportUrl : String

/-- What the caller asks for between sign-in and the first mailbox command. -/
structure OpenOptions where
  /-- Name this client to the server. -/
  clientIdentity : Option ClientIdentity

/-! ### The network and the server -/

/-- How reading or writing failed: GIO reports timeouts. -/
inductive IoFailure where
  /-- The server stopped responding. -/
  | timedOut
  /-- Any other failure. -/
  | broken
  deriving DecidableEq

/-- What a server announced, by name. -/
abbrev Capabilities : Type := List String

/-- Whether the server announced the capability. -/
def Capabilities.hasStr (capabilities : Capabilities) (name : String) : Bool := name ∈ capabilities

/-- The answer to an operation over TLS. -/
structure Heard (α : Type) where
  /-- The result. -/
  result : α
  /-- What the server said by itself before it. -/
  unsolicited : List Response

/-- How an AUTHENTICATE goes on. -/
inductive AuthenticateStep where
  /-- The server sends a challenge. -/
  | challenge (challenge : List UInt8)
  /-- The command completed. -/
  | completed (result : Except SessionError Unit)

/-- The attributes of a mailbox that the library knows, or the text of any other. -/
inductive NameAttribute where
  | noInferiors
  | noSelect
  | marked
  | unmarked
  | all
  | archive
  | drafts
  | flagged
  | junk
  | sent
  | trash
  | extension (text : String)

/-- A mailbox of a LIST reply, as the library reads it. -/
structure Name where
  /-- As the server sent it. -/
  name : String
  /-- Its attributes. -/
  attributes : List NameAttribute
  /-- The hierarchy delimiter. -/
  delimiter : Option String

/-- What a LIST was answered: the mailboxes received, and the error that ended it, none after OK. -/
structure ListAnswer where
  /-- The mailboxes received. -/
  names : List Name
  /-- How it failed to complete. -/
  ended : Option SessionError

/-- What is asked of the network and of the server. -/
inductive SessionOp where
  /-- The TCP connection to the host, at its own port or this one. -/
  | connect (host : String) (defaultPort : ℕ)
  /-- Read the greeting on the connection not yet encrypted. -/
  | plaintextGreeting
  /-- CAPABILITY there. -/
  | plaintextCapability
  /-- Another command there. -/
  | plaintextCommand (text : String)
  /-- The TLS handshake, with the certificate verified for the host. -/
  | handshake (host : String)
  /-- Read the greeting over TLS. -/
  | greeting
  /-- CAPABILITY. -/
  | capability
  /-- AUTHENTICATE with a mechanism. -/
  | authenticate (mechanism : String)
  /-- The answer to a challenge. -/
  | response (data : List UInt8)
  /-- LOGIN. -/
  | login (login password : String)
  /-- A command whose completion is all that is read of it. -/
  | runCommand (text : String)
  /-- Compress from here on, at this end. -/
  | startCompression
  /-- SELECT, with the CONDSTORE parameter or without. -/
  | select (mailbox : String) (condstore : Bool)
  /-- LIST. -/
  | list (reference pattern : String)
  deriving DecidableEq

/-- What an operation is answered. -/
abbrev SessionAns : SessionOp → Type
  | .connect .. => Except IoFailure Unit
  | .plaintextGreeting => Except IoFailure (Option Response)
  | .plaintextCapability => Except SessionError Capabilities
  | .plaintextCommand _ => Except SessionError Unit
  | .handshake _ => Except IoFailure Unit
  | .greeting => Except IoFailure (Option Response)
  | .capability => Heard (Except SessionError Capabilities)
  | .authenticate _ => Heard AuthenticateStep
  | .response _ => Heard AuthenticateStep
  | .login .. => Heard (Except SessionError Unit)
  | .runCommand _ => Heard (Except SessionError Unit)
  | .startCompression => Unit
  | .select .. => Heard (Except SessionError MailboxNumbers)
  | .list .. => Heard ListAnswer

/-- A part of an attempt; it fails with the failed step and what the server said until then. -/
abbrev SessionProgram (α : Type) : Type :=
  Program SessionOp SessionAns (StepFailure × ServerNotices) α

/-- Ask the network or the server. -/
def ask (o : SessionOp) : SessionProgram (SessionAns o) := Program.request o

/-- The result, or the failure with the notices so far. -/
def orFail {α : Type} (notices : ServerNotices) (result : Except StepFailure α) :
    SessionProgram α :=
  Program.ofExcept (result.mapError (·, notices))

/-! ### Failures -/

/-- A failure the server did not explain. -/
def StepFailure.of (failure : ImapFailure) : StepFailure := ⟨failure, none⟩

/-- The failure of reading or writing at a step. -/
def ioFailure (step : ImapStep) : IoFailure → StepFailure
  | .timedOut => .of (.timedOut step)
  | .broken => .of (.failed step)

/-- The failure of a command, with the server's text when it answered NO or BAD, or closed the
connection with BYE. -/
def stepFailure (step : ImapStep) (error : SessionError) : StepFailure :=
  ⟨(commandFailure step error).failure, (commandFailure step error).serverReply⟩

/-- A failure to secure the connection. The server's text may come from an attacker, so it is not
kept. -/
def starttlsFailure : SessionError → StepFailure
  | .timedOut => .of (.timedOut .secureConnection)
  | _ => .of (.failed .secureConnection)

/-! ### The notices of a connection -/

namespace ServerNotices

/-- Follow a new connection's responses. -/
def follow (notices : ServerNotices) : ServerNotices := { notices with responses := some [] }

/-- More responses wait on the connection followed. -/
def hear (notices : ServerNotices) (unsolicited : List Response) : ServerNotices :=
  { notices with responses := notices.responses.map (· ++ unsolicited) }

/-- Of a server that said nothing yet. -/
def default : ServerNotices := ⟨none, [], none⟩

end ServerNotices

/-! ### Securing the connection -/

/-- The greeting of a connection to upgrade: PREAUTH could skip encryption. -/
def plaintextGreeted : Except IoFailure (Option Response) → Except StepFailure Unit
  | .error error => .error (ioFailure .connect error)
  | .ok none => .error (.of (.failed .connect))
  | .ok (some (.data .ok ..)) => .ok ()
  | .ok (some (.data .preAuth ..)) => .error (.of (.failed .secureConnection))
  | .ok (some _) => .error (.of (.failed .connect))

/-- Run STARTTLS on the unencrypted connection. Nothing received there is trusted. -/
def upgradePlaintext (notices : ServerNotices) : SessionProgram Unit := do
  let greeting ← ask .plaintextGreeting
  let () ← orFail notices (plaintextGreeted greeting)
  let capabilities ← ask .plaintextCapability
  let capabilities ← orFail notices (capabilities.mapError starttlsFailure)
  if capabilities.hasStr "STARTTLS" then
    let upgraded ← ask (.plaintextCommand "STARTTLS")
    orFail notices (upgraded.mapError starttlsFailure)
  else .fail (.of (.failed .secureConnection), notices)

/-- The greeting over TLS: a BYE is explained by its text, which the notices keep, and a
PREAUTH is not supported. -/
def greeted : Except IoFailure (Option Response) → Except StepFailure Response
  | .error error => .error (ioFailure .connect error)
  | .ok none => .error (.of (.failed .connect))
  | .ok (some greeting) => .ok greeting

/-- Whether the server lets the client sign in. -/
def Response.isOk : Response → Bool
  | .data .ok .. => true
  | _ => false

/-- Read the greeting. -/
def readGreeting (notices : ServerNotices) : SessionProgram ServerNotices := do
  let greeting ← ask .greeting
  let greeting ← orFail notices (greeted greeting)
  let notices := notices.keep greeting
  if greeting.isOk then return notices else .fail (.of (.failed .connect), notices)

/-! ### Signing in -/

/-- What a sign-in with AUTHENTICATE answers a challenge with, and whether it did. -/
structure Authenticator where
  /-- The credentials. -/
  credentials : List UInt8
  /-- They were sent. -/
  sent : Bool

/-- The credentials are sent once: an unexpected second challenge gets an empty answer. -/
def Authenticator.process (authenticator : Authenticator) (_challenge : List UInt8) :
    List UInt8 × Authenticator :=
  (if authenticator.sent then []
    else authenticator.credentials, { authenticator with sent := true })

/-- The bytes of a text. -/
def textBytes (text : String) : List UInt8 := text.toUTF8.data.toList

/-- The SASL PLAIN response. -/
def plainCredentials (login password : String) : Authenticator :=
  ⟨[0] ++ textBytes login ++ [0] ++ textBytes password, false⟩

/-- The XOAUTH2 response. -/
def xoauth2Credentials (login token : String) : Authenticator :=
  ⟨textBytes ("user=" ++ login) ++ [1] ++ textBytes ("auth=Bearer " ++ token) ++ [1, 1], false⟩

/-- A command that signs in. -/
inductive SignInMethod where
  /-- AUTHENTICATE with a mechanism. -/
  | authenticate (mechanism : String) (authenticator : Authenticator)
  /-- LOGIN. -/
  | login (login password : String)

/-- The method the credential needs, if the server offers one: XOAUTH2 for an access token,
otherwise PLAIN when offered and LOGIN unless the server disables it. -/
def signInMethod (account : ImapAccount) (capabilities : Capabilities) : Option SignInMethod :=
  match account.credential with
  | .accessToken token =>
    if capabilities.hasStr "AUTH=XOAUTH2" then
      some (.authenticate "XOAUTH2" (xoauth2Credentials account.login token)) else none
  | .password password =>
    if capabilities.hasStr "AUTH=PLAIN" then
      some (.authenticate "PLAIN" (plainCredentials account.login password))
    else if !capabilities.hasStr "LOGINDISABLED" then some (.login account.login password)
    else none

/-- An AUTHENTICATE that goes on, with the notices so far. -/
abbrev Authenticating : Type := AuthenticateStep × Authenticator × ServerNotices

/-- Answer a challenge. -/
def answerChallenge :
    Authenticating → SessionProgram (Authenticating ⊕ (Except SessionError Unit × ServerNotices))
  | (.completed result, _, notices) => return .inr (result, notices)
  | (.challenge challenge, authenticator, notices) => do
    let (data, authenticator) := authenticator.process challenge
    let answer ← ask (.response data)
    return .inl (answer.result, authenticator, notices.hear answer.unsolicited)

/-- Run the command that signs in, through so many challenges. -/
def SignInMethod.run (rounds : ℕ) (notices : ServerNotices) :
    SignInMethod → SessionProgram (Except SessionError Unit × ServerNotices)
  | .authenticate mechanism authenticator => do
    let answer ← ask (.authenticate mechanism)
    Program.iterate answerChallenge rounds
      (answer.result, authenticator, notices.hear answer.unsolicited)
  | .login signInName password => do
    let answer ← ask (.login signInName password)
    return (answer.result, notices.hear answer.unsolicited)

/-- Sign in. A rejected sign-in is not retried with another method. -/
def signIn (account : ImapAccount) (rounds : ℕ) (notices : ServerNotices) :
    SessionProgram ServerNotices := do
  let answer ← ask .capability
  let notices := (notices.hear answer.unsolicited).collect
  let capabilities ← orFail notices (answer.result.mapError (stepFailure .signIn))
  match signInMethod account capabilities with
  | none => .fail (.of .noSignInMethod, notices)
  | some method => do
    let (signedIn, notices) ← method.run rounds notices
    let () ← orFail notices (signedIn.mapError (stepFailure .signIn))
    return notices.collect

/-! ### Between the sign-in and the mailbox -/

/-- Whether the server completed a command that it may refuse; a broken connection is no refusal. -/
def accepted (openedFor : ImapStep) : Except SessionError Unit → Except StepFailure Bool
  | .ok () => .ok true
  | .error (.no _) => .ok false
  | .error (.bad _) => .ok false
  | .error error => .error (stepFailure openedFor error)

/-- Run a command that the server may refuse: whether it completed it. -/
def runOptional (text : String) (openedFor : ImapStep) (notices : ServerNotices) :
    SessionProgram (Bool × ServerNotices) := do
  let answer ← ask (.runCommand text)
  let notices := notices.hear answer.unsolicited
  let completed ← orFail notices (accepted openedFor answer.result)
  return (completed, notices)

/-- Ask the server to compress the connection, and put the compression in place once it agrees. -/
def compressSession (openedFor : ImapStep) (notices : ServerNotices) :
    SessionProgram ServerNotices := do
  let (agreed, notices) ← runOptional "COMPRESS DEFLATE" openedFor notices
  if agreed then
    let () ← ask .startCompression
    return notices
  else return notices

/-- Enable UTF-8 names: whether the server accepted. -/
def enableUtf8Names (openedFor : ImapStep) (notices : ServerNotices) :
    SessionProgram (Bool × ServerNotices) :=
  runOptional "ENABLE UTF8=ACCEPT" openedFor notices

/-- An IMAP quoted string. -/
def quoted (value : String) : String :=
  "\"" ++ String.ofList (value.toList.flatMap fun c => if c = '\\' ∨ c = '"' then ['\\', c]
    else [c]) ++ "\""

/-- The ID command. -/
def identification (identity : ClientIdentity) : String :=
  let fields := [("name", identity.name), ("version", identity.version),
    ("vendor", identity.vendor),
    ("contact", identity.contact), ("support-url", identity.supportUrl)]
  "ID (" ++ " ".intercalate (fields.map fun (field, value) => quoted field ++ " " ++
    quoted value) ++ ")"

/-- Name this client to the server. -/
def identifyClient (identity : ClientIdentity) (openedFor : ImapStep)
    (notices : ServerNotices) : SessionProgram ServerNotices := do
  let (_, notices) ← runOptional (identification identity) openedFor notices
  return notices

/-! ### A signed-in session -/

/-- A signed-in session before any mailbox command. -/
structure SignedInSession where
  /-- What the server announced after sign-in. -/
  capabilities : Capabilities
  /-- Whether the server sends mailbox names in UTF-8. -/
  utf8Names : Bool

/-- The connection, encrypted, and its notices: greeted, unless STARTTLS came before. -/
def secureConnection (account : ImapAccount) (notices : ServerNotices) :
    SessionProgram ServerNotices := do
  let connected ← ask (.connect account.host account.encryption.defaultPort)
  let () ← orFail notices (connected.mapError (ioFailure .connect))
  let () ← (if account.encryption = .startTls then upgradePlaintext notices
    else .done () : SessionProgram Unit)
  let secured ← ask (.handshake account.host)
  let () ← orFail notices (secured.mapError (ioFailure .secureConnection))
  let notices := notices.follow
  if account.encryption = .implicitTls then readGreeting notices else .done notices

/-- What is asked for once signed in. -/
def prepareSession (options : OpenOptions) (openedFor : ImapStep) (notices : ServerNotices) :
    SessionProgram (SignedInSession × ServerNotices) := do
  let answer ← ask .capability
  let notices := (notices.hear answer.unsolicited).collect
  let capabilities ← orFail notices (answer.result.mapError (stepFailure openedFor))
  let notices ← (if capabilities.hasStr "COMPRESS=DEFLATE" then compressSession openedFor notices
    else .done notices :
    SessionProgram ServerNotices)
  -- RFC 5161 allows ENABLE only before a mailbox is selected.
  let (utf8Names, notices) ← (if capabilities.hasStr "UTF8=ACCEPT" ||
      capabilities.hasStr "UTF8=ONLY" then
    enableUtf8Names openedFor notices
      else .done (false, notices) : SessionProgram (Bool × ServerNotices))
  let notices ← (match options.clientIdentity with
    | some identity => identifyClient identity openedFor notices
    | none => .done notices : SessionProgram ServerNotices)
  return (⟨capabilities, utf8Names⟩, notices.collect)

/-- Connect securely, sign in and prepare the session for the step it is opened for. -/
def signInSession (account : ImapAccount) (options : OpenOptions) (rounds : ℕ)
    (notices : ServerNotices) (openedFor : ImapStep) :
    SessionProgram (SignedInSession × ServerNotices) := do
  let notices ← secureConnection account notices
  let notices ← signIn account rounds notices
  prepareSession options openedFor notices

/-! ### Opening and listing -/

/-- A signed-in session with one mailbox open. -/
structure MailboxSession where
  /-- The numbers the opening returned. -/
  numbers : MailboxNumbers
  /-- Whether the mailbox is opened with the CONDSTORE parameter. -/
  condstore : Bool

/-- SELECT the mailbox, and the numbers its answer carries. -/
def openSelected (mailbox : String) (condstore : Bool) (notices : ServerNotices) :
    SessionProgram (MailboxNumbers × ServerNotices) := do
  let answer ← ask (.select mailbox condstore)
  let notices := (notices.hear answer.unsolicited).collect
  let numbers ← orFail notices (answer.result.mapError (stepFailure .openMailbox))
  return (numbers, notices)

/-- Open the mailbox in a signed-in session. -/
def selectMailbox (signedIn : SignedInSession) (mailbox : String) (notices : ServerNotices) :
    SessionProgram (MailboxSession × ServerNotices) := do
  let condstore := signedIn.capabilities.hasStr "CONDSTORE"
  let (numbers, notices) ← openSelected mailbox condstore notices
  return (⟨numbers, condstore⟩, notices)

/-- Sign in and open the mailbox. -/
def openMailbox (account : ImapAccount) (options : OpenOptions) (mailbox : String) (rounds : ℕ)
    (notices : ServerNotices) : SessionProgram (MailboxSession × ServerNotices) := do
  let (signedIn, notices) ← signInSession account options rounds notices .openMailbox
  selectMailbox signedIn mailbox notices

/-- An attribute as RFC 3501 and RFC 6154 spell it. -/
def attributeText : NameAttribute → String
  | .noInferiors => "\\Noinferiors"
  | .noSelect => "\\Noselect"
  | .marked => "\\Marked"
  | .unmarked => "\\Unmarked"
  | .all => "\\All"
  | .archive => "\\Archive"
  | .drafts => "\\Drafts"
  | .flagged => "\\Flagged"
  | .junk => "\\Junk"
  | .sent => "\\Sent"
  | .trash => "\\Trash"
  | .extension text => text

/-- A mailbox as LIST names it. -/
def mailboxName (name : Name) : Folders.MailboxName :=
  ⟨name.name, name.attributes.map attributeText, name.delimiter⟩

/-- The names of a LIST; one cut short has none. -/
def ListAnswer.collected (answer : ListAnswer) : Except SessionError (List Folders.MailboxName) :=
  match answer.ended with
  | none => .ok (answer.names.map mailboxName)
  | some error => .error error

/-- Every name of one LIST command: a server that announces the special-use attributes is asked for
them. -/
def listNames (signedIn : SignedInSession) : SessionProgram (Heard ListAnswer) :=
  ask (.list "" (if signedIn.capabilities.hasStr "SPECIAL-USE" then "* RETURN (SPECIAL-USE)"
    else "*"))

/-- Connect securely, sign in and list every mailbox of the account. A refused or cut-short list is
a failure. -/
def signInAndList (account : ImapAccount) (options : OpenOptions) (rounds : ℕ)
    (notices : ServerNotices) : SessionProgram (Folders.MailboxList × ServerNotices) := do
  let (signedIn, notices) ← signInSession account options rounds notices .listMailboxes
  let answer ← listNames signedIn
  let notices := (notices.hear answer.unsolicited).collect
  let names ← orFail notices (answer.result.collected.mapError (stepFailure .listMailboxes))
  return (⟨names, signedIn.utf8Names⟩, notices)

end Mailbag.Imap
