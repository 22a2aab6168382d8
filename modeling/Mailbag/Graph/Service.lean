import Mailbag.Graph.Reply
import Mailbag.Interaction.Program

/-!
# Requests of Microsoft Graph over HTTP

What the cycle and the folder list take as one request, exchange by exchange: the folder
listing page by page and the folder behind each well-known name, one page of a delta reading,
the texts of a range of dates, one message or its text, and a change of a message's flags.

## The model

`GraphExchange` is what is asked of the outside: one HTTP exchange, or, by a cycle only, Online
Accounts for the account's token again. What libsoup and GLib compute of an address, of an
identifier and of a time is a parameter (`GraphRules`). The body of an answer is the JSON value
its bytes parse to, or nothing. Paged readings are followed for some number of pages. How long a
silent service is waited for, and lines for the record, are left out.
-/

namespace Mailbag.Graph

open Interaction

/-! ### Exchanges -/

/-- The method of a request. -/
inductive HttpMethod where
  | get
  | patch
  deriving DecidableEq

/-- A request of the service. -/
structure HttpRequest where
  /-- The method. -/
  method : HttpMethod
  /-- The address, with its query. -/
  address : String
  /-- The token of the `Authorization` header. -/
  accessToken : String
  /-- The `Prefer` header. -/
  preferences : Option String
  /-- The JSON body. -/
  body : Option Value

/-- What the service answers. -/
structure HttpAnswer where
  /-- The status. -/
  status : ℕ
  /-- The body, if it is JSON. -/
  body : Option Value

/-- How an exchange failed, with the platform's text. -/
structure TransportError where
  /-- The service stopped responding. -/
  timedOut : Bool
  /-- The text. -/
  message : String

/-- What is asked of the outside. -/
inductive GraphExchange where
  /-- Send a request and read its answer. -/
  | send (request : HttpRequest)
  /-- Ask Online Accounts for the access again. -/
  | renew

/-- What it is answered: Online Accounts gives a token or none. -/
abbrev GraphExchange.Reply : GraphExchange → Type
  | .send _ => Except TransportError HttpAnswer
  | .renew => Option String

/-- A request of the service, or a part of it. -/
abbrev GraphProgram (α : Type) : Type := Program GraphExchange GraphExchange.Reply GraphError α

/-- What the platform computes for a request. -/
structure GraphRules where
  /-- What libsoup says of an address it cannot read. -/
  addressError : String → Option String
  /-- An identifier as a part of a path. -/
  escaped : String → String
  /-- A time as the service's filters write it, in UTC. -/
  iso8601 : ℤ → String
  /-- A time the service writes. -/
  unixSeconds : String → Option ℤ

/-- Any address is read, and no time. -/
def plainRules : GraphRules := ⟨fun _ => none, id, fun _ => "", fun _ => none⟩

/-- The change-tracking listing of the folders. -/
def folderListingPath : String := "/me/mailFolders/delta"

/-- The fields of a listed folder. -/
def folderFields : String := "id,displayName,parentFolderId,isHidden"

/-- Identifiers that survive folder moves, and bodies rendered as text. -/
def preferences : String := "IdType=\"ImmutableId\", outlook.body-content-type=\"text\""

/-- The same identifiers, on pages of at most 500 entries. -/
def deltaPreferences : String := "IdType=\"ImmutableId\", odata.maxpagesize=500"

/-- A failure with its reason. -/
def failed (failure : GraphFailure) (reason : Option String) : GraphError := ⟨failure, reason⟩

/-- An answer that is not the documented JSON. -/
def readReply {α : Type} (reply : Except GraphFailure α) : GraphProgram α :=
  Program.ofExcept (reply.mapError fun failure => failed failure none)

/-- An exchange that failed. -/
def transportFailure (error : TransportError) : GraphError :=
  failed (if error.timedOut then .timedOut else .connectionFailed) (some error.message)

/-- Send a request. -/
def send (request : HttpRequest) : GraphProgram HttpAnswer :=
  (Program.request (.send request)).bind fun (answer : Except TransportError HttpAnswer) =>
    Program.ofExcept (answer.mapError transportFailure)

/-- The status of a successful answer. -/
def checkStatus (answer : HttpAnswer) : Except GraphError ℕ :=
  if answer.status = 200 then .ok answer.status
  else
    let (code, message) := (readError answer.body).getD (none, none)
    .error (failed (.refused answer.status code) message)

/-- A request that prefers so. -/
def HttpRequest.prefer (request : HttpRequest) (preferences : String) : HttpRequest :=
  { request with preferences := some preferences }

/-- A refusal of a saved delta link, told apart from other refusals: any 4xx but the token's 401
and the throttling 429. A first reading has no link to reject. -/
def rejectedPosition (error : GraphError) (start : ChangesFrom) : GraphError :=
  match error.failure, start with
  | .refused status _, .link _ =>
    if 400 ≤ status ∧ status < 500 ∧ status ≠ 401 ∧ status ≠ 429 then
      failed .positionRejected error.reason else error
  | _, _ => error

/-! ### Requests -/

section Requests

variable (rules : GraphRules) (serviceUrl accessToken : String)

/-- A request with the token. A next page's address comes from the service's answer. -/
def buildRequest (address : String) : Except GraphError HttpRequest :=
  match rules.addressError address with
  | some message => .error (failed .invalidReply (some message))
  | none => .ok ⟨.get, address, accessToken, none, none⟩

/-- The address of a first page. -/
def changesAddress : ChangesFrom → String
  | .firstReading folder =>
    serviceUrl ++ "/me/mailFolders/" ++ rules.escaped folder ++ "/messages/delta?$select=" ++
      ",".intercalate changeFields ++ "&$orderby=receivedDateTime%20desc"
  | .link link => link

/-- One page of a delta reading. A link is followed as the service gave it. -/
def readMessageChanges (start : ChangesFrom) : GraphProgram ChangePage := do
  let request ← Program.ofExcept
    (buildRequest rules accessToken (changesAddress rules serviceUrl start))
  let answer ← send (request.prefer deltaPreferences)
  let _ ← Program.ofExcept ((checkStatus answer).mapError (rejectedPosition · start))
  readReply (readChangePage rules.unixSeconds answer.body)

/-- The range of dates ends a second later: the service keeps dates finer than the seconds it
shows. -/
def textsAddress (folder : String) (first last : ℤ) : String :=
  serviceUrl ++ "/me/mailFolders/" ++ rules.escaped folder ++
    "/messages?$filter=receivedDateTime%20ge%20" ++
    rules.iso8601 first ++ "%20and%20receivedDateTime%20lt%20" ++ rules.iso8601 (last + 1) ++
      "&$select=id,body&$top=500"

/-- One page of texts, after those read so far. -/
def readTextsPage : String × List (String × Option String) →
    GraphProgram ((String × List (String × Option String)) ⊕ List (String × Option String))
  | (address, texts) => do
    let request ← Program.ofExcept (buildRequest rules accessToken address)
    let answer ← send (request.prefer preferences)
    let _ ← Program.ofExcept (checkStatus answer)
    let (page, nextLink) ← readReply (readTextPage answer.body)
    match nextLink with
    | some nextLink => return .inl (nextLink, texts ++ page)
    | none => return .inr (texts ++ page)

/-- The texts of the folder's messages received from `first` to `last`, both seconds included. -/
def readTextsReceivedBetween (pages : ℕ) (folder : String) (first last : ℤ) :
    GraphProgram (List (String × Option String)) :=
  Program.iterate (readTextsPage rules accessToken) pages
    (textsAddress rules serviceUrl folder first last, [])

/-- The answer about one message, or nothing for a 404. -/
def readOne (address : String) : GraphProgram (Option HttpAnswer) := do
  let request ← Program.ofExcept (buildRequest rules accessToken address)
  let answer ← send (request.prefer preferences)
  if answer.status = 404 then return none
  let _ ← Program.ofExcept (checkStatus answer)
  return some answer

/-- One message's text; nothing when it has none or is gone. -/
def readMessageText (id : String) : GraphProgram (Option String) := do
  let some answer ← readOne rules accessToken (serviceUrl ++ "/me/messages/" ++ rules.escaped id ++
    "?$select=body")
    | return none
  readReply (readTextReply answer.body)

/-- One message with its list fields and the id of the folder it is in now; nothing when it is
gone. -/
def readMessageNow (id : String) : GraphProgram (Option (GraphMessage × String)) := do
  let some answer ← readOne rules accessToken (serviceUrl ++ "/me/messages/" ++ rules.escaped id ++
    "?$select=" ++
      ",".intercalate changeFields ++ ",parentFolderId")
    | return none
  let found ← readReply (readOneMessage rules.unixSeconds answer.body)
  return some found

/-- What a change of a flag writes. -/
def flagBody : FlagUpdate → Value
  | .read value => .object [("isRead", .bool value)]
  | .starred value => .object [("flag", flagValue value)]

/-- Set the message's read mark or follow-up flag. The service answers with the whole message, which
is not read. -/
def updateMessageFlags (id : String) (update : FlagUpdate) : GraphProgram Unit := do
  let request ← Program.ofExcept
    (buildRequest rules accessToken (serviceUrl ++ "/me/messages/" ++ rules.escaped id))
  let answer ← send ({ request with method := .patch, body := some (flagBody update) }.prefer
    preferences)
  let _ ← Program.ofExcept (checkStatus answer)
  return ()

/-! ### The folder list -/

/-- One page's entries after those of the pages before: the last entry for a folder decides. -/
def enterFolders (folders : List GraphFolder) (entries : List (String × Option GraphFolder)) :
    List GraphFolder :=
  entries.foldl (fun folders entry => folders.filter (fun folder => folder.id ≠ entry.1) ++
    entry.2.toList) folders

/-- One page of the listing. -/
def readListingPage :
    String × List GraphFolder → GraphProgram ((String × List GraphFolder) ⊕ List GraphFolder)
  | (address, folders) => do
    let request ← Program.ofExcept (buildRequest rules accessToken address)
    let answer ← send request
    let _ ← Program.ofExcept (checkStatus answer)
    let page ← readReply (readFolderPage answer.body)
    match page.nextLink with
    | some nextLink => return .inl (nextLink, enterFolders folders page.entries)
    | none => return .inr (enterFolders folders page.entries)

/-- The address of the listing's first page. -/
def listingAddress : String := serviceUrl ++ folderListingPath ++ "?$select=" ++ folderFields

/-- Every page of the listing. -/
def readFolderListing (pages : ℕ) : GraphProgram (List GraphFolder) :=
  Program.iterate (readListingPage rules accessToken) pages (listingAddress serviceUrl, [])

/-- The name as a request writes it. -/
def WellKnownFolder.name : WellKnownFolder → String
  | .inbox => "inbox"
  | .drafts => "drafts"
  | .sentItems => "sentitems"
  | .deletedItems => "deleteditems"
  | .junkEmail => "junkemail"
  | .archive => "archive"

/-- All of them. -/
def WellKnownFolder.all : List WellKnownFolder :=
  [.inbox, .drafts, .sentItems, .deletedItems, .junkEmail, .archive]

/-- The address of a lookup by well-known name. -/
def wellKnownAddress (wellKnown : WellKnownFolder) : String :=
  serviceUrl ++ "/me/mailFolders/" ++ wellKnown.name ++ "?$select=id"

/-- The id of the folder a well-known name resolves to, or nothing when the mailbox has no such
folder. -/
def findWellKnownFolder (wellKnown : WellKnownFolder) : GraphProgram (Option String) := do
  let request ← Program.ofExcept
    (buildRequest rules accessToken (wellKnownAddress serviceUrl wellKnown))
  let answer ← send request
  if answer.status = 404 then return none
  let _ ← Program.ofExcept (checkStatus answer)
  let id ← readReply (readFolderId answer.body)
  return some id

/-- The folders with the one found marked. -/
def markWellKnown (wellKnown : WellKnownFolder) (found : Option String) :
    List GraphFolder → List GraphFolder
  | [] => []
  | folder :: folders =>
    if some folder.id = found then { folder with wellKnown := some wellKnown } :: folders
    else folder :: markWellKnown wellKnown found folders

/-- Look up each well-known name. -/
def findWellKnownFolders : List WellKnownFolder → List GraphFolder → GraphProgram (List GraphFolder)
  | [], folders => return folders
  | wellKnown :: rest, folders => do
    let found ← findWellKnownFolder rules serviceUrl accessToken wellKnown
    findWellKnownFolders rest (markWellKnown wellKnown found folders)

/-- Every folder of the mailbox except hidden ones: the listing page by page, then the folder
behind each well-known name. A failed page or lookup fails the whole list. -/
def listFolders (pages : ℕ) : GraphProgram (List GraphFolder) := do
  let folders ← readFolderListing rules serviceUrl accessToken pages
  findWellKnownFolders rules serviceUrl accessToken WellKnownFolder.all folders

end Requests

end Mailbag.Graph
