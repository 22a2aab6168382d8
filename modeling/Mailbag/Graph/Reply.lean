import Mailbag.Collections.Forest
import Mailbag.Graph.Changes

/-!
# The service's JSON answers

Pages of a delta reading and of the folder listing, texts, one message and the error body of a
refusal. Only a list's shape and each message's identifier and read state are required; any
other field the service leaves out, or sends in another form, is left out of the message.

## The model

An answer is the value its bytes parse to, or nothing when they are not JSON. An object's
fields are looked up by name. How a time is read is a parameter, `unixSeconds`.

## What is proved

* `FailsInvalid.bind`, `readChangePage_failsInvalid` — an answer that cannot be read is an invalid
  reply, and no other failure.
-/

namespace Mailbag.Graph

/-! ### JSON values -/

/-- A JSON value. No answer's numbers are read. -/
inductive Value where
  /-- `null`. -/
  | null
  /-- `true` or `false`. -/
  | bool (value : Bool)
  /-- A number. -/
  | number
  /-- A string. -/
  | string (text : String)
  /-- An array. -/
  | array (items : List Value)
  /-- An object. -/
  | object (fields : List (String × Value))

namespace Value

/-- The field of an object. -/
def get : Value → String → Option Value
  | object fields, name => fields.lookup name
  | _, _ => none

/-- The field of an object, `null` for one that is missing: `Value`'s index. -/
def field (value : Value) (name : String) : Value := (value.get name).getD .null

/-- A string's text. -/
def asStr : Value → Option String
  | string text => some text
  | _ => none

/-- A truth value. -/
def asBool : Value → Option Bool
  | bool value => some value
  | _ => none

/-- An array's items. -/
def asArray : Value → Option (List Value)
  | array items => some items
  | _ => none

/-- It is an object. -/
def isObject : Value → Bool
  | object _ => true
  | _ => false

end Value

/-- A string field. -/
def ownedText (field : Value) : Option String := field.asStr

/-- A string field with text in it; an empty string carries nothing to show. -/
def presentText (field : Value) : Option String := (ownedText field).filter fun text => text ≠ ""

/-! ### Messages -/

/-- A message's list fields, which a delta entry carries in full for a listed message. -/
def changeFields : List String :=
  ["subject", "from", "toRecipients", "receivedDateTime", "isRead", "flag", "bodyPreview"]

/-- The fields a change of the user's flags reports alone. -/
def flagFields : List String := ["isRead", "flag"]

/-- A sender or recipient. -/
def readMailbox (recipient : Value) : Option Mailbox :=
  (recipient.get "emailAddress").map fun emailAddress =>
    ⟨presentText (emailAddress.field "name"), presentText (emailAddress.field "address")⟩

/-- Whether a follow-up flag marks the message starred; nothing without a flag status. -/
def readFlagged (flag : Value) : Option Bool :=
  (flag.field "flagStatus").asStr.map fun status => status = "flagged"

/-- A follow-up flag. -/
def flagValue (flagged : Bool) : Value :=
  .object [("flagStatus", .string (if flagged then "flagged" else "notFlagged"))]

section Reading

variable (unixSeconds : String → Option ℤ)

/-- A message, unless the entry has no identifier or read state. -/
def readMessage (entry : Value) : Option GraphMessage := do
  let immutableId ← (entry.field "id").asStr
  let isRead ← (entry.field "isRead").asBool
  return {
    immutableId
    subject := presentText (entry.field "subject")
    sender := readMailbox (entry.field "from")
    recipients := ((entry.field "toRecipients").asArray.getD []).filterMap readMailbox
    receivedUnix := (entry.field "receivedDateTime").asStr.bind unixSeconds
    isRead
    flagged := (readFlagged (entry.field "flag")).getD false
    bodyPreview := presentText (entry.field "bodyPreview") }

/-- An entry with every list field is a listed message; one marked `@removed` left the folder;
any other carries only what changed. -/
def readChange (entry : Value) : Option MessageChange := do
  let id ← (entry.field "id").asStr
  if (entry.get "@removed").isSome then return .removed id
  if changeFields.all fun name => (entry.get name).isSome then
    return .listed (← readMessage unixSeconds entry)
  return .changed id (entry.field "isRead").asBool (readFlagged (entry.field "flag"))
    (changeFields.any fun name => name ∉ flagFields && (entry.get name).isSome)

/-- An answer that is JSON. -/
def parsed (answer : Option Value) : Except GraphFailure Value :=
  match answer with
  | some value => .ok value
  | none => .error .invalidReply

/-- What is required of an answer. -/
def required {α : Type} (found : Option α) : Except GraphFailure α :=
  match found with
  | some a => .ok a
  | none => .error .invalidReply

/-- The entries of an answer, each read so. -/
def readEntriesOf {α : Type} (read : Value → Option α) (answer : Value) :
    Except GraphFailure (List α) := do
  let entries ← required (answer.field "value").asArray
  required (entries.mapM read)

/-- One page of a delta reading. -/
def readChangePage (answer : Option Value) : Except GraphFailure ChangePage := do
  let answer ← parsed answer
  let changes ← readEntriesOf (readChange unixSeconds) answer
  match ownedText (answer.field "@odata.nextLink"), ownedText (answer.field "@odata.deltaLink") with
  | some nextLink, _ => .ok ⟨changes, .more nextLink⟩
  | none, some deltaLink => .ok ⟨changes, .finished deltaLink⟩
  | none, none => .error .invalidReply

/-- One message and the id of the folder it is in. -/
def readOneMessage (answer : Option Value) : Except GraphFailure (GraphMessage × String) := do
  let answer ← parsed answer
  let message ← required (readMessage unixSeconds answer)
  let folder ← required (ownedText (answer.field "parentFolderId"))
  return (message, folder)

end Reading

/-! ### Texts -/

/-- A message's id and its text. -/
def readTextEntry (entry : Value) : Option (String × Option String) :=
  (entry.field "id").asStr.map fun id => (id, ownedText ((entry.field "body").field "content"))

/-- A page of texts by message id, and the next page's link. -/
def readTextPage (answer : Option Value) :
    Except GraphFailure (List (String × Option String) × Option String) := do
  let answer ← parsed answer
  let texts ← readEntriesOf readTextEntry answer
  return (texts, ownedText (answer.field "@odata.nextLink"))

/-- One message's text. -/
def readTextReply (answer : Option Value) : Except GraphFailure (Option String) := do
  let answer ← parsed answer
  return ownedText ((answer.field "body").field "content")

/-! ### Folders -/

/-- The folders Microsoft Graph finds by a well-known name in any language. -/
inductive WellKnownFolder where
  | inbox
  | drafts
  | sentItems
  | deletedItems
  | junkEmail
  | archive
  deriving DecidableEq

/-- A folder of the mailbox, as the listing names it. -/
structure GraphFolder where
  /-- Its id. -/
  id : String
  /-- Its name. -/
  name : String
  /-- The parent's id. -/
  parentId : Option String
  /-- The well-known name that resolves to it. -/
  wellKnown : Option WellKnownFolder
  deriving DecidableEq

/-- One page of the folder listing. -/
structure FolderPage where
  /-- Each entry's folder id with the folder, or nothing when it is removed or hidden. -/
  entries : List (String × Option GraphFolder)
  /-- The next page's address, if it is not the last. -/
  nextLink : Option String

/-- An entry of the folder listing, unless it has no id, or lists a folder without a name. -/
def readFolderEntry (entry : Value) : Option (String × Option GraphFolder) := do
  let id ← (entry.field "id").asStr
  if (entry.get "@removed").isSome || (entry.field "isHidden").asBool = some true then
    return (id, none)
  let name ← (entry.field "displayName").asStr
  return (id, some ⟨id, name, ownedText (entry.field "parentFolderId"), none⟩)

/-- One page of the folder listing. The last carries the link for later changes; a page with
neither link may not be the last. -/
def readFolderPage (answer : Option Value) : Except GraphFailure FolderPage := do
  let answer ← parsed answer
  let entries ← readEntriesOf readFolderEntry answer
  let nextLink := ownedText (answer.field "@odata.nextLink")
  if nextLink.isNone && (answer.field "@odata.deltaLink").asStr.isNone then .error .invalidReply
  else return ⟨entries, nextLink⟩

/-- The id of the one folder a request by well-known name answers with. -/
def readFolderId (answer : Option Value) : Except GraphFailure String := do
  let answer ← parsed answer
  required (ownedText (answer.field "id"))

/-! ### Refusals -/

/-- The error code and the developer message of a refusal, when the body is the service's error
object. -/
def readError (answer : Option Value) : Option (Option String × Option String) := do
  let error ← (← answer).get "error"
  if error.isObject then return (ownedText (error.field "code"), ownedText (error.field "message"))
    else none

/-! ### The entries of an answer -/

/-- Reading every entry reads each. -/
theorem mapM_eq_some_iff {α β : Type} {f : α → Option β} {xs : List α} {ys : List β} :
    xs.mapM f = some ys ↔ List.Forall₂ (fun x y => f x = some y) xs ys := by
  induction xs generalizing ys with
  | nil => cases ys <;> simp
  | cons x xs ih =>
    rw [List.mapM_cons]
    constructor
    · intro h
      obtain ⟨y, hy, h⟩ := Option.bind_eq_some_iff.mp h
      obtain ⟨ys', hys, h⟩ := Option.bind_eq_some_iff.mp h
      cases h
      exact .cons hy (ih.mp hys)
    · intro h
      cases h with
      | cons hy hys => simp [hy, ih.mpr hys]

theorem asArray_eq_some {value : Value} {items : List Value} (h : value.asArray = some items) :
    value = .array items := by
  cases value <;> simp_all [Value.asArray]

/-- The entries of an answer are read when each is. -/
theorem readEntriesOf_eq_ok {α : Type} {read : Value → Option α} {answer : Value}
    {found : List α} :
    readEntriesOf read answer = .ok found ↔
      ∃ entries, answer.field "value" = .array entries ∧
        List.Forall₂ (fun entry a => read entry = some a) entries found := by
  constructor
  · intro h
    cases harray : (answer.field "value").asArray with
    | none =>
      rw [readEntriesOf, harray] at h
      cases h
    | some entries =>
      have hvalue := asArray_eq_some harray
      cases hread : entries.mapM read with
      | none =>
        rw [readEntriesOf, harray] at h
        cases (show required (entries.mapM read) = .ok found from h).symm.trans
          (congrArg required hread)
      | some found' =>
        rw [readEntriesOf, harray] at h
        cases (show required (entries.mapM read) = .ok found from h).symm.trans
          (congrArg required hread)
        exact ⟨entries, hvalue, mapM_eq_some_iff.mp hread⟩
  · rintro ⟨entries, hvalue, hread⟩
    rw [readEntriesOf, hvalue]
    show required (entries.mapM read) = _
    rw [mapM_eq_some_iff.mpr hread]
    rfl

/-! ### An answer that is not the documented JSON -/

section InvalidReply

variable {α β : Type} {unixSeconds : String → Option ℤ}

/-- Reading fails only because the answer is not the documented JSON. -/
def FailsInvalid (x : Except GraphFailure α) : Prop :=
  ∀ failure, x = .error failure → failure = .invalidReply

theorem FailsInvalid.ok (a : α) : FailsInvalid (.ok a : Except GraphFailure α) :=
  fun _ h => by cases h

theorem FailsInvalid.error :
    FailsInvalid (.error .invalidReply : Except GraphFailure α) := fun _ h => by
  cases h
  rfl

theorem FailsInvalid.bind {x : Except GraphFailure α} {f : α → Except GraphFailure β}
    (hx : FailsInvalid x) (hf : ∀ a, FailsInvalid (f a)) : FailsInvalid (x >>= f) := by
  cases x with
  | ok a => exact hf a
  | error failure =>
    intro failure' h
    cases h
    exact hx failure rfl

theorem parsed_failsInvalid (answer : Option Value) : FailsInvalid (parsed answer) := by
  cases answer with
  | some value => exact .ok value
  | none => exact .error

theorem required_failsInvalid (found : Option α) : FailsInvalid (required found) := by
  cases found with
  | some a => exact .ok a
  | none => exact .error

theorem readEntriesOf_failsInvalid (read : Value → Option α) (answer : Value) :
    FailsInvalid (readEntriesOf read answer) :=
  .bind (required_failsInvalid _) fun _ => required_failsInvalid _

theorem readChangePage_failsInvalid (answer : Option Value) :
    FailsInvalid (readChangePage unixSeconds answer) := by
  refine .bind (parsed_failsInvalid _) fun answer => .bind (readEntriesOf_failsInvalid _ _)
    fun changes => ?_
  split
  · exact .ok _
  · exact .ok _
  · exact .error

theorem readOneMessage_failsInvalid (answer : Option Value) :
    FailsInvalid (readOneMessage unixSeconds answer) :=
  .bind (parsed_failsInvalid _) fun _ => .bind (required_failsInvalid _) fun _ =>
    .bind (required_failsInvalid _) fun _ => .ok _

theorem readTextPage_failsInvalid (answer : Option Value) : FailsInvalid (readTextPage answer) :=
  .bind (parsed_failsInvalid _) fun _ => .bind (readEntriesOf_failsInvalid _ _) fun _ => .ok _

theorem readTextReply_failsInvalid (answer : Option Value) : FailsInvalid (readTextReply answer) :=
  .bind (parsed_failsInvalid _) fun _ => .ok _

end InvalidReply

end Mailbag.Graph
