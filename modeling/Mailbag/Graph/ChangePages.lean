import Mailbag.Graph.Reply

/-!
# The pages of a delta reading, read back

## What is proved

* `readChangePage_pageAnswer` — a page written as the service documents it is read back whole.
* `readChangePage_accepts` — which answers are pages, and that a page has an entry for each
  of the answer's, about its message, in order.
* `readChangePage_withField` — an odd field of an entry is lost alone.
-/

namespace Mailbag.Graph

/-! ### An answer as the service documents it -/

/-- A text, or `null`. -/
def textValue : Option String → Value
  | some text => .string text
  | none => .null

/-- A sender or recipient. -/
def recipientValue (mailbox : Mailbox) : Value :=
  .object [("emailAddress",
    .object [("name", textValue mailbox.name), ("address", textValue mailbox.address)])]

/-- A listed message, its time written so. -/
def messageEntry (iso8601 : ℤ → String) (message : GraphMessage) : Value :=
  .object [("id", .string message.immutableId), ("subject", textValue message.subject),
    ("from", (message.sender.map recipientValue).getD .null),
      ("toRecipients", .array (message.recipients.map recipientValue)),
    ("receivedDateTime", textValue (message.receivedUnix.map iso8601)),
      ("isRead", .bool message.isRead),
    ("flag", flagValue message.flagged), ("bodyPreview", textValue message.bodyPreview)]

/-- An entry of a delta page. -/
def changeEntry (iso8601 : ℤ → String) : MessageChange → Value
  | .removed id =>
    .object [("id", .string id), ("@removed", .object [("reason", .string "deleted")])]
  | .listed message => messageEntry iso8601 message
  | .changed id isRead flagged otherFields =>
    .object (("id", .string id) :: ((isRead.map fun value => ("isRead", Value.bool value)).toList ++
      (flagged.map fun value => ("flag", flagValue value)).toList ++
        if otherFields then [("subject", .null)] else []))

/-- The link a page ends with. -/
def linkField : NextPage → String × Value
  | .more link => ("@odata.nextLink", .string link)
  | .finished link => ("@odata.deltaLink", .string link)

/-- A page of a delta reading. -/
def pageAnswer (iso8601 : ℤ → String) (page : ChangePage) : Value :=
  .object [("value", .array (page.changes.map (changeEntry iso8601))), linkField page.next]

/-- A mailbox that shows no empty text. -/
def Mailbox.Shown (mailbox : Mailbox) : Prop := mailbox.name ≠ some "" ∧ mailbox.address ≠ some ""

/-- A message that shows no empty text. -/
structure GraphMessage.Shown (message : GraphMessage) : Prop where
  /-- Its subject. -/
  subject : message.subject ≠ some ""
  /-- Its sender. -/
  sender : ∀ mailbox, message.sender = some mailbox → mailbox.Shown
  /-- Its recipients. -/
  recipients : ∀ mailbox ∈ message.recipients, mailbox.Shown
  /-- The beginning of its text. -/
  bodyPreview : message.bodyPreview ≠ some ""

/-- An entry whose message, if it lists one, shows no empty text. -/
def MessageChange.Shown : MessageChange → Prop
  | .listed message => message.Shown
  | _ => True

section RoundTrip

theorem presentText_ne (field : Value) : presentText field ≠ some "" := by
  simp [presentText, Option.filter_eq_some_iff]

theorem shown_of_readMailbox {recipient : Value} {mailbox : Mailbox}
    (hread : readMailbox recipient = some mailbox) : mailbox.Shown := by
  obtain ⟨emailAddress, -, rfl⟩ := Option.map_eq_some_iff.mp hread
  exact ⟨presentText_ne _, presentText_ne _⟩

variable {unixSeconds : String → Option ℤ} {iso8601 : ℤ → String}

/-- A message as the service lists one. -/
def listedMessage : GraphMessage where
  immutableId := "message"
  subject := some "Quarterly figures"
  sender := some ⟨some "Ada Example", none⟩
  recipients := [⟨none, some "bo@example.org"⟩]
  receivedUnix := some 1536462908
  isRead := false
  flagged := true
  bodyPreview := none

/-- How its time is read. -/
def listedSeconds (text : String) : Option ℤ :=
  if text = "2018-09-09T03:15:08Z" then some 1536462908 else none

end RoundTrip

/-! ### Which answers are pages -/

section Accepted

variable {unixSeconds : String → Option ℤ}

/-- An entry that can be read: it has an id, and a full one its read state. -/
def Value.IsChange (entry : Value) : Prop :=
  (entry.field "id").asStr.isSome ∧
  ((entry.get "@removed").isSome ∨ (∃ name ∈ changeFields, entry.get name = none) ∨
    (entry.field "isRead").asBool.isSome)

/-- An answer that is a page: a list of entries that can be read, and a link. -/
def Value.IsPage (answer : Value) : Prop :=
  (∃ entries, answer.field "value" = .array entries ∧ ∀ entry ∈ entries, entry.IsChange) ∧
    ((answer.field "@odata.nextLink").asStr.isSome ∨ (answer.field "@odata.deltaLink").asStr.isSome)

/-- A page has an entry for each of the answer's, about its message, in order, and its own link. -/
structure ChangePage.Of (page : ChangePage) (answer : Value) : Prop where
  /-- The entries. -/
  entries : ∃ entries, answer.field "value" = .array entries ∧
    List.Forall₂ (fun entry change => entry.field "id" = .string change.id) entries page.changes
  /-- A link to go on at is followed before a link for later changes. -/
  next : (∃ link, page.next = .more link ∧ answer.field "@odata.nextLink" = .string link) ∨
    ∃ link, page.next = .finished link ∧ (answer.field "@odata.nextLink").asStr = none ∧
      answer.field "@odata.deltaLink" = .string link
  /-- No message shows an empty text. -/
  shown : ∀ change ∈ page.changes, change.Shown

theorem asStr_eq_some {value : Value} {text : String} (h : value.asStr = some text) :
    value = .string text := by
  cases value <;> simp_all [Value.asStr]

theorem shown_of_readMessage {entry : Value} {message : GraphMessage}
    (hread : readMessage unixSeconds entry = some message) :
    message.Shown ∧ entry.field "id" = .string message.immutableId := by
  obtain ⟨id, hid, hread⟩ := Option.bind_eq_some_iff.mp hread
  obtain ⟨isRead, -, hread⟩ := Option.bind_eq_some_iff.mp hread
  cases hread
  refine ⟨⟨presentText_ne _, fun mailbox h => shown_of_readMailbox h, fun mailbox h => ?_,
    presentText_ne _⟩, asStr_eq_some hid⟩
  obtain ⟨recipient, -, h⟩ := List.mem_filterMap.mp h
  exact shown_of_readMailbox h

/-- What an entry that was read says of its message. -/
theorem readChange_about {entry : Value} {change : MessageChange}
    (hread : readChange unixSeconds entry = some change) :
    entry.field "id" = .string change.id ∧ change.Shown := by
  obtain ⟨id, hid, hread⟩ := Option.bind_eq_some_iff.mp hread
  split at hread
  · cases hread
    exact ⟨asStr_eq_some hid, trivial⟩
  · split at hread
    · obtain ⟨message, hmessage, hread⟩ := Option.bind_eq_some_iff.mp hread
      cases hread
      exact ⟨(shown_of_readMessage hmessage).2, (shown_of_readMessage hmessage).1⟩
    · cases hread
      exact ⟨asStr_eq_some hid, trivial⟩

theorem readChange_isSome_iff {entry : Value} :
    (readChange unixSeconds entry).isSome ↔ entry.IsChange := by
  rw [readChange, Value.IsChange]
  cases hid : (entry.field "id").asStr with
  | none => simp
  | some id =>
    by_cases hremoved : (entry.get "@removed").isSome
    · simp [hremoved]
    · by_cases hfull : changeFields.all fun name => (entry.get name).isSome
      · have hnone : ¬∃ name ∈ changeFields, entry.get name = none := by
          rintro ⟨name, hname, hget⟩
          have hsome := List.all_eq_true.mp hfull name hname
          rw [hget] at hsome
          cases hsome
        have hmessage : (readMessage unixSeconds entry).isSome ↔
            (entry.field "isRead").asBool.isSome := by
          rw [readMessage, hid]
          cases (entry.field "isRead").asBool <;> simp
        cases hread : readMessage unixSeconds entry with
        | none => simpa [hremoved, hfull, hnone, hread] using hmessage
        | some message => simpa [hremoved, hfull, hnone, hread] using hmessage
      · obtain ⟨name, hname, hget⟩ := List.all_eq_false.mp (Bool.not_eq_true _ ▸ hfull)
        have hpartial : ∃ name ∈ changeFields, entry.get name = none :=
          ⟨name, hname, by simpa using hget⟩
        simp [hremoved, hfull, hpartial]

/-- The link of a page, or none for an answer with neither. -/
def nextPage (answer : Value) : Option NextPage :=
  match (answer.field "@odata.nextLink").asStr, (answer.field "@odata.deltaLink").asStr with
  | some nextLink, _ => some (.more nextLink)
  | none, some deltaLink => some (.finished deltaLink)
  | none, none => none

theorem nextPage_isSome_iff {answer : Value} : (nextPage answer).isSome ↔
    ((answer.field "@odata.nextLink").asStr.isSome ∨
      (answer.field "@odata.deltaLink").asStr.isSome) := by
  rw [nextPage]
  cases (answer.field "@odata.nextLink").asStr <;> cases (answer.field "@odata.deltaLink").asStr <;>
    simp

/-- A page is its entries and its link. -/
theorem readChangePage_eq_ok {answer : Value} {page : ChangePage} :
    readChangePage unixSeconds (some answer) = .ok page ↔
    readEntriesOf (readChange unixSeconds) answer = .ok page.changes ∧
    nextPage answer = some page.next := by
  obtain ⟨changes, next⟩ := page
  rw [readChangePage]
  show (readEntriesOf (readChange unixSeconds) answer).bind _ = _ ↔ _
  rw [nextPage]
  cases readEntriesOf (readChange unixSeconds) answer with
  | error failure =>
    constructor
    · intro h
      cases h
    · rintro ⟨h, -⟩
      cases h
  | ok found =>
    rw [Except.bind, ownedText, ownedText]
    cases (answer.field "@odata.nextLink").asStr <;>
      cases (answer.field "@odata.deltaLink").asStr <;> simp

/-- **Which answers are pages**, and what a page is of its answer. -/
theorem readChangePage_accepts (answer : Value) :
    ((∃ page, readChangePage unixSeconds (some answer) = .ok page) ↔ answer.IsPage) ∧
      ∀ page, readChangePage unixSeconds (some answer) = .ok page → page.Of answer := by
  refine ⟨⟨?_, ?_⟩, fun page hpage => ?_⟩
  · rintro ⟨page, hpage⟩
    obtain ⟨hentries, hnext⟩ := readChangePage_eq_ok.mp hpage
    obtain ⟨entries, hvalue, hread⟩ := readEntriesOf_eq_ok.mp hentries
    have hchanges : ∀ entry ∈ entries, (readChange unixSeconds entry).isSome := by
      intro entry hentry
      obtain ⟨change, -, hchange⟩ := Collections.mem_of_mapM (mapM_eq_some_iff.mpr hread) hentry
      simp [hchange]
    exact ⟨⟨entries, hvalue, fun entry hentry => readChange_isSome_iff.mp (hchanges entry hentry)⟩,
      nextPage_isSome_iff.mp (by simp [hnext])⟩
  · rintro ⟨⟨entries, hvalue, hchanges⟩, hlink⟩
    obtain ⟨next, hnext⟩ := Option.isSome_iff_exists.mp (nextPage_isSome_iff.mpr hlink)
    have hread : ∃ changes, entries.mapM (readChange unixSeconds) = some changes :=
      Option.isSome_iff_exists.mp (Collections.mapM_isSome fun entry hentry =>
        readChange_isSome_iff.mpr (hchanges entry hentry))
    obtain ⟨changes, hread⟩ := hread
    exact ⟨⟨changes, next⟩, readChangePage_eq_ok.mpr
      ⟨readEntriesOf_eq_ok.mpr ⟨entries, hvalue, mapM_eq_some_iff.mp hread⟩, hnext⟩⟩
  · obtain ⟨hentries, hnext⟩ := readChangePage_eq_ok.mp hpage
    obtain ⟨entries, hvalue, hread⟩ := readEntriesOf_eq_ok.mp hentries
    refine ⟨⟨entries, hvalue, hread.imp fun _ _ h => (readChange_about h).1⟩, ?_,
      fun change hchange => ?_⟩
    · rw [nextPage] at hnext
      cases hmore : (answer.field "@odata.nextLink").asStr with
      | some link =>
        rw [hmore] at hnext
        exact .inl ⟨link, (Option.some.inj hnext).symm, asStr_eq_some hmore⟩
      | none =>
        cases hfinished : (answer.field "@odata.deltaLink").asStr with
        | some link =>
          rw [hmore, hfinished] at hnext
          exact .inr ⟨link, (Option.some.inj hnext).symm, rfl, asStr_eq_some hfinished⟩
        | none =>
          rw [hmore, hfinished] at hnext
          cases hnext
    · obtain ⟨entry, -, hentry⟩ := Collections.mem_of_mapM_mem (mapM_eq_some_iff.mpr hread) hchange
      exact (readChange_about hentry).2

theorem readChangePage_accepts_listed :
    (∃ page, readChangePage listedSeconds
      (some (pageAnswer (fun _ => "") ⟨[.listed listedMessage], .more "next"⟩)) = .ok page) :=
  (readChangePage_accepts _).1.mpr ⟨⟨_, rfl, fun entry hentry => by
    cases List.mem_singleton.mp hentry
    exact ⟨rfl, .inr (.inr rfl)⟩⟩, .inl rfl⟩

/-! ### An odd field -/

/-- The object with the field's value replaced, where it has the field. -/
def Value.withField : Value → String → Value → Value
  | .object fields, name, value =>
    .object (fields.map fun field => if field.1 = name then (name, value) else field)
  | other, _, _ => other

theorem get_withField (entry : Value) (name : String) (value : Value) (other : String) :
    (entry.withField name value).get other = if other = name then (entry.get name).map fun _ =>
      value else entry.get other := by
  cases entry with
  | object fields =>
    simp only [Value.withField, Value.get]
    induction fields with
    | nil => simp
    | cons field fields ih =>
      obtain ⟨key, held⟩ := field
      rw [List.map_cons]
      by_cases hkey : key = name
      · subst hkey
        by_cases hother : other = key
        · simp [hother]
        · have hne : (other == key) = false := by simpa using hother
          simp only [if_true, List.lookup_cons, hne, if_neg hother] at ih ⊢
          exact ih
      · rw [if_neg hkey, List.lookup_cons, List.lookup_cons, List.lookup_cons]
        by_cases hother : other = key
        · subst hother
          simp [hkey]
        · have hne : (other == key) = false := by simpa using hother
          have hname : (name == key) = false := by simpa using fun h => hkey h.symm
          rw [hne, hname]
          exact ih
  | null => simp [Value.withField, Value.get]
  | bool => simp [Value.withField, Value.get]
  | number => simp [Value.withField, Value.get]
  | string => simp [Value.withField, Value.get]
  | array => simp [Value.withField, Value.get]

theorem field_withField {name other : String} (entry value : Value) (hother : other ≠ name) :
    (entry.withField name value).field other = entry.field other := by
  rw [Value.field, get_withField, if_neg hother, Value.field]

theorem get_withField_isSome (entry : Value) (name : String) (value : Value) (other : String) :
    ((entry.withField name value).get other).isSome = (entry.get other).isSome := by
  rw [get_withField]
  split
  · next h => simp [h]
  · rfl

/-- The messages differ in nothing but what this field says. -/
structure GraphMessage.AlikeBut (name : String) (message message' : GraphMessage) : Prop where
  immutableId : message'.immutableId = message.immutableId
  isRead : message'.isRead = message.isRead
  subject : name ≠ "subject" → message'.subject = message.subject
  sender : name ≠ "from" → message'.sender = message.sender
  recipients : name ≠ "toRecipients" → message'.recipients = message.recipients
  receivedUnix : name ≠ "receivedDateTime" → message'.receivedUnix = message.receivedUnix
  flagged : name ≠ "flag" → message'.flagged = message.flagged
  bodyPreview : name ≠ "bodyPreview" → message'.bodyPreview = message.bodyPreview

/-- The entries differ in nothing but what this field says. -/
inductive MessageChange.AlikeBut (name : String) : MessageChange → MessageChange → Prop
  | removed {id : String} : AlikeBut name (.removed id) (.removed id)
  | listed {message message' : GraphMessage} :
      message.AlikeBut name message' → AlikeBut name (.listed message) (.listed message')
  | changed {id : String} {isRead flagged flagged' : Option Bool} {otherFields : Bool} :
      (name ≠ "flag" → flagged' = flagged) →
      AlikeBut name (.changed id isRead flagged otherFields)
      (.changed id isRead flagged' otherFields)

theorem readMessage_withField {name : String} (hid : name ≠ "id") (hisRead : name ≠ "isRead")
    (value : Value) {entry : Value} {message : GraphMessage}
    (hread : readMessage unixSeconds entry = some message) :
    ∃ message', readMessage unixSeconds (entry.withField name value) = some message' ∧
      message.AlikeBut name message' := by
  obtain ⟨id, hfound, hread⟩ := Option.bind_eq_some_iff.mp hread
  obtain ⟨isRead, hmark, hread⟩ := Option.bind_eq_some_iff.mp hread
  cases hread
  rw [← field_withField entry value (fun h => hid h.symm)] at hfound
  rw [← field_withField entry value (fun h => hisRead h.symm)] at hmark
  have hread' : ∃ message', readMessage unixSeconds (entry.withField name value) =
      some message' := by
    rw [readMessage, hfound, hmark]
    exact ⟨_, rfl⟩
  obtain ⟨message', hread'⟩ := hread'
  refine ⟨message', hread', ?_⟩
  rw [readMessage, hfound, hmark] at hread'
  cases hread'
  refine ⟨rfl, rfl, ?_, ?_, ?_, ?_, ?_, ?_⟩ <;> exact fun h => by
    simp only [field_withField entry value (Ne.symm h)]

theorem readChange_withField {name : String} (hid : name ≠ "id") (hisRead : name ≠ "isRead")
    (value : Value) {entry : Value} {change : MessageChange}
    (hread : readChange unixSeconds entry = some change) :
    ∃ change', readChange unixSeconds (entry.withField name value) = some change' ∧
      change.AlikeBut name change' := by
  obtain ⟨id, hfound, hread⟩ := Option.bind_eq_some_iff.mp hread
  have hfound' := hfound
  rw [← field_withField entry value (fun h => hid h.symm)] at hfound'
  have hsame : ∀ other, ((entry.withField name value).get other).isSome =
      (entry.get other).isSome :=
    get_withField_isSome entry name value
  rw [readChange, hfound']
  simp only [Option.bind_eq_bind, Option.bind_some, hsame]
  split at hread
  · next hremoved =>
    cases hread
    exact ⟨_, by simp only [if_pos hremoved]; rfl, .removed⟩
  · next hkept =>
    simp only [if_neg hkept]
    split at hread
    · next hfull =>
      obtain ⟨message, hmessage, hread⟩ := Option.bind_eq_some_iff.mp hread
      cases hread
      obtain ⟨message', hmessage', halike⟩ := readMessage_withField hid hisRead value hmessage
      exact ⟨_, by simp only [if_pos hfull, hmessage']; rfl, .listed halike⟩
    · next hpartial =>
      cases hread
      rw [field_withField entry value (fun h => hisRead h.symm)]
      exact ⟨_, by simp only [if_neg hpartial]; rfl,
        .changed fun h => by rw [field_withField entry value (fun h' => h h'.symm)]⟩

theorem forall₂_append_left {α β : Type} {R : α → β → Prop} {xs ys : List α} {zs : List β}
    (h : List.Forall₂ R (xs ++ ys) zs) :
    ∃ front back, zs = front ++ back ∧ List.Forall₂ R xs front ∧ List.Forall₂ R ys back := by
  refine ⟨zs.take xs.length, zs.drop xs.length, (List.take_append_drop _ _).symm, ?_, ?_⟩
  · simpa using List.forall₂_take xs.length h
  · simpa using List.forall₂_drop xs.length h

/-- **An odd field is lost alone**: whatever the service sends in place of one field of an entry,
but its id and read state, the page is read with every other entry, and every other field of that
one, as they were. -/
theorem readChangePage_withField {answer entry : Value} {before after : List Value} {name : String}
    {page : ChangePage} (hid : name ≠ "id") (hisRead : name ≠ "isRead") (value : Value)
    (hvalue : answer.field "value" = .array (before ++ entry :: after))
    (hpage : readChangePage unixSeconds (some answer) = .ok page) :
    ∃ page', readChangePage unixSeconds
        (some (answer.withField "value" (.array (before ++ entry.withField name value :: after)))) =
        .ok page' ∧
      page'.next = page.next ∧
      ∃ changes change change' changes', page.changes = changes ++ change :: changes' ∧
        page'.changes = changes ++ change' :: changes' ∧ change.AlikeBut name change' := by
  obtain ⟨hentries, hnext⟩ := readChangePage_eq_ok.mp hpage
  obtain ⟨entries, hentriesValue, hread⟩ := readEntriesOf_eq_ok.mp hentries
  cases hvalue.symm.trans hentriesValue
  obtain ⟨changes, rest, hchanges, hbefore, hrest⟩ := forall₂_append_left hread
  obtain ⟨change, changes', hentry, hafter, rfl⟩ := List.forall₂_cons_left_iff.mp hrest
  obtain ⟨change', hentry', halike⟩ := readChange_withField hid hisRead value hentry
  refine ⟨⟨changes ++ change' :: changes', page.next⟩, readChangePage_eq_ok.mpr
    ⟨readEntriesOf_eq_ok.mpr ?_, ?_⟩, rfl,
    changes, change, change', changes', hchanges, rfl, halike⟩
  · refine ⟨before ++ entry.withField name value :: after, ?_, ?_⟩
    · have hget : (answer.get "value").isSome := by
        rw [Value.field] at hvalue
        cases hget : answer.get "value" with
        | none =>
          rw [hget] at hvalue
          cases hvalue
        | some found => rfl
      rw [Value.field, get_withField, if_pos rfl]
      obtain ⟨found, hfound⟩ := Option.isSome_iff_exists.mp hget
      rw [hfound]
      rfl
    · exact List.rel_append hbefore (.cons hentry' hafter)
  · rw [nextPage, field_withField answer _ (by decide), field_withField answer _ (by decide)]
    exact hnext

/-- A subject that is no text. -/
theorem readChangePage_withField_subject :
    ∃ page' change', readChangePage listedSeconds
      (some ((pageAnswer (fun _ => "") ⟨[.listed listedMessage], .more "next"⟩).withField
        "value" (.array [(messageEntry (fun _ => "") listedMessage).withField "subject"
          .number]))) = .ok page' ∧
      page'.changes = [change'] ∧
      (MessageChange.listed { listedMessage with receivedUnix := none }).AlikeBut "subject"
      change' := by
  have hpage : readChangePage listedSeconds
    (some (pageAnswer (fun _ => "") ⟨[.listed listedMessage], .more "next"⟩)) =
      .ok ⟨[.listed { listedMessage with receivedUnix := none }], .more "next"⟩ := rfl
  have hvalue : (pageAnswer (fun _ => "") ⟨[.listed listedMessage], .more "next"⟩).field "value" =
      .array ([] ++ messageEntry (fun _ => "") listedMessage :: []) := rfl
  have hsubject : "subject" ≠ "id" ∧ "subject" ≠ "isRead" := by decide
  obtain ⟨page', hpage', -, changes, change, change', changes', hchanges, hchanges', halike⟩ :=
    readChangePage_withField hsubject.1 hsubject.2 .number hvalue hpage
  have hone : changes = [] ∧ changes' = [] := by
    have hlength := congrArg List.length hchanges
    simp only [List.length_cons, List.length_nil, List.length_append] at hlength
    exact ⟨List.length_eq_zero_iff.mp (by omega), List.length_eq_zero_iff.mp (by omega)⟩
  obtain ⟨rfl, rfl⟩ := hone
  cases hchanges
  exact ⟨page', change', hpage', hchanges', halike⟩

end Accepted

end Mailbag.Graph
