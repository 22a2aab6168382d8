import Mailbag.Collections.Keyed
import Mailbag.Imap.Protocol
import Mathlib.Tactic.Linarith

/-!
# What the responses to one FETCH command say

The listing, the rows, the part structures and the text parts of the messages a command
named, out of its responses in the order they arrived.

## What is proved

* `mem_listing` — a listing reports exactly the messages some response named, each with
  the last flags and the last Gmail identifier its responses carried.
* `listing_latest` — it does so in ascending UID order, however the responses of different
  messages are mixed.
* `exists_row` and `flags_of_row` — a message named by the command with header lines has a
  row, whose flags are the last its responses carried.
-/

namespace Mailbag.Imap

open Collections

/-- One message of a listing. -/
structure ListedUid where
  /-- The UID. -/
  uid : UInt32
  /-- Whether it is read. -/
  seen : Bool
  /-- Whether it is starred. -/
  flagged : Bool
  /-- X-GM-MSGID. -/
  gmailMessageId : Option UInt64
  deriving DecidableEq

/-- Every message of a mailbox by its UID, as one listing reported it. -/
structure FolderListing where
  /-- In ascending UID order. -/
  messages : List ListedUid
  /-- What the server said when it refused to finish the listing. -/
  refusal : Option ServerReply

/-- List fields of one message. -/
structure MessageRow where
  /-- The UID. -/
  uid : UInt32
  /-- Whether it is read. -/
  seen : Bool
  /-- Whether it is starred. -/
  flagged : Bool
  /-- INTERNALDATE. -/
  internalDate : Option ℤ
  /-- The raw From, To and Subject header lines. -/
  listHeaders : List UInt8
  /-- The part structure, none when it could not be read. -/
  structure' : Option MessagePart

/-- The rows of one batch, with their structures. -/
structure MessageList where
  /-- In descending UID order. -/
  rows : List MessageRow
  /-- What the server said when it refused to finish the command. -/
  refusal : Option ServerReply

/-- Which sections to read of a message. -/
inductive TextParts where
  /-- The body of a single-part message, with the message header. -/
  | singlePartBody
  /-- Parts of a multipart message, each with its MIME header. -/
  | multipartLeaves (leaves : List (List UInt32))
  deriving DecidableEq

/-- A received MIME entity: its header and its still-encoded body. -/
structure ReceivedPart where
  /-- The header. -/
  header : List UInt8
  /-- The body. -/
  body : List UInt8
  deriving DecidableEq

/-- What the server returned for one message's requested text. -/
inductive MessageText where
  /-- The requested parts, in request order. -/
  | received (parts : List ReceivedPart)
  /-- The server did not return the text. -/
  | notReturned
  /-- The message is gone from the mailbox. -/
  | disappeared
  deriving DecidableEq

/-- How a FETCH command ended. -/
inductive FetchEnd where
  /-- With OK. -/
  | completed
  /-- With NO. -/
  | rejected (reply : ServerReply)
  /-- Any other way. -/
  | failed (error : SessionError)
  deriving DecidableEq

/-- The responses to one FETCH command and how the command ended. -/
structure FetchResponses where
  /-- The responses. -/
  fetches : List Fetch
  /-- How the command ended. -/
  ended : FetchEnd

/-- What a command was answered, as the responses are kept. -/
def collectFetches (answer : FetchAnswer) : FetchResponses where
  fetches := answer.responses
  ended :=
    match answer.ended with
    | none => .completed
    | some (.no status) => .rejected status
    | some error => .failed error

/-- Whether a response could not be parsed. -/
def SessionError.isParseFailure : SessionError → Bool
  | .unparsable => true
  | _ => false

/-- Whether the command failed over a response that could not be parsed. -/
def FetchEnd.isParseFailure : FetchEnd → Bool
  | .failed error => error.isParseFailure
  | _ => false

/-! ### A listing -/

/-- What a response adds to a listed message. -/
def ListedUid.keep (fetch : Fetch) (message : ListedUid) : ListedUid :=
  let message :=
    match fetch.flags with
    | some flags => { message with seen := flags.seen, flagged := flags.flagged }
    | none => message
  match fetch.gmailMsgId with
  | some messageId => { message with gmailMessageId := some messageId }
  | none => message

/-- Add one response of a listing. A message's flags and Gmail's identifier may arrive in
separate responses: the latest flags count. A response without a UID is left out. -/
def keepListed (listed : Std.TreeMap UInt32 ListedUid) (fetch : Fetch) :
    Std.TreeMap UInt32 ListedUid :=
  match fetch.uid with
  | none => listed
  | some uid =>
    listed.alter uid fun message => some ((message.getD ⟨uid, false, false, none⟩).keep fetch)

/-- The messages the responses of a listing report. -/
def listing (responses : List Fetch) : List ListedUid :=
  (responses.foldl keepListed ∅).toList.map Prod.snd

/-- Some response names the message. -/
def Names (responses : List Fetch) (uid : UInt32) : Prop :=
  ∃ fetch ∈ responses, fetch.uid = some uid

instance (responses : List Fetch) (uid : UInt32) : Decidable (Names responses uid) :=
  inferInstanceAs (Decidable (∃ fetch ∈ responses, fetch.uid = some uid))

/-- What the responses that name a message carry of a field. -/
def carried {α : Type} (field : Fetch → Option α) (responses : List Fetch) : List (UInt32 × α) :=
  responses.filterMap fun fetch => fetch.uid.bind fun uid => (field fetch).map (uid, ·)

/-- The last value of a field the responses that name a message carry. -/
def lastOf {α : Type} (field : Fetch → Option α) (responses : List Fetch) (uid : UInt32) :
    Option α :=
  latest uid (carried field responses)

/-- The last flags of a message. -/
abbrev lastFlags (responses : List Fetch) (uid : UInt32) : Option MessageFlags :=
  lastOf Fetch.flags responses uid

/-- The last Gmail identifier of a message. -/
abbrev lastGmailId (responses : List Fetch) (uid : UInt32) : Option UInt64 :=
  lastOf Fetch.gmailMsgId responses uid

/-- The flags and identifier of a listed message. -/
def ListedUid.flags (message : ListedUid) : MessageFlags := ⟨message.seen, message.flagged⟩

/-- A message as its last flags and identifier make it, over what was known of it. -/
def ListedUid.over (message : ListedUid) (flags : Option MessageFlags)
    (gmailId : Option UInt64) : ListedUid where
  uid := message.uid
  seen := (flags.getD message.flags).seen
  flagged := (flags.getD message.flags).flagged
  gmailMessageId := gmailId.or message.gmailMessageId

theorem keep_eq_over (fetch : Fetch) (message : ListedUid) :
    message.keep fetch = message.over fetch.flags fetch.gmailMsgId := by
  rw [ListedUid.keep, ListedUid.over]
  cases fetch.flags <;> cases fetch.gmailMsgId <;> rfl

theorem over_over (message : ListedUid) (f f' : Option MessageFlags) (g g' : Option UInt64) :
    (message.over f g).over f' g' = message.over (f'.or f) (g'.or g) := by
  cases f <;> cases f' <;> cases g <;> cases g' <;> rfl

theorem lastOf_cons {α : Type} (field : Fetch → Option α) (fetch : Fetch) (responses : List Fetch)
    (uid : UInt32) :
    lastOf field (fetch :: responses) uid =
      (lastOf field responses uid).or (if fetch.uid = some uid then field fetch else none) := by
  rw [lastOf, carried, List.filterMap_cons]
  cases hu : fetch.uid with
  | none => simp [lastOf, carried]
  | some u =>
    cases hf : field fetch with
    | none => simp [lastOf, carried]
    | some a => simp [latest, lastOf, carried]

theorem latest_eq_findSome? {α : Type} (field : Fetch → Option α) (fetches : List Fetch)
    (uid : UInt32) :
    lastOf field fetches uid = (fetches.filter fun fetch => fetch.uid = some uid).reverse.findSome?
      field := by
  induction fetches with
  | nil => rfl
  | cons fetch fetches ih =>
    rw [lastOf_cons, ih, List.filter_cons]
    by_cases hu : fetch.uid = some uid
    · simp [hu, List.findSome?_append]
    · simp [hu]

theorem keepListed_get (listed : Std.TreeMap UInt32 ListedUid) (fetch : Fetch) (uid : UInt32) :
    (keepListed listed fetch)[uid]? =
      if fetch.uid = some uid then
        some ((listed[uid]?.getD ⟨uid, false, false, none⟩).over fetch.flags fetch.gmailMsgId)
      else listed[uid]? := by
  rw [keepListed]
  cases hu : fetch.uid with
  | none => simp
  | some u =>
    rw [Std.TreeMap.getElem?_alter]
    by_cases h : u = uid
    · subst h
      simp [keep_eq_over]
    · have : compare u uid ≠ .eq := fun he => h (Std.LawfulEqCmp.eq_of_compare he)
      simp [h, this]

/-- The responses one after another: each message with the last flags and identifier. -/
theorem foldl_keepListed (listed : Std.TreeMap UInt32 ListedUid) (responses : List Fetch)
    (uid : UInt32) :
    (responses.foldl keepListed listed)[uid]? =
      if Names responses uid then
        some ((listed[uid]?.getD ⟨uid, false, false, none⟩).over (lastFlags responses uid)
          (lastGmailId responses uid))
      else listed[uid]? := by
  induction responses generalizing listed with
  | nil => simp [Names]
  | cons fetch responses ih =>
    rw [List.foldl_cons, ih, keepListed_get]
    simp only [lastFlags, lastGmailId, lastOf_cons]
    have hnames : Names (fetch :: responses) uid ↔ fetch.uid = some uid ∨ Names responses uid := by
      simp [Names]
    by_cases hf : fetch.uid = some uid
    · by_cases hr : Names responses uid
      · simp [hnames, hf, hr, over_over]
      · have hlast : ∀ {α : Type} (field : Fetch → Option α),
            lastOf field responses uid = none := by
          intro α field
          refine latest_eq_none_iff.mpr fun hmem => hr ?_
          obtain ⟨⟨_, _⟩, he, rfl⟩ := List.mem_map.mp hmem
          obtain ⟨f, hf, hb⟩ := List.mem_filterMap.mp he
          obtain ⟨u, hu, hb⟩ := Option.bind_eq_some_iff.mp hb
          obtain ⟨_, _, hp⟩ := Option.map_eq_some_iff.mp hb
          exact ⟨f, hf, hu.trans (congrArg some (congrArg Prod.fst hp))⟩
        simp [hnames, hf, hr, hlast]
    · simp [hnames, hf]

/-- **What a listing reports**: the messages the responses name, each with the last flags and
the last identifier, unread, unstarred and without one where no response carries them. -/
theorem mem_listing {responses : List Fetch} {message : ListedUid} :
    message ∈ listing responses ↔ Names responses message.uid ∧
      message.flags = (lastFlags responses message.uid).getD ⟨false, false⟩ ∧
        message.gmailMessageId = lastGmailId responses message.uid := by
  have key : ∀ uid m, (uid, m) ∈ (responses.foldl keepListed ∅).toList ↔ Names responses uid ∧
      m = (⟨uid, false, false, none⟩ : ListedUid).over (lastFlags responses uid)
        (lastGmailId responses uid) := by
    intro uid m
    rw [Std.TreeMap.mem_toList_iff_getElem?_eq_some, foldl_keepListed]
    by_cases hn : Names responses uid
    · simp [hn, eq_comm]
    · simp [hn]
  rw [listing, List.mem_map]
  constructor
  · rintro ⟨⟨uid, m⟩, hm, rfl⟩
    obtain ⟨hn, rfl⟩ := (key uid m).mp hm
    refine ⟨hn, rfl, ?_⟩
    simp [ListedUid.over]
  · rintro ⟨hn, hf, hg⟩
    refine ⟨(message.uid, message), (key _ _).mpr ⟨hn, ?_⟩, rfl⟩
    have hs : message.seen = _ := congrArg MessageFlags.seen hf
    have hfl : message.flagged = _ := congrArg MessageFlags.flagged hf
    rw [ListedUid.over, ← hg, Option.or_none]
    exact ListedUid.mk.injEq .. ▸ ⟨rfl, hs, hfl, rfl⟩

theorem uid_of_mem_toList {responses : List Fetch} {entry : UInt32 × ListedUid}
    (h : entry ∈ (responses.foldl keepListed ∅).toList) : entry.2.uid = entry.1 := by
  rw [Std.TreeMap.mem_toList_iff_getElem?_eq_some, foldl_keepListed] at h
  split at h
  · rw [← Option.some.inj h]
    simp [ListedUid.over]
  · simp at h

theorem listing_ascending (responses : List Fetch) :
    (listing responses).Pairwise fun message message' => message.uid < message'.uid := by
  rw [listing, List.pairwise_map]
  have hkeys := Std.TreeMap.ordered_keys_toList (t := responses.foldl keepListed ∅)
  refine hkeys.imp_of_mem fun hentry hentry' hlt => ?_
  rw [uid_of_mem_toList hentry, uid_of_mem_toList hentry']
  exact Std.compare_eq_lt.mp hlt

theorem listing_nodup (responses : List Fetch) : ((listing responses).map ListedUid.uid).Nodup :=
  List.pairwise_map.mpr ((listing_ascending responses).imp UInt32.ne_of_lt)

theorem names_iff_filter {responses : List Fetch} {uid : UInt32} :
    Names responses uid ↔ (responses.filter fun fetch => fetch.uid = some uid) ≠ [] := by
  rw [Names, Ne, List.filter_eq_nil_iff]
  simp

/-- Responses that say the same of each message, in whatever order, give the same listing. -/
theorem listing_eq_of_filter {responses responses' : List Fetch}
    (h : ∀ uid : UInt32, (responses'.filter fun fetch => fetch.uid = some uid) = responses.filter
      fun fetch => fetch.uid = some uid) : listing responses' = listing responses := by
  have hmem : ∀ message, message ∈ listing responses' ↔ message ∈ listing responses := by
    intro message
    simp only [mem_listing, names_iff_filter, latest_eq_findSome?, h]
  have hnodup : ∀ responses, (listing responses).Nodup :=
    fun responses => (listing_nodup responses).of_map _
  have hperm := (List.perm_ext_iff_of_nodup (hnodup responses') (hnodup responses)).mpr hmem
  refine hperm.eq_of_pairwise (fun message message' _ _ hlt hlt' => ?_) (listing_ascending _)
    (listing_ascending _)
  exact absurd (UInt32.lt_trans hlt hlt') (UInt32.lt_irrefl _)

/-- **The latest word on each listed message counts.** A listing has one entry for each UID
some response names and no other, in ascending UID order; its flags and its identifier are
those of the last response for the UID that carries them, unread and unstarred and without
one where none does; so the order of responses of different messages changes nothing. -/
theorem listing_latest (responses : List Fetch) :
    ((listing responses).Pairwise fun message message' => message.uid < message'.uid) ∧
      (∀ uid, uid ∈ (listing responses).map ListedUid.uid ↔ ∃ fetch ∈ responses,
        fetch.uid = some uid) ∧
      (∀ message ∈ listing responses,
        message.flags =
        (((responses.filter fun fetch => fetch.uid = some message.uid).reverse.findSome?
          Fetch.flags).getD
          ⟨false, false⟩) ∧
        message.gmailMessageId =
          (responses.filter fun fetch => fetch.uid = some message.uid).reverse.findSome?
            Fetch.gmailMsgId) ∧
      ∀ responses' : List Fetch,
        (∀ uid : UInt32, (responses'.filter fun fetch => fetch.uid = some uid) =
          responses.filter fun fetch => fetch.uid = some uid) →
        listing responses' = listing responses := by
  refine ⟨listing_ascending responses, fun uid => ⟨fun h => ?_, fun hnames => ?_⟩,
    fun message hmessage => ?_,
    fun responses' h => listing_eq_of_filter h⟩
  · obtain ⟨message, hmessage, rfl⟩ := List.mem_map.mp h
    exact (mem_listing.mp hmessage).1
  · refine List.mem_map.mpr ⟨(⟨uid, false, false, none⟩ : ListedUid).over (lastFlags responses uid)
      (lastGmailId responses uid),
      mem_listing.mpr ⟨hnames, rfl, ?_⟩, rfl⟩
    simp [ListedUid.over]
  · obtain ⟨-, hflags, hgmail⟩ := mem_listing.mp hmessage
    rw [← latest_eq_findSome?, ← latest_eq_findSome?]
    exact ⟨hflags, hgmail⟩

/-! ### Rows, structures and texts -/

/-- The structure among the responses: one without a structure neither hides the real one
nor stands in for it. -/
def structureOf (responses : List Fetch) : Option MessagePart :=
  responses.findSome? Fetch.bodystructure

/-- The responses of each requested message, in their order. -/
def byUid (fetches : List Fetch) (uids : List UInt32) : Std.TreeMap UInt32 (List Fetch) :=
  fetches.foldl
    (fun byUid fetch =>
      match fetch.uid.filter (· ∈ uids) with
      | some uid => byUid.alter uid fun responses => some (responses.getD [] ++ [fetch])
      | none => byUid)
    ∅

/-- The row of a message out of its responses: none without its header lines. -/
def rowOf (uid : UInt32) (responses : List Fetch) : Option MessageRow := do
  let listHeaders ← responses.findSome? (·.getSection .messageHeader)
  let latestFlags := (responses.reverse.findSome? Fetch.flags).getD ⟨false, false⟩
  some
    { uid
      seen := latestFlags.seen
      flagged := latestFlags.flagged
      internalDate := responses.findSome? Fetch.internalDate
      listHeaders
      structure' := structureOf responses }

/-- The rows of the requested messages among the responses, in descending UID order. A
message may be answered in several responses, mixed with flag changes. -/
def collectRows (fetches : List Fetch) (uids : List UInt32) : List MessageRow :=
  (byUid fetches uids).toList.reverse.filterMap fun (uid, responses) => rowOf uid responses

/-- Header and body section of each requested part. -/
def sectionPaths : TextParts → List (SectionName × SectionName)
  | .singlePartBody => [(.messageHeader, .part [1])]
  | .multipartLeaves leaves => leaves.map fun leaf => (.partHeader leaf, .part leaf)

/-- The requested parts among one message's responses: headers and bodies may arrive in
separate ones. -/
def receivedParts (responses : List Fetch) (paths : List (SectionName × SectionName)) :
    Option (List ReceivedPart) :=
  paths.mapM fun (header, body) => do
    let header ← responses.findSome? fun (fetch : Fetch) => fetch.getSection header
    let body ← responses.findSome? fun (fetch : Fetch) => fetch.getSection body
    some ⟨header, body⟩

/-- The requested parts of one message among the responses to its command. After OK a
message without a response is gone; after NO the server failed to return it. -/
def messageText (fetches : List Fetch) (uid : UInt32) (paths : List (SectionName × SectionName))
    (rejected : Bool) : MessageText :=
  let responses := fetches.filter fun fetch => fetch.uid = some uid
  if responses = [] then
    if rejected then .notReturned else .disappeared
  else
    match receivedParts responses paths with
    | some parts => .received parts
    | none => .notReturned

theorem byUid_get (fetches : List Fetch) (uids : List UInt32) (uid : UInt32) :
    (byUid fetches uids)[uid]? =
      if uid ∈ uids ∧ Names fetches uid then some (fetches.filter fun fetch => fetch.uid = some uid)
          else none := by
  suffices ∀ m : Std.TreeMap UInt32 (List Fetch),
      (fetches.foldl
          (fun byUid fetch =>
            match fetch.uid.filter (· ∈ uids) with
            | some uid => byUid.alter uid fun responses => some (responses.getD [] ++ [fetch])
            | none => byUid)
          m)[uid]? =
        if uid ∈ uids ∧ Names fetches uid then
          some (m[uid]?.getD [] ++ fetches.filter fun fetch => fetch.uid = some uid)
        else m[uid]? by
    rw [byUid, this]
    simp
  induction fetches with
  | nil => simp [Names]
  | cons fetch fetches ih =>
    intro m
    have hnames : Names (fetch :: fetches) uid ↔ fetch.uid = some uid ∨ Names fetches uid := by
      simp [Names]
    have hnone : ¬Names fetches uid → fetches.filter (fun fetch => fetch.uid = some uid) = [] := by
      intro h
      refine List.filter_eq_nil_iff.mpr fun f hf hu => h ⟨f, hf, ?_⟩
      simpa using hu
    rw [List.foldl_cons, ih]
    cases hu : fetch.uid with
    | none => simp [hnames, hu]
    | some u =>
      by_cases hmem : u ∈ uids
      · simp only [Option.filter_some, hmem, decide_true, if_true, Std.TreeMap.getElem?_alter]
        by_cases h : u = uid
        · subst h
          by_cases hn : Names fetches u
          · simp [hnames, hu, hn, hmem]
          · simp [hnames, hu, hn, hmem, hnone hn]
        · have hc : compare u uid ≠ .eq := fun he => h (Std.LawfulEqCmp.eq_of_compare he)
          simp [hnames, hu, h, hc]
      · have h : uid ∈ uids → u ≠ uid := fun hi he => hmem (he ▸ hi)
        simp only [Option.filter_some, hmem, decide_false, Bool.false_eq_true, if_false]
        by_cases hi : uid ∈ uids
        · simp [hnames, hu, hi, h hi]
        · simp [hi]

theorem uid_of_rowOf {uid : UInt32} {responses : List Fetch} {row : MessageRow}
    (h : rowOf uid responses = some row) : row.uid = uid := by
  rw [rowOf, Option.bind_eq_bind, Option.bind_eq_some_iff] at h
  obtain ⟨_, _, h⟩ := h
  cases h
  rfl

/-- A row is made of the responses that name its message, which the command named. -/
theorem mem_collectRows {fetches : List Fetch} {uids : List UInt32} {row : MessageRow} :
    row ∈ collectRows fetches uids ↔ row.uid ∈ uids ∧ Names fetches row.uid ∧
      rowOf row.uid (fetches.filter fun fetch => fetch.uid = some row.uid) = some row := by
  rw [collectRows, List.mem_filterMap]
  constructor
  · rintro ⟨⟨uid, responses⟩, hmem, hrow⟩
    obtain rfl := uid_of_rowOf hrow
    rw [List.mem_reverse, Std.TreeMap.mem_toList_iff_getElem?_eq_some, byUid_get] at hmem
    split at hmem
    · rename_i h
      cases hmem
      exact ⟨h.1, h.2, hrow⟩
    · cases hmem
  · rintro ⟨hmem, hnames, hrow⟩
    refine ⟨(row.uid, _), ?_, hrow⟩
    rw [List.mem_reverse, Std.TreeMap.mem_toList_iff_getElem?_eq_some, byUid_get,
      if_pos ⟨hmem, hnames⟩]

/-- Some response gives the message its header lines. -/
def GivesHeaders (fetches : List Fetch) (uid : UInt32) : Prop :=
  ∃ fetch ∈ fetches, fetch.uid = some uid ∧ (fetch.getSection .messageHeader).isSome

/-- **A message the command named has a row when some response gives its header lines.** -/
theorem exists_row {fetches : List Fetch} {uids : List UInt32} {uid : UInt32} (hmem : uid ∈ uids)
    (hgives : GivesHeaders fetches uid) : ∃ row ∈ collectRows fetches uids, row.uid = uid := by
  obtain ⟨fetch, hf, hu, hs⟩ := hgives
  have hfound : (fetches.filter fun fetch => fetch.uid = some uid).findSome?
      (·.getSection .messageHeader) ≠ none := by
    intro hnone
    have := List.findSome?_eq_none_iff.mp hnone fetch (List.mem_filter.mpr ⟨hf, by simp [hu]⟩)
    rw [this] at hs
    cases hs
  obtain ⟨headers, hheaders⟩ := Option.ne_none_iff_exists'.mp hfound
  have hrow : ∃ row, rowOf uid (fetches.filter fun fetch => fetch.uid = some uid) = some row := by
    rw [rowOf, hheaders]
    exact ⟨_, rfl⟩
  obtain ⟨row, hrow⟩ := hrow
  obtain rfl := uid_of_rowOf hrow
  exact ⟨row, mem_collectRows.mpr ⟨hmem, ⟨fetch, hf, hu⟩, hrow⟩, rfl⟩

/-- The flags of a row. -/
def MessageRow.flags (row : MessageRow) : MessageFlags := ⟨row.seen, row.flagged⟩

/-- **The flags of a row** are the last its responses carry. -/
theorem flags_of_row {fetches : List Fetch} {uids : List UInt32} {row : MessageRow}
    (hrow : row ∈ collectRows fetches uids) :
    row.flags = (lastFlags fetches row.uid).getD ⟨false, false⟩ := by
  obtain ⟨-, -, hrow⟩ := mem_collectRows.mp hrow
  rw [rowOf, Option.bind_eq_bind, Option.bind_eq_some_iff] at hrow
  obtain ⟨_, _, hrow⟩ := hrow
  have hflags := congrArg MessageRow.flags (Option.some.inj hrow)
  rw [← hflags, lastFlags, latest_eq_findSome?]
  rfl

/-- A message is reported gone when the command completed with OK and no response names it. -/
theorem messageText_disappeared {fetches : List Fetch} {uid : UInt32}
    {paths : List (SectionName × SectionName)} {rejected : Bool}
    (h : messageText fetches uid paths rejected = .disappeared) :
    ¬Names fetches uid ∧ rejected = false := by
  rw [messageText] at h
  split at h
  · rename_i hnil
    refine ⟨?_, by split at h <;> simp_all⟩
    rintro ⟨fetch, hf, hu⟩
    exact List.filter_eq_nil_iff.mp hnil fetch hf (by simp [hu])
  · split at h <;> cases h

end Mailbag.Imap
