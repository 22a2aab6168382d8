import Mailbag.Store.BatchEffect
import Mailbag.Store.Wishes

/-!
# The contents of stored messages

A message's content is stored as a code and a detail, and every full record of it is
written over the stored one. `mergedContents` says what a row's columns come to: over the
arrivals of the message since its row was inserted (`arrivals`), a content gives way to
every later one but a text not downloaded and, when it is a text, one not returned.

## What is proved

* `contentFromColumns_contentColumns` — what is stored of a content is read back as it.
* `readMessageContent_merged` — after any operations the reading of a message's content
  meets no damaged row and gives its merged contents.
-/

namespace Mailbag.Store

open Collections

variable {t u : Tables}

/-! ### Reading a content -/

/-- The code as the schema's text. -/
def ContentCode.code : ContentCode → String
  | .text => "text"
  | .plainTextMissing => "plain_text_missing"
  | .htmlOnly => "html_only"
  | .encrypted => "encrypted"
  | .smime => "smime"
  | .unknownCharset => "unknown_charset"
  | .unknownEncoding => "unknown_encoding"
  | .undecodable => "undecodable"
  | .structureUnreadable => "structure_unreadable"
  | .textNotReturned => "text_not_returned"
  | .notDownloaded => "not_downloaded"

/-- The content the stored columns describe; none without the detail a code needs. -/
def contentFromColumns (code : ContentCode) (detail : Option String) : Option ReceivedContent :=
  match code, detail with
  | .text, some text => some (.text text)
  | .plainTextMissing, _ => some (.explained (.noPlainText false))
  | .htmlOnly, _ => some (.explained (.noPlainText true))
  | .encrypted, _ => some (.explained .encrypted)
  | .smime, _ => some (.explained .securedWithSMime)
  | .unknownCharset, some name => some (.explained (.unknownCharset name))
  | .unknownEncoding, some name => some (.explained (.unknownEncoding name))
  | .undecodable, _ => some (.explained .undecodable)
  | .structureUnreadable, _ => some .structureUnreadable
  | .textNotReturned, _ => some .textNotReturned
  | .notDownloaded, _ => some .notDownloaded
  | .text, none => none
  | .unknownCharset, none => none
  | .unknownEncoding, none => none

/-- A row whose columns describe no content. -/
def StoreError.damagedRow (code : ContentCode) : StoreError :=
  ⟨false, s!"SQLite: Conversion error from type Text at index: 0, unknown content code {code.code}"⟩

/-- The content of the account's message; none when the store does not hold the message. -/
def Tables.readMessageContent (t : Tables) (account : AccountId) (identity : String) :
    Except StoreError (Option ReceivedContent) :=
  match t.message? account.asStr identity with
  | none => .ok none
  | some row =>
    match contentFromColumns row.contentKind row.contentDetail with
    | some content => .ok (some content)
    | none => .error (.damagedRow row.contentKind)

/-- **What is stored of a content is read back as it**, whatever text or name it carries. -/
theorem contentFromColumns_contentColumns (content : ReceivedContent) :
    contentFromColumns (contentColumns content).1 (contentColumns content).2 = some content := by
  cases content with
  | text text => rfl
  | explained explanation =>
    cases explanation with
    | noPlainText hasHtml => cases hasHtml <;> rfl
    | encrypted => rfl
    | securedWithSMime => rfl
    | unknownCharset name => rfl
    | unknownEncoding name => rfl
    | undecodable => rfl
  | structureUnreadable => rfl
  | textNotReturned => rfl
  | notDownloaded => rfl

/-! ### Contents one after another -/

/-- A content with a later one over it. -/
def merge (old new : ReceivedContent) : ReceivedContent :=
  match old, new with
  | old, .notDownloaded => old
  | .text text, .textNotReturned => .text text
  | _, new => new

/-- Contents one over another, from the first on. -/
def mergedContents : List ReceivedContent → Option ReceivedContent
  | [] => none
  | content :: contents => some (contents.foldl merge content)

/-- What an arrival makes of a message's content. -/
def arrive : Option ReceivedContent → ReceivedContent → Option ReceivedContent
  | none, new => some new
  | some old, new => some (merge old new)

theorem foldl_arrive_some (contents : List ReceivedContent) (content : ReceivedContent) :
    contents.foldl arrive (some content) = some (contents.foldl merge content) := by
  induction contents generalizing content with
  | nil => rfl
  | cons new contents ih => exact ih (merge content new)

theorem mergedContents_append (before after : List ReceivedContent) :
    mergedContents (before ++ after) = after.foldl arrive (mergedContents before) := by
  cases before with
  | nil =>
    cases after with
    | nil => rfl
    | cons content contents => exact (foldl_arrive_some contents content).symm
  | cons content contents =>
    rw [List.cons_append, mergedContents, mergedContents, foldl_arrive_some, List.foldl_append]

theorem mergedContent_contentColumns (old new : ReceivedContent) :
    mergedContent (contentColumns old) (contentColumns new) = contentColumns (merge old new) := by
  have htext : ∀ content : ReceivedContent, (contentColumns content).1 = .text ↔
      ∃ text, content = .text text := by
    intro content
    cases content with
    | explained explanation =>
      cases explanation with
      | noPlainText hasHtml => cases hasHtml <;> simp [contentColumns]
      | _ => simp [contentColumns]
    | _ => simp [contentColumns]
  have hnot : ∀ explanation, (contentColumns (.explained explanation)).1 ≠ .notDownloaded ∧
      (contentColumns (.explained explanation)).1 ≠ .textNotReturned := by
    intro explanation
    cases explanation with
    | noPlainText hasHtml => cases hasHtml <;> exact ⟨nofun, nofun⟩
    | _ => exact ⟨nofun, nofun⟩
  rw [mergedContent]
  cases new with
  | notDownloaded => simp [merge, contentColumns]
  | textNotReturned =>
    cases old with
    | text text => simp [merge, contentColumns]
    | _ =>
      rw [if_neg]
      · rfl
      · rintro (h | ⟨-, h⟩)
        · cases h
        · obtain ⟨text, h⟩ := (htext _).mp h
          cases h
  | explained explanation =>
    rw [if_neg fun h => h.elim (hnot explanation).1 fun h => (hnot explanation).2 h.1]
    cases old <;> rfl
  | text text => cases old <;> rfl
  | structureUnreadable => cases old <;> rfl

/-! ### What an operation does to the columns -/

/-- The content columns of a row. -/
def StoredMessage.columns (row : StoredMessage) : ContentCode × Option String :=
  (row.contentKind, row.contentDetail)

/-- The content columns of the account's message. -/
def Tables.columns? (t : Tables) (account identity : String) :
    Option (ContentCode × Option String) :=
  (t.message? account identity).map StoredMessage.columns

theorem updateMessage_columns (t : Tables) (a : AccountId) (i : String)
    {f : StoredMessage → StoredMessage} (hkey : ∀ r, (f r).key = r.key)
    (hcolumns : ∀ r, (f r).columns = r.columns) :
    (t.updateMessage a.asStr i f).columns? = t.columns? := by
  funext account identity
  rw [Tables.columns?, updateMessage_message t a i hkey]
  split
  · rw [Option.map_map, Tables.columns?]
    exact Option.map_congr fun r _ => hcolumns r
  · rfl

theorem updateMessages_columns (t : Tables) (a : AccountId) (identities : List String)
    {f : StoredMessage → StoredMessage} (hkey : ∀ r, (f r).key = r.key)
    (hcolumns : ∀ r, (f r).columns = r.columns) :
    (t.updateMessages a identities f).columns? = t.columns? := by
  induction identities generalizing t with
  | nil => rfl
  | cons i identities ih => exact (ih _).trans (updateMessage_columns t a i hkey hcolumns)

theorem setFlagStates_columns (t : Tables) (a : AccountId)
    (flagStates : List (String × MessageFlags)) :
    (t.setFlagStates a flagStates).columns? = t.columns? := by
  induction flagStates generalizing t with
  | nil => rfl
  | cons entry flagStates ih =>
    exact (ih _).trans (updateMessage_columns t a entry.1 (f := fun row => row.withFlags entry.2)
      (fun _ => rfl) fun _ => rfl)

theorem relateStored_columns (t : Tables) (folderId : ℕ) (a : AccountId) (identity : String) :
    (t.relateStored folderId a identity).columns? = t.columns? := by
  funext account i
  rw [Tables.relateStored]
  split
  · rw [Tables.columns?, relate_message]
    rfl
  · rfl

theorem relateAll_columns (t : Tables) (folderId : ℕ) (a : AccountId)
    (known : List (String × MessageFlags)) :
    (known.foldl (fun t entry => t.relateStored folderId a entry.1) t).columns? = t.columns? := by
  induction known generalizing t with
  | nil => rfl
  | cons entry known ih => exact (ih _).trans (relateStored_columns t folderId a entry.1)

theorem upsertMessage_columns (t : Tables) (a : AccountId) (message : Message) {identity : String}
    {content : Option ReceivedContent}
    (hcontent : t.columns? a.asStr identity = content.map contentColumns) :
    (t.upsertMessage a message).1.columns? a.asStr identity =
      (if message.identity = identity then arrive content message.content
        else content).map contentColumns := by
  rw [Tables.columns?, upsertMessage_message]
  by_cases hi : message.identity = identity
  · subst hi
    rw [if_pos rfl, if_pos rfl, Option.map_some]
    rw [Tables.columns?] at hcontent
    cases content with
    | none =>
      rw [Option.map_none, Option.map_eq_none_iff] at hcontent
      rw [hcontent]
      rfl
    | some old =>
      obtain ⟨row, hrow, hcolumns⟩ := Option.map_eq_some_iff.mp hcontent
      rw [hrow]
      refine congrArg some ?_
      rw [← mergedContent_contentColumns, ← hcolumns]
      rfl
  · rw [if_neg fun h => hi (Prod.mk.inj h).2.symm, if_neg hi]
    exact hcontent

/-- The contents a batch's arrivals give of a message, in their order. -/
def arrivedContents (arrived : List Message) (identity : String) : List ReceivedContent :=
  (arrived.filter fun message => message.identity = identity).map Message.content

/-- Full records: each is merged over the ones before. -/
theorem storeArrived_columns (t : Tables) (folderId : ℕ) (a : AccountId) (arrived : List Message)
    {identity : String} {content : Option ReceivedContent}
    (hcontent : t.columns? a.asStr identity = content.map contentColumns) :
    (t.storeArrived folderId a arrived).columns? a.asStr identity =
      ((arrivedContents arrived identity).foldl arrive content).map contentColumns := by
  induction arrived generalizing t content with
  | nil => exact hcontent
  | cons message arrived ih =>
    have hstep : ((t.upsertMessage a message).1.relate folderId
      (t.upsertMessage a message).2).columns? a.asStr identity =
        (if message.identity = identity then arrive content message.content
          else content).map contentColumns := by
      rw [Tables.columns?, relate_message]
      exact upsertMessage_columns t a message hcontent
    refine (ih _ hstep).trans ?_
    rw [arrivedContents, arrivedContents, List.filter_cons]
    by_cases hi : message.identity = identity <;> simp [hi]

/-- The contents that count after a batch's removals: none of a message the store let go. -/
def survived (t : Tables) (folderId : ℕ) (folder : FolderRef) (removed : List String)
    (identity : String) (contents : List ReceivedContent) : List ReceivedContent :=
  if ((t.applyRemovals folderId folder.account removed).message? folder.account.asStr
    identity).isSome then contents else []

/-- **The columns after a batch**: the contents that survived its removals, and over them
those that arrived. -/
theorem applyBatch_columns {folderId : ℕ} {folder : FolderRef} (ho : t.Opened folder folderId)
    (batch : FolderBatch) {identity : String} {before : List ReceivedContent}
    (hbefore : t.columns? folder.account.asStr identity = (mergedContents before).map
      contentColumns) :
    (t.applyBatch folderId folder.account batch).columns? folder.account.asStr identity =
      (mergedContents (survived t folderId folder batch.removed identity before ++
        arrivedContents batch.arrived identity)).map contentColumns := by
  have hremovals : (t.applyRemovals folderId folder.account batch.removed).columns?
    folder.account.asStr identity =
      (mergedContents (survived t folderId folder batch.removed identity before)).map
        contentColumns := by
    rw [survived, Tables.columns?]
    cases hrow : (t.applyRemovals folderId folder.account batch.removed).message?
      folder.account.asStr identity with
    | none => rfl
    | some row =>
      rw [Option.isSome_some, if_pos rfl, ← hbefore, Tables.columns?,
        applyRemovals_message ho batch.removed hrow]
  have hstate : (t.applyBatch folderId folder.account batch).columns? =
      (t.applyMail folderId folder.account batch).columns? := by
    rw [applyBatch_eq]
    split <;> rfl
  rw [hstate, Tables.applyMail, Tables.relateKnown, setFlagStates_columns, relateAll_columns,
    mergedContents_append]
  refine storeArrived_columns _ _ _ _ ?_
  rw [setFlagStates_columns]
  exact hremovals

/-- An operation that stores no batch stores no content: a message it leaves has its columns. -/
theorem call_keepsColumns (h : Shape t) {op : StoreCall}
    (hop : ∀ folder batch, op ≠ .storeBatch folder batch) (met : Circumstances)
    {account identity : String} {columns : ContentCode × Option String}
    (hafter : (call t op met).2.columns? account identity = some columns) :
    t.columns? account identity = some columns := by
  obtain ⟨cancelled, fault⟩ := met
  cases fault with
  | some error => exact hafter
  | none =>
    have hperform : (perform t cancelled op).2.columns? account identity = some columns := hafter
    cases op with
    | replaceFolders a folders =>
      rw [perform] at hperform
      split at hperform
      · exact hperform
      · obtain ⟨row, hrow, rfl⟩ := Option.map_eq_some_iff.mp hperform
        rw [Tables.columns?, replaceFolders_message h.toLinked a folders hrow]
        rfl
    | storeBatch folder batch => exact absurd rfl (hop folder batch)
    | writePendingFlag a i f wanted =>
      rw [← updateMessage_columns t a i (f := fun row => row.withPending f (some wanted))
        (fun row => row.withPending_key f _) fun row => by cases f <;> rfl]
      exact hperform
    | settleFlags a ids f value =>
      rw [← updateMessages_columns t a ids (f := fun row => (row.withFlag f value).withPending f
        (nullIf (row.pending f) value)) (fun row => by
          rw [StoredMessage.withPending_key, StoredMessage.withFlag_key])
            fun row => by cases f <;> rfl]
      exact hperform
    | dropPendingFlags a ids f refused =>
      rw [← updateMessages_columns t a ids
        (f := fun row => row.withPending f (nullIf (row.pending f) refused))
          (fun row => row.withPending_key f _) fun row => by cases f <;> rfl]
      exact hperform
    | deleteOtherAccounts current =>
      obtain ⟨row, hrow, rfl⟩ := Option.map_eq_some_iff.mp hperform
      rw [Tables.columns?, deleteAccounts_message h _ hrow]
      rfl
    | readFolderSync folder =>
      rw [perform] at hperform
      split at hperform <;> exact hperform
    | readPendingChanges folder =>
      rw [perform] at hperform
      split at hperform <;> exact hperform
    | storedIdentities a ids => exact hperform
    | identitiesInOtherFolders folder ids => exact hperform
    | readFolderRows folder => exact hperform

/-! ### The contents that count -/

/-- The contents of a message that arrived since its row was inserted, after an operation:
none when it leaves the message not stored. -/
def arrivalsAfter (t : Tables) (c : StoreCall × Circumstances) (account identity : String)
    (before : List ReceivedContent) : List ReceivedContent :=
  if ((call t c.1 c.2).2.message? account identity).isNone then []
  else
    match c.1 with
    | .storeBatch folder batch =>
      match t.storedFolderId folder with
      | some folderId =>
        if account = folder.account.asStr ∧ c.2 = ⟨false, none⟩ then
          survived t folderId folder batch.removed identity before ++
            arrivedContents batch.arrived identity
        else before
      | none => before
    | _ => before

/-- The contents of a message that arrived since its row was inserted, through operations one
after another. -/
def arrivals (account identity : String) :
    Tables → List ReceivedContent → List (StoreCall × Circumstances) → List ReceivedContent
  | _, contents, [] => contents
  | t, contents, c :: calls =>
    arrivals account identity (call t c.1 c.2).2 (arrivalsAfter t c account identity contents) calls

/-- A batch that was not stored, or is another account's, leaves the columns. -/
theorem storeBatch_keepsColumns (h : Shape t) {folder : FolderRef} {batch : FolderBatch}
    {met : Circumstances} {account : String}
    (hnot : t.storedFolderId folder = none ∨
      ¬(account = folder.account.asStr ∧ met = ⟨false, none⟩))
    (identity : String) :
    (call t (.storeBatch folder batch) met).2.columns? account identity =
      t.columns? account identity := by
  by_cases ha : account = folder.account.asStr
  · obtain ⟨cancelled, fault⟩ := met
    cases fault with
    | some error => rfl
    | none =>
      cases cancelled with
      | true => rfl
      | false =>
        have hid := hnot.resolve_right fun hnot => hnot ⟨ha, rfl⟩
        simp only [call, perform, hid]
        rfl
  · have h' : Shape (call t (.storeBatch folder batch) met).2 := call_shape h _ met
    have hpart : (call t (.storeBatch folder batch) met).2.part account = t.part account :=
      call_part h rfl met ha
    rw [Tables.columns?, Tables.columns?, ← message_of_part h'.toLinked,
      ← message_of_part h.toLinked, hpart]

/-- **One operation**: the columns are the merged contents that count. -/
theorem call_columns (h : Shape t) (c : StoreCall × Circumstances) {account identity : String}
    {before : List ReceivedContent}
    (hbefore : t.columns? account identity = (mergedContents before).map contentColumns) :
    (call t c.1 c.2).2.columns? account identity =
      (mergedContents (arrivalsAfter t c account identity before)).map contentColumns := by
  obtain ⟨op, met⟩ := c
  rw [arrivalsAfter]
  cases hrow : (call t op met).2.message? account identity with
  | none =>
    rw [Tables.columns?, hrow]
    rfl
  | some row =>
    have hcolumns : (call t op met).2.columns? account identity = some row.columns := by
      rw [Tables.columns?, hrow]
      rfl
    rw [Option.isNone_some, if_neg Bool.false_ne_true]
    by_cases hop : ∃ folder batch, op = .storeBatch folder batch
    · obtain ⟨folder, batch, rfl⟩ := hop
      dsimp only
      cases hid : t.storedFolderId folder with
      | none => exact (storeBatch_keepsColumns h (.inl hid) identity).trans hbefore
      | some folderId =>
        dsimp only
        split
        · rename_i hstored
          obtain ⟨rfl, rfl⟩ := hstored
          have hcall : (call t (.storeBatch folder batch) ⟨false, none⟩).2 = t.applyBatch folderId
              folder.account batch := by
            simp [call, perform, hid]
          rw [hcall]
          exact applyBatch_columns (opened_of_storedFolderId h.toLinked hid) batch hbefore
        · rename_i hnot
          exact (storeBatch_keepsColumns h (.inr hnot) identity).trans hbefore
    · have hkept := call_keepsColumns h (fun folder batch heq => hop ⟨folder, batch, heq⟩)
        met hcolumns
      rw [hcolumns, ← hkept, hbefore]
      cases op with
      | storeBatch folder batch => exact absurd ⟨folder, batch, rfl⟩ hop
      | _ => rfl

theorem run_columns (h : Shape t) (calls : List (StoreCall × Circumstances))
    {account identity : String} {before : List ReceivedContent}
    (hbefore : t.columns? account identity = (mergedContents before).map contentColumns) :
    (run t calls).columns? account identity =
      (mergedContents (arrivals account identity t before calls)).map contentColumns := by
  induction calls generalizing t before with
  | nil => exact hbefore
  | cons c calls ih => exact ih (call_shape h c.1 c.2) (call_columns h c hbefore)

/-- **A stored text is never lost to a poorer answer**: after any operations the content read
of a message is the contents that arrived since it was last inserted, merged in their
order, and the reading meets no row it cannot decode. -/
theorem readMessageContent_merged (calls : List (StoreCall × Circumstances)) (account : AccountId)
    (identity : String) :
    (run .empty calls).readMessageContent account identity =
      .ok (mergedContents (arrivals account.asStr identity .empty [] calls)) := by
  have hcolumns : (run .empty calls).columns? account.asStr identity =
      (mergedContents (arrivals account.asStr identity .empty [] calls)).map contentColumns :=
    run_columns shape_empty calls rfl
  rw [Tables.readMessageContent]
  cases hrow : (run .empty calls).message? account.asStr identity with
  | none =>
    rw [Tables.columns?, hrow, Option.map_none, eq_comm, Option.map_eq_none_iff] at hcolumns
    rw [hcolumns]
  | some row =>
    rw [Tables.columns?, hrow, Option.map_some, eq_comm] at hcolumns
    obtain ⟨content, hcontent, hcode⟩ := Option.map_eq_some_iff.mp hcolumns
    have hread : contentFromColumns row.columns.1 row.columns.2 = some content :=
      hcode ▸ contentFromColumns_contentColumns content
    rw [StoredMessage.columns] at hread
    rw [hcontent]
    simp only [hread]

end Mailbag.Store
