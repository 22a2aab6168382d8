import Mailbag.Cycle.ImapRules

/-!
# The state pass

`runStatePass_safe` is the rule of a pass: what it listed (`PassListed`) is the evidence on
which its batch (`passBatch`) is stored. `passBatch_heldFlags` says what that batch makes
of a folder that is as the cycle read it (`Current`), `passBatch_synchronized` when it marks
the folder, and `fetched_heldFlags` what a batch of missing messages makes of it.
-/

namespace Mailbag.Cycle

open Collections Imap Interaction Program Relation Store

variable {S : Server ImapCommand.Reply} {J : History S → S.World × Tables → Prop}
  {G : History S → Happened S → Prop} {h h' : History S} {s u : S.World × Tables}
  {folder : FolderRef}

/-- The batch of a pass that listed `listed`. -/
def passBatch (listed : List ListedMessage) (refusal : Option ServerReply) (stored : FolderSync)
    (numbers : FolderNumbers) (plan : PassPlan) : FolderBatch :=
  { listingChanges listed stored (refusal.isNone && plan = .everything) with
    state := passState stored.state numbers refusal.isNone (missingMessages listed stored ≠ []) }

/-- What a pass listed: nothing without a command, or the messages its command's responses
report, by their identities. -/
inductive PassListed (J : History S → S.World × Tables → Prop) (rule : IdentityRule)
    (folder : String) (plan : PassPlan) (reader : MailboxReader) :
    List ListedMessage → Option ServerReply → MailboxReader → History S → History S →
      S.World × Tables → S.World × Tables → Prop
  /-- No command was given. -/
  | unlisted {h : History S} {s : S.World × Tables} :
      plan.changedSince = none ∨ reader.numbers.messageCount = 0 →
      PassListed J rule folder plan reader [] none reader h h s s
  /-- A command was. -/
  | listed {items : RowItems} {since : Option UInt64} {answer : FetchAnswer}
      {generic : Option String} {refusal : Option ServerReply} {reader' : MailboxReader}
      {h h' : History S} {s u : S.World × Tables} :
      plan.changedSince = some since →
      Asked J reader reader' (.uidFetch .all (.listing items since)) answer h h' s u →
      genericPrefix rule folder reader'.uidValidity = .ok generic →
      (refusal = none ↔ answer.ended = none) →
        PassListed J rule folder plan reader (identified generic (listing answer.responses)) refusal
        reader' h h' s u

section PassListed

variable {rule : IdentityRule} {name : String} {plan : PassPlan} {reader reader' : MailboxReader}
  {listed : List ListedMessage} {refusal : Option ServerReply}

theorem PassListed.tables
    (hp : PassListed J rule name plan reader listed refusal reader' h h' s u) : Kept s.2 u.2 := by
  cases hp with
  | unlisted => exact .refl _
  | listed _ hasked => exact hasked.tables

theorem PassListed.steady (hs : J h s)
    (hp : PassListed J rule name plan reader listed refusal reader' h h' s u) : J h' u := by
  cases hp with
  | unlisted => exact hs
  | listed _ hasked => exact hasked.steady

theorem identified_onePerUid (generic : Option String) (responses : List Fetch) :
    OnePerUid (identified generic (listing responses)) := by
  intro m hm m' hm' huid
  obtain ⟨l, hl, he⟩ := List.mem_filterMap.mp hm
  obtain ⟨l', hl', he'⟩ := List.mem_filterMap.mp hm'
  obtain ⟨i, hi, rfl⟩ := Option.map_eq_some_iff.mp he
  obtain ⟨i', hi', rfl⟩ := Option.map_eq_some_iff.mp he'
  have hsame : l = l' := List.inj_on_of_nodup_map (listing_nodup responses) hl hl' huid
  subst hsame
  rw [hi] at hi'
  cases hi'
  rfl

theorem PassListed.onePerUid
    (hp : PassListed J rule name plan reader listed refusal reader' h h' s u) :
    OnePerUid listed := by
  cases hp with
  | unlisted => exact fun m hm => absurd hm List.not_mem_nil
  | listed => exact identified_onePerUid _ _

end PassListed

theorem identify_ok {server : ImapFolder} {listing : FolderListing} {name : String}
    {listed : List ListedMessage}
    (h : (server.identify listing name).mapError CycleEnd.ofImap = .ok listed) :
    ∃ generic, genericPrefix server.identityRule name server.reader.uidValidity = .ok generic ∧
      identified generic listing.messages = listed := by
  rw [ImapFolder.identify] at h
  cases hgeneric : genericPrefix server.identityRule name server.reader.uidValidity with
  | error e =>
    rw [hgeneric] at h
    cases h
  | ok generic =>
    rw [hgeneric] at h
    exact ⟨generic, rfl, Except.ok.inj h⟩

/-- **A pass**: its batch is stored on the evidence of what it listed. -/
theorem runStatePass_safe (hJ : Steady J G) (hs : J h s) {server : ImapFolder} {stored : FolderSync}
    {numbers : FolderNumbers} {batches : BatchWriter} {plan : PassPlan}
    {Q : StatePass → MailboxReader → History S → S.World × Tables → Prop}
    (hstore : ∀ listed refusal reader' h' s',
      PassListed J server.identityRule batches.folder.identity plan server.reader listed refusal
        reader' h h' s s' → Safe (surroundings S) G h' s'
          (batches.store (passBatch listed refusal stored numbers plan)) fun _ h'' u =>
            Q ⟨listed, refusal⟩ reader' h'' u) :
    Safe (surroundings S) G h s (runStatePass server stored numbers batches plan) fun r h' u =>
      Q r.1 r.2.reader h' u ∧ r.2.identityRule = server.identityRule := by
  refine (listPlanned_safe hJ hs).bind ?_
  rintro ⟨listing, server'⟩ tr u hplanned
  refine Safe.bind_ofExcept fun listed hlisted => ?_
  have hpass : PassListed J server.identityRule batches.folder.identity plan server.reader listed
    listing.refusal server'.reader
        h (h ++ tr) s u ∧ server'.identityRule = server.identityRule := by
    obtain ⟨generic, hgeneric, rfl⟩ := identify_ok hlisted
    rcases hplanned with ⟨hnone, rfl, rfl, hh, rfl⟩ | ⟨items, since, answer, hplan, hasked, hrule,
      hmessages, hrefusal⟩
    · rw [hh]
      exact ⟨.unlisted hnone, rfl⟩
    · rw [hrule] at hgeneric
      rw [hmessages]
      exact ⟨.listed hplan hasked hgeneric hrefusal, hrule⟩
  refine (hstore listed listing.refusal server'.reader _ u hpass.1).bind ?_
  rintro _ tr' v hq
  exact .done ⟨hq, hpass.2⟩

/-! ### What a batch leaves -/

/-- The folder is as the cycle read it. -/
structure Current (folder : FolderRef) (stored : FolderSync) (t : Tables) : Prop where
  /-- The messages it holds, with the server's flags. -/
  heldFlags : ∀ identity, stored.get identity = t.heldFlags folder identity
  /-- Its state. -/
  state : t.state? folder = some stored.state

theorem Current.kept {stored : FolderSync} {t t' : Tables} (hc : Current folder stored t)
    (hk : Kept t t') : Current folder stored t' :=
  ⟨fun identity => (hc.heldFlags identity).trans (hk.heldFlags folder identity).symm,
    (hk.toStays.state folder).trans hc.state⟩

theorem Called.current {sync : FolderSync}
    (hcalled : Called J (.readFolderSync folder) sync h h' s u) (hshape : Shape s.2) :
    Current folder sync u.2 := by
  obtain ⟨s', met, -, hkept, -, -, hcall, -⟩ := hcalled.moment
  obtain ⟨hsame, hstate, hget⟩ := readFolderSync_spec (hkept.shape hshape).toLinked hcall
  rw [hsame]
  exact ⟨hget, hstate⟩

theorem answered_of_call {before after : S.World × Tables} {op : StoreCall} {result : op.Result}
    {met : Circumstances} (hsame : after.1 = before.1)
    (hcall : call before.2 op met = (.ok result, after.2)) :
    answered S before (.store op) (.ok result) after :=
  ⟨hsame, met, hcall.symm⟩

theorem stored_of_call {t : Tables} {batch : FolderBatch} {met : Circumstances} (hshape : Shape t)
    (hstored : (call t (.storeBatch folder batch) met).1 = .ok .stored) :
    ∃ folderId, t.Opened folder folderId ∧
      (call t (.storeBatch folder batch) met).2 = t.applyBatch folderId folder.account batch := by
  rcases storeBatch_spec hshape.toLinked batch met with ⟨folderId, ho, -, hspec⟩ | ⟨-, hne⟩
  · exact ⟨folderId, ho, congrArg Prod.snd hspec⟩
  · exact absurd hstored hne

theorem applied_of_stored {before after : S.World × Tables} {batch : FolderBatch}
    (hshape : Shape before.2)
    (hreal : answered S before (.store (.storeBatch folder batch)) (.ok .stored) after) :
    ∃ folderId, before.2.Opened folder folderId ∧
      after.2 = before.2.applyBatch folderId folder.account batch := by
  obtain ⟨-, met, hcall⟩ := hreal
  obtain ⟨folderId, ho, htables⟩ := stored_of_call hshape (congrArg Prod.fst hcall).symm
  exact ⟨folderId, ho, (congrArg Prod.snd hcall).trans htables⟩

/-- The identities a pass proves gone. -/
theorem mem_removed {listed : List ListedMessage} {refusal : Option ServerReply}
    {stored : FolderSync} {numbers : FolderNumbers} {plan : PassPlan} {identity : String} :
    identity ∈ (passBatch listed refusal stored numbers plan).removed ↔
      refusal = none ∧ plan = .everything ∧ identity ∈ stored.stored.map Prod.fst ∧
        identity ∉ listed.map ListedMessage.identity := by
  rw [passBatch, listingChanges]
  by_cases hr : refusal = none
  · by_cases hp : plan = .everything
    · simp [hr, hp]
    · simp [hp]
  · have hsome : refusal.isNone = false := by cases refusal <;> simp_all
    simp [hsome, hr]

/-- **The messages after a pass**: those it proves gone are gone, and the flags it listed
are stored. -/
theorem passBatch_heldFlags {t : Tables} {folderId : ℕ} (hshape : Shape t)
    (ho : t.Opened folder folderId) (listed : List ListedMessage) (refusal : Option ServerReply)
    (stored : FolderSync) (numbers : FolderNumbers) (plan : PassPlan) (identity : String) :
    (t.applyBatch folderId folder.account (passBatch listed refusal stored numbers plan)).heldFlags
    folder identity =
      if identity ∈ (passBatch listed refusal stored numbers plan).removed then none
      else (t.heldFlags folder identity).map fun flags =>
        (latest identity (passBatch listed refusal stored numbers plan).flagStates).getD flags :=
  applyBatch_heldFlags hshape ho _ identity

/-- No two messages have one identity. -/
def OnePerIdentity (messages : List ListedMessage) : Prop :=
  ∀ m ∈ messages, ∀ m' ∈ messages, m.identity = m'.identity → m = m'

/-- A message the folder holds has the listed flags after a pass. -/
theorem passBatch_listed {listed : List ListedMessage} {refusal : Option ServerReply}
    {stored : FolderSync} {numbers : FolderNumbers} {plan : PassPlan} (hone : OnePerIdentity listed)
    {message : ListedMessage} (hm : message ∈ listed) {flags : MessageFlags}
    (hget : stored.get message.identity = some flags) :
    (latest message.identity (passBatch listed refusal stored numbers plan).flagStates).getD flags =
      message.flags := by
  cases hl : latest message.identity (passBatch listed refusal stored numbers plan).flagStates with
  | some flags' =>
    obtain ⟨m, hmem, he⟩ := List.mem_map.mp (mem_of_latest hl)
    obtain ⟨hi, rfl⟩ := Prod.mk.inj he
    rw [hone m (List.mem_filter.mp hmem).1 message hm hi]
    rfl
  | none =>
    by_contra hne
    refine latest_eq_none_iff.mp hl (List.mem_map.mpr ⟨(message.identity, message.flags), ?_, rfl⟩)
    refine List.mem_map.mpr ⟨message, List.mem_filter.mpr ⟨hm, ?_⟩, rfl⟩
    rw [hget]
    simpa using hne

/-- A message the pass did not list keeps its flags. -/
theorem passBatch_unlisted {listed : List ListedMessage} {refusal : Option ServerReply}
    {stored : FolderSync} {numbers : FolderNumbers} {plan : PassPlan} {identity : String}
    (hnot : identity ∉ listed.map ListedMessage.identity) :
    latest identity (passBatch listed refusal stored numbers plan).flagStates = none := by
  refine latest_eq_none_iff.mpr fun hmem => hnot ?_
  obtain ⟨⟨i, flags⟩, hp, rfl⟩ := List.mem_map.mp hmem
  obtain ⟨m, hm, he⟩ := List.mem_map.mp hp
  obtain ⟨rfl, -⟩ := Prod.mk.inj he
  exact List.mem_map_of_mem (List.mem_filter.mp hm).1

theorem passBatch_held {t : Tables} {folderId : ℕ} (hshape : Shape t)
    (ho : t.Opened folder folderId) {listed : List ListedMessage} {refusal : Option ServerReply}
    {stored : FolderSync} {numbers : FolderNumbers} {plan : PassPlan} {identity : String} :
    ((t.applyBatch folderId folder.account (passBatch listed refusal stored numbers plan)).heldFlags
      folder identity).isSome ↔
      (t.heldFlags folder identity).isSome ∧
      identity ∉ (passBatch listed refusal stored numbers plan).removed := by
  rw [passBatch_heldFlags hshape ho]
  split
  · rename_i hr
    simp [hr]
  · rename_i hr
    simp [hr]

theorem mem_missingMessages {listed : List ListedMessage} {stored : FolderSync}
    {message : ListedMessage} :
    message ∈ missingMessages listed stored ↔ message ∈ listed ∧
      stored.get message.identity = none := by
  rw [missingMessages, (List.perm_insertionSort _ _).mem_iff, List.mem_filter,
    Option.isNone_iff_eq_none]

/-- A pass that marks the folder synchronized misses no listed message. -/
theorem passBatch_synchronized {listed : List ListedMessage} {refusal : Option ServerReply}
    {stored : FolderSync} {numbers : FolderNumbers} {plan : PassPlan} {state : FolderState}
    (hstate : (passBatch listed refusal stored numbers plan).state = some state)
    (hsynchronized : state.synchronized = true) :
    state = { FolderState.default with synchronized := true, numbers := some numbers } ∧
    refusal = none ∧
      ∀ message ∈ listed, (stored.get message.identity).isSome := by
  rw [passBatch, passState] at hstate
  split at hstate
  · cases hstate
    cases hsynchronized
  · rename_i hmissing
    dsimp only at hstate
    split at hstate
    · rename_i hcomplete
      refine ⟨(Option.some.inj hstate).symm, Option.isNone_iff_eq_none.mp hcomplete.1,
        fun message hm => ?_⟩
      rw [Option.isSome_iff_ne_none]
      intro hnone
      have hmem := mem_missingMessages.mpr ⟨hm, hnone⟩
      have hnil : missingMessages listed stored = [] := by simpa using hmissing
      rw [hnil] at hmem
      exact List.not_mem_nil hmem
    · cases hstate

/-- **The messages after a batch of missing ones.** -/
theorem fetched_heldFlags {t : Tables} {folderId : ℕ} (hshape : Shape t)
    (ho : t.Opened folder folderId) {batch : FolderBatch}
    (honly : batch.removed = [] ∧ batch.flagStates = [] ∧ batch.state = none)
    (identity : String) :
    (t.applyBatch folderId folder.account batch).heldFlags folder identity =
      match latest identity batch.knownArrived with
      | some flags =>
        if (t.values? folder.account.asStr identity).isSome ∨
          identity ∈ batch.arrived.map Message.identity then some flags
        else none
      | none =>
        match latest identity (batch.arrived.map fun m => (m.identity, m.flags)) with
        | some flags => some flags
        | none => t.heldFlags folder identity := by
  rw [applyBatch_heldFlags hshape ho, honly.1, honly.2.1, Tables.applyRemovals, if_pos rfl]
  cases latest identity batch.knownArrived with
  | some flags => rfl
  | none =>
    cases latest identity (batch.arrived.map fun m => (m.identity, m.flags)) with
    | some flags => rfl
    | none => simp

/-- It holds what it held, what arrived, and what the account had. -/
theorem fetched_held {t : Tables} {folderId : ℕ} (hshape : Shape t) (ho : t.Opened folder folderId)
    {batch : FolderBatch}
    (honly : batch.removed = [] ∧ batch.flagStates = [] ∧ batch.state = none) {identity : String}
    (hhere : (t.heldFlags folder identity).isSome ∨ identity ∈ batch.arrived.map Message.identity ∨
      identity ∈ batch.knownArrived.map Prod.fst ∧
        (t.values? folder.account.asStr identity).isSome) :
    ((t.applyBatch folderId folder.account batch).heldFlags folder identity).isSome := by
  have harrived : identity ∈ batch.arrived.map Message.identity ↔
      (latest identity (batch.arrived.map fun m => (m.identity, m.flags))).isSome := by
    rw [latest_isSome_iff, List.map_map]
    rfl
  rw [fetched_heldFlags hshape ho honly]
  rw [← latest_isSome_iff] at hhere
  cases hk : latest identity batch.knownArrived with
  | some flags =>
    have hthere : (t.values? folder.account.asStr identity).isSome ∨
        identity ∈ batch.arrived.map Message.identity := by
      rcases hhere with hh | hh | hh
      · exact .inl (values_isSome_of_holds (Tables.heldFlags_isSome_iff.mp hh))
      · exact .inr hh
      · exact .inl hh.2
    dsimp only
    rw [if_pos hthere]
    rfl
  | none =>
    rw [hk] at hhere
    cases ha : latest identity (batch.arrived.map fun m => (m.identity, m.flags)) with
    | some flags => rfl
    | none =>
      rw [harrived, ha] at hhere
      simpa using hhere

end Mailbag.Cycle
