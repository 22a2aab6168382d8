import Mailbag.Cycle.QuietFolders

/-!
# A quiet cycle changes nothing

The mailbox of a Generic IMAP folder has not changed since the last opening of a cycle that
ended with the folder synchronized and no refusal, and no change of the folder's messages
is pending. The next cycle then finds every number, message and flag as stored.

## The model

The server is any that obeys RFC 3501 and RFC 7162 (`lawfulServer`): it tells its
mailbox's numbers, with or without a HIGHESTMODSEQ, and may refuse commands. Between two
cycles the window and other loads use the store, and leave the folder's rows as they are
(`Rests`).

## What is proved

* `synchronizeImapFolder_quiet` — a cycle of a folder that is as its mailbox is only reads.
* `quiet_cycles` — every later cycle only reads, however many there are.
-/

namespace Mailbag.Cycle

open Collections Imap Interaction Program Relation Store

variable {history : MailboxHistory} {openings : Openings history} {folder : FolderRef} {m : Mailbox}
  {t t' : Tables}

/-! ### The later cycles -/

/-- A cycle's surroundings while the user changes no message of the folder. -/
abbrev calm (S : Server ImapCommand.Reply) (folder : FolderRef) :
    Surroundings (CycleOp ImapCommand) (CycleAns ImapCommand.Reply) (S.World × Tables) :=
  { surroundings S with move := fun s u => moves S s u ∧ NoPending folder u.2 }

/-- Between two cycles of the folder: the window and other loads call the store, the folder's
rows stay as they are, and no change of its messages is pending. -/
structure Rests (folder : FolderRef) (s u : ℕ × Tables) : Prop where
  /-- Time goes on. -/
  later : s.1 ≤ u.1
  /-- The calls. -/
  calls : ∃ calls, u.2 = Store.run s.2 calls
  /-- The folder's state. -/
  state : u.2.state? folder = s.2.state? folder
  /-- Its messages. -/
  heldFlags : ∀ identity, u.2.heldFlags folder identity = s.2.heldFlags folder identity
  /-- The changes. -/
  pending : NoPending folder u.2

/-- **An event that only reads**: the cycle's one opening, a listing, or a reading of the
store, which it leaves as it is. -/
structure OnlyReads {S : Server ImapCommand.Reply} (folder : FolderRef) (h : History S)
    (e : Happened S) : Prop where
  /-- The operation. -/
  reads : (e.op = .server (.openMailbox folder.identity) ∧ h = []) ∨
    (∃ items, e.op = .server (.uidFetch .all (.listing items none))) ∨
    e.op = .store (.readFolderSync folder) ∨
      e.op = .store (.readPendingChanges folder)
  /-- The store. -/
  tables : e.after.2 = e.before.2

/-- What holds at every moment of a quiet cycle: the mailbox is the one the folder is as. -/
structure Quietly (openings : Openings history) (folder : FolderRef) (n last : ℕ)
    (s : ℕ × Tables) : Prop where
  /-- The mailbox. -/
  still : ∀ k, n ≤ k → k ≤ last → history.moment k = history.moment n
  /-- Its time. -/
  within : n ≤ s.1 ∧ s.1 ≤ last
  /-- The folder. -/
  ready : Ready folder (history.moment n) (openings.numbers (history.moment n)) s.2
  /-- The changes. -/
  pending : NoPending folder s.2

/-- The surroundings of a cycle that ends by moment `last`. -/
abbrev calmUntil (openings : Openings history) (folder : FolderRef) (last : ℕ) :
    Surroundings (CycleOp ImapCommand) (CycleAns ImapCommand.Reply) (ℕ × Tables) :=
  (calm (lawfulServer history openings) folder).within fun s => s.1 ≤ last

section Walk

variable {n last : ℕ} {h : History (lawfulServer history openings)} {s u : ℕ × Tables}

theorem Quietly.moved (hs : Quietly openings folder n last s)
    (hm : (calmUntil openings folder last).move s u) : Quietly openings folder n last u := by
  obtain ⟨⟨hmove, hpending⟩, hlast⟩ := hm
  refine ⟨hs.still, ⟨hs.within.1.trans (moves_le hmove), hlast⟩, ?_, hpending⟩
  rcases hmove with ⟨-, htables⟩ | ⟨-, hwindow⟩
  · rw [htables]
    exact hs.ready
  · exact hs.ready.kept (window_kept hwindow)

theorem Quietly.same (hs : Quietly openings folder n last s) (htables : u.2 = s.2) (hle : s.1 ≤ u.1)
    (hlast : u.1 ≤ last) : Quietly openings folder n last u := by
  refine ⟨hs.still, ⟨hs.within.1.trans hle, hlast⟩, ?_, ?_⟩
  · rw [htables]
    exact hs.ready
  · rw [htables]
    exact hs.pending

/-- The moment of an operation that only reads. -/
structure Read (openings : Openings history) (folder : FolderRef) (n last : ℕ)
    (o : CycleOp ImapCommand) (answer : CycleAns ImapCommand.Reply o) (u : ℕ × Tables) : Prop where
  /-- How it was answered. -/
  moment : ∃ before, Quietly openings folder n last before ∧
    answered (lawfulServer history openings) before o answer u ∧
    u.2 = before.2
  /-- What holds then. -/
  quietly : Quietly openings folder n last u

/-- **One operation that only reads.** -/
theorem request_quiet (hs : Quietly openings folder n last s) {o : CycleOp ImapCommand}
    (hreads : (o = .server (.openMailbox folder.identity) ∧ h = []) ∨
      (∃ items, o = .server (.uidFetch .all (.listing items none))) ∨
        o = .store (.readFolderSync folder) ∨ o = .store (.readPendingChanges folder))
    {ε : Type} :
    Safe (calmUntil openings folder last)
      (OnlyReads (S := lawfulServer history openings) folder) h s
      (Program.request o : Program (CycleOp ImapCommand) (CycleAns ImapCommand.Reply) ε _)
      fun answer _ u => Read openings folder n last o answer u := by
  refine .request fun s' answer u hm ha => ?_
  have hs' := (calmUntil openings folder last).moves_keep (fun _ _ => Quietly.moved) hs hm
  obtain ⟨hanswer, hlast⟩ := ha
  have htables : u.2 = s'.2 := by
    rcases hreads with ⟨rfl, -⟩ | ⟨items, rfl⟩ | rfl | rfl
    · exact hanswer.2
    · exact hanswer.2
    · obtain ⟨-, met, hcall⟩ := hanswer
      exact (congrArg Prod.snd hcall).trans (call_reading (.inl rfl) _ met)
    · obtain ⟨-, met, hcall⟩ := hanswer
      exact (congrArg Prod.snd hcall).trans (call_reading (.inr rfl) _ met)
  exact ⟨⟨hreads, htables⟩, ⟨s', hs', hanswer, htables⟩,
    hs'.same htables (answered_le hanswer) hlast⟩

theorem storeCall_quiet (hs : Quietly openings folder n last s) {op : StoreCall}
    (hop : op = .readFolderSync folder ∨ op = .readPendingChanges folder) :
    Safe (calmUntil openings folder last) (OnlyReads (S := lawfulServer history openings) folder) h
    s (storeCall op)
      fun result _ u => Read openings folder n last (.store op) (.ok result) u := by
  refine (request_quiet hs (.inr (.inr (hop.imp (congrArg _) (congrArg _))))).bind ?_
  intro answer tr u hread
  cases answer with
  | error failure => exact .fail
  | ok result => exact .done hread

/-- The opening returns the numbers the folder is marked with. -/
theorem openFolder_quiet (hs : Quietly openings folder n last s) :
    Safe (calmUntil openings folder last)
      (OnlyReads (S := lawfulServer history openings) folder) [] s
      (ImapFolder.openFolder .generic folder.identity) fun server _ u =>
        server = ⟨⟨folder.identity, openings.numbers (history.moment n), false⟩, .generic⟩ ∧
        Quietly openings folder n last u := by
  refine Safe.bind (R := fun reader _ u => reader =
    ⟨folder.identity, openings.numbers (history.moment n), false⟩ ∧
    Quietly openings folder n last u)
      (Safe.mapFail (Safe.bind (request_quiet hs (.inl ⟨rfl, rfl⟩)) ?_)) ?_
  · rintro opened tr u ⟨⟨before, hbefore, ⟨⟨-, hanswer⟩, -⟩, -⟩, hu⟩
    cases opened with
    | error failure => exact .fail
    | ok numbers =>
      obtain ⟨k, hk, hk', rfl⟩ := hanswer
      refine .done ⟨?_, hu⟩
      rw [hs.still k (hbefore.within.1.trans hk) (hk'.trans hu.within.2)]
  · rintro reader tr u ⟨rfl, hu⟩
    exact .done ⟨rfl, hu⟩

/-- What the folder's cycle reads of it: a folder that is as the mailbox is. -/
structure StoredAs (folder : FolderRef) (m : Mailbox) (numbers : MailboxNumbers)
    (stored : FolderSync) : Prop where
  /-- The mark. -/
  marked : stored.state.synchronized ∧ stored.state.numbers = some (folderNumbers numbers)
  /-- The messages. -/
  rows : passPlan (folderNumbers numbers) (some (folderNumbers numbers)) false = .nothing ∨
    ∀ generic, genericPrefix .generic folder.identity numbers.uidValidity = .ok generic →
      ∀ identity flags,
      stored.get identity = some flags ↔ ∃ uid ∈ m.uids, identityIn generic m uid = some identity ∧
      m.flags uid = flags

theorem Read.folderSync {stored : FolderSync}
    (hr : Read openings folder n last (.store (.readFolderSync folder)) (.ok stored) u) :
    StoredAs folder (history.moment n) (openings.numbers (history.moment n)) stored := by
  obtain ⟨⟨before, hbefore, ⟨-, met, hcall⟩, -⟩, -⟩ := hr
  obtain ⟨-, hstate, hget⟩ := readFolderSync_spec hbefore.ready.shape.toLinked hcall.symm
  obtain ⟨state, hstate', hmarked⟩ := hbefore.ready.marked
  cases hstate.symm.trans hstate'
  refine ⟨hmarked, hbefore.ready.rows.imp_right fun hmirrors generic hgeneric identity flags => ?_⟩
  rw [hget]
  exact hmirrors generic hgeneric identity flags

theorem Read.pendingChanges {changes : List PendingChange}
    (hr : Read openings folder n last (.store (.readPendingChanges folder)) (.ok changes) u) :
    changes = [] := by
  obtain ⟨⟨before, hbefore, ⟨-, met, hcall⟩, -⟩, -⟩ := hr
  have hp := perform_of_call hcall.symm
  rw [perform] at hp
  split at hp
  · rename_i folderId hid
    have hchanges := Except.ok.inj (congrArg Prod.fst hp)
    exact hchanges.symm.trans (hbefore.pending folderId hid)
  · cases hp

/-- **A listing** of the mailbox the folder is as. -/
theorem list_quiet (hs : Quietly openings folder n last s) {reader : MailboxReader}
    (hconnected : reader.needsReconnect = false) {items : RowItems} :
    Safe (calmUntil openings folder last) (OnlyReads (S := lawfulServer history openings) folder) h
    s (reader.list items none)
      fun r _ u => r.2 = reader ∧ Quietly openings folder n last u ∧
        ((reader.numbers.messageCount = 0 ∧ r.1 = ⟨[], none⟩) ∨ ∃ (a b : ℕ) (answer : FetchAnswer),
          (∀ k, a ≤ k → k ≤ b → history.moment k = history.moment n) ∧
            history.Truthful a b (.listing items none) answer.responses ∧
              (answer.ended = none → history.Answers a b .all (.listing items none)
                answer.responses) ∧
                r.1.messages = listing answer.responses ∧
                  (r.1.refusal = none → answer.ended = none)) := by
  rw [MailboxReader.list]
  split
  · rename_i hcount
    exact .done ⟨rfl, hs, .inl ⟨hcount, rfl⟩⟩
  · rw [MailboxReader.fetchListing, MailboxReader.connected, hconnected]
    refine (request_quiet hs (.inr (.inl ⟨items, rfl⟩))).bind ?_
    rintro answer tr u ⟨⟨before, hbefore, ⟨⟨-, htruthful, hanswers⟩, -⟩, -⟩, hu⟩
    have hstill : ∀ k, before.1 ≤ k → k ≤ u.1 →
        history.moment k = history.moment n := fun k hk hk' =>
      hs.still k (hbefore.within.1.trans hk) (hk'.trans hu.within.2)
    dsimp only
    split
    · rename_i hended
      exact .done ⟨rfl, hu, .inr ⟨_, _, answer, hstill, htruthful, hanswers, rfl, fun _ => hended⟩⟩
    · exact .done ⟨rfl, hu, .inr ⟨_, _, answer, hstill, htruthful, hanswers, rfl,
        fun h => by cases h⟩⟩
    · exact .done ⟨rfl, hu, .inr ⟨_, _, answer, hstill, htruthful, hanswers, rfl,
        fun h => by cases h⟩⟩
    · exact .fail

theorem passPlan_self_ne {numbers : FolderNumbers} {since : UInt64} :
    passPlan numbers (some numbers) false ≠ .changedFlags since := by
  rw [passPlan]
  cases hn : numbers.highestModseq with
  | none => simp
  | some highestModseq =>
    by_cases hknown : numbers.uidValidity.isSome ∧ numbers.uidNext.isSome <;> simp [hknown]

theorem genericPrefix_some {name : String} {uidValidity : Option UInt32} {generic : Option String}
    (h : genericPrefix .generic name uidValidity = .ok generic) :
    ∃ start, generic = some start := by
  cases uidValidity with
  | none => cases h
  | some v =>
    cases h
    exact ⟨_, rfl⟩

/-- **What a quiet pass lists**: messages the folder holds so, and each of them when a listing
of every message completed. -/
theorem listPlanned_quiet (hs : Quietly openings folder n last s) {stored : FolderSync}
    {server : ImapFolder}
    (hserver : server = ⟨⟨folder.identity, openings.numbers (history.moment n), false⟩, .generic⟩)
    (hstored : StoredAs folder (history.moment n) server.reader.numbers stored) {plan : PassPlan}
    (hplan : passPlan (folderNumbers server.reader.numbers)
      (some (folderNumbers server.reader.numbers)) false = plan) :
    Safe (calmUntil openings folder last) (OnlyReads (S := lawfulServer history openings) folder) h
    s (listPlanned server plan)
      fun r _ u => r.2 = server ∧ Quietly openings folder n last u ∧
        ∀ generic, genericPrefix .generic folder.identity server.reader.uidValidity = .ok generic →
          (∀ message ∈ identified generic r.1.messages,
            stored.get message.identity = some message.flags) ∧
            (r.1.refusal = none → plan = .everything → ∀ identity, (stored.get identity).isSome →
              identity ∈ (identified generic r.1.messages).map ListedMessage.identity) := by
  subst hserver
  cases plan with
  | nothing =>
    exact .done ⟨rfl, hs, fun generic _ => ⟨fun message hm => absurd hm List.not_mem_nil, nofun⟩⟩
  | changedFlags since => exact absurd hplan passPlan_self_ne
  | everything =>
    refine (Safe.mapFail (list_quiet hs rfl)).bind ?_
    rintro ⟨listing, reader⟩ tr u ⟨rfl, hu, hlisting⟩
    refine .done ⟨rfl, hu, fun generic hgeneric => ?_⟩
    have hrows := hstored.rows.resolve_left fun hnothing => by cases hplan.symm.trans hnothing
    have hmirrors := hrows generic hgeneric
    obtain ⟨start, rfl⟩ := genericPrefix_some hgeneric
    rcases hlisting with ⟨hcount, rfl⟩ | ⟨a, b, answer, hstill, htruthful, hanswers,
      hmessages, hended⟩
    · -- an empty mailbox
      have hcard := (openings.opens n).messageCount
      rw [hcount] at hcard
      have hnone := Finset.card_eq_zero.mp hcard.symm
      refine ⟨fun message hm => absurd hm List.not_mem_nil, fun _ _ identity hsome => ?_⟩
      obtain ⟨flags, hget⟩ := Option.isSome_iff_exists.mp hsome
      obtain ⟨uid, hmem, -⟩ := (hmirrors identity flags).mp hget
      rw [hnone] at hmem
      exact absurd hmem (Finset.notMem_empty uid)
    · dsimp only
      rw [hmessages]
      refine ⟨fun message hm => ?_, fun hrefusal _ identity hsome => ?_⟩
      · obtain ⟨hmem, hid, hflags⟩ := listed_of_truthful htruthful hstill hm
        exact (hmirrors _ _).mpr ⟨message.uid, hmem, hid, hflags.symm⟩
      · obtain ⟨flags, hget⟩ := Option.isSome_iff_exists.mp hsome
        obtain ⟨uid, hmem, hid, -⟩ := (hmirrors identity flags).mp hget
        obtain ⟨message, hm, rfl, hid'⟩ :=
          listed_of_answers start (hanswers (hended hrefusal)) hstill hmem
        exact List.mem_map.mpr ⟨message, hm, Option.some.inj (hid'.symm.trans hid)⟩

/-- **A quiet pass** stores nothing and misses no message. -/
theorem runStatePass_quiet (hs : Quietly openings folder n last s) {stored : FolderSync}
    {server : ImapFolder}
    (hserver : server = ⟨⟨folder.identity, openings.numbers (history.moment n), false⟩, .generic⟩)
    (hstored : StoredAs folder (history.moment n) server.reader.numbers stored) {plan : PassPlan}
    (hplan : passPlan (folderNumbers server.reader.numbers)
      (some (folderNumbers server.reader.numbers)) false = plan)
    {batches : BatchWriter} (hfolder : batches.folder = folder) :
    Safe (calmUntil openings folder last)
      (OnlyReads (S := lawfulServer history openings) folder) h s
      (runStatePass server stored (folderNumbers server.reader.numbers) batches plan) fun r _ u =>
        r.2 = server ∧ Quietly openings folder n last u ∧
        missingMessages r.1.listed stored = [] := by
  subst hfolder
  refine (listPlanned_quiet hs hserver hstored hplan).bind ?_
  rintro ⟨listing, server'⟩ tr u ⟨rfl, hu, hlisting⟩
  refine Safe.bind_ofExcept fun listed hlisted => ?_
  obtain ⟨generic, hgeneric, rfl⟩ := identify_ok hlisted
  have hrule : server'.identityRule = .generic := congrArg ImapFolder.identityRule hserver
  rw [hrule] at hgeneric
  obtain ⟨hheld, hall⟩ := hlisting generic hgeneric
  obtain ⟨hdefault, hmissing⟩ := passBatch_quiet hstored.marked hheld hall
  have hstore : (batches.store
    (passBatch (identified generic listing.messages) listing.refusal stored
      (folderNumbers server'.reader.numbers) plan) : ImapCycle Unit) = .done () := by
    rw [hdefault, BatchWriter.store, if_pos rfl]
  refine Safe.bind (R := fun _ _ u => Quietly openings batches.folder n last u) ?_ fun _ _ _ hu =>
    .done ⟨rfl, hu, hmissing⟩
  exact hstore ▸ .done hu

theorem endChanges_nil (listed : List ListedMessage) (batches : BatchWriter) :
    endChangesTheListingShows listed [] batches = .done () := by
  simp [endChangesTheListingShows, flagValues, settleAll, shownChanges]

theorem commandsToSend_nil (listed : List ListedMessage) (sent : SentChanges) :
    commandsToSend listed sent [] = [] := by
  simp [commandsToSend, messagesToSend, flagValues, List.toChunks]

/-- **A quiet cycle only reads.** -/
theorem synchronizeImapFolder_quiet (rules : ContentRules) (recentLimit : ℤ) {batches : BatchWriter}
    (hs : Quietly openings batches.folder n last s) :
    Safe (calmUntil openings batches.folder last)
    (OnlyReads (S := lawfulServer history openings) batches.folder) [] s
      (synchronizeImapFolder rules .generic recentLimit batches) fun _ _ _ => True := by
  refine (openFolder_quiet hs).bind ?_
  rintro server tr u ⟨hserver, hu⟩
  refine (storeCall_quiet hu (.inl rfl)).bind ?_
  intro stored tr₁ u₁ hread₁
  have hstored := hread₁.folderSync
  rw [show openings.numbers (history.moment n) = server.reader.numbers by rw [hserver]] at hstored
  refine (storeCall_quiet hread₁.quietly (.inr rfl)).bind ?_
  intro pending tr₂ u₂ hread₂
  obtain rfl := hread₂.pendingChanges
  have hreference : (if stored.state.synchronized then stored.state.numbers else none) =
      some (folderNumbers server.reader.numbers) := by
        rw [if_pos hstored.marked.1, hstored.marked.2]
  dsimp only
  rw [hreference]
  refine (runStatePass_quiet hread₂.quietly hserver hstored rfl rfl).bind ?_
  rintro ⟨first, server₁⟩ tr₃ u₃ ⟨rfl, hu₃, hmissing⟩
  rw [endChanges_nil]
  refine Safe.bind (R := fun _ _ u => Quietly openings batches.folder n last u) (.done hu₃) ?_
  intro _ tr₄ u₄ hu₄
  refine Safe.bind (R := fun r _ u => r.2 = [] ∧ Quietly openings batches.folder n last u)
    ((storeCall_quiet hu₄ (.inr rfl)).bind fun changes tr u hread => ?_) ?_
  · obtain rfl := hread.pendingChanges
    rw [commandsToSend_nil]
    exact .done ⟨rfl, hread.quietly⟩
  rintro ⟨reader, sent⟩ tr₅ u₅ ⟨rfl, hu₅⟩
  dsimp only
  rw [hmissing]
  exact .done trivial

end Walk

/-- A run within the calm keeps the folder as the mailbox is, however it ends. -/
theorem Quietly.run {n last : ℕ} {s u : ℕ × Tables} (hs : Quietly openings folder n last s)
    {α : Type} {p : ImapCycle α} {tr : History (lawfulServer history openings)}
    {r : Outcome CycleEnd α} (hrun : Run (calmUntil openings folder last) p s tr r u)
    (hreads : Every (OnlyReads folder) tr) : Quietly openings folder n last u := by
  refine (hrun.keeps (fun _ _ => Quietly.moved) (fun e he hbefore => ?_) hs).1
  obtain ⟨hanswer, hlast⟩ := hrun.answered e he
  obtain ⟨pre, post, rfl⟩ := List.append_of_mem he
  exact hbefore.same (hreads pre e post rfl).tables (answered_le hanswer) hlast

/-- **A quiet cycle changes nothing**: after a cycle that ended with the folder synchronized and
no refusal, however many cycles follow while the mailbox stays as its last opening saw it
and no change of the folder's messages is pending, each of them only reads. -/
theorem quiet_cycles (rules : ContentRules) (recentLimit : ℤ) (batches : BatchWriter)
    (calls : List (StoreCall × Circumstances)) (w : ℕ)
    {tr : History (lawfulServer history openings)} {u v : ℕ × Tables}
    (hrun : Run (surroundings (lawfulServer history openings))
      (synchronizeImapFolder rules .generic recentLimit batches) (w, Store.run .empty calls) tr
        (.returned (.stored none)) u)
    (hsynchronized : (u.2.state? batches.folder).any FolderState.synchronized)
    {runs : List (History (lawfulServer history openings))}
    (hcycles : Chain (calm (lawfulServer history openings) batches.folder) (fun p => ∃ recentLimit,
      p = synchronizeImapFolder rules .generic recentLimit batches) (Rests batches.folder) u runs v)
    (hunchanged : UnchangedSince openings tr v.1) :
    ∀ run ∈ runs, Every (OnlyReads batches.folder) run := by
  have hshape : Shape (Store.run .empty calls) := run_shape shape_empty calls
  obtain ⟨hchain, hu⟩ := hcycles.within (I := fun s => s.1 ≤ v.1)
    (fun _ _ hr hle => hr.later.trans hle)
    (fun _ _ hm hle => (moves_le hm.1).trans hle)
      (fun _ _ _ _ ha hle => (answered_le ha).trans hle) le_rfl
  obtain ⟨numbers, hn, hsettled⟩ :=
    ((synchronizeImapFolder_settles rules recentLimit batches hshape) _ _ _ hrun).2 _ rfl rfl
    hsynchronized
  obtain ⟨n, hnu, hstill, rfl, hready⟩ :=
    ready_of_settled hrun hu hunchanged (shape_of_run hrun hshape).1 hn hsettled
  refine (hchain.invariant (I := fun s => n ≤ s.1 ∧ Ready batches.folder (history.moment n)
    (openings.numbers (history.moment n)) s.2)
    (C := Every (OnlyReads batches.folder)) ?_ ⟨hnu, hready⟩).1
  rintro p t t' tr' r u' ⟨hnt, hreadyt⟩ ⟨hrests, hlast⟩ ⟨limit, rfl⟩ hrun'
  have hshape' : Shape t'.2 := by
    obtain ⟨calls', hcalls'⟩ := hrests.calls
    rw [hcalls']
    exact run_shape hreadyt.shape calls'
  have hquiet : Quietly openings batches.folder n v.1 t' :=
    ⟨hstill, ⟨hnt.trans hrests.later, hlast⟩, hreadyt.same hshape' hrests.state hrests.heldFlags,
      hrests.pending⟩
  have hreads := ((synchronizeImapFolder_quiet rules limit hquiet) _ _ _ hrun').1
  have hafter := hquiet.run hrun' hreads
  exact ⟨hreads, hafter.within.1, hafter.ready⟩

/-! ### A mailbox that nobody changes -/

theorem oneMessage_below : ∀ uid ∈ ({1} : Finset UInt32), uid.toNat < 2 := by simp

theorem oneMessage_highest : ∀ uid ∈ ({1} : Finset UInt32), 1 ≤ 1 := by simp

theorem oneMessage_once : ∀ uid ∈ ({1} : Finset UInt32), ∀ uid' ∈ ({1} : Finset UInt32),
    (none : Option UInt64).isSome → (none : Option UInt64) = none → uid = uid' := by simp

/-- A mailbox of one read message. -/
def oneMessage : Mailbox where
  uidValidity := 1
  uidNext := 2
  uids := {1}
  flags _ := ⟨true, false⟩
  gmailMsgId _ := none
  modseq _ := 1
  highestModseq := 1
  below := oneMessage_below
  highest := oneMessage_highest
  once := oneMessage_once

/-- It stays as it is. -/
def unchanging : MailboxHistory := ⟨fun _ => oneMessage, fun _ => .inr ⟨rfl, Mailbox.Keeps.refl _⟩⟩

theorem oneMessage_opens : oneMessage.Opens ⟨some 1, 1, some 2, none⟩ :=
  ⟨fun _ h => Option.some.inj h, rfl, fun _ h => by cases h; rfl, nofun⟩

/-- Its server keeps no mod-sequences. -/
def withoutModseq : Openings unchanging :=
  ⟨fun _ => ⟨some 1, 1, some 2, none⟩, fun _ => oneMessage_opens⟩

/-- It lists its message, and breaks off any other command. -/
def listing1 (s : ℕ × Tables) :
    (o : CycleOp ImapCommand) → CycleAns ImapCommand.Reply o × (ℕ × Tables)
  | .store op => ((call s.2 op ⟨false, none⟩).1, (s.1, (call s.2 op ⟨false, none⟩).2))
  | .server (.openMailbox _) => (.ok ⟨some 1, 1, some 2, none⟩, s)
  | .server (.select _) => (.ok ⟨some 1, 1, some 2, none⟩, s)
  | .server (.uidFetch _ (.listing ..)) => (⟨[flagged 1 true], none⟩, s)
  | .server (.uidFetch ..) => (⟨[], some .broken⟩, s)
  | .server (.uidStore ..) => (⟨[], some .broken⟩, s)

theorem answered_listing1 (s : ℕ × Tables) (o : CycleOp ImapCommand) :
    answered (lawfulServer unchanging withoutModseq) s o (listing1 s o).1 (listing1 s o).2 := by
  have hnothing : ∀ items a b, unchanging.Truthful a b items [] := by
    rintro items a b - uid ⟨fetch, hf, -⟩
    cases hf
  have hnames : ∀ uid, Names [flagged 1 true] uid ↔ uid = 1 := by
    intro uid
    simp [Names, flagged, eq_comm]
  have hmem : 1 ∈ oneMessage.uids := by decide
  have hflags : lastFlags [flagged 1 true] 1 = some (oneMessage.flags 1) := by decide
  have hid : lastGmailId [flagged 1 true] 1 = oneMessage.gmailMsgId 1 := by decide
  cases o with
  | store op => exact ⟨rfl, ⟨false, none⟩, rfl⟩
  | server c =>
    cases c with
    | openMailbox mailbox => exact ⟨⟨le_rfl, s.1, le_rfl, le_rfl, rfl⟩, rfl⟩
    | select mailbox => exact ⟨⟨le_rfl, s.1, le_rfl, le_rfl, rfl⟩, rfl⟩
    | uidFetch set items =>
      cases items with
      | listing items since =>
        refine ⟨⟨le_rfl, fun _ uid hu => ?_, fun _ => ⟨fun _ uid hu => ?_, fun uid _ hthere => ?_⟩⟩,
          rfl⟩
        · obtain rfl := (hnames uid).mp hu
          exact ⟨s.1, le_rfl, le_rfl, hmem, hflags⟩
        · obtain rfl := (hnames uid).mp hu
          exact ⟨s.1, le_rfl, le_rfl, hmem, hflags, fun _ => hid⟩
        · have hmem : uid ∈ oneMessage.uids := hthere s.1 le_rfl le_rfl
          exact (hnames uid).mpr (by simpa [oneMessage] using hmem)
      | rows => exact ⟨⟨le_rfl, hnothing _ _ _, fun h => by cases h⟩, rfl⟩
      | structure' => exact ⟨⟨le_rfl, hnothing _ _ _, fun h => by cases h⟩, rfl⟩
      | sections => exact ⟨⟨le_rfl, hnothing _ _ _, fun h => by cases h⟩, rfl⟩
    | uidStore => exact ⟨⟨le_rfl, trivial⟩, rfl⟩

/-- A cycle of the inbox against it, which lists the message. -/
def firstQuietRun :
    History (lawfulServer unchanging withoutModseq) × Outcome CycleEnd LoadResult × (ℕ × Tables) :=
  exec listing1 (synchronizeImapFolder noContent .generic 0 ⟨inbox⟩)
    (0, Store.run .empty (holding "imap:INBOX/1/1"))

/-- The next cycle. -/
def nextQuietRun :
    History (lawfulServer unchanging withoutModseq) × Outcome CycleEnd LoadResult × (ℕ × Tables) :=
  exec listing1 (synchronizeImapFolder noContent .generic 0 ⟨inbox⟩) firstQuietRun.2.2

theorem firstQuietRun_ends : firstQuietRun.2.1 = .returned (.stored none) := by rfl

theorem quiet_cycles_unchanging :
    nextQuietRun.1.length = 5 ∧ Every (OnlyReads inbox) nextQuietRun.1 := by
  have hfirst : Run (surroundings (lawfulServer unchanging withoutModseq))
    (synchronizeImapFolder noContent .generic 0 ⟨inbox⟩)
      (0, Store.run .empty (holding "imap:INBOX/1/1")) firstQuietRun.1 (.returned (.stored none))
        firstQuietRun.2.2 := by
    rw [← firstQuietRun_ends]
    exact run_exec answered_listing1 _ _
  have hpending : NoPending inbox firstQuietRun.2.2.2 := by
    intro folderId hid
    have hsome : firstQuietRun.2.2.2.storedFolderId inbox = some 1 := by decide
    cases hsome.symm.trans hid
    decide
  have hnext : Chain (calm (lawfulServer unchanging withoutModseq) inbox)
      (fun p => ∃ recentLimit, p = synchronizeImapFolder noContent .generic recentLimit ⟨inbox⟩)
        (Rests inbox)
      firstQuietRun.2.2 ([] ++ [nextQuietRun.1]) nextQuietRun.2.2 :=
    .run .nil ⟨le_rfl, ⟨[], rfl⟩, rfl, fun _ => rfl, hpending⟩ ⟨0, rfl⟩
      (run_exec answered_listing1 _ _)
  have hquiet : ∀ e ∈ firstQuietRun.1.tail, opening? e = none := by
    have hall : firstQuietRun.1.tail.all (fun e => (opening? e).isNone) = true := by decide
    exact fun e he => Option.isNone_iff_eq_none.mp (List.all_eq_true.mp hall e he)
  refine ⟨by decide, ?_⟩
  exact quiet_cycles noContent 0 ⟨inbox⟩ (holding "imap:INBOX/1/1") 0 hfirst (by decide) hnext
    ⟨[], _, _, 0, rfl, rfl, hquiet, le_rfl, le_rfl, fun _ _ _ => rfl⟩ _ List.mem_cons_self

end Mailbag.Cycle
