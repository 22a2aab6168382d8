import Mailbag.Cycle.ServerReports

/-!
# The runs of an IMAP cycle

What holds of every run of `synchronizeImapFolder`, for every stored folder and whatever the
server answers, and where a run shows that no more holds.

## What is proved

* `removals_reported` — a removed message is one a completed listing of every message did
  not report, or an opening that counted none; `removal_without_identifier` is a run that
  removes a message while its listing names one without an identifier.
* `synchronized_complete` — a folder marked synchronized holds every message a listing of the
  run reported, unless a later one reported it gone or a later command left it unanswered;
  `synchronized_without_identifier` is a run in which it lacks a message listed without an
  identifier.
* `settled_as_reported` — a pending change ends by FLAGS of the first listing or of the
  reading right after its command, in every run whose answers carry FLAGS (`FlagsCarried`);
  `settled_without_flags` is a run in which a response without FLAGS ends one.
-/

namespace Mailbag.Cycle

open Collections Imap Interaction Program Relation Store

variable {S : Server ImapCommand.Reply} {rule : IdentityRule} {folder : FolderRef}

theorem run_lawful {rules : ContentRules} {rule : IdentityRule} {recentLimit : ℤ}
    {batches : BatchWriter} {calls : List (StoreCall × Circumstances)} {w : S.World}
    {tr : History S} {r : Outcome CycleEnd LoadResult} {u : S.World × Tables}
    (hrun : Run (surroundings S) (synchronizeImapFolder rules rule recentLimit batches)
      (w, Store.run .empty calls) tr r u) : Every (Lawful rule batches.folder) tr :=
  (synchronizeImapFolder_lawful rules rule recentLimit batches (run_shape shape_empty calls) tr r
    u hrun).1

/-! ### Removals -/

/-- **Removal only with proof**: in every run of a cycle, from every stored folder and whatever
the server answers, a batch removes only messages that the run was told are gone. -/
theorem removals_reported (rules : ContentRules) (rule : IdentityRule) (recentLimit : ℤ)
    (batches : BatchWriter) (calls : List (StoreCall × Circumstances)) (w : S.World)
    {tr : History S} {r : Outcome CycleEnd LoadResult} {u : S.World × Tables}
    (hrun : Run (surroundings S) (synchronizeImapFolder rules rule recentLimit batches)
      (w, Store.run .empty calls) tr r u) : Every (RemovesReportedGone rule batches.folder) tr :=
  fun pre e post heq => (run_lawful hrun pre e post heq).removes

/-! ### Runs against a server that repeats itself -/

/-- An account and its inbox. -/
def inbox : FolderRef := ⟨⟨"a", by decide⟩, "INBOX"⟩

/-- A store whose inbox holds one read message. -/
def holding (identity : String) : List (StoreCall × Circumstances) :=
  [(.replaceFolders inbox.account [⟨"INBOX", "INBOX", none, none, true⟩], ⟨false, none⟩),
    (.storeBatch inbox { FolderBatch.default with
      arrived := [⟨identity, ⟨none, none, none⟩, none, true, false, .notDownloaded, ""⟩] },
        ⟨false, none⟩)]

/-- Content rules that find nothing to read. -/
def noContent : ContentRules where
  selectTextParts _ := .parts []
  selectPreviewPart _ := none
  decodeMessageText _ := .ok ""
  previewOfPiece _ _ _ := ""
  previewOfText _ := ""
  decodeDisplayFields _ := ⟨none, none, none⟩

/-- A mailbox of one message, whose every FETCH command is answered by `fetch`. -/
def answering (fetch : Fetch) : (command : ImapCommand) → command.Reply
  | .openMailbox _ => .ok ⟨some 1, 1, some 2, none⟩
  | .select _ => .ok ⟨some 1, 1, some 2, none⟩
  | .uidFetch .. => ⟨[fetch], none⟩
  | .uidStore .. => ⟨[], none⟩

/-- The cycle of the inbox against it. -/
def inboxRun (rule : IdentityRule) (fetch : Fetch) (calls : List (StoreCall × Circumstances)) :
    History (anyServer ImapCommand.Reply) × Outcome CycleEnd LoadResult × (Unit × Tables) :=
  exec (scripted (answering fetch)) (synchronizeImapFolder noContent rule 0 ⟨inbox⟩)
    ((), Store.run .empty calls)

theorem inboxRun_run (rule : IdentityRule) (fetch : Fetch)
    (calls : List (StoreCall × Circumstances)) :
    Run (surroundings (anyServer ImapCommand.Reply))
    (synchronizeImapFolder noContent rule 0 ⟨inbox⟩)
      ((), Store.run .empty calls) (inboxRun rule fetch calls).1 (inboxRun rule fetch calls).2.1
      (inboxRun rule fetch calls).2.2 :=
  run_scripted (answering fetch) _ _

theorem inboxRun_fetch {rule : IdentityRule} {fetch : Fetch}
    {calls : List (StoreCall × Circumstances)} {set : UidSet} {items : FetchItems}
    {before after : Unit × Tables} {answer : FetchAnswer}
    (he : (⟨before, .server (.uidFetch set items), answer, after⟩ : Happened
      (anyServer ImapCommand.Reply)) ∈ (inboxRun rule fetch calls).1) : answer = ⟨[fetch], none⟩ :=
  (exec_answered he).1

theorem inboxRun_lists {rule : IdentityRule} {fetch : Fetch}
    {calls : List (StoreCall × Circumstances)} {l : Happened (anyServer ImapCommand.Reply)}
    {since : Option UInt64} {answer : FetchAnswer} (hmem : l ∈ (inboxRun rule fetch calls).1)
    (hl : Lists l since answer) : answer = ⟨[fetch], none⟩ := by
  obtain ⟨before, items, after, rfl⟩ := hl
  exact inboxRun_fetch hmem

theorem inboxRun_opening {rule : IdentityRule} {fetch : Fetch}
    {calls : List (StoreCall × Circumstances)} {g : Happened (anyServer ImapCommand.Reply)}
    {numbers : MailboxNumbers} (hmem : g ∈ (inboxRun rule fetch calls).1)
    (hg : opening? g = some numbers) : numbers.messageCount = 1 := by
  obtain ⟨before, op, answer, after⟩ := g
  have hans := (exec_answered hmem).1
  cases op with
  | store op => cases hg
  | server c =>
    cases c with
    | openMailbox mailbox =>
      cases hans
      cases hg
      rfl
    | select mailbox =>
      cases hans
      cases hg
      rfl
    | uidFetch => cases hg
    | uidStore => cases hg

/-- A response that names message 1, of which it carries the flags, and no identifier. -/
def unidentified : Fetch := ⟨some 1, some ⟨false, false⟩, none, none, [], none⟩

/-- The event stores a batch that removes a message. -/
def storesRemoval (identity : String) (e : Happened (anyServer ImapCommand.Reply)) : Bool :=
  match e.op with
  | .store (.storeBatch folder batch) => folder = inbox ∧ identity ∈ batch.removed
  | _ => false

theorem inboxRun_removes :
    (inboxRun .gmail unidentified (holding "x")).1.any (storesRemoval "x") = true := by decide

theorem removals_reported_unidentified :
    (inboxRun .gmail unidentified (holding "x")).1.any (storesRemoval "x") = true ∧
      Every (RemovesReportedGone .gmail inbox) (inboxRun .gmail unidentified (holding "x")).1 :=
  ⟨inboxRun_removes, removals_reported noContent .gmail 0 ⟨inbox⟩ (holding "x") ()
    (inboxRun_run _ _ _)⟩

/-- A batch removes only what a listing did not report that identified every message it
named. -/
def RemovesIdentifiedGone (rule : IdentityRule) (folder : FolderRef) (h : History S)
    (e : Happened S) : Prop :=
  ∀ batch, e.op = .store (.storeBatch folder batch) → ∀ identity ∈ batch.removed,
    ∃ h₁ g h₂, h = h₁ ++ g :: h₂ ∧ ReportedGone rule folder identity h₁ g ∧
      ∀ since answer uid, Lists g since answer → Names answer.responses uid →
        ∃ identity', Reports rule folder h₁ answer uid identity'

theorem not_reports_unidentified {h : History S} {uid : UInt32} {identity : String} :
    ¬Reports .gmail folder h ⟨[unidentified], none⟩ uid identity := by
  rintro ⟨-, generic, ⟨numbers, -, hgeneric⟩, hi⟩
  cases hgeneric
  have hnone : lastGmailId [unidentified] uid = none := rfl
  rw [hnone] at hi
  cases hi

/-- **A run removes a message while its listing names one without an identifier**: Gmail lists
message 1 without X-GM-MSGID, and the stored message leaves. -/
theorem removal_without_identifier :
    Run (surroundings (anyServer ImapCommand.Reply))
    (synchronizeImapFolder noContent .gmail 0 ⟨inbox⟩)
        ((), Store.run .empty (holding "x")) (inboxRun .gmail unidentified (holding "x")).1
        (inboxRun .gmail unidentified (holding "x")).2.1
        (inboxRun .gmail unidentified (holding "x")).2.2 ∧
      ¬Every (RemovesIdentifiedGone .gmail inbox)
      (inboxRun .gmail unidentified (holding "x")).1 := by
  refine ⟨inboxRun_run _ _ _, fun hall => ?_⟩
  obtain ⟨e, hmem, he⟩ := List.any_eq_true.mp inboxRun_removes
  obtain ⟨pre, post, heq⟩ := List.append_of_mem hmem
  rw [storesRemoval] at he
  split at he
  · rename_i removing batch hop
    obtain ⟨rfl, hr⟩ := of_decide_eq_true he
    obtain ⟨h₁, g, h₂, rfl, hgone, hidentified⟩ := hall pre e post heq batch hop "x" hr
    have hg : g ∈ (inboxRun .gmail unidentified (holding "x")).1 := by
      rw [heq]
      simp
    cases hgone with
    | listing hl hended hnot =>
      obtain rfl := inboxRun_lists hg hl
      obtain ⟨identity, hreports⟩ := hidentified _ _ 1 hl ⟨unidentified, List.mem_cons_self, rfl⟩
      exact not_reports_unidentified hreports
    | opening ho hcount => cases (inboxRun_opening hg ho).symm.trans hcount
  · cases he

/-! ### Completed folders -/

/-- **Completed means no listed message is lost**: in every run of a cycle, from every stored
folder and whatever the server answers, a batch marks the folder synchronized only when
the folder then holds every message a listing of the run reported, but for those a later
completed listing no longer reports and those a later command was not answered for. -/
theorem synchronized_complete (rules : ContentRules) (rule : IdentityRule) (recentLimit : ℤ)
    (batches : BatchWriter) (calls : List (StoreCall × Circumstances)) (w : S.World)
    {tr : History S} {r : Outcome CycleEnd LoadResult} {u : S.World × Tables}
    (hrun : Run (surroundings S) (synchronizeImapFolder rules rule recentLimit batches)
      (w, Store.run .empty calls) tr r u) : Every (MarksComplete rule batches.folder) tr :=
  fun pre e post heq => (run_lawful hrun pre e post heq).marks

/-- A response that names message 1 and carries its flags and header lines. -/
def withHeader : Fetch := ⟨some 1, some ⟨false, false⟩, none, none, [(.messageHeader, [])], none⟩

/-- A store whose inbox holds nothing. -/
def emptyInbox : List (StoreCall × Circumstances) :=
  [(.replaceFolders inbox.account [⟨"INBOX", "INBOX", none, none, true⟩], ⟨false, none⟩)]

/-- The event is a listing. -/
def isListing (e : Happened (anyServer ImapCommand.Reply)) : Bool :=
  match e.op with
  | .server (.uidFetch .all (.listing ..)) => true
  | _ => false

/-- The event stores a batch that marks the inbox synchronized. -/
def marksInbox : Happened (anyServer ImapCommand.Reply) → Bool
  | ⟨_, .store (.storeBatch folder batch), .ok .stored, _⟩ =>
    folder = inbox ∧ batch.state.any FolderState.synchronized
  | _ => false

theorem lists_of_isListing {e : Happened (anyServer ImapCommand.Reply)} (he : isListing e = true) :
    ∃ since answer, Lists e since answer := by
  obtain ⟨before, op, answer, after⟩ := e
  rw [isListing] at he
  split at he
  · rename_i items since hop
    cases hop
    exact ⟨since, answer, before, items, after, rfl⟩
  · cases he

theorem marks_of_marksInbox {e : Happened (anyServer ImapCommand.Reply)}
    (he : marksInbox e = true) :
    ∃ before batch state after, e = ⟨before, .store (.storeBatch inbox batch), .ok .stored, after⟩ ∧
      batch.state = some state ∧ state.synchronized = true := by
  rw [marksInbox.eq_def] at he
  split at he
  · rename_i before folder batch after
    obtain ⟨rfl, hstate⟩ := of_decide_eq_true he
    cases hs : batch.state with
    | none =>
      rw [hs] at hstate
      cases hstate
    | some state =>
      rw [hs] at hstate
      exact ⟨before, batch, state, after, rfl, hs, hstate⟩
  · cases he

/-- The fourth event of the run lists message 1, which the inbox lacks then, and its last one
marks the inbox, which then holds it. -/
theorem inboxRun_fetches :
    (inboxRun .generic withHeader emptyInbox).1[3]?.any
        (fun e => isListing e && (e.after.2.heldFlags inbox "imap:INBOX/1/1").isNone) = true ∧
      numbersAt ((inboxRun .generic withHeader emptyInbox).1.take 3) =
      some ⟨some 1, 1, some 2, none⟩ ∧
        (inboxRun .generic withHeader emptyInbox).1[13]?.any
          (fun e => marksInbox e && (e.after.2.heldFlags inbox "imap:INBOX/1/1").isSome) =
          true := by
  decide

theorem synchronized_complete_fetched :
    (∃ l since answer, (inboxRun .generic withHeader emptyInbox).1[3]? = some l ∧
      Lists l since answer ∧
        Reports .generic inbox ((inboxRun .generic withHeader emptyInbox).1.take 3) answer 1
        "imap:INBOX/1/1" ∧
          l.after.2.heldFlags inbox "imap:INBOX/1/1" = none) ∧
      (inboxRun .generic withHeader emptyInbox).1[13]?.any
          (fun e => marksInbox e && (e.after.2.heldFlags inbox "imap:INBOX/1/1").isSome) = true ∧
        Every (MarksComplete .generic inbox) (inboxRun .generic withHeader emptyInbox).1 := by
  obtain ⟨hlists, hnumbers, hmarks⟩ := inboxRun_fetches
  refine ⟨?_, hmarks, synchronized_complete noContent .generic 0 ⟨inbox⟩ emptyInbox ()
    (inboxRun_run _ _ _)⟩
  obtain ⟨l, hl, hlacks⟩ := (Option.any_eq_true _ _).mp hlists
  rw [Bool.and_eq_true, Option.isNone_iff_eq_none] at hlacks
  obtain ⟨since, answer, hlisting⟩ := lists_of_isListing hlacks.1
  obtain rfl := inboxRun_lists (List.mem_of_getElem? hl) hlisting
  exact ⟨l, since, _, hl, hlisting,
    ⟨⟨withHeader, List.mem_cons_self, rfl⟩, some "imap:INBOX/1/",
      ⟨_, hnumbers, by decide⟩, by decide⟩, hlacks.2⟩

/-- The fifth event of the run marks the inbox, after a listing. -/
theorem inboxRun_marks : (inboxRun .gmail unidentified (holding "x")).1[4]?.any marksInbox = true ∧
    ((inboxRun .gmail unidentified (holding "x")).1.take 4).any isListing = true := by decide

/-- A batch marks the folder synchronized only when it then holds every message a listing
named, but for those a later completed listing does not name. -/
def MarksAllNamed (rule : IdentityRule) (folder : FolderRef) (h : History S) (e : Happened S) :
    Prop :=
  ∀ before batch state after, e = ⟨before, .store (.storeBatch folder batch), .ok .stored, after⟩ →
    batch.state = some state → state.synchronized = true →
      ∀ h₁ l h₂ since answer uid, h = h₁ ++ l :: h₂ → Lists l since answer →
        Names answer.responses uid →
        (∃ identity, Reports rule folder h₁ answer uid identity ∧
          (after.2.heldFlags folder identity).isSome) ∨
          ∃ h₃ g h₄ answer', h₂ = h₃ ++ g :: h₄ ∧ Lists g none answer' ∧ answer'.ended = none ∧
            ¬Names answer'.responses uid

/-- **A run marks the folder synchronized without a message it listed**: Gmail lists message 1
without X-GM-MSGID, and the folder is completed without it. -/
theorem synchronized_without_identifier :
    Run (surroundings (anyServer ImapCommand.Reply))
    (synchronizeImapFolder noContent .gmail 0 ⟨inbox⟩)
        ((), Store.run .empty (holding "x")) (inboxRun .gmail unidentified (holding "x")).1
        (inboxRun .gmail unidentified (holding "x")).2.1
        (inboxRun .gmail unidentified (holding "x")).2.2 ∧
      ¬Every (MarksAllNamed .gmail inbox) (inboxRun .gmail unidentified (holding "x")).1 := by
  refine ⟨inboxRun_run _ _ _, fun hall => ?_⟩
  obtain ⟨hmarks, hlists⟩ := inboxRun_marks
  cases he : (inboxRun .gmail unidentified (holding "x")).1[4]? with
  | none =>
    rw [he] at hmarks
    cases hmarks
  | some e =>
    rw [he, Option.any_some] at hmarks
    obtain ⟨before, batch, state, after, rfl, hstate, hsynchronized⟩ := marks_of_marksInbox hmarks
    obtain ⟨l, hmem, hl⟩ := List.any_eq_true.mp hlists
    obtain ⟨h₁, h₂, heq⟩ := List.append_of_mem hmem
    have hran : ∀ g ∈ h₁ ++ l :: h₂, g ∈ (inboxRun .gmail unidentified (holding "x")).1 :=
      fun g hg => List.mem_of_mem_take (heq ▸ hg)
    obtain ⟨since, answer, hl⟩ := lists_of_isListing hl
    obtain rfl := inboxRun_lists (hran l (by simp)) hl
    have hnames : Names [unidentified] 1 := ⟨unidentified, List.mem_cons_self, rfl⟩
    rcases hall.at he before batch state after rfl hstate hsynchronized h₁ l h₂ since _ 1 heq hl
      hnames with
      ⟨identity, hreports, -⟩ | ⟨h₃, g, h₄, answer', rfl, hg, -, hnot⟩
    · exact not_reports_unidentified hreports
    · obtain rfl := inboxRun_lists (hran g (by simp)) hg
      exact hnot hnames

/-! ### Pending changes -/

/-- The answers carry FLAGS where a change that clears a flag could end by them: in the first
listing, of the message of such a change pending before it, and in the reading right after
a command that clears a flag, of the messages it named. -/
structure FlagsCarried (rule : IdentityRule) (folder : FolderRef) (h : History S)
    (e : Happened S) : Prop where
  /-- The first listing. -/
  listing : ∀ since answer change message, (∀ e' ∈ h, Quiet e') → Lists e since answer →
    PendingAt folder h change →
    change.wanted = false → FirstListed rule folder h answer change.identity message →
      (lastFlags answer.responses message.uid).isSome
  /-- A reading. -/
  reading : ∀ h₁ b₁ a₁ c₁ b₂ a₂ c₂ uids flag uid, h = h₁ ++
    [⟨b₁, .server (.uidStore uids flag false), a₁, c₁⟩] →
    e = ⟨b₂, .server (.uidFetch (.uids uids) (.listing .standard none)), a₂, c₂⟩ → uid ∈ uids →
    Names a₂.responses uid →
      (lastFlags a₂.responses uid).isSome

/-- A value no response carried is only assumed of a cleared flag. -/
theorem reported_of_assumed {flags : Option MessageFlags} {flag : MessageFlag} {value : Bool}
    (ha : Assumed flags flag value) (hcarried : value = false → flags.isSome) :
    Reported flags flag value := by
  cases flags with
  | some flags => exact ⟨flags, rfl, ha⟩
  | none =>
    cases value with
    | false => cases hcarried rfl
    | true => cases flag <;> cases ha

/-- **A pending change ends only by the server's report**: in every run of a cycle whose
answers carry FLAGS, from every stored folder, a change that is ended was pending at the
start and the first listing shows its value, or the reading right after its command does. -/
theorem settled_as_reported (rules : ContentRules) (rule : IdentityRule) (recentLimit : ℤ)
    (batches : BatchWriter) (calls : List (StoreCall × Circumstances)) (w : S.World)
    {tr : History S} {r : Outcome CycleEnd LoadResult} {u : S.World × Tables}
    (hrun : Run (surroundings S) (synchronizeImapFolder rules rule recentLimit batches)
      (w, Store.run .empty calls) tr r u)
    (hcarried : Every (FlagsCarried rule batches.folder) tr) :
    Every (EndsBy Reported rule batches.folder) tr := by
  rintro pre e post rfl account identities flag value hop
  obtain ⟨haccount, hends⟩ := (run_lawful hrun pre e post rfl).ends account identities flag
    value hop
  refine ⟨haccount, fun identity hi => ?_⟩
  rcases hends identity hi with
    ⟨h₁, answer, message, hfirst, hpending, hlisted, hnames, hassumed⟩ |
      ⟨h₁, b₁, a₁, c₁, b₂, a₂, c₂, uids, uid, rfl, hended, huid, hlisted, hnames, hassumed⟩
  · refine .inl ⟨h₁, answer, message, hfirst, hpending, hlisted, hnames,
      reported_of_assumed hassumed ?_⟩
    rintro rfl
    obtain ⟨l, h₂, since, rfl, hl, hquiet⟩ := hfirst
    exact (hcarried h₁ l (h₂ ++ e :: post) (by simp)).listing since answer _ message hquiet hl
      hpending rfl hlisted
  · refine .inr ⟨h₁, b₁, a₁, c₁, b₂, a₂, c₂, uids, uid, rfl, hended, huid, hlisted, hnames,
      reported_of_assumed hassumed ?_⟩
    rintro rfl
    exact (hcarried (h₁ ++ [⟨b₁, .server (.uidStore uids flag false), a₁, c₁⟩]) _ (e :: post)
      (by simp)).reading h₁ b₁ a₁ c₁ b₂
      a₂ c₂ uids flag uid rfl rfl huid hnames

/-- The user wants the inbox's message unread. -/
def wantingUnread : List (StoreCall × Circumstances) :=
  holding "imap:INBOX/1/1" ++
    [(.writePendingFlag inbox.account "imap:INBOX/1/1" .seen false, ⟨false, none⟩)]

/-- The event ends a change. -/
def endsChange (e : Happened (anyServer ImapCommand.Reply)) : Bool :=
  match e.op with
  | .store (.settleFlags _ identities _ _) => identities ≠ []
  | _ => false

theorem settled_as_reported_unread :
    (inboxRun .generic unidentified wantingUnread).1.any endsChange = true ∧
      Every (EndsBy Reported .generic inbox) (inboxRun .generic unidentified wantingUnread).1 := by
  refine ⟨by decide, settled_as_reported noContent .generic 0 ⟨inbox⟩ wantingUnread ()
    (inboxRun_run _ _ _) ?_⟩
  have hflags : ∀ uid, Names [unidentified] uid → (lastFlags [unidentified] uid).isSome := by
    rintro uid ⟨fetch, hf, hu⟩
    cases List.mem_singleton.mp hf
    cases hu
    rfl
  intro pre e post heq
  have hmem : e ∈ (inboxRun .generic unidentified wantingUnread).1 := by
    rw [heq]
    simp
  refine ⟨?_, ?_⟩
  · rintro since answer change message - hl - - ⟨generic, -, hlatest⟩
    obtain rfl := inboxRun_lists hmem hl
    exact hflags _ (mem_identified.mp (mem_of_byIdentity hlatest).1).1
  · rintro h₁ b₁ a₁ c₁ b₂ a₂ c₂ uids flag uid - rfl - hnames
    obtain rfl := inboxRun_fetch hmem
    exact hflags uid hnames

/-- A response that names message 1 and carries nothing else. -/
def bare : Fetch := ⟨some 1, none, none, none, [], none⟩

theorem inboxRun_ends : (inboxRun .generic bare wantingUnread).1.any endsChange = true := by decide

/-- **A run ends a change on a response without FLAGS**: the user wants the message unread, and
a listing that says nothing of its flags ends the wish. -/
theorem settled_without_flags :
    Run (surroundings (anyServer ImapCommand.Reply))
    (synchronizeImapFolder noContent .generic 0 ⟨inbox⟩)
        ((), Store.run .empty wantingUnread) (inboxRun .generic bare wantingUnread).1
        (inboxRun .generic bare wantingUnread).2.1 (inboxRun .generic bare wantingUnread).2.2 ∧
      ¬Every (EndsBy Reported .generic inbox) (inboxRun .generic bare wantingUnread).1 := by
  refine ⟨inboxRun_run _ _ _, fun hall => ?_⟩
  obtain ⟨e, hmem, he⟩ := List.any_eq_true.mp inboxRun_ends
  obtain ⟨pre, post, heq⟩ := List.append_of_mem hmem
  have hran : ∀ g ∈ pre, g ∈ (inboxRun .generic bare wantingUnread).1 := by
    intro g hg
    rw [heq]
    exact List.mem_append_left _ hg
  rw [endsChange] at he
  split at he
  · rename_i account identities flag value hop
    obtain ⟨identity, hi⟩ := List.exists_mem_of_ne_nil _ (of_decide_eq_true he)
    rcases (hall pre e post heq account identities flag value hop).2 identity hi with
      ⟨h₁, answer, message, ⟨l, h₂, since, rfl, hl, -⟩, -, -, -, reported, hr, -⟩ |
        ⟨h₁, b₁, a₁, c₁, b₂, a₂, c₂, uids, uid, rfl, -, -, -, -, reported, hr, -⟩
    · obtain rfl := inboxRun_lists (hran l (by simp)) hl
      cases hr
    · obtain rfl := inboxRun_fetch
        (hran _ (List.mem_append_right _ (List.mem_cons_of_mem _ List.mem_cons_self)))
      cases hr
  · cases he

end Mailbag.Cycle
