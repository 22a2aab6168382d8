import Mailbag.Cycle.StatePass

/-!
# What the batch of a pass rests on

A run of an IMAP cycle is followed event by event, for every sequence of server answers. What
an event removes, what it ends and when it marks the folder synchronized are guarantees: each
says of the event what the events before it show.

## What is proved

* `passBatch_lawful` — the batch of a pass removes what its listing, or an opening, reported
  gone, and marks the folder synchronized when it holds what the listings reported.
-/

namespace Mailbag.Cycle

open Collections Imap Interaction Program Relation Store

variable {S : Server ImapCommand.Reply} {rule : IdentityRule} {folder : FolderRef}

/-! ### Reports -/

/-- The event is a listing, of every message or of those changed since a mod-sequence. -/
def Lists (e : Happened S) (since : Option UInt64) (answer : FetchAnswer) : Prop :=
  ∃ before items after, e = ⟨before, .server (.uidFetch .all (.listing items since)), answer, after⟩

/-- What identities start with under the numbers of the latest opening. -/
def PrefixAt (rule : IdentityRule) (folder : FolderRef) (h : History S)
    (generic : Option String) : Prop :=
  ∃ numbers, numbersAt h = some numbers ∧
    genericPrefix rule folder.identity numbers.uidValidity = .ok generic

/-- A listing given after `h` reports message `uid` under an identity. -/
def Reports (rule : IdentityRule) (folder : FolderRef) (h : History S) (answer : FetchAnswer)
    (uid : UInt32) (identity : String) : Prop :=
  Names answer.responses uid ∧
    ∃ generic, PrefixAt rule folder h generic ∧
      identityOf generic uid (lastGmailId answer.responses uid) = some identity

/-- The server reported no message under the identity: it completed a listing of every
message that reports none, or it opened the mailbox and counted none. -/
inductive ReportedGone (rule : IdentityRule) (folder : FolderRef) (identity : String) :
    History S → Happened S → Prop
  /-- A listing. -/
  | listing {h : History S} {e : Happened S} {answer : FetchAnswer} :
      Lists e none answer → answer.ended = none →
      (∀ uid, ¬Reports rule folder h answer uid identity) → ReportedGone rule folder identity h e
  /-- An opening. -/
  | opening {h : History S} {e : Happened S} {numbers : MailboxNumbers} :
      opening? e = some numbers →
      numbers.messageCount = 0 → ReportedGone rule folder identity h e

theorem PrefixAt.unique {h : History S} {generic generic' : Option String}
    (hp : PrefixAt rule folder h generic) (hp' : PrefixAt rule folder h generic') :
    generic = generic' := by
  obtain ⟨numbers, hn, hg⟩ := hp
  obtain ⟨numbers', hn', hg'⟩ := hp'
  cases hn.symm.trans hn'
  exact Except.ok.inj (hg.symm.trans hg')

theorem mem_identified {generic : Option String} {responses : List Fetch}
    {message : ListedMessage} :
    message ∈ identified generic (listing responses) ↔ Names responses message.uid ∧
      identityOf generic message.uid (lastGmailId responses message.uid) = some message.identity ∧
        message.flags = (lastFlags responses message.uid).getD ⟨false, false⟩ := by
  rw [identified, List.mem_filterMap]
  constructor
  · rintro ⟨l, hl, he⟩
    obtain ⟨identity, hi, rfl⟩ := Option.map_eq_some_iff.mp he
    obtain ⟨hnames, hflags, hid⟩ := mem_listing.mp hl
    exact ⟨hnames, hid ▸ hi, hflags⟩
  · rintro ⟨hnames, hi, hflags⟩
    refine ⟨⟨message.uid, message.flags.seen, message.flags.flagged,
      lastGmailId responses message.uid⟩,
      mem_listing.mpr ⟨hnames, hflags, rfl⟩, ?_⟩
    rw [hi]
    rfl

/-- What a listing reports under an identity is a message it lists. -/
theorem Reports.mem_identified {h : History S} {answer : FetchAnswer} {uid : UInt32}
    {identity : String} {generic : Option String} (hr : Reports rule folder h answer uid identity)
    (hp : PrefixAt rule folder h generic) :
    ∃ message ∈ identified generic (listing answer.responses), message.uid = uid ∧
      message.identity = identity := by
  obtain ⟨hnames, generic', hp', hi⟩ := hr
  cases hp.unique hp'
  exact ⟨⟨identity, uid, (lastFlags answer.responses uid).getD ⟨false, false⟩⟩,
    Cycle.mem_identified.mpr ⟨hnames, hi, rfl⟩,
    rfl, rfl⟩

theorem reports_of_mem {h : History S} {answer : FetchAnswer} {generic : Option String}
    {message : ListedMessage} (hm : message ∈ identified generic (listing answer.responses))
    (hp : PrefixAt rule folder h generic) :
    Reports rule folder h answer message.uid message.identity :=
  ⟨(mem_identified.mp hm).1, generic, hp, (mem_identified.mp hm).2.1⟩

/-! ### Guarantees -/

/-- **A batch removes only what the server reported gone.** -/
def RemovesReportedGone (rule : IdentityRule) (folder : FolderRef) (h : History S)
    (e : Happened S) : Prop :=
  ∀ batch, e.op = .store (.storeBatch folder batch) → ∀ identity ∈ batch.removed,
    ∃ h₁ g h₂, h = h₁ ++ g :: h₂ ∧ ReportedGone rule folder identity h₁ g

/-- **A batch marks the folder synchronized only when it then holds every message a listing
reported**, but for those reported gone later and those a later command left unanswered. -/
def MarksComplete (rule : IdentityRule) (folder : FolderRef) (h : History S) (e : Happened S) :
    Prop :=
  ∀ before batch state after, e = ⟨before, .store (.storeBatch folder batch), .ok .stored, after⟩ →
    batch.state = some state → state.synchronized = true →
      ∀ h₁ l h₂ since answer uid identity, h = h₁ ++ l :: h₂ → Lists l since answer →
        Reports rule folder h₁ answer uid identity →
          (after.2.heldFlags folder identity).isSome ∨
            (∃ h₃ g h₄, h₂ = h₃ ++ g :: h₄ ∧ ReportedGone rule folder identity (h₁ ++ l :: h₃) g) ∨
              ∃ e' ∈ h₂, Unanswered e' uid

/-- The cycle's first listing, given after `h₁`. -/
def FirstListing (h₁ : History S) (answer : FetchAnswer) (h : History S) : Prop :=
  ∃ l h₂ since, h = h₁ ++ l :: h₂ ∧ Lists l since answer ∧ ∀ e ∈ h₁, Quiet e

/-- The change was pending when the cycle read them. -/
def PendingAt (folder : FolderRef) (h : History S) (change : PendingChange) : Prop :=
  ∃ before changes after, (⟨before, .store (.readPendingChanges folder), .ok changes, after⟩ :
    Happened S) ∈ h ∧
    change ∈ changes

/-- The message the first listing gives under an identity, the last of them. -/
def FirstListed (rule : IdentityRule) (folder : FolderRef) (h₁ : History S) (answer : FetchAnswer)
    (identity : String) (message : ListedMessage) : Prop :=
  ∃ generic, PrefixAt rule folder h₁ generic ∧
    latest identity (byIdentity (identified generic (listing answer.responses))) = some message

/-- The end of a pending change rests on what `shows` says of the last flags of its message:
in the first listing, for a change pending before it, or in the reading right after a
command of that value that named it. -/
def EndsBy (shows : Option MessageFlags → MessageFlag → Bool → Prop) (rule : IdentityRule)
    (folder : FolderRef) (h : History S) (e : Happened S) : Prop :=
  ∀ account identities flag value, e.op = .store (.settleFlags account identities flag value) →
    account = folder.account ∧ ∀ identity ∈ identities,
      (∃ h₁ answer message, FirstListing h₁ answer h ∧ PendingAt folder h₁ ⟨identity, flag, value⟩ ∧
          FirstListed rule folder h₁ answer identity message ∧ Names answer.responses message.uid ∧
            shows (lastFlags answer.responses message.uid) flag value) ∨
        ∃ h₁ b₁ a₁ c₁ b₂ a₂ c₂ uids uid, h = h₁ ++
          [⟨b₁, .server (.uidStore uids flag value), a₁, c₁⟩,
            ⟨b₂, .server (.uidFetch (.uids uids) (.listing .standard none)), a₂, c₂⟩] ∧
            a₁.ended = none ∧
          uid ∈ uids ∧ (∃ h₀ answer, FirstListing h₀ answer h ∧
            Reports rule folder h₀ answer uid identity) ∧
            Names a₂.responses uid ∧ shows (lastFlags a₂.responses uid) flag value

/-- The last FLAGS have the value. -/
def Reported (flags : Option MessageFlags) (flag : MessageFlag) (value : Bool) : Prop :=
  ∃ reported, flags = some reported ∧ flagOf flag reported = value

/-- The last FLAGS have the value, where a message without any counts as unread and
unstarred. -/
def Assumed (flags : Option MessageFlags) (flag : MessageFlag) (value : Bool) : Prop :=
  flagOf flag (flags.getD ⟨false, false⟩) = value

/-- What holds of every event of a cycle. -/
structure Lawful (rule : IdentityRule) (folder : FolderRef) (h : History S) (e : Happened S) :
    Prop where
  /-- Its removals. -/
  removes : RemovesReportedGone rule folder h e
  /-- Its marks. -/
  marks : MarksComplete rule folder h e
  /-- The changes it ends. -/
  ends : EndsBy Assumed rule folder h e

/-- An event that stores no batch and ends no change. -/
theorem lawful_of_ne {h : History S} {e : Happened S}
    (hbatch : ∀ batch, e.op ≠ .store (.storeBatch folder batch))
    (hsettle : ∀ account identities flag value,
      e.op ≠ .store (.settleFlags account identities flag value)) : Lawful rule folder h e := by
  refine ⟨fun batch hop => absurd hop (hbatch batch), ?_, fun _ _ _ _ hop => absurd hop
    (hsettle _ _ _ _)⟩
  rintro before batch state after rfl
  exact absurd rfl (hbatch batch)

theorem lawful_of_byServer {h : History S} {e : Happened S} (he : ByServer e) :
    Lawful rule folder h e := by
  obtain ⟨c, hc⟩ := he.command
  refine lawful_of_ne (fun batch hop => ?_) fun _ _ _ _ hop => ?_
  · rw [hc] at hop
    cases hop
  · rw [hc] at hop
    cases hop

theorem lawful_of_byKeeping {h : History S} {e : Happened S} (he : ByKeeping e) :
    Lawful rule folder h e := by
  obtain ⟨op, hop', hmoves, hsettles⟩ := he.keeps
  refine lawful_of_ne (fun batch hop => ?_) fun _ _ _ _ hop => ?_
  · rw [hop'] at hop
    cases hop
    exact hmoves trivial
  · rw [hop'] at hop
    cases hop
    exact hsettles trivial

/-! ### Every listing of the run -/

/-- The run so far listed once at most, and reported only messages in `listed`. -/
def ListsOnly (rule : IdentityRule) (folder : FolderRef) (listed : List ListedMessage)
    (h : History S) : Prop :=
  ∀ h₁ l h₂ since answer uid identity, h = h₁ ++ l :: h₂ → Lists l since answer →
    Reports rule folder h₁ answer uid identity →
      (∀ e ∈ h₁, Quiet e) ∧ ∃ message ∈ listed, message.uid = uid ∧ message.identity = identity

theorem Lists.not_quiet {l : Happened S} {since : Option UInt64} {answer : FetchAnswer}
    (hl : Lists l since answer) : ¬Quiet l := by
  obtain ⟨before, items, after, rfl⟩ := hl
  exact fun hq => hq _ rfl

/-- A listing among events, the last of which are none, is among the first. -/
theorem listing_split {h tr h₁ h₂ : History S} {l : Happened S} (hquiet : ∀ e ∈ tr, Quiet e)
    (hl : ¬Quiet l) (heq : h ++ tr = h₁ ++ l :: h₂) : ∃ h₃, h = h₁ ++ l :: h₃ ∧ h₂ = h₃ ++ tr := by
  rcases List.append_eq_append_iff.mp heq with ⟨as, rfl, htr⟩ | ⟨bs, rfl, hl'⟩
  · exact absurd (hquiet l (htr ▸ by simp)) hl
  · cases bs with
    | nil =>
      exact absurd (hquiet l (by rw [List.nil_append] at hl'; exact hl' ▸ List.mem_cons_self)) hl
    | cons b bs =>
      obtain ⟨rfl, rfl⟩ := List.cons.inj hl'
      exact ⟨bs, rfl, rfl⟩

theorem ListsOnly.append {listed : List ListedMessage} {h tr : History S}
    (hl : ListsOnly rule folder listed h) (hquiet : ∀ e ∈ tr, Quiet e) :
    ListsOnly rule folder listed (h ++ tr) := by
  intro h₁ l h₂ since answer uid identity heq hlists hr
  obtain ⟨h₃, rfl, -⟩ := listing_split hquiet hlists.not_quiet heq
  exact hl h₁ l h₃ since answer uid identity rfl hlists hr

theorem listsOnly_nil {h : History S} (hquiet : ∀ e ∈ h, Quiet e) : ListsOnly rule folder [] h := by
  intro h₁ l h₂ since answer uid identity heq hlists _
  exact absurd (hquiet l (heq ▸ by simp)) hlists.not_quiet

theorem Lists.unique {l : Happened S} {since since' : Option UInt64} {answer answer' : FetchAnswer}
    (hl : Lists l since answer) (hl' : Lists l since' answer') :
    since = since' ∧ answer = answer' := by
  obtain ⟨before, items, after, rfl⟩ := hl
  obtain ⟨before', items', after', he⟩ := hl'
  cases he
  exact ⟨rfl, rfl⟩

/-- A command after the run's first listing left the message unanswered. -/
def UnansweredSince (h : History S) (uid : UInt32) : Prop :=
  ∃ h₁ l h₂, h = h₁ ++ l :: h₂ ∧ (∀ e ∈ h₁, Quiet e) ∧ ¬Quiet l ∧ ∃ e ∈ h₂, Unanswered e uid

theorem UnansweredSince.append {h : History S} {uid : UInt32} (hu : UnansweredSince h uid)
    (tr : History S) : UnansweredSince (h ++ tr) uid := by
  obtain ⟨h₁, l, h₂, rfl, hquiet, hl, e, he, hun⟩ := hu
  exact ⟨h₁, l, h₂ ++ tr, by simp, hquiet, hl, e, List.mem_append_left _ he, hun⟩

theorem UnansweredSince.exists_after {h₁ h₂ : History S} {l : Happened S} {uid : UInt32}
    (hu : UnansweredSince (h₁ ++ l :: h₂) uid) (hquiet : ∀ e ∈ h₁, Quiet e) (hl : ¬Quiet l) :
    ∃ e ∈ h₂, Unanswered e uid := by
  obtain ⟨h₃, l', h₄, heq, hquiet', hl', hun⟩ := hu
  rcases List.append_eq_append_iff.mp heq with ⟨as, rfl, has⟩ | ⟨bs, rfl, hbs⟩
  · cases as with
    | nil =>
      obtain ⟨-, rfl⟩ := List.cons.inj has
      exact hun
    | cons a as =>
      obtain ⟨rfl, -⟩ := List.cons.inj has
      exact absurd (hquiet' l (by simp)) hl
  · cases bs with
    | nil =>
      obtain ⟨-, rfl⟩ := List.cons.inj hbs
      exact hun
    | cons b bs =>
      obtain ⟨rfl, -⟩ := List.cons.inj hbs
      exact absurd (hquiet l' (by simp)) hl'

/-! ### The batch of a pass -/

section Pass

variable {J : History S → S.World × Tables → Prop} {h h' : History S} {s u : S.World × Tables}
  {plan : PassPlan} {reader reader' : MailboxReader} {listed : List ListedMessage}
  {refusal : Option ServerReply}

/-- The event of a pass's listing, the last so far. -/
theorem listing_event {items : RowItems} {since : Option UInt64} {answer : FetchAnswer}
    (ha : Asked J reader reader' (.uidFetch .all (.listing items since)) answer h h' s u)
    (hn : numbersAt h = some reader.numbers) :
    ∃ tr g, h' = h ++ tr ++ [g] ∧ (∀ e ∈ tr, Quiet e) ∧ Lists g since answer ∧
      numbersAt (h ++ tr) = some reader'.numbers := by
  obtain ⟨h₁, s₁, s₂, hc, -, -, rfl, -, -, -, -, -⟩ := ha.moment
  obtain ⟨⟨tr, rfl, hk⟩, -⟩ := hc.toPasses
  exact ⟨tr, _, rfl, fun e he => Aside.quiet (hk e he).1, ⟨s₂, items, u, rfl⟩, hc.tracks hn⟩

/-- A pass's reader keeps the numbers of the latest opening. -/
theorem PassListed.tracks {name : String}
    (hpass : PassListed J rule name plan reader listed refusal reader' h h' s u)
    (hn : numbersAt h = some reader.numbers) : numbersAt h' = some reader'.numbers := by
  cases hpass with
  | unlisted => exact hn
  | listed hplan hasked =>
    obtain ⟨tr, g, rfl, -, ⟨before, items, after, rfl⟩, hnumbers⟩ := listing_event hasked hn
    rw [numbersAt_append_one]
    exact hnumbers

/-- What a pass removes its listing reported gone. -/
theorem gone_of_listed {since : Option UInt64} {answer : FetchAnswer} {generic : Option String}
    {stored : FolderSync} {numbers : FolderNumbers} {identity : String} {g : Happened S}
    (hplan : plan.changedSince = some since) (hl : Lists g since answer)
    (hended : refusal = none ↔ answer.ended = none) (hp : PrefixAt rule folder h generic)
    (hr : identity ∈ (passBatch (identified generic (listing answer.responses)) refusal stored
      numbers plan).removed) : ReportedGone rule folder identity h g := by
  obtain ⟨hrefusal, rfl, -, hnot⟩ := mem_removed.mp hr
  cases hplan
  refine .listing hl (hended.mp hrefusal) fun uid hreports => hnot ?_
  obtain ⟨m, hm, -, hi⟩ := hreports.mem_identified hp
  exact List.mem_map.mpr ⟨m, hm, hi⟩

theorem exists_opening {numbers : MailboxNumbers} (hn : numbersAt h = some numbers) :
    ∃ h₁ g h₂, h = h₁ ++ g :: h₂ ∧ opening? g = some numbers := by
  obtain ⟨g, hg, hopening⟩ := List.exists_of_findSome?_eq_some hn
  obtain ⟨h₁, h₂, rfl⟩ := List.append_of_mem (List.mem_reverse.mp hg)
  exact ⟨h₁, g, h₂, rfl, hopening⟩

/-- **The batch of a pass is lawful**, when what the earlier listings reported is held, or was
left unanswered since, and the opening the pass compares with came after them. -/
theorem passBatch_lawful
    (hpass : PassListed J rule folder.identity plan reader listed refusal reader' h h' s u)
    (hn : numbersAt h = some reader.numbers) {stored : FolderSync} {numbers : FolderNumbers}
    {e : Happened S}
    (hop : e.op = .store (.storeBatch folder (passBatch listed refusal stored numbers plan)))
    (hreal : answered S e.before e.op e.ans e.after) (hshape : Shape e.before.2)
    (hcurrent : Current folder stored e.before.2)
    (hearlier : ∀ h₁ l h₂ h₃ since answer uid identity, h' = h₁ ++ l :: h₂ → h = h₁ ++ l :: h₃ →
      Lists l since answer → Reports rule folder h₁ answer uid identity →
        (e.before.2.heldFlags folder identity).isSome ∨ ∃ e' ∈ h₂, Unanswered e' uid)
    (hopened : ∀ h₁ l h₂, h = h₁ ++ l :: h₂ → ¬Quiet l → ∃ h₃ g h₄, h₂ = h₃ ++ g :: h₄ ∧
      opening? g = some reader.numbers) : Lawful rule folder h' e := by
  refine ⟨?_, ?_, fun _ _ _ _ hop' => by rw [hop] at hop'; cases hop'⟩
  · intro batch hop' identity hr
    rw [hop] at hop'
    cases hop'
    cases hpass with
    | unlisted hnone =>
      obtain ⟨-, rfl, -⟩ := mem_removed.mp hr
      obtain ⟨h₁, g, h₂, heq, hg⟩ := exists_opening hn
      exact ⟨h₁, g, h₂, heq, .opening hg (hnone.resolve_left nofun)⟩
    | listed hplan hasked hgeneric hended =>
      obtain ⟨tr, g, rfl, -, hl, hnumbers⟩ := listing_event hasked hn
      exact ⟨h ++ tr, g, [], rfl, gone_of_listed hplan hl hended ⟨_, hnumbers, hgeneric⟩ hr⟩
  · rintro before batch state after rfl hstate hsynchronized h₁ l h₂ since answer uid identity heq
      hlists hreports
    cases hop
    obtain ⟨-, hrefusal, hmissing⟩ := passBatch_synchronized hstate hsynchronized
    obtain ⟨folderId, ho, hafter⟩ := applied_of_stored hshape hreal
    have hstays : (before.2.heldFlags folder identity).isSome →
        identity ∉ (passBatch listed refusal stored numbers plan).removed →
        (after.2.heldFlags folder identity).isSome := by
      intro hheld hkeep
      dsimp only at hafter
      rw [hafter]
      exact (passBatch_held hshape ho).mpr ⟨hheld, hkeep⟩
    -- a message an earlier listing reported, whose report `h₃` follows
    have hold : ∀ h₃, h = h₁ ++ l :: h₃ →
        (identity ∈ (passBatch listed refusal stored numbers plan).removed →
          ∃ h₄ g h₅, h₂ = h₄ ++ g :: h₅ ∧ ReportedGone rule folder identity (h₁ ++ l :: h₄) g) →
          (after.2.heldFlags folder identity).isSome ∨
            (∃ h₄ g h₅, h₂ = h₄ ++ g :: h₅ ∧ ReportedGone rule folder identity (h₁ ++ l :: h₄) g) ∨
              ∃ e' ∈ h₂, Unanswered e' uid := by
      intro h₃ heq' hgone
      rcases hearlier h₁ l h₂ h₃ since answer uid identity heq heq' hlists hreports with hheld | hun
      · by_cases hr : identity ∈ (passBatch listed refusal stored numbers plan).removed
        · exact .inr (.inl (hgone hr))
        · exact .inl (hstays hheld hr)
      · exact .inr (.inr hun)
    cases hpass with
    | unlisted hnone =>
      refine hold h₂ heq fun hr => ?_
      obtain ⟨-, rfl, -⟩ := mem_removed.mp hr
      rcases hnone with hnone | hcount
      · cases hnone
      · obtain ⟨h₃, g, h₄, rfl, hg⟩ := hopened h₁ l h₂ heq hlists.not_quiet
        exact ⟨h₃, g, h₄, rfl, .opening hg hcount⟩
    | listed hplan hasked hgeneric hended =>
      obtain ⟨tr, g, rfl, hquiet, hl, hnumbers⟩ := listing_event hasked hn
      rcases List.eq_nil_or_concat h₂ with rfl | ⟨h₃', g', rfl⟩
      · -- the pass's own listing: the folder lacks none of its messages
        obtain ⟨rfl, hg⟩ := List.append_inj' heq rfl
        cases hg
        obtain ⟨-, rfl⟩ := hl.unique hlists
        obtain ⟨m, hm, -, rfl⟩ := hreports.mem_identified ⟨_, hnumbers, hgeneric⟩
        refine .inl (hstays (hcurrent.heldFlags m.identity ▸ hmissing m hm) fun hr => ?_)
        exact (mem_removed.mp hr).2.2.2 (List.mem_map_of_mem hm)
      · rw [List.concat_eq_append] at heq
        obtain ⟨heq', hg⟩ := List.append_inj'
          (heq.trans (by simp) : h ++ tr ++ [g] = (h₁ ++ l :: h₃') ++ [g']) rfl
        cases hg
        obtain ⟨h₃, heq₃, rfl⟩ := listing_split hquiet hlists.not_quiet heq'
        refine hold h₃ heq₃ fun hr => ⟨h₃ ++ tr, g, [], List.concat_eq_append, ?_⟩
        rw [← heq']
        exact gone_of_listed hplan hl hended ⟨_, hnumbers, hgeneric⟩ hr

end Pass

end Mailbag.Cycle
