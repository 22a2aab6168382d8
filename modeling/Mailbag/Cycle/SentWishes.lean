import Mailbag.Cycle.ImapAsks
import Mailbag.Cycle.ImapRuns

/-!
# What a sending step of an IMAP cycle names

The commands of a step name messages of the first listing with wishes read at the step's start, and
the cycle remembers the value it last sent for a flag of a message.

## What is proved

* `commandsToSend_spec` — what a sending step's commands name.
-/

namespace Mailbag.Cycle

open Collections Imap Interaction Program Relation Store

variable {S : Server ImapCommand.Reply} {rule : IdentityRule} {folder : FolderRef}

/-! ### The commands of a step -/

/-- Each message named is the listing's last of its identity. -/
def Addressed (listed : List ListedMessage) (messages : List (String × UInt32)) : Prop :=
  ∀ p ∈ messages, ∃ message, latest p.1 (byIdentity listed) = some message ∧ message.uid = p.2

/-- What one command of a sending step names, out of the pending changes read. -/
structure CommandOf (listed : List ListedMessage) (sent : SentChanges)
    (pending : List PendingChange) (command : (MessageFlag × Bool) × List (String × UInt32)) :
    Prop where
  /-- The messages. -/
  addressed : Addressed listed command.2
  /-- How many. -/
  few : command.2.length ≤ uidsPerCommand
  /-- The wishes. -/
  wished : ∀ p ∈ command.2, ⟨p.1, command.1.1, command.1.2⟩ ∈ pending
  /-- Another value than the one sent last. -/
  other : ∀ p ∈ command.2, sent.lookup (p.1, command.1.1) ≠ some command.1.2

/-- Two commands of one value name different messages. -/
def Apart (command command' : (MessageFlag × Bool) × List (String × UInt32)) : Prop :=
  command.1 = command'.1 → ∀ p ∈ command.2, ∀ p' ∈ command'.2, p.1 ≠ p'.1

theorem mem_messagesToSend {listed : List ListedMessage} {sent : SentChanges}
    {pending : List PendingChange} {flag : MessageFlag} {wanted : Bool} {p : String × UInt32} :
    p ∈ messagesToSend listed sent pending flag wanted ↔
      ⟨p.1, flag, wanted⟩ ∈ pending ∧ sent.lookup (p.1, flag) ≠ some wanted ∧
        ∃ message, latest p.1 (byIdentity listed) = some message ∧ message.uid = p.2 := by
  rw [messagesToSend, (List.perm_insertionSort _ _).mem_iff, List.mem_filterMap]
  constructor
  · rintro ⟨⟨identity, flag', wanted'⟩, hc, hp⟩
    split at hp
    · rename_i hsame
      obtain ⟨rfl, rfl, hother⟩ := hsame
      obtain ⟨message, hm, rfl⟩ := Option.map_eq_some_iff.mp hp
      exact ⟨hc, hother, message, hm, rfl⟩
    · cases hp
  · rintro ⟨hc, hother, message, hm, huid⟩
    refine ⟨_, hc, ?_⟩
    rw [if_pos ⟨rfl, rfl, hother⟩, hm, Option.map_some, huid]

theorem messagesToSend_unique (listed : List ListedMessage) (sent : SentChanges)
    {pending : List PendingChange} (hpending : Collections.Unique PendingChange.key pending)
    (flag : MessageFlag) (wanted : Bool) :
    Collections.Unique Prod.fst (messagesToSend listed sent pending flag wanted) := by
  rw [Collections.Unique, messagesToSend, ((List.perm_insertionSort _ _).map Prod.fst).nodup_iff,
    List.Nodup, List.pairwise_map, List.pairwise_filterMap]
  refine (List.pairwise_map.mp hpending).imp fun {c c'} hne p hp p' hp' hsame => hne ?_
  split at hp
  · rename_i hc
    split at hp'
    · rename_i hc'
      obtain ⟨message, -, rfl⟩ := Option.map_eq_some_iff.mp hp
      obtain ⟨message', -, rfl⟩ := Option.map_eq_some_iff.mp hp'
      exact Prod.ext hsame (hc.1.trans hc'.1.symm)
    · cases hp'
  · cases hp

/-- **The commands of a step** name at most a hundred messages each, by the listing's UIDs,
for wishes read, and no message twice for one value. -/
theorem commandsToSend_spec (listed : List ListedMessage) (sent : SentChanges)
    {pending : List PendingChange} (hpending : Collections.Unique PendingChange.key pending) :
    (∀ command ∈ commandsToSend listed sent pending, CommandOf listed sent pending command) ∧
      (commandsToSend listed sent pending).Pairwise Apart := by
  constructor
  · rintro ⟨⟨flag, wanted⟩, messages⟩ hc
    rw [commandsToSend, List.mem_flatMap] at hc
    obtain ⟨⟨flag', wanted'⟩, -, hc⟩ := hc
    obtain ⟨chunk, hchunk, he⟩ := List.mem_map.mp hc
    obtain ⟨hsame, rfl⟩ := Prod.mk.inj he
    obtain ⟨rfl, rfl⟩ := Prod.mk.inj hsame
    have hmem : ∀ p ∈ chunk, p ∈ messagesToSend listed sent pending flag' wanted' :=
      fun p hp => mem_of_mem_toChunks hchunk hp
    exact ⟨fun p hp => (mem_messagesToSend.mp (hmem p hp)).2.2,
      (length_of_mem_toChunks (by decide) hchunk).2,
      fun p hp => (mem_messagesToSend.mp (hmem p hp)).1, fun p hp =>
        (mem_messagesToSend.mp (hmem p hp)).2.1⟩
  · rw [commandsToSend, List.pairwise_flatMap]
    constructor
    · rintro ⟨flag, wanted⟩ -
      have hunique := messagesToSend_unique listed sent hpending flag wanted
      rw [Collections.Unique,
        ← flatten_toChunks uidsPerCommand (messagesToSend listed sent pending flag wanted),
        List.map_flatten, List.nodup_flatten, List.pairwise_map] at hunique
      refine List.pairwise_map.mpr (hunique.2.imp fun {a b} hdisjoint _ p hp p' hp' hsame => ?_)
      exact hdisjoint (List.mem_map_of_mem hp) (hsame ▸ List.mem_map_of_mem hp')
    · have hvalues : flagValues.Nodup := by decide
      refine hvalues.imp fun {a b} hne c hc c' hc' hsame => absurd ?_ hne
      obtain ⟨chunk, -, rfl⟩ := List.mem_map.mp hc
      obtain ⟨chunk', -, rfl⟩ := List.mem_map.mp hc'
      exact hsame

/-! ### Guarantees -/

/-- The value of the flag the event sends for the message. -/
def sentValue? (uid : UInt32) (flag : MessageFlag) (e : Happened S) : Option Bool :=
  match e.op with
  | .server (.uidStore uids flag' value) => if uid ∈ uids ∧ flag' = flag then some value else none
  | _ => none

/-- The value of the flag the last command for it that named the message carried. -/
def lastSent (h : History S) (uid : UInt32) (flag : MessageFlag) : Option Bool :=
  h.reverse.findSome? (sentValue? uid flag)

@[simp] theorem lastSent_append_one (h : History S) (e : Happened S) (uid : UInt32)
    (flag : MessageFlag) :
    lastSent (h ++ [e]) uid flag = (sentValue? uid flag e).or (lastSent h uid flag) := by
  rw [lastSent, List.reverse_append, List.reverse_singleton, List.singleton_append,
    List.findSome?_cons]
  cases sentValue? uid flag e <;> rfl

/-- The cycle's first listing gave the UID for the message with the identity. -/
def FirstGave (rule : IdentityRule) (folder : FolderRef) (h : History S) (identity : String)
    (uid : UInt32) : Prop :=
  ∃ h₁ answer message, FirstListing h₁ answer h ∧
    FirstListed rule folder h₁ answer identity message ∧ message.uid = uid

/-- What a sending step does after its reading: it gives commands and ends changes. -/
def InStep (e : Happened S) : Prop :=
  (∃ c, e.op = .server c) ∨ ∃ account identities flag value, e.op = .store
    (.settleFlags account identities flag value)

/-- The sending step under way began with the reading of the pending changes `changes`, wishes
of messages the folder held then. -/
def StepOf (folder : FolderRef) (changes : List PendingChange) (h : History S) : Prop :=
  ∃ h₁ before after h₂, h = h₁ ++ ⟨before, .store (.readPendingChanges folder), .ok changes,
    after⟩ :: h₂ ∧
    (∀ e ∈ h₂, InStep e) ∧ ∀ change ∈ changes, before.2.Holds folder.account.asStr folder.identity
      change.identity ∧
      before.2.wish? folder.account.asStr change.identity change.flag = some change.wanted

/-- The server refused the event's command for the messages. -/
def Refused (e : Happened S) (uids : List UInt32) (flag : MessageFlag) (value : Bool) : Prop :=
  ∃ before answer after status, e = ⟨before, .server (.uidStore uids flag value), answer, after⟩ ∧
    (answer.ended = some (.no status) ∨ answer.ended = some (.bad status))

/-- The event ends the pending values equal to `value` of exactly the messages `uids`, when
the store carries it out. -/
def EndsRefused (rule : IdentityRule) (folder : FolderRef) (h : History S) (e : Happened S)
    (uids : List UInt32) (flag : MessageFlag) (value : Bool) : Prop :=
  ∃ identities before answer after, e =
    ⟨before, .store (.dropPendingFlags folder.account identities flag value), answer, after⟩ ∧
    (∀ identity, identity ∈ identities ↔ ∃ uid ∈ uids, FirstGave rule folder h identity uid) ∧
      (answer = .ok () → ∀ account identity flag', after.2.wish? account identity flag' =
        if account = folder.account.asStr ∧ identity ∈ identities ∧ flag' = flag then
          nullIf (before.2.wish? account identity flag') value
        else before.2.wish? account identity flag')

/-- A command names at most a hundred messages, each by the UID the first listing gave, with
a wish read at the start of its step, and with another value than the last one sent. -/
def SendsWishes (rule : IdentityRule) (folder : FolderRef) (h : History S) (e : Happened S) :
    Prop :=
  ∀ uids flag value, e.op = .server (.uidStore uids flag value) →
    uids.length ≤ uidsPerCommand ∧ ∀ uid ∈ uids, lastSent h uid flag ≠ some value ∧
      ∃ identity changes, FirstGave rule folder h identity uid ∧ StepOf folder changes h ∧
        ⟨identity, flag, value⟩ ∈ changes

/-- What every event of a cycle keeps to. -/
structure Sends (rule : IdentityRule) (folder : FolderRef) (h : History S) (e : Happened S) :
    Prop where
  /-- Its commands. -/
  wishes : SendsWishes rule folder h e
  /-- Right after a refused command it ends the refused values, and nothing comes later. -/
  refused : ∀ h₁ g h₂ uids flag value, h = h₁ ++ g :: h₂ → Refused g uids flag value →
    h₂ = [] ∧ EndsRefused rule folder h e uids flag value

/-! ### What the cycle remembers -/

/-- The messages are those of the cycle's first listing. -/
def GivenBy (rule : IdentityRule) (folder : FolderRef) (listed : List ListedMessage)
    (h : History S) : Prop :=
  ∃ h₁ answer generic, FirstListing h₁ answer h ∧ PrefixAt rule folder h₁ generic ∧
    listed = identified generic (listing answer.responses)

/-- The cycle knows the first listing's messages and the value it last sent for each of their
flags, and no command was refused. -/
structure Remembers (rule : IdentityRule) (folder : FolderRef) (listed : List ListedMessage)
    (sent : SentChanges) (h : History S) (s : S.World × Tables) : Prop where
  /-- The store's shape. -/
  shape : Shape s.2
  /-- Where the messages were listed. -/
  first : listed ≠ [] → GivenBy rule folder listed h
  /-- What was sent. -/
  sent : ∀ identity message flag, latest identity (byIdentity listed) = some message →
    sent.lookup (identity, flag) = lastSent h message.uid flag
  /-- Nothing was refused. -/
  unrefused : ∀ e ∈ h, ∀ uids flag value, ¬Refused e uids flag value

section Remembers

variable {listed : List ListedMessage} {sent : SentChanges} {pending : List PendingChange}
  {h : History S} {s u : S.World × Tables}

theorem GivenBy.append (hg : GivenBy rule folder listed h) (tr : History S) :
    GivenBy rule folder listed (h ++ tr) := by
  obtain ⟨h₁, answer, generic, hf, hrest⟩ := hg
  exact ⟨h₁, answer, generic, hf.append tr, hrest⟩

theorem Remembers.onePerUid (hr : Remembers rule folder listed sent h s) : OnePerUid listed := by
  intro m hm
  obtain ⟨h₁, answer, generic, -, -, rfl⟩ := hr.first (List.ne_nil_of_mem hm)
  exact identified_onePerUid _ _ m hm

theorem FirstListing.unique {h₁ h₁' : History S} {answer answer' : FetchAnswer}
    (hf : FirstListing h₁ answer h) (hf' : FirstListing h₁' answer' h) :
    h₁ = h₁' ∧ answer = answer' := by
  obtain ⟨l, h₂, since, heq, hl, hquiet⟩ := hf
  obtain ⟨l', h₂', since', heq', hl', hquiet'⟩ := hf'
  rw [heq] at heq'
  rcases List.append_eq_append_iff.mp heq' with ⟨as, rfl, htail⟩ | ⟨bs, rfl, htail⟩
  · cases as with
    | nil =>
      obtain ⟨rfl, -⟩ := List.cons.inj htail
      exact ⟨by simp, (hl.unique hl').2⟩
    | cons a as =>
      obtain ⟨rfl, -⟩ := List.cons.inj htail
      exact absurd (hquiet' l (by simp)) hl.not_quiet
  · cases bs with
    | nil =>
      obtain ⟨rfl, -⟩ := List.cons.inj htail
      exact ⟨by simp, (hl.unique hl').2⟩
    | cons b bs =>
      obtain ⟨rfl, -⟩ := List.cons.inj htail
      exact absurd (hquiet l' (by simp)) hl'.not_quiet

theorem GivenBy.firstGave_iff (hg : GivenBy rule folder listed h) {identity : String}
    {uid : UInt32} : FirstGave rule folder h identity uid ↔
      ∃ message, latest identity (byIdentity listed) = some message ∧ message.uid = uid := by
  obtain ⟨h₁, answer, generic, hfirst, hgeneric, rfl⟩ := hg
  constructor
  · rintro ⟨h₁', answer', message, hfirst', ⟨generic', hgeneric', hlatest⟩, huid⟩
    obtain ⟨rfl, rfl⟩ := hfirst.unique hfirst'
    cases hgeneric.unique hgeneric'
    exact ⟨message, hlatest, huid⟩
  · rintro ⟨message, hlatest, huid⟩
    exact ⟨h₁, answer, message, hfirst, ⟨generic, hgeneric, hlatest⟩, huid⟩

theorem sentValue_eq_none {e : Happened S} (he : ¬ChangesFlags e.op) (uid : UInt32)
    (flag : MessageFlag) : sentValue? uid flag e = none := by
  rw [sentValue?]
  split
  · rename_i uids flag' value hop
    exact absurd ⟨uids, flag', value, hop⟩ he
  · rfl

theorem Refused.changesFlags {e : Happened S} {uids : List UInt32} {flag : MessageFlag}
    {value : Bool} (hr : Refused e uids flag value) :
    e.op = .server (.uidStore uids flag value) := by
  obtain ⟨before, answer, after, status, rfl, -⟩ := hr
  rfl

/-- The store's shape stays, whatever is answered. -/
theorem answered_shape {before after : S.World × Tables} {o : CycleOp ImapCommand}
    {answer : CycleAns ImapCommand.Reply o} (hs : Shape before.2)
    (ha : answered S before o answer after) : Shape after.2 := by
  cases o with
  | store op =>
    obtain ⟨-, met, hcall⟩ := ha
    rw [show after.2 = (call before.2 op met).2 from congrArg Prod.snd hcall]
    exact call_shape hs op met
  | server c => exact ha.2 ▸ hs

/-- Through an operation that changes no flag. -/
theorem Remembers.append (hr : Remembers rule folder listed sent h s) {e : Happened S}
    (he : ¬ChangesFlags e.op) (hu : Shape u.2) :
    Remembers rule folder listed sent (h ++ [e]) u := by
  refine ⟨hu, fun hne => (hr.first hne).append [e], fun identity message flag hm => ?_,
    fun e' he' uids flag value hrefused => ?_⟩
  · rw [lastSent_append_one, sentValue_eq_none he, Option.none_or, hr.sent identity message flag hm]
  · rcases List.mem_append.mp he' with he' | he'
    · exact hr.unrefused e' he' uids flag value hrefused
    · cases List.mem_singleton.mp he'
      exact he ⟨uids, flag, value, hrefused.changesFlags⟩

/-- An operation that changes no flag, where no command was refused. -/
theorem Remembers.sends (hr : Remembers rule folder listed sent h s) {e : Happened S}
    (he : ¬ChangesFlags e.op) : Sends rule folder h e := by
  refine ⟨fun uids flag value hop => absurd ⟨uids, flag, value, hop⟩ he, ?_⟩
  rintro h₁ g h₂ uids flag value rfl hrefused
  exact absurd hrefused (hr.unrefused g (by simp) uids flag value)

theorem Remembers.others (hr : Remembers rule folder listed sent h s) (hm : moves S s u) :
    Remembers rule folder listed sent h u :=
  ⟨(moved (.single hm)).2.2.shape hr.shape, hr.first, hr.sent, hr.unrefused⟩

theorem Remembers.later (hr : Remembers rule folder listed sent h s)
    (hm : ReflTransGen (surroundings S).move s u) : Remembers rule folder listed sent h u := by
  induction hm with
  | refl => exact hr
  | tail _ hm ih => exact ih.others hm

/-- A part that changes no flag on the server leaves what the cycle remembers. -/
theorem changesNone_safe {α : Type} {p : ImapCycle α} (hp : ChangesNone p)
    (hr : Remembers rule folder listed sent h s) :
    Safe (surroundings S) (Sends rule folder) h s p fun _ h' u => Remembers rule folder listed
      sent h' u :=
  Safe.asks hp (fun _ _ _ hr hm => hr.others hm)
    (fun _ _ _ _ _ hr ho ha => ⟨hr.sends ho, hr.append ho (answered_shape hr.shape ha)⟩) hr

end Remembers

end Mailbag.Cycle
