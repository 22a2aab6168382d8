import Mailbag.Cycle.GraphRemovals

/-!
# The readings of a Microsoft 365 round

A round of changes reads each message it names and the folder holds again, one by one; past
a limit the cycle reads the whole folder instead. The messages are counted against what the
folder held when the cycle read it, and are read when the store holds them now. The two
agree as long as the messages the round names were in the folder when the cycle began.

## What is proved

* `rounds_bounded` — then a round's readings keep the limit, and the page that would pass
  it is not read message by message.
* `rounds_unbounded` — a round that follows a continued first fill passes it: the fill's last
  page stored the message the round's pages name.
-/

namespace Mailbag.Cycle

open Collections Graph Imap Interaction Program Relation Store

variable {S : Server GraphRequest.Reply} {folder : FolderRef} {pages past : List (PageTurn S)}
  {turn : PageTurn S}

/-- The message a request reads. -/
def readId : CycleOp GraphRequest → Option String
  | .server (.readMessage id) => some id
  | _ => none

/-- The event reads a message that the folder holds then. -/
def readsHeld (folder : FolderRef) (e : Happened S) : Bool :=
  (readId e.op).any fun id => (e.before.2.heldFlags folder (graphIdentity id)).isSome

/-- How many times messages the folder holds were read one by one, in turns of a round. -/
def roundReadings (folder : FolderRef) (pages : List (PageTurn S)) : ℕ :=
  ((pages.filter fun turn => turn.loop.reading = .round).flatMap Turn.events).countP
    (readsHeld folder)

/-- How many messages the folder holds a page would have read one by one. -/
def wouldRead (folder : FolderRef) (t : Tables) (page : ChangePage) : ℕ :=
  ((mergePerMessage page.changes).filter fun entry =>
    ¬isRemoved entry.2 ∧ (t.heldFlags folder (graphIdentity entry.1)).isSome).length

/-- After these turns a round's page would pass the limit. -/
def PassesLimit (folder : FolderRef) (past : List (PageTurn S)) (turn : PageTurn S) : Prop :=
  turn.loop.reading = .round ∧ ∃ page, pageRead turn = some page ∧
    roundReadingsLimit < roundReadings folder past + wouldRead folder turn.before.2 page

/-- A round's readings keep the limit, and a page that would pass it is not read: the whole
folder is, from then on. -/
structure RoundBounded (folder : FolderRef) (pages : List (PageTurn S)) : Prop where
  /-- The limit. -/
  bound : roundReadings folder pages ≤ roundReadingsLimit
  /-- The page that would pass it. -/
  passing : ∀ past turn post, pages = past ++ turn :: post → PassesLimit folder past turn →
    (∀ e ∈ turn.events, readId e.op = none) ∧ ∀ later ∈ post, later.loop.reading.isFull = true

/-- Each message that a page of a round names and the folder then holds was in the folder when the
cycle began. -/
def HeldSinceStart (folder : FolderRef) (pages : List (PageTurn S)) : Prop :=
  ∀ first turn page id, pages.head? = some first → turn ∈ pages → turn.loop.reading = .round →
    pageRead turn = some page →
    NamedBy page id → (turn.before.2.heldFlags folder (graphIdentity id)).isSome →
      (first.before.2.heldFlags folder (graphIdentity id)).isSome

/-! ### What a page reads one by one -/

/-- In every run the program reads these messages only, each once. -/
def ReadsWithin (S : Server GraphRequest.Reply) {α : Type} (p : GraphCycle α)
    (ids : List String) : Prop :=
  ∀ (s u : S.World × Tables) (tr : History S) r, Run (surroundings S) p s tr r u →
    (tr.filterMap fun e => readId e.op).Sublist ids

section ReadsWithin

variable {α β : Type} {ids ids' : List String}

theorem readsWithin_of_asks {K : CycleOp GraphRequest → Prop} {p : GraphCycle α} (hp : p.Asks K)
    (hK : ∀ o, K o → readId o = none) : ReadsWithin S p [] := by
  intro s u tr r h
  rw [List.filterMap_eq_nil_iff.mpr fun e he => hK _ (h.asked hp e he)]

theorem ReadsWithin.bind {p : GraphCycle α} {f : α → GraphCycle β} (hp : ReadsWithin S p ids)
    (hf : ∀ a, ReadsWithin S (f a) ids') : ReadsWithin S (p.bind f) (ids ++ ids') := by
  intro s u tr r h
  rcases h.of_bind with ⟨tr₁, tr₂, a, t, rfl, h₁, h₂⟩ | ⟨r', -, h'⟩
  · rw [List.filterMap_append]
    exact (hp _ _ _ _ h₁).append (hf a _ _ _ _ h₂)
  · exact (hp _ _ _ _ h').trans (List.sublist_append_left _ _)

theorem readsWithin_done (a : α) : ReadsWithin S (.done a : GraphCycle α) [] :=
  readsWithin_of_asks (K := fun _ => False) trivial fun _ h => h.elim

theorem readsWithin_request (request : GraphRequest) :
    ReadsWithin S (graphRequest request) (readId (.server request)).toList := by
  intro s u tr r h
  cases h with
  | cut => exact List.nil_sublist _
  | ask _ _ hrest =>
    cases hrest <;> cases hid : readId (.server request) <;> simp [hid]

theorem readsWithin_readEntry (known : KnownMessages) (reading : Reading) (recentLimit : ℤ)
    (folder id : String) (change : MessageChange) :
    ReadsWithin S (readEntry known reading recentLimit folder id change) [id] := by
  have hresult : ∀ answer : Except GraphError (Option (GraphMessage × String)),
      ReadsWithin S ((graphResult answer).bind fun found =>
        .done ((found.filter fun found => found.2 = folder).map Prod.fst) : GraphCycle
          (Option GraphMessage)) [] := fun answer =>
    readsWithin_of_asks (K := fun _ => False) ((graphResult_asks answer).bind fun _ => trivial)
      fun _ h => h.elim
  have hread : ReadsWithin S (readInFolder id folder) [id] :=
    (readsWithin_request (.readMessage id)).bind hresult
  unfold readEntry
  split
  · rw [← List.append_nil [id]]
    refine hread.bind fun found => ?_
    cases found <;> exact readsWithin_done _
  · refine fun s u tr r h => (readsWithin_of_asks (K := fun _ => False) ?_ (fun _ h => h.elim) s u
      tr r h).trans (List.nil_sublist _)
    cases change <;> trivial

theorem readsWithin_readEntries (known : KnownMessages) (reading : Reading) (recentLimit : ℤ)
    (folder : String) (changes : List (String × MessageChange)) :
    ReadsWithin S (readEntries known reading recentLimit folder changes)
      (changes.map Prod.fst) := by
  induction changes with
  | nil => exact readsWithin_done _
  | cons entry changes ih =>
    have hrest := fun outcome : Option (String ⊕ Arrival) =>
      ih.bind fun outcomes => readsWithin_done (S := S) (outcome.toList ++ outcomes)
    simp only [List.append_nil] at hrest
    exact (readsWithin_readEntry known reading recentLimit folder entry.1 entry.2).bind hrest

/-- **A page** reads each of its messages at most once. -/
theorem readsWithin_batchFromChanges (rules : ContentRules)
    (changes : List (String × MessageChange)) (reading : Reading) (recentLimit : ℤ)
    (batches : BatchWriter) :
    ReadsWithin S (batchFromChanges rules changes reading recentLimit batches)
      (changes.map Prod.fst) := by
  have hcall : ∀ op : StoreCall, ReadsWithin S
      (storeCall op : CycleProgram GraphRequest.Reply op.Result) [] := fun op =>
    readsWithin_of_asks (K := fun o => ∃ op, o = .store op) (storeCall_asks ⟨op, rfl⟩)
      fun o ⟨op, ho⟩ => by rw [ho]; rfl
  have htexts : ∀ outcomes : List (String ⊕ Arrival),
      ReadsWithin S (readTexts (outcomes.filterMap Sum.getRight?) reading batches.folder.identity)
        [] := fun outcomes =>
    readsWithin_of_asks (readTexts_asks (fun _ => rfl) (fun _ _ _ => rfl) _ _ _) fun o ho => ho
  have hbatch := fun elsewhere byAccount =>
    (readsWithin_readEntries (S := S) ⟨elsewhere, byAccount⟩ reading recentLimit
    batches.folder.identity changes).bind fun outcomes => (htexts outcomes).bind fun texts =>
      readsWithin_done
      (S := S) { FolderBatch.default with
        removed := outcomes.filterMap Sum.getLeft?
        arrived := (outcomes.filterMap Sum.getRight?).map (storedMessage rules texts) }
  simp only [List.append_nil] at hbatch
  exact (hcall _).bind fun elsewhere => (hcall _).bind fun byAccount => hbatch elsewhere byAccount

end ReadsWithin

/-- Readings of messages the folder holds are readings of the messages it held before. -/
theorem countP_readsHeld {t : Tables} {tr : History S} {ids : List String}
    (hstays : ∀ e ∈ tr, Stays t e.before.2)
    (hsub : (tr.filterMap fun e => readId e.op).Sublist ids) :
    tr.countP (readsHeld folder) ≤ ids.countP fun id =>
      (t.heldFlags folder (graphIdentity id)).isSome := by
  refine le_trans (le_of_eq ?_) (hsub.countP_le)
  clear hsub
  induction tr with
  | nil => rfl
  | cons e tr ih =>
    have hsame : ∀ id, (e.before.2.heldFlags folder (graphIdentity id)).isSome =
        (t.heldFlags folder (graphIdentity id)).isSome :=
      fun id => Bool.eq_iff_iff.mpr ((hstays e List.mem_cons_self).heldFlags_isSome folder _)
    have hrest := ih fun e he => hstays e (List.mem_cons_of_mem _ he)
    rw [List.countP_cons, hrest, readsHeld]
    cases hid : readId e.op with
    | none => simp [hid]
    | some id => simp [hid, List.countP_cons, hsame]

theorem countP_readsHeld_none {tr : History S} (h : ∀ e ∈ tr, readId e.op = none) :
    tr.countP (readsHeld folder) = 0 := by
  rw [List.countP_eq_zero]
  intro e he
  simp [readsHeld, h e he]

/-! ### A turn, and a run -/

section Turn

variable {rules : ContentRules} {order : HashOrder} {recentLimit : ℤ} {batches : BatchWriter}
  {loop : GraphLoop} {s u : S.World × Tables} {tr : History S}
  {r : Outcome CycleEnd (GraphLoop ⊕ LoadResult)}

theorem InSending.reads_none {o : CycleOp GraphRequest} (h : InSending o) : readId o = none := by
  cases o with
  | store op => rfl
  | server request => cases request <;> first | rfl | exact absurd h id

theorem Prepares.reads_none {loop : GraphLoop} {o : CycleOp GraphRequest}
    (h : Prepares loop folder o) : readId o = none := by
  rcases h with rfl | rfl <;> rfl

/-- What one turn reads one by one: nothing, or of the messages its page names, when these are not
too many. -/
theorem TurnCase.readings (h : TurnCase rules order recentLimit batches loop s tr r u)
    (folder : FolderRef) :
    (∀ e ∈ tr, readId e.op = none) ∨ ∃ page, pageRead (⟨loop, s, tr⟩ : PageTurn S) = some page ∧
      (loop.counted (loop.changesOf order page)).namesTooMany = false ∧
        tr.countP (readsHeld folder) ≤
          ((loop.changesOf order page).map Prod.fst).countP fun id =>
          (s.2.heldFlags folder (graphIdentity id)).isSome := by
  have hpage : ∀ {page : ChangePage} {s' t v : S.World × Tables} {tr' rest : History S}
    {r' : Outcome CycleEnd FolderBatch},
      Stays s.2 t.2 → Run (surroundings S)
        (batchFromChanges rules (loop.changesOf order page) (loop.entered order page).reading
          recentLimit batches) t tr' r' v →
      (∀ e ∈ rest, readId e.op = none) →
      (⟨s', .server (.readMessageChanges loop.start), .ok page, t⟩ :: (tr' ++ rest) : History
        S).countP (readsHeld folder) ≤
        ((loop.changesOf order page).map Prod.fst).countP fun id =>
          (s.2.heldFlags folder (graphIdentity id)).isSome := by
    intro page s' t v tr' rest r' hstays hrun hrest
    rw [List.countP_cons, List.countP_append, countP_readsHeld_none hrest]
    refine countP_readsHeld (fun e he => hstays.trans ?_)
      (readsWithin_batchFromChanges _ _ _ _ _ _ _ _ _ hrun)
    exact (run_stays_of_asks hrun ((batchFromChanges_asks _ _ _ _ _).mono fun _ => InBatch.still)).2
      e he
  cases h with
  | ended hprepares => exact .inl fun e he => (hprepares e he).reads_none
  | reread hprepares => exact .inl fun e he => (hprepares e he).reads_none
  | @unstored page _ _ _ tr' _ _ hstays hwithin hrun _ =>
    have := @hpage _ s _ _ _ [] _ hstays hrun fun e he => absurd he List.not_mem_nil
    rw [List.append_nil] at this
    exact .inr ⟨page, rfl, hwithin, this⟩
  | @stored page _ _ _ _ _ _ tr' tr'' _ _ _ hstays hwithin hrun _ _ hrest =>
    refine .inr ⟨page, rfl, hwithin, hpage hstays hrun fun e he => ?_⟩
    rcases List.mem_cons.mp he with rfl | he
    · rfl
    · rcases hrest with ⟨-, -, hsends, -⟩ | ⟨-, rfl, -⟩
      · exact (hsends e he).reads_none
      · exact absurd he List.not_mem_nil

theorem roundReadings_concat : roundReadings folder (past ++ [turn]) =
    roundReadings folder past + if turn.loop.reading = .round then turn.events.countP
    (readsHeld folder) else 0 := by
  rw [roundReadings, roundReadings, List.filter_append, List.flatMap_append, List.countP_append,
    List.filter_singleton]
  by_cases hround : turn.loop.reading = .round <;> simp [hround]

/-- How many messages the folder holds a page names. -/
def heldNamed (folder : FolderRef) (t : Tables) (changes : List (String × MessageChange)) : ℕ :=
  (changes.map Prod.fst).countP fun id => (t.heldFlags folder (graphIdentity id)).isSome

theorem wouldRead_le {page : ChangePage} (t : Tables) :
    wouldRead folder t page ≤ heldNamed folder t (loop.changesOf order page) := by
  rw [wouldRead, ← List.countP_eq_length_filter, ← (order.perm loop.pages _).countP_eq, heldNamed,
    List.countP_map]
  refine List.countP_mono_left fun entry _ hheld => ?_
  simp only [Bool.decide_and, Bool.and_eq_true, decide_eq_true_eq] at hheld
  exact hheld.2

/-- They are counted, when the folder held them when it was read. -/
theorem heldNamed_le {page : ChangePage} {t : Tables}
    (hsince : ∀ id, NamedBy page id → (t.heldFlags folder (graphIdentity id)).isSome →
      (loop.stored.get (graphIdentity id)).isSome) :
    heldNamed folder t (loop.changesOf order page) ≤ loop.storedNamed
      (loop.changesOf order page) := by
  rw [heldNamed, GraphLoop.storedNamed, ← List.countP_eq_length_filter, List.countP_map]
  exact List.countP_mono_left fun entry hentry hheld => hsince entry.1
    (mem_changesOf_keys.mp (List.mem_map_of_mem hentry)) hheld

/-- What is so of the turns so far, when the next starts, in a cycle that began with the folder read
as `stored`. -/
structure CountsRound (folder : FolderRef) (stored : FolderSync) (past : List (PageTurn S))
    (loop : GraphLoop) : Prop where
  /-- What the folder held is as it was read at the start. -/
  stored : loop.reading.isFull = false → loop.stored = stored
  /-- Every reading of the round was counted. -/
  counted : loop.reading.isFull = false → roundReadings folder past ≤ loop.storedNamedInRound
  /-- The count keeps the limit. -/
  within : loop.reading.isFull = false → loop.storedNamedInRound ≤ roundReadingsLimit
  /-- The readings keep the limit. -/
  bound : roundReadings folder past ≤ roundReadingsLimit
  /-- A page that would have passed the limit led to a full rereading. -/
  passed : ∀ pre turn mid, past = pre ++ turn :: mid → PassesLimit folder pre turn →
    loop.reading.isFull = true

/-- In a turn of the round, what the page names and the folder holds was in the folder at the
start. -/
def NamesHeld (folder : FolderRef) (stored : FolderSync) (turn : PageTurn S) : Prop :=
  turn.loop.reading = .round → ∀ page id, pageRead turn = some page → NamedBy page id →
    (turn.before.2.heldFlags folder (graphIdentity id)).isSome →
    (stored.get (graphIdentity id)).isSome

/-- In a round that names not too many, the readings after a turn are counted, and it passes no
limit. -/
theorem counts_turn {stored : FolderSync} (hI : CountsRound folder stored past loop)
    (hnames : NamesHeld folder stored ⟨loop, s, tr⟩) {page : ChangePage}
    (hround : loop.reading = .round) (hpage : pageRead (⟨loop, s, tr⟩ : PageTurn S) = some page)
    (hwithin : (loop.counted (loop.changesOf order page)).namesTooMany = false) :
    roundReadings folder past + heldNamed folder s.2 (loop.changesOf order page) ≤
        (loop.counted (loop.changesOf order page)).storedNamedInRound ∧
      (loop.counted (loop.changesOf order page)).storedNamedInRound ≤ roundReadingsLimit := by
  have hfirst := isFull_of_round hround
  constructor
  · rw [GraphLoop.counted, if_pos hround]
    refine Nat.add_le_add (hI.counted hfirst) (heldNamed_le fun id hnamed hheld => ?_)
    rw [hI.stored hfirst]
    exact hnames hround page id hpage hnamed hheld
  · have hround' : (loop.counted (loop.changesOf order page)).reading = .round := hround
    simpa [GraphLoop.namesTooMany, hround'] using hwithin

/-- After a page that was made a batch of, the readings are counted and keep the limit. -/
theorem counts_page {stored : FolderSync} (hI : CountsRound folder stored past loop)
    (hnames : NamesHeld folder stored ⟨loop, s, tr⟩) {page : ChangePage}
    (hpage : pageRead (⟨loop, s, tr⟩ : PageTurn S) = some page)
    (hwithin : (loop.counted (loop.changesOf order page)).namesTooMany = false)
    (hreads : tr.countP (readsHeld folder) ≤ heldNamed folder s.2 (loop.changesOf order page))
    (hfirst : loop.reading.isFull = false) :
    roundReadings folder (past ++ [⟨loop, s, tr⟩]) ≤
    (loop.counted (loop.changesOf order page)).storedNamedInRound ∧
      (loop.counted (loop.changesOf order page)).storedNamedInRound ≤ roundReadingsLimit := by
  rw [roundReadings_concat]
  by_cases hround : loop.reading = .round
  · obtain ⟨hcounted, hlimit⟩ := counts_turn hI hnames hround hpage hwithin
    rw [if_pos hround]
    exact ⟨(Nat.add_le_add_left hreads _).trans hcounted, hlimit⟩
  · rw [if_neg hround, GraphLoop.counted, if_neg hround]
    exact ⟨hI.counted hfirst, hI.within hfirst⟩

/-- A page that was made a batch of does not pass the limit. -/
theorem not_passes {stored : FolderSync} (hI : CountsRound folder stored past loop)
    (hnames : NamesHeld folder stored ⟨loop, s, tr⟩) {page : ChangePage}
    (hpage : pageRead (⟨loop, s, tr⟩ : PageTurn S) = some page)
    (hwithin : (loop.counted (loop.changesOf order page)).namesTooMany = false) :
    ¬PassesLimit folder past ⟨loop, s, tr⟩ := by
  rintro ⟨hround, page', hpage', hpasses⟩
  cases hpage.symm.trans hpage'
  obtain ⟨hcounted, hlimit⟩ := counts_turn hI hnames hround hpage hwithin
  have hwould : wouldRead folder s.2 page ≤ heldNamed folder s.2 (loop.changesOf order page) :=
    wouldRead_le s.2
  exact absurd hpasses (Nat.not_lt.mpr
    ((Nat.add_le_add_left hwould _).trans (hcounted.trans hlimit)))

theorem bound_turn {stored : FolderSync} (hI : CountsRound folder stored past loop)
    (hnames : NamesHeld folder stored ⟨loop, s, tr⟩)
    (hcase : TurnCase rules order recentLimit batches loop s tr r u) :
    roundReadings folder (past ++ [⟨loop, s, tr⟩]) ≤ roundReadingsLimit := by
  rcases hcase.readings folder with hnone | ⟨page, hpage, hwithin, hreads⟩
  · rw [roundReadings_concat, countP_readsHeld_none hnone]
    simpa using hI.bound
  · cases hfull : loop.reading.isFull with
    | false =>
      obtain ⟨hcounted, hlimit⟩ := counts_page hI hnames hpage hwithin hreads hfull
      exact hcounted.trans hlimit
    | true =>
      have hround : loop.reading ≠ .round := fun hround => by
        rw [isFull_of_round hround] at hfull
        cases hfull
      rw [roundReadings_concat, if_neg hround]
      exact hI.bound

/-- A page that would pass the limit is not read message by message. -/
theorem passing_turn {stored : FolderSync} (hI : CountsRound folder stored past loop)
    (hnames : NamesHeld folder stored ⟨loop, s, tr⟩)
    (hcase : TurnCase rules order recentLimit batches loop s tr r u)
    (hpasses : PassesLimit folder past ⟨loop, s, tr⟩) : ∀ e ∈ tr, readId e.op = none := by
  rcases hcase.readings folder with hnone | ⟨page, hpage, hwithin, -⟩
  · exact hnone
  · exact absurd hpasses (not_passes hI hnames hpage hwithin)

/-- After a page the loop has what it had, the page counted. -/
theorem after_inl {page : ChangePage} {loop' : GraphLoop}
    (h : (loop.entered order page).after page.next = .inl loop') :
    loop'.stored = loop.stored ∧ loop'.reading.isFull = loop.reading.isFull ∧
      loop'.storedNamedInRound = (loop.counted (loop.changesOf order page)).storedNamedInRound := by
  have hnamed : (loop.entered order page).storedNamedInRound =
      (loop.counted (loop.changesOf order page)).storedNamedInRound := by
    unfold GraphLoop.entered GraphLoop.listed
    split <;> rfl
  cases hnext : page.next with
  | more link =>
    rw [hnext] at h
    cases h
    exact ⟨entered_stored, entered_isFull, hnamed⟩
  | finished link =>
    rw [hnext, GraphLoop.after] at h
    split at h
    · rename_i hfill
      have hfirst : loop.reading.isFull = false := entered_isFull.symm.trans (by rw [hfill]; rfl)
      cases h
      exact ⟨entered_stored, hfirst.symm, hnamed⟩
    · cases h

theorem countsRound_next {stored : FolderSync} (hI : CountsRound folder stored past loop)
    (hnames : NamesHeld folder stored ⟨loop, s, tr⟩)
    (hcase : TurnCase rules order recentLimit batches loop s tr r u) {loop' : GraphLoop}
    (hr : r = .returned (.inl loop')) :
    CountsRound folder stored (past ++ [⟨loop, s, tr⟩]) loop' := by
  have hbound := bound_turn hI hnames hcase
  have hreadings := hcase.readings folder
  cases hcase with
  | ended _ hlast => exact absurd hr (hlast _)
  | unstored _ _ _ hlast => exact absurd hr (hlast _)
  | reread =>
    cases hr
    exact ⟨fun hfirst => (by cases hfirst), fun hfirst => (by cases hfirst), fun hfirst =>
      (by cases hfirst), hbound,
      fun _ _ _ _ _ => rfl⟩
  | @stored page s' t t₁ t₂ t₃ _ tr₁ tr₂ batch answer _ hstays hwithin hbatch hmoved hcall hrest =>
    have hgo : (loop.entered order page).after page.next = .inl loop' := by
      rcases hrest with ⟨-, -, -, hafter | hlast⟩ | ⟨-, -, -, hlast⟩
      · exact Outcome.returned.inj (hafter.symm.trans hr)
      · exact absurd hr (hlast _)
      · exact absurd hr (hlast _)
    obtain ⟨hstored, hfull, hnamed⟩ := after_inl hgo
    have hcounts := fun hfirst => counts_page hI hnames rfl hwithin (hreadings.elim
      (fun hnone => (countP_readsHeld_none hnone).le.trans (Nat.zero_le _))
        fun ⟨page', hpage', _, hreads⟩ => by
        cases hpage'
        exact hreads) hfirst
    refine ⟨fun hfirst => ?_, fun hfirst => ?_, fun hfirst => ?_, hbound,
      fun pre turn mid heq hpasses => ?_⟩
    · rw [hstored]
      exact hI.stored (hfull.symm.trans hfirst)
    · rw [hnamed]
      exact (hcounts (hfull.symm.trans hfirst)).1
    · rw [hnamed]
      exact (hcounts (hfull.symm.trans hfirst)).2
    · rw [hfull]
      rcases concat_eq_append_cons heq with ⟨-, rfl, rfl⟩ | ⟨mid', -, hpast⟩
      · exact absurd hpasses (not_passes hI hnames rfl hwithin)
      · exact hI.passed pre turn mid' hpast hpasses

end Turn

/-- **A round's readings keep their limit**: in every run of a cycle in which each message that a
page of a round names and the folder then holds was in the folder when the cycle began, at most
a hundred readings of messages the folder holds are made, and a page that would need more is
not read message by message: the whole folder is read from then on. -/
theorem rounds_bounded (rules : ContentRules) (order : HashOrder) (recentLimit : ℤ)
    (batches : BatchWriter) (calls : List (StoreCall × Circumstances)) (w : S.World)
    {first : History S} {pages : List (PageTurn S)} {r : Outcome CycleEnd LoadResult}
    {u : S.World × Tables}
    (hpages : Paged rules order recentLimit batches (w, Store.run .empty calls) first pages r u)
    (hsince : HeldSinceStart batches.folder pages) : RoundBounded batches.folder pages := by
  obtain ⟨stored, t, hread, hturns⟩ := hpages.turns
  have hso := run_readFolderSync hread (run_shape shape_empty calls)
  have hnames : ∀ turn ∈ pages, NamesHeld batches.folder stored turn := by
    intro turn hturn hround page id hpage hnamed hheld
    have hfirst := List.head?_eq_some_head (List.ne_nil_of_mem hturn)
    have := hsince _ turn page id hfirst hturn hround hpage hnamed hheld
    rwa [(hturns.head hfirst).2, ← hso.2] at this
  have hbegin : CountsRound batches.folder stored ([] : List (PageTurn S))
      (.begin stored batches.folder.identity) :=
    ⟨fun _ => rfl, fun _ => Nat.zero_le _, fun _ => Nat.zero_le _, Nat.zero_le _,
      fun pre turn mid heq => by cases pre <;> cases heq⟩
  obtain ⟨hall, hbound⟩ :=
    Turns.every (I := fun past loop _ => CountsRound batches.folder stored past loop)
    (P := fun past turn => (PassesLimit batches.folder past turn → ∀ e ∈ turn.events,
      readId e.op = none) ∧
      ∀ pre turn' mid, past = pre ++ turn' :: mid → PassesLimit batches.folder pre turn' →
        turn.loop.reading.isFull = true)
    (F := fun past _ => roundReadings batches.folder past ≤ roundReadingsLimit)
      (fun past loop s hI => hI.bound) hturns
    (fun past loop s tr r u hmem hI hrun =>
      ⟨⟨passing_turn hI (hnames _ hmem) (readPage_cases hrun), hI.passed⟩,
      bound_turn hI (hnames _ hmem) (readPage_cases hrun),
      fun loop' hr => countsRound_next hI (hnames _ hmem) (readPage_cases hrun) hr⟩) [] hbegin
  refine ⟨hbound, fun past turn post heq hpasses =>
    ⟨(hall past turn post heq).1 hpasses, fun later hlater => ?_⟩⟩
  obtain ⟨mid, post', rfl⟩ := List.append_of_mem hlater
  exact (hall (past ++ turn :: mid) later post' (by rw [heq]; simp)).2 past turn mid rfl hpasses

/-! ### A round after a continued first fill -/

/-- An inbox whose first fill is unfinished. -/
def unfinishedFill : List (StoreCall × Circumstances) :=
  [(.replaceFolders filledInbox.account [⟨"INBOX", "INBOX", none, none, true⟩], ⟨false, none⟩),
    (.storeBatch filledInbox
      { FolderBatch.default with state := some ⟨none, some "fill", false, none⟩ }, ⟨false, none⟩)]

/-- What a cycle reads of it. -/
def unfinishedSync : FolderSync := ⟨⟨none, some "fill", false, none⟩, []⟩

/-- A service whose fill ends with a message, and which names that message on every page of the
round after it. -/
def servingAgain : (request : GraphRequest) → request.Reply
  | .readMessageChanges start =>
    if start = .link "fill" then .ok ⟨[.listed (receivedAt "x" 1000)], .finished "round"⟩
    else .ok ⟨[.changed "x" (some true) none false], .more "round"⟩
  | .readMessage _ => .ok (some (receivedAt "x" 1000, "INBOX"))
  | .readMessageText _ => .ok none
  | .readTextsReceivedBetween .. => .ok []
  | .updateMessageFlags .. => .ok ()

/-- One turn of the cycle against it. -/
def turnAgain (loop : GraphLoop) (t : Unit × Tables) :
    History (anyServer GraphRequest.Reply) × Outcome CycleEnd (GraphLoop ⊕ LoadResult) ×
      (Unit × Tables) :=
  exec (scripted servingAgain) (readPage noTextRules inOrder 2000 ⟨filledInbox⟩ loop) t

/-- The turn of the fill's last page. -/
def fillTurn : PageTurn (anyServer GraphRequest.Reply) :=
  ⟨.begin unfinishedSync "INBOX", ((), run .empty unfinishedFill),
    (turnAgain (.begin unfinishedSync "INBOX") ((), run .empty unfinishedFill)).1⟩

/-- The state it leaves, which every page of the round leaves again. -/
def afterFill : Unit × Tables :=
  (turnAgain (.begin unfinishedSync "INBOX") ((), run .empty unfinishedFill)).2.2

/-- The loop in the round, after some pages. -/
def roundLoop (k : ℕ) : GraphLoop := ⟨unfinishedSync, .link "round", .round, some "round", 0, k + 1⟩

/-- Pages of the round, one after another. -/
def roundTurns : ℕ → ℕ → List (PageTurn (anyServer GraphRequest.Reply))
  | 0, _ => []
  | n + 1, k =>
    ⟨roundLoop k, afterFill, (turnAgain (roundLoop k) afterFill).1⟩ :: roundTurns n (k + 1)

theorem turnAgain_run (loop : GraphLoop) (t : Tables) :
    Run (surroundings (anyServer GraphRequest.Reply))
    (readPage noTextRules inOrder 2000 ⟨filledInbox⟩ loop) ((), t)
      (turnAgain loop ((), t)).1 (turnAgain loop ((), t)).2.1 (turnAgain loop ((), t)).2.2 :=
  run_scripted servingAgain _ t

/-- A page of the round leaves the loop and the store as they were. -/
theorem roundTurn_next (k : ℕ) :
    (turnAgain (roundLoop k) afterFill).2 = (.returned (.inl (roundLoop (k + 1))), afterFill) := rfl

theorem roundTurn_readings (k : ℕ) :
    (turnAgain (roundLoop k) afterFill).1.countP (readsHeld filledInbox) = 1 := rfl

theorem roundTurns_run (n k : ℕ) :
    Turns (surroundings (anyServer GraphRequest.Reply))
    (readPage noTextRules inOrder 2000 ⟨filledInbox⟩) (roundLoop k) afterFill
      (roundTurns n k) .cut afterFill := by
  induction n generalizing k with
  | zero => exact .cut
  | succ n ih =>
    have hrun := turnAgain_run (roundLoop k) afterFill.2
    have hnext := roundTurn_next k
    rw [show (turnAgain (roundLoop k) ((), afterFill.2)).2.1 = _ from congrArg Prod.fst hnext,
      show (turnAgain (roundLoop k) ((), afterFill.2)).2.2 = _ from congrArg Prod.snd hnext] at hrun
    exact .next hrun (ih (k + 1))

theorem roundTurns_readings (n k : ℕ) : roundReadings filledInbox (roundTurns n k) = n := by
  induction n generalizing k with
  | zero => rfl
  | succ n ih =>
    have hrest := ih (k + 1)
    rw [roundReadings] at hrest
    rw [roundTurns, roundReadings, List.filter_cons_of_pos (by rfl), List.flatMap_cons,
      List.countP_append, hrest]
    exact (congrArg (· + n) (roundTurn_readings k)).trans (Nat.add_comm 1 n)

theorem fillTurn_paged (n : ℕ) :
    Paged noTextRules inOrder 2000 ⟨filledInbox⟩ ((), run .empty unfinishedFill)
      (exec (scripted servingAgain)
        (BatchWriter.readFolderSync ⟨filledInbox⟩ : GraphCycle FolderSync)
        ((), run .empty unfinishedFill)).1 (fillTurn :: roundTurns n 0) .cut afterFill := by
  have hread := run_scripted servingAgain
    (BatchWriter.readFolderSync ⟨filledInbox⟩ : GraphCycle FolderSync) (run .empty unfinishedFill)
  exact ⟨unfinishedSync, _, hread, .next (turnAgain_run _ _) (roundTurns_run n 0)⟩

/-- **A round after a continued first fill passes the limit**: the fill's last page stored a
message that the folder, as the cycle read it, did not hold; a hundred and one pages of the
round name it, and each reads it again. -/
theorem rounds_unbounded :
    Paged noTextRules inOrder 2000 ⟨filledInbox⟩ ((), run .empty unfinishedFill)
        (exec (scripted servingAgain)
          (BatchWriter.readFolderSync ⟨filledInbox⟩ : GraphCycle FolderSync)
          ((), run .empty unfinishedFill)).1 (fillTurn :: roundTurns 101 0) .cut afterFill ∧
      ¬RoundBounded filledInbox (fillTurn :: roundTurns 101 0) := by
  refine ⟨fillTurn_paged 101, fun hbounded => ?_⟩
  have hbound := hbounded.bound
  rw [roundReadings, List.filter_cons_of_neg (by decide), ← roundReadings,
    roundTurns_readings] at hbound
  exact absurd hbound (by decide)

/-! ### A round of a folder that holds what it names -/

/-- An inbox that holds the message, with a saved position. -/
def savedPosition : List (StoreCall × Circumstances) :=
  [(.replaceFolders filledInbox.account [⟨"INBOX", "INBOX", none, none, true⟩], ⟨false, none⟩),
    (.storeBatch filledInbox { FolderBatch.default with
      arrived := [stored noTextRules .notDownloaded (receivedAt "x" 1000)]
      state := some ⟨some "round", none, true, none⟩ }, ⟨false, none⟩)]

/-- What a cycle reads of it. -/
def savedSync : FolderSync := ⟨⟨some "round", none, true, none⟩, [("graph:x", ⟨false, false⟩)]⟩

/-- The first page of its round. -/
def savedTurn : PageTurn (anyServer GraphRequest.Reply) :=
  ⟨.begin savedSync "INBOX", ((), run .empty savedPosition),
    (turnAgain (.begin savedSync "INBOX") ((), run .empty savedPosition)).1⟩

theorem savedTurn_paged :
    Paged noTextRules inOrder 2000 ⟨filledInbox⟩ ((), run .empty savedPosition)
      (exec (scripted servingAgain)
        (BatchWriter.readFolderSync ⟨filledInbox⟩ : GraphCycle FolderSync)
        ((), run .empty savedPosition)).1 [savedTurn] .cut
      (turnAgain (.begin savedSync "INBOX") ((), run .empty savedPosition)).2.2 := by
  have hread := run_scripted servingAgain
    (BatchWriter.readFolderSync ⟨filledInbox⟩ : GraphCycle FolderSync) (run .empty savedPosition)
  exact ⟨savedSync, _, hread, .next (turnAgain_run _ _) .cut⟩

/-- Its one reading keeps the limit. -/
theorem rounds_bounded_saved :
    roundReadings filledInbox [savedTurn] = 1 ∧ RoundBounded filledInbox [savedTurn] := by
  have hsince : HeldSinceStart filledInbox [savedTurn] := by
    intro first turn page id hfirst hturn _ _ _ hheld
    cases hfirst
    rwa [List.mem_singleton.mp hturn] at hheld
  exact ⟨rfl, rounds_bounded noTextRules inOrder 2000 ⟨filledInbox⟩ savedPosition
    () savedTurn_paged hsince⟩

end Mailbag.Cycle
