import Mailbag.Cycle.GraphCycle
import Mailbag.Cycle.GraphPages

/-!
# What one turn of a Microsoft 365 cycle does

A turn asks for a page. Then it either stops there, or turns to a full rereading, or makes
a batch of the page and stores it with the folder's new state. `TurnCase` says so of every
run of a turn, wherever it ends, with all a turn can do to the store and all the next turn
starts from; what is proved of a cycle is read off it.

## What is proved

* `readPage_cases` — every run of a turn is one of these.
-/

namespace Mailbag.Cycle

open Collections Graph Imap Interaction Program Relation Store

variable {S : Server GraphRequest.Reply} {α : Type}

/-! ### Operations that move no message -/

/-- An operation that moves no message and changes no folder. -/
def Still : CycleOp GraphRequest → Prop
  | .store op => ¬op.Moves
  | .server _ => True

/-- A run of such operations leaves every message in its folders, and the folders as they are. -/
theorem run_stays {ε : Type} {p : Program (CycleOp GraphRequest) (CycleAns GraphRequest.Reply) ε α}
    {s u : S.World × Tables} {tr : History S} {r : Outcome ε α}
    (h : Run (surroundings S) p s tr r u) (hstill : ∀ e ∈ tr, Still e.op) :
    Stays s.2 u.2 ∧ ∀ e ∈ tr, Stays s.2 e.before.2 := by
  refine h.keeps (I := fun v => Stays s.2 v.2) ?_ ?_ (.refl _)
  · intro v w hv hm
    exact hv.trans (moved (.single hm)).2.2.toStays
  · rintro ⟨before, op, ans, after⟩ he hbefore
    have hanswered := h.answered _ he
    cases op with
    | store op =>
      obtain ⟨-, met, hcall⟩ := hanswered
      have := call_stays (hstill _ he) before.2 met
      rw [← hcall] at this
      exact hbefore.trans this
    | server request =>
      obtain ⟨-, htables⟩ := hanswered
      rw [show after.2 = before.2 from htables]
      exact hbefore

theorem run_stays_of_asks {ε : Type}
    {p : Program (CycleOp GraphRequest) (CycleAns GraphRequest.Reply) ε α} {s u : S.World × Tables}
    {tr : History S} {r : Outcome ε α} (h : Run (surroundings S) p s tr r u)
    (hp : p.Asks Still) : Stays s.2 u.2 ∧ ∀ e ∈ tr, Stays s.2 e.before.2 :=
  run_stays h (h.asked hp)

/-- A request, or a call that only reads, changes no folder. -/
theorem graphRequest_asks {K : CycleOp GraphRequest → Prop} {request : GraphRequest}
    {f : request.Reply → GraphCycle α} (hrequest : K (.server request))
    (hf : ∀ reply, (f reply).Asks K) : ((graphRequest request).bind f).Asks K :=
  Asks.bind (Asks.request hrequest) hf

theorem storeCall_asks {K : CycleOp GraphRequest → Prop} {op : StoreCall} (hop : K (.store op)) :
    (storeCall op : CycleProgram GraphRequest.Reply op.Result).Asks K :=
  Asks.bind (Asks.request hop) fun _ => .ofExcept _

/-! ### What the parts of a turn ask -/

/-- What a page asks for to be made a batch. -/
def InBatch : CycleOp GraphRequest → Prop
  | .store (.identitiesInOtherFolders ..) => True
  | .store (.storedIdentities ..) => True
  | .server (.readMessage _) => True
  | .server (.readMessageText _) => True
  | .server (.readTextsReceivedBetween ..) => True
  | _ => False

theorem InBatch.still {o : CycleOp GraphRequest} (h : InBatch o) : Still o := by
  cases o with
  | server request => trivial
  | store op => cases op <;> first | exact id | exact absurd h id

theorem graphResult_asks {K : CycleOp GraphRequest → Prop} (answer : Except GraphError α) :
    (graphResult answer).Asks K :=
  .ofExcept _

theorem readEntry_asks (known : KnownMessages) (reading : Reading) (recentLimit : ℤ)
    (folder id : String) (change : MessageChange) :
    (readEntry known reading recentLimit folder id change).Asks InBatch := by
  unfold readEntry
  split
  · refine Asks.bind (graphRequest_asks trivial fun answer => (graphResult_asks answer).bind
      fun _ => trivial) fun found => ?_
    cases found <;> trivial
  · cases change <;> trivial

theorem readEntries_asks (known : KnownMessages) (reading : Reading) (recentLimit : ℤ)
    (folder : String) (changes : List (String × MessageChange)) :
    (readEntries known reading recentLimit folder changes).Asks InBatch := by
  induction changes with
  | nil => trivial
  | cons entry changes ih =>
    exact (readEntry_asks _ _ _ _ _ _).bind fun _ => ih.bind fun _ => trivial

theorem readTextsOf_asks {K : CycleOp GraphRequest → Prop}
    (hone : ∀ id, K (.server (.readMessageText id))) (messages : List GraphMessage) :
    (readTextsOf messages).Asks K := by
  induction messages with
  | nil => trivial
  | cons message messages ih =>
    exact graphRequest_asks (hone _) fun answer => (graphResult_asks answer).bind fun _ => ih.bind
      fun _ => trivial

theorem readTexts_asks {K : CycleOp GraphRequest → Prop}
    (hone : ∀ id, K (.server (.readMessageText id)))
    (hrange : ∀ folder first last, K (.server (.readTextsReceivedBetween folder first last)))
    (arrivals : List Arrival) (reading : Reading) (folder : String) :
    (readTexts arrivals reading folder).Asks K := by
  unfold readTexts
  dsimp only
  split
  · trivial
  · cases reading with
    | round => exact readTextsOf_asks hone _
    | firstFill | fullRereading =>
      dsimp only
      split
      · exact graphRequest_asks (hrange _ _ _) fun answer => graphResult_asks answer
      · trivial

theorem batchFromChanges_asks (rules : ContentRules) (changes : List (String × MessageChange))
    (reading : Reading) (recentLimit : ℤ) (batches : BatchWriter) :
    (batchFromChanges rules changes reading recentLimit batches).Asks InBatch :=
  (storeCall_asks trivial).bind fun _ => (storeCall_asks trivial).bind fun _ =>
    (readEntries_asks _ _ _ _ _).bind fun _ =>
    (readTexts_asks (fun _ => trivial) (fun _ _ _ => trivial) _ _ _).bind fun _ => trivial

/-- What the sending step asks. -/
def InSending : CycleOp GraphRequest → Prop
  | .store (.readPendingChanges _) => True
  | .store (.settleFlags ..) => True
  | .store (.dropPendingFlags ..) => True
  | .server (.updateMessageFlags ..) => True
  | _ => False

theorem InSending.still {o : CycleOp GraphRequest} (h : InSending o) : Still o := by
  cases o with
  | server request => trivial
  | store op => cases op <;> first | exact id | exact absurd h id

theorem sendGraphChange_asks (batches : BatchWriter) (change : PendingChange) :
    (sendGraphChange batches change).Asks InSending := by
  unfold sendGraphChange
  split
  · trivial
  · refine graphRequest_asks trivial fun answer => ?_
    cases answer with
    | ok => exact storeCall_asks trivial
    | error error =>
      dsimp only
      split
      · exact (storeCall_asks trivial).bind fun _ => trivial
      · trivial

theorem sendGraphChanges_asks (batches : BatchWriter) :
    (sendGraphChanges batches).Asks InSending := by
  have hsends : ∀ changes, (sendGraphChangesOf batches changes).Asks InSending := by
    intro changes
    induction changes with
    | nil => trivial
    | cons change changes ih => exact (sendGraphChange_asks batches change).bind fun _ => ih
  exact (storeCall_asks trivial).bind fun pending => hsends pending

/-! ### The storing of a page -/

/-- The folder's state after a page. -/
def GraphLoop.stateAfter (loop : GraphLoop) : NextPage → FolderState
  | .more nextLink => loop.unfinished nextLink
  | .finished deltaLink =>
    if loop.reading = .firstFill true then ⟨some deltaLink, none, false, none⟩
      else completed (some deltaLink)

/-- The messages that leave with a reading's last page. -/
def GraphLoop.goneAfter (loop : GraphLoop) : NextPage → List String
  | .more _ => []
  | .finished _ => loop.unlisted

/-- The batch a page is stored with. -/
def GraphLoop.finalBatch (loop : GraphLoop) (next : NextPage) (batch : FolderBatch) : FolderBatch :=
  { batch with
    removed := batch.removed ++ loop.goneAfter next
    state := some (loop.stateAfter next) }

/-- What follows a page: another, or the cycle's end. -/
def GraphLoop.after (loop : GraphLoop) : NextPage → GraphLoop ⊕ LoadResult
  | .more nextLink => .inl { loop with start := .link nextLink }
  | .finished deltaLink =>
    if loop.reading = .firstFill true then
      .inl { loop with roundStart := some deltaLink, start := .link deltaLink, reading := .round }
    else .inr (.stored none)

/-- The sending step after a page. -/
def GraphLoop.sending (loop : GraphLoop) (batches : BatchWriter) : NextPage → GraphCycle Unit
  | .more _ => if loop.reading = .round then .done () else sendGraphChanges batches
  | .finished _ => sendGraphChanges batches

/-- The three ways of a page are one. -/
theorem storePage_eq (batches : BatchWriter) (loop : GraphLoop) (next : NextPage)
    (batch : FolderBatch) :
    storePage batches loop next batch = (batches.store (loop.finalBatch next batch)).bind fun _ =>
      (loop.sending batches next).bind fun _ => .done (loop.after next) := by
  cases next with
  | more nextLink =>
    have hbatch : loop.finalBatch (.more nextLink) batch =
        { batch with state := some (loop.unfinished nextLink) } := by
      simp [GraphLoop.finalBatch, GraphLoop.goneAfter, GraphLoop.stateAfter]
    rw [hbatch]
    rfl
  | finished deltaLink =>
    by_cases hfill : loop.reading = .firstFill true
    · have hbatch : loop.finalBatch (.finished deltaLink) batch =
          { batch with state := some ⟨some deltaLink, none, false, none⟩ } := by
        simp [GraphLoop.finalBatch, GraphLoop.goneAfter, GraphLoop.unlisted, GraphLoop.stateAfter,
          hfill]
      rw [hbatch, storePage, if_pos hfill, GraphLoop.after, if_pos hfill]
      rfl
    · have hbatch : loop.finalBatch (.finished deltaLink) batch =
          { batch with
            removed := batch.removed ++ loop.unlisted
            state := some (completed (some deltaLink)) } := by
        simp [GraphLoop.finalBatch, GraphLoop.goneAfter, GraphLoop.stateAfter, hfill]
      rw [hbatch, storePage, if_neg hfill, GraphLoop.after, if_neg hfill]
      rfl

theorem sending_asks (loop : GraphLoop) (batches : BatchWriter) (next : NextPage) :
    (loop.sending batches next).Asks InSending := by
  cases next with
  | more nextLink =>
    unfold GraphLoop.sending
    dsimp only
    split
    · trivial
    · exact sendGraphChanges_asks batches
  | finished deltaLink => exact sendGraphChanges_asks batches

/-- A run of the storing of a batch that says something: it ends before the call, or the call
was answered, and was answered as stored when more follows. -/
theorem run_store {batches : BatchWriter} {batch : FolderBatch} {f : Unit → GraphCycle α}
    {s u : S.World × Tables} {tr : History S} {r : Outcome CycleEnd α} (hbatch : batch ≠ .default)
    (h : Run (surroundings S) ((batches.store batch).bind f) s tr r u) :
    (tr = [] ∧ r = .cut ∧ u = s) ∨
      ∃ s' answer t rest, tr = ⟨s', .store (.storeBatch batches.folder batch), answer, t⟩ :: rest ∧
        Kept s.2 s'.2 ∧ (∃ met, (answer, t.2) = call s'.2 (.storeBatch batches.folder batch) met) ∧
          (answer = .ok .stored ∧ Run (surroundings S) (f ()) t rest r u ∨
            answer ≠ .ok .stored ∧ rest = [] ∧ u = t ∧ ∀ x, r ≠ .returned x) := by
  rw [BatchWriter.store, if_neg hbatch] at h
  cases h with
  | cut => exact .inl ⟨rfl, rfl, rfl⟩
  | @ask _ _ _ s' t _ answer rest _ hm ha hrest =>
    refine .inr ⟨s', answer, t, rest, rfl, (moved hm).2.2, ha.2, ?_⟩
    cases answer with
    | error failure =>
      refine .inr ⟨by simp, ?_⟩
      cases hrest <;> exact ⟨rfl, rfl, by simp⟩
    | ok written =>
      cases written with
      | stored => exact .inl ⟨rfl, hrest⟩
      | loadCancelled =>
        refine .inr ⟨by simp, ?_⟩
        cases hrest <;> exact ⟨rfl, rfl, by simp⟩

/-! ### A turn -/

/-- The entries of a page, as the turn goes through them. -/
def GraphLoop.changesOf (loop : GraphLoop) (order : HashOrder) (page : ChangePage) :
    List (String × MessageChange) :=
  order.arrange loop.pages (mergePerMessage page.changes)

/-- The loop while the turn makes a batch of a page. -/
def GraphLoop.entered (loop : GraphLoop) (order : HashOrder) (page : ChangePage) : GraphLoop :=
  (loop.counted (loop.changesOf order page)).listed (loop.changesOf order page)

section Entered

variable {loop : GraphLoop} {order : HashOrder} {page : ChangePage}

@[simp] theorem entered_stored : (loop.entered order page).stored = loop.stored := by
  unfold GraphLoop.entered GraphLoop.listed
  split <;> rfl

@[simp] theorem entered_roundStart : (loop.entered order page).roundStart = loop.roundStart := by
  unfold GraphLoop.entered GraphLoop.listed
  split <;> rfl

/-- A full rereading lists the page's messages. -/
theorem entered_full {listed : List String} (h : loop.reading = .fullRereading listed) :
    (loop.entered order page).reading =
      .fullRereading (listed ++ (loop.changesOf order page).map fun entry =>
        graphIdentity entry.1) := by
  have hcounted : (loop.counted (loop.changesOf order page)).reading = .fullRereading listed := h
  rw [GraphLoop.entered, GraphLoop.listed]
  simp only [hcounted]

/-- Any other reading stays as it is. -/
theorem entered_reading (h : loop.reading.isFull = false) :
    (loop.entered order page).reading = loop.reading := by
  have hcounted : (loop.counted (loop.changesOf order page)).reading = loop.reading := rfl
  cases hreading : loop.reading with
  | fullRereading listed => simp [hreading, Reading.isFull] at h
  | firstFill continued => simp [GraphLoop.entered, GraphLoop.listed, hcounted, hreading]
  | round => simp [GraphLoop.entered, GraphLoop.listed, hcounted, hreading]

theorem isFull_of_round (h : loop.reading = .round) : loop.reading.isFull = false := by
  rw [h]
  rfl

@[simp] theorem entered_isFull :
    (loop.entered order page).reading.isFull = loop.reading.isFull := by
  cases hreading : loop.reading with
  | fullRereading listed =>
    rw [entered_full hreading]
    rfl
  | firstFill continued => rw [entered_reading (by rw [hreading]; rfl), hreading]
  | round => rw [entered_reading (by rw [hreading]; rfl), hreading]

/-- The entries are those of the page, one a message. -/
theorem changesOf_keys : ((loop.changesOf order page).map Prod.fst).Nodup :=
  ((order.perm _ _).map Prod.fst).nodup_iff.mpr (mergePerMessage_keys page.changes)

theorem mem_changesOf {entry : String × MessageChange} :
    entry ∈ loop.changesOf order page ↔ entry ∈ mergePerMessage page.changes :=
  (order.perm _ _).mem_iff

/-- The messages with an entry are those the page names. -/
theorem mem_changesOf_keys {id : String} :
    id ∈ (loop.changesOf order page).map Prod.fst ↔ ∃ change ∈ page.changes, change.id = id :=
  ((order.perm _ _).map Prod.fst).mem_iff.trans mem_mergePerMessage

end Entered

/-- Asking for the turn's page, or reading the folder again. -/
def Prepares (loop : GraphLoop) (folder : FolderRef) (o : CycleOp GraphRequest) : Prop :=
  o = .server (.readMessageChanges loop.start) ∨ o = .store (.readFolderSync folder)

theorem Prepares.still {loop : GraphLoop} {folder : FolderRef} {o : CycleOp GraphRequest}
    (h : Prepares loop folder o) : Still o := by
  rcases h with rfl | rfl
  · trivial
  · exact id

/-- What a reading of the folder says is so. -/
def ReadSo (folder : FolderRef) (stored : FolderSync) (t : Tables) : Prop :=
  t.state? folder = some stored.state ∧
  ∀ identity, stored.get identity = t.heldFlags folder identity

/-- The turn's events, its outcome and the state it leaves, from a loop and a state. -/
inductive TurnCase (rules : ContentRules) (order : HashOrder) (recentLimit : ℤ)
    (batches : BatchWriter) (loop : GraphLoop) (s : S.World × Tables) :
    History S → Outcome CycleEnd (GraphLoop ⊕ LoadResult) → S.World × Tables → Prop
  /-- The page did not come, or the folder was not read again: this turn is the last. -/
  | ended {tr : History S} {r : Outcome CycleEnd (GraphLoop ⊕ LoadResult)} {u : S.World × Tables}
      (hprepares : ∀ e ∈ tr, Prepares loop batches.folder e.op) (hlast : ∀ x, r ≠ .returned x)
      (hstays : Stays s.2 u.2) : TurnCase rules order recentLimit batches loop s tr r u
  /-- The whole folder is read from now on. -/
  | reread {tr : History S} {u : S.World × Tables} {loop' : GraphLoop} {stored : FolderSync}
      (hprepares : ∀ e ∈ tr, Prepares loop batches.folder e.op) (hstays : Stays s.2 u.2)
      (hfirst : loop.reading.isFull = false) (hloop : loop'.roundStart = loop.roundStart)
      (hread : Shape s.2 → ReadSo batches.folder stored u.2) :
      TurnCase rules order recentLimit batches loop s tr
        (.returned (.inl (loop'.reread stored batches.folder.identity))) u
  /-- A page came and its batch was not made, or not offered to the store: this turn is the last. -/
  | unstored {page : ChangePage} {s' t u : S.World × Tables} {tr : History S}
      {r' : Outcome CycleEnd FolderBatch} {r : Outcome CycleEnd (GraphLoop ⊕ LoadResult)}
      (hstays : Stays s.2 t.2)
      (hwithin : (loop.counted (loop.changesOf order page)).namesTooMany = false)
      (hrun : Run (surroundings S) (batchFromChanges rules (loop.changesOf order page)
        (loop.entered order page).reading recentLimit batches) t tr r' u)
      (hlast : ∀ x, r ≠ .returned x) :
      TurnCase rules order recentLimit batches loop s
        (⟨s', .server (.readMessageChanges loop.start), .ok page, t⟩ :: tr) r u
  /-- A page came and its batch was offered to the store; when it was stored, the changes were
  sent. -/
  | stored {page : ChangePage} {s' t t₁ t₂ t₃ u : S.World × Tables} {tr tr' : History S}
      {batch : FolderBatch} {answer : Except Failure StoreWrite}
      {r : Outcome CycleEnd (GraphLoop ⊕ LoadResult)} (hstays : Stays s.2 t.2)
      (hwithin : (loop.counted (loop.changesOf order page)).namesTooMany = false)
      (hrun : Run (surroundings S) (batchFromChanges rules (loop.changesOf order page)
        (loop.entered order page).reading recentLimit batches) t tr (.returned batch) t₁)
      (hmoved : Kept t₁.2 t₂.2)
      (hcall : ∃ met, (answer, t₃.2) = call t₂.2
        (.storeBatch batches.folder ((loop.entered order page).finalBatch page.next batch)) met)
      (hrest : answer = .ok .stored ∧ Stays t₃.2 u.2 ∧ (∀ e ∈ tr', InSending e.op) ∧
        (r = .returned ((loop.entered order page).after page.next) ∨ ∀ x, r ≠ .returned x) ∨
          answer ≠ .ok .stored ∧ tr' = [] ∧ u = t₃ ∧ ∀ x, r ≠ .returned x) :
      TurnCase rules order recentLimit batches loop s
        (⟨s', .server (.readMessageChanges loop.start), .ok page, t⟩ :: (tr ++
          ⟨t₂, .store (.storeBatch batches.folder
            ((loop.entered order page).finalBatch page.next batch)), answer, t₃⟩ :: tr')) r u

/-- A reading of the folder, when it returned. -/
theorem run_readFolderSync {batches : BatchWriter} {s u : S.World × Tables} {tr : History S}
    {stored : FolderSync}
    (h : Run (surroundings S) (batches.readFolderSync : GraphCycle FolderSync) s tr
      (.returned stored) u)
    (hshape : Shape s.2) : ReadSo batches.folder stored u.2 := by
  have hJ : Steady (S := S) (fun _ v => Kept s.2 v.2) fun _ _ => True :=
    steady_of_kept (fun _ _ _ => trivial) (fun _ _ _ => trivial) fun _ _ _ hs hkept _ =>
      hs.trans hkept
  have hsafe : Safe (surroundings S) (fun _ _ => True) [] s
      (storeCall (.readFolderSync batches.folder)) _ :=
    keeping_safe hJ (Kept.refl _) id id
  obtain ⟨hcalled, -⟩ := (hsafe tr _ u h).2 stored rfl
  obtain ⟨s', met, -, hkept, -, -, hcall, -⟩ := hcalled.moment
  obtain ⟨heq, hstate, hheld⟩ := readFolderSync_spec (hkept.shape hshape).toLinked hcall
  rw [heq]
  exact ⟨hstate, hheld⟩

theorem readFolderSync_asks (batches : BatchWriter) (loop : GraphLoop) :
    (batches.readFolderSync : GraphCycle FolderSync).Asks (Prepares loop batches.folder) :=
  storeCall_asks (.inr rfl)

/-- A request of the service that was answered. -/
theorem run_graphRequest {request : GraphRequest} {f : request.Reply → GraphCycle α}
    {s u : S.World × Tables} {tr : History S} {r : Outcome CycleEnd α}
    (h : Run (surroundings S) ((graphRequest request).bind f) s tr r u) :
    (tr = [] ∧ r = .cut ∧ u = s) ∨ ∃ s' reply t rest, tr = ⟨s', .server request, reply, t⟩ :: rest ∧
      Kept s.2 t.2 ∧ Run (surroundings S) (f reply) t rest r u := by
  cases h with
  | cut => exact .inl ⟨rfl, rfl, rfl⟩
  | @ask _ _ _ s' t _ reply rest _ hm ha hrest =>
    have hkept : Kept s.2 s'.2 := (moved hm).2.2
    rw [← show t.2 = s'.2 from ha.2] at hkept
    exact .inr ⟨s', reply, t, rest, rfl, hkept, hrest⟩

/-- The turn to a full rereading, after the page was asked for. -/
theorem rereadFolder_case {rules : ContentRules} {order : HashOrder} {recentLimit : ℤ}
    {batches : BatchWriter} {loop loop' : GraphLoop} {s t u : S.World × Tables} {asked : Happened S}
    {tr : History S} {r : Outcome CycleEnd (GraphLoop ⊕ LoadResult)}
    (h : Run (surroundings S) (rereadFolder batches loop') t tr r u)
    (hasked : asked.op = .server (.readMessageChanges loop.start)) (hstays : Stays s.2 t.2)
    (hfirst : loop.reading.isFull = false) (hloop : loop'.roundStart = loop.roundStart) :
    TurnCase rules order recentLimit batches loop s (asked :: tr) r u := by
  have hprepares : ∀ tr' ⊆ tr, ∀ e ∈ asked :: tr', Prepares loop batches.folder e.op := by
    intro tr' hsub e he
    rcases List.mem_cons.mp he with rfl | he
    · exact .inl hasked
    · exact h.asked (Asks.bind (readFolderSync_asks batches loop) fun _ => trivial) e (hsub he)
  have hstill := (run_stays_of_asks h (Asks.bind
    ((readFolderSync_asks batches loop).mono fun _ => Prepares.still) fun _ => trivial)).1
  rcases h.of_bind with ⟨tr₁, tr₂, stored, t₁, rfl, hread, hrest⟩ | ⟨r', hstopped, -⟩
  · cases hrest with
    | done =>
      refine .reread (hprepares _ fun e he => he) (hstays.trans hstill) hfirst hloop
        fun hshape => ?_
      exact run_readFolderSync hread (hstays.shape hshape)
    | cut => exact .ended (hprepares _ fun e he => he) (by simp) (hstays.trans hstill)
  · exact .ended (hprepares _ fun e he => he) hstopped.ne_returned (hstays.trans hstill)

/-- **What one turn does.** -/
theorem readPage_cases {rules : ContentRules} {order : HashOrder} {recentLimit : ℤ}
    {batches : BatchWriter} {loop : GraphLoop} {s u : S.World × Tables} {tr : History S}
    {r : Outcome CycleEnd (GraphLoop ⊕ LoadResult)}
    (h : Run (surroundings S) (readPage rules order recentLimit batches loop) s tr r u) :
    TurnCase rules order recentLimit batches loop s tr r u := by
  rcases run_graphRequest h with ⟨rfl, rfl, rfl⟩ | ⟨s', answer, t, rest, rfl, hkept, hrest⟩
  · exact .ended (fun e he => absurd he List.not_mem_nil) (by simp) (.refl _)
  · have hstays : Stays s.2 t.2 := hkept.toStays
    have hasked : ∀ e ∈ [(⟨s', .server (.readMessageChanges loop.start), answer, t⟩ : Happened S)],
        Prepares loop batches.folder e.op := fun e he => by
          rw [List.mem_singleton.mp he]; exact .inl rfl
    cases answer with
    | error error =>
      dsimp only at hrest
      split at hrest
      · rename_i hrereads
        have hfirst : loop.reading.isFull = false := by
          simp only [GraphLoop.rereadsOn, decide_eq_true_eq] at hrereads
          simpa using hrereads.2.2
        exact rereadFolder_case hrest rfl hstays hfirst rfl
      · cases hrest with
        | fail => exact .ended hasked (by simp) hstays
        | cut => exact .ended hasked (by simp) hstays
    | ok page =>
      dsimp only at hrest
      split at hrest
      · rename_i hmany
        have hround : loop.reading = .round := by
          simp only [GraphLoop.namesTooMany, decide_eq_true_eq] at hmany
          exact hmany.1
        exact rereadFolder_case hrest rfl hstays (by rw [hround]; rfl) rfl
      · rename_i hwithin
        rw [Bool.not_eq_true] at hwithin
        rcases hrest.of_bind with ⟨tr₁, tr₂, batch, t₁, rfl, hbatch, hstore⟩ | ⟨r',
          hstopped, hbatch⟩
        · rw [storePage_eq] at hstore
          have hsome : (loop.entered order page).finalBatch page.next batch ≠ .default := by
            intro heq
            cases congrArg FolderBatch.state heq
          rcases run_store hsome hstore with ⟨rfl, rfl, rfl⟩ | ⟨t₂, written, t₃, rest', rfl, hmoved,
            hcall, hend⟩
          · rw [List.append_nil]
            exact .unstored hstays hwithin hbatch (by simp)
          · refine .stored hstays hwithin hbatch hmoved hcall ?_
            rcases hend with ⟨rfl, hsend⟩ | hrefused
            · refine .inl ⟨rfl, ?_, ?_, ?_⟩
              · exact (run_stays_of_asks hsend (Asks.bind
                  ((sending_asks _ batches _).mono fun _ => InSending.still) fun _ => trivial)).1
              · exact hsend.asked (Asks.bind (sending_asks _ batches _) fun _ => trivial)
              · rcases hsend.of_bind with ⟨tr₃, tr₄, _, t₄, rfl, -, hdone⟩ | ⟨r', hstopped, -⟩
                · cases hdone with
                  | done => exact .inl rfl
                  | cut => exact .inr (by simp)
                · exact .inr hstopped.ne_returned
            · exact .inr hrefused
        · exact .unstored hstays hwithin hbatch hstopped.ne_returned

/-! ### The storing event -/

/-- The page a turn read. -/
def pageRead (turn : PageTurn S) : Option ChangePage :=
  match turn.events with
  | ⟨_, .server (.readMessageChanges _), .ok page, _⟩ :: _ => some page
  | _ => none

/-- The place of an element that alone satisfies `P`. -/
theorem append_cons_unique {β : Type} {P : β → Prop} {l l' r r' : List β} {a a' : β}
    (heq : l ++ a :: r = l' ++ a' :: r') (ha' : P a') (hl : ∀ x ∈ l, ¬P x)
    (hr : ∀ x ∈ r, ¬P x) : l = l' ∧ a = a' ∧ r = r' := by
  induction l generalizing l' with
  | nil =>
    cases l' with
    | nil =>
      obtain ⟨ha, hr'⟩ := List.cons.inj heq
      exact ⟨rfl, ha, hr'⟩
    | cons x l' =>
      obtain ⟨-, hr'⟩ := List.cons.inj heq
      exact absurd ha' (hr a' (hr' ▸ List.mem_append_right _ List.mem_cons_self))
  | cons x l ih =>
    cases l' with
    | nil =>
      obtain ⟨rfl, -⟩ := List.cons.inj heq
      exact absurd ha' (hl x List.mem_cons_self)
    | cons y l' =>
      obtain ⟨rfl, hrest⟩ := List.cons.inj heq
      obtain ⟨rfl, ha, hr'⟩ := ih hrest fun y hy => hl y (List.mem_cons_of_mem _ hy)
      exact ⟨rfl, ha, hr'⟩

/-- A batch was offered to the store. -/
def Stores (folder : FolderRef) (o : CycleOp GraphRequest) : Prop :=
  ∃ batch, o = .store (.storeBatch folder batch)

theorem Prepares.not_stores {loop : GraphLoop} {folder : FolderRef} {o : CycleOp GraphRequest}
    (h : Prepares loop folder o) : ¬Stores folder o := by
  rintro ⟨batch, rfl⟩
  rcases h with h | h <;> cases h

theorem InBatch.not_stores {folder : FolderRef} {o : CycleOp GraphRequest} (h : InBatch o) :
    ¬Stores folder o := by
  rintro ⟨batch, rfl⟩
  exact h

theorem InSending.not_stores {folder : FolderRef} {o : CycleOp GraphRequest}
    (h : InSending o) : ¬Stores folder o := by
  rintro ⟨batch, rfl⟩
  exact h

/-- What led to the storing of a page: the page was read, and made a batch of. -/
structure Storing (rules : ContentRules) (order : HashOrder) (recentLimit : ℤ)
    (batches : BatchWriter) (loop : GraphLoop) (s : S.World × Tables) (page : ChangePage)
    (batch : FolderBatch) (pre : History S) (e : Happened S) : Prop where
  /-- It was a page to make a batch of. -/
  within : (loop.counted (loop.changesOf order page)).namesTooMany = false
  /-- The page, and its batch. -/
  made : ∃ s' t t₁ tr, pre = ⟨s', .server (.readMessageChanges loop.start), .ok page, t⟩ :: tr ∧
    Stays s.2 t.2 ∧
    Run (surroundings S)
      (batchFromChanges rules (loop.changesOf order page) (loop.entered order page).reading
        recentLimit batches) t tr
      (.returned batch) t₁ ∧ Kept t₁.2 e.before.2
  /-- What was offered to the store. -/
  op : e.op = .store (.storeBatch batches.folder
    ((loop.entered order page).finalBatch page.next batch))

section Storing

variable {rules : ContentRules} {order : HashOrder} {recentLimit : ℤ} {batches : BatchWriter}
  {loop : GraphLoop} {s u : S.World × Tables} {tr : History S}
  {r : Outcome CycleEnd (GraphLoop ⊕ LoadResult)}

/-- A turn offers one batch to the store, its page's. -/
theorem TurnCase.storing (h : TurnCase rules order recentLimit batches loop s tr r u)
    {pre post : History S} {e : Happened S} (heq : tr = pre ++ e :: post)
    (he : Stores batches.folder e.op) :
    ∃ page batch, pageRead (⟨loop, s, tr⟩ : PageTurn S) = some page ∧
      Storing rules order recentLimit batches loop s page batch pre e ∧ Stays e.after.2 u.2 := by
  have hmem : e ∈ tr := heq ▸ List.mem_append_right _ List.mem_cons_self
  cases h with
  | ended hprepares => exact absurd he (hprepares e hmem).not_stores
  | reread hprepares => exact absurd he (hprepares e hmem).not_stores
  | unstored _ _ hrun =>
    rcases List.mem_cons.mp hmem with rfl | hmem
    · exact absurd he (Prepares.not_stores (.inl rfl))
    · exact absurd he (hrun.asked (batchFromChanges_asks _ _ _ _ _) e hmem).not_stores
  | @stored page s' t t₁ t₂ t₃ _ tr₁ tr₂ batch answer _ hstays hwithin hrun hmoved _ hrest =>
    rw [← List.cons_append] at heq
    obtain ⟨rfl, rfl, -⟩ := append_cons_unique (P := fun x => Stores batches.folder x.op) heq he
      (fun x hx => by
        rcases List.mem_cons.mp hx with rfl | hx
        · exact Prepares.not_stores (.inl rfl)
        · exact (hrun.asked (batchFromChanges_asks _ _ _ _ _) x hx).not_stores)
      (fun x hx => by
        rcases hrest with ⟨-, -, hsends, -⟩ | ⟨-, hnil, -⟩
        · exact (hsends x hx).not_stores
        · rw [hnil] at hx
          exact absurd hx List.not_mem_nil)
    refine ⟨page, batch, rfl, ⟨hwithin, ⟨s', t, t₁, tr₁, rfl, hstays, hrun, hmoved⟩, rfl⟩, ?_⟩
    rcases hrest with ⟨-, hend, -⟩ | ⟨-, -, rfl, -⟩
    · exact hend
    · exact .refl _

end Storing

end Mailbag.Cycle
