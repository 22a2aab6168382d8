import Mailbag.Cycle.GraphTurns
import Mailbag.Store.BatchEffect

/-!
# What leaves a Microsoft 365 folder

A message leaves its folder in three ways: every entry of a page that names it removes it,
the service says on a reading that it is gone or elsewhere, or a completed reading of the
whole folder did not name it. The last compares with what the folder held when that
reading began, which may be in the middle of a cycle.

## What is proved

* `removals_proven` — in every run a batch removes only such messages and none it stores,
  and a completed rereading leaves none it did not name.
-/

namespace Mailbag.Cycle

open Collections Graph Imap Interaction Program Relation Store

variable {S : Server GraphRequest.Reply} {folder : FolderRef} {pages past : List (PageTurn S)}
  {turn : PageTurn S}

/-- An entry of the page names the message. -/
def NamedBy (page : ChangePage) (id : String) : Prop := ∃ change ∈ page.changes, change.id = id

/-- The turns of a full rereading. -/
def rereading (pages : List (PageTurn S)) : List (PageTurn S) :=
  pages.filter fun turn => turn.loop.reading.isFull

/-- The folder held the message when its rereading began. -/
def HeldAtStart (folder : FolderRef) (pages : List (PageTurn S)) (identity : String) : Prop :=
  ∃ first, (rereading pages).head? = some first ∧ (first.before.2.heldFlags folder identity).isSome

/-- A page of the rereading names the message. -/
def NamedInRereading (pages : List (PageTurn S)) (identity : String) : Prop :=
  ∃ turn ∈ rereading pages, ∃ page id, pageRead turn = some page ∧ NamedBy page id ∧
    graphIdentity id = identity

/-- Why a batch removes a message: of the turns so far, the last, its page and its events
before the storing. -/
inductive Gone (folder : FolderRef) (pages : List (PageTurn S)) (reading : Reading)
    (page : ChangePage) (pre : History S) : String → Prop
  /-- The page names it in removals only. -/
  | removed {id : String} (hnamed : NamedBy page id)
      (hall : ∀ change ∈ page.changes, change.id = id → isRemoved change = true) :
      Gone folder pages reading page pre (graphIdentity id)
  /-- The page names it, and it was read again and is gone or lies in another folder. -/
  | elsewhere {id : String} {answer : Option (GraphMessage × String)} (hnamed : NamedBy page id)
      (hreply : Replied pre (.readMessage id) (.ok answer))
      (hnot : ∀ message, answer ≠ some (message, folder.identity)) :
      Gone folder pages reading page pre (graphIdentity id)
  /-- The page is the last of a full rereading, which does not name it though the folder held it. -/
  | unlisted {identity link : String} (hfull : reading.isFull = true)
      (hlast : page.next = .finished link) (hheld : HeldAtStart folder pages identity)
      (hnot : ¬NamedInRereading pages identity) : Gone folder pages reading page pre identity

/-- The service answered each reading of a message in the turn with the identifier asked by. -/
def AnswersOwn (turn : PageTurn S) : Prop :=
  ∀ id message parent, Replied turn.events (.readMessage id) (.ok (some (message, parent))) →
    message.immutableId = id

/-- What a turn removes, after the turns before. -/
structure RemovesGone (folder : FolderRef) (past : List (PageTurn S)) (turn : PageTurn S) :
    Prop where
  /-- Each message a batch removes is gone. -/
  gone : ∀ pre e post batch, turn.events = pre ++ e :: post →
    e.op = .store (.storeBatch folder batch) →
    ∃ page, pageRead turn = some page ∧
      ∀ identity ∈ batch.removed, Gone folder (past ++ [turn]) turn.loop.reading page pre identity
  /-- No batch both removes and stores a message. -/
  apart : AnswersOwn turn → ∀ e ∈ turn.events, ∀ batch, e.op = .store (.storeBatch folder batch) →
    ∀ identity ∈ batch.removed, identity ∉ (reportedFlags batch).map Prod.fst

/-- The last batch of a full rereading was stored. -/
def RereadingStored (folder : FolderRef) (pages : List (PageTurn S)) : Prop :=
  ∃ turn ∈ rereading pages, ∃ page link before batch after, pageRead turn = some page ∧
    page.next = .finished link ∧
    (⟨before, .store (.storeBatch folder batch), .ok .stored, after⟩ : Happened S) ∈ turn.events

/-- Once a full rereading completed, no message is in the folder that it did not name though the
folder held it when it began. -/
def LeavesNoneUnlisted (folder : FolderRef) (pages : List (PageTurn S)) (t : Tables) : Prop :=
  (∀ turn ∈ pages, AnswersOwn turn) → RereadingStored folder pages →
  ∀ identity, HeldAtStart folder pages identity →
    ¬NamedInRereading pages identity → t.heldFlags folder identity = none

/-! ### What the turns so far say -/

/-- The store when the rereading began, at the latest now. -/
def startOf (pages : List (PageTurn S)) (t : Tables) : Tables :=
  ((rereading pages).head?.map fun first => first.before.2).getD t

theorem rereading_concat (pages : List (PageTurn S)) (turn : PageTurn S) :
    rereading (pages ++ [turn]) = if turn.loop.reading.isFull then rereading pages ++ [turn]
      else rereading pages := by
  rw [rereading, List.filter_append, ← rereading, List.filter_singleton]
  cases turn.loop.reading.isFull <;> simp

theorem heldAtStart_concat (hfull : turn.loop.reading.isFull = true) {identity : String} :
    HeldAtStart folder (past ++ [turn]) identity ↔
      ((startOf past turn.before.2).heldFlags folder identity).isSome := by
  rw [HeldAtStart, rereading_concat, if_pos hfull, startOf, List.head?_append]
  cases (rereading past).head? with
  | none => simp
  | some first => simp

theorem startOf_concat (hfull : turn.loop.reading.isFull = true) (t : Tables) :
    startOf (past ++ [turn]) t = startOf past turn.before.2 := by
  rw [startOf, startOf, rereading_concat, if_pos hfull, List.head?_append]
  cases (rereading past).head? with
  | none => rfl
  | some first => rfl

theorem namedInRereading_concat {identity : String} : NamedInRereading (past ++ [turn]) identity ↔
    NamedInRereading past identity ∨ turn.loop.reading.isFull = true ∧
      ∃ page id, pageRead turn = some page ∧ NamedBy page id ∧ graphIdentity id = identity := by
  rw [NamedInRereading, NamedInRereading, rereading_concat]
  cases turn.loop.reading.isFull with
  | false => simp
  | true => simp [or_and_right, exists_or]

/-- The messages of a page, as a full rereading lists them. -/
theorem mem_identities {loop : GraphLoop} {order : HashOrder} {page : ChangePage}
    {identity : String} :
    identity ∈ ((loop.changesOf order page).map fun entry => graphIdentity entry.1) ↔
      ∃ id, NamedBy page id ∧ graphIdentity id = identity := by
  rw [show (loop.changesOf order page).map (fun entry => graphIdentity entry.1) =
    ((loop.changesOf order page).map Prod.fst).map graphIdentity by rw [List.map_map]; rfl,
    List.mem_map]
  exact exists_congr fun id => and_congr_left fun _ => mem_changesOf_keys

/-- What is so of the turns so far, when the next starts. -/
structure RereadsFrom (folder : FolderRef) (past : List (PageTurn S)) (loop : GraphLoop)
    (s : S.World × Tables) : Prop where
  /-- The store's shape. -/
  shape : Shape s.2
  /-- A full rereading began only if the loop is in one. -/
  first : loop.reading.isFull = false → rereading past = []
  /-- It compares with what the folder held when it began. -/
  stored : loop.reading.isFull = true →
    ∀ identity, (loop.stored.get identity).isSome ↔
      ((startOf past s.2).heldFlags folder identity).isSome
  /-- It listed what its pages named. -/
  listed : ∀ listed, loop.reading = .fullRereading listed → ∀ identity, identity ∈ listed ↔
    NamedInRereading past identity
  /-- It is not complete. -/
  goesOn : ¬RereadingStored folder past

/-! ### What a page removes -/

section Page

variable {rules : ContentRules} {order : HashOrder} {recentLimit : ℤ} {batches : BatchWriter}
  {loop : GraphLoop} {s u : S.World × Tables} {page : ChangePage} {batch : FolderBatch}
  {pre : History S} {e : Happened S}

theorem mem_unlisted {identity : String} : identity ∈ loop.unlisted ↔
    ∃ listed, loop.reading = .fullRereading listed ∧ (loop.stored.get identity).isSome ∧
      identity ∉ listed := by
  rw [GraphLoop.unlisted]
  split
  · rename_i listed hreading
    rw [List.mem_filter, get_isSome_iff, decide_eq_true_eq, hreading]
    simp
  · rename_i hnot
    simp only [List.not_mem_nil, false_iff]
    rintro ⟨listed, hreading, -⟩
    exact hnot listed hreading

/-- An entry that leaves nothing in the folder removes its message with proof. -/
theorem gone_of_found {t : Tables} {reading reading' : Reading} {tr : History S} {id : String}
    {change : MessageChange} (hmem : (id, change) ∈ mergePerMessage page.changes)
    (hfound : Found t folder reading tr id change none) (hsub : tr ⊆ pre) :
    Gone folder pages reading' page pre (graphIdentity id) := by
  have hnamed : NamedBy page id := mem_mergePerMessage.mp (List.mem_map_of_mem hmem)
  generalize hnone : (none : Option GraphMessage) = found at hfound
  cases hfound with
  | removed => exact .removed hnamed (mergePerMessage_removed hmem rfl)
  | reported => cases hnone
  | @readAgain _ answer _ _ hreply =>
    refine .elsewhere hnamed (hreply.mono hsub) ?_
    rintro message rfl
    simp at hnone

theorem listed_entered (hI : RereadsFrom folder past loop s) {tr : History S} {listed : List String}
    (hpage : pageRead (⟨loop, s, tr⟩ : PageTurn S) = some page)
    (hlisted : (loop.entered order page).reading = .fullRereading listed) (identity : String) :
    identity ∈ listed ↔ NamedInRereading (past ++ [⟨loop, s, tr⟩]) identity := by
  have hfull : loop.reading.isFull = true := by rw [← entered_isFull, hlisted]; rfl
  obtain ⟨before, hreading⟩ := Reading.isFull_iff.mp hfull
  cases (entered_full hreading).symm.trans hlisted
  rw [List.mem_append, hI.listed before hreading, mem_identities, namedInRereading_concat, hpage]
  simp [hfull]

/-- The messages a rereading's last page leaves out are those the folder held and no page named. -/
theorem mem_unlisted_entered (hI : RereadsFrom folder past loop s) {tr : History S}
    {identity : String} (hpage : pageRead (⟨loop, s, tr⟩ : PageTurn S) = some page) :
    identity ∈ (loop.entered order page).unlisted ↔ loop.reading.isFull = true ∧
      HeldAtStart folder (past ++ [⟨loop, s, tr⟩]) identity ∧
      ¬NamedInRereading (past ++ [⟨loop, s, tr⟩]) identity := by
  rw [mem_unlisted, entered_stored]
  constructor
  · rintro ⟨listed, hlisted, hheld, hnot⟩
    have hfull : loop.reading.isFull = true := by rw [← entered_isFull, hlisted]; rfl
    exact ⟨hfull, (heldAtStart_concat hfull).mpr ((hI.stored hfull identity).mp hheld),
      fun hnamed => hnot ((listed_entered hI hpage hlisted identity).mpr hnamed)⟩
  · rintro ⟨hfull, hheld, hnot⟩
    obtain ⟨before, hreading⟩ := Reading.isFull_iff.mp hfull
    have hlisted : (loop.entered order page).reading = _ := entered_full hreading
    exact ⟨_, hlisted, (hI.stored hfull identity).mpr ((heldAtStart_concat hfull).mp hheld),
      fun hmem => hnot ((listed_entered hI hpage hlisted identity).mp hmem)⟩

theorem removes_of_storing (hI : RereadsFrom batches.folder past loop s) {tr post : History S}
    (htr : tr = pre ++ e :: post) (hpage : pageRead (⟨loop, s, tr⟩ : PageTurn S) = some page)
    (hs : Storing rules order recentLimit batches loop s page batch pre e) :
    (∀ identity ∈ ((loop.entered order page).finalBatch page.next batch).removed,
        Gone batches.folder (past ++ [⟨loop, s, tr⟩]) loop.reading page pre identity) ∧
      (AnswersOwn (⟨loop, s, tr⟩ : PageTurn S) →
        ∀ identity ∈ ((loop.entered order page).finalBatch page.next batch).removed,
        identity ∉ (reportedFlags ((loop.entered order page).finalBatch page.next batch)).map
          Prod.fst) := by
  obtain ⟨s', t, t₁, tr₁, rfl, hstays, hrun, -⟩ := hs.made
  obtain ⟨known, found, tr₂, tr₃, tr₄, rfl, hp⟩ :=
    batchFromChanges_run changesOf_keys (hstays.shape hI.shape) hrun
  have hlast : ∀ identity ∈ (loop.entered order page).goneAfter page.next,
      ∃ link, page.next = .finished link ∧
      loop.reading.isFull = true ∧ HeldAtStart batches.folder (past ++ [⟨loop, s, tr⟩]) identity ∧
        ¬NamedInRereading (past ++ [⟨loop, s, tr⟩]) identity := by
    intro identity hgone
    cases hnext : page.next with
    | more link =>
      rw [hnext] at hgone
      exact absurd hgone List.not_mem_nil
    | finished link =>
      rw [hnext] at hgone
      exact ⟨link, rfl, (mem_unlisted_entered hI hpage).mp hgone⟩
  constructor
  · intro identity hidentity
    rcases List.mem_append.mp hidentity with hbatch | hgone
    · obtain ⟨id, change, hmem, rfl, hfound⟩ := hp.removed hbatch
      exact gone_of_found (mem_changesOf.mp hmem) hfound fun x hx => List.mem_cons_of_mem _ hx
    · obtain ⟨link, hnext, hfull, hheld, hnot⟩ := hlast identity hgone
      exact .unlisted hfull hnext hheld hnot
  · intro hown identity hidentity hreported
    have hkeep : ∀ x ∈ tr₂ ++ tr₃ ++ tr₄, x ∈ tr := fun x hx => by
      rw [htr]
      exact List.mem_append_left _ (List.mem_cons_of_mem _ hx)
    have honce :=
      hp.once (hp.own (fun id change hmem => mergePerMessage_own (mem_changesOf.mp hmem))
      fun id message parent hreply => hown id message parent (hreply.mono hkeep))
    have hnodup : ((loop.changesOf order page).map fun entry => graphIdentity entry.1).Nodup := by
      have := changesOf_keys.map (f := graphIdentity) graphIdentity_injective
        (l := (loop.changesOf order page).map Prod.fst)
      rwa [List.map_map] at this
    have harrived : identity ∈ batch.arrived.map Message.identity := by
      rw [hp.batch] at hreported ⊢
      simpa [reportedFlags, GraphLoop.finalBatch, FolderBatch.default] using hreported
    rcases List.mem_append.mp hidentity with hbatch | hgone
    · exact (List.nodup_append.mp (honce.nodup_iff.mpr hnodup)).2.2 _ hbatch _ harrived rfl
    · obtain ⟨-, -, hfull, -, hnot⟩ := hlast identity hgone
      have hnamed := mem_identities.mp (honce.subset (List.mem_append_right _ harrived))
      obtain ⟨id, hnamed, hid⟩ := hnamed
      exact hnot (namedInRereading_concat.mpr (.inr ⟨hfull, page, id, hpage, hnamed, hid⟩))

end Page

/-! ### A turn, and a run -/

theorem rereadingStored_concat :
    RereadingStored folder (past ++ [turn]) ↔ RereadingStored folder past ∨
    turn.loop.reading.isFull = true ∧ ∃ page link before batch after, pageRead turn = some page ∧
    page.next = .finished link ∧
      (⟨before, .store (.storeBatch folder batch), .ok .stored, after⟩ : Happened S) ∈
      turn.events := by
  rw [RereadingStored, RereadingStored, rereading_concat]
  cases turn.loop.reading.isFull with
  | false => simp
  | true => simp [or_and_right, exists_or]

section Turn

variable {rules : ContentRules} {order : HashOrder} {recentLimit : ℤ} {batches : BatchWriter}
  {loop : GraphLoop} {s u : S.World × Tables} {tr : History S}
  {r : Outcome CycleEnd (GraphLoop ⊕ LoadResult)}

/-- A turn without a last page stored completes no rereading. -/
theorem goesOn_concat (hI : RereadsFrom folder past loop s)
    (hnot : loop.reading.isFull = true → ∀ page link before batch after,
      pageRead (⟨loop, s, tr⟩ : PageTurn S) = some page → page.next = .finished link →
        (⟨before, .store (.storeBatch folder batch), .ok .stored, after⟩ : Happened S) ∉ tr) :
    ¬RereadingStored folder (past ++ [⟨loop, s, tr⟩]) := by
  rw [rereadingStored_concat]
  rintro (hstored | ⟨hfull, page, link, before, batch, after, hpage, hnext, hmem⟩)
  · exact hI.goesOn hstored
  · exact hnot hfull page link before batch after hpage hnext hmem

theorem leavesNone_of_stored (hI : RereadsFrom batches.folder past loop s) {page : ChangePage}
    {batch : FolderBatch} {pre post : History S} {before after : S.World × Tables}
    {final : FolderBatch}
    (htr : tr = pre ++ ⟨before, .store (.storeBatch batches.folder final), .ok .stored, after⟩ ::
      post)
    (hpage : pageRead (⟨loop, s, tr⟩ : PageTurn S) = some page)
    (hs : Storing rules order recentLimit batches loop s page batch pre
      ⟨before, .store (.storeBatch batches.folder final), .ok .stored, after⟩)
    (hcall : ∃ met, ((.ok .stored : Except Failure StoreWrite), after.2) = call before.2
      (.storeBatch batches.folder final) met)
    (hshape : Shape before.2) (hfull : loop.reading.isFull = true) {link : String}
    (hnext : page.next = .finished link) (hown : AnswersOwn (⟨loop, s, tr⟩ : PageTurn S))
    {identity : String} (hheld : HeldAtStart batches.folder (past ++ [⟨loop, s, tr⟩]) identity)
    (hnot : ¬NamedInRereading (past ++ [⟨loop, s, tr⟩]) identity) :
    after.2.heldFlags batches.folder identity = none := by
  obtain ⟨-, hapart⟩ := removes_of_storing hI htr hpage hs
  have hop : (.store (.storeBatch batches.folder final) : CycleOp GraphRequest) = _ := hs.op
  cases hop
  have hremoved : identity ∈ ((loop.entered order page).finalBatch page.next batch).removed := by
    refine List.mem_append_right _ ?_
    rw [hnext]
    exact (mem_unlisted_entered hI hpage).mpr ⟨hfull, hheld, hnot⟩
  obtain ⟨met, hcall⟩ := hcall
  have hunreported := hapart hown identity hremoved
  rcases storeBatch_spec hshape.toLinked
      ((loop.entered order page).finalBatch page.next batch) met with
    ⟨folderId, ho, -, hspec⟩ | ⟨-, hne⟩
  · rw [← Option.not_isSome_iff_eq_none, Tables.heldFlags_isSome_iff,
      show after.2 = _ from (congrArg Prod.snd hcall).trans (congrArg Prod.snd hspec),
      applyBatch_holds hshape ho, applyMail_holds hshape ho]
    rw [reportedFlags, List.map_append, List.map_append, List.mem_append, List.mem_append,
      List.map_map] at hunreported
    rintro (⟨-, hkept⟩ | ⟨-, harrived | ⟨hknown, -⟩⟩)
    · exact hkept ⟨rfl, hremoved⟩
    · exact hunreported (.inl (.inr harrived))
    · exact hunreported (.inr hknown)
  · exact absurd (congrArg Prod.fst hcall).symm hne

theorem removesGone_turn (hI : RereadsFrom batches.folder past loop s)
    (hrun : Run (surroundings S) (readPage rules order recentLimit batches loop) s tr r u) :
    RemovesGone batches.folder past ⟨loop, s, tr⟩ := by
  have hstoring := fun pre e post (heq : tr = pre ++ e :: post) => (readPage_cases hrun).storing heq
  constructor
  · intro pre e post batch heq hop
    obtain ⟨page, made, hpage, hs, -⟩ := hstoring pre e post heq ⟨batch, hop⟩
    cases hop.symm.trans hs.op
    exact ⟨page, hpage, (removes_of_storing hI heq hpage hs).1⟩
  · intro hown e he batch hop
    obtain ⟨pre, post, heq⟩ := List.append_of_mem he
    obtain ⟨page, made, hpage, hs, -⟩ := hstoring pre e post heq ⟨batch, hop⟩
    cases hop.symm.trans hs.op
    exact (removes_of_storing hI heq hpage hs).2 hown

/-- A turn that completes a full rereading leaves none unlisted. -/
theorem leavesNone_turn (hI : RereadsFrom batches.folder past loop s)
    (hrun : Run (surroundings S) (readPage rules order recentLimit batches loop) s tr r u) :
    LeavesNoneUnlisted batches.folder (past ++ [⟨loop, s, tr⟩]) u.2 := by
  intro hown hstored identity hheld hnot
  rcases rereadingStored_concat.mp hstored with hbefore | ⟨hfull, page, link, before, batch, after,
    hpage, hnext, hmem⟩
  · exact absurd hbefore hI.goesOn
  · obtain ⟨pre, post, heq⟩ := List.append_of_mem hmem
    obtain ⟨page', made, hpage', hs, hstays⟩ := (readPage_cases hrun).storing heq ⟨batch, rfl⟩
    cases hpage.symm.trans hpage'
    have hshape : Shape before.2 := (shape_of_run hrun hI.shape).2 _ hmem
    have hnone := leavesNone_of_stored hI heq hpage hs (hrun.answered _ hmem).2 hshape hfull hnext
      (hown _ (List.mem_append_right _ List.mem_cons_self)) hheld hnot
    rw [← Option.not_isSome_iff_eq_none] at hnone ⊢
    exact fun hsome => hnone ((hstays.heldFlags_isSome _ _).mp hsome)

/-- A loop that is in no rereading after a turn was in none before it. -/
theorem rereading_concat_none (hI : RereadsFrom folder past loop s)
    (hfirst : loop.reading.isFull = false) (tr : History S) :
    rereading (past ++ [(⟨loop, s, tr⟩ : PageTurn S)]) = [] := by
  rw [rereading_concat, if_neg (by simp [hfirst]), hI.first hfirst]

theorem rereadsFrom_next (hI : RereadsFrom batches.folder past loop s)
    (hrun : Run (surroundings S) (readPage rules order recentLimit batches loop) s tr r u)
    {loop' : GraphLoop} (hr : r = .returned (.inl loop')) :
    RereadsFrom batches.folder (past ++ [⟨loop, s, tr⟩]) loop' u := by
  have hshape : Shape u.2 := (shape_of_run hrun hI.shape).1
  cases readPage_cases hrun with
  | ended _ hlast => exact absurd hr (hlast _)
  | unstored _ _ _ hlast => exact absurd hr (hlast _)
  | @reread _ _ loop'' stored _ hstays hfirst _ hread =>
    cases hr
    have hnone := rereading_concat_none hI hfirst tr
    refine ⟨hshape, fun hfull => (by cases hfull), fun _ identity => ?_, ?_, ?_⟩
    · rw [startOf, hnone]
      exact iff_of_eq (congrArg (fun flags => flags.isSome = true) ((hread hI.shape).2 identity))
    · rintro listed hlisted identity
      cases hlisted
      rw [NamedInRereading, hnone]
      simp
    · exact goesOn_concat hI fun hfull => by rw [hfirst] at hfull; cases hfull
  | @stored page s' t t₁ t₂ t₃ _ tr₁ tr₂ batch answer _ hstays hwithin hbatch hmoved hcall hrest =>
    rcases hrest with ⟨rfl, hend, hsends, hafter | hlast⟩ | ⟨-, -, -, hlast⟩
    · have hgo := Outcome.returned.inj (hafter.symm.trans hr)
      cases hnext : page.next with
      | more link =>
        rw [hnext] at hgo
        cases Sum.inl.inj hgo
        refine ⟨hshape, fun hfirst => ?_, fun hfull identity => ?_,
          fun listed hlisted identity => ?_, ?_⟩
        · exact rereading_concat_none hI (entered_isFull.symm.trans hfirst) _
        · rw [startOf_concat (entered_isFull.symm.trans hfull : loop.reading.isFull = true)]
          exact (by rw [entered_stored] : (loop.entered order page).stored = loop.stored) ▸
            hI.stored (entered_isFull.symm.trans hfull) identity
        · exact listed_entered hI rfl hlisted identity
        · refine goesOn_concat hI fun _ page' link' before batch' after hpage hnext' => ?_
          cases hpage
          rw [hnext] at hnext'
          cases hnext'
      | finished link =>
        rw [hnext, GraphLoop.after] at hgo
        split at hgo
        · rename_i hfill
          have hfirst : loop.reading.isFull = false :=
            entered_isFull.symm.trans (by rw [hfill]; rfl)
          cases Sum.inl.inj hgo
          refine ⟨hshape, fun _ => rereading_concat_none hI hfirst _, fun hfull => (by cases hfull),
            fun _ hlisted => (by cases hlisted), ?_⟩
          exact goesOn_concat hI fun hfull => by rw [hfirst] at hfull; cases hfull
        · cases hgo
    · exact absurd hr (hlast _)
    · exact absurd hr (hlast _)

end Turn

/-- The turns of a cycle start from the folder as it was read. -/
theorem rereadsFrom_begin {stored : FolderSync} {t : S.World × Tables} (hshape : Shape t.2)
    (hread : ReadSo folder stored t.2) :
    RereadsFrom folder [] (.begin stored folder.identity) t := by
  refine ⟨hshape, fun _ => rfl, fun _ identity => ?_, fun listed hlisted identity => ?_, ?_⟩
  · exact iff_of_eq (congrArg (fun flags => flags.isSome = true) (hread.2 identity))
  · have hnil : listed = [] := by
      simp only [GraphLoop.begin, whereToStart] at hlisted
      split at hlisted
      · cases hlisted
      · cases hlisted
      · split at hlisted
        · cases hlisted
          rfl
        · cases hlisted
    rw [hnil]
    simp [NamedInRereading, rereading]
  · rintro ⟨turn, hmem, -⟩
    cases hmem

/-- **Removal only with proof, and no message listed is removed**: in every run of a cycle, from
every stored folder and whatever the service answers, each message a batch removes is gone, no
batch removes a message it stores, and a completed rereading of the whole folder leaves none in
it that it did not name. -/
theorem removals_proven (rules : ContentRules) (order : HashOrder) (recentLimit : ℤ)
    (batches : BatchWriter) (calls : List (StoreCall × Circumstances)) (w : S.World)
    {first : History S} {pages : List (PageTurn S)} {r : Outcome CycleEnd LoadResult}
    {u : S.World × Tables}
    (hpages : Paged rules order recentLimit batches (w, Store.run .empty calls) first pages r u) :
    (∀ past turn post, pages = past ++ turn :: post → RemovesGone batches.folder past turn) ∧
      LeavesNoneUnlisted batches.folder pages u.2 := by
  obtain ⟨stored, t, hread, hturns⟩ := hpages.turns
  have hshape : Shape (Store.run .empty calls) := run_shape shape_empty calls
  refine Turns.every (I := RereadsFrom batches.folder) (P := RemovesGone batches.folder)
    (F := fun past u => LeavesNoneUnlisted batches.folder past u.2) ?_ hturns ?_ []
    (rereadsFrom_begin (shape_of_run hread hshape).1 (run_readFolderSync hread hshape))
  · exact fun past loop s hI _ hstored => absurd hstored hI.goesOn
  · exact fun past loop s tr r u _ hI hrun =>
      ⟨removesGone_turn hI hrun, leavesNone_turn hI hrun, fun loop' hr =>
        rereadsFrom_next hI hrun hr⟩

/-! ### A folder read again -/

/-- The entries in the order they were merged. -/
def inOrder : HashOrder := ⟨fun _ entries => entries, fun _ _ => .refl _⟩

/-- An inbox that holds a message and no position: its full reading was stopped. -/
def stoppedReading : List (StoreCall × Circumstances) :=
  [(.replaceFolders filledInbox.account [⟨"INBOX", "INBOX", none, none, true⟩], ⟨false, none⟩),
    (.storeBatch filledInbox { FolderBatch.default with
      arrived := [stored noTextRules .notDownloaded (receivedAt "a" 1000)] },
      ⟨false, none⟩)]

/-- What a cycle reads of it. -/
def stoppedSync : FolderSync := ⟨.default, [("graph:a", ⟨false, false⟩)]⟩

/-- A service that has no message there. -/
def servingNone : (request : GraphRequest) → request.Reply
  | .readMessageChanges _ => .ok ⟨[], .finished "delta"⟩
  | .readMessage _ => .ok none
  | .readMessageText _ => .ok none
  | .readTextsReceivedBetween .. => .ok []
  | .updateMessageFlags .. => .ok ()

/-- The one turn of the cycle. -/
def emptied :
    History (anyServer GraphRequest.Reply) × Outcome CycleEnd (GraphLoop ⊕ LoadResult) ×
      (Unit × Tables) :=
  exec (scripted servingNone)
    (readPage noTextRules inOrder 0 ⟨filledInbox⟩ (.begin stoppedSync "INBOX"))
    ((), run .empty stoppedReading)

/-- The turn among the cycle's. -/
def emptiedTurn : PageTurn (anyServer GraphRequest.Reply) :=
  ⟨.begin stoppedSync "INBOX", ((), run .empty stoppedReading), emptied.1⟩

theorem emptied_paged :
    Paged noTextRules inOrder 0 ⟨filledInbox⟩ ((), run .empty stoppedReading)
      (exec (scripted servingNone)
        (BatchWriter.readFolderSync ⟨filledInbox⟩ : GraphCycle FolderSync)
        ((), run .empty stoppedReading)).1 [emptiedTurn] (.returned (.stored none))
        emptied.2.2 := by
  have hread := run_scripted servingNone
    (BatchWriter.readFolderSync ⟨filledInbox⟩ : GraphCycle FolderSync) (run .empty stoppedReading)
  have hturn := run_scripted servingNone
    (readPage noTextRules inOrder 0 ⟨filledInbox⟩ (.begin stoppedSync "INBOX"))
    (run .empty stoppedReading)
  exact ⟨stoppedSync, _, hread, .last hturn rfl⟩

/-- The message the folder held and the service does not have leaves it. -/
theorem removals_proven_emptied :
    HeldAtStart filledInbox [emptiedTurn] "graph:a" ∧
      emptied.2.2.2.heldFlags filledInbox "graph:a" = none := by
  have hheld : HeldAtStart filledInbox [emptiedTurn] "graph:a" := ⟨emptiedTurn, rfl, by decide⟩
  have hown : ∀ turn ∈ [emptiedTurn], AnswersOwn turn := by
    rintro turn hturn id message parent ⟨before, after, hreply⟩
    rw [List.mem_singleton.mp hturn] at hreply
    cases (exec_answered hreply).1
  have hstored : RereadingStored filledInbox [emptiedTurn] :=
    ⟨emptiedTurn, List.mem_singleton.mpr rfl, _, "delta", _, _, _, rfl, rfl, List.mem_of_getElem?
      (i := 3) rfl⟩
  have hnot : ¬NamedInRereading [emptiedTurn] "graph:a" := by
    rintro ⟨turn, hturn, page, id, hpage, ⟨change, hchange, -⟩, -⟩
    rw [List.mem_singleton.mp (List.mem_filter.mp hturn).1] at hpage
    cases hpage
    cases hchange
  exact ⟨hheld, (removals_proven noTextRules inOrder 0 ⟨filledInbox⟩ stoppedReading
    () emptied_paged).2 hown hstored _ hheld hnot⟩

end Mailbag.Cycle
