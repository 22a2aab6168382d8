import Mailbag.Cycle.StoredReadings

/-!
# Where a Microsoft 365 cycle starts again

A cycle may stop after any stored page. The next one goes on from two optional links of the
folder's saved state and from whether the folder holds rows. What these stand for is said of the
log of stored pages, page by page and turn by turn.

## What is proved

* `saved_places` — the next cycle starts at a place before which no page is missing, a
  position is replaced with a reading's last page only, and so is a folder marked synchronized.
-/

namespace Mailbag.Cycle

open Collections Graph Imap Interaction Program Relation Store

variable {S : Server GraphRequest.Reply}

/-! ### A page -/

/-- The page was stored in a turn of the loop. -/
structure StoredIn (loop : GraphLoop) (order : HashOrder) (p : StoredPage) : Prop where
  /-- It was read from where the loop was. -/
  start : p.start = loop.start
  /-- It was read in the loop's reading. -/
  reading : p.reading = loop.reading
  /-- It was stored with the state that follows it. -/
  state : p.state = (loop.entered order p.page).stateAfter p.page.next

section Page

variable {name : String} {log past mine : List StoredPage} {loop : GraphLoop} {order : HashOrder}
  {p : StoredPage}

theorem unfinished_fill {continued : Bool} (h : loop.reading = .firstFill continued)
    (link : String) : loop.unfinished link = ⟨none, some link, false, none⟩ := by
  simp [GraphLoop.unfinished, h]

theorem unfinished_position (h : loop.reading = .round ∨ loop.reading.isFull = true)
    (link : String) : loop.unfinished link = ⟨loop.roundStart, none, false, none⟩ := by
  rcases h with h | h
  · simp [GraphLoop.unfinished, h]
  · obtain ⟨listed, hlisted⟩ := Reading.isFull_iff.mp h
    simp [GraphLoop.unfinished, hlisted]

/-- A reading that ends with a page is completed once the page is stored. -/
theorem EndsReading.completed {delta : String} (h : EndsReading name log p delta) :
    Completed name (log ++ [p]) delta := by
  cases h with
  | whole hlog hread hlast =>
    rw [hlog]
    exact .whole hread hlast
  | round hlog hbefore hread hlast =>
    rw [hlog]
    exact .round hbefore hread hlast

/-- What a page that is not the last does. -/
structure GoesOn (name : String) (past mine : List StoredPage) (p : StoredPage)
    (roundStart : Option String) (loop' : GraphLoop) : Prop where
  /-- The folder is not completed. -/
  synchronized : p.state.synchronized = false
  /-- The position stays. -/
  position : p.state.serverPosition = roundStart
  /-- What the state stands for. -/
  placed : Placed name (past ++ (mine ++ [p])) p.state
  /-- Where the loop stands then. -/
  stands : Stands name past (mine ++ [p]) loop'

theorem lastState_concat (log : List StoredPage) (p : StoredPage) :
    LastState (log ++ [p]) p.state :=
  .inr ⟨p, List.getLast?_concat, rfl⟩

/-- The state saved with a page that is not the last of a first fill. -/
theorem placed_fill {earlier pages : List StoredPage} {link : String}
    (hlog : log = earlier ++ pages) (hread : ReadFrom (.firstReading name) pages p.start)
    (hnext : p.page.next = .more link)
    (hfill : ∀ q ∈ pages ++ [p], ∃ continued, q.reading = .firstFill continued)
    (hstate : p.state = ⟨none, some link, false, none⟩) : Placed name (log ++ [p]) p.state where
  last := lastState_concat log p
  fill := by
    rintro link' hlink
    rw [hstate] at hlink ⊢
    cases hlink
    exact ⟨rfl, earlier, pages ++ [p], by rw [hlog, List.append_assoc], by simp,
      .more hread hnext, hfill⟩
  position := by
    rintro link' hlink
    rw [hstate] at hlink
    cases hlink

/-- The state saved with any other page. -/
theorem placed_position (hfill : p.state.fillPlace = none)
    (hposition : ∀ link, p.state.serverPosition = some link → Completed name (log ++ [p]) link) :
    Placed name (log ++ [p]) p.state where
  last := lastState_concat log p
  fill link hlink := by
    rw [hfill] at hlink
    cases hlink
  position := hposition

theorem forall_mem_concat {P : StoredPage → Prop} {pages : List StoredPage}
    (hpages : ∀ q ∈ pages, P q) (hp : P p) : ∀ q ∈ pages ++ [p], P q := by
  simpa [or_imp, forall_and] using And.intro hpages hp

/-- **A page that is not the last** goes on. -/
theorem Stands.goesOn (h : Stands name past mine loop) (hp : StoredIn loop order p) {link : String}
    (hnext : p.page.next = .more link) :
    GoesOn name past mine p loop.roundStart
      { loop.entered order p.page with start := .link link } := by
  have hstate : p.state = (loop.entered order p.page).unfinished link := by
    rw [hp.state, hnext]
    rfl
  have hstart : (loop.entered order p.page).roundStart = loop.roundStart := entered_roundStart
  have hkept : (loop.reading = .round ∨ loop.reading.isFull = true) →
      p.state = ⟨loop.roundStart, none, false, none⟩ := by
    intro hreading
    rw [hstate, ← hstart]
    refine unfinished_position (hreading.imp (fun hround => ?_) fun hfull => ?_) link
    · rw [entered_reading (isFull_of_round hround), hround]
    · rw [entered_isFull, hfull]
  have hplaced : (loop.reading = .round ∨ loop.reading.isFull = true) →
      Placed name (past ++ (mine ++ [p])) p.state := by
    intro hreading
    rw [← List.append_assoc]
    refine placed_position (by rw [hkept hreading]) fun position hsome => ?_
    rw [hkept hreading] at hsome
    exact (h.roundStart hsome).append _
  have hread := hp.start
  cases h with
  | fill hpages hfill hreading hnone =>
    have hfirst : (loop.entered order p.page).reading = .firstFill false := by
      rw [entered_reading (by rw [hreading]; rfl), hreading]
    have hfills := forall_mem_concat hfill (hp.reading.trans hreading)
    rw [unfinished_fill hfirst] at hstate
    refine ⟨by rw [hstate], by rw [hstate, hnone], ?_, .fill (.more (hread ▸ hpages) hnext) hfills
      hfirst (hstart.trans hnone)⟩
    rw [← List.append_assoc]
    exact placed_fill rfl (hread ▸ hpages) hnext (fun q hq => ⟨false, hfills q hq⟩) hstate
  | @continued earlier pages hlog hpages hfill hreading hnone =>
    have hfirst : (loop.entered order p.page).reading = .firstFill true := by
      rw [entered_reading (by rw [hreading]; rfl), hreading]
    have hfills := forall_mem_concat hfill ⟨true, hp.reading.trans hreading⟩
    rw [unfinished_fill hfirst] at hstate
    have hlog' : past ++ (mine ++ [p]) = earlier ++ (pages ++ [p]) := by
      rw [← List.append_assoc, hlog, List.append_assoc]
    refine ⟨by rw [hstate], by rw [hstate, hnone], ?_,
      .continued hlog' (.more (hread ▸ hpages) hnext) hfills hfirst (hstart.trans hnone)⟩
    rw [← List.append_assoc]
    exact placed_fill hlog (hread ▸ hpages) hnext hfills hstate
  | @round before pages position hmine hbefore hpages hround hreading hposition =>
    have hmine' : mine ++ [p] = before ++ (pages ++ [p]) := by rw [hmine, List.append_assoc]
    exact ⟨by rw [hkept (.inl hreading)], by rw [hkept (.inl hreading)], hplaced (.inl hreading),
      .round hmine' hbefore (.more (hread ▸ hpages) hnext)
        (forall_mem_concat hround (hp.reading.trans hreading))
        ((entered_reading (isFull_of_round hreading)).trans hreading) (hstart.trans hposition)⟩
  | @rereading before pages hmine hpages hfull hreading hposition =>
    have hmine' : mine ++ [p] = before ++ (pages ++ [p]) := by rw [hmine, List.append_assoc]
    refine ⟨by rw [hkept (.inr hreading)], by rw [hkept (.inr hreading)], hplaced (.inr hreading),
      .rereading hmine' (.more (hread ▸ hpages) hnext)
        (forall_mem_concat hfull (by rw [hp.reading, hreading]))
        (entered_isFull.trans hreading) fun position hsome => ?_⟩
    rw [← List.append_assoc]
    exact (hposition position (hstart.symm.trans hsome)).append _

/-- **The last page** of a reading ends it. -/
theorem Stands.endsReading (h : Stands name past mine loop) (hp : StoredIn loop order p)
    {delta : String} (hnext : p.page.next = .finished delta) :
    EndsReading name (past ++ mine) p delta := by
  have hread := hp.start
  cases h with
  | fill hpages => exact .whole rfl (hread ▸ hpages) hnext
  | continued hlog hpages => exact .whole hlog (hread ▸ hpages) hnext
  | round hmine hbefore hpages =>
    exact .round (by rw [hmine, List.append_assoc]) hbefore (hread ▸ hpages) hnext
  | @rereading before pages hmine hpages =>
    have hlog : past ++ mine = past ++ before ++ pages := by rw [hmine, List.append_assoc]
    exact .whole hlog (hread ▸ hpages) hnext

/-- Unless it ends a continued first fill, it ends a whole reading of the cycle. -/
theorem Stands.endsWhole (h : Stands name past mine loop) (hp : StoredIn loop order p)
    (hfirst : loop.reading ≠ .firstFill true) : EndsWhole name past mine p := by
  have hread := hp.start
  cases h with
  | fill hpages hfill hreading =>
    exact .fill (hread ▸ hpages) (forall_mem_concat hfill (hp.reading.trans hreading))
  | continued _ _ _ hreading => exact absurd hreading hfirst
  | round hmine hbefore hpages hround hreading =>
    exact .round hmine hbefore (hread ▸ hpages)
      (forall_mem_concat hround (hp.reading.trans hreading))
  | rereading hmine hpages hfull hreading =>
    exact .rereading hmine (hread ▸ hpages) (forall_mem_concat hfull (by rw [hp.reading, hreading]))

end Page

/-! ### A turn -/

section Turn

variable {rules : ContentRules} {order : HashOrder} {recentLimit : ℤ} {batches : BatchWriter}
  {loop : GraphLoop} {s u : S.World × Tables} {tr : History S}
  {r : Outcome CycleEnd (GraphLoop ⊕ LoadResult)} {folder : FolderRef}

theorem writtenState_eq_none {e : Happened S} (h : ∀ other, ¬Stores other e.op) :
    writtenState folder e = none := by
  unfold writtenState
  split
  · rename_i other batch _
    exact absurd ⟨batch, rfl⟩ (h other)
  · rfl

theorem findSome?_writtenState_eq_none {tr : History S}
    (h : ∀ e ∈ tr, ∀ other, ¬Stores other e.op) : tr.findSome? (writtenState folder) = none := by
  rw [List.findSome?_eq_none_iff]
  exact fun e he => writtenState_eq_none (h e he)

theorem storedPage_eq_none {turn : PageTurn S}
    (h : turn.events.findSome? (writtenState folder) = none) : storedPage folder turn = none := by
  rw [storedPage, h]
  cases pageRead turn <;> rfl

/-- Nothing was stored: the folder is as it was, and what follows is a full rereading. -/
structure StoredNone (folder : FolderRef) (loop : GraphLoop) (s : S.World × Tables) (tr : History S)
    (r : Outcome CycleEnd (GraphLoop ⊕ LoadResult)) (u : S.World × Tables) : Prop where
  /-- No page. -/
  none : storedPage folder ⟨loop, s, tr⟩ = none
  /-- The folder's state stays. -/
  state : u.2.state? folder = s.2.state? folder
  /-- What follows. -/
  next : ∀ loop', r = .returned (.inl loop') →
    ∃ (base : GraphLoop) (stored : FolderSync), loop' = base.reread stored folder.identity ∧
      base.roundStart = loop.roundStart

/-- A page was stored. -/
structure StoredOne (folder : FolderRef) (loop : GraphLoop) (order : HashOrder)
    (s : S.World × Tables) (tr : History S) (r : Outcome CycleEnd (GraphLoop ⊕ LoadResult))
    (u : S.World × Tables) (p : StoredPage) : Prop where
  /-- The page. -/
  page : storedPage folder ⟨loop, s, tr⟩ = some p
  /-- How it was stored. -/
  storedIn : StoredIn loop order p
  /-- The folder's state before. -/
  before : p.before = s.2.state? folder ∧ p.before.isSome
  /-- The folder's state after. -/
  state : u.2.state? folder = some p.state
  /-- What follows. -/
  next : ∀ loop', r = .returned (.inl loop') →
    (loop.entered order p.page).after p.page.next = .inl loop'

theorem TurnCase.stores (h : TurnCase rules order recentLimit batches loop s tr r u)
    (hshape : Shape s.2) :
    StoredNone batches.folder loop s tr r u ∨
      ∃ p, StoredOne batches.folder loop order s tr r u p := by
  have hbatch_stays : ∀ {page : ChangePage} {t v : S.World × Tables} {tr' : History S} {r' : Outcome
    CycleEnd FolderBatch},
      Stays s.2 t.2 → Run (surroundings S)
        (batchFromChanges rules (loop.changesOf order page) (loop.entered order page).reading
          recentLimit batches) t tr' r' v →
      Stays s.2 v.2 ∧ ∀ e ∈ tr', ∀ other, ¬Stores other e.op := by
    intro page t v tr' r' hstays hrun
    have hasks := batchFromChanges_asks rules (loop.changesOf order page)
      (loop.entered order page).reading recentLimit batches
    exact ⟨hstays.trans (run_stays_of_asks hrun (hasks.mono fun _ => InBatch.still)).1,
      fun e he _ => (hrun.asked hasks e he).not_stores⟩
  have hprepared : ∀ {tr' : History S}, (∀ e ∈ tr', Prepares loop batches.folder e.op) →
      storedPage batches.folder ⟨loop, s, tr'⟩ = none := by
    refine fun hprepares => storedPage_eq_none (findSome?_writtenState_eq_none fun e he other => ?_)
    rintro ⟨batch, hop⟩
    rcases hprepares e he with h | h <;> cases hop.symm.trans h
  cases h with
  | ended hprepares hlast hstays =>
    exact .inl ⟨hprepared hprepares, hstays.state _, fun _ hr => absurd hr (hlast _)⟩
  | reread hprepares hstays _ hloop =>
    refine .inl ⟨hprepared hprepares, hstays.state _, fun loop' hr => ?_⟩
    cases hr
    exact ⟨_, _, rfl, hloop⟩
  | unstored hstays _ hrun hlast =>
    obtain ⟨hstays', hnot⟩ := hbatch_stays hstays hrun
    refine .inl ⟨storedPage_eq_none (findSome?_writtenState_eq_none fun e he other => ?_),
      hstays'.state _,
      fun _ hr => absurd hr (hlast _)⟩
    rcases List.mem_cons.mp he with rfl | he
    · rintro ⟨batch, hop⟩
      cases hop
    · exact hnot e he other
  | @stored page s' t t₁ t₂ t₃ _ tr₁ tr₂ batch answer _ hstays _ hrun hmoved hcall hrest =>
    obtain ⟨hstays', hnot⟩ := hbatch_stays hstays hrun
    have hstays₂ : Stays s.2 t₂.2 := hstays'.trans hmoved.toStays
    obtain ⟨met, hcall⟩ := hcall
    have hfound : ∀ {rest : History S},
      (⟨s', .server (.readMessageChanges loop.start), .ok page, t⟩ :: (tr₁ ++ rest) :
        History S).findSome? (writtenState batches.folder) = rest.findSome?
          (writtenState batches.folder) := by
      intro rest
      rw [List.findSome?_cons_of_isNone (by rfl), List.findSome?_append,
        findSome?_writtenState_eq_none hnot, Option.none_or]
    rcases storeBatch_spec (hstays₂.shape hshape).toLinked
        ((loop.entered order page).finalBatch page.next batch) met
          with ⟨folderId, ho, -, hspec⟩ | ⟨hsame, hne⟩
    · obtain ⟨rfl, htables⟩ := Prod.mk.inj (hcall.trans hspec)
      rcases hrest with ⟨-, hend, -, hafter⟩ | ⟨hne, -⟩
      · have hstate : u.2.state? batches.folder =
            some ((loop.entered order page).stateAfter page.next) := by
          rw [hend.state, htables, applyBatch_state (hstays₂.shape hshape) ho]
          rfl
        refine .inr ⟨⟨loop.start, page, loop.reading, t₂.2.state? batches.folder,
          (loop.entered order page).stateAfter page.next⟩,
          ?_, ⟨rfl, rfl, rfl⟩, ⟨hstays₂.state _, state_isSome ho⟩, hstate, fun loop' hr => ?_⟩
        · rw [storedPage, hfound]
          rfl
        · rcases hafter with hafter | hlast
          · exact Outcome.returned.inj (hafter.symm.trans hr)
          · exact absurd hr (hlast _)
      · exact absurd rfl hne
    · rw [← hcall] at hsame hne
      rcases hrest with ⟨hstored, -⟩ | ⟨-, rfl, rfl, hlast⟩
      · exact absurd hstored hne
      · refine .inl ⟨storedPage_eq_none ?_, ?_, fun _ hr => absurd hr (hlast _)⟩
        · rw [hfound]
          refine List.findSome?_eq_none_iff.mpr fun e he => ?_
          rw [List.mem_singleton.mp he]
          cases answer with
          | error failure => rfl
          | ok written =>
            cases written with
            | stored => exact absurd rfl hne
            | loadCancelled => rfl
        · rw [hsame]
          exact hstays₂.state _

/-- Where a cycle stands between two turns, after the pages of earlier cycles. -/
structure Standing (folder : FolderRef) (past : List StoredPage) (turns : List (PageTurn S))
    (loop : GraphLoop) (s : S.World × Tables) : Prop where
  /-- The store has its shape. -/
  shape : Shape s.2
  /-- Where the loop stands. -/
  stands : Stands folder.identity past (storedPages folder turns) loop
  /-- The folder's position is the one the loop keeps. -/
  position : ∀ state, s.2.state? folder = some state → state.serverPosition = loop.roundStart
  /-- What the folder's state stands for. -/
  placed : PlacesStand folder (past ++ storedPages folder turns) s.2

variable {past : List StoredPage} {turns : List (PageTurn S)} {turn : PageTurn S}

theorem storedPages_concat_none (h : storedPage folder turn = none) :
    storedPages folder (turns ++ [turn]) = storedPages folder turns := by
  simp [storedPages, h]

theorem storedPages_concat_some {p : StoredPage} (h : storedPage folder turn = some p) :
    storedPages folder (turns ++ [turn]) = storedPages folder turns ++ [p] := by
  simp [storedPages, h]

/-- The position stored with a page is the one the loop goes on with. -/
theorem Stands.follows {name : String} {mine : List StoredPage} {p : StoredPage}
    (h : Stands name past mine loop) (hp : StoredIn loop order p) :
    Placed name (past ++ (mine ++ [p])) p.state ∧
      ∀ loop', (loop.entered order p.page).after p.page.next = .inl loop' →
        Stands name past (mine ++ [p]) loop' ∧ p.state.serverPosition = loop'.roundStart := by
  cases hnext : p.page.next with
  | more link =>
    have hgo := h.goesOn hp hnext
    refine ⟨hgo.placed, fun loop' hafter => ?_⟩
    cases hafter
    exact ⟨hgo.stands, hgo.position.trans entered_roundStart.symm⟩
  | finished delta =>
    have hends := (h.endsReading hp hnext).completed
    have hstate := hp.state
    rw [hnext, GraphLoop.stateAfter] at hstate
    have hplaced : p.state.fillPlace = none ∧ p.state.serverPosition = some delta := by
      rw [hstate]
      split <;> exact ⟨rfl, rfl⟩
    rw [← List.append_assoc]
    refine ⟨placed_position hplaced.1 fun link hlink => ?_, fun loop' hafter => ?_⟩
    · cases hplaced.2.symm.trans hlink
      exact hends
    · rw [GraphLoop.after] at hafter
      split at hafter
      · cases hafter
        exact ⟨stands_round (by rwa [← List.append_assoc]) rfl rfl rfl, hplaced.2⟩
      · cases hafter

/-- **A page saves well.** -/
theorem Stands.savesWell {name : String} {mine : List StoredPage} {p : StoredPage}
    {state : FolderState} (h : Stands name past mine loop) (hp : StoredIn loop order p)
    (hbefore : p.before = some state) (hlast : LastState (past ++ mine) state)
    (hposition : state.serverPosition = loop.roundStart) : SavesWell name past mine p := by
  cases hnext : p.page.next with
  | more link =>
    have hgo := h.goesOn hp hnext
    refine ⟨⟨state, hbefore, hlast⟩, .inl ?_, fun hsync => ?_⟩
    · rw [hgo.position, hbefore, ← hposition]
      rfl
    · rw [hgo.synchronized] at hsync
      cases hsync
  | finished delta =>
    have hends := h.endsReading hp hnext
    have hstate := hp.state
    rw [hnext, GraphLoop.stateAfter] at hstate
    by_cases hfill : (loop.entered order p.page).reading = .firstFill true
    · rw [if_pos hfill] at hstate
      refine ⟨⟨state, hbefore, hlast⟩, .inr ⟨delta, by rw [hstate], hends⟩, fun hsync => ?_⟩
      rw [hstate] at hsync
      cases hsync
    · rw [if_neg hfill] at hstate
      have hsaved : ∃ link, p.state.serverPosition = some link ∧
          EndsReading name (past ++ mine) p link :=
        ⟨delta, by rw [hstate]; rfl, hends⟩
      refine ⟨⟨state, hbefore, hlast⟩, .inr hsaved,
        fun _ => ⟨hsaved, h.endsWhole hp fun hfirst => hfill ?_⟩⟩
      rw [entered_reading (by rw [hfirst]; rfl), hfirst]

/-- **A turn**: its page saves well, and the next turn starts from where it leads. -/
theorem Standing.turns_on (h : Standing batches.folder past turns loop s)
    (hrun : Run (surroundings S) (readPage rules order recentLimit batches loop) s tr r u) :
    (∀ p, storedPage batches.folder ⟨loop, s, tr⟩ = some p →
        SavesWell batches.folder.identity past (storedPages batches.folder turns) p) ∧
      (Shape u.2 ∧ PlacesStand batches.folder
        (past ++ storedPages batches.folder (turns ++ [⟨loop, s, tr⟩])) u.2) ∧
      ∀ loop', r = .returned (.inl loop') →
        Standing batches.folder past (turns ++ [⟨loop, s, tr⟩]) loop' u := by
  have hshape : Shape u.2 := (shape_of_run hrun h.shape).1
  rcases (readPage_cases hrun).stores h.shape with hnone | ⟨p, hone⟩
  · have hplaced : PlacesStand batches.folder
        (past ++ storedPages batches.folder (turns ++ [⟨loop, s, tr⟩])) u.2 := by
      rw [storedPages_concat_none hnone.none]
      exact fun state hstate => h.placed state (hnone.state.symm.trans hstate)
    refine ⟨fun p hp => ?_, ⟨hshape, hplaced⟩, fun loop' hr => ?_⟩
    · rw [hnone.none] at hp
      cases hp
    · obtain ⟨base, stored, rfl, hstart⟩ := hnone.next loop' hr
      refine ⟨hshape, ?_, fun state hstate => ?_, hplaced⟩
      · rw [storedPages_concat_none hnone.none]
        exact h.stands.reread hstart stored
      · exact (h.position state (hnone.state.symm.trans hstate)).trans hstart.symm
  · obtain ⟨hplaced, hnext⟩ := h.stands.follows hone.storedIn
    obtain ⟨state, hbefore⟩ := Option.isSome_iff_exists.mp hone.before.2
    have hstate : s.2.state? batches.folder = some state := hone.before.1.symm.trans hbefore
    have hplaces : PlacesStand batches.folder
        (past ++ storedPages batches.folder (turns ++ [⟨loop, s, tr⟩])) u.2 := by
      rw [storedPages_concat_some hone.page]
      intro state' hstate'
      cases hone.state.symm.trans hstate'
      exact hplaced
    refine ⟨fun p' hp' => ?_, ⟨hshape, hplaces⟩, fun loop' hr => ?_⟩
    · cases hone.page.symm.trans hp'
      exact h.stands.savesWell hone.storedIn hbefore (h.placed state hstate).last
        (h.position state hstate)
    · obtain ⟨hstands, hposition⟩ := hnext loop' (hone.next loop' hr)
      refine ⟨hshape, ?_, fun state' hstate' => ?_, hplaces⟩
      · rw [storedPages_concat_some hone.page]
        exact hstands
      · cases hone.state.symm.trans hstate'
        exact hposition

end Turn

/-! ### Cycle after cycle -/

section Cycles

variable {rules : ContentRules} {order : HashOrder} {recentLimit : ℤ} {batches : BatchWriter}
  {past : List StoredPage}

/-- **A cycle**, from a folder whose state stands for what was stored before. -/
theorem Paged.places {s u : S.World × Tables} {first : History S} {pages : List (PageTurn S)}
    {r : Outcome CycleEnd LoadResult}
    (hpages : Paged rules order recentLimit batches s first pages r u) (hshape : Shape s.2)
    (hplaced : PlacesStand batches.folder past s.2) :
    (∀ earlier p later, storedPages batches.folder pages = earlier ++ p :: later →
      SavesWell batches.folder.identity past earlier p) ∧
      Shape u.2 ∧ PlacesStand batches.folder (past ++ storedPages batches.folder pages) u.2 := by
  obtain ⟨stored, t, hread, hturns⟩ := hpages.turns
  have hso := run_readFolderSync hread hshape
  have hstays := (run_stays_of_asks hread (storeCall_asks (K := Still) id)).1
  have hplaced' : Placed batches.folder.identity past stored.state :=
    hplaced _ ((hstays.state _).symm.trans hso.1)
  have hbegin : Standing batches.folder past [] (.begin stored batches.folder.identity) t := by
    refine ⟨hstays.shape hshape, stands_begin hplaced', fun state hstate => ?_,
      fun state hstate => ?_⟩
    · cases hso.1.symm.trans hstate
      rfl
    · cases hso.1.symm.trans hstate
      exact (List.append_nil past).symm ▸ hplaced'
  obtain ⟨hsaves, hend⟩ := Turns.every (I := Standing batches.folder past)
    (P := fun turns turn => ∀ p, storedPage batches.folder turn = some p →
      SavesWell batches.folder.identity past (storedPages batches.folder turns) p)
    (F := fun turns u => Shape u.2 ∧ PlacesStand batches.folder
      (past ++ storedPages batches.folder turns) u.2)
    (fun turns loop s hI => ⟨hI.shape, hI.placed⟩) hturns
      (fun turns loop s tr r u _ hI hrun => hI.turns_on hrun) [] hbegin
  refine ⟨fun earlier p later heq => ?_, hend⟩
  obtain ⟨turns₁, turns₂, rfl, rfl, hrest⟩ := List.filterMap_eq_append_iff.mp heq
  obtain ⟨skipped, turn, post, rfl, hskipped, hpage, -⟩ := List.filterMap_eq_cons_iff.mp hrest
  have hnone : storedPages batches.folder skipped = [] := List.filterMap_eq_nil_iff.mpr hskipped
  have := hsaves (turns₁ ++ skipped) turn post (List.append_assoc ..).symm p hpage
  rw [List.nil_append, storedPages, List.filterMap_append] at this
  change SavesWell _ _ (_ ++ storedPages batches.folder skipped) p at this
  rwa [hnone, List.append_nil] at this

/-- The folder's state after any cycles, and every page of them. -/
theorem Cycles.places {s u : S.World × Tables} {cycles : List (List (PageTurn S))}
    (h : Cycles S rules batches s cycles u) (hshape : Shape s.2)
    (hplaced : PlacesStand batches.folder [] s.2) :
    (∀ before pages after, cycles = before ++ pages :: after → ∀ earlier p later,
        storedPages batches.folder pages = earlier ++ p :: later →
          SavesWell batches.folder.identity (before.flatMap (storedPages batches.folder))
            earlier p) ∧
      Shape u.2 ∧ PlacesStand batches.folder (cycles.flatMap (storedPages batches.folder)) u.2 := by
  induction h with
  | nil => exact ⟨fun before pages after heq => by simp at heq, hshape, hplaced⟩
  | @cycle cycles t t' u order recentLimit first pages r hcycles hpause hpages ih =>
    obtain ⟨hsaves, ht, hstand⟩ := ih
    obtain ⟨ht', hstand'⟩ := hpause.placesStand ht hstand
    obtain ⟨hsaves', hu, hend⟩ := hpages.places ht' hstand'
    refine ⟨fun before pages' after heq => ?_, hu, ?_⟩
    · rcases concat_eq_append_cons heq with ⟨-, rfl, rfl⟩ | ⟨after', -, heq'⟩
      · exact hsaves'
      · exact hsaves before pages' after' heq'
    · rw [List.flatMap_append, List.flatMap_singleton]
      exact hend

end Cycles

/-- **The saved place never skips an unstored page**: whatever the service answers, after any cycles
of a folder one after another, each ended anywhere, from an empty store, a next cycle goes on
where an unfinished first fill stopped, or starts a round at the end of the last completed
reading, or reads the folder from its beginning; and every page of these cycles replaces the
position and marks the folder synchronized only as the last page of its reading. -/
theorem saved_places (rules : ContentRules) (batches : BatchWriter) (w : S.World)
    {cycles : List (List (PageTurn S))} {u : S.World × Tables}
    (h : Cycles S rules batches (w, .empty) cycles u) :
    (∀ v, Pauses batches.folder u v → ∀ sync met,
      (call v.2 (.readFolderSync batches.folder) met).1 = .ok sync →
        StartsWell batches.folder.identity (cycles.flatMap (storedPages batches.folder))
          (whereToStart sync batches.folder.identity)) ∧
      ∀ before pages after, cycles = before ++ pages :: after → ∀ earlier p later,
        storedPages batches.folder pages = earlier ++ p :: later →
          SavesWell batches.folder.identity (before.flatMap (storedPages batches.folder))
          earlier p := by
  obtain ⟨hsaves, hshape, hstand⟩ := h.places shape_empty fun state hstate => by cases hstate
  refine ⟨fun v hpause sync met hsync => ?_, hsaves⟩
  obtain ⟨hshape', hstand'⟩ := hpause.placesStand hshape hstand
  obtain ⟨-, hstate, -⟩ := readFolderSync_spec hshape'.toLinked (Prod.ext hsync rfl)
  exact (hstand' _ hstate).startsWell

/-! ### A stopped first fill -/

/-- The folder list of an account with an empty inbox. -/
def listedInbox : List (StoreCall × Circumstances) :=
  [(.replaceFolders filledInbox.account [⟨"INBOX", "INBOX", none, none, true⟩], ⟨false, none⟩)]

/-- A service whose first page is not the last. -/
def servingFill : (request : GraphRequest) → request.Reply
  | .readMessageChanges _ => .ok ⟨[.listed (receivedAt "x" 1000)], .more "fill"⟩
  | .readMessage _ => .ok none
  | .readMessageText _ => .ok none
  | .readTextsReceivedBetween .. => .ok []
  | .updateMessageFlags .. => .ok ()

/-- What a cycle reads of the inbox. -/
def listedSync : FolderSync := ⟨.default, []⟩

/-- The turn of the first page. -/
def firstPage :
    History (anyServer GraphRequest.Reply) × Outcome CycleEnd (GraphLoop ⊕ LoadResult) ×
      (Unit × Tables) :=
  exec (scripted servingFill) (readPage noTextRules inOrder 2000 ⟨filledInbox⟩
    (.begin listedSync "INBOX")) ((), run .empty listedInbox)

/-- The turn among the cycle's. -/
def firstPageTurn : PageTurn (anyServer GraphRequest.Reply) :=
  ⟨.begin listedSync "INBOX", ((), run .empty listedInbox), firstPage.1⟩

theorem firstPage_cycles :
    Cycles (anyServer GraphRequest.Reply) noTextRules ⟨filledInbox⟩ ((), .empty) [[firstPageTurn]]
      firstPage.2.2 := by
  have hread := run_scripted servingFill
    (BatchWriter.readFolderSync ⟨filledInbox⟩ : GraphCycle FolderSync) (run .empty listedInbox)
  have hturn := run_scripted servingFill
    (readPage noTextRules inOrder 2000 ⟨filledInbox⟩ (.begin listedSync "INBOX"))
    (run .empty listedInbox)
  have hpause : Pauses (S := anyServer GraphRequest.Reply) filledInbox ((), .empty)
      ((), run .empty listedInbox) := by
    refine ⟨listedInbox, rfl, fun c hc batch heq => ?_⟩
    rw [List.mem_singleton.mp hc] at heq
    cases heq
  exact Cycles.nil.cycle hpause ⟨listedSync, _, hread, .next hturn .cut⟩

/-- The page it stored. -/
def firstStored : StoredPage where
  start := .firstReading "INBOX"
  page := ⟨[.listed (receivedAt "x" 1000)], .more "fill"⟩
  reading := .firstFill false
  before := some .default
  state := ⟨none, some "fill", false, none⟩

theorem firstStored_pages : storedPages filledInbox [firstPageTurn] = [firstStored] := rfl

/-- The next cycle goes on with the page after it, and no position was saved. -/
theorem saved_places_stopped :
    StartsWell "INBOX" [firstStored] (.link "fill", .firstFill true) ∧
      SavesWell "INBOX" [] [] firstStored := by
  obtain ⟨hstarts, hsaves⟩ := saved_places (S := anyServer GraphRequest.Reply) noTextRules
    ⟨filledInbox⟩ () firstPage_cycles
  refine ⟨?_, hsaves [] _ [] rfl [] firstStored [] firstStored_pages⟩
  exact hstarts firstPage.2.2 ⟨[], rfl, fun _ h => absurd h List.not_mem_nil⟩
    ⟨firstStored.state, [("graph:x", ⟨false, false⟩)]⟩ ⟨false, none⟩ rfl

end Mailbag.Cycle
