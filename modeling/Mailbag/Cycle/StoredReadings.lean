import Mailbag.Cycle.GraphRemovals
import Mailbag.Store.Replacement

/-!
# Readings in the log of stored pages

A cycle of a Microsoft 365 folder may stop after any stored page. The stored pages of all cycles
are one log: a reading is a stretch of it, each page read where the one before ends, and what a
saved link stands for is said of the log.

## The model

`Cycles` are cycles of one folder one after another, from an empty store, each a run that
may end anywhere. Between two cycles anything may call the store, but nothing else stores a
batch of the folder (`Pauses`).

## What is proved

* `Placed.startsWell` — the next reading starts at a place before which no page is missing.
* `stands_begin`, `Stands.reread` — where a loop stands that begins, or reads the folder anew.
-/

namespace Mailbag.Cycle

open Collections Graph Imap Interaction Program Relation Store

variable {S : Server GraphRequest.Reply}

/-! ### The log of stored pages -/

/-- A page that was stored. -/
structure StoredPage where
  /-- Where it was read from. -/
  start : ChangesFrom
  /-- What was read. -/
  page : ChangePage
  /-- What the cycle was reading. -/
  reading : Reading
  /-- The folder's state before it was stored. -/
  before : Option FolderState
  /-- The state stored with it. -/
  state : FolderState

/-- The folder's state before the storing of a batch, and the state stored. -/
def writtenState (folder : FolderRef) : Happened S → Option (Option FolderState × FolderState)
  | ⟨before, .store (.storeBatch _ batch), .ok .stored, _⟩ =>
    batch.state.map fun state => (before.2.state? folder, state)
  | _ => none

/-- The page a turn stored. -/
def storedPage (folder : FolderRef) (turn : PageTurn S) : Option StoredPage :=
  (pageRead turn).bind fun page => (turn.events.findSome? (writtenState folder)).map fun written =>
    ⟨turn.loop.start, page, turn.loop.reading, written.1, written.2⟩

/-- The pages a cycle stored. -/
def storedPages (folder : FolderRef) (pages : List (PageTurn S)) : List StoredPage :=
  pages.filterMap (storedPage folder)

/-! ### Readings -/

/-- The pages were read one after another from a start, and the next is read from there. -/
inductive ReadFrom (start : ChangesFrom) : List StoredPage → ChangesFrom → Prop
  /-- No page yet. -/
  | nil : ReadFrom start [] start
  /-- One more page, not the last. -/
  | more {pages : List StoredPage} {p : StoredPage} {link : String}
      (hread : ReadFrom start pages p.start) (hnext : p.page.next = .more link) :
      ReadFrom start (pages ++ [p]) (.link link)

/-- The delta link is the end of a reading all of whose pages are in the log: of the whole folder,
or a round that started at such a link. -/
inductive Completed (folder : String) : List StoredPage → String → Prop
  /-- A reading of the whole folder. -/
  | whole {earlier pages later : List StoredPage} {p : StoredPage} {delta : String}
      (hread : ReadFrom (.firstReading folder) pages p.start)
      (hlast : p.page.next = .finished delta) :
      Completed folder (earlier ++ pages ++ p :: later) delta
  /-- A round. -/
  | round {earlier pages later : List StoredPage} {p : StoredPage} {position delta : String}
      (hbefore : Completed folder earlier position)
      (hread : ReadFrom (.link position) pages p.start)
      (hlast : p.page.next = .finished delta) :
      Completed folder (earlier ++ pages ++ p :: later) delta

theorem Completed.append {folder : String} {log : List StoredPage} {delta : String}
    (h : Completed folder log delta) (more : List StoredPage) :
    Completed folder (log ++ more) delta := by
  cases h with
  | whole hread hlast =>
    rw [List.append_assoc, List.cons_append]
    exact .whole hread hlast
  | round hbefore hread hlast =>
    rw [List.append_assoc, List.cons_append]
    exact .round hbefore hread hlast

/-- The link is where a first fill goes on whose pages so far are the log's last. -/
def FillsTo (folder : String) (log : List StoredPage) (link : String) : Prop :=
  ∃ earlier pages, log = earlier ++ pages ∧ pages ≠ [] ∧
    ReadFrom (.firstReading folder) pages (.link link) ∧
    ∀ p ∈ pages, ∃ continued, p.reading = .firstFill continued

/-- What a cycle may start with, after the pages stored so far. -/
inductive StartsWell (folder : String) (log : List StoredPage) : ChangesFrom × Reading → Prop
  /-- The next link of the last stored page of a first fill all of whose pages so far are stored. -/
  | place {link : String} (hfills : FillsTo folder log link) :
      StartsWell folder log (.link link, .firstFill true)
  /-- A round's start link: every page of every completed reading before it is stored. -/
  | position {link : String} (hcompleted : Completed folder log link) :
      StartsWell folder log (.link link, .round)
  /-- A first reading of the whole folder. -/
  | first {reading : Reading} (hwhole : reading = .firstFill false ∨ reading = .fullRereading []) :
      StartsWell folder log (.firstReading folder, reading)

/-- The page is its reading's last, and all others are stored: of the pages stored before. -/
inductive EndsReading (folder : String) (log : List StoredPage) (p : StoredPage)
    (delta : String) : Prop
  /-- A reading of the whole folder. -/
  | whole {earlier pages : List StoredPage} (hlog : log = earlier ++ pages)
      (hread : ReadFrom (.firstReading folder) pages p.start)
      (hlast : p.page.next = .finished delta) : EndsReading folder log p delta
  /-- A round. -/
  | round {earlier pages : List StoredPage} {position : String} (hlog : log = earlier ++ pages)
      (hbefore : Completed folder earlier position)
      (hread : ReadFrom (.link position) pages p.start)
      (hlast : p.page.next = .finished delta) : EndsReading folder log p delta

/-- The page ends a whole reading of its cycle, after the cycle's earlier pages: a first fill no
earlier cycle began, one whole round from a saved position, or a rereading of the whole folder. -/
inductive EndsWhole (folder : String) (past earlier : List StoredPage) (p : StoredPage) : Prop
  /-- A first fill. -/
  | fill (hread : ReadFrom (.firstReading folder) earlier p.start)
      (hfill : ∀ q ∈ earlier ++ [p], q.reading = .firstFill false) : EndsWhole folder past earlier p
  /-- A round. -/
  | round {before pages : List StoredPage} {position : String}
      (hearlier : earlier = before ++ pages) (hbefore : Completed folder (past ++ before) position)
      (hread : ReadFrom (.link position) pages p.start)
      (hround : ∀ q ∈ pages ++ [p], q.reading = .round) : EndsWhole folder past earlier p
  /-- A rereading. -/
  | rereading {before pages : List StoredPage} (hearlier : earlier = before ++ pages)
      (hread : ReadFrom (.firstReading folder) pages p.start)
      (hfull : ∀ q ∈ pages ++ [p], q.reading.isFull = true) : EndsWhole folder past earlier p

/-- The state is the one stored with the last page, or begins anew. -/
def LastState (log : List StoredPage) (state : FolderState) : Prop :=
  state = .default ∨ ∃ p, log.getLast? = some p ∧ p.state = state

/-- What a page may do to the saved state, after the pages of earlier cycles and the earlier
pages of its own. -/
structure SavesWell (folder : String) (past earlier : List StoredPage) (p : StoredPage) : Prop where
  /-- The state is as the last page left it, unless the folder begins anew. -/
  since : ∃ state, p.before = some state ∧ LastState (past ++ earlier) state
  /-- A position is kept, or replaced with the delta link of the reading the page ends. -/
  position : p.state.serverPosition = p.before.bind FolderState.serverPosition ∨
    ∃ delta, p.state.serverPosition = some delta ∧ EndsReading folder (past ++ earlier) p delta
  /-- A folder is marked synchronized only so, and with a whole reading of this cycle. -/
  synchronized : p.state.synchronized = true →
    (∃ delta, p.state.serverPosition = some delta ∧ EndsReading folder (past ++ earlier) p delta) ∧
    EndsWhole folder past earlier p

/-! ### Cycles one after another -/

/-- Between two cycles anything may call the store, but nothing else stores a batch of the
folder. -/
def Pauses (folder : FolderRef) (s t : S.World × Tables) : Prop :=
  ∃ calls : List (StoreCall × Circumstances), t.2 = Store.run s.2 calls ∧
    ∀ c ∈ calls, ∀ batch, c.1 ≠ .storeBatch folder batch

/-- Cycles of one folder one after another, page by page. -/
inductive Cycles (S : Server GraphRequest.Reply) (rules : ContentRules) (batches : BatchWriter)
    (s : S.World × Tables) : List (List (PageTurn S)) → S.World × Tables → Prop
  /-- No cycle yet. -/
  | nil : Cycles S rules batches s [] s
  /-- One more cycle, wherever it ends. -/
  | cycle {cycles : List (List (PageTurn S))} {t t' u : S.World × Tables} {order : HashOrder}
      {recentLimit : ℤ} {first : History S} {pages : List (PageTurn S)}
      {r : Outcome CycleEnd LoadResult} (hcycles : Cycles S rules batches s cycles t)
      (hpause : Pauses batches.folder t t')
      (hpages : Paged rules order recentLimit batches t' first pages r u) :
      Cycles S rules batches s (cycles ++ [pages]) u

/-! ### The saved state -/

/-- What a saved state stands for, after the pages stored so far. -/
structure Placed (folder : String) (log : List StoredPage) (state : FolderState) : Prop where
  /-- Where it comes from. -/
  last : LastState log state
  /-- A fill place is that of an unfinished first fill, and there is no position. -/
  fill : ∀ link, state.fillPlace = some link → state.serverPosition = none ∧ FillsTo folder log link
  /-- A position is the end of a completed reading. -/
  position : ∀ link, state.serverPosition = some link → Completed folder log link

theorem placed_default (folder : String) (log : List StoredPage) : Placed folder log .default where
  last := .inl rfl
  fill _ h := by cases h
  position _ h := by cases h

/-- What the folder's state stands for, if the folder is stored. -/
def PlacesStand (folder : FolderRef) (log : List StoredPage) (t : Tables) : Prop :=
  ∀ state, t.state? folder = some state → Placed folder.identity log state

/-- A call that stores no batch of the folder keeps its state, or the folder begins anew. -/
theorem placesStand_call {folder : FolderRef} {log : List StoredPage} {t : Tables}
    (hshape : Shape t) (h : PlacesStand folder log t) {c : StoreCall × Circumstances}
    (hno : ∀ batch, c.1 ≠ .storeBatch folder batch) :
    PlacesStand folder log (call t c.1 c.2).2 := by
  intro state hstate
  rw [call_state hshape] at hstate
  obtain ⟨op, met⟩ := c
  cases op with
  | replaceFolders account folders =>
    simp only [stateAfter] at hstate
    split at hstate
    · split at hstate
      · cases hstate
        cases hbefore : t.state? folder with
        | none => exact placed_default _ _
        | some before => exact h before hbefore
      · cases hstate
    · exact h state hstate
  | storeBatch other batch =>
    have hother : other ≠ folder := fun heq => hno batch (by rw [heq])
    simp only [stateAfter, hother, and_false, if_false] at hstate
    exact h state hstate
  | deleteOtherAccounts current =>
    simp only [stateAfter] at hstate
    split at hstate
    · cases hstate
    · exact h state hstate
  | _ => exact h state hstate

theorem Pauses.placesStand {folder : FolderRef} {log : List StoredPage} {s t : S.World × Tables}
    (hpause : Pauses folder s t) (hshape : Shape s.2) (h : PlacesStand folder log s.2) :
    Shape t.2 ∧ PlacesStand folder log t.2 := by
  obtain ⟨calls, ht, hno⟩ := hpause
  rw [ht]
  clear ht
  generalize s.2 = tables at hshape h
  induction calls generalizing tables with
  | nil => exact ⟨hshape, h⟩
  | cons c calls ih =>
    exact ih (fun c hc => hno c (List.mem_cons_of_mem _ hc)) _ (call_shape hshape c.1 c.2)
      (placesStand_call hshape h (hno c List.mem_cons_self))

/-- **The choice of the next reading** from such a state. -/
theorem Placed.startsWell {folder : String} {log : List StoredPage} {sync : FolderSync}
    (h : Placed folder log sync.state) : StartsWell folder log (whereToStart sync folder) := by
  unfold whereToStart
  split
  · rename_i _ _ place hplace
    exact .place (h.fill place hplace).2
  · rename_i _ _ position _ hposition
    exact .position (h.position position hposition)
  · split
    · exact .first (.inr rfl)
    · exact .first (.inl rfl)

/-! ### The loop -/

/-- Where the loop stands, after the pages of earlier cycles and of its own. -/
inductive Stands (folder : String) (past mine : List StoredPage) (loop : GraphLoop) : Prop
  /-- In a first fill that it began. -/
  | fill (hread : ReadFrom (.firstReading folder) mine loop.start)
      (hfill : ∀ q ∈ mine, q.reading = .firstFill false)
      (hreading : loop.reading = .firstFill false) (hnone : loop.roundStart = none) :
      Stands folder past mine loop
  /-- In a first fill that it goes on with. -/
  | continued {earlier pages : List StoredPage} (hlog : past ++ mine = earlier ++ pages)
      (hread : ReadFrom (.firstReading folder) pages loop.start)
      (hfill : ∀ q ∈ pages, ∃ continued, q.reading = .firstFill continued)
      (hreading : loop.reading = .firstFill true) (hnone : loop.roundStart = none) :
      Stands folder past mine loop
  /-- In a round. -/
  | round {before pages : List StoredPage} {position : String} (hmine : mine = before ++ pages)
      (hbefore : Completed folder (past ++ before) position)
      (hread : ReadFrom (.link position) pages loop.start)
      (hround : ∀ q ∈ pages, q.reading = .round) (hreading : loop.reading = .round)
      (hstart : loop.roundStart = some position) : Stands folder past mine loop
  /-- In a full rereading. -/
  | rereading {before pages : List StoredPage} (hmine : mine = before ++ pages)
      (hread : ReadFrom (.firstReading folder) pages loop.start)
      (hfull : ∀ q ∈ pages, q.reading.isFull = true) (hreading : loop.reading.isFull = true)
      (hstart : ∀ position, loop.roundStart = some position →
        Completed folder (past ++ mine) position) : Stands folder past mine loop

theorem stands_round {folder : String} {past mine : List StoredPage} {loop : GraphLoop}
    {position : String} (hbefore : Completed folder (past ++ mine) position)
    (hlink : loop.start = .link position) (hreading : loop.reading = .round)
    (hstart : loop.roundStart = some position) : Stands folder past mine loop :=
  .round (List.append_nil mine).symm hbefore (hlink ▸ .nil) (fun _ hq => absurd hq List.not_mem_nil)
    hreading hstart

theorem stands_rereading {folder : String} {past mine : List StoredPage} {loop : GraphLoop}
    (hfirst : loop.start = .firstReading folder) (hreading : loop.reading.isFull = true)
    (hstart : ∀ position, loop.roundStart = some position →
      Completed folder (past ++ mine) position) : Stands folder past mine loop :=
  .rereading (List.append_nil mine).symm (hfirst ▸ .nil) (fun _ hq => absurd hq List.not_mem_nil)
    hreading hstart

theorem stands_begin {folder : String} {past : List StoredPage} {sync : FolderSync}
    (h : Placed folder past sync.state) : Stands folder past [] (.begin sync folder) := by
  have hround : ∀ start reading, (whereToStart sync folder) = (start, reading) →
      (GraphLoop.begin sync folder).start = start ∧
      (GraphLoop.begin sync folder).reading = reading := by
    rintro start reading heq
    exact ⟨congrArg Prod.fst heq, congrArg Prod.snd heq⟩
  cases hfill : sync.state.fillPlace with
  | some place =>
    obtain ⟨hnone, earlier, pages, rfl, -, hread, hfills⟩ := h.fill place hfill
    obtain ⟨hstart, hreading⟩ :=
      hround (.link place) (.firstFill true) (by simp [whereToStart, hfill])
    exact .continued (List.append_nil _) (hstart ▸ hread) hfills hreading hnone
  | none =>
    cases hposition : sync.state.serverPosition with
    | some position =>
      obtain ⟨hstart, hreading⟩ :=
        hround (.link position) .round (by simp [whereToStart, hfill, hposition])
      have hcompleted := h.position position hposition
      exact stands_round (by rwa [List.append_nil]) hstart hreading hposition
    | none =>
      by_cases hempty : sync.stored = []
      · obtain ⟨hstart, hreading⟩ := hround (.firstReading folder) (.firstFill false)
          (by simp [whereToStart, hfill, hposition, hempty])
        exact .fill (hstart ▸ .nil) (fun _ hq => absurd hq List.not_mem_nil) hreading hposition
      · obtain ⟨hstart, hreading⟩ := hround (.firstReading folder) (.fullRereading [])
          (by simp [whereToStart, hfill, hposition, hempty])
        refine stands_rereading hstart (by rw [hreading]; rfl) fun position hsome => ?_
        rw [show (GraphLoop.begin sync folder).roundStart = sync.state.serverPosition from rfl,
          hposition] at hsome
        cases hsome

theorem Stands.roundStart {folder : String} {past mine : List StoredPage} {loop : GraphLoop}
    (h : Stands folder past mine loop) {position : String}
    (hsome : loop.roundStart = some position) : Completed folder (past ++ mine) position := by
  cases h with
  | fill _ _ _ hnone => rw [hnone] at hsome; cases hsome
  | continued _ _ _ _ hnone => rw [hnone] at hsome; cases hsome
  | round hmine hbefore _ _ _ hstart =>
    cases hstart.symm.trans hsome
    rw [hmine, ← List.append_assoc]
    exact hbefore.append _
  | rereading _ _ _ _ hstart => exact hstart position hsome

theorem Stands.reread {folder : String} {past mine : List StoredPage} {loop loop' : GraphLoop}
    (h : Stands folder past mine loop) (hloop : loop'.roundStart = loop.roundStart)
    (stored : FolderSync) : Stands folder past mine (loop'.reread stored folder) :=
  stands_rereading rfl rfl fun _ hsome => h.roundStart (hloop.symm.trans hsome)

end Mailbag.Cycle
