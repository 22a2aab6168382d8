import Mailbag.Cycle.Graph
import Mailbag.Interaction.Turns

/-!
# The loop over the pages of a Microsoft 365 folder

A cycle reads page after page of the service's delta reading and stores each as a batch,
until the reading completes. What it reads may change on the way: a rejected link, and a
round that names too many of the folder's messages, turn into a reading of the whole folder,
and a first fill that went on from a saved place turns into a round.

## The model

One turn of the loop is `readPage`; a run is followed for some number of turns. The merged
entries of a page are gone through in the order of a hash map (`HashOrder`), another for
each page. `Paged` is a run of the cycle page by page.
-/

namespace Mailbag.Cycle

open Collections Graph Imap Interaction Program Relation Store

/-- The order in which the entries of each page are gone through: a hash map's. -/
structure HashOrder where
  /-- The entries of a page, in the order of its map. -/
  arrange : ℕ → List (String × MessageChange) → List (String × MessageChange)
  /-- It is an order of these entries. -/
  perm : ∀ page entries, (arrange page entries).Perm entries

/-- What the loop keeps from page to page. -/
structure GraphLoop where
  /-- What the folder held when it was read last. -/
  stored : FolderSync
  /-- Where the next page is read from. -/
  start : ChangesFrom
  /-- What the cycle is reading. -/
  reading : Reading
  /-- Where the current round started: an interrupted round starts there again. -/
  roundStart : Option String
  /-- Stored messages the round's entries named so far. -/
  storedNamedInRound : ℕ
  /-- How many pages were gone through. -/
  pages : ℕ

/-- How many messages the folder holds a round may name before the cycle reads the whole folder. -/
def roundReadingsLimit : ℕ := 100

/-- Where the reading starts: the saved place of an unfinished first fill, the saved position
of the next round, or a first reading; one of a folder that holds rows is a stopped full
reading, started again in full. -/
def whereToStart (stored : FolderSync) (folder : String) : ChangesFrom × Reading :=
  match stored.state.fillPlace, stored.state.serverPosition with
  | some place, _ => (.link place, .firstFill true)
  | none, some position => (.link position, .round)
  | none, none =>
    if stored.stored ≠ [] then (.firstReading folder, .fullRereading [])
    else (.firstReading folder, .firstFill false)

/-- The loop at the start of a cycle. -/
def GraphLoop.begin (stored : FolderSync) (folder : String) : GraphLoop where
  stored := stored
  start := (whereToStart stored folder).1
  reading := (whereToStart stored folder).2
  roundStart := stored.state.serverPosition
  storedNamedInRound := 0
  pages := 0

/-- The reading is a full rereading. -/
def Reading.isFull : Reading → Bool
  | .fullRereading _ => true
  | _ => false

theorem Reading.isFull_iff {reading : Reading} :
    reading.isFull = true ↔ ∃ listed, reading = .fullRereading listed := by
  cases reading <;> simp [Reading.isFull]

/-- It is a link the service gave. -/
def isLink : ChangesFrom → Bool
  | .link _ => true
  | .firstReading _ => false

/-- Only a saved link can be rejected into a full reading, once. -/
def GraphLoop.rereadsOn (loop : GraphLoop) (error : GraphError) : Bool :=
  error.failure = .positionRejected ∧ isLink loop.start ∧ ¬loop.reading.isFull

/-- The loop at the start of a full rereading: what the folder holds now is what its end
compares with. -/
def GraphLoop.reread (loop : GraphLoop) (stored : FolderSync) (folder : String) : GraphLoop :=
  { loop with stored := stored, start := .firstReading folder, reading := .fullRereading [] }

/-- Read the whole folder from now on. -/
def rereadFolder (batches : BatchWriter) (loop : GraphLoop) : GraphCycle (GraphLoop ⊕ LoadResult) :=
  batches.readFolderSync.bind fun stored =>
    .done (.inl (loop.reread stored batches.folder.identity))

/-- How many of the entries name messages the folder held. -/
def GraphLoop.storedNamed (loop : GraphLoop) (changes : List (String × MessageChange)) : ℕ :=
  (changes.filter fun entry => (loop.stored.get (graphIdentity entry.1)).isSome).length

/-- The loop with a page's entries counted, in a round. -/
def GraphLoop.counted (loop : GraphLoop) (changes : List (String × MessageChange)) : GraphLoop where
  stored := loop.stored
  start := loop.start
  reading := loop.reading
  roundStart := loop.roundStart
  storedNamedInRound := loop.storedNamedInRound + if loop.reading = .round then loop.storedNamed
    changes else 0
  pages := loop.pages + 1

/-- Too many stored messages to read one by one. -/
def GraphLoop.namesTooMany (loop : GraphLoop) : Bool :=
  loop.reading = .round ∧ roundReadingsLimit < loop.storedNamedInRound

/-- The loop with a page's messages listed, in a full rereading. -/
def GraphLoop.listed (loop : GraphLoop) (changes : List (String × MessageChange)) : GraphLoop :=
  match loop.reading with
  | .fullRereading listed =>
    { loop with
      reading := .fullRereading
        (listed ++ changes.map fun entry => graphIdentity entry.1) }
  | _ => loop

/-- The state a completed cycle leaves. -/
def completed (serverPosition : Option String) : FolderState := ⟨serverPosition, none, true, none⟩

/-- The folder's state after a page that is not the reading's last. -/
def GraphLoop.unfinished (loop : GraphLoop) (nextLink : String) : FolderState :=
  match loop.reading with
  | .firstFill _ => ⟨none, some nextLink, false, none⟩
  | .round => ⟨loop.roundStart, none, false, none⟩
  | .fullRereading _ => ⟨loop.roundStart, none, false, none⟩

/-- The stored messages a full rereading did not list. -/
def GraphLoop.unlisted (loop : GraphLoop) : List String :=
  match loop.reading with
  | .fullRereading listed =>
    (loop.stored.stored.map Prod.fst).filter fun identity => identity ∉ listed
  | _ => []

/-- Store a page's batch with the folder's state, send the user's changes, never within a
round, and go on. -/
def storePage (batches : BatchWriter) (loop : GraphLoop) (next : NextPage) (batch : FolderBatch) :
    GraphCycle (GraphLoop ⊕ LoadResult) :=
  match next with
  | .more nextLink =>
    -- Not the reading's last page: the folder is not completed.
    (batches.store { batch with state := some (loop.unfinished nextLink) }).bind fun _ =>
      (if loop.reading = .round then .done () else sendGraphChanges batches).bind fun _ =>
        .done (.inl { loop with start := .link nextLink })
  | .finished deltaLink =>
    if loop.reading = .firstFill true then
      (batches.store { batch with state := some ⟨some deltaLink, none, false, none⟩ }).bind fun _ =>
        (sendGraphChanges batches).bind fun _ =>
          .done (.inl { loop with
            roundStart := some deltaLink
            start := .link deltaLink
            reading := .round })
    else
      (batches.store { batch with
        removed := batch.removed ++ loop.unlisted
        state := some (completed (some deltaLink)) }).bind fun _ =>
          (sendGraphChanges batches).bind fun _ => .done (.inr (batches.finish none))

/-- One turn of the loop: read a page and store it, or turn to a full rereading. -/
def readPage (rules : ContentRules) (order : HashOrder) (recentLimit : ℤ) (batches : BatchWriter)
    (loop : GraphLoop) : GraphCycle (GraphLoop ⊕ LoadResult) :=
  (graphRequest (.readMessageChanges loop.start)).bind
    fun (answer : Except GraphError ChangePage) =>
    match answer with
    | .error error =>
      if loop.rereadsOn error then rereadFolder batches loop else .fail (.ofGraph error)
    | .ok page =>
      let changes := order.arrange loop.pages (mergePerMessage page.changes)
      -- Too many stored messages to read one by one: the whole folder is read instead.
      if (loop.counted changes).namesTooMany then rereadFolder batches (loop.counted changes)
      else
        let loop := (loop.counted changes).listed changes
        (batchFromChanges rules changes loop.reading recentLimit batches).bind fun batch =>
          storePage batches loop page.next batch

/-- The cycle of a Microsoft 365 folder, followed for at most `turns` turns of its loop. -/
def synchronizeGraphFolder (rules : ContentRules) (order : HashOrder) (turns : ℕ) (recentLimit : ℤ)
    (batches : BatchWriter) : GraphCycle LoadResult :=
  batches.readFolderSync.bind fun stored =>
    iterate (readPage rules order recentLimit batches) turns (.begin stored batches.folder.identity)

/-! ### A run page by page -/

variable {S : Server GraphRequest.Reply}

/-- One turn of the loop in a run: a page read, and mostly stored. -/
abbrev PageTurn (S : Server GraphRequest.Reply) : Type :=
  Turn GraphLoop (CycleOp GraphRequest) (CycleAns GraphRequest.Reply) (S.World × Tables)

/-- A run of the cycle, page by page: the folder is read, and then turn after turn a page. -/
structure Paged (rules : ContentRules) (order : HashOrder) (recentLimit : ℤ) (batches : BatchWriter)
    (s : S.World × Tables) (first : History S) (pages : List (PageTurn S))
    (r : Outcome CycleEnd LoadResult) (u : S.World × Tables) : Prop where
  /-- What was read of the folder, and the turns. -/
  turns : ∃ stored t, Run (surroundings S) (batches.readFolderSync : GraphCycle FolderSync) s first
    (.returned stored) t ∧
    Turns (surroundings S) (readPage rules order recentLimit batches)
      (.begin stored batches.folder.identity) t pages r u

variable {rules : ContentRules} {order : HashOrder} {recentLimit : ℤ} {batches : BatchWriter}
  {s u : S.World × Tables} {r : Outcome CycleEnd LoadResult}

/-- Every run of the cycle goes page by page, unless the folder was not read. -/
theorem paged_of_run {turns : ℕ} {tr : History S}
    (h : Run (surroundings S) (synchronizeGraphFolder rules order turns recentLimit batches)
      s tr r u) :
    (∃ first pages, Paged rules order recentLimit batches s first pages r u ∧
      tr = first ++ pages.flatMap Turn.events) ∨
      ∃ r' : Outcome CycleEnd FolderSync, r'.Stopped r ∧
        Run (surroundings S) (batches.readFolderSync : GraphCycle FolderSync) s tr r' u := by
  rcases h.of_bind with ⟨first, tr, stored, t, rfl, hread, hloop⟩ | hstopped
  · obtain ⟨pages, hpages, rfl⟩ := hloop.by_turns
    exact .inl ⟨first, pages, ⟨stored, t, hread, hpages⟩, rfl⟩
  · exact .inr hstopped

/-- What goes page by page is a run of the cycle. -/
theorem Paged.run {first : History S} {pages : List (PageTurn S)}
    (h : Paged rules order recentLimit batches s first pages r u) :
    ∃ turns, Run (surroundings S) (synchronizeGraphFolder rules order turns recentLimit batches) s
      (first ++ pages.flatMap Turn.events) r u := by
  obtain ⟨stored, t, hread, hturns⟩ := h.turns
  obtain ⟨turns, hrun⟩ := hturns.run
  exact ⟨turns, hread.bind hrun⟩

end Mailbag.Cycle
