import Mailbag.Loads.Refreshes
import Mailbag.OnlineAccounts.AccountList

/-!
# Loads, from the window through the mail worker

A load is started by the window, which asks Online Accounts for access first. With the
access the load goes into the queue of the mail worker, a thread that runs one load at a
time; what it tells comes back through a channel of its own, and a task on the window's
thread passes that on until the end, or reports an end of its own when the channel was
closed without one.

A channel is closed when its sender or its receiver is dropped. What was put into it stays
in it, also when only its receiver is gone, until both ends are.

The parties act in any order, each in steps that no other party divides: the window's
thread, the worker's threads, Online Accounts and the pool. The store's lock orders what
they ask of it. An access request that is cancelled before its answer completes as
cancelled.
-/

namespace Mailbag.Loads

open Cycle OnlineAccounts Store

/-- A load's event channel: what was sent and not received, and whether its sender is dropped. -/
structure Channel where
  /-- The events, oldest first. -/
  events : List LoadEvent
  /-- The sender is dropped. -/
  isClosed : Bool
  deriving DecidableEq

/-- One load. -/
structure Load where
  /-- Its account. -/
  account : AccountId
  /-- What it loads. -/
  target : LoadTarget
  /-- Whether what cancels it was dropped: its access request, and its handle at the worker. -/
  cancelled : Bool
  /-- Its event channel, once Online Accounts gave the access. -/
  channel : Option Channel
  /-- What its caller was told, newest first. -/
  told : List LoadEvent
  deriving DecidableEq

/-- A thread of the mail worker. -/
structure Thread where
  /-- The requests in its queue. -/
  queue : List ℕ
  /-- The load it runs. -/
  running : Option ℕ
  /-- A panic outside a load ends it: it takes nothing more from its queue. -/
  stopping : Bool
  /-- Its queue is closed: the receiver is dropped. -/
  isClosed : Bool
  deriving DecidableEq

/-- A thread that has just started. -/
def Thread.new : Thread := ⟨[], none, false, false⟩

/-- The window, its loads, the mail worker's threads, the pool and the store. -/
structure World where
  /-- The accounts with a row. -/
  visible : List AccountId
  /-- The running load, and how refreshes ended. -/
  refreshes : Refreshes
  /-- The window was closed. -/
  quit : Bool
  /-- The loads, by the number they were started with. -/
  loads : ℕ → Load
  /-- How many loads were started. -/
  started : ℕ
  /-- The worker's threads. -/
  threads : ℕ → Thread
  /-- How many threads were started. -/
  spawned : ℕ
  /-- The thread whose queue the worker's handle sends to. -/
  worker : Option ℕ
  /-- The deletions that wait on the pool, by the accounts they keep. -/
  deletions : List (List AccountId)
  /-- The stored mail. -/
  tables : Tables

/-- The caller was told of the end. -/
def Load.ended (load : Load) : Bool :=
  match load.told with
  | .finished _ :: _ => true
  | _ => false

/-- The request is gone, and with it the sender of its events. -/
def Load.dropRequest (load : Load) : Load :=
  { load with channel := load.channel.map fun channel => { channel with isClosed := true } }

/-- The load tells something. -/
def Load.send (event : LoadEvent) (load : Load) : Load :=
  { load with channel := load.channel.map fun channel =>
    { channel with events := channel.events ++ [event] } }

/-- What a load may ask the store: a folder list's load replaces the list, and a mailbox's
load runs a cycle of its folder. -/
def Load.asks (load : Load) : StoreCall → Prop
  | .replaceFolders account _ => load.target = .folderList ∧ account = load.account
  | .readFolderSync folder => load.target = .mailbox folder
  | .identitiesInOtherFolders folder _ => load.target = .mailbox folder
  | .readPendingChanges folder => load.target = .mailbox folder
  | .storeBatch folder _ => load.target = .mailbox folder
  | .storedIdentities account _ => load.target ≠ .folderList ∧ account = load.account
  | .settleFlags account .. => load.target ≠ .folderList ∧ account = load.account
  | .dropPendingFlags account .. => load.target ≠ .folderList ∧ account = load.account
  | .writePendingFlag .. => False
  | .readFolderRows .. => False
  | .deleteOtherAccounts .. => False

/-- Whether the window is told of a call: of a batch that was stored and of a dropped change. -/
def tells : (call : StoreCall) → Except Failure call.Result → Bool
  | .storeBatch .., .ok .stored => true
  | .dropPendingFlags .., .ok () => true
  | _, _ => false

namespace World

variable (w : World)

/-- The world with one load changed. -/
def modifyLoad (i : ℕ) (f : Load → Load) : World :=
  { w with loads := Function.update w.loads i (f (w.loads i)) }

/-- The world with one thread changed. -/
def modifyThread (t : ℕ) (f : Thread → Thread) : World :=
  { w with threads := Function.update w.threads t (f (w.threads t)) }

/-- What cancels a load is dropped. -/
def dropCancellation : Option ℕ → World
  | none => w
  | some i => w.modifyLoad i fun load => { load with cancelled := true }

/-! ### The window's thread -/

/-- `on_event` of a load. -/
def onEvent (i : ℕ) (event : LoadEvent) : World :=
  let told := w.modifyLoad i fun load => { load with told := event :: load.told }
  match event with
  | .storeChanged => told
  | .finished result => { told with refreshes := w.refreshes.finishLoad (w.loads i).account result }

/-- The window starts a load, unless one runs. -/
def startLoad (account : AccountId) (target : LoadTarget) : World :=
  if w.refreshes.isLoading then w
  else
    { w with
      loads := Function.update w.loads w.started ⟨account, target, false, none, []⟩
      started := w.started + 1
      refreshes := w.refreshes.beginLoad account target w.started }

/-- The queue of a thread is dropped, and the requests in it. -/
def dropQueue (t : ℕ) : World :=
  { w with
    loads := fun i => if i ∈ (w.threads t).queue then (w.loads i).dropRequest else w.loads i
    threads := Function.update w.threads t { w.threads t with queue := [] } }

/-- A new thread; the handle lets go of the queue it had. -/
def spawn : World :=
  let released := match w.worker with
    | some t => w.dropQueue t
    | none => w
  { released.modifyThread w.spawned fun _ => .new with
      spawned := w.spawned + 1
      worker := some w.spawned }

/-- `MailWorker::queue`: the running thread's queue, or that of a new thread. -/
def queue : ℕ × World :=
  match w.worker with
  | some t => if (w.threads t).isClosed then (w.spawned, w.spawn) else (t, w)
  | none => (w.spawned, w.spawn)

/-- `MailWorker::start_load`: the request is in the queue. -/
def workerStartLoad (i : ℕ) : World :=
  let (t, w) := w.queue
  (w.modifyLoad i fun load => { load with channel := some ⟨[], false⟩ }).modifyThread t
    fun thread =>
    { thread with queue := thread.queue ++ [i] }

/-- `MailWorker::start_load`, when the thread drops its queue before the request is sent. -/
def workerRefusesLoad (i t : ℕ) : World :=
  (w.modifyLoad i fun load => { load with channel := some ⟨[], true⟩ }).modifyThread t fun thread =>
    { thread with isClosed := true }

/-- An account update. -/
def applyAccountUpdate (update : AccountUpdate Accounts AccountCheckError) : World :=
  let visible := applyUpdate w.visible update
  let (refreshes, cancellation) := w.refreshes.discardExcluded fun id => decide (id ∈ visible)
  let w := { w with visible := visible, refreshes := refreshes }.dropCancellation cancellation
  match update.lastCheck with
  | .complete => { w with deletions := w.deletions ++ [update.accounts.withMail] }
  | _ => w

/-- Quit: a running load is cancelled. -/
def cancelLoads : World :=
  let (refreshes, cancellation) := w.refreshes.cancelLoad
  { w with refreshes := refreshes, quit := true }.dropCancellation cancellation

/-! ### The worker's threads -/

/-- The running load is over: its request is dropped. -/
def dropRunning (t i : ℕ) : World :=
  (w.modifyLoad i Load.dropRequest).modifyThread t fun thread => { thread with running := none }

/-- The load asks the store, and tells the window of a change. -/
def askStore (i : ℕ) (call : StoreCall) (fault : Option StoreError) : World :=
  let (result, tables) := Store.call w.tables call ⟨(w.loads i).cancelled, fault⟩
  let w := { w with tables := tables }
  if tells call result then w.modifyLoad i (Load.send .storeChanged) else w

end World

variable (fromPanic : Option String → Failure)

/-- One step of one party. `fromPanic` is the failure of a load that a panic stopped. -/
inductive Step : World → World → Prop
  /-- The user refreshes a mailbox. -/
  | refreshMailbox {w : World} (folder : FolderRef) (h : folder.account ∈ w.visible)
      (hquit : w.quit = false) : Step w (w.startLoad folder.account (.mailbox folder))
  /-- The user refreshes an account. -/
  | refreshAccount {w : World} (account : AccountId) (h : account ∈ w.visible)
      (hquit : w.quit = false) : Step w (w.startLoad account .folderList)
  /-- An account update. -/
  | update {w : World} (update : AccountUpdate Accounts AccountCheckError) :
      Step w (w.applyAccountUpdate update)
  /-- The window closes. -/
  | quit {w : World} : Step w w.cancelLoads
  /-- Online Accounts gives the access, and the worker's queue takes the request. -/
  | accessGiven {w : World} {i : ℕ} (hi : i < w.started) (h : (w.loads i).channel = none)
      (htold : (w.loads i).told = []) (hcancelled : (w.loads i).cancelled = false) :
      Step w (w.workerStartLoad i)
  /-- Online Accounts gives the access, and the worker's thread drops its queue first. -/
  | accessRefused {w : World} {i t : ℕ} (hi : i < w.started) (h : (w.loads i).channel = none)
      (htold : (w.loads i).told = []) (hcancelled : (w.loads i).cancelled = false)
      (hworker : w.worker = some t) (hopen : (w.threads t).isClosed = false)
      (hstopping : (w.threads t).stopping = true) : Step w (w.workerRefusesLoad i t)
  /-- Online Accounts does not give the access. -/
  | accessFailed {w : World} {i : ℕ} (hi : i < w.started) (h : (w.loads i).channel = none)
      (htold : (w.loads i).told = []) (hcancelled : (w.loads i).cancelled = false)
      (failure : Failure) : Step w (w.onEvent i (.finished (.failed failure)))
  /-- The access request was cancelled. -/
  | accessCancelled {w : World} {i : ℕ} (hi : i < w.started) (h : (w.loads i).channel = none)
    (htold : (w.loads i).told = []) (hcancelled : (w.loads i).cancelled = true) :
    Step w (w.onEvent i (.finished .cancelled))
  /-- The window's task receives an event and passes it on. -/
  | report {w : World} {i : ℕ} {event : LoadEvent} {rest : List LoadEvent} {closed : Bool}
      (hi : i < w.started) (hended : (w.loads i).ended = false)
      (h : (w.loads i).channel = some ⟨event :: rest, closed⟩) :
      Step w ((w.modifyLoad i fun load => { load with channel := some ⟨rest, closed⟩ }).onEvent i
        event)
  /-- The window's task finds the channel closed without an end. -/
  | reportStopped {w : World} {i : ℕ} (hi : i < w.started) (hended : (w.loads i).ended = false)
      (h : (w.loads i).channel = some ⟨[], true⟩) :
      Step w (w.onEvent i (.finished (.failed (fromPanic none))))
  /-- A thread takes the next request. -/
  | take {w : World} {t i : ℕ} {rest : List ℕ} (hrunning : (w.threads t).running = none)
    (hstopping : (w.threads t).stopping = false) (h : (w.threads t).queue = i :: rest) :
    Step w (w.modifyThread t fun thread => { thread with queue := rest, running := some i })
  /-- The load asks the store. -/
  | askStore {w : World} {t i : ℕ} (h : (w.threads t).running = some i) {call : StoreCall}
      (hcall : (w.loads i).asks call) (fault : Option StoreError) : Step w (w.askStore i call fault)
  /-- The load ends with a result, its own, that of a panic in it, or that of its cancellation. -/
  | finish {w : World} {t i : ℕ} (h : (w.threads t).running = some i) (result : LoadResult)
    (hcancelled : result = .cancelled → (w.loads i).cancelled = true) :
    Step w ((w.modifyLoad i (Load.send (.finished result))).dropRunning t i)
  /-- A panic outside a load ends the thread while it runs one. -/
  | unwindRunning {w : World} {t i : ℕ} (h : (w.threads t).running = some i) :
    Step w ((w.dropRunning t i).modifyThread t fun thread => { thread with stopping := true })
  /-- A panic outside a load ends the thread between loads. -/
  | unwindIdle {w : World} {t : ℕ} (ht : t < w.spawned) (h : (w.threads t).running = none) :
    Step w (w.modifyThread t fun thread => { thread with stopping := true })
  /-- The ending thread drops its queue's receiver. -/
  | close {w : World} {t : ℕ} (h : (w.threads t).stopping = true) :
    Step w (w.modifyThread t fun thread => { thread with isClosed := true })
  /-- The pool deletes the stored mail of every account not kept. -/
  | delete {w : World} {kept : List AccountId} (h : kept ∈ w.deletions)
      (fault : Option StoreError) :
    Step w { w with
      deletions := w.deletions.erase kept
      tables := (call w.tables (.deleteOtherAccounts kept) ⟨false, fault⟩).2 }
  /-- The pool writes a flag the user wants. -/
  | writeFlag {w : World} (account : AccountId) (identity : String) (flag : MessageFlag)
      (wanted : Bool) (fault : Option StoreError) :
      Step w { w with tables := (call w.tables (.writePendingFlag account identity flag wanted)
        ⟨false, fault⟩).2 }

/-- The window at its start, with the stored mail it finds and no load; `unused` stands for a load
not started. -/
def World.start (unused : Load) (tables : Tables) : World :=
  { visible := [], refreshes := ⟨fun _ => none, none⟩, quit := false, loads := fun _ =>
    unused, started := 0,
    threads := fun _ => .new, spawned := 0, worker := none, deletions := [], tables := tables }

end Mailbag.Loads
