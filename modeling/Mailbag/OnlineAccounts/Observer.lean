import Mailbag.Interaction.System

/-!
# The observer of the Online Accounts list

The observer reads the whole account list when it starts, when the bus signals a change and
when the user asks for a Retry. One read is in flight at a time; a request made meanwhile
sets a flag, and the read that ends starts the next one. The first read also connects to
the session bus and subscribes to the signals.

What GIO still has to answer is part of the state, and each call is answered once, also
after it was cancelled. The application code that an update is published to may ask for a
Retry or stop the observer. Publishing is the last thing each operation does, so what that
code asks is one of the steps that follow, and the steps come in any order.
-/

namespace Mailbag.OnlineAccounts

/-- One bus signal that means the account list may have changed. -/
structure AccountChangeSignal where
  /-- Who sends it. -/
  sender : String
  /-- Its interface. -/
  interface : String
  /-- Its name. -/
  member : String
  /-- The exact object path, when every such signal arrives on one path. -/
  path : Option String
  /-- The exact first argument. -/
  firstArgument : Option String
  /-- Only paths below this prefix count, when signals arrive on many paths. -/
  acceptedPathPrefix : Option String
  deriving DecidableEq

/-- The signals the observer subscribes to. -/
def accountChangeSignals : List AccountChangeSignal :=
  [⟨"org.freedesktop.DBus", "org.freedesktop.DBus", "NameOwnerChanged",
    some "/org/freedesktop/DBus",
      some "org.gnome.OnlineAccounts", none⟩,
    ⟨"org.gnome.OnlineAccounts", "org.freedesktop.DBus.ObjectManager", "InterfacesAdded",
      some "/org/gnome/OnlineAccounts", none, none⟩,
    ⟨"org.gnome.OnlineAccounts", "org.freedesktop.DBus.ObjectManager", "InterfacesRemoved",
      some "/org/gnome/OnlineAccounts", none, none⟩,
    ⟨"org.gnome.OnlineAccounts", "org.freedesktop.DBus.Properties", "PropertiesChanged", none, none,
      some "/org/gnome/OnlineAccounts/"⟩]

/-- Whether a signal from the object is about the account list. -/
def AccountChangeSignal.accepts (signal : AccountChangeSignal) (objectPath : String) : Bool :=
  match signal.acceptedPathPrefix with
  | none => true
  | some start => start.toList.isPrefixOf objectPath.toList

/-- The result of the last observation, whatever is in progress. -/
inductive AccountCheckResult (ε : Type) where
  /-- No read has ended. -/
  | notChecked
  /-- The list was read. -/
  | complete
  /-- The list could not be read. -/
  | failed (error : ε)
  deriving DecidableEq

/-- What the application is told. -/
structure AccountUpdate (α ε : Type) where
  /-- The accounts of the last complete read. -/
  accounts : α
  /-- How the last read ended. -/
  lastCheck : AccountCheckResult ε
  /-- An explicit Retry is running; automatic reads do not set this flag. -/
  retryPending : Bool
  deriving DecidableEq

/-- The observer's own state; a cancellable is known by a number. -/
structure AccountObserver (α ε : Type) where
  /-- The update as it stands. -/
  update : AccountUpdate α ε
  /-- Whether it is connected to the session bus. -/
  connection : Bool
  /-- The signals it is subscribed to. -/
  subscriptions : List AccountChangeSignal
  /-- The cancellable of the read in flight. -/
  readCancellable : Option ℕ
  /-- Whether another read follows the one in flight. -/
  refetchNeeded : Bool
  /-- Whether it was stopped. -/
  stopped : Bool
  deriving DecidableEq

/-- What GIO was asked to do. -/
inductive Operation where
  /-- `bus_get`. -/
  | connect
  /-- `GetManagedObjects`. -/
  | readAccounts
  deriving DecidableEq

/-- What happens around the observer. -/
inductive Event (α ε : Type) where
  /-- A signal or a Retry is received. -/
  | requested
  /-- A read starts. -/
  | started (read : ℕ)
  /-- An update is published: of a read that ended, or of none. -/
  | published (read : Option ℕ) (update : AccountUpdate α ε)
  /-- The observer is stopped. -/
  | stopped
  deriving DecidableEq

/-- The observer, what GIO still has to answer, and what happened, newest first. -/
structure World (α ε : Type) extends AccountObserver α ε where
  /-- How many cancellables were made. -/
  cancellables : ℕ
  /-- The calls GIO still has to answer, by their cancellables. -/
  outstanding : List (ℕ × Operation)
  /-- What happened. -/
  log : List (Event α ε)
  deriving DecidableEq

namespace World

variable {α ε : Type} (w : World α ε)

/-- `connect_to_bus`. -/
def connectToBus (cancellable : ℕ) : World α ε :=
  { w with outstanding := (cancellable, .connect) :: w.outstanding }

/-- `read_accounts`. -/
def readAccounts (cancellable : ℕ) : World α ε :=
  { w with outstanding := (cancellable, .readAccounts) :: w.outstanding }

/-- `request_read`. -/
def requestRead : World α ε :=
  if w.stopped then w
  else if w.readCancellable.isSome then { w with refetchNeeded := true }
  else
    let cancellable := w.cancellables
    let reading : World α ε :=
      { w with
        cancellables := cancellable + 1
        readCancellable := some cancellable
        log := .started cancellable :: w.log }
    if w.connection then reading.readAccounts cancellable else reading.connectToBus cancellable

/-- `publish_update`, of a read that ended or of none. -/
def publishUpdate (read : Option ℕ) : World α ε :=
  { w with log := .published read w.update :: w.log }

/-- A request is received: one read is asked for. -/
def receive : World α ε := { w with log := .requested :: w.log }.requestRead

/-- `refresh_accounts`, an explicit Retry. -/
def refreshAccounts : World α ε :=
  if w.stopped then w
  else
    let asked := { w with update := { w.update with retryPending := true } }.receive
    if w.update.retryPending then asked else asked.publishUpdate none

/-- A signal arrives from an object. -/
def signalled (signal : AccountChangeSignal) (objectPath : String) : World α ε :=
  if signal.accepts objectPath then w.receive else w

/-- The update after a read that ended. -/
def updated (result : Except ε α) : AccountUpdate α ε :=
  let update := match result with
    | .ok accounts => { w.update with accounts := accounts, lastCheck := .complete }
    | .error error => { w.update with lastCheck := .failed error }
  if w.refetchNeeded then update else { update with retryPending := false }

/-- `finish_read`. -/
def finishRead (result : Except ε α) : World α ε :=
  let settled := { w with
      readCancellable := none
      update := w.updated result
      refetchNeeded := false }
  -- Scheduling is settled before application code is called.
  (if w.refetchNeeded then settled.requestRead else settled).publishUpdate w.readCancellable

/-- `subscribe_to_changes`. -/
def subscribeToChanges : World α ε :=
  { w with subscriptions := w.subscriptions ++ accountChangeSignals }

/-- The bus answers `connect_to_bus`; nothing where the code would panic. -/
def connected (result : Except ε Unit) : Option (World α ε) :=
  if w.stopped then some w
  else match result with
  | .ok () =>
    let subscribed := { w.subscribeToChanges with connection := true }
    w.readCancellable.map subscribed.readAccounts
  | .error error => some (w.finishRead (.error error))

/-- Online Accounts answers `read_accounts`. -/
def accountsRead (result : Except ε α) : World α ε := if w.stopped then w else w.finishRead result

/-- `stop`. The call in flight is cancelled, and GIO still answers it. -/
def stop : World α ε :=
  { w with
    stopped := true
    readCancellable := none
    subscriptions := []
    connection := false
    log := .stopped :: w.log }

/-- GIO is done with a call. -/
def answered (call : ℕ × Operation) : World α ε :=
  { w with outstanding := w.outstanding.erase call }

/-- `GoaAdapter::start`, with the accounts of an update that has seen none. -/
def start (noAccounts : α) : World α ε :=
  requestRead
    { update := ⟨noAccounts, .notChecked, false⟩
      connection := false
      subscriptions := []
      readCancellable := none
      refetchNeeded := false
      stopped := false
      cancellables := 0
      outstanding := []
      log := [] }

/-- One step: a signal, a call of the application, or an answer. -/
inductive Step : World α ε → World α ε → Prop
  /-- A signal the observer is subscribed to. -/
  | signal {w : World α ε} {signal : AccountChangeSignal} {objectPath : String}
      (h : signal ∈ w.subscriptions) : Step w (w.signalled signal objectPath)
  /-- A Retry. -/
  | refresh {w : World α ε} : Step w w.refreshAccounts
  /-- The end. -/
  | stop {w : World α ε} : Step w w.stop
  /-- The session bus answers. -/
  | connected {w w' : World α ε} {c : ℕ} {r : Except ε Unit} (h : (c, .connect) ∈ w.outstanding)
    (h' : (w.answered (c, .connect)).connected r = some w') : Step w w'
  /-- Online Accounts answers. -/
  | accountsRead {w : World α ε} {c : ℕ} {r : Except ε α} (h : (c, .readAccounts) ∈ w.outstanding) :
    Step w ((w.answered (c, .readAccounts)).accountsRead r)

end World

end Mailbag.OnlineAccounts
