import Mailbag.Cycle.Batches
import Mathlib.Logic.Function.Basic

/-!
# The one load that may be running, and how refreshes ended

An account keeps the outcome of its latest refresh, of a mailbox or of its folder list. One
load may be running; what cancels it is kept until it is cancelled. A load is known by the
number it was started with.

## What is proved

* `finishLoad_runningLoad` — the end of the running load frees its place.
* `finishLoad_outcomes` — it is recorded under what the load loaded, unless the load was
  cancelled.
* `discardExcluded_cancellation` — an exclusion takes what cancels the load.
-/

namespace Mailbag.Loads

open Cycle

/-- What a load reads. -/
inductive LoadTarget where
  /-- The account's folder list. -/
  | folderList
  /-- One cycle of a folder. -/
  | mailbox (folder : FolderRef)
  deriving DecidableEq

/-- What a load tells whoever started it. -/
inductive LoadEvent where
  /-- The load changed the stored mail. -/
  | storeChanged
  /-- The load is over. -/
  | finished (result : LoadResult)
  deriving DecidableEq

/-- How an account's latest refresh ended. -/
inductive RefreshOutcome where
  /-- The load's messages are stored; why some are missing. -/
  | stored (incomplete : Option IncompleteList)
  /-- The load failed. -/
  | failed (failure : Failure)
  deriving DecidableEq

/-- The load that runs. -/
structure RunningLoad where
  /-- Its account. -/
  accountId : AccountId
  /-- What it loads. -/
  target : LoadTarget
  /-- The load that dropping this cancels; none once it was cancelled. -/
  cancellation : Option ℕ
  deriving DecidableEq

/-- Each account's latest outcome with what it loaded, and the load that may be running. -/
structure Refreshes where
  /-- The outcomes. -/
  outcomes : AccountId → Option (LoadTarget × RefreshOutcome)
  /-- The running load. -/
  runningLoad : Option RunningLoad

namespace Refreshes

variable (r : Refreshes)

/-- While a load runs, both refresh actions stay unavailable. -/
def isLoading : Bool := r.runningLoad.isSome

/-- How an account's latest refresh ended, with what it loaded. -/
def outcomeOf (accountId : AccountId) : Option (LoadTarget × RefreshOutcome) := r.outcomes accountId

/-- What the running load of this account loads, if one runs. -/
def loadingTarget (accountId : AccountId) : Option LoadTarget :=
  (r.runningLoad.filter (·.accountId = accountId)).map (·.target)

/-- Keep what cancels the load just started. -/
def beginLoad (accountId : AccountId) (target : LoadTarget) (cancellation : ℕ) : Refreshes :=
  { r with runningLoad := some ⟨accountId, target, some cancellation⟩ }

/-- Record how the load ended, and leave loading. -/
def finishLoad (accountId : AccountId) (result : LoadResult) : Refreshes :=
  match r.runningLoad.filter (·.accountId = accountId) with
  | none => r
  | some running =>
    let freed := { r with runningLoad := none }
    let record (outcome : RefreshOutcome) : Refreshes :=
      if running.cancellation.isNone then freed
      else { freed with
          outcomes := Function.update r.outcomes accountId
            (some (running.target, outcome)) }
    match result with
    | .cancelled => freed
    | .stored incomplete => record (.stored incomplete)
    | .failed failure => record (.failed failure)

/-- Forget the outcomes of accounts no longer shown, and cancel a load running for one of
them: also the load to cancel. -/
def discardExcluded (isVisible : AccountId → Bool) : Refreshes × Option ℕ :=
  let outcomes := fun accountId => if isVisible accountId then r.outcomes accountId else none
  match r.runningLoad.filter fun running => !isVisible running.accountId with
  | none => (⟨outcomes, r.runningLoad⟩, none)
  | some running => (⟨outcomes, some { running with cancellation := none }⟩, running.cancellation)

/-- Quit: also the load to cancel. -/
def cancelLoad : Refreshes × Option ℕ :=
  (⟨r.outcomes, none⟩, r.runningLoad.bind (·.cancellation))

end Refreshes

/-- The outcome of a result; none of a load that was cancelled. -/
def RefreshOutcome.of : LoadResult → Option RefreshOutcome
  | .stored incomplete => some (.stored incomplete)
  | .failed failure => some (.failed failure)
  | .cancelled => none

namespace Refreshes

variable {r : Refreshes} {running : RunningLoad}

/-- The end of the running load frees its place. -/
theorem finishLoad_runningLoad (h : r.runningLoad = some running) (result : LoadResult) :
    (r.finishLoad running.accountId result).runningLoad = none := by
  unfold finishLoad
  simp only [h, Option.filter_some, decide_true, if_true]
  split
  · rfl
  · split <;> rfl
  · split <;> rfl

/-- The end of the running load is recorded under what it loaded, unless the load was cancelled. -/
theorem finishLoad_outcomes (h : r.runningLoad = some running) (result : LoadResult) :
    (r.finishLoad running.accountId result).outcomes =
      match running.cancellation, RefreshOutcome.of result with
      | some _, some outcome =>
        Function.update r.outcomes running.accountId (some (running.target, outcome))
      | _, _ => r.outcomes := by
  unfold finishLoad
  simp only [h, Option.filter_some, decide_true, if_true]
  cases hcancellation : running.cancellation with
  | none => cases result <;> rfl
  | some i => cases result <;> rfl

theorem finishLoad_none (h : r.runningLoad = none) (accountId : AccountId) (result : LoadResult) :
    r.finishLoad accountId result = r := by
  simp [finishLoad, h]

theorem discardExcluded_runningLoad (isVisible : AccountId → Bool) :
    (r.discardExcluded isVisible).1.runningLoad = r.runningLoad.map fun running =>
      if isVisible running.accountId then running else { running with cancellation := none } := by
  cases h : r.runningLoad with
  | none => simp [discardExcluded, h]
  | some running =>
    cases hvisible : isVisible running.accountId <;>
      simp [discardExcluded, h, hvisible, Option.filter]

/-- An exclusion takes what cancels the running load of an account that is not shown. -/
theorem discardExcluded_cancellation (isVisible : AccountId → Bool) :
    (r.discardExcluded isVisible).2 = r.runningLoad.bind fun running =>
      if isVisible running.accountId then none else running.cancellation := by
  cases h : r.runningLoad with
  | none => simp [discardExcluded, h]
  | some running =>
    cases hvisible : isVisible running.accountId <;>
      simp [discardExcluded, h, hvisible, Option.filter]

theorem discardExcluded_outcomes (isVisible : AccountId → Bool) (accountId : AccountId) :
    (r.discardExcluded isVisible).1.outcomes accountId = if isVisible accountId then r.outcomes
      accountId else none := by
  unfold discardExcluded
  dsimp only
  split <;> rfl

end Refreshes

end Mailbag.Loads
