import Mailbag.Loads.Progress

/-!
# A load ends exactly once

Whatever the order of its progress, its cancellation, panics and stopping threads, the
caller of a load is told of changes and then of one end. That end frees the window's place
for a running load, and is recorded under what the load loaded, unless the load was
cancelled.

Closing the window cancels the running load and frees the place as well; the end of that
load still comes, and is not recorded.

## What is proved

* `Honest.step` — a load ends as cancelled only when it was cancelled.
* `ends_of_step` — what one step does to the window's place and its outcomes.
* `loads_end_once` — all of it, in every behaviour.
-/

namespace Mailbag.Loads

open Cycle Interaction OnlineAccounts Relation Store

/-- A load ends as cancelled only when it was cancelled. -/
def Load.Honest (load : Load) : Prop :=
  ∀ channel, load.channel = some channel → .finished .cancelled ∈ channel.events →
    load.cancelled = true

/-- A request is dropped: what was sent stays in the channel. -/
theorem Load.Honest.dropRequest {load : Load} (h : load.Honest) : load.dropRequest.Honest := by
  intro channel hchannel hmem
  obtain ⟨channel', hchannel', rfl⟩ := Option.map_eq_some_iff.mp hchannel
  exact h channel' hchannel' hmem

/-- A load tells something, and of its cancellation only when it was cancelled. -/
theorem Load.Honest.send {load : Load} (h : load.Honest) {event : LoadEvent}
    (hevent : event = .finished .cancelled → load.cancelled = true) : (load.send event).Honest := by
  intro channel hchannel hmem
  obtain ⟨channel', hchannel', rfl⟩ := Option.map_eq_some_iff.mp hchannel
  rcases List.mem_append.mp hmem with hmem | hmem
  · exact h channel' hchannel' hmem
  · exact hevent (List.mem_singleton.mp hmem).symm

/-- What the caller of a load was told, newest first: of changes, and then at most of one end. -/
def Load.TellsOneEnd (load : Load) : Prop :=
  Changes load.told ∨ ∃ result told, load.told = .finished result :: told ∧ Changes told

theorem Phase.tellsOneEnd {load : Load} {held : Prop} (h : Phase load held) : load.TellsOneEnd := by
  have hnone : Changes [] := fun _ hmem => by cases hmem
  cases h with
  | access _ htold => exact .inl (htold ▸ hnone)
  | denied result _ htold => exact .inr ⟨result, [], htold, hnone⟩
  | held _ _ _ htold | waiting _ _ htold => exact .inl htold
  | ended result told _ htold hchanges => exact .inr ⟨result, told, htold, hchanges⟩

namespace World

variable {w w' : World} {fromPanic : Option String → Failure}

/-! ### Cancelled loads -/

/-- Every load ends as cancelled only when it was cancelled. -/
def Honest (w : World) : Prop := ∀ i < w.started, (w.loads i).Honest

theorem Honest.modifyLoad (h : Honest w) {i : ℕ} {f : Load → Load}
    (hf : i < w.started → (f (w.loads i)).Honest) : Honest (w.modifyLoad i f) := by
  intro j hj
  by_cases hji : j = i
  · rw [hji, modifyLoad_self]
    exact hf (hji ▸ hj)
  · rw [modifyLoad_other w hji]
    exact h j hj

theorem Honest.dropCancellation (h : Honest w) (cancellation : Option ℕ) :
    Honest (w.dropCancellation cancellation) := by
  cases cancellation with
  | none => exact h
  | some i =>
    show Honest (w.modifyLoad i fun load => { load with cancelled := true })
    exact h.modifyLoad fun _ _ _ _ => rfl

theorem Honest.onEvent (h : Honest w) (i : ℕ) (event : LoadEvent) : Honest (w.onEvent i event) := by
  have htold : Honest (w.modifyLoad i fun load => { load with told := event :: load.told }) :=
    h.modifyLoad (h i)
  cases event <;> exact htold

theorem Honest.spawn (h : Honest w) : Honest w.spawn := by
  unfold World.spawn
  cases w.worker with
  | none => exact h
  | some t =>
    intro i hi
    show (if i ∈ (w.threads t).queue then (w.loads i).dropRequest else w.loads i).Honest
    split
    · exact (h i hi).dropRequest
    · exact h i hi

theorem Honest.queue (h : Honest w) : Honest w.queue.2 := by
  unfold World.queue
  split
  · split
    · exact h.spawn
    · exact h
  · exact h.spawn

/-- **A load ends as cancelled only when it was cancelled**, after every step. -/
theorem Honest.step (h : Honest w) (hstep : Step fromPanic w w') : Honest w' := by
  cases hstep with
  | refreshMailbox | refreshAccount =>
    rw [World.startLoad]
    split
    · exact h
    · intro i hi
      by_cases his : i = w.started
      · subst his
        simp [Load.Honest]
      · simp only [Function.update_of_ne his]
        exact h i (lt_of_le_of_ne (Nat.le_of_lt_succ hi) his)
  | update update =>
    have hshown : Honest { w with
        visible := applyUpdate w.visible update
        refreshes := (w.refreshes.discardExcluded fun id =>
          decide (id ∈ applyUpdate w.visible update)).1 } := h
    have hdropped := hshown.dropCancellation
      (w.refreshes.discardExcluded fun id => decide (id ∈ applyUpdate w.visible update)).2
    unfold World.applyAccountUpdate
    dsimp only
    split <;> exact hdropped
  | quit =>
    have hquit : Honest { w with refreshes := w.refreshes.cancelLoad.1, quit := true } := h
    exact hquit.dropCancellation _
  | @accessGiven i =>
    have hload : Honest (w.queue.2.modifyLoad i fun load =>
        { load with channel := some ⟨[], false⟩ }) :=
      h.queue.modifyLoad fun _ channel hchannel hmem => by cases hchannel; cases hmem
    exact hload
  | @accessRefused i t =>
    have hload : Honest (w.modifyLoad i fun load => { load with channel := some ⟨[], true⟩ }) :=
      h.modifyLoad fun _ channel hchannel hmem => by cases hchannel; cases hmem
    exact hload
  | accessFailed | accessCancelled | reportStopped => exact h.onEvent _ _
  | @report i event rest closed hi _ hevents =>
    refine Honest.onEvent (h.modifyLoad fun _ channel hchannel hmem => ?_) _ _
    cases hchannel
    exact h i hi _ hevents (List.mem_cons_of_mem _ hmem)
  | take | unwindIdle | close | delete | writeFlag => exact h
  | @askStore t i hrunning call hcall fault =>
    have htables : Honest { w with
        tables := (Store.call w.tables call ⟨(w.loads i).cancelled, fault⟩).2 } := h
    unfold World.askStore
    dsimp only
    split
    · exact htables.modifyLoad fun hi => (h i hi).send fun hevent => by cases hevent
    · exact htables
  | @finish t i hrunning result hcancelled =>
    have hsent : Honest (w.modifyLoad i (Load.send (.finished result))) :=
      h.modifyLoad fun hi => (h i hi).send fun hevent => hcancelled (LoadEvent.finished.inj hevent)
    have hdropped : Honest ((w.modifyLoad i (Load.send (.finished result))).modifyLoad i
        Load.dropRequest) :=
      hsent.modifyLoad fun hi => (hsent i hi).dropRequest
    exact hdropped
  | @unwindRunning t i hrunning =>
    have hdropped : Honest (w.modifyLoad i Load.dropRequest) :=
      h.modifyLoad fun hi => (h i hi).dropRequest
    exact hdropped

/-! ### The place and the outcomes -/

/-- A step tells the caller of a load of its end. -/
structure EndOf (w w' : World) (i : ℕ) (result : LoadResult) : Prop where
  /-- The load had not ended. -/
  running : i < w.started ∧ (w.loads i).ended = false
  /-- Its caller is told. -/
  told : (w'.loads i).told = .finished result :: (w.loads i).told
  /-- The place is free. -/
  freed : w'.refreshes.runningLoad = none
  /-- The outcome is recorded under what the load loaded. -/
  recorded : (w.loads i).cancelled = false → ∃ outcome, RefreshOutcome.of result = some outcome ∧
    w'.refreshes.outcomes =
    Function.update w.refreshes.outcomes (w.loads i).account (some ((w.loads i).target, outcome))
  /-- Nothing is recorded for a cancelled load. -/
  ignored : (w.loads i).cancelled = true → w'.refreshes.outcomes = w.refreshes.outcomes

/-- A step tells nobody of an end. -/
structure NoEnd (w w' : World) : Prop where
  /-- Every caller is told of nothing, or of a change. -/
  told : ∀ i < w.started, (w'.loads i).told = (w.loads i).told ∨
    (w'.loads i).told = .storeChanged :: (w.loads i).told
  /-- The place stays taken, unless the window closes. -/
  place : w.refreshes.runningLoad ≠ none → w'.refreshes.runningLoad = none → w' = w.cancelLoads
  /-- Outcomes are forgotten only. -/
  outcomes : ∀ account, w'.refreshes.outcomes account = w.refreshes.outcomes account ∨
    w'.refreshes.outcomes account = none

/-- The end of a load, told by the step. -/
theorem Slot.endOf (h : Slot w) (hhonest : Honest w) {between : World} {i : ℕ} {result : LoadResult}
    (hquiet : Quiet w between) (hi : i < w.started) (hended : (w.loads i).ended = false)
    (hresult : result = .cancelled → (w.loads i).cancelled = true ∨ ∃ channel, (w.loads i).channel =
      some channel ∧ .finished result ∈ channel.events) :
    EndOf w (between.onEvent i (.finished result)) i result := by
  obtain ⟨haccount, htarget, hcancelled, htold⟩ := hquiet.loads i
  have hbetween := h.quiet hquiet
  have hi' : i < between.started := hquiet.started.symm ▸ hi
  have hended' : (between.loads i).ended = false := (hquiet.ended i).trans hended
  have hresult' : (w.loads i).cancelled = false →
      ∃ outcome, RefreshOutcome.of result = some outcome := by
    intro hnot
    cases result with
    | stored incomplete => exact ⟨_, rfl⟩
    | failed failure => exact ⟨_, rfl⟩
    | cancelled =>
      rcases hresult rfl with hcancelled' | ⟨channel, hchannel, hmem⟩
      · exact absurd (hnot.symm.trans hcancelled') Bool.false_ne_true
      · exact absurd (hnot.symm.trans (hhonest i hi channel hchannel hmem)) Bool.false_ne_true
  have houtcomes : (between.onEvent i (.finished result)).refreshes = w.refreshes.finishLoad
      (w.loads i).account result := by
    rw [← haccount, ← hquiet.refreshes]
    rfl
  refine ⟨⟨hi, hended⟩, ?_, hbetween.freed hi' hended' result, fun hnot => ?_,
    fun hcancelled' => ?_⟩
  · rw [onEvent_loads, Function.update_self, htold]
  · obtain ⟨outcome, houtcome⟩ := hresult' hnot
    refine ⟨outcome, houtcome, ?_⟩
    have hslot := (h.last i hi hended).2.resolve_left fun hquit => Bool.false_ne_true
      (hnot.symm.trans hquit.2)
    rw [houtcomes, Refreshes.finishLoad_outcomes hslot]
    simp [hnot, houtcome]
  · rw [houtcomes]
    rcases (h.last i hi hended).2 with ⟨hquit, -⟩ | hslot
    · rw [Refreshes.finishLoad_none (h.quitting hquit)]
    · rw [Refreshes.finishLoad_outcomes hslot]
      simp [hcancelled']

/-- **What one step does to the window's place and its outcomes.** -/
theorem ends_of_step (h : Slot w) (hhonest : Honest w) (hstep : Step fromPanic w w') :
    (∃ i result, EndOf w w' i result) ∨ NoEnd w w' := by
  cases effect_of_step hstep with
  | quiet hquiet =>
    refine .inr ⟨fun i _ => .inl (hquiet.loads i).2.2.2, fun hsome hnone => ?_, fun account =>
      .inl (by rw [hquiet.refreshes])⟩
    exact absurd (hquiet.refreshes ▸ hnone) hsome
  | start account target _ _ heq =>
    rw [heq, World.startLoad]
    split
    · exact .inr ⟨fun i _ => .inl rfl, fun hsome hnone => absurd hnone hsome, fun _ => .inl rfl⟩
    · refine .inr ⟨fun i hi =>
        .inl (congrArg Load.told (Function.update_of_ne (Nat.ne_of_lt hi) ..)), fun _ hnone => ?_,
        fun _ => .inl rfl⟩
      cases hnone
  | update update heq =>
    rw [heq]
    have hrefreshes : (w.applyAccountUpdate update).refreshes =
        (w.refreshes.discardExcluded fun id => decide (id ∈ applyUpdate w.visible update)).1 := by
      unfold World.applyAccountUpdate
      dsimp only
      split <;> exact dropCancellation_refreshes _ _
    refine .inr ⟨fun i _ => .inl (applyAccountUpdate_loads w update i).2, fun hsome hnone => ?_,
      fun account => ?_⟩
    · rw [hrefreshes, Refreshes.discardExcluded_runningLoad, Option.map_eq_none_iff] at hnone
      exact absurd hnone hsome
    · rw [hrefreshes, Refreshes.discardExcluded_outcomes]
      split
      · exact .inl rfl
      · exact .inr rfl
  | quit heq =>
    rw [heq]
    refine .inr ⟨fun i _ => .inl (told_cancelLoads w i), fun _ _ => rfl, fun account => .inl ?_⟩
    exact congrArg (·.outcomes account)
      (dropCancellation_refreshes { w with refreshes := w.refreshes.cancelLoad.1, quit := true } _)
  | told between i event hquiet hi hended hevent heq =>
    rw [heq]
    cases event with
    | finished result =>
      exact .inl ⟨i, result, h.endOf hhonest hquiet hi hended fun hresult =>
        hevent (by rw [hresult])⟩
    | storeChanged =>
      refine .inr ⟨fun j _ => ?_, fun hsome hnone => ?_, fun account =>
        .inl (congrArg (·.outcomes account) hquiet.refreshes)⟩
      · rw [onEvent_loads]
        by_cases hji : j = i
        · subst hji
          rw [Function.update_self, (hquiet.loads j).2.2.2]
          exact .inr rfl
        · rw [Function.update_of_ne hji]
          exact .inl (hquiet.loads j).2.2.2
      · exact absurd ((congrArg Refreshes.runningLoad hquiet.refreshes).symm.trans hnone) hsome

/-! ### Behaviours -/

variable {unused : Load} {tables : Tables}
  {b : Behaviour (Step fromPanic) (World.start unused tables)}

theorem slot_start (unused : Load) (tables : Tables) : Slot (World.start unused tables) where
  last i hi := absurd hi (Nat.not_lt_zero i)
  running hrunning := absurd rfl hrunning
  quitting _ := rfl

/-- The place belongs to the load that has not ended, in every state reached. -/
theorem slot_reached (h : ReflTransGen (Step fromPanic) (World.start unused tables) w) : Slot w :=
  invariant (slot_start unused tables) (fun _ _ => Slot.step) h

/-- A load ends as cancelled only when it was cancelled, in every state reached. -/
theorem honest_reached (h : ReflTransGen (Step fromPanic) (World.start unused tables) w) :
    Honest w :=
  invariant (I := Honest) (fun i hi => absurd hi (Nat.not_lt_zero i)) (fun _ _ => Honest.step) h

theorem told_of_ended {n m : ℕ} (hm : n ≤ m) {i : ℕ} (hi : i < (b.state n).started)
    (hended : ((b.state n).loads i).ended = true) :
    ((b.state m).loads i).told = ((b.state n).loads i).told := by
  refine (invariant (I := fun w => i < w.started ∧ (w.loads i).told = ((b.state n).loads i).told)
    ⟨hi, rfl⟩ ?_
    (b.reaches hm)).2
  rintro w w' ⟨hi, htold⟩ hstep
  obtain ⟨hstarted, hload⟩ := told_of_step hstep
  refine ⟨hi.trans_le hstarted, ?_⟩
  rcases hload i hi with hsame | ⟨hnot, -⟩
  · exact hsame.trans htold
  · rw [Load.ended, htold, ← Load.ended, hended] at hnot
    cases hnot

/-- **A load ends exactly once.** Its caller is told of changes and at most one end, and of nothing
after it; the end comes, unless the request is left for good in the queue of a thread that takes
nothing more. Every step tells of one load's end, which frees the place and is recorded unless the
load was cancelled, or it tells of no end: then only closing the window frees the place, and nothing
is recorded. -/
theorem loads_end_once (hfair : Fair b) :
    (∀ n, ∀ i < (b.state n).started, ((b.state n).loads i).TellsOneEnd) ∧
    (∀ n, ∀ m ≥ n, ∀ i < (b.state n).started, ((b.state n).loads i).ended = true →
      ((b.state m).loads i).told = ((b.state n).loads i).told) ∧
    (∀ n, ∀ i < (b.state n).started, ((b.state n).loads i).channel ≠ none →
      (∃ m ≥ n, ((b.state m).loads i).ended = true) ∨ ∃ m ≥ n, ∀ k ≥ m, (b.state k).Stranded i) ∧
    ∀ n, (∃ i result, EndOf (b.state n) (b.state (n + 1)) i result) ∨
      NoEnd (b.state n) (b.state (n + 1)) := by
  refine ⟨fun n i hi => ((inv_state b n).phase i hi).tellsOneEnd, fun n m hm i hi hended =>
    told_of_ended hm hi hended,
    fun n i hi hchannel => load_ends hfair hi hchannel, fun n => ?_⟩
  rcases b.next n with heq | hstep
  · rw [heq]
    exact .inr ⟨fun i _ => .inl rfl, fun hsome hnone => absurd hnone hsome, fun _ => .inl rfl⟩
  · exact ends_of_step (slot_reached (b.reachable n)) (honest_reached (b.reachable n)) hstep

/-! ### Two refreshes -/

/-- The account that is refreshed. -/
def imapAccount : AccountId := ⟨"imap", by decide⟩

/-- The window with one account. -/
def shown : World :=
  (World.start ⟨imapAccount, .folderList, false, none, []⟩ .empty).applyAccountUpdate
    ⟨⟨[(imapAccount, ⟨.imapSmtp, true, true⟩)], by decide⟩, .complete, false⟩

/-- A refresh of it. -/
def refreshing : World := shown.startLoad imapAccount .folderList

/-- The worker has got the request. -/
def requested : World := refreshing.workerStartLoad 0

/-- A thread runs the load. -/
def running : World :=
  requested.modifyThread 0 fun thread => { thread with queue := [], running := some 0 }

/-- The load has written the folder list. -/
def written : World := (running.modifyLoad 0 (Load.send (.finished (.stored none)))).dropRunning 0 0

/-- The window was told. -/
def refreshed : World :=
  (written.modifyLoad 0 fun load => { load with channel := some ⟨[], true⟩ }).onEvent 0
    (.finished (.stored none))

theorem step_shown :
    Step fromPanic (World.start ⟨imapAccount, .folderList, false, none, []⟩ .empty) shown :=
  .update _

theorem step_refreshing : Step fromPanic shown refreshing :=
  .refreshAccount imapAccount (by decide) (by decide)

theorem step_requested : Step fromPanic refreshing requested :=
  .accessGiven (by decide) (by decide) (by decide) (by decide)

theorem step_running : Step fromPanic requested running :=
  .take (t := 0) (i := 0) (by decide) (by decide) (by decide)

theorem step_written : Step fromPanic running written :=
  .finish (t := 0) (i := 0) (by decide) (.stored none) (by decide)

theorem step_refreshed : Step fromPanic written refreshed :=
  .report (i := 0) (by decide) (by decide) (by decide)

/-- A refresh from its start to its end, moment after moment. -/
def refreshState : ℕ → World
  | 0 => World.start ⟨imapAccount, .folderList, false, none, []⟩ .empty
  | 1 => shown
  | 2 => refreshing
  | 3 => requested
  | 4 => running
  | 5 => written
  | _ => refreshed

/-- A refresh from its start to its end. -/
def refresh (fromPanic : Option String → Failure) :
    Behaviour (Step fromPanic)
      (World.start ⟨imapAccount, .folderList, false, none, []⟩ .empty) where
  state := refreshState
  zero := rfl
  next
    | 0 => .inr step_shown
    | 1 => .inr step_refreshing
    | 2 => .inr step_requested
    | 3 => .inr step_running
    | 4 => .inr step_written
    | 5 => .inr step_refreshed
    | _ + 6 => .inl rfl

/-- It starts at most one load and one thread, and its last state waits for nothing. -/
theorem refreshState_counts (n : ℕ) : (refreshState n).started ≤ 1 ∧ (refreshState n).spawned ≤ 1 ∧
    (n < 6 ∧ ((refreshState n).loads 0).told = [] ∨ ((refreshState n).loads 0).ended = true) :=
  match n with
  | 0 => by decide
  | 1 => by decide
  | 2 => by decide
  | 3 => by decide
  | 4 => by decide
  | 5 => by decide
  | n + 6 => by
    have hlast : refreshed.started ≤ 1 ∧ refreshed.spawned ≤ 1 ∧
        (refreshed.loads 0).ended = true := by decide
    exact ⟨hlast.1, hlast.2.1, .inr hlast.2.2⟩

theorem refresh_fair (fromPanic : Option String → Failure) : Fair (refresh fromPanic) where
  report i told n := by
    rintro ⟨hi, ⟨hended, -⟩, htold⟩
    obtain ⟨hstarted, -, hnot⟩ := refreshState_counts n
    obtain rfl : i = 0 := Nat.lt_one_iff.mp (Nat.lt_of_lt_of_le hi hstarted)
    rcases hnot with ⟨hn, hnone⟩ | hyes
    · have hlast : (refreshed.loads 0).told ≠ [] := by decide
      exact ⟨6, Nat.le_of_lt hn, fun heq => hlast (heq.trans (htold.symm.trans hnone))⟩
    · exact absurd (hended.symm.trans hyes) Bool.false_ne_true
  thread t running' n := by
    rintro ⟨⟨-, hbusy⟩, hrunning⟩
    obtain rfl : t = 0 := by
      by_contra ht
      have hnew := (inv_state (refresh fromPanic) n).unspawned t
        ((refreshState_counts n).2.1.trans (Nat.one_le_iff_ne_zero.mpr ht))
      exact absurd hbusy (by simp [hnew, Thread.new])
    have hidle : ∀ w : World, (w.threads 0).queue = [] ∧ (w.threads 0).running = none →
        ¬ ((w.threads 0).queue ≠ [] ∨ (w.threads 0).running ≠ none) := fun w h => by simp [h]
    match n with
    | 0 => exact absurd hbusy (hidle (refreshState 0) (by decide))
    | 1 => exact absurd hbusy (hidle shown (by decide))
    | 2 => exact absurd hbusy (hidle refreshing (by decide))
    | 3 =>
      have hwas : (requested.threads 0).running ≠ (running.threads 0).running := by decide
      exact ⟨4, by omega, .inl fun heq => hwas (hrunning.trans heq.symm)⟩
    | 4 =>
      have hwas : (running.threads 0).running ≠ (written.threads 0).running := by decide
      exact ⟨5, by omega, .inl fun heq => hwas (hrunning.trans heq.symm)⟩
    | 5 => exact absurd hbusy (hidle written (by decide))
    | n + 6 => exact absurd hbusy (hidle refreshed (by decide))

/-- The failure of a load that a panic stopped, without its message. -/
def workerStopped : Option String → Failure := fun _ => ⟨.storedMailUnreadable, [], ""⟩

/-- The refresh ends after the worker got its request. -/
theorem loads_end_once_refresh : ∃ m ≥ 3, ((refreshState m).loads 0).ended = true := by
  refine ((loads_end_once (refresh_fair workerStopped)).2.2.1 3 0 ?_ ?_).resolve_right ?_
  · show 0 < requested.started
    decide
  · show (requested.loads 0).channel ≠ none
    decide
  · rintro ⟨m, -, hstranded⟩
    obtain ⟨t, hmem, -⟩ := hstranded (m + 6) (Nat.le_add_right m 6)
    -- The last state's request is gone, so no queue has it.
    obtain ⟨-, events, hchannel, -⟩ :=
      (inv_state (refresh workerStopped) (m + 6)).held_of_holds (.inl hmem)
    have hgone : (refreshed.loads 0).channel = some ⟨[], true⟩ := by decide
    cases hgone.symm.trans hchannel

/-- The thread ended before it took the request. -/
def abandoned : World := requested.modifyThread 0 fun thread => { thread with stopping := true }

/-- A refresh whose request is left in the queue, moment after moment. -/
def abandonedState : ℕ → World
  | 0 => World.start ⟨imapAccount, .folderList, false, none, []⟩ .empty
  | 1 => shown
  | 2 => refreshing
  | 3 => requested
  | _ => abandoned

theorem step_abandoned : Step fromPanic requested abandoned :=
  .unwindIdle (t := 0) (by decide) (by decide)

/-- A refresh whose request is left in the queue. -/
def abandonment (fromPanic : Option String → Failure) :
    Behaviour (Step fromPanic)
      (World.start ⟨imapAccount, .folderList, false, none, []⟩ .empty) where
  state := abandonedState
  zero := rfl
  next
    | 0 => .inr step_shown
    | 1 => .inr step_refreshing
    | 2 => .inr step_requested
    | 3 => .inr step_abandoned
    | _ + 4 => .inl rfl

/-- It starts at most one load and one thread, and nothing waits to be passed on. -/
theorem abandonedState_counts (n : ℕ) :
    (abandonedState n).started ≤ 1 ∧ (abandonedState n).spawned ≤ 1 ∧
    (4 ≤ n → ((abandonedState n).threads 0).stopping = true) ∧
    (((abandonedState n).loads 0).channel = none ∨
      ((abandonedState n).loads 0).channel = some ⟨[], false⟩) ∧
    ((abandonedState n).loads 0).ended = false :=
  match n with
  | 0 => by decide
  | 1 => by decide
  | 2 => by decide
  | 3 => by decide
  | n + 4 => by
    have hlast : abandoned.started ≤ 1 ∧ abandoned.spawned ≤ 1 ∧
      (abandoned.threads 0).stopping = true ∧
        (abandoned.loads 0).channel = some ⟨[], false⟩ ∧ (abandoned.loads 0).ended = false := by
          decide
    exact ⟨hlast.1, hlast.2.1, fun _ => hlast.2.2.1, .inr hlast.2.2.2.1, hlast.2.2.2.2⟩

theorem abandonment_fair (fromPanic : Option String → Failure) : Fair (abandonment fromPanic) where
  report i told n := by
    rintro ⟨hi, ⟨-, channel, hchannel, hready⟩, -⟩
    obtain ⟨hstarted, -, -, hwaits, -⟩ := abandonedState_counts n
    obtain rfl : i = 0 := Nat.lt_one_iff.mp (Nat.lt_of_lt_of_le hi hstarted)
    rcases hwaits with hnone | hempty
    · cases hnone.symm.trans hchannel
    · cases hempty.symm.trans hchannel
      exact absurd hready (by simp)
  thread t running' n := by
    rintro ⟨⟨hstopping, hbusy⟩, -⟩
    obtain ⟨-, hspawned, hstopped, -⟩ := abandonedState_counts n
    obtain rfl : t = 0 := by
      by_contra ht
      have hnew := (inv_state (abandonment fromPanic) n).unspawned t
        (hspawned.trans (Nat.one_le_iff_ne_zero.mpr ht))
      exact absurd hbusy (by simp [hnew, Thread.new])
    rcases Nat.lt_or_ge n 4 with hn | hn
    · exact ⟨4, Nat.le_of_lt hn, .inr (by show (abandoned.threads 0).stopping = true; decide)⟩
    · exact absurd (hstopping.symm.trans (hstopped hn)) Bool.false_ne_true

/-- **Closing the window frees the place** though no load ended, and a request left in the queue of
a thread that takes nothing more has no end. -/
theorem freed_without_end :
    (ReflTransGen (Step workerStopped)
      (World.start ⟨imapAccount, .folderList, false, none, []⟩ .empty) requested ∧
      Step workerStopped requested requested.cancelLoads ∧ requested.refreshes.runningLoad ≠ none ∧
      requested.cancelLoads.refreshes.runningLoad = none ∧
      ∀ i, (requested.cancelLoads.loads i).told = (requested.loads i).told) ∧
    Fair (abandonment workerStopped) ∧ (requested.loads 0).channel ≠ none ∧
      ∀ n, ((abandonedState n).loads 0).ended = false := by
  refine ⟨⟨?_, .quit, by decide, rfl, told_cancelLoads requested⟩,
    abandonment_fair workerStopped, by decide,
    fun n => (abandonedState_counts n).2.2.2.2⟩
  exact ((ReflTransGen.single step_shown).tail step_refreshing).tail step_requested

end World
end Mailbag.Loads
