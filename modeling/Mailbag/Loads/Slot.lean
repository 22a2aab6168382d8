import Mailbag.Loads.Ends

/-!
# The window's place for a running load

The window keeps one running load. Whatever the order of the loads' progress, their
cancellation, panics and stopping threads, this place belongs to the load whose caller was
not told of its end.

## What is proved

* `effect_of_step` — what one step does to what the window keeps of its loads.
* `told_of_step` — a load's caller is told of nothing after the end.
* `Slot.step` — the place belongs to the load that has not ended, in every state.
-/

namespace Mailbag.Loads

open Cycle OnlineAccounts Store

namespace World

variable {w w' : World} {fromPanic : Option String → Failure}

/-! ### What a step does to the window -/

/-- Nothing that the window keeps of its loads changed. -/
structure Quiet (w w' : World) : Prop where
  /-- Every load is the one it was. -/
  loads : ∀ i, (w'.loads i).account = (w.loads i).account ∧
    (w'.loads i).target = (w.loads i).target ∧
    (w'.loads i).cancelled = (w.loads i).cancelled ∧ (w'.loads i).told = (w.loads i).told
  /-- The running load and the outcomes. -/
  refreshes : w'.refreshes = w.refreshes
  /-- Whether the window was closed. -/
  quit : w'.quit = w.quit
  /-- How many loads were started. -/
  started : w'.started = w.started

/-- What one step does to what the window keeps of its loads. -/
inductive Effect (w w' : World) : Prop
  /-- Nothing. -/
  | quiet (h : Quiet w w')
  /-- A load is started, unless one runs. -/
  | start (account : AccountId) (target : LoadTarget) (hquit : w.quit = false)
      (htarget : ∀ folder, target = .mailbox folder → folder.account = account)
      (h : w' = w.startLoad account target)
  /-- An account update. -/
  | update (update : AccountUpdate Accounts AccountCheckError)
      (h : w' = w.applyAccountUpdate update)
  /-- The window closes. -/
  | quit (h : w' = w.cancelLoads)
  /-- The caller of a load that has not ended is told of an event, of its cancellation only when the
  load was cancelled or told so itself. -/
  | told (between : World) (i : ℕ) (event : LoadEvent) (hquiet : Quiet w between)
      (hi : i < w.started) (hended : (w.loads i).ended = false)
      (hevent : event = .finished .cancelled → (w.loads i).cancelled = true ∨ ∃ channel,
        (w.loads i).channel = some channel ∧ event ∈ channel.events)
      (h : w' = between.onEvent i event)

theorem Quiet.refl (w : World) : Quiet w w := ⟨fun _ => ⟨rfl, rfl, rfl, rfl⟩, rfl, rfl, rfl⟩

theorem Quiet.ended {w w' : World} (h : Quiet w w') (i : ℕ) :
    (w'.loads i).ended = (w.loads i).ended := by
  rw [Load.ended, (h.loads i).2.2.2, Load.ended]

/-- One load changed, and only in its channel. -/
theorem Quiet.modifyLoad (h : Quiet w w') {i : ℕ} {f : Load → Load}
    (hf : ∀ load, (f load).account = load.account ∧ (f load).target = load.target ∧
      (f load).cancelled = load.cancelled ∧ (f load).told = load.told) :
    Quiet w (w'.modifyLoad i f) := by
  refine ⟨fun j => ?_, h.refreshes, h.quit, h.started⟩
  by_cases hj : j = i
  · obtain ⟨h1, h2, h3, h4⟩ := hf (w'.loads i)
    obtain ⟨h1', h2', h3', h4'⟩ := h.loads i
    rw [hj, modifyLoad_self]
    exact ⟨h1.trans h1', h2.trans h2', h3.trans h3', h4.trans h4'⟩
  · rw [modifyLoad_other w' hj]
    exact h.loads j

theorem Quiet.modifyThread (h : Quiet w w') {t : ℕ} {f : Thread → Thread} :
    Quiet w (w'.modifyThread t f) :=
  ⟨h.loads, h.refreshes, h.quit, h.started⟩

theorem Quiet.dropRunning (h : Quiet w w') {t i : ℕ} : Quiet w (w'.dropRunning t i) := by
  have hload : Quiet w (w'.modifyLoad i Load.dropRequest) :=
    h.modifyLoad fun _ => ⟨rfl, rfl, rfl, rfl⟩
  exact hload.modifyThread

theorem quiet_spawn (w : World) : Quiet w w.spawn := by
  unfold World.spawn
  cases w.worker with
  | none => exact ⟨fun _ => ⟨rfl, rfl, rfl, rfl⟩, rfl, rfl, rfl⟩
  | some t =>
    refine ⟨fun i => ?_, rfl, rfl, rfl⟩
    simp only [World.dropQueue, World.modifyThread]
    split <;> exact ⟨rfl, rfl, rfl, rfl⟩

theorem quiet_queue (w : World) : Quiet w w.queue.2 := by
  unfold World.queue
  split
  · split
    · exact quiet_spawn w
    · exact .refl w
  · exact quiet_spawn w

/-- **What one step does** to what the window keeps of its loads. -/
theorem effect_of_step (hstep : Step fromPanic w w') : Effect w w' := by
  have hnot : ∀ {i}, (w.loads i).told = [] → (w.loads i).ended = false := fun htold => by
    rw [Load.ended, htold]
  cases hstep with
  | refreshMailbox folder _ hquit =>
    exact .start _ _ hquit (fun _ htarget => by rw [LoadTarget.mailbox.inj htarget]) rfl
  | refreshAccount account _ hquit => exact .start _ _ hquit (fun _ htarget => by cases htarget) rfl
  | update update => exact .update update rfl
  | quit => exact .quit rfl
  | @accessGiven i =>
    have hload : Quiet w (w.queue.2.modifyLoad i fun load =>
        { load with channel := some ⟨[], false⟩ }) :=
      (quiet_queue w).modifyLoad fun _ => ⟨rfl, rfl, rfl, rfl⟩
    exact .quiet (hload.modifyThread (t := w.queue.1)
      (f := fun thread => { thread with queue := thread.queue ++ [i] }))
  | accessRefused =>
    refine .quiet (Quiet.modifyThread (Quiet.modifyLoad (.refl w) ?_))
    exact fun _ => ⟨rfl, rfl, rfl, rfl⟩
  | accessFailed hi _ htold =>
    exact .told w _ _ (.refl w) hi (hnot htold) (fun hevent => by cases hevent) rfl
  | accessCancelled hi _ htold hcancelled =>
    exact .told w _ _ (.refl w) hi (hnot htold) (fun _ => .inl hcancelled) rfl
  | report hi hended hchannel =>
    refine .told _ _ _ (Quiet.modifyLoad (.refl w) ?_) hi hended
      (fun _ => .inr ⟨_, hchannel, List.mem_cons_self⟩) rfl
    exact fun _ => ⟨rfl, rfl, rfl, rfl⟩
  | reportStopped hi hended =>
    exact .told w _ _ (.refl w) hi hended (fun hevent => by cases hevent) rfl
  | take | unwindIdle | close => exact .quiet (Quiet.modifyThread (.refl w))
  | @askStore t i hrunning call hcall fault =>
    have htables : Quiet w { w with
        tables := (Store.call w.tables call ⟨(w.loads i).cancelled, fault⟩).2 } :=
      ⟨fun _ => ⟨rfl, rfl, rfl, rfl⟩, rfl, rfl, rfl⟩
    refine .quiet ?_
    unfold World.askStore
    dsimp only
    split
    · exact htables.modifyLoad fun _ => ⟨rfl, rfl, rfl, rfl⟩
    · exact htables
  | @finish t i _ result =>
    have hsent : Quiet w (w.modifyLoad i (Load.send (.finished result))) :=
      Quiet.modifyLoad (.refl w) fun _ => ⟨rfl, rfl, rfl, rfl⟩
    exact .quiet hsent.dropRunning
  | unwindRunning => exact .quiet (Quiet.modifyThread (Quiet.dropRunning (.refl w)))
  | delete | writeFlag => exact .quiet ⟨fun _ => ⟨rfl, rfl, rfl, rfl⟩, rfl, rfl, rfl⟩

/-! ### The place of the running load -/

/-- The place of the running load belongs to the load that has not ended. -/
structure Slot (w : World) : Prop where
  /-- A load that has not ended is the last, and has the place, until the window closes and cancels
  it. -/
  last : ∀ i < w.started, (w.loads i).ended = false → i + 1 = w.started ∧
    (w.quit = true ∧ (w.loads i).cancelled = true ∨ w.refreshes.runningLoad =
      some ⟨(w.loads i).account, (w.loads i).target, if (w.loads i).cancelled then none
        else some i⟩)
  /-- The place is a load's that has not ended. -/
  running : w.refreshes.runningLoad ≠ none → ∃ i, i + 1 = w.started ∧ (w.loads i).ended = false
  /-- After the window closed it is free. -/
  quitting : w.quit = true → w.refreshes.runningLoad = none

theorem Slot.quiet (h : Slot w) (hquiet : Quiet w w') : Slot w' := by
  refine ⟨fun i hi hended => ?_, fun hrunning => ?_, fun hquit => ?_⟩
  · rw [hquiet.started] at hi
    rw [hquiet.ended] at hended
    obtain ⟨h1, h2, h3, -⟩ := hquiet.loads i
    rw [hquiet.started, hquiet.quit, hquiet.refreshes, h1, h2, h3]
    exact h.last i hi hended
  · rw [hquiet.refreshes] at hrunning
    obtain ⟨i, hi, hended⟩ := h.running hrunning
    exact ⟨i, hi.trans hquiet.started.symm, (hquiet.ended i).trans hended⟩
  · rw [hquiet.quit] at hquit
    exact hquiet.refreshes ▸ h.quitting hquit

@[simp] theorem onEvent_loads (w : World) (i : ℕ) (event : LoadEvent) :
    (w.onEvent i event).loads = Function.update w.loads i
      { w.loads i with told := event :: (w.loads i).told } := by
  cases event <;> rfl

@[simp] theorem onEvent_started (w : World) (i : ℕ) (event : LoadEvent) :
    (w.onEvent i event).started = w.started := by
  cases event <;> rfl

@[simp] theorem onEvent_quit (w : World) (i : ℕ) (event : LoadEvent) :
    (w.onEvent i event).quit = w.quit := by
  cases event <;> rfl

/-- The end of the load that has the place frees it. -/
theorem Slot.freed (h : Slot w) {i : ℕ} (hi : i < w.started) (hended : (w.loads i).ended = false)
    (result : LoadResult) : (w.onEvent i (.finished result)).refreshes.runningLoad = none := by
  show (w.refreshes.finishLoad (w.loads i).account result).runningLoad = none
  rcases (h.last i hi hended).2 with ⟨hquit, -⟩ | hslot
  · have hnone := h.quitting hquit
    rw [Refreshes.finishLoad_none hnone, hnone]
  · exact Refreshes.finishLoad_runningLoad hslot result

/-- The caller of a load that has not ended is told of an event. -/
theorem Slot.onEvent (h : Slot w) {i : ℕ} (hi : i < w.started) (hended : (w.loads i).ended = false)
    (event : LoadEvent) : Slot (w.onEvent i event) := by
  cases event with
  | storeChanged =>
    have hsame : ∀ j, ((w.onEvent i .storeChanged).loads j).ended = (w.loads j).ended := by
      intro j
      by_cases hj : j = i
      · rw [hj, hended, onEvent_loads, Function.update_self, Load.ended]
      · rw [onEvent_loads, Function.update_of_ne hj]
    refine ⟨fun j hj hjended => ?_, fun hrunning => ?_, h.quitting⟩
    · rw [hsame] at hjended
      have hlast := h.last j hj hjended
      by_cases hji : j = i
      · subst hji
        rw [onEvent_loads, Function.update_self]
        exact hlast
      · rw [onEvent_loads, Function.update_of_ne hji]
        exact hlast
    · obtain ⟨j, hj, hjended⟩ := h.running hrunning
      exact ⟨j, hj, (hsame j).trans hjended⟩
  | finished result =>
    have hnone := h.freed hi hended result
    refine ⟨fun j hj hjended => ?_, fun hrunning => absurd hnone hrunning, fun _ => hnone⟩
    -- Only this load had not ended, and now it has.
    by_cases hji : j = i
    · rw [hji, onEvent_loads, Function.update_self] at hjended
      cases hjended
    · rw [onEvent_loads, Function.update_of_ne hji] at hjended
      have hj' := (h.last j (by simpa using hj) hjended).1
      have hi' := (h.last i hi hended).1
      omega

/-- A load is started only when every other has ended. -/
theorem Slot.startLoad (h : Slot w) (hquit : w.quit = false) (account : AccountId)
    (target : LoadTarget) : Slot (w.startLoad account target) := by
  rw [World.startLoad]
  split
  · exact h
  · next hloading =>
    have hnone : w.refreshes.runningLoad = none := by simpa [Refreshes.isLoading] using hloading
    have hall : ∀ i < w.started, (w.loads i).ended = true := by
      intro i hi
      by_contra hended
      rcases (h.last i hi (Bool.of_not_eq_true hended)).2 with ⟨hquit', -⟩ | hslot
      · exact Bool.false_ne_true (hquit.symm.trans hquit')
      · rw [hnone] at hslot
        cases hslot
    refine ⟨fun i hi hended => ?_, fun _ => ⟨w.started, rfl, by simp [Load.ended]⟩,
      fun hquit' => ?_⟩
    · by_cases his : i = w.started
      · subst his
        exact ⟨rfl, .inr (by simp [Refreshes.beginLoad])⟩
      · have hi' : i < w.started := lt_of_le_of_ne (Nat.le_of_lt_succ hi) his
        simp only [Function.update_of_ne his] at hended
        exact absurd (hended.symm.trans (hall i hi')) Bool.false_ne_true
    · exact absurd (hquit.symm.trans hquit') Bool.false_ne_true

/-- Dropping what cancels a load tells nobody of anything. -/
theorem told_dropCancellation (w : World) (cancellation : Option ℕ) (i : ℕ) :
    ((w.dropCancellation cancellation).loads i).told = (w.loads i).told := by
  cases cancellation with
  | none => rfl
  | some j =>
    by_cases hij : i = j
    · rw [World.dropCancellation, hij, modifyLoad_self]
    · rw [World.dropCancellation, modifyLoad_other w hij]

theorem ended_dropCancellation (w : World) (cancellation : Option ℕ) (i : ℕ) :
    ((w.dropCancellation cancellation).loads i).ended = (w.loads i).ended := by
  rw [Load.ended, told_dropCancellation, Load.ended]

/-- Dropping what cancels a load leaves the cancelled loads cancelled. -/
theorem cancelled_dropCancellation (w : World) (cancellation : Option ℕ) {i : ℕ}
    (h : (w.loads i).cancelled = true) :
    ((w.dropCancellation cancellation).loads i).cancelled = true := by
  cases cancellation with
  | none => exact h
  | some j =>
    by_cases hij : i = j
    · rw [World.dropCancellation, hij, modifyLoad_self]
    · rw [World.dropCancellation, modifyLoad_other w hij]
      exact h

@[simp] theorem dropCancellation_started (w : World) (cancellation : Option ℕ) :
    (w.dropCancellation cancellation).started = w.started := by cases cancellation <;> rfl

@[simp] theorem dropCancellation_quit (w : World) (cancellation : Option ℕ) :
    (w.dropCancellation cancellation).quit = w.quit := by cases cancellation <;> rfl

@[simp] theorem dropCancellation_refreshes (w : World) (cancellation : Option ℕ) :
    (w.dropCancellation cancellation).refreshes = w.refreshes := by cases cancellation <;> rfl

/-- Closing the window tells nobody of anything. -/
theorem told_cancelLoads (w : World) (i : ℕ) : (w.cancelLoads.loads i).told = (w.loads i).told :=
  told_dropCancellation ..

theorem Slot.cancelLoads (h : Slot w) : Slot w.cancelLoads := by
  unfold World.cancelLoads
  dsimp only
  refine ⟨fun i hi hended => ?_, fun hrunning => absurd ?_ hrunning, fun _ => ?_⟩
  · rw [ended_dropCancellation] at hended
    rw [dropCancellation_started] at hi ⊢
    refine ⟨(h.last i hi hended).1, .inl ⟨by rw [dropCancellation_quit], ?_⟩⟩
    -- The load was cancelled before, or it has the place, and with it what cancels it.
    cases hcancelled : (w.loads i).cancelled with
    | true => exact cancelled_dropCancellation _ _ hcancelled
    | false =>
      rcases (h.last i hi hended).2 with ⟨-, hcancelled'⟩ | hslot
      · exact absurd (hcancelled.symm.trans hcancelled') Bool.false_ne_true
      · have hcancel : w.refreshes.cancelLoad.2 = some i := by
          simp [Refreshes.cancelLoad, hslot, hcancelled]
        rw [hcancel, World.dropCancellation, modifyLoad_self]
  · rw [dropCancellation_refreshes]
    rfl
  · rw [dropCancellation_refreshes]
    rfl

/-- An exclusion cancels the load that has the place, unless it was cancelled before. -/
theorem Slot.discardExcluded (h : Slot w) (visible : List AccountId)
    (isVisible : AccountId → Bool) :
    Slot (World.dropCancellation
      { w with visible := visible, refreshes := (w.refreshes.discardExcluded isVisible).1 }
      (w.refreshes.discardExcluded isVisible).2) := by
  rw [Refreshes.discardExcluded_cancellation]
  refine ⟨fun i hi hended => ?_, fun hrunning => ?_, fun hquit => ?_⟩
  · rw [ended_dropCancellation] at hended
    rw [dropCancellation_started] at hi ⊢
    rw [dropCancellation_quit, dropCancellation_refreshes, Refreshes.discardExcluded_runningLoad]
    obtain ⟨hlast, hquit | hslot⟩ := h.last i hi hended
    · exact ⟨hlast, .inl ⟨hquit.1, cancelled_dropCancellation _ _ hquit.2⟩⟩
    · refine ⟨hlast, .inr ?_⟩
      rw [hslot]
      cases hvisible : isVisible (w.loads i).account <;> cases hcancelled :
        (w.loads i).cancelled <;>
        simp [World.dropCancellation, World.modifyLoad, hvisible, hcancelled]
  · rw [dropCancellation_refreshes, Refreshes.discardExcluded_runningLoad] at hrunning
    obtain ⟨i, hi, hended⟩ := h.running fun hnone => hrunning (by rw [hnone]; rfl)
    exact ⟨i, by simpa using hi, (ended_dropCancellation _ _ i).trans hended⟩
  · rw [dropCancellation_quit] at hquit
    rw [dropCancellation_refreshes, Refreshes.discardExcluded_runningLoad, h.quitting hquit]
    rfl

theorem Slot.applyAccountUpdate (h : Slot w) (update : AccountUpdate Accounts AccountCheckError) :
    Slot (w.applyAccountUpdate update) := by
  have hdiscarded := h.discardExcluded (applyUpdate w.visible update) fun id =>
    decide (id ∈ applyUpdate w.visible update)
  unfold World.applyAccountUpdate
  dsimp only
  split
  · exact hdiscarded.quiet ⟨fun _ => ⟨rfl, rfl, rfl, rfl⟩, rfl, rfl, rfl⟩
  · exact hdiscarded

/-- Dropping what cancels a load leaves what every load is. -/
theorem of_dropCancellation (w : World) (cancellation : Option ℕ) (i : ℕ) :
    ((w.dropCancellation cancellation).loads i).account = (w.loads i).account ∧
      ((w.dropCancellation cancellation).loads i).target = (w.loads i).target ∧
      ((w.loads i).cancelled = true →
        ((w.dropCancellation cancellation).loads i).cancelled = true) := by
  refine ⟨?_, ?_, cancelled_dropCancellation w cancellation⟩ <;> cases cancellation with
  | none => rfl
  | some j =>
    by_cases hij : i = j
    · rw [World.dropCancellation, hij, modifyLoad_self]
    · rw [World.dropCancellation, modifyLoad_other w hij]

theorem applyAccountUpdate_loads (w : World) (update : AccountUpdate Accounts AccountCheckError)
    (i : ℕ) :
    (w.applyAccountUpdate update).started = w.started ∧
      ((w.applyAccountUpdate update).loads i).told = (w.loads i).told := by
  unfold World.applyAccountUpdate
  dsimp only
  split <;> exact ⟨dropCancellation_started _ _, told_dropCancellation _ _ i⟩

/-- **A step tells a load's caller** of nothing, or of one event, when it was not told of the
end. -/
theorem told_of_step (hstep : Step fromPanic w w') :
    w.started ≤ w'.started ∧ ∀ i < w.started, (w'.loads i).told = (w.loads i).told ∨
      (w.loads i).ended = false ∧ ∃ event, (w'.loads i).told = event :: (w.loads i).told := by
  cases effect_of_step hstep with
  | quiet hquiet => exact ⟨hquiet.started.ge, fun i _ => .inl (hquiet.loads i).2.2.2⟩
  | start account target _ _ heq =>
    rw [heq, World.startLoad]
    split
    · exact ⟨le_rfl, fun i _ => .inl rfl⟩
    · exact ⟨Nat.le_succ _, fun i hi =>
        .inl (congrArg Load.told (Function.update_of_ne (Nat.ne_of_lt hi) ..))⟩
  | update update heq =>
    rw [heq, (applyAccountUpdate_loads w update 0).1]
    exact ⟨le_rfl, fun i _ => .inl (applyAccountUpdate_loads w update i).2⟩
  | quit heq =>
    rw [heq]
    refine ⟨?_, fun i _ => .inl (told_cancelLoads w i)⟩
    exact (dropCancellation_started { w with refreshes := w.refreshes.cancelLoad.1, quit := true }
      _).ge
  | told between j event hquiet hj hended _ heq =>
    rw [heq, onEvent_started, onEvent_loads, hquiet.started]
    refine ⟨le_rfl, fun i hi => ?_⟩
    by_cases hij : i = j
    · subst hij
      rw [Function.update_self, (hquiet.loads i).2.2.2]
      exact .inr ⟨hended, event, rfl⟩
    · rw [Function.update_of_ne hij]
      exact .inl (hquiet.loads i).2.2.2

/-- **The place belongs to the load that has not ended**, after every step. -/
theorem Slot.step (h : Slot w) (hstep : Step fromPanic w w') : Slot w' := by
  cases effect_of_step hstep with
  | quiet hquiet => exact h.quiet hquiet
  | start account target hquit _ heq => exact heq ▸ h.startLoad hquit account target
  | update update heq => exact heq ▸ h.applyAccountUpdate update
  | quit heq => exact heq ▸ h.cancelLoads
  | told between i event hquiet hi hended _ heq =>
    exact heq ▸ (h.quiet hquiet).onEvent (hquiet.started.symm ▸ hi)
      ((hquiet.ended i).trans hended) event

end World
end Mailbag.Loads
