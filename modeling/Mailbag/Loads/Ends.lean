import Mailbag.Loads.Worker

/-!
# Where a load is, and how it ends

Every load is in one phase: it waits for its access, it is held by a thread of the worker,
its events wait to be passed on, or its caller was told of the end. Every step keeps this.

## What is proved

* `Inv.step` — every step keeps each load in a phase.
-/

namespace Mailbag.Loads

open Cycle OnlineAccounts Store

/-- The events tell of changes only. -/
def Changes (events : List LoadEvent) : Prop := ∀ event ∈ events, event = .storeChanged

/-- Where a load is; `held` says that a thread has its request. -/
inductive Phase (load : Load) (held : Prop) : Prop
  /-- Online Accounts is asked. -/
  | access (hchannel : load.channel = none) (htold : load.told = []) (hheld : ¬ held)
  /-- Online Accounts gave no access. -/
  | denied (result : LoadResult) (hchannel : load.channel = none)
      (htold : load.told = [.finished result]) (hheld : ¬ held)
  /-- A thread has its request. -/
  | held (events : List LoadEvent) (hchannel : load.channel = some ⟨events, false⟩)
      (hevents : Changes events) (htold : Changes load.told) (hheld : held)
  /-- Its request is gone, and its events wait. -/
  | waiting (events : List LoadEvent) (hchannel : load.channel = some ⟨events, true⟩)
      (htold : Changes load.told)
      (hevents : Changes events ∨ ∃ changes result, events = changes ++ [.finished result] ∧
        Changes changes)
      (hheld : ¬ held)
  /-- Its caller was told of the end. -/
  | ended (result : LoadResult) (told : List LoadEvent) (hchannel : load.channel = some ⟨[], true⟩)
    (htold : load.told = .finished result :: told) (hchanges : Changes told) (hheld : ¬ held)

theorem Phase.congr {load load' : Load} {held held' : Prop} (h : Phase load held)
    (hchannel : load'.channel = load.channel) (htold : load'.told = load.told)
    (hheld : held' ↔ held) : Phase load' held' := by
  rw [propext hheld]
  cases h with
  | access h1 h2 h3 => exact .access (hchannel.trans h1) (htold.trans h2) h3
  | denied r h1 h2 h3 => exact .denied r (hchannel.trans h1) (htold.trans h2) h3
  | held es h1 h2 h3 h4 => exact .held es (hchannel.trans h1) h2 (htold ▸ h3) h4
  | waiting es h1 h2 h3 h4 => exact .waiting es (hchannel.trans h1) (htold ▸ h2) h3 h4
  | ended r told h1 h2 h3 h4 => exact .ended r told (hchannel.trans h1) (htold.trans h2) h3 h4

/-- A load that waits, or whose request a thread has, passes on the event that comes first. -/
theorem Phase.pop {load : Load} {held : Prop} (h : Phase load held) {event : LoadEvent}
    {rest : List LoadEvent} {closed : Bool}
    (hchannel : load.channel = some ⟨event :: rest, closed⟩) :
    Phase { load with channel := some ⟨rest, closed⟩, told := event :: load.told } held := by
  cases h with
  | access h1 | denied _ h1 | ended _ _ h1 => rw [h1] at hchannel; cases hchannel
  | held events h1 h2 h3 h4 =>
    rw [h1] at hchannel
    cases hchannel
    have hevent := h2 event List.mem_cons_self
    refine .held rest rfl (fun e he => h2 e (List.mem_cons_of_mem _ he)) (fun e he => ?_) h4
    rcases List.mem_cons.mp he with rfl | he
    · exact hevent
    · exact h3 e he
  | waiting events h1 h2 h3 h4 =>
    rw [h1] at hchannel
    cases hchannel
    have htold : event = .storeChanged → Changes (event :: load.told) := fun hevent e he => by
      rcases List.mem_cons.mp he with rfl | he
      · exact hevent
      · exact h2 e he
    rcases h3 with h3 | ⟨changes, result, heq, h3⟩
    · exact .waiting rest rfl (htold (h3 event List.mem_cons_self))
        (.inl fun e he => h3 e (List.mem_cons_of_mem _ he)) h4
    · cases changes with
      | nil =>
        cases heq
        exact .ended result load.told rfl rfl h2 h4
      | cons change changes =>
        rw [List.cons_append] at heq
        cases heq
        exact .waiting _ rfl (htold (h3 event List.mem_cons_self))
          (.inr ⟨changes, result, rfl, fun e he => h3 e (List.mem_cons_of_mem _ he)⟩) h4

theorem changes_of_not_ended {load : Load} {held : Prop} (h : Phase load held)
    (hended : load.ended = false) : Changes load.told := by
  cases h with
  | access _ htold => exact htold.symm ▸ fun _ hmem => by cases hmem
  | held _ _ _ htold | waiting _ _ htold => exact htold
  | denied _ _ htold | ended _ _ _ htold =>
    rw [Load.ended, htold] at hended
    cases hended

namespace World

/-- The thread has the load's request. -/
def Holds (w : World) (t i : ℕ) : Prop := i ∈ (w.threads t).queue ∨ (w.threads t).running = some i

/-- A thread has the load's request. -/
def Held (w : World) (i : ℕ) : Prop := ∃ t, w.Holds t i

/-- What holds of loads and threads in every state. -/
structure Inv (w : World) : Prop where
  /-- Every load is in a phase. -/
  phase : ∀ i < w.started, Phase (w.loads i) (w.Held i)
  /-- A request that a thread has is of a load that was started. -/
  started : ∀ t i, w.Holds t i → i < w.started
  /-- One thread has it. -/
  single : ∀ t t' i, w.Holds t i → w.Holds t' i → t = t'
  /-- It is in a queue once. -/
  nodup : ∀ t, (w.threads t).queue.Nodup
  /-- The running one is in no queue. -/
  running : ∀ t i, (w.threads t).running = some i → i ∉ (w.threads t).queue
  /-- A queue is closed by a thread that stops. -/
  stopping : ∀ t, (w.threads t).isClosed = true → (w.threads t).stopping = true
  /-- A thread that stops runs nothing. -/
  stopped : ∀ t, (w.threads t).stopping = true → (w.threads t).running = none
  /-- A thread not started has nothing. -/
  unspawned : ∀ t, w.spawned ≤ t → w.threads t = .new
  /-- The handle sends to a thread that was started. -/
  worker : ∀ t, w.worker = some t → t < w.spawned

variable {w w' : World}

theorem Inv.congr (h : Inv w) (hchannel : ∀ i, (w'.loads i).channel = (w.loads i).channel)
    (htold : ∀ i, (w'.loads i).told = (w.loads i).told) (hstarted : w'.started = w.started)
    (hthreads : w'.threads = w.threads) (hspawned : w'.spawned = w.spawned)
    (hworker : w'.worker = w.worker) : Inv w' := by
  have hholds : ∀ t i, w'.Holds t i ↔ w.Holds t i := fun t i => by rw [Holds, Holds, hthreads]
  have hheld : ∀ i, w'.Held i ↔ w.Held i := fun i => exists_congr fun t => hholds t i
  refine ⟨fun i hi => ?_, fun t i ht => ?_, fun t t' i ht ht' => ?_, ?_, ?_, ?_, ?_, ?_, ?_⟩
  · exact (h.phase i (hstarted ▸ hi)).congr (hchannel i) (htold i) (hheld i)
  · exact hstarted ▸ h.started t i ((hholds t i).mp ht)
  · exact h.single t t' i ((hholds t i).mp ht) ((hholds t' i).mp ht')
  · exact hthreads ▸ h.nodup
  · exact hthreads ▸ h.running
  · exact hthreads ▸ h.stopping
  · exact hthreads ▸ h.stopped
  · exact hthreads ▸ hspawned ▸ h.unspawned
  · exact hworker ▸ hspawned ▸ h.worker

@[simp] theorem modifyLoad_self (w : World) (i : ℕ) (f : Load → Load) :
    (w.modifyLoad i f).loads i = f (w.loads i) :=
  Function.update_self ..

@[simp] theorem modifyLoad_other (w : World) {i j : ℕ} (h : j ≠ i) (f : Load → Load) :
    (w.modifyLoad i f).loads j = w.loads j := Function.update_of_ne h ..

@[simp] theorem modifyThread_self (w : World) (t : ℕ) (f : Thread → Thread) :
    (w.modifyThread t f).threads t = f (w.threads t) := Function.update_self ..

@[simp] theorem modifyThread_other (w : World) {t u : ℕ} (h : u ≠ t) (f : Thread → Thread) :
    (w.modifyThread t f).threads u = w.threads u := Function.update_of_ne h ..

/-- One load changed, and nothing else. -/
theorem Inv.modifyLoad (h : Inv w) {i : ℕ} {f : Load → Load}
    (hphase : i < w.started → Phase (f (w.loads i)) (w.Held i)) : Inv (w.modifyLoad i f) := by
  refine ⟨fun j hj => ?_, h.started, h.single, h.nodup, h.running, h.stopping, h.stopped,
    h.unspawned, h.worker⟩
  by_cases hji : j = i
  · rw [hji, modifyLoad_self]
    exact hphase (hji ▸ hj)
  · rw [modifyLoad_other w hji]
    exact h.phase j hj

theorem Inv.lt_spawned (h : Inv w) {t i : ℕ} (hholds : w.Holds t i) : t < w.spawned := by
  by_contra hge
  rw [Holds, h.unspawned t (Nat.le_of_not_lt hge)] at hholds
  rcases hholds with hmem | hrunning
  · cases hmem
  · cases hrunning

/-- One thread changed, and it has no request that it did not have; the loads whose requests it no
longer has changed with it. -/
theorem Inv.shrink (h : Inv w) {t : ℕ} {thread : Thread} {loads : ℕ → Load} (ht : t < w.spawned)
    (hsub : ∀ j, j ∈ thread.queue ∨ thread.running = some j → w.Holds t j)
    (hnodup : thread.queue.Nodup) (hrunning : ∀ j, thread.running = some j → j ∉ thread.queue)
    (hstopping : thread.isClosed = true → thread.stopping = true)
    (hstopped : thread.stopping = true → thread.running = none)
    (hkept : ∀ j, (w.Holds t j → j ∈ thread.queue ∨ thread.running = some j) → loads j = w.loads j)
    (hlost : ∀ j < w.started, w.Holds t j → ¬ (j ∈ thread.queue ∨ thread.running = some j) →
      Phase (loads j) False) :
    Inv { w with loads := loads, threads := Function.update w.threads t thread } := by
  set w' : World := { w with loads := loads, threads := Function.update w.threads t thread }
  have hself : w'.threads t = thread := Function.update_self ..
  have hother : ∀ u, u ≠ t → w'.threads u = w.threads u := fun u hu => Function.update_of_ne hu ..
  have hholds : ∀ u j, w'.Holds u j → w.Holds u j := by
    intro u j hu
    by_cases hut : u = t
    · subst hut
      rw [Holds, hself] at hu
      exact hsub j hu
    · rwa [Holds, hother u hut] at hu
  refine ⟨fun j hj => ?_, fun u j hu => h.started u j (hholds u j hu), fun u v j hu hv =>
    h.single u v j (hholds u j hu) (hholds v j hv),
    fun u => ?_, fun u => ?_, fun u => ?_, fun u => ?_, fun u hu => ?_, h.worker⟩
  · by_cases hj' : w.Holds t j ∧ ¬ (j ∈ thread.queue ∨ thread.running = some j)
    · refine (hlost j hj hj'.1 hj'.2).congr rfl rfl (iff_of_false (fun ⟨u, hu⟩ => ?_) id)
      have hut : u = t := h.single u t j (hholds u j hu) hj'.1
      subst hut
      rw [Holds, hself] at hu
      exact hj'.2 hu
    · have hj' : w.Holds t j → j ∈ thread.queue ∨ thread.running = some j := fun hmem => by
        by_contra hnot
        exact hj' ⟨hmem, hnot⟩
      have hload : w'.loads j = w.loads j := hkept j hj'
      rw [hload]
      refine (h.phase j hj).congr rfl rfl ⟨fun ⟨u, hu⟩ => ⟨u, hholds u j hu⟩,
        fun ⟨u, hu⟩ => ⟨u, ?_⟩⟩
      by_cases hut : u = t
      · subst hut
        rw [Holds, hself]
        exact hj' hu
      · rwa [Holds, hother u hut]
  all_goals by_cases hut : u = t
  · exact hut ▸ hself.symm ▸ hnodup
  · exact (hother u hut).symm ▸ h.nodup u
  · exact hut ▸ hself.symm ▸ hrunning
  · exact (hother u hut).symm ▸ h.running u
  · exact hut ▸ hself.symm ▸ hstopping
  · exact (hother u hut).symm ▸ h.stopping u
  · exact hut ▸ hself.symm ▸ hstopped
  · exact (hother u hut).symm ▸ h.stopped u
  · exact absurd hu (by subst hut; exact Nat.not_le_of_lt ht)
  · exact (hother u hut).trans (h.unspawned u hu)

/-! ### What the steps do to a load -/

theorem Inv.onEvent (h : Inv w) {i : ℕ} {event : LoadEvent}
    (hphase : i < w.started → Phase { w.loads i with told := event :: (w.loads i).told }
      (w.Held i)) :
    Inv (w.onEvent i event) := by
  have htold : Inv (w.modifyLoad i fun load => { load with told := event :: load.told }) :=
    h.modifyLoad hphase
  cases event with
  | storeChanged => exact htold
  | finished result => exact htold.congr (fun _ => rfl) (fun _ => rfl) rfl rfl rfl rfl

theorem Inv.dropCancellation (h : Inv w) (cancellation : Option ℕ) :
    Inv (w.dropCancellation cancellation) := by
  cases cancellation with
  | none => exact h
  | some i =>
    show Inv (w.modifyLoad i fun load => { load with cancelled := true })
    exact h.modifyLoad fun hi => (h.phase i hi).congr rfl rfl .rfl

theorem Inv.startLoad (h : Inv w) (account : AccountId) (target : LoadTarget) :
    Inv (w.startLoad account target) := by
  rw [World.startLoad]
  split
  · exact h
  · have hheld : ¬ w.Held w.started := fun ⟨t, ht⟩ => absurd (h.started t _ ht) (Nat.lt_irrefl _)
    refine ⟨fun j hj => ?_, fun t j hj => (h.started t j hj).trans (Nat.lt_succ_self _), h.single,
      h.nodup, h.running,
      h.stopping, h.stopped, h.unspawned, h.worker⟩
    by_cases hjs : j = w.started
    · subst hjs
      exact .access (by simp) (by simp) hheld
    · refine (h.phase j (lt_of_le_of_ne (Nat.le_of_lt_succ hj) hjs)).congr ?_ ?_ .rfl <;>
        simp [Function.update_of_ne hjs]

/-- A queue is dropped, of a thread that runs nothing. -/
theorem Inv.dropQueue (h : Inv w) {t : ℕ} (ht : t < w.spawned) : Inv (w.dropQueue t) := by
  refine h.shrink ht (fun j hj => ?_) List.nodup_nil (fun j _ => List.not_mem_nil) (h.stopping t)
    (h.stopped t)
    (fun j hj => ?_) (fun j hj hholds hnot => ?_)
  · exact hj.elim (fun hmem => by cases hmem) .inr
  · refine if_neg fun hmem => ?_
    -- A request in the queue is not running, so it would still be held.
    exact h.running t j ((hj (.inl hmem)).resolve_left List.not_mem_nil) hmem
  · have hmem : j ∈ (w.threads t).queue := hholds.resolve_right fun hrunning => hnot (.inr hrunning)
    rw [if_pos hmem]
    cases h.phase j hj with
    | held events hchannel hevents htold _ =>
      exact .waiting events (by simp [Load.dropRequest, hchannel]) htold (.inl hevents) id
    | access _ _ hheld | denied _ _ _ hheld | waiting _ _ _ _ hheld | ended _ _ _ _ _ hheld =>
      exact absurd ⟨t, hholds⟩ hheld

theorem Inv.spawn (h : Inv w) : Inv w.spawn := by
  have hreleased : ∀ w : World, Inv w → Inv { w.modifyThread w.spawned fun _ => .new with
      spawned := w.spawned + 1, worker := some w.spawned } := by
    intro w h
    have hthreads : (w.modifyThread w.spawned fun _ => .new).threads = w.threads := by
      funext u
      by_cases hu : u = w.spawned
      · rw [hu, modifyThread_self, h.unspawned _ le_rfl]
      · exact modifyThread_other w hu _
    have hholds : ∀ t i, World.Holds { w.modifyThread w.spawned fun _ => .new with
        spawned := w.spawned + 1, worker := some w.spawned } t i ↔ w.Holds t i := fun t i => by
      show _ ∈ ((w.modifyThread w.spawned fun _ => .new).threads t).queue ∨
        ((w.modifyThread w.spawned fun _ => .new).threads t).running = some i ↔ _
      rw [hthreads]
      rfl
    refine ⟨fun i hi => (h.phase i hi).congr rfl rfl (exists_congr fun t => hholds t i),
      fun t i ht => h.started t i ((hholds t i).mp ht), fun t t' i ht ht' => h.single t t' i
        ((hholds t i).mp ht) ((hholds t' i).mp ht'),
      fun t => ?_, fun t => ?_, fun t => ?_, fun t => ?_, fun t ht => ?_, fun t ht => ?_⟩
    · exact hthreads.symm ▸ h.nodup t
    · exact hthreads.symm ▸ h.running t
    · exact hthreads.symm ▸ h.stopping t
    · exact hthreads.symm ▸ h.stopped t
    · exact hthreads.symm ▸ h.unspawned t ((Nat.le_succ _).trans ht)
    · exact Option.some.inj ht ▸ Nat.lt_succ_self _
  unfold World.spawn
  cases hworker : w.worker with
  | none => exact hreleased w h
  | some t =>
    have hspawned : (w.dropQueue t).spawned = w.spawned := rfl
    exact hreleased _ (h.dropQueue (h.worker t hworker))

theorem Inv.push (h : Inv w) {t i : ℕ} (ht : t < w.spawned) (hi : i < w.started)
    (hchannel : (w.loads i).channel = none) (htold : (w.loads i).told = []) :
    Inv ((w.modifyLoad i fun load => { load with channel := some ⟨[], false⟩ }).modifyThread t
      fun thread =>
      { thread with queue := thread.queue ++ [i] }) := by
  have hheld : ¬ w.Held i := by
    cases h.phase i hi with
    | access _ _ hheld => exact hheld
    | denied result _ htold' | ended result _ _ htold' => rw [htold'] at htold; cases htold
    | held events hchannel' | waiting events hchannel' => rw [hchannel'] at hchannel; cases hchannel
  set w' := (w.modifyLoad i fun load => { load with channel := some ⟨[], false⟩ }).modifyThread t
    fun thread => { thread with queue := thread.queue ++ [i] }
  have hself : w'.threads t = { w.threads t with queue := (w.threads t).queue ++ [i] } :=
    modifyThread_self ..
  have hother : ∀ u, u ≠ t → w'.threads u = w.threads u := fun u hu => modifyThread_other _ hu _
  have hholds : ∀ u j, w'.Holds u j ↔ w.Holds u j ∨ u = t ∧ j = i := by
    intro u j
    by_cases hut : u = t
    · subst hut
      rw [Holds, hself, Holds, List.mem_append, List.mem_singleton]
      tauto
    · rw [Holds, hother u hut, Holds]
      tauto
  refine ⟨fun j hj => ?_, fun u j hu => ?_, fun u v j hu hv => ?_, fun u => ?_, fun u => ?_,
    fun u => ?_, fun u => ?_, fun u hu => ?_,
    h.worker⟩
  · by_cases hji : j = i
    · subst hji
      exact .held [] (by simp [w', World.modifyThread]) (fun _ hmem => by cases hmem)
        (by simp [w', World.modifyThread, htold, Changes]) ⟨t, (hholds t j).mpr (.inr ⟨rfl, rfl⟩)⟩
    · have hload : w'.loads j = w.loads j := Function.update_of_ne hji ..
      refine (h.phase j hj).congr (by rw [hload]) (by rw [hload]) (exists_congr fun u => ?_)
      rw [hholds u j, or_iff_left fun hnew => hji hnew.2]
  · rcases (hholds u j).mp hu with hu | ⟨-, rfl⟩
    · exact h.started u j hu
    · exact hi
  · rcases (hholds u j).mp hu with hu' | ⟨hut, hji⟩ <;> rcases (hholds v j).mp hv
      with hv' | ⟨hvt, hvi⟩
    · exact h.single u v j hu' hv'
    · exact absurd ⟨u, hvi ▸ hu'⟩ hheld
    · exact absurd ⟨v, hji ▸ hv'⟩ hheld
    · exact hut.trans hvt.symm
  all_goals by_cases hut : u = t
  · subst hut
    rw [hself]
    exact (h.nodup u).append (List.nodup_singleton i)
      (by simpa using fun hmem => hheld ⟨u, .inl hmem⟩)
  · exact (hother u hut).symm ▸ h.nodup u
  · subst hut
    rw [hself]
    intro j hj hmem
    rcases List.mem_append.mp hmem with hmem | hmem
    · exact h.running u j hj hmem
    · exact hheld ⟨u, .inr (List.mem_singleton.mp hmem ▸ hj)⟩
  · exact (hother u hut).symm ▸ h.running u
  · exact hut ▸ hself.symm ▸ h.stopping t
  · exact (hother u hut).symm ▸ h.stopping u
  · exact hut ▸ hself.symm ▸ h.stopped t
  · exact (hother u hut).symm ▸ h.stopped u
  · exact absurd hu (by subst hut; exact Nat.not_le_of_lt ht)
  · exact (hother u hut).trans (h.unspawned u hu)

/-- The queue that takes a request is one of a thread that was started, and a load that no thread
holds stays as it is. -/
theorem Inv.queue (h : Inv w) :
    Inv w.queue.2 ∧ w.queue.1 < w.queue.2.spawned ∧ w.queue.2.started = w.started ∧
      ∀ i, ¬ w.Held i → w.queue.2.loads i = w.loads i := by
  have hloads : ∀ i, ¬ w.Held i → w.spawn.loads i = w.loads i := by
    intro i hheld
    unfold World.spawn
    cases w.worker with
    | none => rfl
    | some t => exact if_neg fun hmem => hheld ⟨t, .inl hmem⟩
  have hstarted : w.spawn.started = w.started := by
    unfold World.spawn
    cases w.worker <;> rfl
  have hspawned : w.spawn.spawned = w.spawned + 1 := by
    unfold World.spawn
    cases w.worker <;> rfl
  have hnew : Inv (w.spawned, w.spawn).2 ∧ (w.spawned, w.spawn).1 < (w.spawned, w.spawn).2.spawned ∧
      (w.spawned, w.spawn).2.started = w.started ∧ ∀ i, ¬ w.Held i →
      (w.spawned, w.spawn).2.loads i = w.loads i :=
    ⟨h.spawn, hspawned ▸ Nat.lt_succ_self _, hstarted, hloads⟩
  unfold World.queue
  split
  · next t hworker =>
    split
    · exact hnew
    · exact ⟨h, h.worker t hworker, rfl, fun _ _ => rfl⟩
  · exact hnew

/-- No thread has the request of a load that waits for its access. -/
theorem Inv.not_held (h : Inv w) {i : ℕ} (hi : i < w.started)
    (hchannel : (w.loads i).channel = none) : ¬ w.Held i := by
  cases h.phase i hi with
  | access _ _ hheld | denied _ _ _ hheld => exact hheld
  | held events hchannel' | waiting events hchannel' | ended _ _ hchannel' =>
    rw [hchannel'] at hchannel; cases hchannel

/-- Online Accounts gave the access: the worker's queue takes the request. -/
theorem Inv.workerStartLoad (h : Inv w) {i : ℕ} (hi : i < w.started)
    (hchannel : (w.loads i).channel = none) (htold : (w.loads i).told = []) :
    Inv (w.workerStartLoad i) := by
  obtain ⟨hqueue, hspawned, hstarted, hloads⟩ := h.queue
  have hload := hloads i (h.not_held hi hchannel)
  exact hqueue.push hspawned (hstarted.symm ▸ hi) (hload ▸ hchannel) (hload ▸ htold)

/-- A thread changed what it is about to do, and has the requests it had. -/
theorem Inv.modifyThread (h : Inv w) {t : ℕ} {f : Thread → Thread} (ht : t < w.spawned)
    (hholds : ∀ j, j ∈ (f (w.threads t)).queue ∨ (f (w.threads t)).running = some j ↔ w.Holds t j)
    (hnodup : (f (w.threads t)).queue.Nodup)
    (hrunning : ∀ j, (f (w.threads t)).running = some j → j ∉ (f (w.threads t)).queue)
    (hstopping : (f (w.threads t)).isClosed = true → (f (w.threads t)).stopping = true)
    (hstopped : (f (w.threads t)).stopping = true → (f (w.threads t)).running = none) :
    Inv (w.modifyThread t f) :=
  h.shrink ht (fun j => (hholds j).mp) hnodup hrunning hstopping hstopped (fun _ _ => rfl)
    fun j _ hheld hnot => absurd ((hholds j).mpr hheld) hnot

/-- A queue is closed before it takes the request. -/
theorem Inv.workerRefusesLoad (h : Inv w) {i t : ℕ} (hi : i < w.started)
    (hchannel : (w.loads i).channel = none) (htold : (w.loads i).told = [])
    (hworker : w.worker = some t) (hstopping : (w.threads t).stopping = true) :
    Inv (w.workerRefusesLoad i t) := by
  have hnot := h.not_held hi hchannel
  have hload : Inv (w.modifyLoad i fun load => { load with channel := some ⟨[], true⟩ }) := by
    refine h.modifyLoad fun _ => .waiting [] rfl ?_ (.inl fun _ hmem => by cases hmem) hnot
    simp [htold, Changes]
  exact hload.modifyThread (h.worker t hworker) (fun j => .rfl) (h.nodup t) (h.running t)
    (fun _ => hstopping) (h.stopped t)

theorem Inv.held_of_holds (h : Inv w) {t i : ℕ} (hholds : w.Holds t i) :
    i < w.started ∧ ∃ events, (w.loads i).channel = some ⟨events, false⟩ ∧ Changes events ∧
      Changes (w.loads i).told := by
  have hi := h.started t i hholds
  refine ⟨hi, ?_⟩
  cases h.phase i hi with
  | held events hchannel hevents htold _ => exact ⟨events, hchannel, hevents, htold⟩
  | access _ _ hheld | denied _ _ _ hheld | waiting _ _ _ _ hheld | ended _ _ _ _ _ hheld =>
    exact absurd ⟨t, hholds⟩ hheld

/-- The running load is over, its events as `f` leaves them. -/
theorem Inv.dropRunning (h : Inv w) {t i : ℕ} (hrunning : (w.threads t).running = some i)
    {f : Load → Load} (stopping : Bool) (hphase : Phase (f (w.loads i)) False)
    (hstopping : (w.threads t).stopping = true → stopping = true) :
    Inv { w with
      loads := Function.update w.loads i (f (w.loads i))
      threads := Function.update w.threads t
        { w.threads t with running := none, stopping := stopping } } := by
  have hholds : w.Holds t i := .inr hrunning
  refine h.shrink (h.lt_spawned hholds) (fun j hj => ?_) (h.nodup t) (fun j hj => by cases hj)
    (fun hclosed => hstopping (h.stopping t hclosed)) (fun _ => rfl) (fun j hj => ?_)
      (fun j hj hheld hnot => ?_)
  · exact hj.elim .inl fun hj => by cases hj
  · refine Function.update_of_ne (fun hji => ?_) ..
    subst hji
    rcases hj hholds with hmem | hnone
    · exact h.running t j hrunning hmem
    · cases hnone
  · have hji : j = i := by
      rcases hheld with hmem | hrunning'
      · exact absurd (.inl hmem) hnot
      · exact Option.some.inj (hrunning'.symm.trans hrunning)
    subst hji
    rw [Function.update_self]
    exact hphase

theorem Inv.applyAccountUpdate (h : Inv w) (update : AccountUpdate Accounts AccountCheckError) :
    Inv (w.applyAccountUpdate update) := by
  have hshown : Inv { w with
      visible := applyUpdate w.visible update
      refreshes := (w.refreshes.discardExcluded fun id =>
        decide (id ∈ applyUpdate w.visible update)).1 } :=
    h.congr (fun _ => rfl) (fun _ => rfl) rfl rfl rfl rfl
  have hdropped := hshown.dropCancellation
    (w.refreshes.discardExcluded fun id => decide (id ∈ applyUpdate w.visible update)).2
  unfold World.applyAccountUpdate
  dsimp only
  split
  · exact hdropped.congr (fun _ => rfl) (fun _ => rfl) rfl rfl rfl rfl
  · exact hdropped

variable {fromPanic : Option String → Failure}

/-- **Every step keeps each load in a phase.** -/
theorem Inv.step (h : Inv w) (hstep : Step fromPanic w w') : Inv w' := by
  cases hstep with
  | refreshMailbox | refreshAccount => exact h.startLoad _ _
  | update update => exact h.applyAccountUpdate update
  | quit =>
    have hquit : Inv { w with refreshes := w.refreshes.cancelLoad.1, quit := true } :=
      h.congr (fun _ => rfl) (fun _ => rfl) rfl rfl rfl rfl
    exact hquit.dropCancellation _
  | accessGiven hi hchannel htold => exact h.workerStartLoad hi hchannel htold
  | accessRefused hi hchannel htold _ hworker _ hstopping =>
    exact h.workerRefusesLoad hi hchannel htold hworker hstopping
  | @accessFailed i hi hchannel htold _ failure =>
    exact h.onEvent fun _ => .denied _ hchannel (congrArg _ htold) (h.not_held hi hchannel)
  | @accessCancelled i hi hchannel htold =>
    exact h.onEvent fun _ => .denied _ hchannel (congrArg _ htold) (h.not_held hi hchannel)
  | @report i event rest closed _ hended hchannel =>
    have hpopped : Inv (w.modifyLoad i fun load =>
        { load with channel := some ⟨rest, closed⟩, told := event :: load.told }) :=
      h.modifyLoad fun hi => (h.phase i hi).pop hchannel
    cases event with
    | storeChanged | finished =>
      refine hpopped.congr (fun j => ?_) (fun j => ?_) rfl rfl rfl rfl <;> by_cases hj : j = i <;>
        simp [World.onEvent, World.modifyLoad, hj]
  | @reportStopped i _ hended hchannel =>
    refine h.onEvent fun hi => ?_
    have hchanges := changes_of_not_ended (h.phase i hi) hended
    cases h.phase i hi with
    | access h1 | denied _ h1 | held _ h1 => rw [h1] at hchannel; cases hchannel
    | waiting _ _ _ _ hheld | ended _ _ _ _ _ hheld => exact .ended _ _ hchannel rfl hchanges hheld
  | @take t i rest hrunning hstopping hqueue =>
    have hholds : w.Holds t i := .inl (hqueue ▸ List.mem_cons_self)
    have hnodup := h.nodup t
    rw [hqueue, List.nodup_cons] at hnodup
    refine h.modifyThread (h.lt_spawned hholds) (fun j => ?_) hnodup.2 (fun j hj => ?_)
      (fun hclosed => ?_) (fun hstop => ?_)
    · rw [Holds, hqueue, hrunning]
      simp only [List.mem_cons, Option.some.injEq, reduceCtorEq, or_false]
      constructor
      · rintro (hmem | rfl)
        · exact .inr hmem
        · exact .inl rfl
      · rintro (rfl | hmem)
        · exact .inr rfl
        · exact .inl hmem
    · cases hj
      exact hnodup.1
    · exact h.stopping t hclosed
    · exact absurd (hstopping.symm.trans hstop) Bool.false_ne_true
  | @askStore t i hrunning call hcall fault =>
    have htables : Inv { w with
        tables := (Store.call w.tables call ⟨(w.loads i).cancelled, fault⟩).2 } :=
      h.congr (fun _ => rfl) (fun _ => rfl) rfl rfl rfl rfl
    unfold World.askStore
    dsimp only
    split
    · refine htables.modifyLoad fun hi => ?_
      obtain ⟨-, events, hchannel, hevents, htold⟩ := h.held_of_holds (.inr hrunning)
      refine .held (events ++ [.storeChanged]) (by simp [Load.send, hchannel]) (fun e he => ?_)
        htold ⟨t, .inr hrunning⟩
      rcases List.mem_append.mp he with he | he
      · exact hevents e he
      · exact List.mem_singleton.mp he
    · exact htables
  | @finish t i hrunning result hcancelled =>
    obtain ⟨-, events, hchannel, hevents, htold⟩ := h.held_of_holds (.inr hrunning)
    have hsent : Phase ((w.loads i).send (.finished result)).dropRequest False :=
      .waiting (events ++ [.finished result])
        (by simp [Load.send, Load.dropRequest, hchannel]) htold
        (.inr ⟨events, result, rfl, hevents⟩) id
    have hdropped := h.dropRunning hrunning
      (f := fun load => (load.send (.finished result)).dropRequest) _ hsent id
    refine hdropped.congr (fun j => ?_) (fun j => ?_) rfl rfl rfl rfl <;> by_cases hj : j = i <;>
      simp [World.dropRunning, World.modifyLoad, World.modifyThread, hj]
  | @unwindRunning t i hrunning =>
    obtain ⟨-, events, hchannel, hevents, htold⟩ := h.held_of_holds (.inr hrunning)
    have hgone : Phase (w.loads i).dropRequest False :=
      .waiting events (by simp [Load.dropRequest, hchannel]) htold (.inl hevents) id
    have hdropped := h.dropRunning hrunning true hgone fun _ => rfl
    refine hdropped.congr (fun j => rfl) (fun j => rfl) rfl ?_ rfl rfl
    simp [World.dropRunning, World.modifyLoad, World.modifyThread]
  | @unwindIdle t ht hrunning =>
    exact h.modifyThread ht (fun j => .rfl) (h.nodup t) (h.running t) (fun _ => rfl)
      (fun _ => hrunning)
  | @close t hstopping =>
    have ht : t < w.spawned := by
      by_contra hge
      rw [h.unspawned t (Nat.le_of_not_lt hge)] at hstopping
      cases hstopping
    exact h.modifyThread ht (fun j => .rfl) (h.nodup t) (h.running t) (fun _ => hstopping)
      (h.stopped t)
  | delete | writeFlag => exact h.congr (fun _ => rfl) (fun _ => rfl) rfl rfl rfl rfl

end World
end Mailbag.Loads
