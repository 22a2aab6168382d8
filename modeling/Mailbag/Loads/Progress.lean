import Mailbag.Interaction.System
import Mailbag.Loads.Slot

/-!
# A load that was started ends

When every party goes on while it has something to do, a request does not stay in a queue
for ever, a load does not run for ever, and what it told is passed on. The rank of a request
is its place in the queue, and the rank of the events the length of their channel.

The one exception is a request in the queue of a thread that a panic outside the loads has
ended: nobody takes it any more.

## What is proved

* `moves_of_step` — what one step does to a thread.
* `queue_leadsTo`, `running_leadsTo`, `gone_leadsTo` — a request leaves its queue, a load its
  thread, and its caller is told of the end.
* `load_ends` — a load ends, unless its request is stranded.
-/

namespace Mailbag.Loads

open Cycle Interaction OnlineAccounts Relation Store

namespace World

variable {w w' : World} {fromPanic : Option String → Failure}

/-! ### What a step does to a thread -/

/-- What one step does to a thread. -/
inductive Moves (w w' : World) (t : ℕ) : Prop
  /-- Nothing. -/
  | stays (h : w'.threads t = w.threads t)
  /-- Its queue takes a request. -/
  | pushed (i : ℕ) (hchannel : (w.loads i).channel = none)
    (h : w'.threads t = { w.threads t with queue := (w.threads t).queue ++ [i] })
  /-- It takes the next request. -/
  | takes (i : ℕ) (rest : List ℕ) (hrunning : (w.threads t).running = none)
      (hqueue : (w.threads t).queue = i :: rest)
      (h : w'.threads t = { w.threads t with queue := rest, running := some i })
  /-- Its load is over. -/
  | ends (i : ℕ) (stopping : Bool) (hrunning : (w.threads t).running = some i)
    (hstopping : (w.threads t).stopping = true → stopping = true)
    (h : w'.threads t = { w.threads t with running := none, stopping := stopping })
  /-- It stops. -/
  | stops (isClosed : Bool)
      (h : w'.threads t = { w.threads t with stopping := true, isClosed := isClosed })
  /-- Its queue is dropped. -/
  | dropped (h : w'.threads t = { w.threads t with queue := [] })

/-- The queue that takes the next request, and what asking for it does to the threads. -/
theorem queue_threads (h : Inv w) (u : ℕ) : w.queue.2.threads u = w.threads u ∨
    u ≠ w.queue.1 ∧ w.queue.2.threads u = { w.threads u with queue := [] } := by
  have hspawn : w.spawn.threads u = w.threads u ∨ u ≠ w.spawned ∧
      w.spawn.threads u = { w.threads u with queue := [] } := by
    unfold World.spawn
    by_cases hu : u = w.spawned
    · refine .inl ?_
      rw [hu, h.unspawned _ le_rfl]
      cases w.worker <;> exact Function.update_self ..
    · cases hworker : w.worker with
      | none => exact .inl (Function.update_of_ne hu ..)
      | some t =>
        have hkept : ∀ f, ((w.dropQueue t).modifyThread (w.dropQueue t).spawned f).threads u =
            (w.dropQueue t).threads u :=
          fun f => Function.update_of_ne hu ..
        show ((w.dropQueue t).modifyThread (w.dropQueue t).spawned fun _ => .new).threads u = _ ∨
          u ≠ w.spawned ∧ ((w.dropQueue t).modifyThread (w.dropQueue t).spawned fun _ =>
            .new).threads u = _
        rw [hkept]
        by_cases hut : u = t
        · exact .inr ⟨hu, hut ▸ Function.update_self ..⟩
        · exact .inl (Function.update_of_ne hut ..)
  unfold World.queue
  split
  · split
    · exact hspawn
    · exact .inl rfl
  · exact hspawn

theorem dropCancellation_threads (w : World) (cancellation : Option ℕ) :
    (w.dropCancellation cancellation).threads = w.threads := by cases cancellation <;> rfl

theorem Moves.modifyThread {t : ℕ} {f : Thread → Thread} (hthreads : w'.threads = w.threads)
    (h : Moves w (w'.modifyThread t f) t) (u : ℕ) : Moves w (w'.modifyThread t f) u := by
  by_cases hut : u = t
  · exact hut ▸ h
  · exact .stays (by rw [modifyThread_other w' hut, hthreads])

/-- **What one step does to a thread.** -/
theorem moves_of_step (h : Inv w) (hstep : Step fromPanic w w') (t : ℕ) : Moves w w' t := by
  cases hstep with
  | refreshMailbox | refreshAccount =>
    refine .stays ?_
    rw [World.startLoad]
    split <;> rfl
  | update update =>
    refine .stays ?_
    unfold World.applyAccountUpdate
    dsimp only
    split <;> exact congrFun (dropCancellation_threads _ _) t
  | quit => exact .stays (congrFun (dropCancellation_threads _ _) t)
  | @accessGiven i _ hchannel =>
    by_cases ht : t = w.queue.1
    · refine .pushed i hchannel ?_
      have hkept : w.queue.2.threads t = w.threads t :=
        (queue_threads h t).resolve_right fun hnot => hnot.1 ht
      have hpushed : (w.workerStartLoad i).threads w.queue.1 =
          { w.queue.2.threads w.queue.1 with queue := (w.queue.2.threads w.queue.1).queue ++
            [i] } := by
        unfold World.workerStartLoad
        exact Function.update_self ..
      rw [ht, hpushed, ← ht, hkept]
    · have hother : (w.workerStartLoad i).threads t = w.queue.2.threads t :=
        Function.update_of_ne ht ..
      rcases queue_threads h t with hkept | ⟨-, hdropped⟩
      · exact .stays (hother.trans hkept)
      · exact .dropped (hother.trans hdropped)
  | @accessRefused i u _ _ _ _ _ _ hstopping =>
    refine Moves.modifyThread ?_ (.stops true ?_) t
    · rfl
    · rw [modifyThread_self, ← hstopping]
      rfl
  | accessFailed | accessCancelled | reportStopped => exact .stays rfl
  | @report i event => cases event <;> exact .stays rfl
  | @take u i rest hrunning _ hqueue =>
    exact .modifyThread rfl (.takes i rest hrunning hqueue (modifyThread_self ..)) t
  | @askStore u i =>
    refine .stays ?_
    unfold World.askStore
    dsimp only
    split <;> rfl
  | @finish u i hrunning =>
    refine Moves.modifyThread ?_ (.ends i _ hrunning id ?_) t
    · rfl
    · rw [modifyThread_self]
      rfl
  | @unwindRunning u i hrunning =>
    by_cases hut : t = u
    · subst hut
      exact .ends i true hrunning (fun _ => rfl)
        (by rw [modifyThread_self, World.dropRunning, modifyThread_self]; rfl)
    · exact .stays (by rw [modifyThread_other _ hut, World.dropRunning,
        modifyThread_other _ hut]; rfl)
  | @unwindIdle u => exact .modifyThread rfl (.stops _ (modifyThread_self ..)) t
  | @close u hstopping =>
    refine .modifyThread rfl (.stops true ?_) t
    rw [modifyThread_self, ← hstopping]
  | delete | writeFlag => exact .stays rfl

/-! ### What a step does to a request -/

theorem Moves.holds {t i : ℕ} (h : Moves w w' t) (hchannel : (w.loads i).channel ≠ none)
    (hholds : w'.Holds t i) : w.Holds t i := by
  unfold Holds at hholds ⊢
  cases h with
  | stays heq => rwa [heq] at hholds
  | pushed j hj heq =>
    have hji : i ≠ j := fun hij => hchannel (hij ▸ hj)
    rw [heq] at hholds
    simpa [hji] using hholds
  | takes j rest hrunning hqueue heq =>
    rw [heq] at hholds
    rw [hqueue]
    rcases hholds with hmem | hrunning'
    · exact .inl (List.mem_cons_of_mem _ hmem)
    · exact .inl (Option.some.inj hrunning' ▸ List.mem_cons_self)
  | ends j stopping hrunning _ heq =>
    rw [heq] at hholds
    exact .inl (hholds.resolve_right fun hnone => by cases hnone)
  | stops isClosed heq =>
    rw [heq] at hholds
    exact hholds
  | dropped heq =>
    rw [heq] at hholds
    exact .inr (hholds.resolve_left List.not_mem_nil)

theorem Moves.stopping {t : ℕ} (h : Moves w w' t) (hstopping : (w.threads t).stopping = true) :
    (w'.threads t).stopping = true := by
  cases h with
  | stays heq | pushed _ _ heq | takes _ _ _ _ heq | dropped heq =>
    rw [heq]
    exact hstopping
  | ends _ _ _ hkept heq =>
    rw [heq]
    exact hkept hstopping
  | stops _ heq => rw [heq]

/-- A request no thread has is taken by none, once the worker had got it. -/
theorem not_held_of_step (h : Inv w) (hstep : Step fromPanic w w') {i : ℕ}
    (hchannel : (w.loads i).channel ≠ none) (hheld : ¬ w.Held i) : ¬ w'.Held i :=
  fun ⟨t, ht⟩ => hheld ⟨t, (moves_of_step h hstep t).holds hchannel ht⟩

theorem not_held_of_left (h : Inv w) (hstep : Step fromPanic w w') {t i : ℕ} (hholds : w.Holds t i)
    (hleft : ¬ w'.Holds t i) : ¬ w'.Held i := by
  rintro ⟨u, hu⟩
  obtain ⟨-, events, hchannel, -⟩ := h.held_of_holds hholds
  have hu' := (moves_of_step h hstep u).holds (by simp [hchannel]) hu
  rw [h.single u t i hu' hholds] at hu
  exact hleft hu

theorem running_of_step (h : Inv w) (hstep : Step fromPanic w w') {t i : ℕ}
    (hrunning : (w.threads t).running = some i) :
    (w'.threads t).running = some i ∨ ¬ w'.Held i := by
  have hqueue := h.running t i hrunning
  obtain ⟨-, events, hchannel, -⟩ := h.held_of_holds (.inr hrunning)
  cases moves_of_step h hstep t with
  | stays heq | pushed _ _ heq | stops _ heq | dropped heq =>
    rw [heq]
    exact .inl hrunning
  | takes _ _ hnone => exact absurd (hnone.symm.trans hrunning) (by simp)
  | ends j stopping _ _ heq =>
    refine .inr (not_held_of_left h hstep (.inr hrunning) ?_)
    rw [Holds, heq]
    exact not_or.mpr ⟨hqueue, by simp⟩

/-- How far a request is from being taken: its place in the queue, and whether a load runs before
it. -/
def rank (w : World) (t i : ℕ) : ℕ :=
  2 * (w.threads t).queue.idxOf i + (w.threads t).running.toList.length

/-- A request stays in its queue until it is taken or dropped, and goes ahead whenever the thread
goes on. -/
theorem queue_of_step (h : Inv w) (hstep : Step fromPanic w w') {t i : ℕ}
    (hmem : i ∈ (w.threads t).queue) :
    (i ∈ (w'.threads t).queue ∧ (w'.rank t i < w.rank t i ∨
      w'.rank t i = w.rank t i ∧ (w'.threads t).running = (w.threads t).running)) ∨
    (w'.threads t).running = some i ∨ ¬ w'.Held i := by
  unfold rank
  cases moves_of_step h hstep t with
  | stays heq =>
    rw [heq]
    exact .inl ⟨hmem, .inr ⟨rfl, rfl⟩⟩
  | pushed j _ heq =>
    rw [heq]
    exact .inl ⟨List.mem_append_left _ hmem, .inr ⟨by rw [List.idxOf_append_of_mem hmem], rfl⟩⟩
  | takes j rest hrunning hqueue heq =>
    rw [heq, hrunning, hqueue]
    rw [hqueue] at hmem
    by_cases hji : j = i
    · exact .inr (.inl (congrArg some hji))
    · refine .inl ⟨(List.mem_cons.mp hmem).resolve_left fun hij => hji hij.symm, .inl ?_⟩
      rw [List.idxOf_cons_ne _ hji]
      simp
      omega
  | ends j stopping hrunning _ heq =>
    rw [heq, hrunning]
    exact .inl ⟨hmem, .inl (by simp)⟩
  | stops isClosed heq =>
    rw [heq]
    exact .inl ⟨hmem, .inr ⟨rfl, rfl⟩⟩
  | dropped heq =>
    refine .inr (.inr (not_held_of_left h hstep (.inl hmem) ?_))
    rw [Holds, heq]
    exact not_or.mpr ⟨List.not_mem_nil, fun hrunning => h.running t i hrunning hmem⟩

/-! ### What a step does to the events of a load -/

theorem loads_dropCancellation (w : World) (cancellation : Option ℕ) (i : ℕ) :
    ((w.dropCancellation cancellation).loads i).channel = (w.loads i).channel ∧
      ((w.dropCancellation cancellation).loads i).told = (w.loads i).told := by
  cases cancellation with
  | none => exact ⟨rfl, rfl⟩
  | some j =>
    by_cases hij : i = j
    · rw [World.dropCancellation, hij, modifyLoad_self]
      exact ⟨rfl, rfl⟩
    · rw [World.dropCancellation, modifyLoad_other w hij]
      exact ⟨rfl, rfl⟩

/-- **What one step does to the events of a load**: nothing, its caller is told of the next one, or
of an end because there is none, or a thread that has the request goes on. -/
theorem channel_of_step (hstep : Step fromPanic w w') {i : ℕ} (hi : i < w.started)
    {channel : Channel} (hchannel : (w.loads i).channel = some channel) :
    ((w'.loads i).channel = some channel ∧ (w'.loads i).told = (w.loads i).told) ∨
    (∃ event rest, channel.events = event :: rest ∧ (w'.loads i).channel =
      some ⟨rest, channel.isClosed⟩) ∨
    ((w'.loads i).channel = some channel ∧ (w'.loads i).ended = true) ∨
    (w.Held i ∧ (w'.loads i).channel ≠ none) := by
  have hother : ∀ {j : ℕ}, (w.loads j).channel = none → i ≠ j := fun hnone hij => by
    rw [← hij, hchannel] at hnone
    cases hnone
  have hsame : ∀ {load : Load}, load = w.loads i → load.channel = some channel ∧
      load.told = (w.loads i).told :=
    fun heq => ⟨(congrArg Load.channel heq).trans hchannel, congrArg Load.told heq⟩
  cases hstep with
  | refreshMailbox | refreshAccount =>
    refine .inl (hsame ?_)
    rw [World.startLoad]
    split
    · rfl
    · exact Function.update_of_ne (Nat.ne_of_lt hi) ..
  | update update =>
    refine .inl ?_
    rw [← hchannel]
    unfold World.applyAccountUpdate
    dsimp only
    split <;> exact loads_dropCancellation _ _ i
  | quit =>
    refine .inl ?_
    rw [← hchannel]
    exact loads_dropCancellation _ _ i
  | @accessGiven j _ hnone =>
    have hspawn : w.spawn.loads i = w.loads i ∨ w.Held i ∧
        w.spawn.loads i = (w.loads i).dropRequest := by
      unfold World.spawn
      cases w.worker with
      | none => exact .inl rfl
      | some t =>
        by_cases hmem : i ∈ (w.threads t).queue
        · exact .inr ⟨⟨t, .inl hmem⟩, if_pos hmem⟩
        · exact .inl (if_neg hmem)
    have hqueue : w.queue.2.loads i = w.loads i ∨ w.Held i ∧
        w.queue.2.loads i = (w.loads i).dropRequest := by
      unfold World.queue
      split
      · split
        · exact hspawn
        · exact .inl rfl
      · exact hspawn
    have hload : (w.workerStartLoad j).loads i = w.queue.2.loads i :=
      Function.update_of_ne (hother hnone) ..
    rw [hload]
    rcases hqueue with hqueue | ⟨hheld, hqueue⟩
    · exact .inl (hsame hqueue)
    · exact .inr (.inr (.inr ⟨hheld, by simp [hqueue, Load.dropRequest, hchannel]⟩))
  | @accessRefused j t _ hnone => exact .inl (hsame (Function.update_of_ne (hother hnone) ..))
  | @accessFailed j _ hnone | @accessCancelled j _ hnone =>
    exact .inl (hsame (Function.update_of_ne (hother hnone) ..))
  | @report j event rest closed _ _ hevents =>
    by_cases hij : i = j
    · subst hij
      obtain rfl : channel = ⟨event :: rest, closed⟩ :=
        Option.some.inj (hchannel.symm.trans hevents)
      exact .inr (.inl ⟨event, rest, rfl, by cases event <;> simp [World.onEvent]⟩)
    · refine .inl (hsame ?_)
      cases event <;> simp [World.onEvent, World.modifyLoad, hij]
  | @reportStopped j =>
    by_cases hij : i = j
    · subst hij
      refine .inr (.inr (.inl ⟨?_, ?_⟩)) <;> simp [World.onEvent, Load.ended, hchannel]
    · exact .inl (hsame (Function.update_of_ne hij ..))
  | take | unwindIdle | close | delete | writeFlag => exact .inl (hsame rfl)
  | @askStore t j hrunning =>
    unfold World.askStore
    dsimp only
    split
    · by_cases hij : i = j
      · subst hij
        exact .inr (.inr (.inr ⟨⟨t, .inr hrunning⟩, by simp [Load.send, hchannel]⟩))
      · exact .inl (hsame (Function.update_of_ne hij ..))
    · exact .inl (hsame rfl)
  | @finish t j hrunning =>
    rw [World.dropRunning]
    by_cases hij : i = j
    · subst hij
      refine .inr (.inr (.inr ⟨⟨t, .inr hrunning⟩, ?_⟩))
      simp [World.modifyThread, World.modifyLoad, Load.send, Load.dropRequest, hchannel]
    · exact .inl (hsame ((modifyLoad_other _ hij _).trans (modifyLoad_other _ hij _)))
  | @unwindRunning t j hrunning =>
    rw [World.dropRunning]
    by_cases hij : i = j
    · subst hij
      refine .inr (.inr (.inr ⟨⟨t, .inr hrunning⟩, ?_⟩))
      simp [World.modifyThread, World.modifyLoad, Load.dropRequest, hchannel]
    · exact .inl (hsame (modifyLoad_other _ hij _))

theorem channel_ne_none_of_step (hstep : Step fromPanic w w') {i : ℕ} (hi : i < w.started)
    (hchannel : (w.loads i).channel ≠ none) : (w'.loads i).channel ≠ none := by
  obtain ⟨channel, hsome⟩ := Option.ne_none_iff_exists'.mp hchannel
  rcases channel_of_step hstep hi hsome with ⟨hsame, -⟩ | ⟨event, rest, -, hrest⟩ | ⟨hsame,
    -⟩ | ⟨-, hne⟩
  · simp [hsame]
  · simp [hrest]
  · simp [hsame]
  · exact hne

/-- The load's request is gone; what it told is in its channel. -/
def Gone (w : World) (i : ℕ) : Prop :=
  ¬ w.Held i ∧ ∃ events, (w.loads i).channel = some ⟨events, true⟩

/-! ### Every load ends -/

end World

/-- The window's task has something to pass on: an event, or that the channel was closed without an
end. -/
def Load.Ready (load : Load) : Prop :=
  load.ended = false ∧ ∃ channel, load.channel = some channel ∧
  (channel.events ≠ [] ∨ channel.isClosed = true)

/-- The thread has something to do. -/
def Thread.Busy (thread : Thread) : Prop :=
  thread.stopping = false ∧ (thread.queue ≠ [] ∨ thread.running ≠ none)

namespace World

variable {unused : Load} {tables : Tables}
  {b : Behaviour (Step fromPanic) (World.start unused tables)}

/-- Every party goes on while it has something to do: the window's tasks pass on what waits, no load
runs for ever, and a thread takes the next request, or stops. -/
structure Fair (b : Behaviour (Step fromPanic) (World.start unused tables)) : Prop where
  /-- What waits is passed on. -/
  report : ∀ i told, b.LeadsTo (fun w => i < w.started ∧ (w.loads i).Ready ∧
    (w.loads i).told = told)
    fun w => (w.loads i).told ≠ told
  /-- A thread with something to do goes on, or stops. -/
  thread : ∀ t running, b.LeadsTo (fun w => (w.threads t).Busy ∧ (w.threads t).running = running)
    fun w => (w.threads t).running ≠ running ∨ (w.threads t).stopping = true

theorem inv_start (unused : Load) (tables : Tables) : Inv (World.start unused tables) where
  phase i hi := absurd hi (Nat.not_lt_zero i)
  started t i hholds := hholds.elim (fun hmem => by cases hmem) fun hrunning => by cases hrunning
  single t t' i hholds := hholds.elim (fun hmem => by cases hmem) fun hrunning => by cases hrunning
  nodup t := List.nodup_nil
  running t i hrunning := by cases hrunning
  stopping t hclosed := by cases hclosed
  stopped t hstopping := by cases hstopping
  unspawned t _ := rfl
  worker t hworker := by cases hworker

theorem inv_reached (h : ReflTransGen (Step fromPanic) (World.start unused tables) w) : Inv w :=
  invariant (inv_start unused tables) (fun _ _ => Inv.step) h

theorem inv_state (b : Behaviour (Step fromPanic) (World.start unused tables)) (n : ℕ) :
    Inv (b.state n) :=
  inv_reached (b.reachable n)

/-- **What a load told is passed on**, once its request is gone. -/
theorem gone_leadsTo (hfair : Fair b) (i : ℕ) :
    b.LeadsTo (fun w => i < w.started ∧ w.Gone i) fun w => (w.loads i).ended = true := by
  have hprogress : b.LeadsTo (fun w => i < w.started ∧ w.Gone i ∧ (w.loads i).ended = false)
      fun w => (w.loads i).ended = true := by
    refine Behaviour.LeadsTo.of_rank
      (fun w => ((w.loads i).channel.elim 0 fun channel => channel.events.length))
      (fun w => (w.loads i).told) (fun n w hn hstep => ?_) (fun n hn => ?_)
    · obtain ⟨hi, hgone, hended⟩ := hn
      obtain ⟨hheld, events, hchannel⟩ := hgone
      have hheld' := not_held_of_step (inv_state b n) hstep (i := i) (by simp [hchannel]) hheld
      by_cases hended' : (w.loads i).ended = true
      · exact .inr hended'
      have hi' := hi.trans_le (told_of_step hstep).1
      rcases channel_of_step hstep hi hchannel with ⟨hsame, htold⟩ | ⟨event, rest, rfl, hrest⟩ | ⟨-,
        hend⟩ | ⟨hhad, -⟩
      · exact .inl ⟨⟨hi', ⟨hheld', events, hsame⟩, Bool.of_not_eq_true hended'⟩,
          .inr ⟨by rw [hsame, hchannel], htold⟩⟩
      · exact .inl ⟨⟨hi', ⟨hheld', rest, hrest⟩, Bool.of_not_eq_true hended'⟩,
          .inl (by simp [hchannel, hrest])⟩
      · exact .inr hend
      · exact absurd hhad hheld
    · obtain ⟨hi, ⟨-, events, hchannel⟩, hended⟩ := hn
      obtain ⟨m, hm, htold⟩ := hfair.report i _ n ⟨hi, ⟨hended, _, hchannel, .inr rfl⟩, rfl⟩
      exact ⟨m, hm, .inr htold⟩
  intro n ⟨hi, hgone⟩
  cases hended : ((b.state n).loads i).ended with
  | true => exact ⟨n, le_rfl, hended⟩
  | false => exact hprogress n ⟨hi, hgone, hended⟩

/-- **No load runs for ever.** -/
theorem running_leadsTo (hfair : Fair b) (t i : ℕ) :
    b.LeadsTo (fun w => (w.threads t).running = some i) fun w => ¬ w.Held i := by
  refine Behaviour.LeadsTo.of_rank (fun _ => 0) (fun w => (w.threads t).running)
    (fun n w hrunning hstep => ?_)
    (fun n hrunning => ?_)
  · rcases running_of_step (inv_state b n) hstep hrunning with hrunning' | hheld
    · exact .inl ⟨hrunning', .inr ⟨rfl, hrunning'.trans hrunning.symm⟩⟩
    · exact .inr hheld
  · have hstopping : ((b.state n).threads t).stopping = false := by
      by_contra hstopping
      rw [(inv_state b n).stopped t (Bool.of_not_eq_false hstopping)] at hrunning
      cases hrunning
    obtain ⟨m, hm, hgone | hstopped⟩ :=
      hfair.thread t _ n ⟨⟨hstopping, .inr (by simp [hrunning])⟩, rfl⟩
    · exact ⟨m, hm, .inr hgone⟩
    · have hnone := (inv_state b m).stopped t hstopped
      exact ⟨m, hm, .inr (by rw [hnone, hrunning]; simp)⟩

/-- **A request is taken or dropped**, unless its thread stops. -/
theorem queue_leadsTo (hfair : Fair b) (t i : ℕ) :
    b.LeadsTo (fun w => i ∈ (w.threads t).queue ∧ (w.threads t).stopping = false)
      fun w => (w.threads t).running = some i ∨ ¬ w.Held i ∨ i ∈ (w.threads t).queue ∧
        (w.threads t).stopping = true := by
  refine Behaviour.LeadsTo.of_rank (fun w => w.rank t i)
    (fun w => ((w.threads t).running, (w.threads t).stopping))
    (fun n w hn hstep => ?_) (fun n hn => ?_)
  · obtain ⟨hmem, hstopping⟩ := hn
    rcases queue_of_step (inv_state b n) hstep hmem with ⟨hmem', hrank⟩ | hrunning | hheld
    · cases hstopping' : (w.threads t).stopping with
      | false => exact .inl ⟨⟨hmem', rfl⟩, hrank.imp_right fun h => ⟨h.1, by rw [h.2, hstopping]⟩⟩
      | true => exact .inr (.inr (.inr ⟨hmem', rfl⟩))
    · exact .inr (.inl hrunning)
    · exact .inr (.inr (.inl hheld))
  · obtain ⟨hmem, hstopping⟩ := hn
    obtain ⟨m, hm, hchanged⟩ :=
      hfair.thread t _ n ⟨⟨hstopping, .inl (List.ne_nil_of_mem hmem)⟩, rfl⟩
    refine ⟨m, hm, .inr fun heq => ?_⟩
    rw [Prod.mk.injEq] at heq
    rcases hchanged with hrunning | hstopped
    · exact hrunning heq.1
    · exact Bool.false_ne_true (hstopping.symm.trans (heq.2.symm.trans hstopped))

theorem sent_state {n m : ℕ} (hm : n ≤ m) {i : ℕ} (hi : i < (b.state n).started)
    (hchannel : ((b.state n).loads i).channel ≠ none) :
    i < (b.state m).started ∧ ((b.state m).loads i).channel ≠ none := by
  refine invariant (I := fun w => i < w.started ∧ (w.loads i).channel ≠ none) ⟨hi, hchannel⟩ ?_
    (b.reaches hm)
  exact fun w w' hw hstep =>
    ⟨hw.1.trans_le (told_of_step hstep).1, channel_ne_none_of_step hstep hw.1 hw.2⟩

/-- The request is in the queue of a thread that takes nothing more. -/
def Stranded (w : World) (i : ℕ) : Prop :=
  ∃ t, i ∈ (w.threads t).queue ∧ (w.threads t).stopping = true

/-- **A load ends** once the worker has got its request, unless the request is stranded for good. -/
theorem load_ends (hfair : Fair b) {n i : ℕ} (hi : i < (b.state n).started)
    (hchannel : ((b.state n).loads i).channel ≠ none) :
    (∃ m ≥ n, ((b.state m).loads i).ended = true) ∨ ∃ m ≥ n, ∀ k ≥ m, (b.state k).Stranded i := by
  -- Once no thread has the request, its events are passed on.
  have hends : ∀ m ≥ n, ¬ (b.state m).Held i → ∃ k ≥ n, ((b.state k).loads i).ended = true := by
    intro m hm hheld
    obtain ⟨him, hchannelm⟩ := sent_state hm hi hchannel
    have hgone : (b.state m).Gone i := by
      refine ⟨hheld, ?_⟩
      cases (inv_state b m).phase i him with
      | access hnone | denied _ hnone => exact absurd hnone hchannelm
      | held _ _ _ _ hheld' => exact absurd hheld' hheld
      | waiting events hevents => exact ⟨events, hevents⟩
      | ended _ _ hevents => exact ⟨[], hevents⟩
    obtain ⟨k, hk, hended⟩ := gone_leadsTo hfair i m ⟨him, hgone⟩
    exact ⟨k, Nat.le_trans hm hk, hended⟩
  have hrunning : ∀ m ≥ n, ∀ t, ((b.state m).threads t).running = some i →
      ∃ k ≥ n, ((b.state k).loads i).ended = true := by
    intro m hm t hrun
    obtain ⟨k, hk, hheld⟩ := running_leadsTo hfair t i m hrun
    exact hends k (Nat.le_trans hm hk) hheld
  -- A request in the queue of a thread that stops stays there, or is dropped.
  have hstranded : ∀ m ≥ n, ∀ t, i ∈ ((b.state m).threads t).queue →
    ((b.state m).threads t).stopping = true →
      (∃ k ≥ n, ((b.state k).loads i).ended = true) ∨ ∃ m ≥ n, ∀ k ≥ m, (b.state k).Stranded i := by
    intro m hm t hmem hstopping
    have hstays : ∀ k w, (i ∈ ((b.state k).threads t).queue ∧
      ((b.state k).threads t).stopping = true) →
        Step fromPanic (b.state k) w → (i ∈ (w.threads t).queue ∧ (w.threads t).stopping = true) ∨
        ¬ w.Held i := by
      rintro k w ⟨hmem, hstopping⟩ hstep
      have hstopping' := (moves_of_step (inv_state b k) hstep t).stopping hstopping
      rcases queue_of_step (inv_state b k) hstep hmem with ⟨hmem', -⟩ | hrun | hheld
      · exact .inl ⟨hmem', hstopping'⟩
      · exact absurd (((inv_state b k).step hstep).stopped t hstopping') (by simp [hrun])
      · exact .inr hheld
    rcases b.always_or (P := fun w => i ∈ (w.threads t).queue ∧ (w.threads t).stopping = true)
      (Q := fun w => ¬ w.Held i) hstays ⟨hmem, hstopping⟩ with halways | ⟨k, hk, hheld⟩
    · exact .inr ⟨m, hm, fun k hk => ⟨t, halways k hk⟩⟩
    · exact .inl (hends k (Nat.le_trans hm hk) hheld)
  by_cases hheld : (b.state n).Held i
  · obtain ⟨t, hmem | hrun⟩ := hheld
    · cases hstopping : ((b.state n).threads t).stopping with
      | true => exact hstranded n le_rfl t hmem hstopping
      | false =>
        obtain ⟨m, hm, hrun | hheld | ⟨hmem', hstopping'⟩⟩ :=
          queue_leadsTo hfair t i n ⟨hmem, hstopping⟩
        · exact .inl (hrunning m hm t hrun)
        · exact .inl (hends m hm hheld)
        · exact hstranded m hm t hmem' hstopping'
    · exact .inl (hrunning n le_rfl t hrun)
  · exact .inl (hends n le_rfl hheld)

end World
end Mailbag.Loads
