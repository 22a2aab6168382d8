import Mailbag.OnlineAccounts.Observer

/-!
# No change of the account list is missed

What holds of the observer in every state, whatever the order of signals, Retry requests,
answers and the end.

## What is proved

* `Inv.step` — every step keeps the observer's invariant, so every state has it.
* `changes_read` — one read at a time; every signal and every Retry is followed by a read
  that starts after it and ends in a published update, unless the observer is stopped; a
  Retry is pending only while such a read is in flight or scheduled; nothing after the end.
* `retry_then_stop` — a Retry that is followed by the end has no such read.
-/

namespace Mailbag.OnlineAccounts

open Relation Interaction

variable {α ε : Type}

/-! ### Reading the log -/

/-- Whether a request was received since the read started, going back from now. -/
def requestedSince (read : ℕ) : List (Event α ε) → Bool
  | [] => false
  | .requested :: _ => true
  | .started read' :: before => read' ≠ read && requestedSince read before
  | .published .. :: before => requestedSince read before
  | .stopped :: before => requestedSince read before

/-- Whether a request was received that no read's start came after. -/
def waiting : List (Event α ε) → Bool
  | [] => false
  | .requested :: _ => true
  | .started _ :: _ => false
  | .published .. :: before => waiting before
  | .stopped :: before => waiting before

/-- Whether the read started and ended in no published update. -/
def unended (read : ℕ) : List (Event α ε) → Bool
  | [] => false
  | .requested :: before => unended read before
  | .started read' :: before => read' = read || unended read before
  | .published read' _ :: before => read' ≠ some read && unended read before
  | .stopped :: before => unended read before

/-- What holds when a read starts and when an update is published. -/
def InTime : Event α ε → List (Event α ε) → Prop
  | .started _, before => .stopped ∉ before
  | .published read update, before =>
    .stopped ∉ before ∧ ∀ c, read = some c → requestedSince c before = false →
    update.retryPending = false
  | .requested, _ => True
  | .stopped, _ => True

/-- The first call of a read: connecting comes first. -/
def Operation.of : Bool → Operation
  | true => .readAccounts
  | false => .connect

namespace World

/-- What holds of the observer in every state. -/
structure Inv (w : World α ε) : Prop where
  /-- At most one call is outstanding. -/
  single : w.outstanding.length ≤ 1
  /-- Before the end it is the call of the read in flight. -/
  flight : w.stopped = false → w.outstanding.map (·.1) = w.readCancellable.toList
  /-- It asks for the accounts once the observer is connected. -/
  bus : w.stopped = false → ∀ call ∈ w.outstanding, call.2 = .of w.connection
  /-- After the end no read is in flight, and no signal arrives. -/
  ended : w.stopped = true → w.readCancellable = none ∧ w.subscriptions = []
  /-- The read in flight is the newest. -/
  newest : ∀ c, w.readCancellable = some c → c + 1 = w.cancellables
  /-- Reads are numbered below the next one. -/
  numbered : ∀ c, .started c ∈ w.log → c < w.cancellables
  /-- The read in flight has started. -/
  begun : ∀ c, w.readCancellable = some c → .started c ∈ w.log
  /-- Another read is scheduled when a request was received since the one in flight started. -/
  scheduled : ∀ c, w.readCancellable = some c → requestedSince c w.log = w.refetchNeeded
  /-- Before the end, no other request waits. -/
  waits : w.stopped = false → waiting w.log = w.refetchNeeded
  /-- Nothing is scheduled without a read in flight. -/
  unscheduled : w.stopped = false → w.readCancellable = none → w.refetchNeeded = false
  /-- A pending Retry has a read in flight. -/
  pending : w.stopped = false → w.update.retryPending = true → w.readCancellable.isSome = true
  /-- A read that has not ended is the one in flight. -/
  unended : w.stopped = false → ∀ c, unended c w.log = true → w.readCancellable = some c
  /-- Reads start and updates are published before the end; an update of a read without a request
  since tells of no Retry. -/
  inTime : Log.Every InTime w.log
  /-- The end is remembered. -/
  remembered : .stopped ∈ w.log → w.stopped = true

variable {w : World α ε}

/-! ### What the operations do -/

theorem requestRead_reading (hstopped : w.stopped = false) {c : ℕ}
    (hread : w.readCancellable = some c) : w.requestRead = { w with refetchNeeded := true } := by
  simp [requestRead, hstopped, hread]

theorem requestRead_idle (hstopped : w.stopped = false) (hread : w.readCancellable = none) :
    w.requestRead =
      { w with
        cancellables := w.cancellables + 1
        readCancellable := some w.cancellables
        log := .started w.cancellables :: w.log
        outstanding := (w.cancellables, .of w.connection) :: w.outstanding } := by
  cases hconnection : w.connection with
  | true => simp [requestRead, hstopped, hread, hconnection, readAccounts, Operation.of]
  | false => simp [requestRead, hstopped, hread, hconnection, connectToBus, Operation.of]

theorem receive_update (update : AccountUpdate α ε) :
    ({ w with update := update } : World α ε).receive = { w.receive with update := update } := by
  rw [World.receive, World.receive, requestRead, requestRead]
  split
  · rfl
  · split
    · rfl
    · dsimp only
      split <;> rfl

/-- Before the end, what is outstanding is the call of the read in flight. -/
theorem Inv.outstanding_eq (h : Inv w) (hstopped : w.stopped = false) {call : ℕ × Operation}
    (hcall : call ∈ w.outstanding) : w.outstanding = [call] ∧ w.readCancellable = some call.1 := by
  have hsingle : w.outstanding = [call] := by
    obtain ⟨x, hx⟩ := List.length_eq_one_iff.mp
      (le_antisymm h.single (List.length_pos_of_mem hcall))
    rw [hx] at hcall ⊢
    rw [List.mem_singleton.mp hcall]
  refine ⟨hsingle, ?_⟩
  have hflight := h.flight hstopped
  rw [hsingle] at hflight
  cases hread : w.readCancellable with
  | none =>
    rw [hread] at hflight
    cases hflight
  | some c =>
    rw [hread] at hflight
    exact congrArg some (List.cons.inj hflight).1.symm

/-- Before the end nothing says that the observer was stopped. -/
theorem Inv.not_mem_stopped (h : Inv w) (hstopped : w.stopped = false) :
    .stopped ∉ w.log := fun hmem =>
  Bool.false_ne_true (hstopped.symm.trans (h.remembered hmem))

/-! ### Every step keeps the invariant -/

theorem Inv.update (h : Inv w) (hread : w.readCancellable.isSome = true)
    (update : AccountUpdate α ε) : Inv { w with update := update } :=
  { h with pending := fun _ _ => hread }

theorem Inv.receive (h : Inv w) (hstopped : w.stopped = false) :
    Inv w.receive ∧ w.receive.readCancellable.isSome = true ∧ w.receive.stopped = false := by
  have hnot := h.not_mem_stopped hstopped
  cases hread : w.readCancellable with
  | some c =>
    rw [World.receive,
      requestRead_reading (w := { w with log := .requested :: w.log }) hstopped hread]
    refine ⟨?_, by simp [hread], hstopped⟩
    refine { h with
      numbered := fun c' hc' => h.numbered c' (by simpa using hc')
      begun := fun c' hc' => List.mem_cons_of_mem _ (h.begun c' hc')
      scheduled := fun _ _ => rfl
      waits := fun _ => rfl
      unscheduled := fun _ hnone => absurd (hread.symm.trans hnone) (by simp)
      unended := fun _ c' hc' => h.unended hstopped c' hc'
      inTime := ⟨trivial, h.inTime⟩
      remembered := fun hmem => h.remembered (by simpa using hmem) }
  | none =>
    rw [World.receive, requestRead_idle (w := { w with log := .requested :: w.log }) hstopped hread]
    have hflight := h.flight hstopped
    rw [hread] at hflight
    have hempty : w.outstanding = [] := List.map_eq_nil_iff.mp hflight
    have hrefetch := h.unscheduled hstopped hread
    refine ⟨{ single := by simp [hempty]
              flight := fun _ => by simp [hempty]
              bus := fun _ => by simp [hempty]
              ended := fun hend => absurd (hstopped.symm.trans hend) Bool.false_ne_true
              newest := fun c hc => congrArg (· + 1) (Option.some.inj hc).symm
              numbered := fun c hc => ?_
              begun := fun c hc => by simp_all
              scheduled := fun c hc => ?_
              waits := fun _ => hrefetch.symm
              unscheduled := fun _ hnone => (nomatch hnone)
              pending := fun _ _ => rfl
              unended := fun _ c hc => ?_
              inTime := ⟨by simpa [InTime] using hnot, trivial, h.inTime⟩
              remembered := fun hmem => h.remembered (by simpa using hmem) }, rfl, hstopped⟩
    · simp only [List.mem_cons, reduceCtorEq, false_or, Event.started.injEq] at hc
      rcases hc with rfl | hc
      · exact Nat.lt_succ_self _
      · exact (h.numbered c hc).trans (Nat.lt_succ_self _)
    · cases hc
      simp [requestedSince, hrefetch]
    · simp only [OnlineAccounts.unended, Bool.or_eq_true, decide_eq_true_eq] at hc
      rcases hc with rfl | hc
      · rfl
      · exact absurd (hread.symm.trans (h.unended hstopped c hc)) (by simp)

theorem Inv.publishUpdate (h : Inv w) (hstopped : w.stopped = false) : Inv (w.publishUpdate none) :=
  { h with
    numbered := fun c hc => h.numbered c (by simpa [World.publishUpdate] using hc)
    begun := fun c hc => List.mem_cons_of_mem _ (h.begun c hc)
    unended := fun _ c hc => h.unended hstopped c
      (by simpa [World.publishUpdate, OnlineAccounts.unended] using hc)
    inTime := ⟨⟨h.not_mem_stopped hstopped, by simp⟩, h.inTime⟩
    remembered := fun hmem => h.remembered (by simpa [World.publishUpdate] using hmem) }

theorem Inv.refreshAccounts (h : Inv w) : Inv w.refreshAccounts := by
  rw [World.refreshAccounts]
  split
  · exact h
  · next hstopped =>
    rw [Bool.not_eq_true] at hstopped
    obtain ⟨hreceive, hread, hstopped'⟩ := h.receive hstopped
    have hasked := hreceive.update hread { w.update with retryPending := true }
    rw [receive_update]
    dsimp only
    split
    · exact hasked
    · exact hasked.publishUpdate hstopped'

/-- The read in flight ends, and no other is scheduled. -/
theorem Inv.finishRead_unscheduled (h : Inv w) (hstopped : w.stopped = false) {call : ℕ × Operation}
    (hcall : call ∈ w.outstanding) (hrefetch : w.refetchNeeded = false) (result : Except ε α) :
    Inv ((w.answered call).finishRead result) := by
  obtain ⟨hsingle, hread⟩ := h.outstanding_eq hstopped hcall
  have hlog : requestedSince call.1 w.log = false := (h.scheduled _ hread).trans hrefetch
  have heq : (w.answered call).finishRead result =
      { w with
        outstanding := []
        readCancellable := none
        update := w.updated result
        log := .published (some call.1) (w.updated result) :: w.log } := by
    simp [World.finishRead, answered, World.publishUpdate, updated, hrefetch, hsingle, hread]
  have hretry : (w.updated result).retryPending = false := by simp [updated, hrefetch]
  rw [heq]
  refine { single := Nat.zero_le _
           flight := fun _ => rfl
           bus := fun _ => by simp
           ended := fun hend => absurd (hstopped.symm.trans hend) Bool.false_ne_true
           newest := fun _ hc => (nomatch hc)
           numbered := fun c hc => h.numbered c (by simpa using hc)
           begun := fun _ hc => (nomatch hc)
           scheduled := fun _ hc => (nomatch hc)
           waits := fun _ => h.waits hstopped
           unscheduled := fun _ _ => hrefetch
           pending := fun _ hpending => absurd (hretry.symm.trans hpending) Bool.false_ne_true
           unended := fun _ c hc => ?_
           inTime := ⟨⟨h.not_mem_stopped hstopped, fun c hc hsince => hretry⟩, h.inTime⟩
           remembered := fun hmem => h.remembered (by simpa using hmem) }
  simp only [OnlineAccounts.unended, Bool.and_eq_true, decide_eq_true_eq] at hc
  exact absurd (hread.symm.trans (h.unended hstopped c hc.2)) hc.1

/-- The read in flight ends, and the one that is scheduled starts. -/
theorem Inv.finishRead_scheduled (h : Inv w) (hstopped : w.stopped = false) {call : ℕ × Operation}
    (hcall : call ∈ w.outstanding) (hrefetch : w.refetchNeeded = true) (result : Except ε α) :
    Inv ((w.answered call).finishRead result) := by
  obtain ⟨hsingle, hread⟩ := h.outstanding_eq hstopped hcall
  have hlog : requestedSince call.1 w.log = true := (h.scheduled _ hread).trans hrefetch
  have hnewest := h.newest _ hread
  have hnot := h.not_mem_stopped hstopped
  have hstart := requestRead_idle
    (w := { w with
          outstanding := []
          readCancellable := none
          update := w.updated result
          refetchNeeded := false })
    hstopped rfl
  have heq : (w.answered call).finishRead result =
      { w with
        outstanding := [(w.cancellables, .of w.connection)]
        readCancellable := some w.cancellables
        cancellables := w.cancellables + 1
        refetchNeeded := false
        update := w.updated result
        log := .published (some call.1) (w.updated result) :: .started w.cancellables ::
            w.log } := by
    have hsettled : (w.answered call).outstanding = [] := by simp [answered, hsingle]
    have hrefetch' : (w.answered call).refetchNeeded = true := hrefetch
    rw [World.finishRead, if_pos hrefetch', hsettled]
    show (World.requestRead _).publishUpdate w.readCancellable = _
    rw [hread]
    exact congrArg (World.publishUpdate · (some call.1)) hstart
  rw [heq]
  refine { single := le_rfl
           flight := fun _ => rfl
           bus := fun _ => by simp
           ended := fun hend => absurd (hstopped.symm.trans hend) Bool.false_ne_true
           newest := fun c hc => congrArg (· + 1) (Option.some.inj hc).symm
           numbered := fun c hc => ?_
           begun := fun c hc => by simp_all
           scheduled := fun c hc => ?_
           waits := fun _ => rfl
           unscheduled := fun _ hnone => (nomatch hnone)
           pending := fun _ _ => rfl
           unended := fun _ c hc => ?_
           inTime := ⟨⟨by simpa using hnot, fun c hc hsince => ?_⟩, hnot, h.inTime⟩
           remembered := fun hmem => h.remembered (by simpa using hmem) }
  · rcases List.mem_cons.mp hc with hc | hc
    · cases hc
    · rcases List.mem_cons.mp hc with hc | hc
      · cases hc
        exact Nat.lt_succ_self _
      · exact (h.numbered c hc).trans (Nat.lt_succ_self _)
  · cases hc
    simp [requestedSince]
  · simp only [OnlineAccounts.unended, Bool.and_eq_true, Bool.or_eq_true, decide_eq_true_eq] at hc
    obtain ⟨hne, rfl | hc⟩ := hc
    · rfl
    · exact absurd (hread.symm.trans (h.unended hstopped c hc)) hne
  · -- The read that ended is not the one that starts, so the request since it is still seen.
    cases hc
    rw [requestedSince, hlog, Bool.and_true, decide_eq_false_iff_not, not_not] at hsince
    omega

theorem Inv.finishRead (h : Inv w) (hstopped : w.stopped = false) {call : ℕ × Operation}
    (hcall : call ∈ w.outstanding) (result : Except ε α) :
    Inv ((w.answered call).finishRead result) := by
  cases hrefetch : w.refetchNeeded with
  | false => exact h.finishRead_unscheduled hstopped hcall hrefetch result
  | true => exact h.finishRead_scheduled hstopped hcall hrefetch result

theorem Inv.stop (h : Inv w) : Inv w.stop :=
  { single := h.single
    flight := fun hend => (nomatch hend)
    bus := fun hend => (nomatch hend)
    ended := fun _ => ⟨rfl, rfl⟩
    newest := fun _ hc => (nomatch hc)
    numbered := fun c hc => h.numbered c (by simpa [World.stop] using hc)
    begun := fun _ hc => (nomatch hc)
    scheduled := fun _ hc => (nomatch hc)
    waits := fun hend => (nomatch hend)
    unscheduled := fun hend => (nomatch hend)
    pending := fun hend => (nomatch hend)
    unended := fun hend => (nomatch hend)
    inTime := ⟨trivial, h.inTime⟩
    remembered := fun _ => rfl }

theorem Inv.answered (h : Inv w) (hstopped : w.stopped = true) (call : ℕ × Operation) :
    Inv (w.answered call) :=
  { h with
    single := (List.length_erase_le).trans h.single
    flight := fun hend => absurd (hend.symm.trans hstopped) Bool.false_ne_true
    bus := fun hend => absurd (hend.symm.trans hstopped) Bool.false_ne_true }

/-- The session bus answers: the accounts are asked for. -/
theorem Inv.connected (h : Inv w) (hstopped : w.stopped = false) {c : ℕ}
    (hcall : (c, .connect) ∈ w.outstanding) :
    (World.answered w (c, .connect)).connected (.ok () : Except ε Unit) =
        some { w with
          outstanding := [(c, .readAccounts)]
          subscriptions := w.subscriptions ++ accountChangeSignals
          connection := true } ∧
      Inv { w with
        outstanding := [(c, .readAccounts)]
        subscriptions := w.subscriptions ++ accountChangeSignals
        connection := true } := by
  obtain ⟨hsingle, hread⟩ := h.outstanding_eq hstopped hcall
  refine ⟨by simp [World.connected, World.answered, subscribeToChanges, readAccounts, hstopped,
    hread, hsingle], ?_⟩
  exact { h with
    single := le_rfl
    flight := fun _ => by simp [hread]
    bus := fun _ => by simp [Operation.of]
    ended := fun hend => absurd (hstopped.symm.trans hend) Bool.false_ne_true }

/-- Every step keeps the invariant. -/
theorem Inv.step {w w' : World α ε} (h : Inv w) (hstep : Step w w') : Inv w' := by
  cases hstep with
  | @signal signal objectPath hmem =>
    rw [signalled]
    split
    · refine (h.receive ?_).1
      -- A stopped observer is subscribed to nothing.
      by_contra hstopped
      rw [(h.ended (Bool.of_not_eq_false hstopped)).2] at hmem
      cases hmem
    · exact h
  | refresh => exact h.refreshAccounts
  | stop => exact h.stop
  | @connected _ c result hcall hconnected =>
    cases hstopped : w.stopped with
    | true =>
      have hstopped' : (w.answered (c, .connect)).stopped = true := hstopped
      unfold World.connected at hconnected
      rw [if_pos hstopped'] at hconnected
      cases hconnected
      exact h.answered hstopped _
    | false =>
      cases result with
      | ok =>
        obtain ⟨heq, hinv⟩ := h.connected hstopped hcall
        rw [heq] at hconnected
        cases hconnected
        exact hinv
      | error error =>
        simp [World.connected, World.answered, hstopped] at hconnected
        exact hconnected ▸ h.finishRead hstopped hcall (.error error)
  | @accountsRead c result hcall =>
    rw [World.accountsRead]
    cases hstopped : w.stopped with
    | true =>
      rw [if_pos (by exact hstopped)]
      exact h.answered hstopped _
    | false =>
      rw [if_neg (by simpa [World.answered] using hstopped)]
      exact h.finishRead hstopped hcall result

theorem inv_start (noAccounts : α) : Inv (start noAccounts : World α ε) := by
  rw [start, requestRead_idle rfl rfl]
  refine { single := le_rfl
           flight := fun _ => rfl
           bus := fun _ => by simp
           ended := fun hend => (nomatch hend)
           newest := fun c hc => congrArg (· + 1) (Option.some.inj hc).symm
           numbered := fun c hc => ?_
           begun := fun c hc => by simp_all
           scheduled := fun c hc => ?_
           waits := fun _ => rfl
           unscheduled := fun _ hnone => (nomatch hnone)
           pending := fun _ _ => rfl
           unended := fun _ c hc => ?_
           inTime := ⟨List.not_mem_nil, trivial⟩
           remembered := fun hmem => by simp at hmem }
  · simp only [List.mem_singleton, Event.started.injEq] at hc
    exact hc ▸ Nat.lt_succ_self 0
  · cases hc
    rfl
  · simp only [OnlineAccounts.unended, Bool.or_false, decide_eq_true_eq] at hc
    exact hc ▸ rfl

theorem inv_of_reachable {noAccounts : α} {w : World α ε}
    (h : ReflTransGen Step (start noAccounts) w) : Inv w :=
  invariant (inv_start noAccounts) (fun _ _ => Inv.step) h

/-! ### What a later state keeps -/

/-- What every later state keeps. -/
structure Later (w w' : World α ε) : Prop where
  /-- What happened. -/
  log : w.log <:+ w'.log
  /-- The end. -/
  stopped : w.stopped = true → w'.stopped = true
  /-- The numbers given. -/
  cancellables : w.cancellables ≤ w'.cancellables
  /-- The connection, until the end. -/
  connection : w.connection = true → w'.stopped = false → w'.connection = true

theorem Later.refl (w : World α ε) : Later w w := ⟨List.suffix_rfl, id, le_rfl, fun h _ => h⟩

theorem Later.trans {w w' w'' : World α ε} (h : Later w w') (h' : Later w' w'') : Later w w'' := by
  refine ⟨h.log.trans h'.log, fun hend => h'.stopped (h.stopped hend),
    h.cancellables.trans h'.cancellables,
    fun hconnection hstopped => h'.connection (h.connection hconnection ?_) hstopped⟩
  cases hstopped' : w'.stopped with
  | false => rfl
  | true => exact (h'.stopped hstopped').symm.trans hstopped

theorem later_requestRead (w : World α ε) : Later w w.requestRead := by
  cases hstopped : w.stopped with
  | true =>
    rw [requestRead, if_pos hstopped]
    exact .refl w
  | false =>
    cases hread : w.readCancellable with
    | some c =>
      rw [requestRead_reading hstopped hread]
      exact ⟨List.suffix_rfl, id, le_rfl, fun h _ => h⟩
    | none =>
      rw [requestRead_idle hstopped hread]
      exact ⟨List.suffix_cons _ _, id, Nat.le_succ _, fun h _ => h⟩

theorem later_receive (w : World α ε) : Later w w.receive := by
  have hlogged : Later w { w with log := .requested :: w.log } :=
    ⟨List.suffix_cons _ _, id, le_rfl, fun h _ => h⟩
  exact hlogged.trans (later_requestRead _)

theorem later_publishUpdate (w : World α ε) (read : Option ℕ) : Later w (w.publishUpdate read) :=
  ⟨List.suffix_cons _ _, id, le_rfl, fun h _ => h⟩

theorem later_finishRead (w : World α ε) (result : Except ε α) : Later w (w.finishRead result) := by
  have hsettled : Later w { w with
        readCancellable := none
        update := w.updated result
        refetchNeeded := false } :=
    ⟨List.suffix_rfl, id, le_rfl, fun h _ => h⟩
  rw [World.finishRead]
  split
  · exact (hsettled.trans (later_requestRead _)).trans (later_publishUpdate _ _)
  · exact hsettled.trans (later_publishUpdate _ _)

theorem later_answered (w : World α ε) (call : ℕ × Operation) : Later w (w.answered call) :=
  ⟨List.suffix_rfl, id, le_rfl, fun h _ => h⟩

theorem later_of_step {w w' : World α ε} (h : Step w w') : Later w w' := by
  cases h with
  | signal =>
    rw [signalled]
    split
    · exact later_receive w
    · exact .refl w
  | refresh =>
    rw [World.refreshAccounts]
    split
    · exact .refl w
    · have hasked : Later w ({ w with update := { w.update with retryPending := true } } : World α
          ε).receive :=
        receive_update (w := w) _ ▸ ⟨(later_receive w).log, (later_receive w).stopped,
          (later_receive w).cancellables,
          (later_receive w).connection⟩
      dsimp only
      split
      · exact hasked
      · exact hasked.trans (later_publishUpdate _ _)
  | stop => exact ⟨List.suffix_cons _ _, fun _ => rfl, le_rfl, fun _ hstopped => (nomatch hstopped)⟩
  | @connected _ c result hcall hconnected =>
    refine (later_answered w (c, .connect)).trans ?_
    unfold World.connected at hconnected
    split at hconnected
    · cases hconnected
      exact .refl _
    · split at hconnected
      · obtain ⟨c', -, rfl⟩ := Option.map_eq_some_iff.mp hconnected
        exact ⟨List.suffix_rfl, id, le_rfl, fun _ _ => rfl⟩
      · cases hconnected
        exact later_finishRead _ _
  | @accountsRead c result hcall =>
    refine (later_answered w (c, .readAccounts)).trans ?_
    rw [World.accountsRead]
    split
    · exact .refl _
    · exact later_finishRead _ _

theorem later_of_reaches {w w' : World α ε} (h : ReflTransGen Step w w') : Later w w' :=
  invariant (Later.refl w) (fun _ _ ha hstep => ha.trans (later_of_step hstep)) h

end World

/-! ### What must happen -/

/-- A request is followed by a read's start, unless it waits for one. -/
theorem started_or_waiting {log later before : List (Event α ε)}
    (hlog : log = later ++ .requested :: before) :
    (∃ c, .started c ∈ later) ∨ waiting log = true := by
  induction log generalizing later with
  | nil => cases later <;> cases hlog
  | cons e log ih =>
    rcases cons_eq_append_cons_iff.mp hlog with ⟨-, rfl, -⟩ | ⟨rest, rfl, hrest⟩
    · exact .inr rfl
    · cases e with
      | requested => exact .inr rfl
      | started c => exact .inl ⟨c, List.mem_cons_self⟩
      | published | stopped =>
        exact (ih hrest).imp_left fun ⟨c, hc⟩ => ⟨c, List.mem_cons_of_mem _ hc⟩

/-- A read with no request since it started started after every request. -/
theorem started_of_requestedSince {read : ℕ} {log later before : List (Event α ε)}
    (h : requestedSince read log = false) (hlog : log = later ++ .requested :: before) :
    .started read ∈ later := by
  induction log generalizing later with
  | nil => cases later <;> cases hlog
  | cons e log ih =>
    rcases cons_eq_append_cons_iff.mp hlog with ⟨-, rfl, -⟩ | ⟨rest, rfl, hrest⟩
    · cases h
    · cases e with
      | requested => cases h
      | started read' =>
        by_cases heq : read' = read
        · exact heq ▸ List.mem_cons_self
        · exact List.mem_cons_of_mem _ (ih (by simpa [requestedSince, heq] using h) hrest)
      | published | stopped => exact List.mem_cons_of_mem _ (ih h hrest)

/-- A read that started and is no longer unended ended in a published update. -/
theorem published_of_ended {read : ℕ} {log later before : List (Event α ε)}
    (h : unended read log = false) (hlog : log = later ++ .started read :: before) :
    ∃ u, .published (some read) u ∈ later := by
  induction log generalizing later with
  | nil => cases later <;> cases hlog
  | cons e log ih =>
    rcases cons_eq_append_cons_iff.mp hlog with ⟨-, rfl, -⟩ | ⟨rest, rfl, hrest⟩
    · simp [unended] at h
    · have hlift : (∃ u, .published (some read) u ∈ rest) →
          ∃ u, .published (some read) u ∈ e :: rest :=
        fun ⟨u, hu⟩ => ⟨u, List.mem_cons_of_mem _ hu⟩
      cases e with
      | requested | stopped => exact hlift (ih h hrest)
      | started read' =>
        simp only [unended, Bool.or_eq_false_iff] at h
        exact hlift (ih h.2 hrest)
      | published read' u =>
        by_cases heq : read' = some read
        · exact ⟨u, heq ▸ List.mem_cons_self⟩
        · exact hlift (ih (by simpa [unended, heq] using h) hrest)

/-- After the request a read starts, and ends in a published update. -/
def Read (before log : List (Event α ε)) : Prop :=
  ∃ newer c older, log = newer ++ .started c :: (older ++ .requested :: before) ∧
    ∃ u, .published (some c) u ∈ newer

namespace World

variable {noAccounts : α} {b : Behaviour Step (start noAccounts : World α ε)}

/-- GIO answers every call. -/
def Answers (b : Behaviour Step (start noAccounts : World α ε)) : Prop :=
  ∀ n, ∀ call ∈ (b.state n).outstanding, ∃ m ≥ n, call ∉ (b.state m).outstanding

theorem Inv.call_mem {w : World α ε} (h : Inv w) {c : ℕ} (hread : w.readCancellable = some c) :
    w.stopped = false ∧ w.outstanding = [(c, .of w.connection)] := by
  have hstopped : w.stopped = false := by
    by_contra hend
    rw [(h.ended (Bool.of_not_eq_false hend)).1] at hread
    cases hread
  refine ⟨hstopped, ?_⟩
  have hflight := h.flight hstopped
  rw [hread] at hflight
  obtain ⟨call, hcall, hid⟩ := List.map_eq_singleton_iff.mp hflight
  have hbus := h.bus hstopped call (hcall ▸ List.mem_singleton_self call)
  rw [hcall, ← hid, ← hbus]

/-- **A read ends**: it is not in flight for ever. -/
theorem read_ends (hanswers : Answers b) {n c : ℕ} (hread : (b.state n).readCancellable = some c) :
    ∃ m ≥ n, (b.state m).readCancellable ≠ some c := by
  by_contra hforever
  push Not at hforever
  have hinv := fun k => inv_of_reachable (b.reachable k)
  -- Connecting comes first, and is answered once.
  obtain ⟨m, hm, hconnected⟩ : ∃ m ≥ n, (b.state m).connection = true := by
    cases hconnection : (b.state n).connection with
    | true => exact ⟨n, le_rfl, hconnection⟩
    | false =>
      have hcall := ((hinv n).call_mem hread).2
      obtain ⟨m, hm, hnot⟩ := hanswers n _ (hcall ▸ List.mem_singleton_self _)
      refine ⟨m, hm, ?_⟩
      rw [((hinv m).call_mem (hforever m hm)).2, hconnection] at hnot
      cases hconnection' : (b.state m).connection with
      | true => rfl
      | false =>
        rw [hconnection'] at hnot
        exact absurd (List.mem_singleton_self _) hnot
  have hcall := ((hinv m).call_mem (hforever m hm)).2
  obtain ⟨k, hk, hnot⟩ := hanswers m _ (hcall ▸ List.mem_singleton_self _)
  obtain ⟨hstopped, hcall'⟩ := (hinv k).call_mem (hforever k (hm.trans hk))
  have hconnected' := (later_of_reaches (b.reaches hk)).connection hconnected hstopped
  rw [hcall', hconnected, hconnected'] at hnot
  exact hnot (List.mem_singleton_self _)

/-- A request that waits has a read in flight. -/
theorem Inv.isSome_of_waiting {w : World α ε} (h : Inv w) (hstopped : w.stopped = false)
    (hwaiting : waiting w.log = true) : ∃ c, w.readCancellable = some c := by
  rw [← Option.isSome_iff_exists]
  by_contra hnone
  have hrefetch := h.unscheduled hstopped (Option.not_isSome_iff_eq_none.mp hnone)
  rw [h.waits hstopped, hrefetch] at hwaiting
  cases hwaiting

/-- A read starts after every request, before or after the read in flight ends. -/
theorem read_starts (hanswers : Answers b) {n : ℕ} (hrunning : ∀ m ≥ n, (b.state m).stopped = false)
    {later before : List (Event α ε)} (hlog : (b.state n).log = later ++ .requested :: before) :
    ∃ m ≥ n, ∃ later c, (b.state m).log = later ++ .requested :: before ∧ .started c ∈ later := by
  have hinv := fun k => inv_of_reachable (b.reachable k)
  rcases started_or_waiting hlog with ⟨c, hc⟩ | hwaiting
  · exact ⟨n, le_rfl, later, c, hlog, hc⟩
  obtain ⟨c, hread⟩ := (hinv n).isSome_of_waiting (hrunning n le_rfl) hwaiting
  obtain ⟨m, hm, hended⟩ := read_ends hanswers hread
  have hlater := later_of_reaches (b.reaches hm)
  obtain ⟨more, hmore⟩ := hlater.log
  have hlog' : (b.state m).log = (more ++ later) ++ .requested :: before := by
    rw [← hmore, hlog, List.append_assoc]
  rcases started_or_waiting hlog' with ⟨c', hc'⟩ | hwaiting'
  · exact ⟨m, hm, _, c', hlog', hc'⟩
  obtain ⟨c', hread'⟩ := (hinv m).isSome_of_waiting (hrunning m hm) hwaiting'
  have hbegun := (hinv m).begun c' hread'
  rw [← hmore] at hbegun
  rcases List.mem_append.mp hbegun with hnew | hold
  · exact ⟨m, hm, _, c', hlog', List.mem_append_left _ hnew⟩
  · -- Reads are numbered in order, so a read of before would be the one that ended.
    have hnumbered := (hinv n).numbered c' hold
    have hnewest := (hinv n).newest c hread
    have hnewest' := (hinv m).newest c' hread'
    have hcancellables := hlater.cancellables
    have heq : c' = c := by omega
    exact absurd (heq ▸ hread') hended

/-- **Every request is read**, unless the observer is stopped. -/
theorem read_of_request (hanswers : Answers b) {n : ℕ} {before : List (Event α ε)}
    (h : .requested :: before <:+ (b.state n).log) :
    ∃ m ≥ n, (b.state m).stopped = true ∨ Read before (b.state m).log := by
  by_contra hnever
  push Not at hnever
  have hrunning : ∀ m ≥ n, (b.state m).stopped = false :=
    fun m hm => Bool.not_eq_true _ ▸ (hnever m hm).1
  obtain ⟨first, hlog⟩ := h
  obtain ⟨m, hm, later, c, hlog', hstarted⟩ := read_starts hanswers hrunning hlog.symm
  obtain ⟨k, hk, hended⟩ : ∃ k ≥ m, (b.state k).readCancellable ≠ some c := by
    by_cases hread : (b.state m).readCancellable = some c
    · exact read_ends hanswers hread
    · exact ⟨m, le_rfl, hread⟩
  have hk' : k ≥ n := hm.trans hk
  obtain ⟨newer, older, rfl⟩ := List.append_of_mem hstarted
  obtain ⟨more, hmore⟩ := (later_of_reaches (b.reaches hk)).log
  have hlogk : (b.state k).log = (more ++ newer) ++ .started c ::
      (older ++ .requested :: before) := by
    rw [← hmore, hlog']
    simp only [List.append_assoc, List.cons_append]
  have hunended : unended c (b.state k).log = false := by
    by_contra hunended
    exact hended ((inv_of_reachable (b.reachable k)).unended (hrunning k hk') c
      (Bool.of_not_eq_false hunended))
  exact (hnever k hk').2 ⟨_, c, older, hlogk, published_of_ended hunended hlogk⟩

/-! ### No change is missed -/

/-- What is seen of the observer in every state. -/
structure Observed (w : World α ε) : Prop where
  /-- At most one read is in flight. -/
  single : w.outstanding.length ≤ 1
  /-- Before the end, a Retry is pending only while a read is in flight that started after every
  Retry, or after which another is scheduled. -/
  pending : w.stopped = false → w.update.retryPending = true → ∃ c, w.readCancellable = some c ∧
    (w.refetchNeeded = true ∨ ∀ later before, w.log = later ++ .requested :: before →
      .started c ∈ later)
  /-- A read that no later request waited for publishes that no Retry is pending. -/
  told : ∀ later c u before, w.log = later ++ .published (some c) u :: before →
    requestedSince c before = false →
    u.retryPending = false
  /-- After the end no read starts and nothing is published. -/
  ended : ∀ later before, w.log = later ++ .stopped :: before →
    (∀ c, .started c ∉ later) ∧ ∀ read u, .published read u ∉ later
  /-- The connection finds the read that asked for it. -/
  connected : ∀ c (result : Except ε Unit), (c, .connect) ∈ w.outstanding →
    ((w.answered (c, .connect)).connected result).isSome = true

theorem Inv.observed {w : World α ε} (h : Inv w) : Observed w := by
  refine ⟨h.single, fun hstopped hpending => ?_, fun later c u before hlog hsince => ?_,
    fun later before hlog => ?_,
    fun c result hcall => ?_⟩
  · obtain ⟨c, hread⟩ := Option.isSome_iff_exists.mp (h.pending hstopped hpending)
    refine ⟨c, hread, ?_⟩
    cases hrefetch : w.refetchNeeded with
    | true => exact .inl rfl
    | false =>
      exact .inr fun later before hlog => started_of_requestedSince
        ((h.scheduled c hread).trans hrefetch) hlog
  · exact (h.inTime.at hlog).2 c rfl hsince
  · refine ⟨fun c hc => ?_, fun read u hu => ?_⟩
    · obtain ⟨newer, older, rfl⟩ := List.append_of_mem hc
      rw [List.append_assoc, List.cons_append] at hlog
      exact h.inTime.at hlog (List.mem_append_right _ List.mem_cons_self)
    · obtain ⟨newer, older, rfl⟩ := List.append_of_mem hu
      rw [List.append_assoc, List.cons_append] at hlog
      exact (h.inTime.at hlog).1 (List.mem_append_right _ List.mem_cons_self)
  · cases hstopped : w.stopped with
    | true =>
      unfold World.connected
      rw [if_pos (by exact hstopped)]
      rfl
    | false =>
      cases result with
      | ok => rw [(h.connected hstopped hcall).1, Option.isSome_some]
      | error => simp [World.connected, World.answered, hstopped]

/-- **No change of the account list is missed.** In every state at most one read is in flight, a
Retry is pending only for a read to come, and nothing happens after the end; and when GIO answers
every call, every request is followed by a read that starts after it and ends in a published update,
unless the observer is stopped. -/
theorem changes_read (noAccounts : α) :
    (∀ w : World α ε, ReflTransGen Step (start noAccounts) w → Observed w) ∧
      ∀ b : Behaviour Step (start noAccounts : World α ε), Answers b → ∀ n before,
        .requested :: before <:+ (b.state n).log → ∃ m ≥ n, (b.state m).stopped = true ∨
        Read before (b.state m).log :=
  ⟨fun _ h => (inv_of_reachable h).observed, fun _ hanswers _ _ h => read_of_request hanswers h⟩

/-- The observer after a Retry while it connected, connected. -/
def connectedRetry : World Unit Unit :=
  { (start ()).refreshAccounts with
    outstanding := [(0, .readAccounts)], subscriptions := accountChangeSignals, connection := true }

/-- The first read ends. -/
def firstRead : World Unit Unit :=
  (connectedRetry.answered (0, .readAccounts)).accountsRead (.ok ())

/-- The second read ends. -/
def secondRead : World Unit Unit := (firstRead.answered (1, .readAccounts)).accountsRead (.ok ())

/-- A Retry while the observer connects, and the answers to both reads. -/
def retried : Behaviour Step (start () : World Unit Unit) where
  state
    | 0 => start ()
    | 1 => (start ()).refreshAccounts
    | 2 => connectedRetry
    | 3 => firstRead
    | _ => secondRead
  zero := rfl
  next
    | 0 => .inr .refresh
    | 1 => .inr (.connected (c := 0) (r := .ok ()) (by decide) (by decide))
    | 2 => .inr (.accountsRead (c := 0) (by decide))
    | 3 => .inr (.accountsRead (c := 1) (by decide))
    | _ + 4 => .inl rfl

/-- The Retry is followed by the second read. -/
theorem changes_read_retried :
    ∃ m ≥ 1, (retried.state m).stopped = true ∨ Read [.started 0] (retried.state m).log := by
  refine (changes_read ()).2 retried (fun n call _ => ⟨n + 4, Nat.le_add_right n 4, ?_⟩) 1
    [.started 0] (by decide)
  have hlast : (retried.state (n + 4)).outstanding = [] := by
    show secondRead.outstanding = []
    decide
  rw [hlast]
  exact List.not_mem_nil

/-- The observer after a read that could not connect, a Retry and the end. -/
def retriedAndStopped : World Unit Unit :=
  ((((start ()).answered (0, .connect)).finishRead (.error ())).refreshAccounts).stop

/-- **A Retry that is followed by the end** has no read that ends in a published update, and stays
pending with no read in flight or scheduled. -/
theorem retry_then_stop :
    ReflTransGen Step (start ()) retriedAndStopped ∧
      ∃ later before, retriedAndStopped.log = later ++ .requested :: before ∧ .stopped ∉ before ∧
        (∀ w', ReflTransGen Step retriedAndStopped w' → ¬ Read before w'.log) ∧
        retriedAndStopped.update.retryPending = true ∧ retriedAndStopped.readCancellable = none ∧
        retriedAndStopped.refetchNeeded = false := by
  have hfailed : Step (start () : World Unit Unit)
      (((start ()).answered (0, .connect)).finishRead (.error ())) :=
    .connected (c := 0) (r := .error ()) (by decide) (by decide)
  have hreached : ReflTransGen Step (start ()) retriedAndStopped :=
    ((ReflTransGen.single hfailed).tail .refresh).tail .stop
  refine ⟨hreached, [.stopped, .published none ⟨(), .failed (), true⟩, .started 1],
    [.published (some 0) ⟨(), .failed (), false⟩, .started 0], by decide, by decide,
    fun w' hlater hread => ?_, by decide, by decide, by decide⟩
  have hlog : retriedAndStopped.log = [.stopped, .published none ⟨(), .failed (), true⟩,
    .started 1] ++
      .requested :: [.published (some 0) ⟨(), .failed (), false⟩, .started 0] := by decide
  obtain ⟨more, hmore⟩ := (later_of_reaches hlater).log
  rw [hlog] at hmore
  have hended := (inv_of_reachable (hreached.trans hlater)).observed.ended more _ hmore.symm
  obtain ⟨newer, c, older, hread, u, hu⟩ := hread
  -- The read's update would come before the end or after it.
  rw [← hmore, ← List.append_assoc, ← List.cons_append, ← List.append_assoc] at hread
  have hmem : .published (some c) u ∈ more ++ [.stopped, .published none ⟨(), .failed (), true⟩,
      .started 1] :=
    List.append_cancel_right hread ▸ List.mem_append_left _ hu
  rcases List.mem_append.mp hmem with hmem | hmem
  · exact hended.2 _ _ hmem
  · simp at hmem

end World
end Mailbag.OnlineAccounts
