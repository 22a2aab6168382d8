import Mailbag.Cycle.GraphService

/-!
# The user's changes of a Microsoft 365 folder, request by request

The sending step of a cycle: the wishes the store holds are read, and each goes to the service as
one change of a message's flag, is settled when the service took it and dropped when the service
refused it.

## What is proved

* `synchronizeGraphFolder_sends` — the cycle changes flags only as its sending steps' wishes say,
  each once and in order, settles a wish only right after the service took it and drops one only
  right after the service refused it, which ends the cycle.
-/

namespace Mailbag.Cycle

open Collections Graph Imap Interaction Program Relation Store

/-! ### Request by request -/

section Sending

variable {σ : Type}

/-- What a cycle asked so far. -/
abbrev GraphLog (σ : Type) : Type :=
  List (Event (CycleOp GraphRequest) (CycleAns GraphRequest.Reply) σ)

/-- The changes were sent, each taken by the service and settled. -/
inductive SentSo (folder : FolderRef) : List PendingChange → GraphLog σ → Prop
  /-- None. -/
  | nil : SentSo folder [] []
  /-- One more. -/
  | next {changes : List PendingChange} {h : GraphLog σ} {change : PendingChange} {id : String}
      {s t u v : σ} :
      SentSo folder changes h → graphId change.identity = some id →
      SentSo folder (changes ++ [change]) (h ++
        [⟨s, .server (.updateMessageFlags id (flagUpdate change)), .ok (), t⟩,
          ⟨u, .store (.settleFlags folder.account [change.identity] change.flag change.wanted),
            .ok (), v⟩])

/-- The cycle is in a sending step: of the wishes that it read, it sent the first. -/
def InStepAfter (folder : FolderRef) (sent rest : List PendingChange) (h : GraphLog σ) : Prop :=
  ∃ earlier s t step, h = earlier ++ ⟨s, .store (.readPendingChanges folder), .ok (sent ++ rest),
    t⟩ :: step ∧ SentSo folder sent step

/-- A wish of the sending step was sent last, and answered so. -/
def SentLast (folder : FolderRef) (change : PendingChange) (answer : Except GraphError Unit)
    (h : GraphLog σ) : Prop :=
  ∃ earlier sent rest id s t, h = earlier ++
    [⟨s, .server (.updateMessageFlags id (flagUpdate change)), answer, t⟩] ∧
    InStepAfter folder sent (change :: rest) earlier ∧ graphId change.identity = some id

/-- A page was stored last. -/
def StoredLast (folder : FolderRef) (h : GraphLog σ) : Prop :=
  ∃ earlier s t batch, h = earlier ++ [⟨s, .store (.storeBatch folder batch), .ok .stored, t⟩]

/-- The operation drops a wish. -/
def Drops : CycleOp GraphRequest → Prop
  | .store (.dropPendingFlags ..) => True
  | _ => False

/-- What an operation of the cycle has to do with the user's changes. -/
structure ChangesWished (folder : FolderRef) (h : GraphLog σ)
    (e : Event (CycleOp GraphRequest) (CycleAns GraphRequest.Reply) σ) : Prop where
  /-- A sending step begins right after a page was stored. -/
  begins : ∀ folder', e.op = .store (.readPendingChanges folder') → folder' = folder ∧
    StoredLast folder h
  /-- A change is the next wish of the sending step. -/
  sends : ∀ id update, e.op = .server (.updateMessageFlags id update) →
    ∃ change sent rest, InStepAfter folder sent (change :: rest) h ∧
      graphId change.identity = some id ∧ update = flagUpdate change
  /-- A wish is settled right after the service took it. -/
  settles : ∀ account identities flag value, e.op = .store
    (.settleFlags account identities flag value) →
    ∃ change, SentLast folder change (.ok ()) h ∧ account = folder.account ∧
      identities = [change.identity] ∧ flag = change.flag ∧
      value = change.wanted
  /-- A wish is dropped right after the service refused it. -/
  drops : ∀ account identities flag value, e.op = .store
    (.dropPendingFlags account identities flag value) →
    ∃ change error, SentLast folder change (.error error) h ∧ refusesTheChange error = true ∧
      account = folder.account ∧
      identities = [change.identity] ∧ flag = change.flag ∧ value = change.wanted
  /-- Nothing follows a dropped wish. -/
  undropped : ∀ e', h.getLast? = some e' → ¬Drops e'.op

/-- No wish was dropped last. -/
def Undropped (h : GraphLog σ) : Prop := ∀ e, h.getLast? = some e → ¬Drops e.op

/-- An operation that sends, settles and drops nothing, and begins no sending step. -/
def Harmless : CycleOp GraphRequest → Prop
  | .server (.updateMessageFlags ..) => False
  | .store (.readPendingChanges _) => False
  | .store (.settleFlags ..) => False
  | .store (.dropPendingFlags ..) => False
  | _ => True

variable {E : Surroundings (CycleOp GraphRequest) (CycleAns GraphRequest.Reply) σ}
  {folder : FolderRef} {h : GraphLog σ} {s : σ} {batches : BatchWriter} {α : Type}

theorem undropped_concat {e : Event (CycleOp GraphRequest) (CycleAns GraphRequest.Reply) σ}
    (he : ¬Drops e.op) : Undropped (h ++ [e]) := by
  intro e' he'
  rw [List.getLast?_concat, Option.some.injEq] at he'
  exact he' ▸ he

theorem Harmless.not_drops {o : CycleOp GraphRequest} (ho : Harmless o) : ¬Drops o := by
  cases o with
  | server request => exact id
  | store op => cases op <;> first | exact id | exact fun _ => ho

theorem Harmless.changesWished {e : Event (CycleOp GraphRequest) (CycleAns GraphRequest.Reply) σ}
    (he : Harmless e.op) (hh : Undropped h) : ChangesWished folder h e where
  begins := fun _ ho => by rw [ho] at he; exact he.elim
  sends := fun _ _ ho => by rw [ho] at he; exact he.elim
  settles := fun _ _ _ _ ho => by rw [ho] at he; exact he.elim
  drops := fun _ _ _ _ ho => by rw [ho] at he; exact he.elim
  undropped := hh

theorem harmless_safe {p : GraphCycle α} (hp : p.Asks Harmless) (hh : Undropped h) :
    Safe E (ChangesWished folder) h s p fun _ h _ => Undropped h :=
  Safe.asks hp (fun _ _ _ hI _ => hI)
    (fun _ _ _ _ _ hI ho _ => ⟨ho.changesWished hI, undropped_concat ho.not_drops⟩) hh

/-- A call of the store, answered with its result. -/
theorem storeCall_wishes {op : StoreCall}
    (hop : ∀ s answer t, ChangesWished folder h ⟨s, .store op, answer, t⟩) :
    Safe E (ChangesWished folder) h s (storeCall op : GraphCycle op.Result) fun result h' _ =>
      ∃ s' t, h' = h ++ [⟨s', .store op, .ok result, t⟩] := by
  refine Safe.bind (Safe.request (Q := fun answer h' _ => ∃ s' t,
      h' = h ++ [⟨s', .store op, answer, t⟩]) fun s' answer t _ _ =>
    ⟨hop s' answer t, s', t, rfl⟩) fun answer tr t hasked => ?_
  obtain ⟨s', t', htr⟩ := hasked
  cases answer with
  | ok result => exact .done ⟨s', t', htr⟩
  | error failure => exact .fail

section Asked

variable {account : AccountId} {s' t : σ} {change : PendingChange} {sent rest : List PendingChange}
  {id : String}

theorem changesWished_read {answer : Except Failure (List PendingChange)}
    (hstored : StoredLast folder h) (hh : Undropped h) :
    ChangesWished folder h ⟨s', .store (.readPendingChanges folder), answer, t⟩ where
  begins := fun _ ho => by
    cases ho
    exact ⟨rfl, hstored⟩
  sends := fun _ _ ho => by cases ho
  settles := fun _ _ _ _ ho => by cases ho
  drops := fun _ _ _ _ ho => by cases ho
  undropped := hh

theorem changesWished_send {answer : Except GraphError Unit}
    (hstep : InStepAfter folder sent (change :: rest) h) (hid : graphId change.identity = some id)
    (hh : Undropped h) :
    ChangesWished folder h ⟨s', .server (.updateMessageFlags id (flagUpdate change)),
      answer, t⟩ where
  begins := fun _ ho => by cases ho
  sends := fun _ _ ho => by
    cases ho
    exact ⟨change, sent, rest, hstep, hid, rfl⟩
  settles := fun _ _ _ _ ho => by cases ho
  drops := fun _ _ _ _ ho => by cases ho
  undropped := hh

theorem changesWished_settle {answer : Except Failure Unit}
    (hlast : SentLast folder change (.ok ()) h) (hh : Undropped h) :
    ChangesWished folder h ⟨s',
      .store (.settleFlags folder.account [change.identity] change.flag change.wanted),
        answer, t⟩ where
  begins := fun _ ho => by cases ho
  sends := fun _ _ ho => by cases ho
  settles := fun _ _ _ _ ho => by
    cases ho
    exact ⟨change, hlast, rfl, rfl, rfl, rfl⟩
  drops := fun _ _ _ _ ho => by cases ho
  undropped := hh

theorem changesWished_drop {error : GraphError} {answer : Except Failure Unit}
    (hlast : SentLast folder change (.error error) h) (hrefuses : refusesTheChange error = true)
    (hh : Undropped h) :
    ChangesWished folder h ⟨s',
      .store (.dropPendingFlags folder.account [change.identity] change.flag change.wanted),
        answer, t⟩ where
  begins := fun _ ho => by cases ho
  sends := fun _ _ ho => by cases ho
  settles := fun _ _ _ _ ho => by cases ho
  drops := fun _ _ _ _ ho => by
    cases ho
    exact ⟨change, error, hlast, hrefuses, rfl, rfl, rfl, rfl⟩
  undropped := hh

end Asked

/-- One wish is sent, and settled or dropped. -/
theorem sendGraphChange_safe {change : PendingChange} {sent rest : List PendingChange}
    (hstep : InStepAfter batches.folder sent (change :: rest) h) (hh : Undropped h) :
    Safe E (ChangesWished batches.folder) h s (sendGraphChange batches change)
      fun _ h' _ => InStepAfter batches.folder (sent ++ [change]) rest h' ∧ Undropped h' := by
  rw [sendGraphChange]
  split
  · exact .cut
  · next id hid =>
    refine Safe.bind (Safe.request (Q := fun answer h' _ => ∃ s' t, h' = h ++
      [⟨s', .server (.updateMessageFlags id (flagUpdate change)), answer, t⟩])
        fun s' answer t _ _ =>
        ⟨changesWished_send hstep hid hh, s', t, rfl⟩)
          fun (answer : Except GraphError Unit) tr t hasked => ?_
    obtain ⟨s', t', htr⟩ := hasked
    have hlast : SentLast batches.folder change answer (h ++ tr) :=
      ⟨h, sent, rest, id, s', t', htr, hstep, hid⟩
    have hundropped : Undropped (h ++ tr) := htr ▸ undropped_concat fun h => h
    cases answer with
    | ok =>
      refine (storeCall_wishes fun _ _ _ => changesWished_settle hlast hundropped).mono
        fun _ tr' u hsettled => ?_
      obtain ⟨s₁, t₁, htr'⟩ := hsettled
      refine ⟨?_, htr' ▸ undropped_concat fun h => h⟩
      obtain ⟨earlier, s₀, t₀, step, hearlier, hsent⟩ := hstep
      refine ⟨earlier, s₀, t₀, _, ?_, hsent.next (s := s') (t := t') (u := s₁) (v := t₁) hid⟩
      rw [htr', htr, hearlier]
      simp
    | error error =>
      show Safe E _ _ t (if refusesTheChange error then _ else _) _
      split
      · next hrefuses =>
        exact Safe.bind (storeCall_wishes fun _ _ _ => changesWished_drop hlast hrefuses hundropped)
          fun _ _ _ _ => .fail
      · exact .fail

/-- The wishes of a sending step, one after another. -/
theorem sendGraphChangesOf_safe {sent changes : List PendingChange}
    (hstep : InStepAfter batches.folder sent changes h) (hh : Undropped h) :
    Safe E (ChangesWished batches.folder) h s (sendGraphChangesOf batches changes) fun _ h _ =>
      Undropped h := by
  induction changes generalizing sent h s with
  | nil => exact .done hh
  | cons change changes ih =>
    exact Safe.bind (sendGraphChange_safe hstep hh) fun _ tr t h => ih h.1 h.2

/-- **A sending step**, after a page was stored. -/
theorem sendGraphChanges_safe (hstored : StoredLast batches.folder h) (hh : Undropped h) :
    Safe E (ChangesWished batches.folder) h s (sendGraphChanges batches) fun _ h _ =>
      Undropped h := by
  refine Safe.bind (storeCall_wishes fun _ _ _ => changesWished_read hstored hh)
    fun pending tr t hread => ?_
  obtain ⟨s', t', htr⟩ := hread
  have hstep : InStepAfter batches.folder [] pending (h ++ tr) :=
    ⟨h, s', t', [], by rw [htr]; rfl, .nil⟩
  exact sendGraphChangesOf_safe hstep (htr ▸ undropped_concat fun h => h)

theorem store_wishes {batch : FolderBatch} (hbatch : batch.state.isSome) (hh : Undropped h) :
    Safe E (ChangesWished batches.folder) h s (batches.store batch : GraphCycle Unit)
      fun _ h _ => StoredLast batches.folder h ∧ Undropped h := by
  have hchanges : batch ≠ FolderBatch.default := fun h => by
    rw [h] at hbatch
    cases hbatch
  rw [BatchWriter.store, if_neg hchanges]
  refine Safe.bind (storeCall_wishes fun _ _ _ => Harmless.changesWished trivial hh)
    fun result tr t hstored => ?_
  obtain ⟨s', t', htr⟩ := hstored
  cases result with
  | stored => exact .done ⟨⟨h, s', t', batch, htr⟩, htr ▸ undropped_concat fun h => h⟩
  | loadCancelled => exact .fail

/-- A page is stored, and the wishes are sent unless the reading is a round that goes on. -/
theorem storePage_safe {loop : GraphLoop} {next : NextPage} {batch : FolderBatch}
    (hh : Undropped h) :
    Safe E (ChangesWished batches.folder) h s (storePage batches loop next batch) fun _ h _ =>
      Undropped h := by
  rw [storePage_eq]
  refine Safe.bind (store_wishes rfl hh) fun _ tr t hstored => Safe.bind
    (R := fun _ h _ => Undropped h) ?_ fun _ _ _ h => .done h
  cases next with
  | more =>
    dsimp only [GraphLoop.sending]
    split
    · exact .done hstored.2
    · exact sendGraphChanges_safe hstored.1 hstored.2
  | finished => exact sendGraphChanges_safe hstored.1 hstored.2

theorem InBatch.harmless {o : CycleOp GraphRequest} (h : InBatch o) : Harmless o := by
  cases o with
  | server request => cases request <;> trivial
  | store op => cases op <;> trivial

theorem readPage_safe {rules : ContentRules} {order : HashOrder} {recentLimit : ℤ}
    {loop : GraphLoop} (hh : Undropped h) :
    Safe E (ChangesWished batches.folder) h s (readPage rules order recentLimit batches loop)
      fun _ h _ => Undropped h := by
  have hreread : ∀ {h : GraphLog σ} {s : σ} (loop : GraphLoop), Undropped h →
      Safe E (ChangesWished batches.folder) h s (rereadFolder batches loop) fun _ h _ =>
        Undropped h := fun loop hh =>
    harmless_safe ((storeCall_asks trivial).bind fun _ => trivial) hh
  refine Safe.bind (harmless_safe (p := graphRequest _) (.request trivial) hh)
    fun (answer : Except GraphError ChangePage) tr t hh => ?_
  cases answer with
  | error error =>
    dsimp only
    split
    · exact hreread loop hh
    · exact .fail
  | ok page =>
    dsimp only
    split
    · exact hreread _ hh
    · exact Safe.bind (harmless_safe ((batchFromChanges_asks _ _ _ _ _).mono fun _ =>
        InBatch.harmless) hh) fun _ _ _ hh => storePage_safe hh

/-- **The cycle sends the user's wishes**: its sending steps' wishes, each once and in order; one is
settled only right after the service took it and dropped only right after the service refused it,
which ends the cycle. -/
theorem synchronizeGraphFolder_sends
    (E : Surroundings (CycleOp GraphRequest) (CycleAns GraphRequest.Reply) σ) (rules : ContentRules)
    (order : HashOrder) (turns : ℕ) (recentLimit : ℤ) (batches : BatchWriter) (s : σ) :
    Safe E (ChangesWished batches.folder) [] s
      (synchronizeGraphFolder rules order turns recentLimit batches) fun _ _ _ => True := by
  have hbegin : Undropped ([] : GraphLog σ) := fun e he => by cases he
  refine Safe.bind (harmless_safe (storeCall_asks trivial) hbegin) fun stored tr t hh => ?_
  refine Safe.iterate (I := fun _ h _ => Undropped h) (fun loop h s hh => (readPage_safe hh).mono
    fun next _ _ hh => ?_) turns _ _ _ hh
  cases next with
  | inl loop => exact hh
  | inr result => trivial

end Sending

end Mailbag.Cycle
