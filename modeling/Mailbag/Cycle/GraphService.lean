import Mailbag.Cycle.GraphExchanges
import Mailbag.Graph.ChangePages

/-!
# A Microsoft 365 cycle over HTTP

`synchronizeOverHttp` is the cycle with each of its requests made as the exchanges of
Microsoft Graph.

## What is proved

* `renews_once` — whatever the service and Online Accounts answer, the token is renewed at most
  once in a cycle and only when the service refused it; every request carries the token given
  last; and nothing is sent after a refusal that a renewal does not lift, which the cycle fails
  with.
-/

namespace Mailbag.Cycle

open Collections Graph Imap Interaction Program Relation Store

/-! ### The cycle over HTTP -/

/-- The error of an answer. -/
def errorOf {α : Type} : Except GraphError α → Option GraphError
  | .ok _ => none
  | .error error => some error

/-- The error a request is answered with. -/
def replyError : (request : GraphRequest) → request.Reply → Option GraphError
  | .readMessageChanges _, answer => errorOf answer
  | .readMessage _, answer => errorOf answer
  | .readMessageText _, answer => errorOf answer
  | .readTextsReceivedBetween .., answer => errorOf answer
  | .updateMessageFlags .., answer => errorOf answer

/-- A request answered with the token's refusal, which the cycle fails with. -/
def EndsUnauthorized : (o : CycleOp GraphRequest) → CycleAns GraphRequest.Reply o → CycleEnd → Prop
  | .store _, _, _ => False
  | .server request, reply, failure =>
    ∃ error, replyError request reply = some error ∧ isRefusedToken error = true ∧
      failure = .ofGraph error

theorem errorOf_eq_some_iff {α : Type} {answer : Except GraphError α} {error : GraphError} :
    errorOf answer = some error ↔ answer = .error error := by
  cases answer <;> simp [errorOf]

section Answers

variable {E : Surroundings GraphExchange GraphExchange.Reply W} {accessToken : String}
  {service : GraphService} {log : List (Exchange W)} {s : W} {graph : GraphRules}
  {serviceUrl : String} {textPages : ℕ}

/-- A request keeps the token, and is answered with its refusal only when that stands. -/
theorem request_ends {α : Type} (call : String → GraphProgram α)
    (hcall : ∀ service log s, Going accessToken service log → CallSafe E accessToken service log s
      (call service.accessToken))
    (hgoing : Going accessToken service log) :
    SafeOr E (TokenKept accessToken) log s (service.request call)
      (fun r log _ => (∀ failure, (∃ error, errorOf r.1 = some error ∧ isRefusedToken error = true ∧
          failure = CycleEnd.ofGraph error) → RefusalStands accessToken log) ∧
        ((∀ failure, ¬∃ error, errorOf r.1 = some error ∧ isRefusedToken error = true ∧
          failure = CycleEnd.ofGraph error) →
          Going accessToken r.2 log)) fun _ _ _ => True := by
  refine (request_safe hcall hgoing).mono (fun r tr t h => ⟨?_, fun hnot => ?_⟩) fun _ _ _ h => h
  · rintro failure ⟨error, herror, hrefuses, -⟩
    exact h.refused error (errorOf_eq_some_iff.mp herror) hrefuses
  · refine h.going fun error herror => ?_
    by_contra hrefuses
    exact hnot _ ⟨error, errorOf_eq_some_iff.mpr herror, by simpa using hrefuses, rfl⟩

theorem answer_safe (request : GraphRequest) (hgoing : Going accessToken service log) :
    SafeOr E (TokenKept accessToken) log s
    (GraphService.answer graph serviceUrl textPages request service)
      (fun r log _ => (∀ failure, EndsUnauthorized (.server request) r.1 failure →
        RefusalStands accessToken log) ∧
        ((∀ failure, ¬EndsUnauthorized (.server request) r.1 failure) → Going accessToken r.2 log))
        fun _ _ _ => True := by
  cases request with
  | readMessageChanges start =>
    exact request_ends (fun token => readMessageChanges graph serviceUrl token start)
      (fun _ _ _ hgoing => readMessageChanges_safe hgoing start) hgoing
  | readMessage id =>
    exact request_ends (fun token => readMessageNow graph serviceUrl token id)
      (fun _ _ _ hgoing => readMessageNow_safe hgoing id) hgoing
  | readMessageText id =>
    exact request_ends (fun token => readMessageText graph serviceUrl token id)
      (fun _ _ _ hgoing => readMessageText_safe hgoing id)
      hgoing
  | readTextsReceivedBetween folder first last =>
    exact request_ends (fun token => readTextsReceivedBetween graph serviceUrl token textPages
      folder first last)
      (fun _ _ _ hgoing => readTextsReceivedBetween_safe hgoing textPages folder first last) hgoing
  | updateMessageFlags id update =>
    exact request_ends (fun token => updateMessageFlags graph serviceUrl token id update)
      (fun _ _ _ hgoing => updateMessageFlags_safe hgoing id update) hgoing

end Answers

/-! ### Which failures end a cycle -/

section Failing

variable {α β : Type}

theorem storeCall_failsOn (op : StoreCall) :
    (storeCall op : GraphCycle op.Result).FailsOn EndsUnauthorized := by
  intro answer
  refine ⟨fun _ h => h.elim, ?_⟩
  cases answer <;> trivial

/-- A request whose refusal the program fails with. -/
theorem graphRequest_failsOn {request : GraphRequest} {f : request.Reply → GraphCycle α}
    (hrefused : ∀ reply error, replyError request reply = some error → isRefusedToken error = true →
      f reply = .fail (.ofGraph error)) (hf : ∀ reply, (f reply).FailsOn EndsUnauthorized) :
    ((graphRequest request).bind f).FailsOn EndsUnauthorized := fun reply =>
  ⟨fun failure => by
    rintro ⟨error, herror, hrefuses, rfl⟩
    exact hrefused reply error herror hrefuses, hf reply⟩

theorem graphResult_failsOn (answer : Except GraphError α) :
    (graphResult answer).FailsOn EndsUnauthorized := by
  cases answer <;> trivial

theorem graphResult_bind_error {answer : Except GraphError α} {f : α → GraphCycle β}
    {error : GraphError} (h : errorOf answer = some error) :
    (graphResult answer).bind f = .fail (.ofGraph error) := by
  rw [errorOf_eq_some_iff.mp h]
  rfl

theorem store_failsOn (batches : BatchWriter) (batch : FolderBatch) :
    (batches.store batch : GraphCycle Unit).FailsOn EndsUnauthorized := by
  rw [BatchWriter.store]
  split
  · trivial
  · refine (storeCall_failsOn _).bind fun result => ?_
    cases result <;> trivial

/-- A refused token is no refusal of the change. -/
theorem refusesTheChange_eq_false {error : GraphError} (h : isRefusedToken error = true) :
    refusesTheChange error = false := by
  obtain ⟨failure, reason⟩ := error
  cases failure <;> simp_all [isRefusedToken, refusesTheChange]

theorem sendGraphChange_failsOn (batches : BatchWriter) (change : PendingChange) :
    (sendGraphChange batches change).FailsOn EndsUnauthorized := by
  rw [sendGraphChange]
  split
  · trivial
  · refine graphRequest_failsOn (fun reply error herror hrefuses => ?_) fun reply => ?_
    · rw [errorOf_eq_some_iff.mp herror]
      exact if_neg (by simp [refusesTheChange_eq_false hrefuses])
    · cases reply with
      | ok => exact storeCall_failsOn _
      | error error =>
        show Program.FailsOn EndsUnauthorized (if refusesTheChange error then _ else _)
        split
        · exact (storeCall_failsOn _).bind fun _ => trivial
        · trivial

theorem sendGraphChanges_failsOn (batches : BatchWriter) :
    (sendGraphChanges batches).FailsOn EndsUnauthorized := by
  refine (storeCall_failsOn _).bind fun pending => ?_
  induction pending with
  | nil => trivial
  | cons change changes ih => exact (sendGraphChange_failsOn batches change).bind fun _ => ih

theorem readInFolder_failsOn (id folder : String) :
    (readInFolder id folder).FailsOn EndsUnauthorized :=
  graphRequest_failsOn (fun _ _ herror _ => graphResult_bind_error herror) fun _ =>
    (graphResult_failsOn _).bind fun _ => trivial

theorem readTextsOf_failsOn (messages : List GraphMessage) :
    (readTextsOf messages).FailsOn EndsUnauthorized := by
  induction messages with
  | nil => trivial
  | cons message messages ih =>
    exact graphRequest_failsOn (fun _ _ herror _ => graphResult_bind_error herror) fun _ =>
      (graphResult_failsOn _).bind fun _ => ih.bind fun _ => trivial

theorem readTexts_failsOn (arrivals : List Arrival) (reading : Reading) (folder : String) :
    (readTexts arrivals reading folder).FailsOn EndsUnauthorized := by
  have hrange : ∀ first last, ((graphRequest (.readTextsReceivedBetween folder first last)).bind
      fun (answer : Except GraphError (List (String × Option String))) =>
        graphResult answer).FailsOn EndsUnauthorized :=
    fun first last => graphRequest_failsOn (fun reply error herror _ => by
      rw [errorOf_eq_some_iff.mp herror]
      rfl) fun _ => graphResult_failsOn _
  cases reading <;> dsimp only [readTexts] <;> split
  case round.isFalse => exact readTextsOf_failsOn _
  case firstFill.isFalse | fullRereading.isFalse =>
    split
    · exact hrange _ _
    · trivial
  all_goals trivial

theorem readEntries_failsOn (known : KnownMessages) (reading : Reading) (recentLimit : ℤ)
    (folder : String) (changes : List (String × MessageChange)) :
    (readEntries known reading recentLimit folder changes).FailsOn EndsUnauthorized := by
  induction changes with
  | nil => trivial
  | cons entry changes ih =>
    obtain ⟨id, change⟩ := entry
    refine FailsOn.bind ?_ fun _ => ih.bind fun _ => trivial
    unfold readEntry
    split
    · refine (readInFolder_failsOn id folder).bind fun found => ?_
      cases found <;> trivial
    · cases change <;> trivial

theorem batchFromChanges_failsOn (rules : ContentRules) (changes : List (String × MessageChange))
    (reading : Reading) (recentLimit : ℤ) (batches : BatchWriter) :
    (batchFromChanges rules changes reading recentLimit batches).FailsOn EndsUnauthorized :=
  (storeCall_failsOn _).bind fun _ => (storeCall_failsOn _).bind fun _ =>
    (readEntries_failsOn _ _ _ _ _).bind fun _ =>
    (readTexts_failsOn _ _ _).bind fun _ => trivial

theorem storePage_failsOn (batches : BatchWriter) (loop : GraphLoop) (next : NextPage)
    (batch : FolderBatch) : (storePage batches loop next batch).FailsOn EndsUnauthorized := by
  cases next with
  | more nextLink =>
    refine (store_failsOn _ _).bind fun _ => FailsOn.bind ?_ fun _ => trivial
    split
    · trivial
    · exact sendGraphChanges_failsOn batches
  | finished deltaLink =>
    dsimp only [storePage]
    split <;> exact (store_failsOn _ _).bind fun _ => (sendGraphChanges_failsOn batches).bind
      fun _ => trivial

theorem rereadFolder_failsOn (batches : BatchWriter) (loop : GraphLoop) :
    (rereadFolder batches loop).FailsOn EndsUnauthorized :=
  (storeCall_failsOn _).bind fun _ => trivial

theorem readPage_failsOn (rules : ContentRules) (order : HashOrder) (recentLimit : ℤ)
    (batches : BatchWriter) (loop : GraphLoop) :
    (readPage rules order recentLimit batches loop).FailsOn EndsUnauthorized := by
  refine graphRequest_failsOn (fun reply error herror hrefuses => ?_) fun reply => ?_
  · rw [errorOf_eq_some_iff.mp herror]
    -- a refused token is no rejected link
    refine if_neg ?_
    have hother : error.failure ≠ .positionRejected := fun h => by
      rw [isRefusedToken, h] at hrefuses
      cases hrefuses
    simp [GraphLoop.rereadsOn, hother]
  · cases reply with
    | error error =>
      dsimp only
      split
      · exact rereadFolder_failsOn batches loop
      · trivial
    | ok page =>
      dsimp only
      split
      · exact rereadFolder_failsOn batches _
      · exact (batchFromChanges_failsOn _ _ _ _ _).bind fun batch => storePage_failsOn _ _ _ _

/-- **A refused token that stands ends the cycle**, with that refusal. -/
theorem synchronizeGraphFolder_failsOn (rules : ContentRules) (order : HashOrder) (turns : ℕ)
    (recentLimit : ℤ) (batches : BatchWriter) :
    (synchronizeGraphFolder rules order turns recentLimit batches).FailsOn EndsUnauthorized := by
  refine (storeCall_failsOn _).bind fun stored => ?_
  generalize GraphLoop.begin stored batches.folder.identity = loop
  induction turns generalizing loop with
  | zero => trivial
  | succ turns ih =>
    refine (readPage_failsOn rules order recentLimit batches loop).bind fun next => ?_
    cases next with
    | inl loop => exact ih loop
    | inr result => trivial

end Failing

/-! ### The exchanges of a cycle -/

section Runs

variable {H : Server GraphExchange.Reply}

/-- An exchange of a cycle, if the event is one. -/
def exchange? : Happened H → Option (Exchange H.World)
  | ⟨s, .server o, a, t⟩ => some ⟨s.1, o, a, t.1⟩
  | ⟨_, .store _, _, _⟩ => none

/-- The exchanges of a cycle, in order. -/
def exchangesOf (h : History H) : List (Exchange H.World) := h.filterMap exchange?

@[simp] theorem exchangesOf_append (h h' : History H) :
    exchangesOf (h ++ h') = exchangesOf h ++ exchangesOf h' :=
  List.filterMap_append

/-- The server without a store beside it. -/
def Server.alone (H : Server GraphExchange.Reply) :
    Surroundings GraphExchange GraphExchange.Reply H.World := ⟨H.step, H.answer⟩

/-- A run beside the store is a run without, its events the exchanges. -/
theorem run_alone {ε α : Type} {p : Program GraphExchange GraphExchange.Reply ε α}
    {s u : H.World × Tables} {tr : History H} {r : Outcome ε α}
    (h : Run (surroundings H) (p.among CycleOp.server fun _ a => a) s tr r u) :
    Run H.alone p s.1 (exchangesOf tr) r u.1 ∧ ∀ e ∈ tr, (exchange? e).isSome := by
  have hmove : ∀ s t : H.World × Tables, moves H s t →
      ReflTransGen H.alone.move s.1 t.1 := fun s t hm => by
    rcases hm with ⟨hstep, -⟩ | ⟨hsame, -⟩
    · exact .single hstep
    · rw [hsame]
  have hanswer : ∀ (s : H.World × Tables) o a (t : H.World × Tables), answered H s (.server o) a t →
      H.alone.answer s.1 o a t.1 :=
    fun s o a t ha => ha.1
  obtain ⟨tr', hevents, hrun⟩ := h.of_among (E := H.alone) Prod.fst hmove hanswer
  have hsame : exchangesOf tr = tr' ∧ ∀ e ∈ tr, (exchange? e).isSome := by
    clear h hrun
    induction hevents with
    | nil => exact ⟨rfl, fun e he => absurd he List.not_mem_nil⟩
    | cons he _ ih =>
      obtain ⟨⟩ := he
      exact ⟨congrArg (_ :: ·) ih.1, fun e he => (List.mem_cons.mp he).elim (fun h => h ▸ rfl)
        (ih.2 e)⟩
  exact ⟨hsame.1 ▸ hrun, hsame.2⟩

/-- What an exchange satisfies at the exchanges before it. -/
def AtExchanges (G : List (Exchange H.World) → Exchange H.World → Prop) (h : History H)
    (e : Happened H) : Prop :=
  ∀ x, exchange? e = some x → G (exchangesOf h) x

theorem every_exchange {G : List (Exchange H.World) → Exchange H.World → Prop} {h tr : History H} :
    EveryAfter (AtExchanges G) h tr ↔ EveryAfter G (exchangesOf h) (exchangesOf tr) := by
  constructor
  · intro hevery pre x post hsplit
    obtain ⟨tr₁, tr₂, rfl, rfl, hrest⟩ := List.filterMap_eq_append_iff.mp hsplit
    obtain ⟨skipped, e, tr₃, rfl, hskipped, he, rfl⟩ := List.filterMap_eq_cons_iff.mp hrest
    have hnone : exchangesOf skipped = [] := List.filterMap_eq_nil_iff.mpr hskipped
    have hat := hevery (tr₁ ++ skipped) e tr₃ (by rw [List.append_assoc]) x he
    rwa [exchangesOf_append, exchangesOf_append, hnone, List.append_nil] at hat
  · rintro hevery pre e post rfl x hx
    rw [exchangesOf_append]
    refine hevery (exchangesOf pre) x (exchangesOf post) ?_
    rw [exchangesOf_append]
    exact congrArg (exchangesOf pre ++ ·) (List.filterMap_cons_some hx)

/-- What is safe without a store is safe beside it. -/
theorem SafeOr.beside {ε α : Type} {p : Program GraphExchange GraphExchange.Reply ε α}
    {G : List (Exchange H.World) → Exchange H.World → Prop}
    {Q : α → List (Exchange H.World) → H.World → Prop}
    {F : ε → List (Exchange H.World) → H.World → Prop} {h : History H} {s : H.World × Tables}
    (hp : SafeOr H.alone G (exchangesOf h) s.1 p Q F) :
    SafeOr (surroundings H) (AtExchanges G) h s (p.among CycleOp.server fun _ a => a)
    (fun a h s => Q a (exchangesOf h) s.1)
      fun e h s => F e (exchangesOf h) s.1 := by
  intro tr r u hr
  obtain ⟨hevery, hmeets⟩ := hp _ _ _ (run_alone hr).1
  refine ⟨every_exchange.mpr hevery, ?_⟩
  simpa only [exchangesOf_append] using hmeets

variable {graph : GraphRules} {serviceUrl accessToken : String} {textPages turns : ℕ}
  {rules : ContentRules} {order : HashOrder} {recentLimit : ℤ} {batches : BatchWriter}
  {s u : H.World × Tables} {tr : History H} {r : Outcome CycleEnd (LoadResult × GraphService)}

/-- The cycle failed with a refusal that stands. -/
def FailsRefused (accessToken : String) (failure : CycleEnd) (h : History H) : Prop :=
  RefusalStands accessToken (exchangesOf h) ∧ ∃ error, failure = .ofGraph error ∧
  isRefusedToken error = true

theorem overHttp_safe (o : CycleOp GraphRequest) {service : GraphService} {h : History H}
    (hgoing : Going accessToken service (exchangesOf h)) :
    SafeOr (surroundings H) (AtExchanges (TokenKept accessToken)) h s
    (overHttp graph serviceUrl textPages o service)
      (fun r h _ => (∀ failure, EndsUnauthorized o r.1 failure →
        FailsRefused accessToken failure h) ∧
        ((∀ failure, ¬EndsUnauthorized o r.1 failure) → Going accessToken r.2 (exchangesOf h)))
        fun _ _ _ => True := by
  cases o with
  | store op =>
    refine SafeOr.ask fun s' answer t _ _ =>
      ⟨fun x hx => (by cases hx), SafeOr.done ⟨fun _ h => h.elim, fun _ => ?_⟩⟩
    have hsame : exchangesOf (h ++ [(⟨s', .store op, answer, t⟩ : Happened H)]) =
        exchangesOf h := by
      rw [exchangesOf_append]
      exact List.append_nil _
    rw [hsame]
    exact hgoing
  | server request =>
    refine (SafeOr.beside (answer_safe request hgoing)).mono
      (fun r _ _ hr => ⟨fun failure hfailure => ?_, hr.2⟩) fun _ _ _ h => h
    obtain ⟨error, -, hrefuses, rfl⟩ := id hfailure
    exact ⟨hr.1 _ hfailure, error, rfl, hrefuses⟩

/-- **The token is renewed at most once in a cycle**, and only when the service refused it; every
request carries the token given last; and nothing comes after a refusal that a renewal does not
lift: the cycle fails with it. -/
theorem renews_once
    (h : Run (surroundings H) (synchronizeOverHttp graph serviceUrl textPages accessToken rules
      order turns recentLimit batches) s tr r u) :
    Every (TokenKept accessToken) (exchangesOf tr) ∧ (RefusalStands accessToken (exchangesOf tr) →
      r = .cut ∨ ∃ error, r = .failed (.ofGraph error) ∧ isRefusedToken error = true) := by
  have hsafe : SafeOr (surroundings H) (AtExchanges (TokenKept accessToken)) [] s
      (synchronizeOverHttp graph serviceUrl textPages accessToken rules order turns
        recentLimit batches)
      (fun r h _ => Going accessToken r.2 (exchangesOf h))
      fun failure h _ => FailsRefused accessToken failure h ∨
        ∃ service, Going accessToken service (exchangesOf h) :=
    SafeOr.handledBy (I := fun service h _ => Going accessToken service (exchangesOf h))
      (L := fun failure h _ => FailsRefused accessToken failure h)
        (fun o _ _ _ hgoing => overHttp_safe o hgoing)
      (synchronizeGraphFolder_failsOn rules order turns recentLimit batches) going_nil
  obtain ⟨hevery, hmeets⟩ := hsafe tr r u h
  refine ⟨every_exchange.mp hevery, fun hstands => ?_⟩
  cases r with
  | returned a => exact absurd hstands (Going.not_stands hmeets)
  | failed failure =>
    rcases hmeets with ⟨-, error, rfl, hrefuses⟩ | ⟨service, hgoing⟩
    · exact .inr ⟨error, rfl, hrefuses⟩
    · exact absurd hstands hgoing.not_stands
  | cut => exact .inl rfl

end Runs

/-! ### A cycle that renews its token -/

/-- A service that knows the new token only, and has nothing to tell. -/
def servingRenewed : (o : GraphExchange) → o.Reply
  | .send request =>
    if request.accessToken = "new" then
      .ok ⟨200, some (pageAnswer (fun _ => "") ⟨[], .finished "next"⟩)⟩ else .ok ⟨401, none⟩
  | .renew => some "new"

/-- A cycle that starts with the old token. -/
def renewing :
    History (anyServer GraphExchange.Reply) × Outcome CycleEnd (LoadResult × GraphService) ×
      (Unit × Tables) :=
  exec (scripted servingRenewed) (synchronizeOverHttp plainRules "" 1 "old" noTextRules inOrder 1 0
    ⟨filledInbox⟩)
    ((), run .empty inArchive)

/-- It completes, its one request repeated with the new token. -/
theorem renews_once_renewing :
    (exchangesOf renewing.1).length = 3 ∧ renewing.2.1 = .returned (.stored none, ⟨"new", false⟩) ∧
    Every (TokenKept "old") (exchangesOf renewing.1) :=
  ⟨rfl, rfl, (renews_once (run_scripted servingRenewed _ _)).1⟩

end Mailbag.Cycle
