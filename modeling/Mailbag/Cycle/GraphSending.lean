import Mailbag.Cycle.GraphPatches

/-!
# The user's changes of a Microsoft 365 folder over HTTP

The sending step of a cycle, exchange by exchange: each request of the cycle is carried out in the
exchanges that the service's answers make of it.

## What is proved

* `overHttp_refines` — a run of the cycle over HTTP is a run of the cycle, with a server that
  answers each request as the exchanges let it.
* `sends_over_http` — over HTTP a wish is settled only right after a PATCH of its message with its
  value was answered 200, dropped only right after one was refused with another 4xx than the
  token's, and nothing else is patched.
-/

namespace Mailbag.Cycle

open Collections Graph Imap Interaction Program Relation Store

/-! ### Over HTTP -/

section OverHttp

variable {H : Server GraphExchange.Reply} {graph : GraphRules} {serviceUrl accessToken : String}
  {textPages turns : ℕ} {rules : ContentRules} {order : HashOrder} {recentLimit : ℤ}
  {batches : BatchWriter} {s u : H.World × Tables} {tr : History H}
  {r : Outcome CycleEnd (LoadResult × GraphService)}

/-- The service as a cycle's requests meet it: it answers a request as some exchanges with it let
the service of a cycle answer. -/
def servedOver (graph : GraphRules) (serviceUrl : String) (textPages : ℕ)
    (H : Server GraphExchange.Reply) : Server GraphRequest.Reply where
  World := H.World
  step := H.step
  answer w request reply w' := ∃ service service' log,
    Run H.alone (GraphService.answer graph serviceUrl textPages request service) w log
      (.returned (reply, service')) w'

/-- While the service of a cycle exchanges, only the window changes the store. -/
theorem window_of_alone {ε α : Type} {p : Program GraphExchange GraphExchange.Reply ε α}
    {r : Outcome ε α}
    (h : Run (surroundings H) (p.among CycleOp.server fun _ a => a) s tr r u) :
    ReflTransGen Window s.2 u.2 := by
  induction p generalizing s tr with
  | done a => cases h <;> exact .refl
  | fail e => cases h <;> exact .refl
  | cut =>
    cases h
    exact .refl
  | ask o k ih =>
    cases h with
    | cut => exact .refl
    | @ask _ _ _ _ t _ _ _ _ hm ha hr =>
      have hsame : t.2 = _ := ha.2
      exact (moved hm).2.1.trans (hsame ▸ ih _ hr)

theorem overHttp_answered (o : CycleOp GraphRequest) (service : GraphService) (s : H.World × Tables)
    (tr : History H) (a : CycleAns GraphRequest.Reply o) (service' : GraphService)
    (u : H.World × Tables)
    (h : Run (surroundings H) (overHttp graph serviceUrl textPages o service) s tr
      (.returned (a, service')) u) :
    ∃ s', ReflTransGen (surroundings (servedOver graph serviceUrl textPages H)).move s s' ∧
      (surroundings (servedOver graph serviceUrl textPages H)).answer s' o a u := by
  cases o with
  | store op =>
    cases h with
    | ask hm ha hr =>
      cases hr
      exact ⟨_, hm, ha⟩
  | server request =>
    refine ⟨(s.1, u.2), ?_, ⟨service, service', _, (run_alone h).1⟩, rfl⟩
    have hwindow := window_of_alone h
    generalize u.2 = t at hwindow
    induction hwindow with
    | refl => exact .refl
    | tail _ hstep ih => exact ih.tail (.inr ⟨rfl, hstep⟩)

/-- **The cycle over HTTP refines the cycle**: what a run of it asks of the store and of the service
is what a run of the cycle asks, each request carried out by the exchanges of the cycle's service,
in the same order. -/
theorem overHttp_refines
    (h : Run (surroundings H) (synchronizeOverHttp graph serviceUrl textPages accessToken rules
      order turns recentLimit batches) s tr r u) :
    ∃ es service done rest, Carried (surroundings H) (overHttp graph serviceUrl textPages)
      (.new accessToken) es done service ∧
      tr = done ++ rest ∧
      ((rest = [] ∧ ∃ r', r'.Handled service r ∧
        Run (surroundings (servedOver graph serviceUrl textPages H))
          (synchronizeGraphFolder rules order turns recentLimit batches) s es r' u) ∨
        r = .cut ∧ (rest = [] ∨ ∃ o,
          Next (synchronizeGraphFolder rules order turns recentLimit batches) es o ∧
            Unfinished (surroundings H) (overHttp graph serviceUrl textPages) service o rest) ∧
          ∃ v, Run (surroundings (servedOver graph serviceUrl textPages H))
            (synchronizeGraphFolder rules order turns recentLimit batches) s es .cut v) :=
  Run.of_handledBy (E := surroundings (servedOver graph serviceUrl textPages H)) overHttp_answered h

/-! ### What each request exchanges -/

/-- The request changes the flag so. -/
structure IsPatch (graph : GraphRules) (serviceUrl id : String) (update : FlagUpdate)
    (request : HttpRequest) : Prop where
  /-- It is a change, -/
  method : request.method = .patch
  /-- of the message, -/
  address : request.address = serviceUrl ++ "/me/messages/" ++ graph.escaped id
  /-- to the value. -/
  body : request.body = some (flagBody update)

/-- What an operation of the cycle is carried out by. -/
def CarriesOut (graph : GraphRules) (serviceUrl : String) :
    CycleOp GraphRequest → CycleOp GraphExchange → Prop
  | .store op, o => o = .store op
  | .server _, .store _ => False
  | .server _, .server .renew => True
  | .server (.updateMessageFlags id update), .server (.send request) =>
    IsPatch graph serviceUrl id update request
  | .server _, .server (.send request) => request.method = .get

section Asks

variable {K : GraphExchange → Prop} {α : Type} {service : GraphService}

theorem exchange_asks {address : String} {g : HttpRequest → HttpRequest}
    {k : HttpAnswer → GraphProgram α} (hg : K (.send (g ⟨.get, address, accessToken, none, none⟩)))
    (hk : ∀ answer, (k answer).Asks K) :
    ((Program.ofExcept (buildRequest graph accessToken address)).bind fun request =>
      (send (g request)).bind k).Asks K := by
  rw [buildRequest]
  split
  · trivial
  · exact Asks.bind (p := send _) (Asks.bind (Asks.request hg) fun _ => .ofExcept _) hk

theorem readReply_asks (reply : Except GraphFailure α) : (readReply reply).Asks K := .ofExcept _

theorem request_asks (call : String → GraphProgram α) (hcall : ∀ token, (call token).Asks K)
    (hrenew : K .renew) : (service.request call).Asks K := by
  refine (hcall _).attempt.bind fun answer => ?_
  cases answer with
  | ok => trivial
  | error error =>
    dsimp only
    split
    · refine Asks.bind (Asks.request hrenew) fun given => ?_
      cases given with
      | none => trivial
      | some token =>
        dsimp only
        split
        · exact (hcall _).attempt.bind fun _ => trivial
        · trivial
    · trivial

theorem readOne_asks {address : String}
    (hget : ∀ request : HttpRequest, request.method = .get → K (.send request)) :
    (readOne graph accessToken address).Asks K := by
  refine exchange_asks (hget _ rfl) fun answer => ?_
  split
  · trivial
  · exact Asks.bind (.ofExcept _) fun _ => trivial

/-- A request that reads sends only GET requests. -/
theorem reads_asks (hget : ∀ request : HttpRequest, request.method = .get → K (.send request))
    (hrenew : K .renew) (request : GraphRequest)
    (hreads : ∀ id update, request ≠ .updateMessageFlags id update) :
    (GraphService.answer graph serviceUrl textPages request service).Asks K := by
  cases request with
  | readMessageChanges start =>
    refine request_asks (fun token => readMessageChanges graph serviceUrl token start)
      (fun token => ?_) hrenew
    exact exchange_asks (hget (HttpRequest.prefer _ deltaPreferences) rfl) fun _ => Asks.bind
      (.ofExcept _) fun _ => readReply_asks _
  | readMessage id =>
    refine request_asks (fun token => readMessageNow graph serviceUrl token id)
      (fun token => ?_) hrenew
    refine Asks.bind (readOne_asks hget) fun answer => ?_
    cases answer with
    | some answer => exact Asks.bind (readReply_asks _) fun _ => trivial
    | none => trivial
  | readMessageText id =>
    refine request_asks (fun token => readMessageText graph serviceUrl token id)
      (fun token => ?_) hrenew
    refine Asks.bind (readOne_asks hget) fun answer => ?_
    cases answer with
    | some answer => exact readReply_asks _
    | none => trivial
  | readTextsReceivedBetween folder first last =>
    refine request_asks (fun token => readTextsReceivedBetween graph serviceUrl token textPages
      folder first last) (fun token => ?_) hrenew
    rw [readTextsReceivedBetween]
    generalize (textsAddress graph serviceUrl folder first last,
      ([] : List (String × Option String))) = page
    induction textPages generalizing page with
    | zero => trivial
    | succ n ih =>
      have hpage : (readTextsPage graph token page).Asks K :=
        exchange_asks (hget (HttpRequest.prefer _ preferences) rfl) fun _ => Asks.bind
          (.ofExcept _) fun _ =>
          Asks.bind (readReply_asks _) fun read => by
            dsimp only
            split <;> trivial
      refine hpage.bind fun next => ?_
      cases next with
      | inl page => exact ih page
      | inr => trivial
  | updateMessageFlags id update => exact absurd rfl (hreads id update)

/-- A change of a flag sends nothing but this change. -/
theorem updateMessageFlags_asks {id : String} {update : FlagUpdate}
    (hpatch : ∀ request, IsPatch graph serviceUrl id update request → K (.send request))
    (hrenew : K .renew) :
    (GraphService.answer graph serviceUrl textPages (.updateMessageFlags id update) service).Asks
      K := by
  refine request_asks (fun token => updateMessageFlags graph serviceUrl token id update)
    (fun token => ?_) hrenew
  refine exchange_asks (g := fun request =>
    { request with method := .patch, body := some (flagBody update) }.prefer preferences)
    (hpatch _ ⟨rfl, rfl, rfl⟩) fun answer => ?_
  exact Asks.bind (.ofExcept _) fun _ => trivial

theorem answer_asks (request : GraphRequest) :
    (GraphService.answer graph serviceUrl textPages request service).Asks fun o =>
      CarriesOut graph serviceUrl (.server request) (.server o) := by
  cases request with
  | updateMessageFlags id update => exact updateMessageFlags_asks (fun _ => fun h => h) trivial
  | _ => exact reads_asks (fun _ h => h) trivial _ fun _ _ h => by cases h

theorem overHttp_asks (o : CycleOp GraphRequest) :
    (overHttp graph serviceUrl textPages o service).Asks (CarriesOut graph serviceUrl o) := by
  cases o with
  | store op => exact ⟨rfl, fun _ => trivial⟩
  | server request => exact (answer_asks request).among

end Asks

/-- The call's last exchange was answered so. -/
def AnsweredLast {W : Type} (accepts : ℕ → Prop) (log : List (Exchange W)) : Prop :=
  ∃ earlier s request answer t, log = earlier ++ [⟨s, .send request, .ok answer, t⟩] ∧
    accepts answer.status

/-- A status that refuses the change. -/
def RefusesChange (status : ℕ) : Prop := 400 ≤ status ∧ status < 500 ∧ status ≠ 401

/-- A change of a flag succeeds with a 200, and is refused with a 4xx but the token's. -/
theorem updateMessageFlags_answered {W : Type}
    {E : Surroundings GraphExchange GraphExchange.Reply W} {log : List (Exchange W)} {s : W}
    {id : String} {update : FlagUpdate} :
    SafeOr E (fun _ _ => True) log s (updateMessageFlags graph serviceUrl accessToken id update)
      (fun _ log _ => AnsweredLast (· = 200) log)
      fun error log _ => refusesTheChange error = true → AnsweredLast RefusesChange log := by
  have hnot : ∀ {failure : GraphFailure} {reason : Option String},
    (∀ status code, failure ≠ .refused status code) →
      refusesTheChange (failed failure reason) = false := fun {failure reason} hfailure => by
    cases failure <;> first | rfl | exact absurd rfl (hfailure _ _)
  refine SafeOr.bind_ofExcept (fun request hrequest => ?_) fun error herror => ?_
  · refine SafeOr.bind (R := fun answer log _ => ∃ earlier s request t, log = earlier ++
      [⟨s, .send request, .ok answer, t⟩]) ?_
      fun answer tr t hlast => ?_
    · rw [send]
      refine .bind_request (fun _ _ _ _ => trivial) fun s₁ answer t₁ _ => ?_
      cases answer with
      | ok answer => exact .done ⟨_, _, _, _, rfl⟩
      | error error =>
        refine .fail fun hrefuses => ?_
        rw [transportFailure, hnot fun _ _ => by split <;> simp] at hrefuses
        cases hrefuses
    · obtain ⟨earlier, s₁, request, t₁, hlog⟩ := hlast
      by_cases hok : answer.status = 200
      · rw [checkStatus, if_pos hok]
        exact .done ⟨earlier, s₁, request, answer, t₁, hlog, hok⟩
      · obtain ⟨code, reason, hrefusal⟩ := checkStatus_error hok
        rw [hrefusal]
        refine .fail fun hrefuses => ⟨earlier, s₁, request, answer, t₁, hlog, ?_⟩
        simpa [refusesTheChange, failed, RefusesChange] using hrefuses
  · rw [buildRequest] at herror
    split at herror <;> cases herror
    rintro ⟨⟩

/-- A request is answered as its last call was, unless with the token's refusal. -/
theorem request_answered {W α : Type} {E : Surroundings GraphExchange GraphExchange.Reply W}
    (log : List (Exchange W)) {s : W} {service : GraphService}
    {Q : α → List (Exchange W) → W → Prop} {F : GraphError → List (Exchange W) → W → Prop}
    (call : String → GraphProgram α)
    (hcall : ∀ token log s, SafeOr E (fun _ _ => True) log s (call token) Q F) :
    SafeOr E (fun _ _ => True) log s (service.request call)
      (fun r log s => (∀ a, r.1 = .ok a → Q a log s) ∧ ∀ error, r.1 = .error error →
        isRefusedToken error = false → F error log s)
      fun _ _ _ => True := by
  refine SafeOr.bind (hcall _ _ _).attempt fun answer tr t hanswer => ?_
  have hkept : ∀ {log : List (Exchange W)} {s : W} {error : GraphError} {service : GraphService},
    isRefusedToken error = true →
      SafeOr E (fun _ _ => True) log s
        (.done (.error error, service) : ServiceProgram (Except GraphError α × GraphService))
        (fun r log s => (∀ a, r.1 = .ok a → Q a log s) ∧
          ∀ error, r.1 = .error error → isRefusedToken error = false → F error log s) fun _ _ _ =>
            True := fun hrefuses =>
    .done ⟨fun _ h => (by cases h), fun error' h hnot => by
      cases h
      rw [hrefuses] at hnot
      cases hnot⟩
  cases answer with
  | ok a => exact .done ⟨fun a' h => hanswer.1 a' h, fun _ h => (by cases h)⟩
  | error error =>
    show SafeOr E _ _ t (if isRefusedToken error && service.renewal then _ else _) _ _
    split
    · next hrenews =>
      rw [Bool.and_eq_true] at hrenews
      refine .bind_request (fun _ _ _ _ => trivial) fun s₁ given t₁ _ => ?_
      cases given with
      | none => exact hkept hrenews.1
      | some token =>
        show SafeOr E _ _ t₁ (if token ≠ service.accessToken then _ else _) _ _
        split
        · exact SafeOr.bind (hcall _ _ _).attempt fun answer _ _ hagain =>
            .done ⟨hagain.1, fun error' h _ => hagain.2 error' h⟩
        · exact hkept hrenews.1
    · exact .done ⟨fun _ h => (by cases h), fun error' h _ => hanswer.2 error' h⟩

/-! ### The user's changes over HTTP -/

/-- The request changes the flag of the wish's message to the wish's value. -/
def Patches (graph : GraphRules) (serviceUrl : String) (change : PendingChange)
    (request : HttpRequest) : Prop :=
  ∃ id, graphId change.identity = some id ∧ IsPatch graph serviceUrl id (flagUpdate change) request

/-- An operation of a sending step once its wishes were read. -/
def InChanges : CycleOp GraphExchange → Prop
  | .server _ => True
  | .store (.settleFlags ..) => True
  | .store _ => False

/-- The store held the wish at the start of this sending step. -/
def Wished (folder : FolderRef) (change : PendingChange) (h : History H) : Prop :=
  ∃ earlier s t changes step, h = earlier ++ ⟨s, .store (.readPendingChanges folder), .ok changes,
    t⟩ :: step ∧ change ∈ changes ∧
    ∀ e ∈ step, InChanges e.op

/-- A wish of this sending step was sent last, with the token given last, and answered so. -/
def PatchedLast (graph : GraphRules) (serviceUrl : String) (folder : FolderRef) (accepts : ℕ → Prop)
    (change : PendingChange) (h : History H) : Prop :=
  ∃ earlier s request answer t, h = earlier ++ [⟨s, .server (.send request), .ok answer, t⟩] ∧
    Patches graph serviceUrl change request ∧ accepts answer.status ∧ Wished folder change earlier

/-- What an operation of a cycle over HTTP has to do with the user's changes. -/
structure SendsOverHttp (graph : GraphRules) (serviceUrl : String) (folder : FolderRef)
    (h : History H) (e : Happened H) : Prop where
  /-- Only wishes of this sending step are sent. -/
  sends : ∀ request, e.op = .server (.send request) → request.method = .patch →
    ∃ change, Wished folder change h ∧ Patches graph serviceUrl change request
  /-- A wish is settled right after the service took it. -/
  settles : ∀ account identities flag value, e.op = .store
    (.settleFlags account identities flag value) →
    ∃ change, PatchedLast graph serviceUrl folder (· = 200) change h ∧ account = folder.account ∧
      identities = [change.identity] ∧
      flag = change.flag ∧ value = change.wanted
  /-- A wish is dropped right after the service refused it. -/
  drops : ∀ account identities flag value, e.op = .store
    (.dropPendingFlags account identities flag value) →
    ∃ change, PatchedLast graph serviceUrl folder RefusesChange change h ∧
      account = folder.account ∧
      identities = [change.identity] ∧ flag = change.flag ∧ value = change.wanted
  /-- Nothing follows a dropped wish. -/
  undropped : ∀ e' ∈ h, ∀ account identities flag value, e'.op ≠ .store
    (.dropPendingFlags account identities flag value)

section Carrying

variable {es : GraphLog (H.World × Tables)} {service service' : GraphService} {h : History H}
  {folder : FolderRef} {change : PendingChange}

theorem run_overHttp_store {op : StoreCall} {a : CycleAns GraphRequest.Reply (.store op)}
    (hrun : Run (surroundings H) (overHttp graph serviceUrl textPages (.store op) service) s h
      (.returned (a, service')) u) : ∃ s', h = [⟨s', .store op, a, u⟩] := by
  cases hrun with
  | ask _ _ hr =>
    cases hr
    exact ⟨_, rfl⟩

theorem carried_ops
    (hcarried : Carried (surroundings H) (overHttp graph serviceUrl textPages) service es h
      service') : ∀ e ∈ h, ∃ f ∈ es, CarriesOut graph serviceUrl f.op e.op := by
  induction hcarried with
  | nil => exact fun e he => absurd he List.not_mem_nil
  | @cons _ _ _ _ f es tr tr' hrun _ ih =>
    intro e he
    rcases List.mem_append.mp he with he | he
    · exact ⟨f, List.mem_cons_self, hrun.asked (overHttp_asks f.op) e he⟩
    · obtain ⟨f', hf', hcarries⟩ := ih e he
      exact ⟨f', List.mem_cons_of_mem _ hf', hcarries⟩

/-- What sends and settles wishes is carried out by exchanges and by settling them. -/
theorem inChanges_of_sent {sent : List PendingChange} (hsent : SentSo folder sent es)
    {f : Event (CycleOp GraphRequest) (CycleAns GraphRequest.Reply) (H.World × Tables)}
    (hf : f ∈ es) {o : CycleOp GraphExchange} (hcarries : CarriesOut graph serviceUrl f.op o) :
    InChanges o := by
  induction hsent with
  | nil => cases hf
  | next _ _ ih =>
    rcases List.mem_append.mp hf with hf | hf
    · exact ih hf
    · rcases List.mem_pair.mp hf with rfl | rfl
      · cases o with
        | server o => trivial
        | store op => exact hcarries.elim
      · cases hcarries
        trivial

/-- The wishes of a sending step were read from the store. -/
theorem wished_of_step
    (hcarried : Carried (surroundings H) (overHttp graph serviceUrl textPages) service es h
      service')
    {sent rest : List PendingChange} (hstep : InStepAfter folder sent rest es) :
    ∀ change ∈ rest, Wished folder change h := by
  intro change hchange
  obtain ⟨earlier, s₀, t₀, step, rfl, hsent⟩ := hstep
  obtain ⟨t₁, tr₁, tr₂, rfl, -, hrest⟩ := hcarried.of_append
  cases hrest with
  | @cons _ t₂ _ _ _ _ tr₃ tr₄ hread hstep =>
    obtain ⟨s', rfl⟩ := run_overHttp_store hread
    refine ⟨tr₁, s', _, sent ++ rest, tr₄, rfl, List.mem_append_right _ hchange, fun e he => ?_⟩
    obtain ⟨f, hf, hcarries⟩ := carried_ops hstep e he
    exact inChanges_of_sent hsent hf hcarries

theorem Wished.exchanges (hwished : Wished folder change h) {tr : History H}
    (htr : ∀ e ∈ tr, InChanges e.op) : Wished folder change (h ++ tr) := by
  obtain ⟨earlier, s', t, changes, step, rfl, hchange, hstep⟩ := hwished
  refine ⟨earlier, s', t, changes, step ++ tr, by rw [List.append_assoc]; rfl, hchange,
    fun e he => ?_⟩
  exact (List.mem_append.mp he).elim (hstep e) (htr e)

theorem last_of_exchanges {accepts : ℕ → Prop} (hall : ∀ e ∈ h, (exchange? e).isSome)
    (hlast : AnsweredLast accepts (exchangesOf h)) :
    ∃ earlier s request answer t, h = earlier ++ [⟨s, .server (.send request), .ok answer, t⟩] ∧
      accepts answer.status := by
  obtain ⟨log, s', request, answer, t, hlog, haccepts⟩ := hlast
  rcases List.eq_nil_or_concat h with rfl | ⟨earlier, e, rfl⟩
  · cases log <;> cases hlog
  · rw [List.concat_eq_append] at hlog hall ⊢
    obtain ⟨x, hx⟩ := Option.isSome_iff_exists.mp (hall e (by simp))
    have hlog' : exchangesOf earlier ++ [x] = log ++ [⟨s', .send request, .ok answer, t⟩] := by
      rw [← hlog, exchangesOf_append]
      exact congrArg (exchangesOf earlier ++ ·) (by simp [exchangesOf, hx])
    obtain ⟨-, hsame⟩ := List.append_inj' hlog' rfl
    cases hsame
    obtain ⟨before, op, ans, after⟩ := e
    cases op with
    | store op => cases hx
    | server o =>
      cases hx
      exact ⟨earlier, before, request, answer, after, rfl, haccepts⟩

theorem patched_of_sent
    (hcarried : Carried (surroundings H) (overHttp graph serviceUrl textPages) service es h
      service')
    {answer : Except GraphError Unit} (hsent : SentLast folder change answer es) :
    (answer = .ok () → PatchedLast graph serviceUrl folder (· = 200) change h) ∧
      ∀ error, answer = .error error → refusesTheChange error = true →
        PatchedLast graph serviceUrl folder RefusesChange change h := by
  obtain ⟨earlier, sent, rest, id, s₀, t₀, rfl, hstep, hid⟩ := hsent
  obtain ⟨t₁, tr₁, tr₂, rfl, hearlier, hlast⟩ := hcarried.of_append
  cases hlast with
  | @cons _ t₂ _ s₁ _ _ tr tr₃ hrun hnil =>
    cases hnil
    rw [List.append_nil]
    have hwished := wished_of_step hearlier hstep change List.mem_cons_self
    obtain ⟨halone, hall⟩ := run_alone hrun
    obtain ⟨-, hanswered⟩ := request_answered []
      (fun token => updateMessageFlags graph serviceUrl token id (flagUpdate change))
      (fun _ _ _ => updateMessageFlags_answered) _ _ _ halone
    -- the exchange answered last patched the wish's message
    have hpatched : ∀ accepts, AnsweredLast accepts (exchangesOf tr) →
        PatchedLast graph serviceUrl folder accepts change (tr₁ ++ tr) := by
      intro accepts haccepts
      obtain ⟨before, s', request, reply, t', rfl, hstatus⟩ := last_of_exchanges hall haccepts
      have hcarries := hrun.asked (overHttp_asks _)
      refine ⟨tr₁ ++ before, s', request, reply, t', (List.append_assoc _ _ _).symm,
        ⟨id, hid, ?_⟩, hstatus,
        hwished.exchanges fun e he => ?_⟩
      · exact hcarries _ (List.mem_append_right _ (List.mem_singleton.mpr rfl))
      · have hone := hcarries e (List.mem_append_left _ he)
        cases hop : e.op with
        | server o => trivial
        | store op => rw [hop] at hone; exact hone.elim
    refine ⟨fun hok => hpatched _ (hanswered.1 () hok), fun error herror hrefuses => hpatched _ ?_⟩
    refine hanswered.2 error herror ?_ hrefuses
    by_contra htoken
    rw [refusesTheChange_eq_false (by simpa using htoken)] at hrefuses
    cases hrefuses

/-- An event of carrying out an operation the cycle asks. -/
theorem carried_sends
    (hcarried : Carried (surroundings H) (overHttp graph serviceUrl textPages) service es h
      service')
    {f : Event (CycleOp GraphRequest) (CycleAns GraphRequest.Reply) (H.World × Tables)}
    (hes : Every (ChangesWished folder) (es ++ [f])) {pre post : History H} {e : Happened H}
    {p : Outcome Empty (CycleAns GraphRequest.Reply f.op × GraphService)}
    (hrun : Run (surroundings H) (overHttp graph serviceUrl textPages f.op service') s
      (pre ++ e :: post) p u) : SendsOverHttp graph serviceUrl folder (h ++ pre) e := by
  have hf : ChangesWished folder es f := hes es f [] rfl
  have hcarries := hrun.asked (overHttp_asks f.op)
  have he := hcarries e (by simp)
  -- before the operation nothing was dropped, as something follows it
  have hundropped : ∀ e' ∈ h, ∀ account identities flag value, e'.op ≠ .store
      (.dropPendingFlags account identities flag value) := by
    intro e' he' account identities flag value hdrop
    obtain ⟨g, hg, hcarries⟩ := carried_ops hcarried e' he'
    have hgop : g.op = .store (.dropPendingFlags account identities flag value) := by
      rw [hdrop] at hcarries
      cases hgop : g.op with
      | store op =>
        rw [hgop] at hcarries
        cases hcarries
        rfl
      | server request =>
        rw [hgop] at hcarries
        exact hcarries.elim
    obtain ⟨before, after, rfl⟩ := List.append_of_mem hg
    cases after with
    | nil => exact hf.undropped g List.getLast?_concat (by rw [hgop]; trivial)
    | cons g' after =>
      have hg' := hes (before ++ [g]) g' (after ++ [f]) (by simp)
      exact hg'.undropped g List.getLast?_concat (by rw [hgop]; trivial)
  obtain ⟨before, op, ans, after⟩ := f
  cases op with
  | store op =>
    have hone : pre = [] := by
      generalize htr : pre ++ e :: post = tr at hrun
      cases hrun with
      | cut => cases pre <;> cases htr
      | ask _ _ hr =>
        cases pre with
        | nil => rfl
        | cons e' pre =>
          obtain ⟨-, hrest⟩ := List.cons.inj htr
          cases hr <;> cases pre <;> cases hrest
    subst hone
    rw [List.append_nil]
    refine ⟨fun request ho => ?_, fun account identities flag value ho => ?_,
      fun account identities flag value ho => ?_, hundropped⟩
    · cases ho.symm.trans he
    · cases ho.symm.trans he
      obtain ⟨change, hlast, hsame⟩ := hf.settles account identities flag value rfl
      exact ⟨change, (patched_of_sent hcarried hlast).1 rfl, hsame⟩
    · cases ho.symm.trans he
      obtain ⟨change, error, hlast, hrefuses, hsame⟩ := hf.drops account identities flag value rfl
      exact ⟨change, (patched_of_sent hcarried hlast).2 error rfl hrefuses, hsame⟩
  | server request =>
    have hexchange : ∀ e' ∈ pre ++ e :: post, ∃ o, e'.op = .server o := fun e' he' => by
      have hone := hcarries e' he'
      cases hop : e'.op with
      | server o => exact ⟨o, rfl⟩
      | store op =>
        rw [hop] at hone
        exact hone.elim
    have hnot : ∀ e' ∈ pre ++ e :: post, ∀ op, e'.op ≠ .store op := fun e' he' op hop => by
      obtain ⟨o, ho⟩ := hexchange e' he'
      cases ho.symm.trans hop
    refine ⟨fun patch ho hmethod => ?_, fun _ _ _ _ ho => absurd ho (hnot e (by simp) _),
        fun _ _ _ _ ho =>
      absurd ho (hnot e (by simp) _), fun e' he' account identities flag value => ?_⟩
    · rw [ho] at he
      cases request with
      | updateMessageFlags id update =>
        obtain ⟨change, sent, rest, hstep, hid, rfl⟩ := hf.sends id update rfl
        refine ⟨change, (wished_of_step hcarried hstep change List.mem_cons_self).exchanges
          fun e' he' => ?_, id, hid, he⟩
        obtain ⟨o, ho⟩ := hexchange e' (List.mem_append_left _ he')
        rw [ho]
        trivial
      | _ => cases hmethod.symm.trans he
    · rcases List.mem_append.mp he' with he' | he'
      · exact hundropped e' he' account identities flag value
      · exact hnot e' (List.mem_append_left _ he') _

end Carrying

/-- An answer to a request. -/
def anyReply : (request : GraphRequest) → request.Reply
  | .readMessageChanges _ => .error ⟨.connectionFailed, none⟩
  | .readMessage _ => .error ⟨.connectionFailed, none⟩
  | .readMessageText _ => .error ⟨.connectionFailed, none⟩
  | .readTextsReceivedBetween .. => .error ⟨.connectionFailed, none⟩
  | .updateMessageFlags .. => .error ⟨.connectionFailed, none⟩

/-- An answer to an operation. -/
def anyAnswer : (o : CycleOp GraphRequest) → CycleAns GraphRequest.Reply o
  | .store _ => .error ⟨.storageFull, [], ""⟩
  | .server request => anyReply request

/-- **Over HTTP the cycle patches nothing but the user's wishes**, settles one only right after its
PATCH was answered 200, and drops one only right after its PATCH was refused with a 4xx other than
the token's 401; nothing follows that. -/
theorem sends_over_http
    (h : Run (surroundings H) (synchronizeOverHttp graph serviceUrl textPages accessToken rules
      order turns recentLimit batches) s tr r u) :
    Every (SendsOverHttp graph serviceUrl batches.folder) tr := by
  intro pre e post htr
  obtain ⟨es, service, done, rest, hcarried, hsplit, hends⟩ := overHttp_refines h
  have hes : ∀ {es : GraphLog (H.World × Tables)} {r : Outcome CycleEnd LoadResult}
    {v : H.World × Tables},
      Run (surroundings (servedOver graph serviceUrl textPages H))
        (synchronizeGraphFolder rules order turns recentLimit batches) s es r v →
        Every (ChangesWished batches.folder) es := fun hrun =>
    (synchronizeGraphFolder_sends _ rules order turns recentLimit batches s _ _ _ hrun).1
  have hdone : Every (ChangesWished batches.folder) es := by
    rcases hends with ⟨-, r', -, hrun⟩ | ⟨-, -, v, hrun⟩ <;> exact hes hrun
  have hlate : ∀ mid, pre = done ++ mid → rest = mid ++ e :: post →
      SendsOverHttp graph serviceUrl batches.folder pre e := by
    -- the event is of an operation that was not carried out
    rintro mid rfl rfl
    rcases hends with ⟨hnil, -⟩ | ⟨-, hnil | ⟨o, hnext, s', u', hrun, -⟩, -⟩
    · cases mid <;> cases hnil
    · cases mid <;> cases hnil
    · have hasked : Every (ChangesWished batches.folder) (es ++ [⟨s, o, anyAnswer o, s⟩]) :=
        (synchronizeGraphFolder_sends _ rules order turns recentLimit batches s _ _ _
          (hnext.run s s s (anyAnswer o))).1
      exact carried_sends hcarried hasked hrun
  rcases List.append_eq_append_iff.mp (hsplit.symm.trans htr) with ⟨mid, hpre, hrest⟩ | ⟨mid,
    hdone', hpost⟩
  · exact hlate mid hpre hrest
  · cases mid with
    | nil => exact hlate [] (by simpa using hdone'.symm) hpost.symm
    | cons e' mid =>
      obtain ⟨rfl, -⟩ := List.cons.inj hpost
      rw [hdone'] at hcarried
      obtain ⟨es₁, f, es₂, t₁, t₂, s', tr₁, pre', post', tr₂, rfl, rfl, -, hbefore, hrun, -⟩ :=
        hcarried.of_mem
      rw [List.append_cons] at hdone
      exact carried_sends hbefore (every_append_iff.mp hdone).1 hrun

end OverHttp

/-! ### A starred message -/

/-- A synchronized inbox with a message the user starred. -/
def starredInbox : List (StoreCall × Circumstances) :=
  let message : Message :=
    ⟨"graph:a", ⟨none, none, none⟩, some 1000, false, false, .text "Kept", ""⟩
  [(.replaceFolders filledInbox.account [⟨"INBOX", "INBOX", none, none, true⟩], ⟨false, none⟩),
    (.storeBatch filledInbox { FolderBatch.default with
        arrived := [message]
        state := some (completed (some "position")) },
      ⟨false, none⟩),
    (.writePendingFlag filledInbox.account "graph:a" .flagged true, ⟨false, none⟩)]

/-- A service that has nothing to tell, and takes every change. -/
def takingChanges : (o : GraphExchange) → o.Reply
  | .send request =>
    if request.method = .patch then .ok ⟨200, none⟩
      else .ok ⟨200, some (pageAnswer (fun _ => "") ⟨[], .finished "next"⟩)⟩
  | .renew => none

/-- The cycle of the inbox. -/
def starring :
    History (anyServer GraphExchange.Reply) × Outcome CycleEnd (LoadResult × GraphService) ×
      (Unit × Tables) :=
  exec (scripted takingChanges) (synchronizeOverHttp plainRules "" 1 "token" noTextRules inOrder 1 0
    ⟨filledInbox⟩)
    ((), run .empty starredInbox)

theorem starring_run : Run (surroundings (anyServer GraphExchange.Reply))
    (synchronizeOverHttp plainRules "" 1 "token" noTextRules inOrder 1 0 ⟨filledInbox⟩)
    ((), run .empty starredInbox)
    starring.1 starring.2.1 starring.2.2 :=
  run_scripted _ _ _

/-- It settles the star. -/
theorem sends_over_http_starring :
    starring.1.getLast?.map Event.op =
    some (.store (.settleFlags filledInbox.account ["graph:a"] .flagged true)) ∧
      Every (SendsOverHttp plainRules "" filledInbox) starring.1 :=
  ⟨rfl, sends_over_http starring_run⟩

/-- The same run, request by request. -/
theorem overHttp_refines_starring : ∃ es service done rest,
    Carried (surroundings (anyServer GraphExchange.Reply)) (overHttp plainRules "" 1) (.new "token")
    es done service ∧
      starring.1 = done ++ rest := by
  obtain ⟨es, service, done, rest, hcarried, hsplit, -⟩ := overHttp_refines starring_run
  exact ⟨es, service, done, rest, hcarried, hsplit⟩

end Mailbag.Cycle
