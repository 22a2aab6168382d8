import Mailbag.Cycle.GraphRemovals
import Mailbag.Graph.Service
import Mailbag.Interaction.Handled

/-!
# The exchanges of Microsoft Graph

Microsoft Graph for one cycle: each of the cycle's requests made with the account's token, in as
many exchanges as it takes, and repeated once with a renewed token when the service refuses the
first.

## What is proved

* `request_safe` — a request keeps to the token given last, renews it at most once and only when
  the service refused it, and sends nothing after a refusal that stands.
-/

namespace Mailbag.Cycle

open Collections Graph Imap Interaction Program Relation Store

/-! ### The service of a cycle -/

/-- Microsoft Graph for one cycle. -/
structure GraphService where
  /-- The account's token. -/
  accessToken : String
  /-- The one renewal of it the cycle may use is left. -/
  renewal : Bool

/-- The service at the start of a cycle. -/
def GraphService.new (accessToken : String) : GraphService := ⟨accessToken, true⟩

/-- The service refused the token. -/
def isRefusedToken (error : GraphError) : Bool :=
  match error.failure with
  | .refused status _ => status = 401
  | _ => false

/-- A part of a cycle that exchanges with the service. It does not fail: a failed request is an
answer. -/
abbrev ServiceProgram (α : Type) : Type := Program GraphExchange GraphExchange.Reply Empty α

/-- Make one request of the cycle. When the service refuses the token, ask Online Accounts for the
access once and, only with a different token, repeat the request once; otherwise the refusal
stands. -/
def GraphService.request {α : Type} (service : GraphService) (call : String → GraphProgram α) :
    ServiceProgram (Except GraphError α × GraphService) :=
  (call service.accessToken).attempt.bind fun
    | .ok a => .done (.ok a, service)
    | .error error =>
      if isRefusedToken error && service.renewal then
        (Program.request .renew).bind fun (given : Option String) =>
          match given with
          | some accessToken =>
            if accessToken ≠ service.accessToken then
              (call accessToken).attempt.bind fun answer => .done (answer, ⟨accessToken, false⟩)
            else .done (.error error, ⟨service.accessToken, false⟩)
          | none => .done (.error error, ⟨service.accessToken, false⟩)
      else .done (.error error, service)

section OverHttp

variable (graph : GraphRules) (serviceUrl : String) (textPages : ℕ)

/-- How the requests of a cycle are made; the texts of a range are followed for some number of
pages. -/
def GraphService.answer :
    Handler GraphRequest GraphRequest.Reply GraphExchange GraphExchange.Reply GraphService
  | .readMessageChanges start, service =>
    service.request fun token => readMessageChanges graph serviceUrl token start
  | .readMessage id, service =>
    service.request fun token => readMessageNow graph serviceUrl token id
  | .readMessageText id, service =>
    service.request fun token => readMessageText graph serviceUrl token id
  | .readTextsReceivedBetween folder first last, service =>
    service.request fun token => readTextsReceivedBetween graph serviceUrl token textPages folder
      first last
  | .updateMessageFlags id update, service =>
    service.request fun token => updateMessageFlags graph serviceUrl token id update

/-- How the operations of a cycle are carried out: the store's as they are. -/
def overHttp :
    Handler (CycleOp GraphRequest) (CycleAns GraphRequest.Reply) (CycleOp GraphExchange)
      (CycleAns GraphExchange.Reply)
    GraphService
  | .store op, service => .ask (.store op) fun answer => .done (answer, service)
  | .server request, service =>
    (GraphService.answer graph serviceUrl textPages request service).among CycleOp.server
      fun _ a => a

/-- The cycle of a Microsoft 365 folder with its requests made over HTTP. -/
def synchronizeOverHttp (accessToken : String) (rules : ContentRules) (order : HashOrder)
    (turns : ℕ) (recentLimit : ℤ) (batches : BatchWriter) :
    Program (CycleOp GraphExchange) (CycleAns GraphExchange.Reply) CycleEnd
      (LoadResult × GraphService) :=
  (synchronizeGraphFolder rules order turns recentLimit batches).handledBy
    (overHttp graph serviceUrl textPages) (.new accessToken)

end OverHttp

/-! ### Exchanges -/

/-- An exchange, or a renewal. -/
abbrev Exchange (W : Type) : Type := Event GraphExchange GraphExchange.Reply W

variable {W : Type}

/-- The answer refuses the token. -/
def refusesToken : (o : GraphExchange) → o.Reply → Bool
  | .send _, .ok answer => answer.status = 401
  | .send _, .error _ => false
  | .renew, _ => false

/-- The token that Online Accounts gave. -/
def givenToken : (o : GraphExchange) → o.Reply → Option String
  | .send _, _ => none
  | .renew, given => given

/-- The token given last, after the one the cycle started with. -/
def currentToken (accessToken : String) (log : List (Exchange W)) : String :=
  log.foldl (fun token e => (givenToken e.op e.ans).getD token) accessToken

/-- A renewal that gave no other token. -/
def Fruitless (accessToken : String) (log : List (Exchange W)) (e : Exchange W) : Prop :=
  e.op = .renew ∧ ∀ token, givenToken e.op e.ans = some token → token = currentToken accessToken log

/-- A refusal stands at the end: the token was renewed before, or the renewal gave no other. -/
def RefusalStands (accessToken : String) (log : List (Exchange W)) : Prop :=
  ∃ earlier e, log = earlier ++ [e] ∧
    (refusesToken e.op e.ans ∧ (∃ e' ∈ earlier, e'.op = .renew) ∨ Fruitless accessToken earlier e)

/-- An exchange as the service of a cycle makes it after those before. -/
structure TokenKept (accessToken : String) (log : List (Exchange W)) (e : Exchange W) : Prop where
  /-- A request carries the token given last. -/
  carries : ∀ request, e.op = .send request → request.accessToken = currentToken accessToken log
  /-- A renewal is the cycle's first, and comes right after the service refused the token. -/
  renews : e.op = .renew → (∀ e' ∈ log, e'.op ≠ .renew) ∧ ∃ e', log.getLast? = some e' ∧
    refusesToken e'.op e'.ans
  /-- Right after the service refused the token nothing but the renewal comes. -/
  renewed : ∀ e', log.getLast? = some e' → refusesToken e'.op e'.ans → e.op = .renew
  /-- Nothing comes after a refusal that stands. -/
  unrefused : ¬RefusalStands accessToken log

/-! ### What the service keeps -/

/-- The service goes on: it has the token given last, and its renewal unless it was used. -/
structure Going (accessToken : String) (service : GraphService) (log : List (Exchange W)) :
    Prop where
  /-- The token. -/
  token : service.accessToken = currentToken accessToken log
  /-- The renewal. -/
  renewal : service.renewal = true ↔ ∀ e ∈ log, e.op ≠ .renew
  /-- The token was not refused last, nor renewed in vain. -/
  last : ∀ earlier e, log = earlier ++ [e] → refusesToken e.op e.ans = false ∧
    ¬Fruitless accessToken earlier e

/-- The service went on until the token was refused. -/
def TokenRefused (accessToken : String) (service : GraphService) (log : List (Exchange W)) : Prop :=
  ∃ earlier e, log = earlier ++ [e] ∧ Going accessToken service earlier ∧
    refusesToken e.op e.ans = true

section Kept

variable {accessToken : String} {service : GraphService} {log : List (Exchange W)} {s t : W}
  {request : HttpRequest} {answer : Except TransportError HttpAnswer}

@[simp] theorem currentToken_concat (e : Exchange W) :
    currentToken accessToken (log ++ [e]) = (givenToken e.op e.ans).getD
      (currentToken accessToken log) := by
  rw [currentToken, List.foldl_append]
  rfl

theorem going_nil : Going accessToken (.new accessToken) ([] : List (Exchange W)) where
  token := rfl
  renewal := ⟨fun _ _ he => absurd he List.not_mem_nil, fun _ => rfl⟩
  last := fun earlier e h => by cases earlier <;> cases h

theorem Going.not_stands (hgoing : Going accessToken service log) :
    ¬RefusalStands accessToken log := by
  rintro ⟨earlier, e, rfl, ⟨hrefused, -⟩ | hfruitless⟩
  · rw [(hgoing.last earlier e rfl).1] at hrefused
    cases hrefused
  · exact (hgoing.last earlier e rfl).2 hfruitless

/-- A request with the service's token. -/
theorem Going.send (hgoing : Going accessToken service log)
    (hrequest : request.accessToken = service.accessToken) :
    TokenKept accessToken log ⟨s, .send request, answer, t⟩ where
  carries := fun _ h => by
    cases h
    rw [hrequest, hgoing.token]
  renews := fun h => by cases h
  renewed := fun e hlast hrefused => by
    obtain ⟨earlier, rfl⟩ := List.getLast?_eq_some_iff.mp hlast
    rw [(hgoing.last earlier e rfl).1] at hrefused
    cases hrefused
  unrefused := hgoing.not_stands

/-- Unless the token is refused, the service goes on. -/
theorem Going.next (hgoing : Going accessToken service log)
    (haccepted : refusesToken (.send request) answer = false) :
    Going accessToken service (log ++ [⟨s, .send request, answer, t⟩]) where
  token := by simp [hgoing.token, givenToken]
  renewal := by
    rw [hgoing.renewal]
    simp [or_imp, forall_and]
  last := fun earlier e h => by
    obtain ⟨-, he⟩ := List.append_inj' h rfl
    cases he
    exact ⟨haccepted, fun hfruitless => by cases hfruitless.1⟩

theorem Going.refused (hgoing : Going accessToken service log)
    (hrefused : refusesToken (.send request) answer = true) :
    TokenRefused accessToken service (log ++ [⟨s, .send request, answer, t⟩]) :=
  ⟨log, _, rfl, hgoing, hrefused⟩

theorem not_refusesToken_renew {e : Exchange W} (he : e.op = .renew) :
    refusesToken e.op e.ans = false := by
  obtain ⟨before, op, ans, after⟩ := e
  cases he
  rfl

/-- Without a renewal the refusal stands. -/
theorem TokenRefused.stands (hrefused : TokenRefused accessToken service log)
    (hused : service.renewal = false) : RefusalStands accessToken log := by
  obtain ⟨earlier, e, rfl, hgoing, he⟩ := hrefused
  refine ⟨earlier, e, rfl, .inl ⟨he, ?_⟩⟩
  by_contra hnone
  have hleft := hgoing.renewal.mpr fun e' he' hrenew => hnone ⟨e', he', hrenew⟩
  rw [hused] at hleft
  cases hleft

theorem TokenRefused.unrenewed (hrefused : TokenRefused accessToken service log)
    (hleft : service.renewal = true) :
    (∀ e ∈ log, e.op ≠ .renew) ∧ ¬RefusalStands accessToken log := by
  obtain ⟨earlier, e, rfl, hgoing, he⟩ := hrefused
  have hearlier := hgoing.renewal.mp hleft
  have hlast : e.op ≠ .renew := fun hrenew => by
    rw [not_refusesToken_renew hrenew] at he
    cases he
  constructor
  · intro e' he'
    rcases List.mem_append.mp he' with he' | he'
    · exact hearlier e' he'
    · exact List.mem_singleton.mp he' ▸ hlast
  · rintro ⟨earlier', e', h, ⟨-, e'', he'', hrenew⟩ | hfruitless⟩
    · obtain ⟨rfl, -⟩ := List.append_inj' h rfl
      exact hearlier e'' he'' hrenew
    · obtain ⟨-, h'⟩ := List.append_inj' h rfl
      cases h'
      exact hlast hfruitless.1

/-- The renewal, when it is left. -/
theorem TokenRefused.renew {given : Option String} (hrefused : TokenRefused accessToken service log)
    (hleft : service.renewal = true) : TokenKept accessToken log ⟨s, .renew, given, t⟩ where
  carries := fun _ h => by cases h
  renews := fun _ => by
    obtain ⟨earlier, e, rfl, -, he⟩ := id hrefused
    exact ⟨(hrefused.unrenewed hleft).1, e, List.getLast?_concat, he⟩
  renewed := fun _ _ _ => rfl
  unrefused := (hrefused.unrenewed hleft).2

theorem TokenRefused.token (hrefused : TokenRefused accessToken service log) :
    service.accessToken = currentToken accessToken log := by
  obtain ⟨earlier, e, rfl, hgoing, he⟩ := hrefused
  obtain ⟨before, op, ans, after⟩ := e
  cases op with
  | send request => rw [hgoing.token, currentToken_concat, givenToken, Option.getD_none]
  | renew => cases he

/-- With another token the service goes on. -/
theorem TokenRefused.renewed {token : String} (hrefused : TokenRefused accessToken service log)
    (hother : token ≠ service.accessToken) :
    Going accessToken ⟨token, false⟩ (log ++ [⟨s, .renew, some token, t⟩]) where
  token := by simp [givenToken]
  renewal := by simp
  last := fun earlier e h => by
    obtain ⟨rfl, he⟩ := List.append_inj' h rfl
    cases he
    exact ⟨rfl, fun hfruitless => hother ((hfruitless.2 token rfl).trans hrefused.token.symm)⟩

/-- Without one the refusal stands. -/
theorem TokenRefused.fruitless {given : Option String}
    (hrefused : TokenRefused accessToken service log)
    (hsame : ∀ token, given = some token → token = service.accessToken) :
    RefusalStands accessToken (log ++ [⟨s, .renew, given, t⟩]) :=
  ⟨log, _, rfl, .inr ⟨rfl, fun token htoken => (hsame token htoken).trans hrefused.token⟩⟩

end Kept

/-! ### The calls of the service -/

section Calls

variable {E : Surroundings GraphExchange GraphExchange.Reply W} {accessToken : String}
  {service : GraphService} {log : List (Exchange W)} {s : W} {graph : GraphRules}
  {serviceUrl : String} {α : Type}

/-- A call that failed: it was refused the token, or the service goes on. -/
def CallFails (accessToken : String) (service : GraphService) (error : GraphError)
    (log : List (Exchange W)) (_ : W) : Prop :=
  if isRefusedToken error then TokenRefused accessToken service log
    else Going accessToken service log

/-- A call keeps the token, and leaves the service going on or refused. -/
def CallSafe (E : Surroundings GraphExchange GraphExchange.Reply W) (accessToken : String)
    (service : GraphService) (log : List (Exchange W)) (s : W) (p : GraphProgram α) : Prop :=
  SafeOr E (TokenKept accessToken) log s p (fun _ log _ => Going accessToken service log)
    (CallFails accessToken service)

theorem CallSafe.done (hgoing : Going accessToken service log) (a : α) :
    CallSafe E accessToken service log s (.done a : GraphProgram α) :=
  SafeOr.done hgoing

/-- An answer that is not read. -/
theorem CallSafe.readReply (hgoing : Going accessToken service log) {reply : Except GraphFailure α}
    (hreply : FailsInvalid reply) :
    CallSafe E accessToken service log s (Graph.readReply reply) := by
  cases reply with
  | ok a => exact SafeOr.done hgoing
  | error failure =>
    refine SafeOr.fail ?_
    rw [hreply failure rfl]
    exact hgoing

/-- One exchange of a call, which a refused token ends. -/
theorem CallSafe.exchange {address : String} {g : HttpRequest → HttpRequest}
    {k : HttpAnswer → GraphProgram α} (hgoing : Going accessToken service log)
    (hg : ∀ request, (g request).accessToken = request.accessToken)
    (hrefused : ∀ answer, answer.status = 401 → ∃ error, k answer = .fail error ∧
      isRefusedToken error = true)
    (hk : ∀ answer log t, answer.status ≠ 401 → Going accessToken service log →
      CallSafe E accessToken service log t (k answer)) :
    CallSafe E accessToken service log s
    ((Program.ofExcept (buildRequest graph service.accessToken address)).bind fun request =>
      (send (g request)).bind k) := by
  refine SafeOr.bind_ofExcept (fun request hrequest => ?_) fun error herror => ?_
  · have hcarries : (g request).accessToken = service.accessToken := by
      rw [hg]
      rw [buildRequest] at hrequest
      split at hrequest <;> cases hrequest
      rfl
    rw [send, bind_assoc]
    refine .bind_request (fun s' answer t _ => hgoing.send hcarries) fun s₁ answer t₁ _ => ?_
    cases answer with
    | error error =>
      refine SafeOr.fail ?_
      have hfailed : isRefusedToken (transportFailure error) = false := by
        rw [transportFailure]
        split <;> rfl
      rw [CallFails, hfailed]
      exact hgoing.next rfl
    | ok answer =>
      by_cases hstatus : answer.status = 401
      · obtain ⟨error, herror, hrefuses⟩ := hrefused answer hstatus
        show SafeOr E _ _ t₁ (k answer) _ _
        rw [herror]
        refine SafeOr.fail ?_
        rw [CallFails, hrefuses]
        exact hgoing.refused (by simp [refusesToken, hstatus])
      · exact hk answer _ t₁ hstatus (hgoing.next (by simp [refusesToken, hstatus]))
  · rw [buildRequest] at herror
    split at herror <;> cases herror
    exact hgoing

/-- A status that is not 200 fails the call with what the service answered. -/
theorem checkStatus_error {answer : HttpAnswer} (hstatus : answer.status ≠ 200) :
    ∃ code reason, checkStatus answer = .error (failed (.refused answer.status code) reason) := by
  rw [checkStatus, if_neg hstatus]
  exact ⟨_, _, rfl⟩

theorem checkStatus_refused {answer : HttpAnswer} (hstatus : answer.status = 401) :
    ∃ error, checkStatus answer = .error error ∧ isRefusedToken error = true := by
  have hnot : answer.status ≠ 200 := by omega
  obtain ⟨code, reason, hrefusal⟩ := checkStatus_error hnot
  exact ⟨_, hrefusal, by simp [isRefusedToken, failed, hstatus]⟩

/-- After a status that is not the token's refusal. -/
theorem CallSafe.checked {answer : HttpAnswer} {f : ℕ → GraphProgram α}
    (hstatus : answer.status ≠ 401) (hgoing : Going accessToken service log)
    (hf : CallSafe E accessToken service log s (f 200)) :
    CallSafe E accessToken service log s ((Program.ofExcept (checkStatus answer)).bind f) := by
  by_cases hok : answer.status = 200
  · rw [checkStatus, if_pos hok, hok]
    exact hf
  · obtain ⟨code, reason, hrefusal⟩ := checkStatus_error hok
    rw [hrefusal]
    refine SafeOr.fail ?_
    have hrefuses : isRefusedToken (failed (.refused answer.status code) reason) = false := by
      simp [isRefusedToken, failed, hstatus]
    rw [CallFails, hrefuses]
    exact hgoing

theorem readMessageChanges_safe (hgoing : Going accessToken service log)
    (start : ChangesFrom) :
    CallSafe E accessToken service log s
      (readMessageChanges graph serviceUrl service.accessToken start) := by
  refine .exchange hgoing (fun _ => rfl) (fun answer hstatus => ?_)
    fun answer log t hstatus hgoing => ?_
  · have hnot : answer.status ≠ 200 := by omega
    obtain ⟨code, reason, hrefusal⟩ := checkStatus_error hnot
    have hkept : rejectedPosition (failed (.refused 401 code) reason) start = failed
        (.refused 401 code) reason := by
      cases start <;> simp [rejectedPosition, failed]
    rw [hrefusal, hstatus]
    exact ⟨_, congrArg Program.fail hkept, rfl⟩
  · by_cases hok : answer.status = 200
    · rw [checkStatus, if_pos hok]
      exact .readReply hgoing (readChangePage_failsInvalid _)
    · obtain ⟨code, reason, hrefusal⟩ := checkStatus_error hok
      have hother : isRefusedToken
          (rejectedPosition (failed (.refused answer.status code) reason) start) = false := by
        cases start with
        | firstReading => simp [rejectedPosition, isRefusedToken, failed, hstatus]
        | link =>
          simp only [rejectedPosition, failed]
          split
          · rfl
          · simp [isRefusedToken, hstatus]
      rw [hrefusal]
      refine SafeOr.fail ?_
      rw [CallFails, hother]
      exact hgoing

theorem readTextsReceivedBetween_safe (hgoing : Going accessToken service log) (pages : ℕ)
    (folder : String) (first last : ℤ) :
    CallSafe E accessToken service log s
      (readTextsReceivedBetween graph serviceUrl service.accessToken pages folder first last) := by
  refine SafeOr.iterate (I := fun _ log _ => Going accessToken service log)
    (fun page log s hgoing => ?_) pages _ _ _ hgoing
  obtain ⟨address, texts⟩ := page
  have hpage : CallSafe E accessToken service log s
      (readTextsPage graph service.accessToken (address, texts)) := by
    refine .exchange hgoing (fun _ => rfl) (fun answer hstatus => ?_)
      fun answer log t hstatus hgoing => ?_
    · obtain ⟨error, herror, hrefuses⟩ := checkStatus_refused hstatus
      exact ⟨error, by rw [herror]; rfl, hrefuses⟩
    · refine .checked hstatus hgoing
        (SafeOr.bind (CallSafe.readReply hgoing (readTextPage_failsInvalid _))
          fun page tr t hgoing => ?_)
      obtain ⟨page, nextLink⟩ := page
      cases nextLink <;> exact SafeOr.done hgoing
  exact hpage.mono (fun next _ _ hgoing => by cases next <;> exact hgoing) fun _ _ _ h => h

theorem readOne_safe (hgoing : Going accessToken service log) (address : String) :
    CallSafe E accessToken service log s (readOne graph service.accessToken address) := by
  refine .exchange hgoing (fun _ => rfl) (fun answer hstatus => ?_)
    fun answer log t hstatus hgoing => ?_
  · obtain ⟨error, herror, hrefuses⟩ := checkStatus_refused hstatus
    refine ⟨error, ?_, hrefuses⟩
    rw [if_neg (by omega), herror]
    rfl
  · split
    · exact .done hgoing _
    · exact .checked hstatus hgoing (.done hgoing _)

theorem readMessageText_safe (hgoing : Going accessToken service log) (id : String) :
    CallSafe E accessToken service log s
      (readMessageText graph serviceUrl service.accessToken id) := by
  refine SafeOr.bind (readOne_safe hgoing _) fun answer tr t hgoing => ?_
  cases answer with
  | some answer => exact CallSafe.readReply hgoing (readTextReply_failsInvalid _)
  | none => exact SafeOr.done hgoing

theorem readMessageNow_safe (hgoing : Going accessToken service log) (id : String) :
    CallSafe E accessToken service log s
      (readMessageNow graph serviceUrl service.accessToken id) := by
  refine SafeOr.bind (readOne_safe hgoing _) fun answer tr t hgoing => ?_
  cases answer with
  | some answer =>
    exact SafeOr.bind (CallSafe.readReply hgoing (readOneMessage_failsInvalid _))
      fun _ tr t hgoing => .done hgoing
  | none => exact SafeOr.done hgoing

theorem updateMessageFlags_safe (hgoing : Going accessToken service log) (id : String)
    (update : FlagUpdate) :
    CallSafe E accessToken service log s
      (updateMessageFlags graph serviceUrl service.accessToken id update) := by
  refine .exchange (g := fun request =>
    { request with method := .patch, body := some (flagBody update) }.prefer preferences)
    hgoing (fun _ => rfl) (fun answer hstatus => ?_) fun answer log t hstatus hgoing => ?_
  · obtain ⟨error, herror, hrefuses⟩ := checkStatus_refused hstatus
    exact ⟨error, by rw [herror]; rfl, hrefuses⟩
  · exact .checked hstatus hgoing (.done hgoing _)

/-- The service goes on after the answer, unless it is the token's refusal, which then stands. -/
structure Answered (accessToken : String) (answer : Except GraphError α) (service : GraphService)
    (log : List (Exchange W)) : Prop where
  /-- The token's refusal stands. -/
  refused : ∀ error, answer = .error error → isRefusedToken error = true →
    RefusalStands accessToken log
  /-- After any other answer the service goes on. -/
  going : (∀ error, answer = .error error → isRefusedToken error = false) →
    Going accessToken service log

theorem CallSafe.attempt {call : GraphProgram α}
    (hcall : CallSafe E accessToken service log s call) :
    SafeOr E (TokenKept accessToken) log s (call.attempt : ServiceProgram (Except GraphError α))
      (fun answer log _ => (∀ a, answer = .ok a → Going accessToken service log) ∧ ∀ error,
        answer = .error error →
        if isRefusedToken error then TokenRefused accessToken service log
            else Going accessToken service log) fun _ _ _ => True :=
  SafeOr.attempt hcall

/-- A request is repeated at most once, with another token. -/
theorem request_safe {call : String → GraphProgram α}
    (hcall : ∀ service log s, Going accessToken service log → CallSafe E accessToken service log s
      (call service.accessToken))
    (hgoing : Going accessToken service log) :
    SafeOr E (TokenKept accessToken) log s (service.request call)
    (fun r log _ => Answered accessToken r.1 r.2 log)
      fun _ _ _ => True := by
  refine SafeOr.bind (hcall service log s hgoing).attempt fun answer tr t hanswer => ?_
  cases answer with
  | ok a => exact .done ⟨fun _ h => (by cases h), fun _ => hanswer.1 a rfl⟩
  | error error =>
    have hfailed := hanswer.2 error rfl
    by_cases hrefuses : isRefusedToken error = true
    · rw [if_pos hrefuses] at hfailed
      show SafeOr E _ _ t (if isRefusedToken error && service.renewal then _ else _) _ _
      by_cases hleft : service.renewal = true
      · rw [if_pos (by rw [hrefuses, hleft]; rfl)]
        refine .bind_request (fun s' given t' _ => hfailed.renew hleft) fun s₁ given t₁ _ => ?_
        have hstands : (∀ token, given = some token → token = service.accessToken) →
            SafeOr E (TokenKept accessToken) (log ++ tr ++ [⟨s₁, .renew, given, t₁⟩]) t₁
              (.done (.error error, ⟨service.accessToken, false⟩) : ServiceProgram
                (Except GraphError α × GraphService))
              (fun r log _ => Answered accessToken r.1 r.2 log) fun _ _ _ => True := fun hsame =>
          .done ⟨fun _ _ _ => hfailed.fruitless hsame, fun h => by
            have hnot := h error rfl
            rw [hrefuses] at hnot
            cases hnot⟩
        cases given with
        | none => exact hstands fun _ h => by cases h
        | some token =>
          show SafeOr E _ _ t₁ (if token ≠ service.accessToken then _ else _) _ _
          split
          · next hother =>
            refine SafeOr.bind (hcall ⟨token, false⟩ _ t₁ (hfailed.renewed hother)).attempt
              fun answer tr' t' hanswer => .done ?_
            constructor
            · rintro error' rfl hrefuses'
              have hagain := hanswer.2 error' rfl
              rw [if_pos hrefuses'] at hagain
              exact hagain.stands rfl
            · intro hnot
              cases answer with
              | ok a => exact hanswer.1 a rfl
              | error error' =>
                have hagain := hanswer.2 error' rfl
                rwa [hnot error' rfl, if_neg Bool.false_ne_true] at hagain
          · next hsame => exact hstands fun _ h => (Option.some.inj h) ▸ not_not.mp hsame
      · rw [Bool.not_eq_true] at hleft
        rw [if_neg (by simp [hleft])]
        exact .done ⟨fun _ _ _ => hfailed.stands hleft, fun h => by
          have hnot := h error rfl
          rw [hrefuses] at hnot
          cases hnot⟩
    · rw [if_neg hrefuses] at hfailed
      show SafeOr E _ _ t (if isRefusedToken error && service.renewal then _ else _) _ _
      rw [if_neg (by simp [hrefuses])]
      refine .done ⟨fun error' h hrefuses' => ?_, fun _ => hfailed⟩
      cases h
      exact absurd hrefuses' hrefuses

end Calls

end Mailbag.Cycle
