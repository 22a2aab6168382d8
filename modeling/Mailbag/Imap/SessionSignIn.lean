import Mailbag.Imap.SessionSecuring

/-!
# Signing in

AUTHENTICATE with the mechanism the account's credential needs, or LOGIN, when the server announced
it over TLS. The credentials answer the first challenge, and further challenges get nothing.

## What is proved

* `signInMethod_fits` — the method chosen fits the credential and is among those announced.
* `answerChallenge_safe` — a challenge is answered with the credentials once.
* `signIn_safe` — the sign-in leaves a session with nothing asked of it.
-/

namespace Mailbag.Imap

open Interaction

variable {σ : Type}

attribute [local simp] SessionOp.isPlaintext SessionOp.securesFirst SessionOp.sendsCredentials
  SessionOp.needsSignIn SessionOp.readsMailboxes

section Rules

variable {E : Surroundings SessionOp SessionAns σ} {account : ImapAccount} {options : OpenOptions}
  {openedFor : ImapStep} {rounds : ℕ} {h : SessionLog σ} {s : σ} {notices : ServerNotices}

/-- The method fits the account's credential, and nothing of it was sent. -/
def SignInMethod.Fits (account : ImapAccount) (capabilities : Capabilities) : SignInMethod → Prop
  | .authenticate mechanism authenticator =>
    authenticator.sent = false ∧ FitsCredential account capabilities (.authenticate mechanism) ∧
      FitsCredential account capabilities (.response authenticator.credentials)
  | .login signInName password => FitsCredential account capabilities (.login signInName password)

theorem signInMethod_fits {capabilities : Capabilities} {method : SignInMethod}
    (hmethod : signInMethod account capabilities = some method) :
    method.Fits account capabilities := by
  unfold signInMethod at hmethod
  split at hmethod
  · next token htoken =>
    split at hmethod <;> cases hmethod
    next hoffers =>
      exact ⟨rfl, .inl ⟨token, htoken, hoffers, rfl⟩, .inl ⟨token, htoken, hoffers, rfl⟩⟩
  · next password hpassword =>
    split at hmethod
    · next hoffers =>
      cases hmethod
      exact ⟨rfl, .inr ⟨password, hpassword, hoffers, rfl⟩,
        .inr ⟨password, hpassword, hoffers, rfl⟩⟩
    · next hnot =>
      split at hmethod <;> cases hmethod
      next henabled => exact ⟨hpassword, rfl, by simpa using hnot, by simpa using henabled⟩

/-- A sign-in under way ended so, or the server waits for the answer to its challenge. -/
def Answered (h : SessionLog σ) : AuthenticateStep → Prop
  | .challenge _ => ¬Seen signedIn h ∧ ∃ before e, h = before ++ [e] ∧ challenged e.op e.ans
  | .completed (.ok ()) => Seen signedIn h
  | .completed (.error error) =>
    ¬Seen signedIn h ∧ ∃ before e, h = before ++ [e] ∧ endedWith e.op e.ans = some error ∧
      refusedOption e.op e.ans = false

/-- An AUTHENTICATE under way. -/
structure Authenticates (account : ImapAccount) (h : SessionLog σ) (step : AuthenticateStep)
    (authenticator : Authenticator) (notices : ServerNotices) : Prop where
  handshaken : Seen handshaken h
  unprepared : NotAsked SessionOp.needsSignIn h
  fits : ∃ capabilities, AnnouncedAfter Imap.handshaken h capabilities ∧
    FitsCredential account capabilities (.response authenticator.credentials)
  unsent : authenticator.sent = false → NotAsked SessionOp.sendsCredentials h
  answered : Answered h step
  hears : Hears notices (heardIn h)

/-- The command that signs in was completed. -/
structure Tried (h : SessionLog σ) (result : Except SessionError Unit)
    (notices : ServerNotices) : Prop where
  handshaken : Seen handshaken h
  unprepared : NotAsked SessionOp.needsSignIn h
  answered : Answered h (.completed result)
  hears : Hears notices (heardIn h)

/-- The answer is this step of a sign-in. -/
structure Decides (step : AuthenticateStep) (o : SessionOp) (a : SessionAns o) : Prop where
  signs : signedIn o a ↔ step = .completed (.ok ())
  challenges : ∀ challenge, step = .challenge challenge → challenged o a
  ends : ∀ error, step = .completed (.error error) → endedWith o a = some error
  kept : refusedOption o a = false

theorem decides_authenticate (mechanism : String) (answer : Heard AuthenticateStep) :
    Decides answer.result (.authenticate mechanism) answer := by
  obtain ⟨_ | _ | _, unsolicited⟩ := answer <;> constructor <;>
    simp [signedIn, challenged, endedWith, refusedOption]

theorem decides_response (data : List UInt8) (answer : Heard AuthenticateStep) :
    Decides answer.result (.response data) answer := by
  obtain ⟨_ | _ | _, unsolicited⟩ := answer <;> constructor <;>
    simp [signedIn, challenged, endedWith, refusedOption]

theorem decides_login (login password : String) (answer : Heard (Except SessionError Unit)) :
    Decides (.completed answer.result) (.login login password) answer := by
  obtain ⟨_ | _, unsolicited⟩ := answer <;> constructor <;>
    simp [signedIn, endedWith, refusedOption]

/-- The answer to the latest operation decides a sign-in under way. -/
theorem answered_concat {step : AuthenticateStep} {e : Event SessionOp SessionAns σ}
    (hanonymous : ¬Seen signedIn h) (hdecides : Decides step e.op e.ans) :
    Answered (h ++ [e]) step := by
  have hseen : Seen signedIn (h ++ [e]) ↔ step = .completed (.ok ()) := by
    rw [seen_concat, hdecides.signs]
    exact ⟨fun hor => hor.resolve_left hanonymous, .inr⟩
  rcases step with challenge | error | _
  · exact ⟨fun hs => (by cases hseen.mp hs), h, e, rfl, hdecides.challenges challenge rfl⟩
  · exact ⟨fun hs => (by cases hseen.mp hs), h, e, rfl, hdecides.ends error rfl, hdecides.kept⟩
  · exact hseen.mpr rfl

theorem lawful_authenticate {s' t : σ} {mechanism : String} {a : Heard AuthenticateStep}
    (hsecured : Seen handshaken h) (hunsent : NotAsked SessionOp.sendsCredentials h)
    (hfits : ∃ capabilities, AnnouncedAfter handshaken h capabilities ∧
      FitsCredential account capabilities (.authenticate mechanism)) :
    Lawful account options h ⟨s', .authenticate mechanism, a, t⟩ := by
  constructor <;> simp_all

theorem lawful_response {s' t : σ} {data : List UInt8} {a : Heard AuthenticateStep}
    (hsecured : Seen handshaken h)
    (hchallenged : ∃ last, h.getLast? = some last ∧ challenged last.op last.ans)
    (hdata : data ≠ [] → NotAsked SessionOp.sendsCredentials h ∧
      ∃ capabilities, AnnouncedAfter handshaken h capabilities ∧
        FitsCredential account capabilities (.response data)) :
    Lawful account options h ⟨s', .response data, a, t⟩ := by
  constructor <;> simp_all

theorem lawful_login {s' t : σ} {login password : String} {a : Heard (Except SessionError Unit)}
    (hsecured : Seen handshaken h) (hunsent : NotAsked SessionOp.sendsCredentials h)
    (hfits : ∃ capabilities, AnnouncedAfter handshaken h capabilities ∧
      FitsCredential account capabilities (.login login password)) :
    Lawful account options h ⟨s', .login login password, a, t⟩ := by
  constructor <;> simp_all

/-- **A challenge is answered** with the credentials once. -/
theorem answerChallenge_safe (b : Authenticating)
    (hb : Authenticates account h b.1 b.2.1 b.2.2) :
    SafeOr E (Lawful account options) h s (answerChallenge b) (fun x h _ => Sum.elim
      (fun b : Authenticating => Authenticates account h b.1 b.2.1 b.2.2)
      (fun ended : Except SessionError Unit × ServerNotices => Tried h ended.1 ended.2) x)
      (Fails account openedFor) := by
  obtain ⟨step, authenticator, notices⟩ := b
  cases step with
  | completed result => exact .done ⟨hb.handshaken, hb.unprepared, hb.answered, hb.hears⟩
  | challenge challenge =>
    obtain ⟨capabilities, hannounced, hfits⟩ := hb.fits
    obtain ⟨hanonymous, before, last, hlast, hchallenged⟩ := hb.answered
    have hwaits : ∃ last, h.getLast? = some last ∧ challenged last.op last.ans :=
      ⟨last, by rw [hlast, List.getLast?_concat], hchallenged⟩
    refine .bind_request (fun _ _ _ _ => lawful_response hb.handshaken hwaits fun hdata => ?_)
      fun s' answer t _ => ?_
    · -- Something is sent the first time only, and it is the credentials.
      have hunsent : authenticator.sent = false := by
        by_contra hsent
        simp [hsent] at hdata
      refine ⟨hb.unsent hunsent, capabilities, hannounced, ?_⟩
      simpa [Authenticator.process, hunsent] using hfits
    · refine .done ⟨?_, ?_, ⟨capabilities, hannounced.concat, hfits⟩, fun hsent =>
        (by cases hsent), ?_, ?_⟩
      · exact seen_concat.mpr (.inl hb.handshaken)
      · exact notAsked_concat.mpr ⟨hb.unprepared, rfl⟩
      · exact answered_concat hanonymous (decides_response _ answer)
      · rw [heardIn_concat]
        exact hb.hears.hear answer.unsolicited

/-- The command that signs in, with the method that fits. -/
theorem SignInMethod.run_safe {capabilities : Capabilities} {method : SignInMethod}
    (hsecured : Secured h notices) (hannounced : AnnouncedAfter handshaken h capabilities)
    (hfits : method.Fits account capabilities) :
    SafeOr E (Lawful account options) h s (method.run rounds notices)
    (fun ended h _ => Tried h ended.1 ended.2)
      (Fails account openedFor) := by
  cases method with
  | authenticate mechanism authenticator =>
    refine .bind_request (fun _ _ _ _ => lawful_authenticate hsecured.handshaken hsecured.unsent
      ⟨capabilities, hannounced, hfits.2.1⟩) fun s' answer t _ => ?_
    refine SafeOr.iterate (I := fun b h _ => Authenticates account h b.1 b.2.1 b.2.2)
      (fun b h s hb => answerChallenge_safe b hb)
      rounds _ _ t ⟨?_, ?_, ⟨capabilities, hannounced.concat, hfits.2.2⟩, fun _ => ?_, ?_, ?_⟩
    · exact seen_concat.mpr (.inl hsecured.handshaken)
    · exact notAsked_concat.mpr ⟨hsecured.unprepared, rfl⟩
    · exact notAsked_concat.mpr ⟨hsecured.unsent, rfl⟩
    · exact answered_concat hsecured.anonymous (decides_authenticate _ answer)
    · rw [heardIn_concat]
      exact hsecured.hears.hear answer.unsolicited
  | login login password =>
    refine .bind_request (fun _ _ _ _ => lawful_login hsecured.handshaken hsecured.unsent
      ⟨capabilities, hannounced, hfits⟩)
      fun s' answer t _ => .done ⟨?_, ?_, ?_, ?_⟩
    · exact seen_concat.mpr (.inl hsecured.handshaken)
    · exact notAsked_concat.mpr ⟨hsecured.unprepared, rfl⟩
    · exact answered_concat hsecured.anonymous (decides_login _ _ answer)
    · rw [heardIn_concat]
      exact hsecured.hears.hear answer.unsolicited

theorem announcement_eq {answer : Heard (Except SessionError Capabilities)}
    {capabilities : Capabilities} (hresult : answer.result = .ok capabilities) :
    announcement .capability answer = some capabilities := by
  obtain ⟨_, unsolicited⟩ := answer
  cases hresult
  rfl

theorem endedWith_announced {answer : Heard (Except SessionError Capabilities)}
    {capabilities : Capabilities} (hresult : answer.result = .ok capabilities) :
    endedWith .capability answer = none := by
  obtain ⟨_, unsolicited⟩ := answer
  cases hresult
  rfl

theorem endedWith_capability {answer : Heard (Except SessionError Capabilities)}
    {error : SessionError} (hresult : answer.result = .error error) :
    endedWith .capability answer = some error := by
  obtain ⟨_, unsolicited⟩ := answer
  cases hresult
  rfl

/-- CAPABILITY leaves what it announced. -/
theorem Secured.capability {s' t : σ} {answer : Heard (Except SessionError Capabilities)}
    (hsecured : Secured h notices) :
    Secured (h ++ [⟨s', .capability, answer, t⟩]) (notices.hear answer.unsolicited).collect := by
  refine ⟨seen_concat.mpr (.inl hsecured.handshaken), ?_,
    notAsked_concat.mpr ⟨hsecured.unsent, rfl⟩,
    notAsked_concat.mpr ⟨hsecured.unprepared, rfl⟩, ?_⟩
  · simpa [Imap.signedIn] using hsecured.anonymous
  · rw [heardIn_concat]
    exact (hsecured.hears.hear answer.unsolicited).collect

/-- **The sign-in** leaves a session with nothing asked of it. -/
theorem signIn_safe (hsecured : Secured h notices) :
    SafeOr E (Lawful account options) h s (signIn account rounds notices)
      (fun notices h _ => SignedIn h notices ∧ NotAsked SessionOp.needsSignIn h)
      (Fails account openedFor) := by
  refine .bind_request (fun _ _ _ _ => lawful_secured hsecured.handshaken (.inr rfl))
    fun s₁ answer t₁ _ => ?_
  have hsecured₁ : Secured (h ++ [⟨s₁, .capability, answer, t₁⟩])
      (notices.hear answer.unsolicited).collect := hsecured.capability
  refine bind_orFail (fun capabilities hcapabilities => ?_) fun failure hfails => ?_
  · have hannounced : AnnouncedAfter handshaken (h ++ [⟨s₁, .capability, answer, t₁⟩])
        capabilities :=
      announcedAfter_concat hsecured.handshaken (announcement_eq (mapError_eq_ok hcapabilities))
    cases hmethod : signInMethod account capabilities with
    | none =>
      refine .fail (hsecured₁.hears.fails (.of .noSignInMethod ?_
        (endedWith_announced (mapError_eq_ok hcapabilities))))
      exact ⟨hsecured₁.unsent, capabilities, hannounced, hmethod⟩
    | some method =>
      refine .bind (SignInMethod.run_safe hsecured₁ hannounced (signInMethod_fits hmethod))
        fun ended tr t₂ htried => ?_
      obtain ⟨result, notices₂⟩ := ended
      refine bind_orFail (fun _ hok => .done ?_) fun failure hfails => ?_
      · have hunread : NotAsked SessionOp.readsMailboxes
            (h ++ [⟨s₁, .capability, answer, t₁⟩] ++ tr) := fun e he => by
          have hneeds := htried.unprepared e he
          generalize e.op = o at hneeds ⊢
          cases o <;> simp_all
        have hanswered : Seen Imap.signedIn (h ++ [⟨s₁, .capability, answer, t₁⟩] ++ tr) := by
          have hanswer := htried.answered
          rwa [mapError_eq_ok hok] at hanswer
        exact ⟨⟨htried.handshaken, hanswered, hunread, htried.hears.collect⟩, htried.unprepared⟩
      · obtain ⟨error, herror, rfl⟩ := mapError_eq_error hfails
        have hanswered := htried.answered
        rw [herror] at hanswered
        obtain ⟨hanonymous, before, e, hlast, hended, hkept⟩ := hanswered
        refine htried.hears.fails ?_
        have hreached : Reached openedFor (h ++ [⟨s₁, .capability, answer, t₁⟩] ++ tr) .signIn :=
          ⟨htried.handshaken, hanonymous⟩
        rw [hlast] at hreached ⊢
        exact .command hended hreached hkept
  · obtain ⟨error, herror, rfl⟩ := mapError_eq_error hfails
    exact hsecured₁.hears.fails
      (.command (endedWith_capability herror) ⟨hsecured₁.handshaken, hsecured₁.anonymous⟩ rfl)

end Rules

end Mailbag.Imap
