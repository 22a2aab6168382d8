import Mailbag.Imap.SessionLog

/-!
# Securing the connection

What the log says of an operation that may be asked next (`Lawful`), of a failure (`Told`) and of an
attempt under way (`Plain`, `Secured`, `SignedIn`), and the first part of an attempt: from the TCP
connection to the handshake, over STARTTLS where the account asks for it. Each function of an
attempt has one rule: the state it starts from, the state it leaves and how it fails.

## What is proved

* `upgradePlaintext_safe` — STARTTLS leaves a connection that the server agreed to encrypt.
* `secureConnection_safe` — the connection is encrypted before anything else.
-/

namespace Mailbag.Imap

open Interaction

variable {σ : Type}

/-! ### What is lawful -/

/-- The method is the one that the credentials need, among those offered. -/
def FitsCredential (account : ImapAccount) (capabilities : Capabilities) : SessionOp → Prop
  | .authenticate mechanism =>
    (∃ token, account.credential = .accessToken token ∧ capabilities.hasStr "AUTH=XOAUTH2" ∧
        mechanism = "XOAUTH2") ∨
      ∃ password, account.credential = .password password ∧ capabilities.hasStr "AUTH=PLAIN" ∧
        mechanism = "PLAIN"
  | .response data =>
    (∃ token, account.credential = .accessToken token ∧ capabilities.hasStr "AUTH=XOAUTH2" ∧
        data = (xoauth2Credentials account.login token).credentials) ∨
      ∃ password, account.credential = .password password ∧ capabilities.hasStr "AUTH=PLAIN" ∧
        data = (plainCredentials account.login password).credentials
  | .login login password => account.credential = .password password ∧ login = account.login ∧
      capabilities.hasStr "AUTH=PLAIN" = false ∧ capabilities.hasStr "LOGINDISABLED" = false
  | _ => False

/-- The server announced what the command needs; the command that names this client needs
nothing. -/
def CommandFits (options : OpenOptions) (capabilities : Capabilities) (text : String) : Prop :=
  text = "COMPRESS DEFLATE" ∧ capabilities.hasStr "COMPRESS=DEFLATE" ∨
    text = "ENABLE UTF8=ACCEPT" ∧
    (capabilities.hasStr "UTF8=ACCEPT" ∨ capabilities.hasStr "UTF8=ONLY") ∨
    ∃ identity, options.clientIdentity = some identity ∧ text = identification identity

/-- **An operation is lawful** after what was asked before it. -/
structure Lawful (account : ImapAccount) (options : OpenOptions) (h : SessionLog σ)
    (e : Event SessionOp SessionAns σ) : Prop where
  /-- Only STARTTLS, and what leads to it, travels unencrypted, when the account asks for it, and
  never after the handshake. -/
  plaintext : e.op.isPlaintext → account.encryption = .startTls ∧ ¬Seen handshaken h
  /-- No other command is given there. -/
  starttls : ∀ text, e.op = .plaintextCommand text → text = "STARTTLS"
  /-- The handshake is with the account's host, after the server agreed to it when the account asks
  for STARTTLS. -/
  handshake : ∀ host, e.op = .handshake host → host = account.host ∧
    (account.encryption = .startTls → Seen upgraded h)
  /-- Everything else travels over TLS. -/
  secured : e.op.securesFirst = false → Seen handshaken h
  /-- AUTHENTICATE names the mechanism that the credentials need among those that the server offers
  over TLS, before they are sent. -/
  mechanism : ∀ mechanism, e.op = .authenticate mechanism →
    NotAsked SessionOp.sendsCredentials h ∧
      ∃ capabilities, AnnouncedAfter handshaken h capabilities ∧
        FitsCredential account capabilities e.op
  /-- A response answers a challenge of the server. -/
  response : ∀ data, e.op = .response data →
    ∃ last, h.getLast? = some last ∧ challenged last.op last.ans
  /-- The credentials travel once, by the method they need among those that the server offers over
  TLS. -/
  credentials : e.op.sendsCredentials → NotAsked SessionOp.sendsCredentials h ∧
    ∃ capabilities, AnnouncedAfter handshaken h capabilities ∧
      FitsCredential account capabilities e.op
  /-- Mailboxes are read once signed in, as are the commands given before. -/
  signedIn : e.op.needsSignIn → Seen signedIn h
  /-- A command that a server may not know is given to one that announced it once signed in, before
  a mailbox is read. -/
  optional : ∀ text, e.op = .runCommand text → NotAsked SessionOp.readsMailboxes h ∧
    ∃ capabilities, AnnouncedAfter Imap.signedIn h capabilities ∧
      CommandFits options capabilities text
  /-- The connection is compressed once the server agreed, with the next byte. -/
  compression : e.op = .startCompression → ∃ agreed, h.getLast? = some agreed ∧
    completed "COMPRESS DEFLATE" agreed.op agreed.ans

/-! ### How an attempt fails -/

/-- How far an attempt came that failed at the step. -/
def Reached (openedFor : ImapStep) (h : SessionLog σ) : ImapStep → Prop
  | .connect => NotAsked SessionOp.sendsCredentials h ∧ ¬Seen signedIn h
  | .secureConnection => ¬Seen handshaken h
  | .signIn => Seen handshaken h ∧ ¬Seen signedIn h
  | step => step = openedFor ∧ Seen signedIn h

/-- How far an attempt came that failed so. -/
def CameTo (account : ImapAccount) (openedFor : ImapStep) (h : SessionLog σ) : ImapFailure → Prop
  | .failed step => Reached openedFor h step
  | .timedOut step => Reached openedFor h step
  | .noSignInMethod => NotAsked SessionOp.sendsCredentials h ∧
      ∃ capabilities, AnnouncedAfter handshaken h capabilities ∧
        signInMethod account capabilities = none
  | .mailboxChanged => False

/-- **A failure tells** how far the attempt came, and the server's reason. -/
structure Told (account : ImapAccount) (openedFor : ImapStep) (h : SessionLog σ)
    (failure : StepFailure) : Prop where
  /-- What failed says how far the attempt came. -/
  cameTo : CameTo account openedFor h failure.failure
  /-- The server's reason is the status that ended the last command, given over TLS. -/
  reply : failure.serverReply = lastStatus h
  /-- A refusal of a command that the server may refuse is no failure. -/
  notRefused : ∀ e, h.getLast? = some e → refusedOption e.op e.ans = false

/-- The failure and the notices of a failed attempt. -/
def Fails (account : ImapAccount) (openedFor : ImapStep) (failed : StepFailure × ServerNotices)
    (h : SessionLog σ) (_ : σ) : Prop :=
  Told account openedFor h failed.1 ∧
  failed.2.collect.alerts = (heardIn h).filterMap Response.alert ∧
    failed.2.collect.bye = lastBye (heardIn h)

/-! ### The states of an attempt -/

/-- Nothing is encrypted yet. -/
structure Plain (h : SessionLog σ) : Prop where
  unsecured : ¬Seen handshaken h
  anonymous : ¬Seen signedIn h
  unsent : NotAsked SessionOp.sendsCredentials h
  unprepared : NotAsked SessionOp.needsSignIn h
  unheard : heardIn h = []

/-- The connection is encrypted, and nobody signed in. -/
structure Secured (h : SessionLog σ) (notices : ServerNotices) : Prop where
  handshaken : Seen handshaken h
  anonymous : ¬Seen signedIn h
  unsent : NotAsked SessionOp.sendsCredentials h
  unprepared : NotAsked SessionOp.needsSignIn h
  hears : Hears notices (heardIn h)

/-- The client signed in, and no mailbox was read. -/
structure SignedIn (h : SessionLog σ) (notices : ServerNotices) : Prop where
  handshaken : Seen handshaken h
  signedIn : Seen signedIn h
  unread : NotAsked SessionOp.readsMailboxes h
  hears : Hears notices (heardIn h)

theorem plain_nil : Plain ([] : SessionLog σ) :=
  ⟨seen_nil, seen_nil, notAsked_nil, notAsked_nil, rfl⟩

section Failing

variable {account : ImapAccount} {openedFor : ImapStep} {h : SessionLog σ} {s : σ}
  {e : Event SessionOp SessionAns σ} {notices : ServerNotices}

theorem commandFailure_reply (step : ImapStep) (error : SessionError) :
    (stepFailure step error).serverReply = error.status := by
  cases error <;> rfl

/-- A failure without the server's words, right after an operation that the server did not end with
an error. -/
theorem Told.of (failure : ImapFailure) (hcame : CameTo account openedFor (h ++ [e]) failure)
    (hsilent : endedWith e.op e.ans = none) :
    Told account openedFor (h ++ [e]) (.of failure) where
  cameTo := hcame
  reply := by
    rw [lastStatus_concat, hsilent]
    rfl
  notRefused := fun e' he' => by
    rw [List.getLast?_concat, Option.some.injEq] at he'
    exact he' ▸ not_refusedOption hsilent

theorem Told.io {step : ImapStep} (error : IoFailure) (hcame : Reached openedFor (h ++ [e]) step)
    (hsilent : endedWith e.op e.ans = none) :
    Told account openedFor (h ++ [e]) (ioFailure step error) := by
  cases error with
  | timedOut => exact .of _ hcame hsilent
  | broken => exact .of _ hcame hsilent

/-- A command over TLS that failed at the step. -/
theorem Told.command {step : ImapStep} {error : SessionError}
    (hended : endedWith e.op e.ans = some error) (hcame : Reached openedFor (h ++ [e]) step)
    (hkept : refusedOption e.op e.ans = false) :
    Told account openedFor (h ++ [e]) (stepFailure step error) where
  cameTo := by cases error <;> exact hcame
  reply := by
    rw [commandFailure_reply, lastStatus_concat, hended]
    rfl
  notRefused := fun e' he' => by
    rw [List.getLast?_concat, Option.some.injEq] at he'
    exact he' ▸ hkept

theorem Told.starttls (error : SessionError)
    (hcame : Reached openedFor (h ++ [e]) .secureConnection)
    (hsilent : endedWith e.op e.ans = none) :
    Told account openedFor (h ++ [e]) (starttlsFailure error) := by
  cases error <;> exact .of _ hcame hsilent

/-- On the unencrypted connection nothing is heard. -/
theorem Plain.fails {failure : StepFailure} (hplain : Plain h)
    (htold : Told account openedFor h failure) :
    Fails account openedFor (failure, ServerNotices.default) h s := by
  rw [Fails, hplain.unheard]
  exact ⟨htold, rfl, rfl⟩

theorem Hears.fails {failure : StepFailure} (hhears : Hears notices (heardIn h))
    (htold : Told account openedFor h failure) : Fails account openedFor (failure, notices) h s :=
  ⟨htold, hhears.alerts, hhears.bye⟩

end Failing

/-! ### The connection -/

attribute [local simp] SessionOp.isPlaintext SessionOp.securesFirst SessionOp.sendsCredentials
  SessionOp.needsSignIn SessionOp.readsMailboxes

section Rules

variable {E : Surroundings SessionOp SessionAns σ} {account : ImapAccount} {options : OpenOptions}
  {openedFor : ImapStep} {rounds : ℕ} {h : SessionLog σ} {s : σ} {notices : ServerNotices}

/-- A result read on the way, which fails with the notices so far. -/
theorem bind_orFail {α β : Type} {G : SessionLog σ → Event SessionOp SessionAns σ → Prop}
    {x : Except StepFailure α} {f : α → SessionProgram β} {Q : β → SessionLog σ → σ → Prop}
    {F : StepFailure × ServerNotices → SessionLog σ → σ → Prop}
    (hok : ∀ a, x = .ok a → SafeOr E G h s (f a) Q F)
    (herr : ∀ failure, x = .error failure → F (failure, notices) h s) :
    SafeOr E G h s ((orFail notices x).bind f) Q F := by
  cases x with
  | ok a => exact hok a rfl
  | error failure => exact .fail (herr failure rfl)

theorem Plain.next {o : SessionOp} {a : SessionAns o} {u t : σ} (hplain : Plain h)
    (ho : o.securesFirst) (hnot : handshaken o a = false) : Plain (h ++ [⟨u, o, a, t⟩]) := by
  have hsilent : signedIn o a = false ∧ o.sendsCredentials = false ∧ o.needsSignIn = false ∧
      heard o a = [] := by
    cases o <;> simp at ho <;> simp [signedIn, heard]
  obtain ⟨hanonymous, hunsent, hunprepared, hunheard⟩ := hsilent
  exact ⟨by simp [hplain.unsecured, hnot], by simp [hplain.anonymous, hanonymous],
    notAsked_concat.mpr ⟨hplain.unsent, hunsent⟩,
    notAsked_concat.mpr ⟨hplain.unprepared, hunprepared⟩, by simp [hplain.unheard, hunheard]⟩

theorem Plain.lawful {o : SessionOp} {a : SessionAns o} {s' t : σ} (hplain : Plain h)
    (hstarttls : account.encryption = .startTls) (ho : o.isPlaintext)
    (htext : ∀ text, o = .plaintextCommand text → text = "STARTTLS") :
    Lawful account options h ⟨s', o, a, t⟩ := by
  cases o <;> simp at ho <;> constructor <;> simp_all [hplain.unsecured]

/-- The greeting of the unencrypted connection fails as one that cannot be secured, or as no
connection. -/
theorem plaintextGreeted_told {greeting : Except IoFailure (Option Response)}
    {failure : StepFailure} {s' t : σ} (hfails : plaintextGreeted greeting = .error failure)
    (hplain : Plain h) :
    Told account openedFor (h ++ [⟨s', .plaintextGreeting, greeting, t⟩]) failure := by
  have hnext : Plain (h ++ [⟨s', .plaintextGreeting, greeting, t⟩]) := hplain.next rfl rfl
  unfold plaintextGreeted at hfails
  split at hfails
  · cases hfails
    exact .io _ ⟨hnext.unsent, hnext.anonymous⟩ rfl
  · cases hfails
    exact .of (h := h) _ ⟨hnext.unsent, hnext.anonymous⟩ rfl
  · cases hfails
  · cases hfails
    exact .of (h := h) _ hnext.unsecured rfl
  · cases hfails
    exact .of (h := h) _ ⟨hnext.unsent, hnext.anonymous⟩ rfl

theorem mapError_eq_error {α ε δ : Type} {x : Except ε α} {f : ε → δ} {e : δ}
    (h : x.mapError f = .error e) : ∃ error, x = .error error ∧ e = f error := by
  cases x with
  | ok => cases h
  | error error =>
    cases h
    exact ⟨error, rfl, rfl⟩

theorem mapError_eq_ok {α ε δ : Type} {x : Except ε α} {f : ε → δ} {a : α}
    (h : x.mapError f = .ok a) : x = .ok a := by
  cases x with
  | ok =>
    cases h
    rfl
  | error => cases h

/-- STARTTLS leaves a connection that the server agreed to encrypt. -/
theorem upgradePlaintext_safe (hplain : Plain h) (hstarttls : account.encryption = .startTls) :
    SafeOr E (Lawful account options) h s (upgradePlaintext .default)
    (fun _ h _ => Plain h ∧ Seen upgraded h)
      (Fails account openedFor) := by
  refine .bind_request (fun s' a t _ => hplain.lawful hstarttls rfl (by simp))
    fun s₁ greeting t₁ _ => ?_
  have hplain₁ : Plain (h ++ [⟨s₁, .plaintextGreeting, greeting, t₁⟩]) := hplain.next rfl rfl
  refine bind_orFail (fun _ _ => ?_) fun failure hfails => hplain₁.fails
    (plaintextGreeted_told hfails hplain)
  refine .bind_request (fun s' a t _ => hplain₁.lawful hstarttls rfl (by simp))
    fun s₂ announced t₂ _ => ?_
  have hplain₂ := hplain₁.next (u := s₂) (o := .plaintextCapability) (a := announced)
    (t := t₂) rfl rfl
  refine bind_orFail (fun capabilities _ => ?_) fun failure hfails => ?_
  · split
    · refine .bind_request (fun s' a t _ => hplain₂.lawful hstarttls rfl (by simp))
        fun s₃ agreed t₃ _ => ?_
      have hplain₃ := hplain₂.next (u := s₃) (o := .plaintextCommand "STARTTLS") (a := agreed)
        (t := t₃) rfl rfl
      cases agreed with
      | ok => exact .done ⟨hplain₃, seen_concat.mpr (.inr (by simp [upgraded]))⟩
      | error error => exact .fail (hplain₃.fails (.starttls error hplain₃.unsecured rfl))
    · exact .fail (hplain₂.fails (.of _ hplain₂.unsecured rfl))
  · obtain ⟨error, -, rfl⟩ := mapError_eq_error hfails
    exact hplain₂.fails (.starttls error hplain₂.unsecured rfl)

theorem lawful_connect {s' t : σ} {a : Except IoFailure Unit} {host : String} {port : ℕ} :
    Lawful account options h ⟨s', .connect host port, a, t⟩ := by
  constructor <;> simp

theorem lawful_handshake {s' t : σ} {a : Except IoFailure Unit}
    (hupgraded : account.encryption = .startTls → Seen upgraded h) :
    Lawful account options h ⟨s', .handshake account.host, a, t⟩ := by
  constructor <;> simp_all

theorem lawful_secured {o : SessionOp} {a : SessionAns o} {s' t : σ} (hsecured : Seen handshaken h)
    (ho : o = .greeting ∨ o = .capability) : Lawful account options h ⟨s', o, a, t⟩ := by
  rcases ho with rfl | rfl <;> constructor <;> simp_all

/-- The greeting is the first that is heard. -/
theorem readGreeting_safe {s' t : σ} (hplain : Plain h) :
    SafeOr E (Lawful account options) (h ++ [⟨s', .handshake account.host, .ok (), t⟩]) t
    (readGreeting ServerNotices.default.follow)
      (fun notices h _ => Secured h notices) (Fails account openedFor) := by
  have hsecured : Seen handshaken (h ++ [⟨s', .handshake account.host, .ok (), t⟩]) :=
    seen_concat.mpr (.inr rfl)
  refine .bind_request (fun _ _ _ _ => lawful_secured hsecured (.inl rfl))
    fun s₁ greeting t₁ _ => ?_
  set h₁ := h ++ [⟨s', .handshake account.host, .ok (), t⟩] ++
    [⟨s₁, .greeting, greeting, t₁⟩] with hh₁
  have hanonymous : ¬Seen signedIn h₁ := by simp [hh₁, hplain.anonymous, signedIn]
  have hunsent : NotAsked SessionOp.sendsCredentials h₁ := by simp [hh₁, hplain.unsent]
  have hunprepared : NotAsked SessionOp.needsSignIn h₁ := by simp [hh₁, hplain.unprepared]
  have hreached : Reached openedFor h₁ .connect := ⟨hunsent, hanonymous⟩
  have hheard : heardIn h₁ = heard .greeting greeting := by simp [hh₁, hplain.unheard, heard]
  rcases greeting with error | greeting | greeting
  · refine .fail (Hears.fails ?_ (.io error hreached rfl))
    rw [hheard]
    exact hears_follow
  · refine .fail (Hears.fails ?_ (.of (.failed .connect) hreached rfl))
    rw [hheard]
    exact hears_follow
  · have hhears : Hears (ServerNotices.default.follow.keep greeting) (heardIn h₁) := by
      rw [hheard]
      exact hears_keep greeting
    show SafeOr E _ h₁ t₁ (if greeting.isOk then .done _ else .fail _) _ _
    split
    · exact .done ⟨seen_concat.mpr (.inl hsecured), hanonymous, hunsent, hunprepared, hhears⟩
    · exact .fail (hhears.fails (.of (.failed .connect) hreached rfl))

/-- The connection is encrypted before anything else. -/
theorem secureConnection_safe :
    SafeOr E (Lawful account options) [] s (secureConnection account .default)
    (fun notices h _ => Secured h notices) (Fails account openedFor) := by
  refine .bind_request (fun _ _ _ _ => lawful_connect) fun s₁ connected t₁ _ => ?_
  have hplain₁ : Plain ([] ++
      [⟨s₁, .connect account.host account.encryption.defaultPort, connected, t₁⟩]) :=
      plain_nil.next rfl rfl
  refine bind_orFail (fun _ _ => ?_) fun failure hfails => ?_
  · refine .bind (R := fun _ h _ => Plain h ∧ (account.encryption = .startTls → Seen upgraded h)) ?_
      fun _ tr t₂ hplain₂ => ?_
    · split
      · next hstarttls =>
          exact (upgradePlaintext_safe hplain₁ hstarttls).mono (fun _ _ _ h => ⟨h.1, fun _ => h.2⟩)
            fun _ _ _ h => h
      · next hnot => exact .done ⟨hplain₁, fun hstarttls => absurd hstarttls hnot⟩
    · refine .bind_request (fun _ _ _ _ => lawful_handshake hplain₂.2) fun s₃ secured t₃ _ => ?_
      rcases secured with error | _
      · have hplain₃ := hplain₂.1.next (u := s₃) (o := .handshake account.host) (a := .error error)
          (t := t₃) rfl rfl
        exact .fail (hplain₃.fails (.io error hplain₃.unsecured rfl))
      · show SafeOr E _ _ t₃ (if account.encryption = .implicitTls then _ else _) _ _
        split
        · exact readGreeting_safe hplain₂.1
        · refine .done ⟨seen_concat.mpr (.inr rfl), ?_, ?_, ?_, ?_⟩
          · simpa [signedIn] using hplain₂.1.anonymous
          · exact notAsked_concat.mpr ⟨hplain₂.1.unsent, rfl⟩
          · exact notAsked_concat.mpr ⟨hplain₂.1.unprepared, rfl⟩
          · rw [heardIn_concat, hplain₂.1.unheard]
            exact hears_follow
  · obtain ⟨error, -, rfl⟩ := mapError_eq_error hfails
    exact hplain₁.fails (.io error ⟨hplain₁.unsent, hplain₁.anonymous⟩ rfl)

end Rules

end Mailbag.Imap
