import Mailbag.Imap.Session

/-!
# What was asked and said during an attempt

The log of an attempt holds each operation with its answer. Here are its readers: what an operation
carries, what an answer grants, announces, refuses or ends with, and what the server said by itself
meanwhile, which the notices of the attempt know.

## What is proved

* `AnnouncedAfter.concat`, `NotAsked.not_seen` — how the readers follow a log that grows.
* `Hears.hear`, `Hears.collect` — the notices know the alerts and the last BYE, waiting or
  collected.
-/

namespace Mailbag.Imap

open Interaction

variable {σ : Type}

/-- What was asked so far, and how it was answered. -/
abbrev SessionLog (σ : Type) : Type := List (Event SessionOp SessionAns σ)

/-! ### Reading what happened -/

/-- The operation travels on the connection not yet encrypted. -/
def SessionOp.isPlaintext : SessionOp → Bool
  | .plaintextGreeting => true
  | .plaintextCapability => true
  | .plaintextCommand _ => true
  | _ => false

/-- The operation comes before any encryption, or brings it about. -/
def SessionOp.securesFirst : SessionOp → Bool
  | .connect .. => true
  | .handshake _ => true
  | o => o.isPlaintext

/-- The operation carries the credentials. -/
def SessionOp.sendsCredentials : SessionOp → Bool
  | .response data => data ≠ []
  | .login .. => true
  | _ => false

/-- The operation needs a signed-in session. -/
def SessionOp.needsSignIn : SessionOp → Bool
  | .runCommand _ => true
  | .startCompression => true
  | .select .. => true
  | .list .. => true
  | _ => false

/-- The server agreed to encrypt the connection. -/
def upgraded : (o : SessionOp) → SessionAns o → Bool
  | .plaintextCommand text, .ok () => text = "STARTTLS"
  | _, _ => false

/-- The connection is encrypted from here on, and the certificate verified. -/
def handshaken : (o : SessionOp) → SessionAns o → Bool
  | .handshake _, .ok () => true
  | _, _ => false

/-- The server let the client sign in. -/
def signedIn : (o : SessionOp) → SessionAns o → Bool
  | .authenticate _, ⟨.completed (.ok ()), _⟩ => true
  | .response _, ⟨.completed (.ok ()), _⟩ => true
  | .login .., ⟨.ok (), _⟩ => true
  | _, _ => false

/-- The server challenged the client to prove who it is. -/
def challenged : (o : SessionOp) → SessionAns o → Bool
  | .authenticate _, ⟨.challenge _, _⟩ => true
  | .response _, ⟨.challenge _, _⟩ => true
  | _, _ => false

/-- The server completed the command. -/
def completed (text : String) : (o : SessionOp) → SessionAns o → Bool
  | .runCommand text', ⟨.ok (), _⟩ => text' = text
  | _, _ => false

/-- The server refused a command that it may refuse. -/
def refusedOption : (o : SessionOp) → SessionAns o → Bool
  | .runCommand _, ⟨.error (.no _), _⟩ => true
  | .runCommand _, ⟨.error (.bad _), _⟩ => true
  | _, _ => false

/-- What the server announced over TLS. -/
def announcement : (o : SessionOp) → SessionAns o → Option Capabilities
  | .capability, ⟨.ok capabilities, _⟩ => some capabilities
  | _, _ => none

/-- The error that ended a command over TLS. -/
def endedWith : (o : SessionOp) → SessionAns o → Option SessionError
  | .capability, ⟨.error error, _⟩ => some error
  | .authenticate _, ⟨.completed (.error error), _⟩ => some error
  | .response _, ⟨.completed (.error error), _⟩ => some error
  | .login .., ⟨.error error, _⟩ => some error
  | .runCommand _, ⟨.error error, _⟩ => some error
  | .select .., ⟨.error error, _⟩ => some error
  | .list .., answer => answer.result.ended
  | _, _ => none

/-- What the server said over TLS besides the results. -/
def heard : (o : SessionOp) → SessionAns o → List Response
  | .greeting, .ok (some greeting) => [greeting]
  | .capability, answer => answer.unsolicited
  | .authenticate _, answer => answer.unsolicited
  | .response _, answer => answer.unsolicited
  | .login .., answer => answer.unsolicited
  | .runCommand _, answer => answer.unsolicited
  | .select .., answer => answer.unsolicited
  | .list .., answer => answer.unsolicited
  | _, _ => []

/-- Something like this happened. -/
def Seen (P : (o : SessionOp) → SessionAns o → Bool) (h : SessionLog σ) : Prop :=
  ∃ e ∈ h, P e.op e.ans

/-- Nothing like this was asked. -/
def NotAsked (P : SessionOp → Bool) (h : SessionLog σ) : Prop := ∀ e ∈ h, P e.op = false

/-- The server announced these after something like this happened. -/
def AnnouncedAfter (P : (o : SessionOp) → SessionAns o → Bool) (h : SessionLog σ)
    (capabilities : Capabilities) : Prop :=
  ∃ before e later, h = before ++ e :: later ∧ announcement e.op e.ans = some capabilities ∧
    Seen P before

/-- All the server said over TLS, in order. -/
def heardIn (h : SessionLog σ) : List Response := h.flatMap fun e => heard e.op e.ans

/-- The mailbox is selected or listed. -/
def SessionOp.readsMailboxes : SessionOp → Bool
  | .select .. => true
  | .list .. => true
  | _ => false

/-- The status a server completed or ended a command with. -/
def SessionError.status : SessionError → Option ServerReply
  | .no status => some status
  | .bad status => some status
  | .bye status => some status
  | _ => none

/-- The status that ended the last command, given over TLS. -/
def lastStatus (h : SessionLog σ) : Option ServerReply :=
  (h.getLast?.bind fun e => endedWith e.op e.ans).bind SessionError.status

/-! ### What happened, operation by operation -/

section Reading

variable {P : (o : SessionOp) → SessionAns o → Bool} {K : SessionOp → Bool} {h : SessionLog σ}
  {e : Event SessionOp SessionAns σ} {capabilities : Capabilities}

@[simp] theorem seen_nil : ¬Seen P ([] : SessionLog σ) := by simp [Seen]

@[simp] theorem seen_cons : Seen P (e :: h) ↔ P e.op e.ans ∨ Seen P h := by simp [Seen]

@[simp] theorem seen_append {h' : SessionLog σ} : Seen P (h ++ h') ↔ Seen P h ∨ Seen P h' := by
  simp [Seen, or_and_right, exists_or]

theorem seen_concat : Seen P (h ++ [e]) ↔ Seen P h ∨ P e.op e.ans := by simp

@[simp] theorem notAsked_nil : NotAsked K ([] : SessionLog σ) := by simp [NotAsked]

@[simp] theorem notAsked_cons : NotAsked K (e :: h) ↔ K e.op = false ∧ NotAsked K h := by
  simp [NotAsked]

@[simp] theorem notAsked_append {h' : SessionLog σ} :
    NotAsked K (h ++ h') ↔ NotAsked K h ∧ NotAsked K h' := by
  simp [NotAsked, or_imp, forall_and]

theorem notAsked_concat : NotAsked K (h ++ [e]) ↔ NotAsked K h ∧ K e.op = false := by simp

@[simp] theorem heardIn_nil : heardIn ([] : SessionLog σ) = [] := rfl

@[simp] theorem heardIn_cons : heardIn (e :: h) = heard e.op e.ans ++ heardIn h := by simp [heardIn]

@[simp] theorem heardIn_append {h' : SessionLog σ} :
    heardIn (h ++ h') = heardIn h ++ heardIn h' := by simp [heardIn]

theorem heardIn_concat : heardIn (h ++ [e]) = heardIn h ++ heard e.op e.ans := by simp

theorem lastStatus_concat :
    lastStatus (h ++ [e]) = (endedWith e.op e.ans).bind SessionError.status := by
  simp [lastStatus]

/-- A refused option ended with its refusal. -/
theorem not_refusedOption {o : SessionOp} {a : SessionAns o} (hsilent : endedWith o a = none) :
    refusedOption o a = false := by
  cases o with
  | runCommand text =>
    obtain ⟨error | _, unsolicited⟩ := a
    · cases hsilent
    · rfl
  | _ => rfl

theorem AnnouncedAfter.concat (hannounced : AnnouncedAfter P h capabilities) :
    AnnouncedAfter P (h ++ [e]) capabilities := by
  obtain ⟨before, announcing, later, rfl, hnames, hseen⟩ := hannounced
  exact ⟨before, announcing, later ++ [e], by simp, hnames, hseen⟩

/-- The latest operation announced them. -/
theorem announcedAfter_concat (hseen : Seen P h)
    (hnames : announcement e.op e.ans = some capabilities) :
    AnnouncedAfter P (h ++ [e]) capabilities := ⟨h, e, [], rfl, hnames, hseen⟩

/-- What nothing asked brings about did not happen. -/
theorem NotAsked.not_seen (hnot : NotAsked K h) (hP : ∀ o a, P o a → K o) : ¬Seen P h := by
  rintro ⟨e, he, hp⟩
  have hasked := hP e.op e.ans hp
  rw [hnot e he] at hasked
  cases hasked

end Reading

/-! ### What the notices keep -/

/-- The text of an alert. -/
def Response.alert : Response → Option String
  | .data _ (some .alert) information => some (information.getD "")
  | .done (some .alert) information => some (information.getD "")
  | _ => none

/-- The words with which the server closed the connection. -/
def Response.bye : Response → Option ServerReply
  | .data .bye _ information => some ⟨none, information.getD ""⟩
  | _ => none

/-- The last BYE of these. -/
def lastBye (responses : List Response) : Option ServerReply :=
  (responses.filterMap Response.bye).getLast?

theorem keep_alerts (notices : ServerNotices) (response : Response) :
    (notices.keep response).alerts = notices.alerts ++ response.alert.toList := by
  cases response with
  | data status code information =>
    rcases code with _ | _ | _ <;> simp [ServerNotices.keep, Response.alert]
  | done code information =>
    rcases code with _ | _ | _ <;> simp [ServerNotices.keep, Response.alert]
  | other => simp [ServerNotices.keep, Response.alert]

theorem keep_bye (notices : ServerNotices) (response : Response) :
    (notices.keep response).bye = response.bye.or notices.bye := by
  cases response with
  | data status code information => cases status <;> simp [ServerNotices.keep, Response.bye]
  | done => rfl
  | other => rfl

@[simp] theorem keep_responses (notices : ServerNotices) (response : Response) :
    (notices.keep response).responses = notices.responses := by
  cases response <;> rfl

theorem foldl_keep_alerts (responses : List Response) (notices : ServerNotices) :
    (responses.foldl .keep notices).alerts = notices.alerts ++
      responses.filterMap Response.alert := by
  induction responses generalizing notices with
  | nil => simp
  | cons response responses ih =>
    rw [List.foldl_cons, ih, keep_alerts, List.append_assoc]
    cases halert : response.alert <;> simp [halert]

theorem foldl_keep_bye (responses : List Response) (notices : ServerNotices) :
    (responses.foldl .keep notices).bye = (lastBye responses).or notices.bye := by
  induction responses generalizing notices with
  | nil => simp [lastBye]
  | cons response responses ih =>
    rw [List.foldl_cons, ih, keep_bye, lastBye, lastBye]
    cases hbye : response.bye with
    | none => rw [List.filterMap_cons_none hbye, Option.none_or]
    | some reply =>
      rw [List.filterMap_cons_some hbye, List.getLast?_cons]
      cases (responses.filterMap Response.bye).getLast? <;> rfl

/-- The notices follow the connection, and know all that was said on it, collected or waiting. -/
structure Hears (notices : ServerNotices) (said : List Response) : Prop where
  /-- They follow it. -/
  follows : notices.responses.isSome
  /-- The alerts. -/
  alerts : notices.collect.alerts = said.filterMap Response.alert
  /-- The last BYE. -/
  bye : notices.collect.bye = lastBye said

theorem hears_follow : Hears ServerNotices.default.follow [] := ⟨rfl, rfl, rfl⟩

/-- A greeting is read before anything else is said. -/
theorem hears_keep (greeting : Response) :
    Hears (ServerNotices.default.follow.keep greeting) [greeting] := by
  refine ⟨by simp [ServerNotices.follow], ?_, ?_⟩
  · simp only [ServerNotices.collect, keep_responses, ServerNotices.follow, List.foldl_nil,
      keep_alerts]
    cases halert : greeting.alert <;> simp [halert, ServerNotices.default]
  · simp only [ServerNotices.collect, keep_responses, ServerNotices.follow, List.foldl_nil,
      keep_bye]
    cases hbye : greeting.bye <;> simp [hbye, ServerNotices.default, lastBye]

theorem Hears.hear {notices : ServerNotices} {said : List Response} (h : Hears notices said)
    (unsolicited : List Response) : Hears (notices.hear unsolicited) (said ++ unsolicited) := by
  obtain ⟨waiting, hwaiting⟩ := Option.isSome_iff_exists.mp h.follows
  have halerts := h.alerts
  have hbye := h.bye
  simp only [ServerNotices.collect, hwaiting, foldl_keep_alerts, foldl_keep_bye] at halerts hbye
  have hmore : (notices.hear unsolicited).responses = some (waiting ++ unsolicited) := by
    simp [ServerNotices.hear, hwaiting]
  refine ⟨by simp [hmore], ?_, ?_⟩
  · simp only [ServerNotices.collect, hmore, foldl_keep_alerts, List.filterMap_append, ← halerts,
      List.append_assoc]
    rfl
  · simp only [ServerNotices.collect, hmore, foldl_keep_bye]
    rw [lastBye, lastBye, List.filterMap_append, List.filterMap_append, List.getLast?_append,
      List.getLast?_append, Option.or_assoc]
    exact congrArg _ hbye

theorem Hears.collect {notices : ServerNotices} {said : List Response}
    (h : Hears notices said) : Hears notices.collect said := by
  obtain ⟨waiting, hwaiting⟩ := Option.isSome_iff_exists.mp h.follows
  have hnone : notices.collect.responses = some [] := by simp [ServerNotices.collect, hwaiting]
  have hsame : notices.collect.collect = notices.collect := by
    rw [ServerNotices.collect, hnone]
    show { notices.collect with responses := some [] } = notices.collect
    rw [← hnone]
  refine ⟨by simp [hnone], ?_, ?_⟩
  · rw [hsame]
    exact h.alerts
  · rw [hsame]
    exact h.bye

end Mailbag.Imap
