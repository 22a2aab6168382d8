import Mailbag.Imap.SessionOptions

/-!
# What an attempt sends, keeps and is told

Whatever the network and the server answer, an attempt to open a mailbox or to list the
mailboxes keeps to an order: what travels unencrypted is the greeting, CAPABILITY and STARTTLS;
the credentials travel once, over TLS, by the method they need among those the server offers
over TLS; a command that a server may not know is given to one that announced it.

## What is proved

* `session_lawful` — every operation of every attempt is lawful after those before it.
* `session_told` — a failure says how far the attempt came and keeps the status that ended its
  last command over TLS; a refusal of a command that a server may refuse is none, and what a
  server said on the unencrypted connection is not kept.
* `session_alerts` — the error carries every alert of the attempt's secured connection, in
  order, and the reason the server gave.
* `session_opened` — what an attempt returns is what the server said.
-/

namespace Mailbag.Imap

open Interaction

variable {σ : Type}

/-! ### Opening and listing -/

section Attempts

variable {E : Surroundings SessionOp SessionAns σ} {account : ImapAccount} {options : OpenOptions}
  {rounds : ℕ} {s u : σ} {tr : SessionLog σ} {mailbox : String}

/-- What an opening returns is what the server said. -/
def OpenedAs (options : OpenOptions) (mailbox : String) (opened : MailboxSession)
    (h : SessionLog σ) : Prop :=
  ∃ signedIn before s' unsolicited t, Prepared options signedIn before ∧
    opened.condstore = signedIn.capabilities.hasStr "CONDSTORE" ∧
    h = before ++ [⟨s', .select mailbox opened.condstore, ⟨.ok opened.numbers, unsolicited⟩, t⟩]

/-- What a listing returns is what the server said, all of it. -/
def ListedAs (options : OpenOptions) (listed : Folders.MailboxList) (h : SessionLog σ) : Prop :=
  ∃ signedIn before s' pattern names unsolicited t, Prepared options signedIn before ∧
    listed.utf8Names = signedIn.utf8Names ∧
    listed.names = names.map mailboxName ∧
    h = before ++ [⟨s', .list "" pattern, ⟨⟨names, none⟩, unsolicited⟩, t⟩]

theorem openingMailbox_safe :
    SafeOr E (Lawful account options) [] s (openMailbox account options mailbox rounds .default)
    (fun opened h _ => OpenedAs options mailbox opened.1 h) (Fails account .openMailbox) := by
  refine .bind (signInSession_safe (.inl rfl)) fun prepared tr t hprepared => ?_
  obtain ⟨signedIn, notices⟩ := prepared
  obtain ⟨hsigned, hprepared⟩ := hprepared
  refine .bind (R := fun selected h' _ => ∃ s' unsolicited t', h' = [] ++ tr ++
    [⟨s', .select mailbox
    (signedIn.capabilities.hasStr "CONDSTORE"), ⟨.ok selected.1, unsolicited⟩, t'⟩]) ?_
      fun selected tr' t' hselected => ?_
  · refine .bind_request (fun _ _ _ _ => hsigned.lawful rfl) fun s₁ answer t₁ _ => ?_
    refine bind_orFail (fun numbers hnumbers => ?_) fun failure hfails => ?_
    · obtain ⟨result, unsolicited⟩ := answer
      obtain rfl := mapError_eq_ok hnumbers
      exact .done ⟨s₁, unsolicited, t₁, rfl⟩
    · obtain ⟨error, herror, rfl⟩ := mapError_eq_error hfails
      have hended : endedWith (.select mailbox (signedIn.capabilities.hasStr "CONDSTORE")) answer =
          some error := by
        obtain ⟨result, unsolicited⟩ := answer
        cases herror
        rfl
      refine Hears.fails (?_ : Hears (notices.hear answer.unsolicited).collect _)
        (.command hended ⟨rfl, seen_concat.mpr (.inl hsigned.signedIn)⟩ rfl)
      rw [heardIn_concat]
      exact (hsigned.hears.hear answer.unsolicited).collect
  · obtain ⟨s', unsolicited, t', htr⟩ := hselected
    rw [htr]
    exact .done ⟨signedIn, [] ++ tr, s', unsolicited, t', hprepared, rfl, rfl⟩

theorem listingMailboxes_safe :
    SafeOr E (Lawful account options) [] s (signInAndList account options rounds .default)
    (fun listed h _ => ListedAs options listed.1 h) (Fails account .listMailboxes) := by
  refine .bind (signInSession_safe (.inr rfl)) fun prepared tr t hprepared => ?_
  obtain ⟨signedIn, notices⟩ := prepared
  obtain ⟨hsigned, hprepared⟩ := hprepared
  refine .bind_request (fun _ _ _ _ => hsigned.lawful rfl) fun s₁ answer t₁ _ => ?_
  refine bind_orFail (fun names hnames => ?_) fun failure hfails => ?_
  · obtain ⟨⟨received, ended⟩, unsolicited⟩ := answer
    have hcollected := mapError_eq_ok hnames
    cases ended with
    | some error => cases hcollected
    | none =>
      cases hcollected
      exact .done ⟨signedIn, [] ++ tr, s₁, _, received, unsolicited, t₁, hprepared, rfl, rfl, rfl⟩
  · obtain ⟨error, herror, rfl⟩ := mapError_eq_error hfails
    have hended : answer.result.ended = some error := by
      obtain ⟨⟨received, ended⟩, unsolicited⟩ := answer
      cases ended with
      | some error' =>
        cases herror
        rfl
      | none => cases herror
    refine Hears.fails (?_ : Hears (notices.hear answer.unsolicited).collect _)
      (.command hended ⟨rfl, seen_concat.mpr (.inl hsigned.signedIn)⟩ rfl)
    rw [heardIn_concat]
    exact (hsigned.hears.hear answer.unsolicited).collect

/-! ### Whatever the server answers -/

/-- The error of a failed attempt: what failed, the status that ended its last command or else the
BYE that the server closed with, and the alerts, with the sign-in name replaced. -/
def Explains (account : ImapAccount) (tr : SessionLog σ) (failure : StepFailure)
    (reported : ReportedError) : Prop :=
  reported.failure = failure.failure ∧
    Option.Rel (fun reply shown => shown.code = reply.code ∧
        ShownAs account.login reply.text shown.text)
      ((lastStatus tr).or (lastBye (heardIn tr))) reported.serverReply ∧
    List.Forall₂ (ShownAs account.login) ((heardIn tr).filterMap Response.alert) reported.alerts

theorem Fails.explains {openedFor : ImapStep} {failed : StepFailure × ServerNotices}
    (hfails : Fails account openedFor failed tr u) : ∃ reported,
      Except.map Prod.fst (failed.2.error account.login failed.1) = .ok reported ∧
        Explains account tr failed.1 reported := by
  obtain ⟨htold, halerts, hbye⟩ := hfails
  obtain ⟨reported, herror, hfailure, hreply, hshown⟩ :=
    error_shown failed.2 account.login failed.1
  refine ⟨reported, by rw [herror]; rfl, hfailure, ?_, ?_⟩
  · rw [← htold.reply, ← hbye]
    exact hreply
  · rw [← halerts]
    exact hshown

/-- **Every operation is lawful**, of every attempt to open or to list. -/
theorem session_lawful :
    (∀ mailbox tr r u, Run E (openMailbox account options mailbox rounds .default) s tr r u →
      Every (Lawful account options) tr) ∧
      ∀ tr r u, Run E (signInAndList account options rounds .default) s tr r u →
        Every (Lawful account options) tr :=
  ⟨fun _ tr r u hrun => (openingMailbox_safe tr r u hrun).1, fun tr r u hrun =>
    (listingMailboxes_safe tr r u hrun).1⟩

/-- **A failure tells** how far the attempt came and the status that ended its last command, given
over TLS, which is no refusal of an option. -/
theorem session_told :
    (∀ mailbox tr failed u, Run E (openMailbox account options mailbox rounds .default) s tr
      (.failed failed) u →
        Told account .openMailbox tr failed.1) ∧
      ∀ tr failed u, Run E (signInAndList account options rounds .default) s tr (.failed failed) u →
        Told account .listMailboxes tr failed.1 :=
  ⟨fun _ tr _ u hrun => (openingMailbox_safe tr _ u hrun).2.1, fun tr _ u hrun =>
    (listingMailboxes_safe tr _ u hrun).2.1⟩

/-- **The error carries** every alert of the attempt's secured connection, in order, and the status
that ended the last command there, or else the last BYE; nothing said on the unencrypted
connection. -/
theorem session_alerts :
    (∀ mailbox tr failed u, Run E (openMailbox account options mailbox rounds .default) s tr
      (.failed failed) u →
        ∃ reported, Except.map Prod.fst (failed.2.error account.login failed.1) = .ok reported ∧
          Explains account tr failed.1 reported) ∧
      ∀ tr failed u, Run E (signInAndList account options rounds .default) s tr (.failed failed) u →
        ∃ reported, Except.map Prod.fst (failed.2.error account.login failed.1) = .ok reported ∧
          Explains account tr failed.1 reported :=
  ⟨fun _ tr failed u hrun => Fails.explains (u := u)
    (openingMailbox_safe tr (.failed failed) u hrun).2,
    fun tr failed u hrun => Fails.explains (u := u)
      (listingMailboxes_safe tr (.failed failed) u hrun).2⟩

/-- **What an attempt returns** is what the server said: the numbers of its SELECT, all the
mailboxes of a LIST it completed, and the options it announced, was asked for and agreed to. -/
theorem session_opened :
    (∀ mailbox tr opened u, Run E (openMailbox account options mailbox rounds .default) s tr
      (.returned opened) u →
        OpenedAs options mailbox opened.1 tr) ∧
      ∀ tr listed u, Run E (signInAndList account options rounds .default) s tr
        (.returned listed) u →
        ListedAs options listed.1 tr :=
  ⟨fun _ tr _ u hrun => (openingMailbox_safe tr _ u hrun).2, fun tr _ u hrun =>
    (listingMailboxes_safe tr _ u hrun).2⟩

end Attempts

/-! ### One server -/

/-- Every operation may be answered in any way. -/
def anyAnswer : Surroundings SessionOp SessionAns Unit := ⟨fun _ _ => False, fun _ _ _ _ => True⟩

/-- A server to upgrade, which offers LOGIN and UTF-8 names, and compression that it refuses. -/
def upgradingServer : (o : SessionOp) → SessionAns o
  | .connect .. => .ok ()
  | .plaintextGreeting => .ok (some (.data .ok none none))
  | .plaintextCapability => .ok ["STARTTLS"]
  | .plaintextCommand _ => .ok ()
  | .handshake _ => .ok ()
  | .greeting => .ok none
  | .capability =>
    ⟨.ok ["COMPRESS=DEFLATE", "UTF8=ACCEPT"],
      [.data .ok (some .alert) (some "Quota of USER exceeded")]⟩
  | .authenticate _ => ⟨.completed (.error .broken), []⟩
  | .response _ => ⟨.completed (.error .broken), []⟩
  | .login .. => ⟨.ok (), []⟩
  | .runCommand text =>
    ⟨if text = "COMPRESS DEFLATE" then .error (.no ⟨none, "Later"⟩) else .ok (), []⟩
  | .startCompression => ()
  | .select .. => ⟨.error (.no ⟨some "NONEXISTENT", "No such mailbox"⟩), []⟩
  | .list .. => ⟨⟨[⟨"INBOX", [.marked], some "/"⟩], none⟩, []⟩

/-- An account that signs in with a password after STARTTLS. -/
def upgradingAccount : ImapAccount := ⟨"mail.example", "user", .password "secret", .startTls⟩

/-- The server when it signs in with a token instead, which it challenges the client for. -/
def challengingServer : (o : SessionOp) → SessionAns o
  | .capability => ⟨.ok ["AUTH=XOAUTH2"], []⟩
  | .authenticate _ => ⟨.challenge [], []⟩
  | .response _ => ⟨.completed (.ok ()), []⟩
  | o => upgradingServer o

/-- The account when it signs in with a token. -/
def tokenAccount : ImapAccount := { upgradingAccount with credential := .accessToken "token" }

/-- What the attempt to open a mailbox asks the server, and how it ends. -/
def refusedOpening :
    SessionLog Unit × Outcome (StepFailure × ServerNotices) (MailboxSession × ServerNotices) ×
      Unit :=
  exec (fun s o => (upgradingServer o, s)) (openMailbox upgradingAccount ⟨none⟩ "Old" 1 .default) ()

/-- What the attempt with a token asks the server that challenges it, and how it ends. -/
def tokenOpening :
    SessionLog Unit × Outcome (StepFailure × ServerNotices) (MailboxSession × ServerNotices) ×
      Unit :=
  exec (fun s o => (challengingServer o, s)) (openMailbox tokenAccount ⟨none⟩ "Old" 2 .default) ()

/-- What the attempt to list the mailboxes asks it, and how it ends. -/
def completedListing :
    SessionLog Unit × Outcome (StepFailure × ServerNotices) (Folders.MailboxList × ServerNotices) ×
      Unit :=
  exec (fun s o => (upgradingServer o, s)) (signInAndList upgradingAccount ⟨none⟩ 1 .default) ()

theorem refusedOpening_run :
    Run anyAnswer (openMailbox upgradingAccount ⟨none⟩ "Old" 1 .default) () refusedOpening.1
    refusedOpening.2.1 refusedOpening.2.2 :=
  run_exec (fun _ _ => trivial) _ _

theorem tokenOpening_run :
    Run anyAnswer (openMailbox tokenAccount ⟨none⟩ "Old" 2 .default) () tokenOpening.1
      tokenOpening.2.1 tokenOpening.2.2 := run_exec (fun _ _ => trivial) _ _

theorem completedListing_run :
    Run anyAnswer (signInAndList upgradingAccount ⟨none⟩ 1 .default) () completedListing.1
    completedListing.2.1 completedListing.2.2 :=
  run_exec (fun _ _ => trivial) _ _

theorem session_lawful_signIns :
    (refusedOpening.1.map (·.op) = [.connect "mail.example" 143, .plaintextGreeting,
        .plaintextCapability, .plaintextCommand "STARTTLS", .handshake "mail.example", .capability,
        .login "user" "secret", .capability, .runCommand "COMPRESS DEFLATE",
        .runCommand "ENABLE UTF8=ACCEPT", .select "Old" false] ∧
      Every (Lawful upgradingAccount ⟨none⟩) refusedOpening.1) ∧
    tokenOpening.1.map (·.op) = [.connect "mail.example" 143, .plaintextGreeting,
        .plaintextCapability, .plaintextCommand "STARTTLS", .handshake "mail.example", .capability,
        .authenticate "XOAUTH2", .response (xoauth2Credentials "user" "token").credentials,
        .capability, .select "Old" false] ∧
      Every (Lawful tokenAccount ⟨none⟩) tokenOpening.1 :=
  ⟨⟨by decide, session_lawful.1 _ _ _ _ refusedOpening_run⟩, rfl,
    session_lawful.1 _ _ _ _ tokenOpening_run⟩

theorem session_told_refused : ∃ failure : StepFailure, failure.failure = .failed .openMailbox ∧
    failure.serverReply = some ⟨some "NONEXISTENT", "No such mailbox"⟩ ∧
      Told upgradingAccount .openMailbox refusedOpening.1 failure :=
  ⟨_, rfl, rfl, session_told.1 _ _ _ _ refusedOpening_run⟩

theorem session_alerts_refused : ∃ failure reported,
    Explains upgradingAccount refusedOpening.1 failure reported ∧
      reported.serverReply = some ⟨some "NONEXISTENT", "No such mailbox"⟩ ∧
      reported.alerts = ["Quota of <login> exceeded", "Quota of <login> exceeded"] := by
  obtain ⟨reported, herror, hexplains⟩ := session_alerts.1 _ _ _ _ refusedOpening_run
  obtain rfl := Except.ok.inj herror
  exact ⟨_, _, hexplains, rfl, by decide⟩

theorem session_opened_listed : ∃ listed, listed.names = [⟨"INBOX", ["\\Marked"], some "/"⟩] ∧
    ListedAs ⟨none⟩ listed completedListing.1 :=
  ⟨_, rfl, session_opened.2 _ _ _ completedListing_run⟩

end Mailbag.Imap
