import Mailbag.Domain
import Mailbag.OnlineAccounts.Observer

/-!
# The accounts the window shows

An account has a row once a complete answer of Online Accounts lists it with Mail on, with a
supported provider and with its mail service there. It keeps the row while complete answers
list it with Mail on. An answer that is not complete changes no row.

## What is proved

* `applyUpdate_excluded` — an account that a complete answer does not list, or lists with
  Mail off, is not shown.
-/

namespace Mailbag.OnlineAccounts

/-- Which provider Online Accounts has the account for. -/
inductive AccountProvider where
  /-- Generic IMAP. -/
  | imapSmtp
  /-- Google. -/
  | google
  /-- Microsoft 365. -/
  | microsoft365
  /-- Any other. -/
  | other
  deriving DecidableEq

/-- Which load sequence an account needs. -/
inductive MailProvider where
  /-- Generic IMAP. -/
  | genericImap
  /-- Gmail. -/
  | gmail
  /-- Microsoft 365. -/
  | microsoft365
  deriving DecidableEq

/-- The load sequence of a supported provider. -/
def mailProvider : AccountProvider → Option MailProvider
  | .imapSmtp => some .genericImap
  | .google => some .gmail
  | .microsoft365 => some .microsoft365
  | .other => none

/-- One account of Online Accounts. -/
structure AccountDetails where
  /-- Its provider. -/
  provider : AccountProvider
  /-- Whether its Mail is on. -/
  mailEnabled : Bool
  /-- Whether its mail service is there. -/
  mailServiceAvailable : Bool
  deriving DecidableEq

/-- Why an account read failed. -/
inductive ErrorCause where
  /-- Online Accounts is not there. -/
  | unavailable
  /-- It refused. -/
  | accessDenied
  /-- It did not answer in time. -/
  | timeout
  /-- Its answer could not be read. -/
  | invalidReply
  deriving DecidableEq

/-- The step that failed, and why. -/
structure AccountCheckError where
  /-- The step. -/
  operation : String
  /-- Why. -/
  cause : ErrorCause
  deriving DecidableEq

/-- The accounts of one answer, each once. -/
structure Accounts where
  /-- The accounts with their details. -/
  entries : List (AccountId × AccountDetails)
  /-- No account is listed twice. -/
  nodup : (entries.map (·.1)).Nodup

namespace Accounts

variable (accounts : Accounts)

/-- The details of an account. -/
def get (id : AccountId) : Option AccountDetails := accounts.entries.lookup id

/-- The accounts with Mail on: those a deletion keeps. -/
def withMail : List AccountId := (accounts.entries.filter (·.2.mailEnabled)).map (·.1)

/-- Online Accounts does not list the account, or lists it with Mail off. -/
def Excludes (id : AccountId) : Prop :=
  ∀ details, (id, details) ∈ accounts.entries → details.mailEnabled = false

end Accounts

/-- The rows that stay: accounts still listed, with Mail on. -/
def hideRemovedOrDisabledAccounts (visible : List AccountId) (accounts : Accounts) :
    List AccountId :=
  visible.filter fun id => (accounts.get id).any (·.mailEnabled)

/-- The rows after the account's details are looked at. -/
def updateVisibleAccount (visible : List AccountId) (account : AccountId × AccountDetails) :
    List AccountId :=
  match mailProvider account.2.provider with
  | none => visible.filter (· ≠ account.1)
  | some _ =>
    if !account.2.mailEnabled then visible
    else if account.1 ∈ visible then visible
    else if account.2.mailServiceAvailable then account.1 :: visible
    else visible

/-- The accounts shown after an update. -/
def applyUpdate (visible : List AccountId)
    (update : AccountUpdate Accounts AccountCheckError) : List AccountId :=
  match update.lastCheck with
  | .complete => update.accounts.entries.foldl updateVisibleAccount
      (hideRemovedOrDisabledAccounts visible update.accounts)
  | _ => visible

theorem Accounts.excludes_iff_withMail {accounts : Accounts} {id : AccountId} :
    accounts.Excludes id ↔ id ∉ accounts.withMail := by
  simp only [Excludes, withMail, List.mem_map, List.mem_filter]
  constructor
  · rintro h ⟨⟨id', details⟩, ⟨hmem, hon⟩, rfl⟩
    rw [h details hmem] at hon
    cases hon
  · intro h details hmem
    by_contra hon
    exact h ⟨(id, details), ⟨hmem, Bool.of_not_eq_false hon⟩, rfl⟩

/-- A row is added only for an account with Mail on. -/
theorem mem_of_updateVisibleAccount {visible : List AccountId}
    {account : AccountId × AccountDetails} {id : AccountId}
    (h : id ∈ updateVisibleAccount visible account) :
    id ∈ visible ∨ id = account.1 ∧ account.2.mailEnabled = true := by
  unfold updateVisibleAccount at h
  split at h
  · exact .inl (List.mem_of_mem_filter h)
  · split at h
    · exact .inl h
    · next hon =>
      split at h
      · exact .inl h
      · split at h
        · rcases List.mem_cons.mp h with rfl | h
          · exact .inr ⟨rfl, by simpa using hon⟩
          · exact .inl h
        · exact .inl h

/-- **An account that a complete answer leaves out**, or lists with Mail off, is not shown. -/
theorem applyUpdate_excluded {visible : List AccountId}
    {update : AccountUpdate Accounts AccountCheckError} {id : AccountId}
    (hcomplete : update.lastCheck = .complete) (h : update.accounts.Excludes id) :
    id ∉ applyUpdate visible update := by
  have hhidden : id ∉ hideRemovedOrDisabledAccounts visible update.accounts := by
    intro hmem
    obtain ⟨details, hget, hon⟩ := (Option.any_eq_true _ _).mp (List.mem_filter.mp hmem).2
    obtain ⟨before, after, heq, -⟩ := List.lookup_eq_some_iff.mp hget
    have hlisted : (id, details) ∈ update.accounts.entries :=
      heq ▸ List.mem_append_right _ List.mem_cons_self
    exact Bool.false_ne_true ((h details hlisted).symm.trans hon)
  have hadds : ∀ (entries : List (AccountId × AccountDetails)) (visible : List AccountId),
      (∀ entry ∈ entries, entry ∈ update.accounts.entries) → id ∉ visible →
      id ∉ entries.foldl updateVisibleAccount visible := by
    intro entries
    induction entries with
    | nil => exact fun _ _ hnot => hnot
    | cons entry entries ih =>
      intro visible hentries hnot
      rw [List.forall_mem_cons] at hentries
      refine ih _ hentries.2 fun hmem => ?_
      rcases mem_of_updateVisibleAccount hmem with hmem | ⟨rfl, hon⟩
      · exact hnot hmem
      · exact Bool.false_ne_true ((h entry.2 hentries.1).symm.trans hon)
  rw [applyUpdate, hcomplete]
  exact hadds _ _ (fun _ hmem => hmem) hhidden

end Mailbag.OnlineAccounts
