import Mailbag.Cycle.AsNew
import Mailbag.Cycle.ImapRuns

/-!
# What a pass leaves as new as its opening

The passes of a cycle of a Generic IMAP folder, while other clients change the mailbox and the user
writes wishes. Every step keeps the folder's mark true, so also a pass that fails, or is dropped
anywhere, leaves a true mark to the next cycle.

## What is proved

* `truePass_safe` — a pass keeps the mark true and leaves the folder as new as its opening.
* `endChanges_alike` — ending the changes that the listing shows leaves the folder as it is.
-/

namespace Mailbag.Cycle

open Collections Imap Interaction Program Relation Store

variable {history : MailboxHistory} {folder : FolderRef} {v : UInt32}
  {h h' : History (mailboxServer history)} {s s' u : ℕ × Tables}

/-! ### Time, and the guarantee -/

/-- **Every event leaves the folder's mark true.** -/
def LeavesTrueMark (history : MailboxHistory) (folder : FolderRef) (v : UInt32)
    (_ : History (mailboxServer history)) (e : Happened (mailboxServer history)) : Prop :=
  TrueMark history folder v e.after.1 e.after.2

/-- A property of the moment and the tables that stays while the folder does, and under which its
mark is true. -/
structure Stable (history : MailboxHistory) (folder : FolderRef) (v : UInt32)
    (J : ℕ × Tables → Prop) : Prop where
  /-- It stays. -/
  kept : ∀ s u, J s → Alike folder s u → J u
  /-- The mark is true. -/
  mark : ∀ s, J s → TrueMark history folder v s.1 s.2

/-- Other clients, the window and the server leave the folder as it is. -/
theorem alike_of_moves (hshape : Shape s.2) (hm : moves (mailboxServer history) s u) :
    Alike folder s u := by
  obtain ⟨hsteps, -, hkept⟩ := moved (S := mailboxServer history) (.single hm)
  exact alike_of_kept hshape (moments_of_leads (leads_of_steps hsteps)) hkept

theorem later_of_called {J : History (mailboxServer history) → ℕ × Tables → Prop} {op : StoreCall}
    {result : op.Result} (hcalled : Called (S := mailboxServer history) J op result h h' s u) :
    s.1 ≤ u.1 := by
  obtain ⟨s', met, hsteps, -, -, hsame, -, -⟩ := hcalled.moment
  exact (moments_of_leads (leads_of_steps hsteps)).trans hsame.ge

theorem Stable.steady {J : ℕ × Tables → Prop} (hJ : Stable history folder v J) :
    Steady (S := mailboxServer history) (fun _ s => J s) (LeavesTrueMark history folder v) := by
  refine ⟨fun _ s u hs hm => hJ.kept s u hs (alike_of_moves (hJ.mark s hs).shape hm),
    fun h e he hs => ?_, fun h e he hs => ?_⟩
  · obtain ⟨⟨c, hc⟩, hreal⟩ := he
    obtain ⟨before, op, answer, after⟩ := e
    cases hc
    have hafter := hJ.kept before after hs
      (alike_of_kept (hJ.mark _ hs).shape hreal.1.1 (hreal.2 ▸ .refl _))
    exact ⟨hJ.mark _ hafter, hafter⟩
  · obtain ⟨⟨op, hop, hmoves, hsettles⟩, hreal⟩ := he
    obtain ⟨before, op', answer, after⟩ := e
    cases hop
    obtain ⟨hsame, met, hcall⟩ := hreal
    have hkept : Kept before.2 after.2 := by
      rw [show after.2 = (call before.2 op met).2 from congrArg Prod.snd hcall]
      exact call_kept hmoves hsettles _ met
    have hafter := hJ.kept before after hs (alike_of_kept (hJ.mark _ hs).shape hsame.ge hkept)
    exact ⟨hJ.mark _ hafter, hafter⟩

theorem stable_alike (hnumbered : Numbered history v) (hs : TrueMark history folder v s.1 s.2) :
    Stable history folder v (Alike folder s) :=
  ⟨fun _ _ ha ha' => ha.trans ha', fun _ ha => hs.alike hnumbered ha⟩

/-! ### Calls that change the folder -/

section Calls

variable {J J' : ℕ × Tables → Prop}

/-- **The storing of a batch**, of which it is enough to say what an applied one leaves. -/
theorem storeTrue_safe (hJ : Stable history folder v J) (hJ' : Stable history folder v J')
    (hs : J s) {batches : BatchWriter} (hfolder : batches.folder = folder) {batch : FolderBatch}
    (hdefault : batch = .default → J' s)
    (happlied : ∀ (s' : ℕ × Tables) folderId, J s' → s.1 ≤ s'.1 → Kept s.2 s'.2 →
      s'.2.Opened folder folderId → J' (s'.1, s'.2.applyBatch folderId folder.account batch)) :
    Safe (surroundings (mailboxServer history)) (LeavesTrueMark history folder v) h s
    (batches.store batch) fun _ h' u =>
      Passes (fun _ s => J' s) ByStore h h' s u := by
  subst hfolder
  refine (store_safe hJ.steady hs ?_).mono ?_
  · intro e hop hreal hbefore hsteps hkept
    obtain ⟨before, op, answer, after⟩ := e
    cases hop
    obtain ⟨hsame, met, hcall⟩ := hreal
    have hshape := (hJ.mark _ hbefore).shape
    rcases storeBatch_spec hshape.toLinked batch met with ⟨folderId, ho, -, hspec⟩ | ⟨hspec, -⟩
    · have htables : after.2 = before.2.applyBatch folderId batches.folder.account batch :=
        congrArg Prod.snd (hcall.trans hspec)
      have hafter : after = (before.1, before.2.applyBatch folderId batches.folder.account batch) :=
        Prod.ext hsame htables
      rw [LeavesTrueMark, hafter]
      exact hJ'.mark _ (happlied before folderId hbefore (moments_of_leads (leads_of_steps hsteps))
        hkept ho)
    · have htables : after.2 = before.2 := (congrArg Prod.snd hcall).trans hspec
      have hafter : after = before := Prod.ext hsame htables
      rw [LeavesTrueMark, hafter]
      exact hJ.mark _ hbefore
  · rintro _ tr u (⟨hbatch, heq, rfl⟩ | hcalled)
    · rw [heq]
      exact .refl (hdefault hbatch)
    · refine Passes.of_called hcalled ?_
      obtain ⟨s', met, hsteps, hkept, hs', hsame, hcall, -⟩ := hcalled.moment
      obtain ⟨folderId, ho, htables⟩ :=
        stored_of_call (hJ.mark _ hs').shape (congrArg Prod.fst hcall)
      have hu : u = (s'.1, s'.2.applyBatch folderId batches.folder.account batch) :=
        Prod.ext hsame ((congrArg Prod.snd hcall).symm.trans htables)
      exact hu ▸ happlied s' folderId hs' (moments_of_leads (leads_of_steps hsteps)) hkept ho

/-- **The settling of a flag**, of which it is enough to say what it leaves. -/
theorem settleTrue_safe (hJ : Stable history folder v J) (hs : J s) {batches : BatchWriter}
    (hfolder : batches.folder = folder) {identities : List String} {flag : MessageFlag}
    {value : Bool}
    (hsettled : ∀ (s' : ℕ × Tables) met, J s' → s.1 ≤ s'.1 →
      J (s'.1, (call s'.2 (.settleFlags folder.account identities flag value) met).2)) :
    Safe (surroundings (mailboxServer history)) (LeavesTrueMark history folder v) h s
    (batches.settle identities flag value)
      fun _ h' u => Passes (fun _ s => J s) ByStore h h' s u := by
  subst hfolder
  refine (storeCall_safe hJ.steady hs ?_).mono ?_
  · intro e hop hreal hbefore hsteps _
    obtain ⟨before, op, answer, after⟩ := e
    cases hop
    obtain ⟨hsame, met, hcall⟩ := hreal
    have htables : after.2 =
        (call before.2 (.settleFlags batches.folder.account identities flag value) met).2 :=
      congrArg Prod.snd hcall
    have hafter : after = (before.1,
        (call before.2 (.settleFlags batches.folder.account identities flag value) met).2) :=
      Prod.ext hsame htables
    rw [LeavesTrueMark, hafter]
    exact hJ.mark _ (hsettled before met hbefore (moments_of_leads (leads_of_steps hsteps)))
  · rintro _ tr u hcalled
    refine Passes.of_called hcalled ?_
    obtain ⟨s', met, hsteps, -, hs', hsame, hcall, -⟩ := hcalled.moment
    have hu : u = (s'.1, (call s'.2 (.settleFlags batches.folder.account identities flag value)
        met).2) :=
      Prod.ext hsame (congrArg Prod.snd hcall).symm
    exact hu ▸ hsettled s' met hs' (moments_of_leads (leads_of_steps hsteps))

end Calls

/-! ### A pass -/

/-- A listing of the changed flags ended after the message had left the mailbox. -/
def RemovedUnlisted (history : MailboxHistory) (h : History (mailboxServer history))
    (uid : UInt32) : Prop :=
  ∃ l ∈ h, ∃ since answer, Lists l (some since) answer ∧ uid ∉ (history.moment l.after.1).uids ∧
    WasThere history 0 l.after.1 uid

/-- What is listed, and by when: the identities, and flags each message had by moment `m`. -/
def ListedSoFar (history : MailboxHistory) (folder : FolderRef) (v : UInt32) (n m : ℕ)
    (listed : List ListedMessage) : Prop :=
  ∀ message ∈ listed, message.identity = identityUnder folder v message.uid ∧
    HadFlags history n m message.uid message.flags

/-- What a pass, begun with the opening at moment `n`, leaves to the rest of the cycle. -/
structure Renewed (history : MailboxHistory) (folder : FolderRef) (v : UInt32) (n : ℕ)
    (numbers : MailboxNumbers) (plan : PassPlan) (stored : FolderSync) (listed : List ListedMessage)
    (h : History (mailboxServer history)) (s : ℕ × Tables) : Prop where
  /-- It came after the opening. -/
  later : n ≤ s.1
  /-- The store's shape. -/
  shape : Shape s.2
  /-- The folder is as new as the opening, but for the missing messages. -/
  new : AsNew history folder v n s.1 (missingMessages listed stored) s.2
  /-- The flags of its messages are newer than the opening, unless they left before the listing. -/
  only : HoldsOnly folder v (fun uid flags => HadFlags history n s.1 uid flags ∨
    RemovedUnlisted history h uid) s.2
  /-- A folder that misses a message is not completed. -/
  unmarked : missingMessages listed stored ≠ [] → s.2.state? folder = some .default
  /-- One that misses none is. -/
  marked : missingMessages listed stored = [] → MarkedWith folder numbers s.2
  /-- The listed messages have the flags they had since. -/
  shown : ListedSoFar history folder v n s.1 listed
  /-- They have one identity each. -/
  one : OnePerIdentity listed
  /-- After a listing of every message the folder holds only what was listed. -/
  exact : plan = .everything → ∀ identity flags, s.2.heldFlags folder identity = some flags →
    ∃ message ∈ listed, message.identity = identity ∧ message.flags = flags

section Pass

variable {n : ℕ} {numbers : MailboxNumbers} {plan : PassPlan} {stored : FolderSync}
  {listed : List ListedMessage}

theorem Renewed.append (hr : Renewed history folder v n numbers plan stored listed h s)
    (tr : History (mailboxServer history)) :
    Renewed history folder v n numbers plan stored listed (h ++ tr) s := by
  refine { hr with only := fun identity flags hflags => ?_ }
  obtain ⟨uid, hid, hhad | ⟨l, hl, hrest⟩⟩ := hr.only identity flags hflags
  · exact ⟨uid, hid, .inl hhad⟩
  · exact ⟨uid, hid, .inr ⟨l, List.mem_append_left tr hl, hrest⟩⟩

theorem Renewed.alike (hr : Renewed history folder v n numbers plan stored listed h s)
    (hnumbered : Numbered history v) (ha : Alike folder s u) :
    Renewed history folder v n numbers plan stored listed h u where
  later := hr.later.trans ha.later
  shape := ha.shape
  new := (hr.new.later hnumbered ha.later).same ha.heldFlags
  only identity flags hflags := by
    obtain ⟨uid, hid, hhad⟩ := hr.only identity flags ((ha.heldFlags identity).symm.trans hflags)
    exact ⟨uid, hid, hhad.imp_left fun hhad => hhad.mono le_rfl ha.later⟩
  unmarked hmissing := ha.state.trans (hr.unmarked hmissing)
  marked hmissing := by
    obtain ⟨state, hstate, hmark⟩ := hr.marked hmissing
    exact ⟨state, ha.state.trans hstate, hmark⟩
  shown message hm := ⟨(hr.shown message hm).1, (hr.shown message hm).2.mono le_rfl ha.later⟩
  one := hr.one
  exact hplan identity flags hflags :=
    hr.exact hplan identity flags ((ha.heldFlags identity).symm.trans hflags)

theorem Renewed.trueMark (hr : Renewed history folder v n numbers plan stored listed h s)
    (hopens : (history.moment n).Opens numbers) : TrueMark history folder v s.1 s.2 := by
  refine ⟨hr.shape, fun state hstate hsynchronized => ?_⟩
  by_cases hmissing : missingMessages listed stored = []
  · obtain ⟨state', hstate', -, hnumbers⟩ := hr.marked hmissing
    cases hstate.symm.trans hstate'
    exact ⟨_, hnumbers, n, numbers, hr.later, rfl, hopens, hmissing ▸ hr.new⟩
  · cases hstate.symm.trans (hr.unmarked hmissing)
    cases hsynchronized

theorem stable_renewed (hnumbered : Numbered history v)
    (hopens : (history.moment n).Opens numbers) :
    Stable history folder v (Renewed history folder v n numbers plan stored listed h) :=
  ⟨fun _ _ hr ha => hr.alike hnumbered ha, fun _ hr => hr.trueMark hopens⟩

theorem listedBy_of_passListed {J : History (mailboxServer history) → ℕ × Tables → Prop}
    {reader reader' : MailboxReader} {refusal : Option ServerReply} (hnumbered : Numbered history v)
    (hopens : (history.moment n).Opens reader.numbers)
    (hvalidity : reader.numbers.uidValidity.isSome) (hn : n ≤ s.1)
    (hpass : PassListed (S := mailboxServer history) J .generic folder.identity plan reader listed
      refusal reader' h h' s u) :
    refusal = none ∧ s.1 ≤ u.1 ∧ ∃ b, b ≤ u.1 ∧ ListedBy history folder v n b plan listed ∧
      ∀ uid, LeftUnlisted history plan n b uid → RemovedUnlisted history h' uid := by
  cases hpass with
  | unlisted hnone =>
    refine ⟨rfl, le_rfl, n, hn, ?_, fun uid hleft => absurd hleft.2.1 hleft.2.2⟩
    rcases hnone with hnone | hcount
    · exact .inl ⟨n, le_rfl, le_rfl, by rw [ListedAt, hnone]⟩
    · exact .inr ⟨Finset.card_eq_zero.mp (by rw [← hopens.messageCount, hcount]; rfl), rfl, le_rfl⟩
  | @listed items since answer generic refusal reader' h h' s u hplan hasked hgeneric hended =>
    obtain ⟨h₁, s₁, s₂, hc, -, hsteps, heq, ⟨hle, hcompleted, hanswers⟩, -⟩ := hasked.moment
    have hlater : s.1 ≤ s₂.1 := (moments_of_leads hc.world).trans
      (moments_of_leads (leads_of_steps hsteps))
    have hnumbering : generic = some s!"imap:{folder.identity}/{v}/" := by
      obtain ⟨v', hv'⟩ := Option.isSome_iff_exists.mp hvalidity
      obtain rfl := (hopens.uidValidity v' hv').symm.trans (hnumbered n)
      rw [hc.numbering, MailboxReader.uidValidity, hv'] at hgeneric
      exact (Except.ok.inj hgeneric).symm
    refine ⟨hended.mpr hcompleted, hlater.trans hle, u.1, le_rfl,
      .inl ⟨s₂.1, hn.trans hlater, hle, ?_⟩, ?_⟩
    · rw [ListedAt, hplan]
      exact ⟨items, answer.responses, fun hnone => (by cases hnone), hanswers, by rw [hnumbering]⟩
    · rintro uid ⟨⟨since', rfl⟩, hopened, hleft⟩
      cases hplan
      exact ⟨⟨s₂, .server (.uidFetch .all (.listing items (some since'))), answer,
        u⟩, by rw [heq]; simp, since', answer,
        ⟨s₂, items, u, rfl⟩, hleft, n, n.zero_le, (hn.trans hlater).trans hle, hopened⟩

/-- **A pass** on a folder whose reference is true keeps its mark true, and leaves it as new as
the opening. -/
theorem truePass_safe {batches : BatchWriter} {server : ImapFolder}
    {reference : Option FolderNumbers} {pending : Bool} {s₀ : ℕ × Tables}
    (hnumbered : Numbered history v) (hs₀ : TrueMark history batches.folder v s₀.1 s₀.2)
    (hs : Alike batches.folder s₀ s) (hrule : server.identityRule = .generic)
    (hopens : (history.moment n).Opens server.reader.numbers)
    (hvalidity : server.reader.numbers.uidValidity.isSome) (hafter : s₀.1 ≤ n) (hn : n ≤ s.1)
    (hcurrent : Current batches.folder stored s.2)
    (hreference : ∀ r, reference = some r → NewAsNumbers history batches.folder v r s₀.1 s₀.2)
    (hplan : passPlan (folderNumbers server.reader.numbers) reference pending = plan) :
    Safe (surroundings (mailboxServer history)) (LeavesTrueMark history batches.folder v) h s
      (runStatePass server stored (folderNumbers server.reader.numbers) batches plan) fun r h' u =>
        Renewed history batches.folder v n server.reader.numbers plan stored r.1.listed h' u ∧
        r.1.refusal = none ∧
          OnePerUid r.1.listed ∧ r.2.identityRule = .generic := by
  have hstable := stable_alike hnumbered hs₀
  refine (runStatePass_safe (Q := fun pass _ h' u =>
    Renewed history batches.folder v n server.reader.numbers plan stored pass.listed h' u ∧
    pass.refusal = none ∧
      OnePerUid pass.listed) hstable.steady hs ?_).mono fun _ _ _ hq =>
        ⟨hq.1.1, hq.1.2.1, hq.1.2.2, hq.2.trans hrule⟩
  intro listed refusal reader' h' s' hpass
  rw [hrule] at hpass
  obtain ⟨rfl, hlater, b, hb, hlisted, hleft⟩ :=
    listedBy_of_passListed hnumbered hopens hvalidity hn hpass
  have hs' : Alike batches.folder s₀ s' := hpass.steady hs
  have hcurrent' : Current batches.folder stored s'.2 := hcurrent.kept hpass.tables
  have hget : ∀ identity, stored.get identity = s₀.2.heldFlags batches.folder identity :=
    fun identity => (hcurrent'.heldFlags identity).trans (hs'.heldFlags identity)
  -- what the batch leaves, whenever it is stored
  have hrenewed : ∀ x : ℕ × Tables, s'.1 ≤ x.1 → Shape x.2 →
      Applied batches.folder stored
        (passBatch listed none stored (folderNumbers server.reader.numbers) plan) x.2 →
        Renewed history batches.folder v n server.reader.numbers plan stored listed h' x := by
    intro x hx hshape happlied
    have hbx := hb.trans hx
    have hpassed := passed_of_applied hnumbered hreference hopens hafter hget hplan hlisted
      hbx happlied
    refine ⟨hlisted.later.trans hbx, hshape, hpassed.asNew hnumbered hlisted.later hbx,
      fun identity flags hflags => ?_,
      happlied.unmarked, fun hmissing =>
        (happlied.done hmissing fun _ => hlisted.onePerIdentity).marked,
      fun message hm => ⟨(hlisted.had hm).1, (hlisted.had hm).2.mono le_rfl hbx⟩,
        hlisted.onePerIdentity, ?_⟩
    · obtain ⟨uid, hid, hhad⟩ := hpassed.only identity flags hflags
      exact ⟨uid, hid, hhad.imp_right (hleft uid)⟩
    · rintro rfl identity flags hflags
      exact happlied.only_listed hlisted.onePerIdentity hflags
  have hstable' : Stable history batches.folder v
      (Renewed history batches.folder v n server.reader.numbers plan stored listed h') :=
        stable_renewed hnumbered hopens
  refine (storeTrue_safe hstable hstable' hs' rfl (fun hdefault => ?_) ?_).mono ?_
  · exact hrenewed s' le_rfl hs'.shape (hdefault ▸ hcurrent'.applied)
  · intro x folderId hx hlater' hkept ho
    have hshape : Shape (x.2.applyBatch folderId batches.folder.account
        (passBatch listed none stored (folderNumbers server.reader.numbers) plan)) :=
          applyBatch_shape hx.shape ho _
    exact hrenewed _ hlater' hshape (applied_of_applyBatch hx.shape ho (hcurrent'.kept hkept) _)
  · rintro _ tr u hp
    exact ⟨hp.steady.append tr, rfl, hpass.onePerUid⟩

/-- **The changes the listing shows** are ended without a change to the folder: its messages have
the values listed. -/
theorem endChanges_alike (hnumbered : Numbered history v)
    (hopens : (history.moment n).Opens numbers) {batches : BatchWriter}
    (hr : Renewed history batches.folder v n numbers plan stored listed h s)
    {pending : List PendingChange} (hpending : plan ≠ .everything → pending = []) :
    Safe (surroundings (mailboxServer history)) (LeavesTrueMark history batches.folder v) h s
      (endChangesTheListingShows listed pending batches) fun _ h' u =>
        Passes (fun _ s' => Alike batches.folder s s') ByStore h h' s u := by
  have hstable := stable_alike hnumbered (hr.trueMark hopens)
  have halike : Alike batches.folder s s := .refl hr.shape
  refine endChangesTheListingShows_safe (S := mailboxServer history)
    (J := fun _ s' => Alike batches.folder s s') halike ?_
  intro flag value identities hshown h' s' hp
  refine settleTrue_safe hstable hp.steady rfl fun x met hx _ => hx.trans
    ⟨le_rfl, call_shape hx.shape _ met, ?_, ?_⟩
  · have hstays : Stays x.2 (call x.2 (.settleFlags batches.folder.account identities flag value)
        met).2 :=
      call_stays id x.2 met
    exact hstays.state batches.folder
  · intro identity
    rw [settle_heldFlags]
    split
    · rename_i hsettled
      obtain ⟨hmem, message, hlatest, rfl⟩ := hshown identity hsettled.2
      have hplan : plan = .everything := by
        by_contra hquick
        rw [hpending hquick] at hmem
        exact List.not_mem_nil hmem
      obtain ⟨hm, hid⟩ := mem_of_byIdentity hlatest
      cases hheld : x.2.heldFlags batches.folder identity with
      | none => rfl
      | some flags =>
        obtain ⟨message', hm', hid', rfl⟩ :=
          hr.exact hplan identity flags ((hx.heldFlags identity).symm.trans hheld)
        rw [hr.one message' hm' message hm (hid'.trans hid.symm), Option.map_some, setFlag_flagOf]
    · rfl

end Pass

end Mailbag.Cycle
