import Mailbag.Cycle.AsNewPasses

/-!
# A synchronized folder is as new as the cycle's opening

Cycles of a Generic IMAP folder follow one another while other clients change the mailbox
and the user writes wishes. The server obeys RFC 3501 and RFC 7162 and completes every
command (`mailboxServer`). Every step of a cycle keeps the folder's mark true, so also a
cycle that fails, or is dropped anywhere, leaves a true mark to the next.

## What is proved

* `synchronizeImapFolder_renews` — a cycle that returns with the folder synchronized leaves it as
  new as its opening.
* `as_new_as_opened` — so does every chain of cycles from an empty store.
* `stale_flags_held` — a run that leaves older flags of a message that was removed between
  the cycle's opening and its listing of the changed flags.
-/

namespace Mailbag.Cycle

open Collections Imap Interaction Program Relation Store

variable {history : MailboxHistory} {folder : FolderRef} {v : UInt32}
  {h h' : History (mailboxServer history)} {s s' u : ℕ × Tables}

/-! ### The rest of the cycle -/

/-- What holds after the first pass, which ended at moment `m`, while the batches `rest` of missing
messages are to be stored. -/
structure Working (history : MailboxHistory) (folder : FolderRef) (v : UInt32) (n m : ℕ)
    (state : FolderState) (rest : List ListedMessage) (s : ℕ × Tables) : Prop where
  /-- Time. -/
  later : n ≤ m ∧ m ≤ s.1
  /-- The store's shape. -/
  shape : Shape s.2
  /-- The folder's state. -/
  state : s.2.state? folder = some state
  /-- Its messages. -/
  new : AsNew history folder v n s.1 rest s.2

section Rest

variable {n m : ℕ} {numbers : MailboxNumbers} {state : FolderState} {rest : List ListedMessage}
  {listed : List ListedMessage}

/-- A state that is not a mark, or a true one. -/
def MarksOnly (numbers : MailboxNumbers) (rest : List ListedMessage) (state : FolderState) : Prop :=
  state.synchronized = true → state.numbers = some (folderNumbers numbers) ∧ rest = []

theorem marksOnly_default : MarksOnly numbers rest .default :=
  fun hsynchronized => by cases hsynchronized

theorem stable_working (hnumbered : Numbered history v) (hopens : (history.moment n).Opens numbers)
    (hstate : MarksOnly numbers rest state) :
    Stable history folder v (Working history folder v n m state rest) := by
  refine ⟨fun s u hs ha => ?_, fun s hs => ⟨hs.shape, fun state' hstate' hsynchronized => ?_⟩⟩
  · exact ⟨⟨hs.later.1, hs.later.2.trans ha.later⟩, ha.shape, ha.state.trans hs.state,
      (hs.new.later hnumbered ha.later).same ha.heldFlags⟩
  · cases hs.state.symm.trans hstate'
    obtain ⟨hnumbers, rfl⟩ := hstate hsynchronized
    exact ⟨_, hnumbers, n, numbers, hs.later.1.trans hs.later.2, rfl, hopens, hs.new⟩

theorem had_of_readBack {J : History (mailboxServer history) → ℕ × Tables → Prop}
    {flag : MessageFlag} {value : Bool} {identities : List String}
    (hback : ReadBack (S := mailboxServer history) J listed flag value identities h h' s s')
    (hn : n ≤ s.1)
    (hlisted : ∀ message ∈ listed, message.identity = identityUnder folder v message.uid) :
    ∀ identity ∈ identities, ∃ uid flags, identity = identityUnder folder v uid ∧
      HadFlags history n s'.1 uid flags ∧
      flagOf flag flags = value := by
  intro identity hi
  obtain ⟨h₁, b₁, a₁, c₁, b₂, a₂, uids, -, -, hp, ⟨-, -, hanswers⟩, -, hshown⟩ := hback.moments
  obtain ⟨message, hm, rfl, -, hnames, hvalue⟩ := hshown identity hi
  obtain ⟨j, hj, hj', hmem, hlast, -⟩ := hanswers.said trivial message.uid hnames
  rw [hlast] at hvalue
  exact ⟨message.uid, _, hlisted message hm,
    ⟨j, (hn.trans (moments_of_leads hp.world)).trans hj, hj', hmem, rfl⟩, hvalue⟩

/-- **The end of a change read back** after its command. -/
theorem settleWorking_safe (hnumbered : Numbered history v)
    (hopens : (history.moment n).Opens numbers) {batches : BatchWriter}
    (hstate : MarksOnly numbers rest state)
    (hlisted : ∀ message ∈ listed, message.identity = identityUnder batches.folder v message.uid)
    {J : History (mailboxServer history) → ℕ × Tables → Prop} {flag : MessageFlag} {value : Bool}
    {identities : List String}
    (hback : ReadBack (S := mailboxServer history) J listed flag value identities h h' s s')
    (hn : n ≤ s.1) (hs' : Working history batches.folder v n m state rest s') :
    Safe (surroundings (mailboxServer history)) (LeavesTrueMark history batches.folder v) h' s'
      (batches.settle identities flag value) fun _ h'' u =>
        Passes (fun _ s => Working history batches.folder v n m state rest s) ByStore h' h''
        s' u := by
  refine settleTrue_safe (stable_working hnumbered hopens hstate) hs' rfl fun x met hx hlater => ?_
  have hstays : Stays x.2 (call x.2 (.settleFlags batches.folder.account identities flag value)
      met).2 :=
    call_stays id x.2 met
  refine ⟨hx.later, call_shape hx.shape _ met, (hstays.state batches.folder).trans hx.state,
    hx.new.settled ?_ met⟩
  intro identity hi
  obtain ⟨uid, flags, hid, hhad, hvalue⟩ := had_of_readBack hback hn hlisted identity hi
  exact ⟨uid, flags, hid, hhad.mono le_rfl hlater, hvalue⟩

/-- Flags a row command gave are flags the message had. -/
theorem had_of_gives {uid : UInt32} {flags : MessageFlags}
    (ho : Occurred (S := mailboxServer history) (Gives · uid flags) h h' s u) (hn : n ≤ s.1) :
    HadFlags history n u.1 uid flags := by
  obtain ⟨-, -, e, -, ⟨before, uids, items, structures, answer, after, rfl, -, hnames, rfl⟩,
      hbetween⟩ := ho
  obtain ⟨⟨-, -, hanswers⟩, -⟩ := hbetween.real
  obtain ⟨j, hj, hj', hmem, hlast, -⟩ := hanswers.said trivial uid hnames
  refine ⟨j, (hn.trans (moments_of_leads hbetween.early)).trans hj,
    hj'.trans (moments_of_leads hbetween.late), hmem, ?_⟩
  rw [hlast]
  rfl

/-- A message left unanswered did not stay in the mailbox. -/
theorem not_stays_of_unanswered {k : ℕ} {uid : UInt32}
    (ho : Occurred (S := mailboxServer history) (Unanswered · uid) h h' s u) (hn : n ≤ s.1)
    (hk : u.1 ≤ k) : ¬StaysThere history n k uid := by
  obtain ⟨-, -, e, -, ⟨before, uids, items, answer, after, rfl, -, huid, -, hnot⟩, hbetween⟩ := ho
  obtain ⟨⟨-, -, hanswers⟩, -⟩ := hbetween.real
  refine fun hstays => hnot (hanswers.answered uid huid fun j hj hj' => hstays j ?_ ?_)
  · exact (hn.trans (moments_of_leads hbetween.early)).trans hj
  · exact (hj'.trans (moments_of_leads hbetween.late)).trans hk

/-- **A batch of missing messages** leaves the folder with them, but for those that left. -/
theorem fetched_working {J : History (mailboxServer history) → ℕ × Tables → Prop}
    {account : AccountId} {chunk rest : List ListedMessage} {batch : FolderBatch}
    {refusal : Option ServerReply} (hlisted : ListedSoFar history folder v n m chunk) (hn : n ≤ s.1)
    (hf : Fetched (S := mailboxServer history) J account chunk batch refusal h h' s u)
    {x : ℕ × Tables} (hx : u.1 ≤ x.1) :
    ∀ message ∈ chunk ++ rest, StaysThere history n x.1 message.uid →
      (∃ message' ∈ if refusal = none then rest else chunk ++ rest, message'.uid = message.uid) ∨
        identityUnder folder v message.uid ∈ batch.arrived.map Message.identity ∨
          identityUnder folder v message.uid ∈ batch.knownArrived.map Prod.fst ∧
            (u.2.values? account.asStr (identityUnder folder v message.uid)).isSome := by
  intro message hm hstays
  by_cases hrefusal : refusal = none
  · rw [if_pos hrefusal]
    rcases List.mem_append.mp hm with hm | hm
    · rw [← (hlisted message hm).1]
      rcases hf.complete hrefusal message hm with hknown | harrived | hun
      · exact .inr (.inr hknown)
      · exact .inr (.inl harrived)
      · exact absurd hstays (not_stays_of_unanswered hun hn hx)
    · exact .inl ⟨message, hm, rfl⟩
  · rw [if_neg hrefusal]
    exact .inl ⟨message, hm, rfl⟩

theorem storeMissing_safe (hnumbered : Numbered history v)
    (hopens : (history.moment n).Opens numbers) {batches : BatchWriter}
    {J : History (mailboxServer history) → ℕ × Tables → Prop} {chunk rest : List ListedMessage}
    {batch : FolderBatch} {refusal : Option ServerReply}
    (hlisted : ListedSoFar history batches.folder v n m chunk)
    (hs : Working history batches.folder v n m .default (chunk ++ rest) s)
    (hf : Fetched (S := mailboxServer history) J batches.folder.account chunk batch refusal
      h h' s u)
    (hu : Working history batches.folder v n m .default (chunk ++ rest) u) :
    Safe (surroundings (mailboxServer history)) (LeavesTrueMark history batches.folder v) h' u
    (batches.store batch)
      fun _ h'' w => Passes (fun _ s => Working history batches.folder v n m .default
        (if refusal = none then rest else chunk ++ rest) s) ByStore h' h'' u w := by
  have hn := hs.later.1.trans hs.later.2
  have hstable : Stable history batches.folder v
      (Working history batches.folder v n m .default (chunk ++ rest)) :=
    stable_working hnumbered hopens marksOnly_default
  have hstable' : Stable history batches.folder v
      (Working history batches.folder v n m .default (if refusal = none then rest
        else chunk ++ rest)) :=
    stable_working hnumbered hopens marksOnly_default
  refine storeTrue_safe hstable hstable' hu rfl ?_ ?_
  · -- nothing was fetched
    rintro rfl
    refine ⟨hu.later, hu.shape, hu.state, hu.new.lacking fun message hm hstays => ?_⟩
    rcases fetched_working hlisted hn hf le_rfl message hm hstays
      with hrest | harrived | ⟨hknown, -⟩
    · exact hrest
    · exact absurd harrived List.not_mem_nil
    · exact absurd hknown List.not_mem_nil
  · intro x folderId hx hlater hkept ho
    have hhad : ∀ {message}, message ∈ chunk →
      ∃ uid, message.identity = identityUnder batches.folder v uid ∧
        HadFlags history n x.1 uid message.flags := fun hm =>
      ⟨_, (hlisted _ hm).1, (hlisted _ hm).2.mono le_rfl hx.later.2⟩
    refine ⟨hx.later, applyBatch_shape hx.shape ho batch, ?_, hx.new.fetched hx.shape ho hf.only
      ?_ ?_ ?_⟩
    · rw [applyBatch_state hx.shape ho, hf.only.2.2]
      exact hx.state
    · rintro p hp
      obtain ⟨message, hm, rfl⟩ := hf.known p hp
      exact hhad hm
    · intro arrived ha
      obtain ⟨message, hm, hid, hgives⟩ := hf.arrived arrived ha
      exact ⟨message.uid, hid.trans (hlisted message hm).1,
        (had_of_gives hgives hn).mono le_rfl hlater⟩
    · intro message hm hstays
      rw [hkept.values]
      exact fetched_working hlisted hn hf hlater message hm hstays

/-- **The missing messages**: afterwards the folder lacks none that stayed. -/
theorem fetchMissing_working (hnumbered : Numbered history v)
    (hopens : (history.moment n).Opens numbers) {batches : BatchWriter} {rules : ContentRules}
    {recentLimit : ℤ} {stored : FolderSync} {server : ImapFolder}
    (hrule : server.identityRule = .generic) {sent : SentChanges} (hone : OnePerUid listed)
    (hlisted : ListedSoFar history batches.folder v n m listed)
    (hunmarked : missingMessages listed stored ≠ [] → state = .default)
    (hs : Working history batches.folder v n m state (missingMessages listed stored) s) :
    Safe (surroundings (mailboxServer history)) (LeavesTrueMark history batches.folder v) h s
      (fetchMissing rules recentLimit batches listed
        ((missingMessages listed stored).toChunks batchSize) server sent)
      fun r h' u =>
        (missingMessages listed stored = [] → r = .inr (server, sent) ∧ h' = h ∧ u = s) ∧
          match r with
          | .inl _ => u.2.state? batches.folder = some .default
          | .inr (server', _) => Working history batches.folder v n m state [] u ∧
              server'.identityRule = .generic := by
  by_cases hmissing : missingMessages listed stored = []
  · rw [hmissing] at hs ⊢
    exact .done ⟨fun _ => ⟨rfl, rfl, rfl⟩, hs, hrule⟩
  · obtain rfl := hunmarked hmissing
    have hchunk : ∀ chunk ∈ (missingMessages listed stored).toChunks batchSize, ∀ message ∈ chunk,
        message ∈ listed :=
      fun chunk hc message hm => (mem_missingMessages.mp (mem_of_mem_toChunks hc hm)).1
    rw [← flatten_toChunks batchSize (missingMessages listed stored)] at hs
    refine (fetchMissing_safe (S := mailboxServer history)
      (I := fun rest _ s => Working history batches.folder v n m .default rest.flatten s)
      (fun rest => (stable_working hnumbered hopens marksOnly_default).steady) hs ?_ ?_ ?_).mono ?_
    · intro chunk hc message hm message' hm'
      exact hone message (hchunk chunk hc message hm) message' (hchunk chunk hc message' hm')
    · intro chunk rest batch refusal h₁ s₁ h₂ s₂ hc hs₁ hf
      rw [List.flatten_cons] at hs₁
      have hs₂ : Working history batches.folder v n m .default (chunk ++ rest.flatten) s₂ :=
        hf.steady
      have hlisted' : ListedSoFar history batches.folder v n m chunk := fun message hm =>
        hlisted message (hchunk chunk hc message hm)
      refine (storeMissing_safe hnumbered hopens hlisted' hs₁ hf hs₂).mono ?_
      rintro _ tr w hp
      by_cases hrefusal : refusal = none
      · rw [if_pos hrefusal] at hp ⊢
        exact hp
      · rw [if_neg hrefusal] at hp ⊢
        exact hp
    · intro rest flag wanted identities h₁ s₁ h₂ s₂ hs₁ hback hs₂
      exact settleWorking_safe hnumbered hopens marksOnly_default
        (fun message hm => (hlisted message hm).1) hback
        (hs₁.later.1.trans hs₁.later.2) hs₂
    · rintro r tr u ⟨rest, hp, hr⟩
      refine ⟨fun hnone => absurd hnone hmissing, ?_⟩
      cases r with
      | inl refusal => exact hp.steady.state
      | inr r =>
        obtain ⟨rfl, -, hrule'⟩ := hr
        exact ⟨hp.steady, hrule'.trans hrule⟩

end Rest

/-! ### The cycle -/

/-- **What the folder is as at moment `k`, for an opening at moment `n`**: of a message in
`excused` the flags may be older. -/
structure CurrentSince (history : MailboxHistory) (folder : FolderRef) (v : UInt32)
    (excused : UInt32 → Prop) (n k : ℕ) (t : Tables) : Prop where
  /-- It holds every message that stayed in the mailbox since the opening. -/
  all : ∀ uid, StaysThere history n k uid → HoldsMessage folder v t uid
  /-- It holds no message removed before the opening. -/
  only : HoldsOnly folder v (fun uid _ => WasThere history n k uid) t
  /-- A message it holds has flags the server had at some moment since. -/
  flags : HoldsOnly folder v (fun uid flags => HadFlags history n k uid flags ∨ excused uid) t

/-- What a cycle leaves that returns: a folder marked synchronized is as new as moment `n`. -/
def EndsCurrent (history : MailboxHistory) (folder : FolderRef) (v : UInt32) (n : ℕ)
    (h : History (mailboxServer history)) (s : ℕ × Tables) : Prop :=
  (s.2.state? folder).any FolderState.synchronized →
  CurrentSince history folder v (RemovedUnlisted history h) n s.1 s.2

/-- The events begin with an opening that returned the numbers the mailbox had at moment `n`. -/
def OpenedAt (history : MailboxHistory) (tr : History (mailboxServer history)) (n : ℕ) : Prop :=
  ∃ g rest numbers, tr = g :: rest ∧ opening? g = some numbers ∧ g.before.1 ≤ n ∧ n ≤ g.after.1 ∧
    (history.moment n).Opens numbers

section Cycle

variable {n m : ℕ} {numbers : MailboxNumbers} {plan : PassPlan} {state : FolderState}
  {stored : FolderSync} {listed : List ListedMessage}

/-- With pending changes every message is listed. -/
theorem passPlan_pending {numbers : FolderNumbers} {reference : Option FolderNumbers}
    {pending : Bool} (hpending : pending = true) :
    passPlan numbers reference pending = .everything := by
  by_contra hquick
  cases reference with
  | none => exact hquick rfl
  | some reference =>
    rw [passPlan] at hquick
    subst hpending
    cases hr : reference.highestModseq <;> cases hn : numbers.highestModseq <;>
      simp [hr, hn] at hquick

theorem Renewed.working (hr : Renewed history folder v n numbers plan stored listed h s) :
    ∃ state, Working history folder v n s.1 state (missingMessages listed stored) s ∧
      (missingMessages listed stored ≠ [] → state = .default) ∧
      MarksOnly numbers (missingMessages listed stored) state := by
  by_cases hmissing : missingMessages listed stored = []
  · obtain ⟨state, hstate, -, hnumbers⟩ := hr.marked hmissing
    exact ⟨state, ⟨⟨hr.later, le_rfl⟩, hr.shape, hstate, hr.new⟩, fun hne => absurd hmissing hne,
      fun _ => ⟨hnumbers, hmissing⟩⟩
  · exact ⟨.default, ⟨⟨hr.later, le_rfl⟩, hr.shape, hr.unmarked hmissing, hr.new⟩, fun _ => rfl,
      marksOnly_default⟩

theorem Renewed.endsCurrent (hr : Renewed history folder v m numbers plan stored listed h s)
    (hn : n ≤ m) : EndsCurrent history folder v n h s := by
  intro hsynchronized
  have hmissing : missingMessages listed stored = [] := by
    by_contra hmissing
    rw [hr.unmarked hmissing] at hsynchronized
    cases hsynchronized
  have hnew := hr.new.earlier hn
  refine ⟨fun uid hstays => (hnew.all uid hstays).resolve_right ?_, fun identity flags hflags => ?_,
    fun identity flags hflags => ?_⟩
  · rintro ⟨message, hm, -⟩
    rw [hmissing] at hm
    exact List.not_mem_nil hm
  · obtain ⟨uid, hid, hthere, -⟩ := hnew.only identity flags hflags
    exact ⟨uid, hid, hthere⟩
  · obtain ⟨uid, hid, hhad⟩ := hr.only identity flags hflags
    exact ⟨uid, hid, hhad.imp_left fun hhad => hhad.mono hn le_rfl⟩

/-- **The second pass** compares with the numbers of the first. -/
theorem secondPass_renews {batches : BatchWriter} {server : ImapFolder}
    {firstRefusal : Option ServerReply} (hnumbered : Numbered history v)
    (hopens : (history.moment n).Opens numbers) (hrule : server.identityRule = .generic)
    (hstate : MarksOnly numbers [] state)
    (hs : Working history batches.folder v n m state [] s) :
    Safe (surroundings (mailboxServer history)) (LeavesTrueMark history batches.folder v) h s
      (secondPass batches (folderNumbers numbers) firstRefusal server) fun _ h' u =>
        EndsCurrent history batches.folder v n h' u := by
  have hmark := (stable_working hnumbered hopens hstate).mark s hs
  have hstable := stable_alike hnumbered hmark
  have halike : Alike batches.folder s s := .refl hs.shape
  refine (Safe.mapFail (reopen_safe hstable.steady halike)).bind ?_
  rintro reader tr u ⟨hcontinues, ⟨c, answer, before, -, hopening, hsteps, hanswer, htables⟩, -⟩
  obtain ⟨k, hk, hk', hopens', hvalidity⟩ := opens_of_opening hopening ⟨hanswer, htables⟩
  have hsk : s.1 ≤ k := (moments_of_leads (leads_of_steps hsteps)).trans hk
  have hu : Alike batches.folder s u := hcontinues.steady
  refine (keeping_safe hstable.steady hu id id).bind ?_
  rintro storedNow tr' w ⟨hcalled, hw⟩
  have hcurrent := hcalled.current hu.shape
  have hrule' : ({ server with reader } : ImapFolder).identityRule = .generic := hrule
  have hreference : ∀ r, (if firstRefusal.isNone then some (folderNumbers numbers)
    else none) = some r →
      NewAsNumbers history batches.folder v r s.1 s.2 := by
    intro r hr
    split at hr
    · cases hr
      exact ⟨n, numbers, hs.later.1.trans hs.later.2, rfl, hopens, hs.new⟩
    · cases hr
  have hkw : k ≤ w.1 := hk'.trans (later_of_called hcalled)
  refine (truePass_safe hnumbered hmark hw hrule' hopens' hvalidity hsk hkw hcurrent hreference
    rfl).bind ?_
  rintro ⟨second, server'⟩ tr'' x ⟨hrenewed, -⟩
  exact .done (hrenewed.endsCurrent ((hs.later.1.trans hs.later.2).trans hsk))

/-- **A cycle that returns** with the folder marked synchronized leaves it as new as its opening. -/
theorem synchronizeImapFolder_renews (rules : ContentRules) (recentLimit : ℤ)
    (batches : BatchWriter) (hnumbered : Numbered history v)
    (hs : TrueMark history batches.folder v s.1 s.2) :
    Safe (surroundings (mailboxServer history)) (LeavesTrueMark history batches.folder v) [] s
      (synchronizeImapFolder rules .generic recentLimit batches) fun _ h u =>
        ∃ n, OpenedAt history h n ∧ EndsCurrent history batches.folder v n h u := by
  have hstable := stable_alike hnumbered hs
  have halike : Alike batches.folder s s := .refl hs.shape
  refine Safe.bind (R := fun server h u => ∃ n, OpenedAt history h n ∧
    (history.moment n).Opens server.reader.numbers ∧
    server.reader.numbers.uidValidity.isSome ∧ s.1 ≤ n ∧ n ≤ u.1 ∧ server.identityRule = .generic ∧
      Alike batches.folder s u) ?_ ?_
  · refine (Safe.mapFail (openMailbox_safe hstable.steady halike)).bind ?_
    rintro reader tr u ⟨-, hp, -, ⟨c, answer, before, heq, hopening, hsteps, hanswer, htables⟩, -⟩
    obtain ⟨n, hn, hn', hopens, hvalidity⟩ := opens_of_opening hopening ⟨hanswer, htables⟩
    exact .done ⟨n, ⟨_, [], _, heq, hopening, hn, hn', hopens⟩, hopens, hvalidity,
      (moments_of_leads (leads_of_steps hsteps)).trans hn, hn', rfl, hp.steady⟩
  rintro server tr u ⟨n, ⟨g, rest, numbers, heq, hopening⟩, hopens, hvalidity, hsn, hnu, hrule, hu⟩
  -- whatever comes after the opening
  suffices hsafe : Safe (surroundings (mailboxServer history))
    (LeavesTrueMark history batches.folder v) ([] ++ tr) u _
      fun _ h' u' => EndsCurrent history batches.folder v n h' u' from
    hsafe.mono fun _ tr' _ hends =>
      ⟨n, ⟨g, rest ++ tr', numbers, by rw [heq]; rfl, hopening⟩, hends⟩
  refine (keeping_safe hstable.steady hu id id).bind ?_
  rintro stored tr₁ u₁ ⟨hcalled₁, hu₁⟩
  refine (keeping_safe hstable.steady hu₁ id id).bind ?_
  rintro pending tr₂ u₂ ⟨hcalled₂, hu₂⟩
  have hcurrent := hcalled₁.current hu.shape
  have hreference : ∀ r, (if stored.state.synchronized then stored.state.numbers
    else none) = some r →
      NewAsNumbers history batches.folder v r s.1 s.2 := by
    intro r hr
    split at hr
    · rename_i hsynchronized
      obtain ⟨r', hr', hnew⟩ := hs.mark stored.state (hu₁.state.symm.trans hcurrent.state)
        hsynchronized
      cases hr'.symm.trans hr
      exact hnew
    · cases hr
  have hn₂ : n ≤ u₂.1 := (hnu.trans (later_of_called hcalled₁)).trans (later_of_called hcalled₂)
  have hcurrent₂ := hcurrent.kept (hcalled₂.kept id id)
  refine (truePass_safe hnumbered hs hu₂ hrule hopens hvalidity hsn hn₂ hcurrent₂ hreference
    rfl).bind ?_
  rintro ⟨first, server₁⟩ tr₃ u₃ ⟨hrenewed, -, hone, hrule₁⟩
  refine (endChanges_alike hnumbered hopens hrenewed fun hquick => ?_).bind ?_
  · by_contra hpending
    exact hquick (passPlan_pending (decide_eq_true hpending))
  rintro _ tr₄ u₄ hended
  have hrenewed₄ := (hrenewed.alike hnumbered hended.steady).append tr₄
  obtain ⟨state, hworking, hunmarked, hstate⟩ := hrenewed₄.working
  refine (sendImapChanges_safe (stable_working hnumbered hopens hstate).steady hworking ?_).bind ?_
  · intro flag wanted identities h' s' hback hs'
    exact settleWorking_safe hnumbered hopens hstate
      (fun message hm => (hrenewed₄.shown message hm).1) hback hrenewed₄.later
      hs'
  rintro ⟨reader, sent⟩ tr₅ u₅ ⟨hsent, hnothing⟩
  have hrule₂ : ({ server₁ with reader } : ImapFolder).identityRule = .generic := hrule₁
  refine (fetchMissing_working hnumbered hopens hrule₂ hone hrenewed₄.shown hunmarked
    hsent.steady).bind ?_
  rintro fetched tr₆ u₆ ⟨hnone, hfetched⟩
  cases fetched with
  | inl refusal =>
    refine .done fun hsynchronized => ?_
    rw [hfetched] at hsynchronized
    cases hsynchronized
  | inr r =>
    obtain ⟨server₂, sent₂⟩ := r
    obtain ⟨hworking₆, hrule₃⟩ := hfetched
    dsimp only
    split
    · exact secondPass_renews hnumbered hopens hrule₃
        (fun hsynchronized => ⟨(hstate hsynchronized).1, rfl⟩) hworking₆
    · rename_i hends
      -- nothing was fetched and nothing sent: the cycle ends as the first pass left it
      obtain ⟨hmissing, hsent₂⟩ : missingMessages first.listed stored = [] ∧ sent₂ = [] := by
        simpa using hends
      obtain ⟨hsame, hh, rfl⟩ := hnone hmissing
      cases hsame
      obtain ⟨-, -, hread, hkept⟩ := hnothing hsent₂
      rw [hh]
      have halike₆ : Alike batches.folder u₄ u₆ :=
        alike_of_kept hrenewed₄.shape (moments_of_leads hread.world) hkept
      exact .done (((hrenewed₄.alike hnumbered halike₆).append tr₅).endsCurrent le_rfl)

end Cycle

/-! ### Chains of cycles -/

/-- A run of a cycle leaves the mark true, however it ends. -/
theorem trueMark_of_run {rules : ContentRules} {recentLimit : ℤ} {batches : BatchWriter}
    (hnumbered : Numbered history v) (hs : TrueMark history batches.folder v s.1 s.2)
    {tr : History (mailboxServer history)} {r : Outcome CycleEnd LoadResult}
    (hrun : Run (surroundings (mailboxServer history))
      (synchronizeImapFolder rules .generic recentLimit batches) s tr r u) :
    TrueMark history batches.folder v u.1 u.2 := by
  have hevery := (synchronizeImapFolder_renews rules recentLimit batches hnumbered hs tr r u hrun).1
  refine (hrun.keeps (I := fun x : ℕ × Tables => TrueMark history batches.folder v x.1 x.2)
    (fun x y hx hm => hx.alike hnumbered (alike_of_moves hx.shape hm)) (fun e he _ => ?_) hs).1
  obtain ⟨pre, post, rfl⟩ := List.append_of_mem he
  exact hevery pre e post rfl

/-- Between two cycles of the folder: time goes on, the window and other loads call the store, and
the folder's rows stay as they are, or it is no longer marked synchronized. -/
structure Idles (folder : FolderRef) (s u : ℕ × Tables) : Prop where
  /-- Time goes on. -/
  later : s.1 ≤ u.1
  /-- The calls. -/
  calls : ∃ calls, u.2 = Store.run s.2 calls
  /-- The folder. -/
  folder : (u.2.state? folder = s.2.state? folder ∧ ∀ identity, u.2.heldFlags folder identity =
    s.2.heldFlags folder identity) ∨
    ¬(u.2.state? folder).any FolderState.synchronized

theorem TrueMark.idles (hs : TrueMark history folder v s.1 s.2) (hnumbered : Numbered history v)
    (hp : Idles folder s u) : TrueMark history folder v u.1 u.2 := by
  have hshape : Shape u.2 := by
    obtain ⟨calls, hcalls⟩ := hp.calls
    rw [hcalls]
    exact run_shape hs.shape calls
  rcases hp.folder with ⟨hstate, hheld⟩ | hunmarked
  · exact hs.alike hnumbered ⟨hp.later, hshape, hstate, hheld⟩
  · exact trueMark_of_unmarked hshape hunmarked

/-- A cycle of the folder. -/
def IsCycle (batches : BatchWriter) (p : ImapCycle LoadResult) : Prop :=
  ∃ rules recentLimit, p = synchronizeImapFolder rules .generic recentLimit batches

/-- **A synchronized folder is as new as the cycle's opening**: for every chain of cycles from an
empty store, however each ended, and whatever others do to the mailbox meanwhile, a cycle that
returns with the folder synchronized leaves it with every message that stayed in the mailbox
since the cycle's first opening, with none removed before it, and each with flags the server had
at some moment since, unless the message left before a listing of the changed flags ended. -/
theorem as_new_as_opened (hnumbered : Numbered history v) {batches : BatchWriter} {w : ℕ}
    {runs : List (History (mailboxServer history))}
    (hcycles : Chain (surroundings (mailboxServer history)) (IsCycle batches) (Idles batches.folder)
      (w, .empty) runs s)
    (hidle : Idles batches.folder s s') {rules : ContentRules} {recentLimit : ℤ}
    {tr : History (mailboxServer history)} {incomplete : Option IncompleteList}
    (hrun : Run (surroundings (mailboxServer history))
      (synchronizeImapFolder rules .generic recentLimit batches) s' tr
        (.returned (.stored incomplete)) u)
    (hsynchronized : (u.2.state? batches.folder).any FolderState.synchronized) :
    ∃ n, OpenedAt history tr n ∧
      CurrentSince history batches.folder v (RemovedUnlisted history tr) n u.1 u.2 := by
  have hempty : TrueMark history batches.folder v w .empty :=
    trueMark_of_unmarked shape_empty (fun h => (by cases h))
  have hs : TrueMark history batches.folder v s.1 s.2 := by
    refine (hcycles.invariant (I := fun x : ℕ × Tables => TrueMark history batches.folder v x.1 x.2)
      (C := fun _ => True)
      ?_ hempty).2
    rintro p x x' tr r y hx hidle ⟨rules, recentLimit, rfl⟩ hrun
    exact ⟨trivial, trueMark_of_run hnumbered (hx.idles hnumbered hidle) hrun⟩
  obtain ⟨n, hopened, hends⟩ := (synchronizeImapFolder_renews rules recentLimit batches hnumbered
    (hs.idles hnumbered hidle) tr _ u hrun).2 _ rfl
  exact ⟨n, hopened, hends hsynchronized⟩

/-! ### A message read, and gone before it is listed -/

/-- A mailbox whose one message is read at moment 1 and removed at moment 2. -/
def leavingMailbox (n : ℕ) : Mailbox where
  uidValidity := 1
  uidNext := 2
  uids := if n < 2 then {1} else ∅
  flags _ := ⟨n ≠ 0, false⟩
  gmailMsgId _ := none
  modseq _ := if n = 0 then 1 else 2
  highestModseq := if n = 0 then 1 else 2
  below := by split <;> simp
  highest := by simp
  once := by simp

/-- It over time. -/
def leaving : MailboxHistory where
  moment := leavingMailbox
  lawful n := by
    refine .inr ⟨rfl, le_rfl, fun uid hmem hnot => absurd ?_ hnot, fun _ _ _ => rfl, ?_, ?_, ?_⟩
    · by_cases hn : n < 2
      · by_cases hn' : n + 1 < 2
        · simpa [leavingMailbox, hn, hn'] using hmem
        · simp [leavingMailbox, hn'] at hmem
      · simp [leavingMailbox, show ¬n + 1 < 2 by omega] at hmem
    all_goals
      by_cases hn : n = 0 <;> simp [leavingMailbox, hn]

theorem numbered_leaving : Numbered leaving 1 := fun _ => rfl

/-- The numbers its openings return. -/
def leavingNumbers (n : ℕ) : MailboxNumbers :=
  ⟨some 1, if n < 2 then 1 else 0, some 2, some (if n = 0 then 1 else 2)⟩

theorem leaving_opens (n : ℕ) : (leaving.moment n).Opens (leavingNumbers n) := by
  refine ⟨fun _ h => Option.some.inj h, ?_, fun _ h => by cases h; rfl, fun _ h => ?_⟩
  · by_cases hn : n < 2 <;> simp [leavingNumbers, leaving, leavingMailbox, hn]
  · cases h
    by_cases hn : n = 0 <;> simp [leaving, leavingMailbox, hn]

/-- Its message, unread, with everything a command may ask for. -/
def unreadMessage : Fetch :=
  ⟨some 1, some ⟨false, false⟩, none, some 0, [(.messageHeader, [])],
    some (.mk [1] "text" "plain" [] none none [])⟩

/-- Its server at moment 0 gives the message; later a FETCH command takes until the message is
gone. -/
def whileLeaving (s : ℕ × Tables) :
    (o : CycleOp ImapCommand) → CycleAns ImapCommand.Reply o × (ℕ × Tables)
  | .store op => ((call s.2 op ⟨false, none⟩).1, (s.1, (call s.2 op ⟨false, none⟩).2))
  | .server (.openMailbox _) => (.ok (leavingNumbers s.1), s)
  | .server (.select _) => (.ok (leavingNumbers s.1), s)
  | .server (.uidFetch ..) =>
    if s.1 = 0 then (⟨[unreadMessage], none⟩, s) else (⟨[], none⟩, (max s.1 2, s.2))
  | .server (.uidStore ..) => (⟨[], none⟩, s)

theorem answered_whileLeaving (s : ℕ × Tables) (o : CycleOp ImapCommand) :
    answered (mailboxServer leaving) s o (whileLeaving s o).1 (whileLeaving s o).2 := by
  obtain ⟨k, t⟩ := s
  cases o with
  | store op => exact ⟨rfl, ⟨false, none⟩, rfl⟩
  | server c =>
    cases c with
    | openMailbox mailbox => exact ⟨⟨le_rfl, k, le_rfl, le_rfl, leaving_opens k, rfl⟩, rfl⟩
    | select mailbox => exact ⟨⟨le_rfl, k, le_rfl, le_rfl, leaving_opens k, rfl⟩, rfl⟩
    | uidStore => exact ⟨⟨le_rfl, rfl⟩, rfl⟩
    | uidFetch set items =>
      by_cases hk : k = 0
      · subst hk
        have hnames : ∀ uid, Names [unreadMessage] uid ↔ uid = 1 := by
          intro uid
          simp [Names, unreadMessage, eq_comm]
        refine ⟨⟨le_rfl, rfl, fun _ uid hu => ?_, fun uid _ hthere => ?_⟩, rfl⟩
        · obtain rfl := (hnames uid).mp hu
          exact ⟨0, le_rfl, le_rfl, by decide, rfl, fun _ => rfl⟩
        · have hmem : uid ∈ (leaving.moment 0).uids := hthere 0 le_rfl le_rfl
          obtain rfl : uid = 1 := by simpa [leaving, leavingMailbox] using hmem
          cases items with
          | listing => exact (hnames 1).mpr rfl
          | rows => exact ⟨unreadMessage, List.mem_cons_self, rfl, rfl⟩
          | structure' => exact ⟨unreadMessage, List.mem_cons_self, rfl⟩
          | sections => exact (hnames 1).mpr rfl
      · have hresponse : whileLeaving (k, t) (.server (.uidFetch set items)) =
            (⟨[], none⟩, (max k 2, t)) := if_neg hk
        rw [hresponse]
        refine ⟨⟨le_max_left k 2, rfl, fun _ uid hnamed => absurd hnamed (by simp [Names]),
          fun uid _ hthere => ?_⟩, rfl⟩
        have hgone := hthere (max k 2) (le_max_left k 2) le_rfl
        simp [leaving, leavingMailbox] at hgone

/-- The account's folders are listed. -/
def withInbox : Tables :=
  Store.run .empty [(.replaceFolders inbox.account [⟨"INBOX", "INBOX", none, none, true⟩],
    ⟨false, none⟩)]

/-- A first cycle at moment 0. -/
def fillingRun : History (mailboxServer leaving) × Outcome CycleEnd LoadResult × (ℕ × Tables) :=
  exec whileLeaving (synchronizeImapFolder noContent .generic 0 ⟨inbox⟩) (0, withInbox)

/-- A second one, which opens the mailbox at moment 1 and lists its changed flags at moment 2. -/
def staleRun : History (mailboxServer leaving) × Outcome CycleEnd LoadResult × (ℕ × Tables) :=
  exec whileLeaving (synchronizeImapFolder noContent .generic 0 ⟨inbox⟩) (1, fillingRun.2.2.2)

theorem staleRun_ends : staleRun.2.1 = .returned (.stored none) := by rfl

/-- Before it the first cycle ran, from an empty store. -/
theorem fillingRun_chain :
    Chain (surroundings (mailboxServer leaving)) (IsCycle ⟨inbox⟩) (Idles inbox) (0, .empty)
    ([] ++ [fillingRun.1]) fillingRun.2.2 := by
  have hlisted : Idles inbox (0, .empty) (0, withInbox) := ⟨le_rfl, ⟨_, rfl⟩, .inr (by decide)⟩
  exact .run .nil hlisted ⟨noContent, 0, rfl⟩ (run_exec answered_whileLeaving _ _)

theorem fillingRun_idle : Idles inbox fillingRun.2.2 (1, fillingRun.2.2.2) :=
  ⟨by decide, ⟨[], rfl⟩, .inl ⟨rfl, fun _ => rfl⟩⟩

theorem staleRun_run :
    Run (surroundings (mailboxServer leaving)) (synchronizeImapFolder noContent .generic 0 ⟨inbox⟩)
    (1, fillingRun.2.2.2) staleRun.1 (.returned (.stored none)) staleRun.2.2 := by
  rw [← staleRun_ends]
  exact run_exec answered_whileLeaving _ _

theorem staleRun_synchronized :
    (staleRun.2.2.2.state? inbox).any FolderState.synchronized = true := by decide

theorem staleRun_opened {n : ℕ} (hopened : OpenedAt leaving staleRun.1 n) : n = 1 := by
  have htime : staleRun.1.head?.map (fun e => (e.before.1, e.after.1)) = some (1, 1) := by decide
  obtain ⟨g, rest, numbers, heq, -, hn, hn', -⟩ := hopened
  rw [heq] at htime
  obtain ⟨hbefore, hafter⟩ := Prod.mk.inj (Option.some.inj htime)
  exact le_antisymm (hn'.trans hafter.le) (hbefore.ge.trans hn)

theorem as_new_as_opened_leaving :
    ∃ n, OpenedAt leaving staleRun.1 n ∧
      CurrentSince leaving inbox 1 (RemovedUnlisted leaving staleRun.1) n staleRun.2.2.1
      staleRun.2.2.2 :=
  as_new_as_opened numbered_leaving fillingRun_chain fillingRun_idle staleRun_run
    staleRun_synchronized

/-- **A synchronized folder with flags older than the cycle's opening**: message 1 was read
before it, and removed before the listing of the changed flags; the folder holds it unread. -/
theorem stale_flags_held :
    Chain (surroundings (mailboxServer leaving)) (IsCycle ⟨inbox⟩) (Idles inbox) (0, .empty)
    ([] ++ [fillingRun.1])
        fillingRun.2.2 ∧
      Idles inbox fillingRun.2.2 (1, fillingRun.2.2.2) ∧
      Run (surroundings (mailboxServer leaving))
      (synchronizeImapFolder noContent .generic 0 ⟨inbox⟩) (1, fillingRun.2.2.2)
        staleRun.1 (.returned (.stored none)) staleRun.2.2 ∧
      (staleRun.2.2.2.state? inbox).any FolderState.synchronized ∧
      ∀ n, OpenedAt leaving staleRun.1 n →
        ¬CurrentSince leaving inbox 1 (fun _ => False) n staleRun.2.2.1 staleRun.2.2.2 := by
  refine ⟨fillingRun_chain, fillingRun_idle, staleRun_run, staleRun_synchronized,
    fun n hopened hcurrent => ?_⟩
  obtain rfl := staleRun_opened hopened
  have hheld : staleRun.2.2.2.heldFlags inbox (identityUnder inbox 1 1) = some ⟨false, false⟩ := by
    decide
  obtain ⟨uid, -, ⟨j, hj, -, -, hflags⟩ | hnever⟩ := hcurrent.flags _ _ hheld
  · have hseen : decide (j ≠ 0) = false := congrArg MessageFlags.seen hflags
    exact absurd hj (by simpa using hseen)
  · exact hnever

end Mailbag.Cycle
