import Mailbag.Cycle.Settled

/-!
# A folder as new as an opening

The mailbox of a Generic IMAP folder changes all the time, under one UIDVALIDITY
(`Numbered`). What the folder holds was read at different moments: a pass compares the
numbers of one moment, its listing shows each message as it was at another, and a flag
reported after the cycle's own command is of a third. A folder is as new as an opening
(`AsNew`) when everything in it was so at or after that opening, and nothing is lacking
that stayed.

## What is proved

* `AsNew.later` — a folder that stays as it is stays as new as the opening.
* `AsNew.settled`, `AsNew.fetched` — so it does through the flags settled and the messages
  fetched since.
* `passed_of_applied` — a pass makes the folder as new as its own opening, but for the
  messages it misses and the flags of those that left before a listing of the changed flags.
-/

namespace Mailbag.Cycle

open Collections Imap Interaction Program Relation Store

variable {history : MailboxHistory} {folder : FolderRef} {v : UInt32} {t t' : Tables}

/-! ### A message in a span of moments -/

/-- The mailbox has one UIDVALIDITY all the time. -/
def Numbered (history : MailboxHistory) (v : UInt32) : Prop :=
  ∀ n, (history.moment n).uidValidity = v

theorem Numbered.keeps (hnumbered : Numbered history v) {i j : ℕ} (hij : i ≤ j) :
    (history.moment i).Keeps (history.moment j) :=
  (history.becomes hij).2 ((hnumbered j).trans (hnumbered i).symm)

theorem Numbered.there_between (hnumbered : Numbered history v) {i j k : ℕ} (hij : i ≤ j)
    (hjk : j ≤ k) {uid : UInt32} (hi : uid ∈ (history.moment i).uids)
    (hk : uid ∈ (history.moment k).uids) : uid ∈ (history.moment j).uids :=
  (hnumbered.keeps hij).mem_between (hnumbered.keeps hjk) hi hk

/-- The message was in the mailbox at some moment of a span. -/
def WasThere (history : MailboxHistory) (n k : ℕ) (uid : UInt32) : Prop :=
  ∃ j, n ≤ j ∧ j ≤ k ∧ uid ∈ (history.moment j).uids

/-- It was, with the flags. -/
def HadFlags (history : MailboxHistory) (n k : ℕ) (uid : UInt32) (flags : MessageFlags) : Prop :=
  ∃ j, n ≤ j ∧ j ≤ k ∧ uid ∈ (history.moment j).uids ∧ (history.moment j).flags uid = flags

/-- It had each of the flags at some moment of the span, not all of them at one. -/
def HadEach (history : MailboxHistory) (n k : ℕ) (uid : UInt32) (flags : MessageFlags) : Prop :=
  ∀ flag, ∃ flags', HadFlags history n k uid flags' ∧ flagOf flag flags' = flagOf flag flags

/-- It stayed in the mailbox. -/
def StaysThere (history : MailboxHistory) (n k : ℕ) (uid : UInt32) : Prop :=
  ∀ j, n ≤ j → j ≤ k → uid ∈ (history.moment j).uids

theorem flags_ext {flags flags' : MessageFlags}
    (h : ∀ flag, flagOf flag flags = flagOf flag flags') : flags = flags' := by
  cases flags
  cases flags'
  exact (MessageFlags.mk.injEq ..).mpr ⟨h .seen, h .flagged⟩

section Spans

variable {n n' k k' : ℕ} {uid : UInt32} {flags : MessageFlags}

theorem HadFlags.mono (hh : HadFlags history n k uid flags) (hn : n' ≤ n) (hk : k ≤ k') :
    HadFlags history n' k' uid flags := by
  obtain ⟨j, hnj, hjk, hrest⟩ := hh
  exact ⟨j, hn.trans hnj, hjk.trans hk, hrest⟩

theorem HadFlags.wasThere (hh : HadFlags history n k uid flags) : WasThere history n k uid := by
  obtain ⟨j, hnj, hjk, hmem, -⟩ := hh
  exact ⟨j, hnj, hjk, hmem⟩

theorem HadFlags.each (hh : HadFlags history n k uid flags) : HadEach history n k uid flags :=
  fun _ => ⟨flags, hh, rfl⟩

theorem HadEach.mono (hh : HadEach history n k uid flags) (hn : n' ≤ n) (hk : k ≤ k') :
    HadEach history n' k' uid flags := by
  intro flag
  obtain ⟨flags', hhad, hflag⟩ := hh flag
  exact ⟨flags', hhad.mono hn hk, hflag⟩

theorem StaysThere.mono (hs : StaysThere history n k uid) (hn : n ≤ n') (hk : k' ≤ k) :
    StaysThere history n' k' uid :=
  fun j hnj hjk => hs j (hn.trans hnj) (hjk.trans hk)

theorem HadEach.setFlag {flag : MessageFlag} {value : Bool} (hh : HadEach history n k uid flags)
    {flags' : MessageFlags} (hhad : HadFlags history n k uid flags')
    (hflag : flagOf flag flags' = value) : HadEach history n k uid (setFlag flag value flags) := by
  intro other
  by_cases hother : other = flag
  · subst hother
    exact ⟨flags', hhad, by rw [hflag]; cases other <;> rfl⟩
  · obtain ⟨flags'', hhad', hflag'⟩ := hh other
    refine ⟨flags'', hhad', hflag'.trans ?_⟩
    cases other <;> cases flag <;> first | rfl | exact absurd rfl hother

end Spans

/-! ### A folder as new as an opening -/

/-- The identity of a message under the numbering. -/
def identityUnder (folder : FolderRef) (v uid : UInt32) : String :=
  s!"imap:{folder.identity}/{v}/" ++ toString uid

theorem identityUnder_injective {uid uid' : UInt32}
    (h : identityUnder folder v uid = identityUnder folder v uid') : uid = uid' :=
  @generic_injective _ uid uid' none none (congrArg some h)

/-- Everything the folder holds is of the mailbox's numbering, and satisfies `P`. -/
def HoldsOnly (folder : FolderRef) (v : UInt32) (P : UInt32 → MessageFlags → Prop)
    (t : Tables) : Prop :=
  ∀ identity flags, t.heldFlags folder identity = some flags →
    ∃ uid, identity = identityUnder folder v uid ∧ P uid flags

/-- The folder holds the message. -/
def HoldsMessage (folder : FolderRef) (v : UInt32) (t : Tables) (uid : UInt32) : Prop :=
  (t.heldFlags folder (identityUnder folder v uid)).isSome

/-- **The folder is at moment `k` as new as moment `n`**: a message it holds was in the mailbox
since, and if it still is, had each of its flags since; and it holds every message that
stayed there, but for those in `rest`. -/
structure AsNew (history : MailboxHistory) (folder : FolderRef) (v : UInt32) (n k : ℕ)
    (rest : List ListedMessage) (t : Tables) : Prop where
  /-- What it holds. -/
  only : HoldsOnly folder v (fun uid flags => WasThere history n k uid ∧
    (uid ∈ (history.moment k).uids → HadEach history n k uid flags)) t
  /-- What it does not lack. -/
  all : ∀ uid, StaysThere history n k uid → HoldsMessage folder v t uid ∨
    ∃ message ∈ rest, message.uid = uid

section AsNew

variable {n k k' : ℕ} {rest rest' : List ListedMessage}

theorem AsNew.later (ha : AsNew history folder v n k rest t) (hnumbered : Numbered history v)
    (hk : k ≤ k') : AsNew history folder v n k' rest t := by
  refine ⟨fun identity flags hheld => ?_, fun uid hstays => ha.all uid (hstays.mono le_rfl hk)⟩
  obtain ⟨uid, hid, ⟨j, hnj, hjk, hmem⟩, heach⟩ := ha.only identity flags hheld
  refine ⟨uid, hid, ⟨j, hnj, hjk.trans hk, hmem⟩, fun hthere => ?_⟩
  exact (heach (hnumbered.there_between hjk hk hmem hthere)).mono le_rfl hk

theorem AsNew.earlier {n' : ℕ} (ha : AsNew history folder v n k rest t) (hn : n' ≤ n) :
    AsNew history folder v n' k rest t := by
  refine ⟨fun identity flags hheld => ?_, fun uid hstays => ha.all uid (hstays.mono hn le_rfl)⟩
  obtain ⟨uid, hid, ⟨j, hnj, hjk, hmem⟩, heach⟩ := ha.only identity flags hheld
  exact ⟨uid, hid, ⟨j, hn.trans hnj, hjk, hmem⟩, fun hthere => (heach hthere).mono hn le_rfl⟩

/-- It lacks no more than `rest'` when every message of `rest` that stayed is in there. -/
theorem AsNew.lacking (ha : AsNew history folder v n k rest t)
    (hrest : ∀ message ∈ rest, StaysThere history n k message.uid → ∃ message' ∈ rest',
      message'.uid = message.uid) : AsNew history folder v n k rest' t := by
  refine ⟨ha.only, fun uid hstays => (ha.all uid hstays).imp_right ?_⟩
  rintro ⟨message, hm, rfl⟩
  exact hrest message hm hstays

/-- What keeps the folder's messages keeps it as new. -/
theorem AsNew.same (ha : AsNew history folder v n k rest t)
    (hheld : ∀ identity, t'.heldFlags folder identity = t.heldFlags folder identity) :
    AsNew history folder v n k rest t' := by
  refine ⟨fun identity flags hflags => ha.only identity flags ((hheld identity).symm.trans hflags),
    fun uid hstays => ?_⟩
  rw [HoldsMessage, hheld]
  exact ha.all uid hstays

/-- **A flag settled** to a value its message had since. -/
theorem AsNew.settled (ha : AsNew history folder v n k rest t) {identities : List String}
    {flag : MessageFlag} {value : Bool}
    (hshown : ∀ identity ∈ identities, ∃ uid flags, identity = identityUnder folder v uid ∧
      HadFlags history n k uid flags ∧ flagOf flag flags = value)
    (met : Circumstances) :
    AsNew history folder v n k rest
      (call t (.settleFlags folder.account identities flag value) met).2 := by
  refine ⟨fun identity flags hflags => ?_, fun uid hstays => ?_⟩
  · rw [settle_heldFlags] at hflags
    split at hflags
    · rename_i hsettled
      obtain ⟨flags₀, hheld, rfl⟩ := Option.map_eq_some_iff.mp hflags
      obtain ⟨uid, rfl, hthere, heach⟩ := ha.only identity flags₀ hheld
      obtain ⟨uid', flags', hid, hhad, hvalue⟩ := hshown _ hsettled.2
      obtain rfl := identityUnder_injective hid
      exact ⟨uid, rfl, hthere, fun hnow => (heach hnow).setFlag hhad hvalue⟩
    · exact ha.only identity flags hflags
  · have hstored : Stays t (call t (.settleFlags folder.account identities flag value) met).2 :=
      call_stays id t met
    rw [HoldsMessage, hstored.heldFlags_isSome]
    exact ha.all uid hstays

/-- **A batch of missing messages**, each with flags it had since. -/
theorem AsNew.fetched {folderId : ℕ} {batch : FolderBatch} (ha : AsNew history folder v n k rest t)
    (hshape : Shape t) (ho : t.Opened folder folderId)
    (honly : batch.removed = [] ∧ batch.flagStates = [] ∧ batch.state = none)
    (hknown : ∀ p ∈ batch.knownArrived, ∃ uid, p.1 = identityUnder folder v uid ∧
      HadFlags history n k uid p.2)
    (harrived : ∀ m ∈ batch.arrived, ∃ uid, m.identity = identityUnder folder v uid ∧
      HadFlags history n k uid m.flags)
    (hcomplete : ∀ message ∈ rest, StaysThere history n k message.uid →
      (∃ message' ∈ rest', message'.uid = message.uid) ∨ identityUnder folder v message.uid ∈
        batch.arrived.map Message.identity ∨ identityUnder folder v message.uid ∈
          batch.knownArrived.map Prod.fst ∧
            (t.values? folder.account.asStr (identityUnder folder v message.uid)).isSome) :
    AsNew history folder v n k rest' (t.applyBatch folderId folder.account batch) := by
  have hnew : ∀ {identity uid flags}, identity = identityUnder folder v uid →
    HadFlags history n k uid flags →
      ∃ uid, identity = identityUnder folder v uid ∧ WasThere history n k uid ∧
        (uid ∈ (history.moment k).uids → HadEach history n k uid flags) :=
    fun hid hhad => ⟨_, hid, hhad.wasThere, fun _ => hhad.each⟩
  refine ⟨fun identity flags hflags => ?_, fun uid hstays => ?_⟩
  · rw [fetched_heldFlags hshape ho honly] at hflags
    cases hk : latest identity batch.knownArrived with
    | some flags' =>
      rw [hk] at hflags
      dsimp only at hflags
      split at hflags
      · cases hflags
        obtain ⟨uid, hid, hhad⟩ := hknown _ (mem_of_latest hk)
        exact hnew hid hhad
      · cases hflags
    | none =>
      rw [hk] at hflags
      cases hl : latest identity (batch.arrived.map fun m => (m.identity, m.flags)) with
      | some flags' =>
        rw [hl] at hflags
        cases hflags
        obtain ⟨m, hm, he⟩ := List.mem_map.mp (mem_of_latest hl)
        obtain ⟨rfl, rfl⟩ := Prod.mk.inj he
        obtain ⟨uid, hid, hhad⟩ := harrived m hm
        exact hnew hid hhad
      | none =>
        rw [hl] at hflags
        exact ha.only identity flags hflags
  · rcases ha.all uid hstays with hheld | ⟨message, hm, rfl⟩
    · exact .inl (fetched_held hshape ho honly (.inl hheld))
    · rcases hcomplete message hm hstays with hrest | hhere
      · exact .inr hrest
      · exact .inl (fetched_held hshape ho honly (.inr hhere))

end AsNew

/-! ### What a pass makes of the folder -/

/-- What a pass listed, the last of it at moment `b`: what its plan's listing shows since the
opening, or nothing of a mailbox that was empty at the opening. -/
def ListedBy (history : MailboxHistory) (folder : FolderRef) (v : UInt32) (n b : ℕ)
    (plan : PassPlan) (listed : List ListedMessage) : Prop :=
  (∃ a, n ≤ a ∧ a ≤ b ∧ ListedAt history (some s!"imap:{folder.identity}/{v}/") a b plan listed) ∨
    (history.moment n).uids = ∅ ∧ listed = [] ∧ n ≤ b

/-- A listing of the changed flags ended at moment `b` without the message, which had left
since the opening. -/
def LeftUnlisted (history : MailboxHistory) (plan : PassPlan) (n b : ℕ) (uid : UInt32) : Prop :=
  (∃ since, plan = .changedFlags since) ∧ uid ∈ (history.moment n).uids ∧
  uid ∉ (history.moment b).uids

/-- What a pass that began with the opening at moment `n` leaves at moment `k`. -/
structure Passed (history : MailboxHistory) (folder : FolderRef) (v : UInt32) (n b k : ℕ)
    (plan : PassPlan) (missing : List ListedMessage) (t : Tables) : Prop where
  /-- What it holds: a message with flags it had since, or one that left before the listing. -/
  only : HoldsOnly folder v (fun uid flags => HadFlags history n k uid flags ∨
    LeftUnlisted history plan n b uid) t
  /-- What it does not lack. -/
  all : ∀ uid, StaysThere history n k uid → HoldsMessage folder v t uid ∨
    ∃ message ∈ missing, message.uid = uid

section Pass

variable {n b k : ℕ} {plan : PassPlan} {listed missing : List ListedMessage} {stored : FolderSync}
  {numbers : MailboxNumbers}

/-- After a pass the folder is as new as its opening. -/
theorem Passed.asNew (hp : Passed history folder v n b k plan missing t)
    (hnumbered : Numbered history v) (hnb : n ≤ b) (hbk : b ≤ k) :
    AsNew history folder v n k missing t := by
  refine ⟨fun identity flags hflags => ?_, hp.all⟩
  obtain ⟨uid, hid, hhad | ⟨-, hopened, hleft⟩⟩ := hp.only identity flags hflags
  · exact ⟨uid, hid, hhad.wasThere, fun _ => hhad.each⟩
  · refine ⟨uid, hid, ⟨n, le_rfl, hnb.trans hbk, hopened⟩, fun hthere => absurd ?_ hleft⟩
    exact hnumbered.there_between hnb hbk hopened hthere

/-- A listed message had its flags since the opening. -/
theorem ListedBy.had (hl : ListedBy history folder v n b plan listed) {message : ListedMessage}
    (hm : message ∈ listed) :
    message.identity = identityUnder folder v message.uid ∧
      HadFlags history n b message.uid message.flags := by
  rcases hl with ⟨a, hna, hab, hl⟩ | ⟨-, rfl, -⟩
  · rw [ListedAt] at hl
    split at hl
    · rw [hl] at hm
      exact absurd hm List.not_mem_nil
    · obtain ⟨items, responses, hitems, hanswers, rfl⟩ := hl
      obtain ⟨j, haj, hjb, hmem, hid, hflags⟩ := listed_was_there hanswers hitems hm
      exact ⟨(Option.some.inj hid).symm, j, hna.trans haj, hjb, hmem, hflags.symm⟩
  · exact absurd hm List.not_mem_nil

theorem ListedBy.onePerIdentity (hl : ListedBy history folder v n b plan listed) :
    OnePerIdentity listed := by
  rcases hl with ⟨a, -, -, hl⟩ | ⟨-, rfl, -⟩
  · rw [ListedAt] at hl
    split at hl
    · rw [hl]
      exact fun m hm => absurd hm List.not_mem_nil
    · obtain ⟨items, responses, -, -, rfl⟩ := hl
      exact identified_onePerIdentity _ responses
  · exact fun m hm => absurd hm List.not_mem_nil

theorem ListedBy.later (hl : ListedBy history folder v n b plan listed) : n ≤ b := by
  rcases hl with ⟨a, hna, hab, -⟩ | ⟨-, -, hnb⟩
  · exact hna.trans hab
  · exact hnb

/-- A message that stayed is listed by a listing of every message, and by one of the changed
flags when it changed before the opening. -/
theorem ListedBy.lists (hl : ListedBy history folder v n b plan listed)
    (hnumbered : Numbered history v) {uid : UInt32} (hstays : StaysThere history n b uid)
    (hnamed : plan = .everything ∨ plan.Changed (history.moment n) uid) :
    ∃ message ∈ listed, message.uid = uid := by
  have hopened := hstays n le_rfl hl.later
  rcases hl with ⟨a, hna, hab, hl⟩ | ⟨hempty, -, -⟩
  · have hthere : ∀ j, a ≤ j → j ≤ b → uid ∈ (history.moment j).uids ∧
        identityIn (some s!"imap:{folder.identity}/{v}/") (history.moment j) uid =
          some (identityUnder folder v uid) :=
      fun j haj hjb => ⟨hstays j (hna.trans haj) hjb, rfl⟩
    rcases hnamed with rfl | ⟨since, rfl, hsince⟩
    · obtain ⟨items, responses, hitems, hanswers, rfl⟩ := hl
      obtain ⟨message, hm, huid, -⟩ := listed_of_there hanswers hitems trivial hthere
      exact ⟨message, hm, huid⟩
    · obtain ⟨items, responses, hitems, hanswers, rfl⟩ := hl
      have hmodseq := (hnumbered.keeps hna).modseq uid hopened (hstays a hna hab)
      obtain ⟨message, hm, huid, -⟩ :=
        listed_of_there hanswers hitems (hsince.trans_le hmodseq) hthere
      exact ⟨message, hm, huid⟩
  · rw [hempty] at hopened
    exact absurd hopened (Finset.notMem_empty uid)

/-- **A pass that listed every message** leaves the folder as new as its opening. -/
theorem passed_of_everything (hnumbered : Numbered history v)
    (hl : ListedBy history folder v n b .everything listed) (hbk : b ≤ k) {numbers : FolderNumbers}
    (ha : Applied folder stored (passBatch listed none stored numbers .everything) t) :
    Passed history folder v n b k .everything (missingMessages listed stored) t := by
  refine ⟨fun identity flags hflags => ?_, fun uid hstays => ?_⟩
  · obtain ⟨message, hm, rfl, rfl⟩ := ha.only_listed hl.onePerIdentity hflags
    obtain ⟨hid, hhad⟩ := hl.had hm
    exact ⟨message.uid, hid, .inl (hhad.mono le_rfl hbk)⟩
  · obtain ⟨message, hm, rfl⟩ := hl.lists hnumbered (hstays.mono le_rfl hbk) (.inl rfl)
    cases hget : stored.get message.identity with
    | none => exact .inr ⟨message, mem_missingMessages.mpr ⟨hm, hget⟩, rfl⟩
    | some flags =>
      have hkept : message.identity ∉ (passBatch listed none stored numbers .everything).removed :=
        fun hr => (mem_removed.mp hr).2.2.2 (List.mem_map_of_mem hm)
      rw [HoldsMessage, ← (hl.had hm).1, ha.heldFlags, if_neg hkept, hget]
      exact .inl rfl

/-- **A quick pass** on a folder as new as the opening it compares with leaves it as new as its
own opening. -/
theorem passed_of_quick (hnumbered : Numbered history v) {n₀ k₀ : ℕ} {reference : MailboxNumbers}
    (hreference : (history.moment n₀).Opens reference) (hopens : (history.moment n).Opens numbers)
    (hk₀ : n₀ ≤ k₀) (hkn : k₀ ≤ n) (hnew : AsNew history folder v n₀ k₀ [] t')
    (hget : ∀ identity, stored.get identity = t'.heldFlags folder identity) {pending : Bool}
    (hplan : passPlan (folderNumbers numbers) (some (folderNumbers reference)) pending = plan)
    (hquick : plan ≠ .everything) (hl : ListedBy history folder v n b plan listed) (hbk : b ≤ k)
    (ha : Applied folder stored (passBatch listed none stored (folderNumbers numbers) plan) t) :
    Passed history folder v n b k plan (missingMessages listed stored) t := by
  -- between the two openings only the flags the plan lists may have changed
  have hsame : ∀ j, n₀ ≤ j → j ≤ n →
      SameBut none (plan.Changed (history.moment n)) (history.moment j) (history.moment n) :=
    fun j hj hjn => sameBut_of_quick none hreference hopens hj hjn hplan hquick
  have hheld : ∀ identity, t.heldFlags folder identity = (t'.heldFlags folder identity).map
      fun flags =>
      (latest identity (passBatch listed none stored (folderNumbers numbers) plan).flagStates).getD
        flags := by
    intro identity
    rw [ha.heldFlags, if_neg fun hr => hquick (mem_removed.mp hr).2.1, hget]
  refine ⟨fun identity flags hflags => ?_, fun uid hstays => ?_⟩
  · rw [hheld] at hflags
    obtain ⟨flags₀, hflags₀, rfl⟩ := Option.map_eq_some_iff.mp hflags
    obtain ⟨uid, rfl, ⟨j, hj, hjk, hmem⟩, heach⟩ := hnew.only identity flags₀ hflags₀
    have hopened : uid ∈ (history.moment n).uids := (hsame j hj (hjk.trans hkn)).uids ▸ hmem
    refine ⟨uid, rfl, ?_⟩
    by_cases hlisted : identityUnder folder v uid ∈ listed.map ListedMessage.identity
    · -- the listing shows it
      obtain ⟨message, hm, hid⟩ := List.mem_map.mp hlisted
      obtain ⟨hid', hhad⟩ := hl.had hm
      obtain rfl := identityUnder_injective (hid.symm.trans hid')
      rw [← hid, passBatch_listed hl.onePerIdentity hm ((hget _).trans (hid ▸ hflags₀))]
      exact .inl (hhad.mono le_rfl hbk)
    · rw [passBatch_unlisted hlisted, Option.getD_none]
      have hnot : StaysThere history n b uid → ¬plan.Changed (history.moment n) uid := by
        intro hstays hchanged
        obtain ⟨message, hm, rfl⟩ := hl.lists hnumbered hstays (.inr hchanged)
        exact hlisted (List.mem_map.mpr ⟨message, hm, (hl.had hm).1⟩)
      by_cases hchanged : plan.Changed (history.moment n) uid
      · -- it changed, and left before it could be listed
        obtain ⟨since, hsince, -⟩ := id hchanged
        refine .inr ⟨⟨since, hsince⟩, hopened, fun hthere => hnot (fun j hnj hjb => ?_) hchanged⟩
        exact hnumbered.there_between hnj hjb hopened hthere
      · -- it did not change
        refine .inl ⟨n, le_rfl, hl.later.trans hbk, hopened, ?_⟩
        have hthen : uid ∈ (history.moment k₀).uids := (hsame k₀ hk₀ hkn).uids.symm ▸ hopened
        refine flags_ext fun flag => ?_
        obtain ⟨flags', ⟨i, hi, hik, -, rfl⟩, hflag⟩ := heach hthen flag
        rw [← (hsame i hi (hik.trans hkn)).flags uid hopened hchanged, hflag]
  · have hopened := hstays n le_rfl (hl.later.trans hbk)
    have hstayed : StaysThere history n₀ k₀ uid :=
      fun j hj hjk => (hsame j hj (hjk.trans hkn)).uids.symm ▸ hopened
    refine .inl ?_
    rw [HoldsMessage, hheld, Option.isSome_map]
    exact (hnew.all uid hstayed).resolve_right fun ⟨_, hm, _⟩ => absurd hm List.not_mem_nil

/-- The folder is as new as an opening that returned the numbers. -/
def NewAsNumbers (history : MailboxHistory) (folder : FolderRef) (v : UInt32)
    (numbers : FolderNumbers) (k : ℕ) (t : Tables) : Prop :=
  ∃ n opened, n ≤ k ∧ numbers = folderNumbers opened ∧ (history.moment n).Opens opened ∧
    AsNew history folder v n k [] t

/-- **A pass** whose reference the folder is as new as leaves it as new as its own opening. -/
theorem passed_of_applied (hnumbered : Numbered history v) {k₀ : ℕ}
    {reference : Option FolderNumbers}
    (hreference : ∀ numbers, reference = some numbers → NewAsNumbers history folder v numbers k₀ t')
    (hopens : (history.moment n).Opens numbers) (hkn : k₀ ≤ n)
    (hget : ∀ identity, stored.get identity = t'.heldFlags folder identity) {pending : Bool}
    (hplan : passPlan (folderNumbers numbers) reference pending = plan)
    (hl : ListedBy history folder v n b plan listed) (hbk : b ≤ k)
    (ha : Applied folder stored (passBatch listed none stored (folderNumbers numbers) plan) t) :
    Passed history folder v n b k plan (missingMessages listed stored) t := by
  by_cases hquick : plan = .everything
  · subst hquick
    exact passed_of_everything hnumbered hl hbk ha
  · cases reference with
    | none => exact absurd hplan.symm hquick
    | some r =>
      obtain ⟨n₀, opened, hk₀, rfl, hopened, hnew⟩ := hreference r rfl
      exact passed_of_quick hnumbered hopened hopens hk₀ hkn hnew hget hplan hquick hl hbk ha

end Pass

/-! ### What the mark says -/

/-- **The mark is true**: a folder marked synchronized is as new as an opening that returned the
numbers it is marked with. -/
structure TrueMark (history : MailboxHistory) (folder : FolderRef) (v : UInt32) (k : ℕ)
    (t : Tables) : Prop where
  /-- The store's shape. -/
  shape : Shape t
  /-- The mark. -/
  mark : ∀ state, t.state? folder = some state → state.synchronized = true →
    ∃ numbers, state.numbers = some numbers ∧ NewAsNumbers history folder v numbers k t

/-- A folder not marked synchronized says nothing. -/
theorem trueMark_of_unmarked {k : ℕ} (hshape : Shape t)
    (hunmarked : ¬(t.state? folder).any FolderState.synchronized) : TrueMark history folder v k t :=
  ⟨hshape, fun state hstate hsynchronized => absurd (by rw [hstate]; exact hsynchronized) hunmarked⟩

/-- Time went on, and the folder is as it was. -/
structure Alike (folder : FolderRef) (s u : ℕ × Tables) : Prop where
  /-- Time. -/
  later : s.1 ≤ u.1
  /-- The store's shape. -/
  shape : Shape u.2
  /-- The folder's state. -/
  state : u.2.state? folder = s.2.state? folder
  /-- Its messages. -/
  heldFlags : ∀ identity, u.2.heldFlags folder identity = s.2.heldFlags folder identity

section Alike

variable {s u w : ℕ × Tables}

theorem Alike.refl (hshape : Shape s.2) : Alike folder s s := ⟨le_rfl, hshape, rfl, fun _ => rfl⟩

theorem Alike.trans (h : Alike folder s u) (h' : Alike folder u w) : Alike folder s w :=
  ⟨h.later.trans h'.later, h'.shape, h'.state.trans h.state,
    fun identity => (h'.heldFlags identity).trans (h.heldFlags identity)⟩

theorem alike_of_kept (hshape : Shape s.2) (hlater : s.1 ≤ u.1) (hkept : Kept s.2 u.2) :
    Alike folder s u :=
  ⟨hlater, hkept.shape hshape, hkept.toStays.state folder, hkept.heldFlags folder⟩

/-- A folder that stays as it is keeps a true mark. -/
theorem TrueMark.alike (hs : TrueMark history folder v s.1 s.2) (hnumbered : Numbered history v)
    (ha : Alike folder s u) : TrueMark history folder v u.1 u.2 := by
  refine ⟨ha.shape, fun state hstate hsynchronized => ?_⟩
  obtain ⟨numbers, hnumbers, n, opened, hnk, hopened, hopens, hnew⟩ :=
    hs.mark state (ha.state ▸ hstate) hsynchronized
  exact ⟨numbers, hnumbers, n, opened, hnk.trans ha.later, hopened, hopens,
    (hnew.later hnumbered ha.later).same ha.heldFlags⟩

end Alike

end Mailbag.Cycle
