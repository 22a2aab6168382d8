import Mailbag.Cycle.ImapRuns
import Mailbag.Imap.MailboxServer

/-!
# The quick state pass agrees with the full one

A pass that compares its opening's numbers with earlier ones may list nothing, or only the
messages changed since. Whatever happened to the mailbox between the two openings, its
batch leaves the folder as the batch of a complete listing would.

## What is proved

* `passPlan_quick` — what the compared numbers say when the pass is quick.
* `quick_unchanged` — then the mailbox has the messages it had, and a message not changed
  above the earlier HIGHESTMODSEQ the flags.
* `quick_pass_agrees` — so the quick pass's batch and the full pass's leave the same folder.
-/

namespace Mailbag.Cycle

open Collections Imap Store

/-! ### Identities -/

theorem repr_injective {a b : ℕ} (h : a.repr = b.repr) : a = b := by
  have hlist := congrArg String.toList h
  rw [Nat.toList_repr, Nat.toList_repr] at hlist
  rw [← Nat.ofDigitChars_ten_toDigits (n := a), ← Nat.ofDigitChars_ten_toDigits (n := b), hlist]

theorem append_injective {s t t' : String} (h : s ++ t = s ++ t') : t = t' := by
  have hlist := congrArg String.toList h
  rw [String.toList_append, String.toList_append] at hlist
  exact String.toList_injective (List.append_cancel_left hlist)

theorem generic_injective {generic : String} {uid uid' : UInt32} {id id' : Option UInt64}
    (h : identityOf (some generic) uid id = identityOf (some generic) uid' id') : uid = uid' :=
  UInt32.toNat_inj.mp (repr_injective (append_injective (Option.some.inj h)))

theorem gmail_injective {uid uid' : UInt32} {id id' : UInt64}
    (h : identityOf none uid (some id) = identityOf none uid' (some id')) : id = id' :=
  UInt64.toNat_inj.mp (repr_injective (append_injective (Option.some.inj h)))

/-- The identity of a message of a mailbox. -/
def identityIn (generic : Option String) (m : Mailbox) (uid : UInt32) : Option String :=
  identityOf generic uid (m.gmailMsgId uid)

theorem identityIn_injective {generic : Option String} {m : Mailbox} {uid uid' : UInt32}
    {identity : String} (hm : uid ∈ m.uids) (hm' : uid' ∈ m.uids)
    (h : identityIn generic m uid = some identity)
    (h' : identityIn generic m uid' = some identity) : uid = uid' := by
  rw [identityIn] at h h'
  cases generic with
  | some generic => exact generic_injective (h.trans h'.symm)
  | none =>
    cases hid : m.gmailMsgId uid with
    | none =>
      rw [hid] at h
      cases h
    | some id =>
      cases hid' : m.gmailMsgId uid' with
      | none =>
        rw [hid'] at h'
        cases h'
      | some id' =>
        rw [hid] at h
        rw [hid'] at h'
        have hsame := gmail_injective (h.trans h'.symm)
        exact m.once uid hm uid' hm' (by rw [hid]; rfl) (by rw [hid, hid', hsame])

/-! ### The compared numbers -/

/-- **A quick plan** is made only of numbers equal on both sides. -/
theorem passPlan_quick {numbers reference : FolderNumbers} {pending : Bool} {plan : PassPlan}
    (hplan : passPlan numbers (some reference) pending = plan) (hquick : plan ≠ .everything) :
    numbers.uidValidity.isSome ∧ numbers.uidValidity = reference.uidValidity ∧
      numbers.messageCount = reference.messageCount ∧ numbers.uidNext.isSome ∧
      numbers.uidNext = reference.uidNext ∧
        ∃ since, reference.highestModseq = some since ∧
          (plan = .nothing ∧ numbers.highestModseq = some since ∨ plan = .changedFlags since) := by
  subst hplan
  rw [passPlan] at hquick ⊢
  cases hr : reference.highestModseq with
  | none => simp [hr] at hquick
  | some since =>
    cases hn : numbers.highestModseq with
    | none => simp [hr, hn] at hquick
    | some highestModseq =>
      simp only [hr, hn] at hquick ⊢
      split at hquick
      · rename_i hsame
        obtain ⟨⟨hv, hv', hcount, hu, hu'⟩, hpending⟩ := hsame
        refine ⟨hv, hv', hcount, hu, hu', since, rfl, ?_⟩
        rw [if_pos ⟨⟨hv, hv', hcount, hu, hu'⟩, hpending⟩]
        split
        · rename_i he
          exact .inl ⟨rfl, by rw [he]⟩
        · exact .inr rfl
      · exact absurd rfl hquick

variable {history : MailboxHistory}

/-- **What a quick plan says of the mailbox**: between the two openings no message arrived or
left, and the plan lists the messages whose flags may have changed. -/
theorem quick_unchanged {r o : ℕ} {numbers reference : MailboxNumbers}
    (hr : (history.moment r).Opens reference) (ho : (history.moment o).Opens numbers) (hro : r ≤ o)
    {pending : Bool} {plan : PassPlan}
    (hplan : passPlan (folderNumbers numbers) (some (folderNumbers reference)) pending = plan)
    (hquick : plan ≠ .everything) :
    (history.moment o).uidValidity = (history.moment r).uidValidity ∧
    (history.moment o).uids = (history.moment r).uids ∧
      (plan = .nothing ∧ (history.moment o).highestModseq = (history.moment r).highestModseq ∨
        ∃ since, plan = .changedFlags since ∧ since.toNat = (history.moment r).highestModseq) := by
  obtain ⟨hv, hv', hcount, hu, hu', since, hsince, hlists⟩ := passPlan_quick hplan hquick
  obtain ⟨v, hv⟩ := Option.isSome_iff_exists.mp hv
  obtain ⟨n, hu⟩ := Option.isSome_iff_exists.mp hu
  have hsame : (history.moment o).uidValidity = (history.moment r).uidValidity :=
    (ho.uidValidity v hv).trans (hr.uidValidity v (hv'.symm.trans hv)).symm
  have hnext : (history.moment o).uidNext = (history.moment r).uidNext :=
    (ho.uidNext n hu).symm.trans (hr.uidNext n (hu'.symm.trans hu))
  have hcard : (history.moment o).uids.card = (history.moment r).uids.card := by
    rw [← ho.messageCount, ← hr.messageCount]
    exact congrArg UInt32.toNat hcount
  refine ⟨hsame, (history.keeps le_rfl hro le_rfl hsame).uids_eq hnext hcard, ?_⟩
  rcases hlists with ⟨hnothing, hhighest⟩ | hchanged
  · exact .inl ⟨hnothing, (ho.highestModseq since hhighest).symm.trans
      (hr.highestModseq since hsince)⟩
  · exact .inr ⟨since, hchanged, hr.highestModseq since hsince⟩

/-! ### What a listing shows -/

section Listing

variable {a b : ℕ} {set : UidSet} {items : RowItems} {since : Option UInt64}
  {responses : List Fetch} {generic : Option String}

/-- A listed message was in the mailbox at some moment, under its identity and with its flags. -/
theorem listed_was_there (ha : history.Answers a b set (.listing items since) responses)
    (hitems : generic = none → items = .withGmailAttributes) {message : ListedMessage}
    (hm : message ∈ identified generic (listing responses)) :
    ∃ n, a ≤ n ∧ n ≤ b ∧ message.uid ∈ (history.moment n).uids ∧
      identityIn generic (history.moment n) message.uid = some message.identity ∧
        message.flags = (history.moment n).flags message.uid := by
  obtain ⟨hnames, hi, hflags⟩ := mem_identified.mp hm
  obtain ⟨n, han, hnb, hmem, hlast, hid⟩ := ha.said trivial message.uid hnames
  refine ⟨n, han, hnb, hmem, ?_, by rw [hflags, hlast]; rfl⟩
  rw [identityIn]
  cases generic with
  | some generic => exact hi
  | none => rw [← hid (hitems rfl)]; exact hi

theorem listed_of_there (ha : history.Answers a b set (.listing items since) responses)
    (hitems : generic = none → items = .withGmailAttributes) {uid : UInt32} {identity : String}
    (hnamed : (history.moment a).Named set (.listing items since) uid)
    (hthere : ∀ n, a ≤ n → n ≤ b → uid ∈ (history.moment n).uids ∧
      identityIn generic (history.moment n) uid = some identity) :
    ∃ message ∈ identified generic (listing responses), message.uid = uid ∧
      message.identity = identity := by
  have hnames : Names responses uid := ha.answered uid hnamed fun n han hnb => (hthere n han hnb).1
  obtain ⟨n, han, hnb, -, hlast, hid⟩ := ha.said trivial uid hnames
  refine ⟨⟨identity, uid, (history.moment n).flags uid⟩,
    mem_identified.mpr ⟨hnames, ?_, by rw [hlast]; rfl⟩, rfl, rfl⟩
  have hi := (hthere n han hnb).2
  rw [identityIn] at hi
  cases generic with
  | some generic => exact hi
  | none => rw [hid (hitems rfl)]; exact hi

end Listing

/-! ### The two passes -/

/-- What a plan's listing shows, given at moment `a` and completed at moment `b`: nothing
without a command. -/
def ListedAt (history : MailboxHistory) (generic : Option String) (a b : ℕ) (plan : PassPlan)
    (listed : List ListedMessage) : Prop :=
  match plan.changedSince with
  | none => listed = []
  | some since => ∃ items responses, (generic = none → items = .withGmailAttributes) ∧
      history.Answers a b .all (.listing items since) responses ∧
      listed = identified generic (listing responses)

/-- The folder holds exactly the messages a listing saw, with their flags. -/
structure Exactly (seen : List ListedMessage) (stored : FolderSync) : Prop where
  /-- Every message it saw is held. -/
  all : ∀ message ∈ seen, (stored.get message.identity).isSome
  /-- Nothing else is, and no other flags. -/
  only : ∀ identity flags, stored.get identity = some flags →
    ∃ message ∈ seen, message.identity = identity ∧ message.flags = flags

/-- A moment whose mailbox differs from a later one's only in the flags of messages changed
above a mod-sequence. -/
structure SameBut (generic : Option String) (changed : UInt32 → Prop) (m m' : Mailbox) : Prop where
  /-- The messages. -/
  uids : m.uids = m'.uids
  /-- Their identities. -/
  identity : ∀ uid ∈ m'.uids, identityIn generic m uid = identityIn generic m' uid
  /-- The flags of the others. -/
  flags : ∀ uid ∈ m'.uids, ¬ changed uid → m.flags uid = m'.flags uid

/-- What changed after the opening a plan compares with. -/
def PassPlan.Changed (plan : PassPlan) (m : Mailbox) (uid : UInt32) : Prop :=
  ∃ since, plan = .changedFlags since ∧ since.toNat < m.modseq uid

/-- **Between the openings of a quick plan** every moment's mailbox is the last one's, but
for the flags the plan lists. -/
theorem sameBut_of_quick {r o n : ℕ} {numbers reference : MailboxNumbers} (generic : Option String)
    (hr : (history.moment r).Opens reference) (ho : (history.moment o).Opens numbers) (hrn : r ≤ n)
    (hno : n ≤ o) {pending : Bool} {plan : PassPlan}
    (hplan : passPlan (folderNumbers numbers) (some (folderNumbers reference)) pending = plan)
    (hquick : plan ≠ .everything) :
    SameBut generic (plan.Changed (history.moment o)) (history.moment n) (history.moment o) := by
  obtain ⟨hsame, huids, hlists⟩ := quick_unchanged hr ho (hrn.trans hno) hplan hquick
  have hbefore := history.keeps le_rfl hrn hno hsame
  have hafter := history.keeps hrn hno le_rfl hsame
  -- A message of both ends was there in between, and UIDNEXT leaves no room for another.
  have hall : (history.moment n).uids = (history.moment o).uids := by
    refine Finset.Subset.antisymm (fun uid hn => ?_) fun uid ho' => hbefore.mem_between hafter
      (huids ▸ ho') ho'
    by_contra hnot
    have harrived := hbefore.arrives uid hn (huids ▸ hnot)
    obtain ⟨-, -, -, hu, hu', -⟩ := passPlan_quick hplan hquick
    obtain ⟨next, hu⟩ := Option.isSome_iff_exists.mp hu
    have hnext := (ho.uidNext next hu).symm.trans (hr.uidNext next (hu'.symm.trans hu))
    have hbelow := (history.moment n).below uid hn
    have hle := hafter.uidNext
    omega
  refine ⟨hall, fun uid hmem => ?_, fun uid hmem hnot => ?_⟩
  · rw [identityIn, identityIn, hafter.gmailMsgId uid (hall ▸ hmem) hmem]
  · have hr' : uid ∈ (history.moment r).uids := huids ▸ hmem
    have hmodseq : (history.moment o).modseq uid ≤ (history.moment r).highestModseq := by
      rcases hlists with ⟨-, hhighest⟩ | ⟨since, hchanged, hsince⟩
      · exact hhighest ▸ (history.moment o).highest uid hmem
      · by_contra hlt
        exact hnot ⟨since, hchanged, by omega⟩
    rw [hbefore.flags_between hafter hr' hmem hmodseq,
      (hbefore.trans hafter).flags_eq hr' hmem hmodseq]

/-- The folder is as a mailbox is. -/
def Mirrors (generic : Option String) (m : Mailbox) (folder : FolderRef) (t : Tables) : Prop :=
  ∀ identity flags, t.heldFlags folder identity = some flags ↔
    ∃ uid ∈ m.uids, identityIn generic m uid = some identity ∧ m.flags uid = flags

theorem listedAt_moment {generic : Option String} {k : ℕ} {plan : PassPlan}
    {listed : List ListedMessage} (hlisted : ListedAt history generic k k plan listed)
    {message : ListedMessage} (hm : message ∈ listed) :
    message.uid ∈ (history.moment k).uids ∧
    identityIn generic (history.moment k) message.uid = some message.identity ∧
      message.flags = (history.moment k).flags message.uid := by
  rw [ListedAt] at hlisted
  split at hlisted
  · rw [hlisted] at hm
    exact absurd hm List.not_mem_nil
  · obtain ⟨items, responses, hitems, ha, rfl⟩ := hlisted
    obtain ⟨n, hkn, hnk, hwas⟩ := listed_was_there ha hitems hm
    rwa [le_antisymm hnk hkn] at hwas

/-- Every message is listed in full, and a changed one by a quick plan. -/
theorem listedAt_names {generic : Option String} {k : ℕ} {plan : PassPlan}
    {listed : List ListedMessage} (hlisted : ListedAt history generic k k plan listed)
    {uid : UInt32} (hmem : uid ∈ (history.moment k).uids) {identity : String}
    (hid : identityIn generic (history.moment k) uid = some identity)
    (hnamed : plan = .everything ∨ plan.Changed (history.moment k) uid) :
    ∃ message ∈ listed, message.uid = uid ∧ message.identity = identity := by
  have hthere : ∀ n, k ≤ n → n ≤ k → uid ∈ (history.moment n).uids ∧
      identityIn generic (history.moment n) uid = some identity :=
    fun n hkn hnk => by rw [le_antisymm hnk hkn]; exact ⟨hmem, hid⟩
  rcases hnamed with rfl | ⟨since, rfl, hsince⟩
  · obtain ⟨items, responses, hitems, ha, rfl⟩ := hlisted
    exact listed_of_there ha hitems trivial hthere
  · obtain ⟨items, responses, hitems, ha, rfl⟩ := hlisted
    exact listed_of_there ha hitems hsince hthere

variable {folder : FolderRef} {stored : FolderSync} {t : Tables} {folderId : ℕ}

/-- **Either pass leaves the folder as the mailbox is**, and misses no message. -/
theorem mirrors_of_pass {generic : Option String} {i j k : ℕ} {plan : PassPlan}
    {seen listed : List ListedMessage} (numbers : FolderNumbers) (hshape : Shape t)
    (hopened : t.Opened folder folderId) (hcurrent : Current folder stored t)
    (hseen : ListedAt history generic i j .everything seen) (hexactly : Exactly seen stored)
    {changed : UInt32 → Prop}
    (hsame : ∀ n, i ≤ n → n ≤ j → SameBut generic changed (history.moment n) (history.moment k))
    (hlisted : ListedAt history generic k k plan listed)
    (hchanged : ∀ uid, changed uid → plan = .everything ∨ plan.Changed (history.moment k) uid) :
    Mirrors generic (history.moment k) folder
    (t.applyBatch folderId folder.account (passBatch listed none stored numbers plan)) ∧
      missingMessages listed stored = [] := by
  obtain ⟨items, responses, hitems, ha, rfl⟩ := hseen
  -- The folder holds the mailbox's messages: each had its flags at some moment of the listing.
  have hheld : ∀ identity flags, stored.get identity = some flags → ∃ uid ∈ (history.moment k).uids,
      identityIn generic (history.moment k) uid = some identity ∧
      (¬ changed uid → flags = (history.moment k).flags uid) := by
    intro identity flags hget
    obtain ⟨message, hm, rfl, rfl⟩ := hexactly.only identity flags hget
    obtain ⟨n, hin, hnj, hmem, hid, hflags⟩ := listed_was_there ha hitems hm
    obtain ⟨huids, hidentity, hflagsEq⟩ := hsame n hin hnj
    rw [huids] at hmem
    exact ⟨message.uid, hmem, (hidentity _ hmem).symm.trans hid, fun hnot => hflags.trans
      (hflagsEq _ hmem hnot)⟩
  have hholds : ∀ uid ∈ (history.moment k).uids, ∀ identity, identityIn generic (history.moment k)
    uid = some identity →
      (stored.get identity).isSome := by
    intro uid hmem identity hid
    have hthere : ∀ n, i ≤ n → n ≤ j →
        uid ∈ (history.moment n).uids ∧
        identityIn generic (history.moment n) uid = some identity := by
      intro n hin hnj
      obtain ⟨huids, hidentity, -⟩ := hsame n hin hnj
      exact ⟨huids ▸ hmem, (hidentity uid hmem).trans hid⟩
    obtain ⟨message, hm, -, rfl⟩ := listed_of_there ha hitems trivial hthere
    exact hexactly.all message hm
  have hone : OnePerIdentity listed := by
    intro m hm m' hm' he
    obtain ⟨hmem, hid, hflags⟩ := listedAt_moment hlisted hm
    obtain ⟨hmem', hid', hflags'⟩ := listedAt_moment hlisted hm'
    rw [← he] at hid'
    have huid := identityIn_injective hmem hmem' hid hid'
    rw [← huid] at hflags'
    cases m
    cases m'
    exact (ListedMessage.mk.injEq ..).mpr ⟨he, huid, hflags.trans hflags'.symm⟩
  -- A full listing names every held message, so nothing is removed.
  have hremoved : ∀ identity, identity ∉ (passBatch listed none stored numbers plan).removed := by
    intro identity hr
    obtain ⟨-, rfl, hstored, hnot⟩ := mem_removed.mp hr
    obtain ⟨flags, hget⟩ := Option.isSome_iff_exists.mp (get_isSome_iff.mpr hstored)
    obtain ⟨uid, hmem, hid, -⟩ := hheld identity flags hget
    obtain ⟨message, hm, -, rfl⟩ := listedAt_names hlisted hmem hid (.inl rfl)
    exact hnot (List.mem_map_of_mem hm)
  have hflags : ∀ uid ∈ (history.moment k).uids, ∀ identity, identityIn generic (history.moment k)
    uid = some identity →
      ∀ flags, stored.get identity = some flags →
        (latest identity (passBatch listed none stored numbers plan).flagStates).getD flags =
          (history.moment k).flags uid := by
    intro uid hmem identity hid flags hget
    by_cases hl : identity ∈ listed.map ListedMessage.identity
    · obtain ⟨message, hm, rfl⟩ := List.mem_map.mp hl
      obtain ⟨hmem', hid', hf⟩ := listedAt_moment hlisted hm
      rw [passBatch_listed hone hm hget, hf, identityIn_injective hmem hmem' hid hid']
    · rw [passBatch_unlisted hl, Option.getD_none]
      obtain ⟨uid', hmem', hid', hf⟩ := hheld identity flags hget
      obtain rfl := identityIn_injective hmem hmem' hid hid'
      refine hf fun hc => hl ?_
      obtain ⟨message, hm, -, rfl⟩ := listedAt_names hlisted hmem hid (hchanged uid hc)
      exact List.mem_map_of_mem hm
  refine ⟨fun identity flags => ?_, ?_⟩
  · rw [passBatch_heldFlags hshape hopened, if_neg (hremoved identity),
      ← hcurrent.heldFlags identity, Option.map_eq_some_iff]
    constructor
    · rintro ⟨flags', hget, rfl⟩
      obtain ⟨uid, hmem, hid, -⟩ := hheld identity flags' hget
      exact ⟨uid, hmem, hid, (hflags uid hmem identity hid flags' hget).symm⟩
    · rintro ⟨uid, hmem, hid, rfl⟩
      obtain ⟨flags', hget⟩ := Option.isSome_iff_exists.mp (hholds uid hmem identity hid)
      exact ⟨flags', hget, hflags uid hmem identity hid flags' hget⟩
  · rw [List.eq_nil_iff_forall_not_mem]
    intro message hm
    obtain ⟨hm, hnone⟩ := mem_missingMessages.mp hm
    obtain ⟨hmem, hid, -⟩ := listedAt_moment hlisted hm
    have hsome := hholds message.uid hmem message.identity hid
    rw [hnone] at hsome
    cases hsome

/-- **The quick pass agrees with the full one**: after an opening with the reference numbers
and a listing the folder holds exactly, whatever happened, a later opening whose numbers
call for no listing or for the changed messages leaves the folder as a listing of every
message does, and both miss no message and store one state. -/
theorem quick_pass_agrees {t₀ i j t₁ : ℕ} (hreading : t₀ ≤ i) (hlater : j ≤ t₁)
    {reference numbers : MailboxNumbers} (hreference : (history.moment t₀).Opens reference)
    (hnumbers : (history.moment t₁).Opens numbers) {generic : Option String}
    {seen : List ListedMessage} (hseen : ListedAt history generic i j .everything seen)
    (calls : List (StoreCall × Circumstances)) {met met' met'' : Circumstances}
    (hread : (call (Store.run .empty calls) (.readFolderSync folder) met).1 = .ok stored)
    (hexactly : Exactly seen stored) {plan : PassPlan}
    (hplan : passPlan (folderNumbers numbers) (some (folderNumbers reference)) false = plan)
    (hquick : plan ≠ .everything) {quick full : List ListedMessage}
    (hlisted : ListedAt history generic t₁ t₁ plan quick)
    (hfull : ListedAt history generic t₁ t₁ .everything full) {quickBatch fullBatch : FolderBatch}
    (hquickBatch : passBatch quick none stored (folderNumbers numbers) plan = quickBatch)
    (hfullBatch : passBatch full none stored (folderNumbers numbers) .everything = fullBatch)
    (hstored : (call (Store.run .empty calls) (.storeBatch folder quickBatch) met').1 = .ok .stored)
    (hstored' : (call (Store.run .empty calls) (.storeBatch folder fullBatch) met'').1 =
      .ok .stored) :
    (∀ identity,
      (call (Store.run .empty calls) (.storeBatch folder quickBatch) met').2.heldFlags folder
      identity =
        (call (Store.run .empty calls) (.storeBatch folder fullBatch) met'').2.heldFlags folder
          identity) ∧
      missingMessages quick stored = [] ∧ missingMessages full stored = [] ∧
      quickBatch.state = fullBatch.state := by
  have hshape := run_shape shape_empty calls
  have hsame : ∀ n, i ≤ n → n ≤ j →
      SameBut generic (plan.Changed (history.moment t₁)) (history.moment n) (history.moment t₁) :=
        fun n hin hnj =>
    sameBut_of_quick generic hreference hnumbers (hreading.trans hin) (hnj.trans hlater)
      hplan hquick
  obtain ⟨-, hstate, hget⟩ := readFolderSync_spec hshape.toLinked (Prod.ext hread rfl)
  obtain ⟨folderId, hopened, hquickStored⟩ := stored_of_call hshape hstored
  obtain ⟨folderId', hopened', hfullStored⟩ := stored_of_call hshape hstored'
  obtain ⟨hmirrors, hmissing⟩ :=
    mirrors_of_pass (folderNumbers numbers) hshape hopened ⟨hget, hstate⟩ hseen hexactly hsame
    hlisted fun uid hc => .inr hc
  obtain ⟨hmirrors', hmissing'⟩ :=
    mirrors_of_pass (folderNumbers numbers) hshape hopened' ⟨hget, hstate⟩ hseen hexactly hsame
    hfull fun uid _ => .inl rfl
  rw [hquickStored, hfullStored, ← hquickBatch, ← hfullBatch]
  refine ⟨fun identity => Option.ext fun flags => ?_, hmissing, hmissing', ?_⟩
  · exact (hmirrors identity flags).trans (hmirrors' identity flags).symm
  · rw [passBatch, passBatch, hmissing, hmissing']

/-! ### A mailbox whose message is read -/

/-- A mailbox of two messages, the second unread or read. -/
def twoMessages (read : Bool) : Mailbox where
  uidValidity := 1
  uidNext := 3
  uids := {1, 2}
  flags uid := ⟨uid = 2 ∧ read, false⟩
  gmailMsgId _ := none
  modseq uid := if uid = 2 ∧ read then 6 else 5
  highestModseq := if read then 6 else 5
  below := by simp
  highest := by cases read <;> simp
  once := by simp

/-- The second message is read at moment 2. -/
def readLater : MailboxHistory where
  moment n := twoMessages (2 ≤ n)
  lawful n := by
    refine .inr ⟨rfl, ⟨le_rfl, fun _ h h' => absurd h h', fun _ _ _ => rfl, ?_, ?_, ?_⟩⟩
    all_goals
      by_cases h₂ : 2 ≤ n
      · simp [twoMessages, h₂, Nat.le_succ_of_le h₂]
      · by_cases h₁ : 2 ≤ n + 1 <;> simp [twoMessages, h₂, h₁]

/-- A response with a message's flags. -/
def flagged (uid : UInt32) (seen : Bool) : Fetch :=
  ⟨some uid, some ⟨seen, false⟩, none, none, [], none⟩

theorem answers_moment {n : ℕ} {since : Option UInt64} {responses : List Fetch}
    (hsaid : ∀ fetch ∈ responses, (fetch.uid.all fun uid => uid ∈ (history.moment n).uids ∧
      lastFlags responses uid = some ((history.moment n).flags uid)) = true)
    (hanswered : ((history.moment n).uids.filter fun uid => (history.moment n).Named .all
      (.listing .standard since) uid) ⊆ (responses.filterMap Fetch.uid).toFinset) :
    history.Answers n n .all (.listing .standard since) responses := by
  refine ⟨fun _ uid ⟨fetch, hf, hu⟩ => ?_, fun uid hnamed hthere => ?_⟩
  · have hall := hsaid fetch hf
    rw [hu, Option.all_some, decide_eq_true_eq] at hall
    exact ⟨n, le_rfl, le_rfl, hall.1, hall.2, nofun⟩
  · have hmem := hanswered (Finset.mem_filter.mpr ⟨hthere n le_rfl le_rfl, hnamed⟩)
    rw [List.mem_toFinset, List.mem_filterMap] at hmem
    exact hmem

/-- A store whose inbox holds both messages, unread. -/
def holdingTwo : List (StoreCall × Circumstances) :=
  [(.replaceFolders inbox.account [⟨"INBOX", "INBOX", none, none, true⟩], ⟨false, none⟩),
    (.storeBatch inbox { FolderBatch.default with
      arrived := [⟨"imap:INBOX/1/1", ⟨none, none, none⟩, none, false, false, .notDownloaded, ""⟩,
        ⟨"imap:INBOX/1/2", ⟨none, none, none⟩, none, false, false, .notDownloaded, ""⟩] },
          ⟨false, none⟩)]

/-- What the inbox's cycle reads of it. -/
def twoStored : FolderSync :=
  ⟨.default, [("imap:INBOX/1/1", ⟨false, false⟩), ("imap:INBOX/1/2", ⟨false, false⟩)]⟩

theorem quick_pass_agrees_read :
    let numbers : MailboxNumbers := ⟨some 1, 2, some 3, some 6⟩
    let stores := fun listed plan => (call (Store.run .empty holdingTwo)
      (.storeBatch inbox (passBatch listed none twoStored (folderNumbers numbers) plan))
        ⟨false, none⟩).2
    ∀ identity, (stores [⟨"imap:INBOX/1/2", 2, ⟨true, false⟩⟩] (.changedFlags 5)).heldFlags inbox
      identity =
      (stores [⟨"imap:INBOX/1/1", 1, ⟨false, false⟩⟩, ⟨"imap:INBOX/1/2", 2, ⟨true, false⟩⟩]
        .everything).heldFlags
        inbox identity := by
  intro numbers stores
  have hreference : (readLater.moment 0).Opens ⟨some 1, 2, some 3, some 5⟩ :=
    ⟨fun _ h => Option.some.inj h, rfl, fun _ h => by cases h; rfl, fun _ h => by cases h; rfl⟩
  have hnumbers : (readLater.moment 2).Opens numbers :=
    ⟨fun _ h => Option.some.inj h, rfl, fun _ h => by cases h; rfl, fun _ h => by cases h; rfl⟩
  have hseen : ListedAt readLater (some "imap:INBOX/1/") 1 1 .everything
      [⟨"imap:INBOX/1/1", 1, ⟨false, false⟩⟩, ⟨"imap:INBOX/1/2", 2, ⟨false, false⟩⟩] :=
    ⟨.standard, [flagged 1 false, flagged 2 false], nofun, answers_moment (by decide)
      (by decide), by decide⟩
  have hlisted : ListedAt readLater (some "imap:INBOX/1/") 2 2 (.changedFlags 5)
      [⟨"imap:INBOX/1/2", 2, ⟨true, false⟩⟩] :=
    ⟨.standard, [flagged 2 true], nofun, answers_moment (by decide) (by decide), by decide⟩
  have hfull : ListedAt readLater (some "imap:INBOX/1/") 2 2 .everything
      [⟨"imap:INBOX/1/1", 1, ⟨false, false⟩⟩, ⟨"imap:INBOX/1/2", 2, ⟨true, false⟩⟩] :=
    ⟨.standard, [flagged 1 false, flagged 2 true], nofun, answers_moment (by decide)
      (by decide), by decide⟩
  have hread : (call (Store.run .empty holdingTwo) (.readFolderSync inbox) ⟨false, none⟩).1 =
      .ok twoStored := by
    decide
  have hexactly : Exactly [⟨"imap:INBOX/1/1", 1, ⟨false, false⟩⟩,
      ⟨"imap:INBOX/1/2", 2, ⟨false, false⟩⟩] twoStored := by
    refine ⟨by decide, fun identity flags hget => ?_⟩
    have hstored : identity ∈ ["imap:INBOX/1/1", "imap:INBOX/1/2"] :=
      get_isSome_iff.mp (Option.isSome_iff_exists.mpr ⟨flags, hget⟩)
    rw [List.mem_cons, List.mem_singleton] at hstored
    rcases hstored with rfl | rfl
    · exact ⟨_, List.mem_cons_self, rfl, Option.some.inj (Eq.trans (by decide) hget)⟩
    · exact ⟨_, List.mem_cons_of_mem _ List.mem_cons_self, rfl,
        Option.some.inj (Eq.trans (by decide) hget)⟩
  have hplan : passPlan (folderNumbers numbers) (some (folderNumbers ⟨some 1, 2, some 3, some 5⟩))
      false = .changedFlags 5 := by
    decide
  have hstored : (call (Store.run .empty holdingTwo)
    (.storeBatch inbox (passBatch [⟨"imap:INBOX/1/2", 2, ⟨true, false⟩⟩]
      none twoStored (folderNumbers numbers) (.changedFlags 5))) ⟨false, none⟩).1 =
        .ok .stored := by decide
  have hstored' : (call (Store.run .empty holdingTwo) (.storeBatch inbox (passBatch
      [⟨"imap:INBOX/1/1", 1, ⟨false, false⟩⟩, ⟨"imap:INBOX/1/2", 2, ⟨true, false⟩⟩]
      none twoStored (folderNumbers numbers) .everything)) ⟨false, none⟩).1 =
        .ok .stored := by decide
  exact (quick_pass_agrees (by decide) (by decide) hreference hnumbers hseen holdingTwo hread
    hexactly hplan nofun
    hlisted hfull rfl rfl hstored hstored').1

end Mailbag.Cycle
