import Mailbag.Cycle.ServerReports
import Mailbag.Cycle.QuickPass

/-!
# What a cycle leaves that ends with the folder synchronized

A cycle of a Generic IMAP folder that ends without a refusal ends with a state pass that
missed no message, the first one or the second. Whatever the plan of that pass, the folder
is then marked with the numbers of the latest opening, and either these numbers alone call
for no listing, or the folder holds what a listing since that opening reported.

## What is proved

* `settledPass_safe` — a pass that misses no message leaves the folder so (`PassLeft`).
* `synchronizeImapFolder_settles` — so does a cycle that ends with the folder synchronized
  and no refusal (`Settled`), for every server.
-/

namespace Mailbag.Cycle

open Collections Imap Interaction Program Relation Store

variable {S : Server ImapCommand.Reply} {folder : FolderRef} {h h' : History S}
  {s u : S.World × Tables} {t t' : Tables} {listed : List ListedMessage} {plan : PassPlan}
  {numbers : MailboxNumbers}

/-! ### The folder after a pass -/

/-- The folder is marked synchronized with the numbers. -/
def MarkedWith (folder : FolderRef) (numbers : MailboxNumbers) (t : Tables) : Prop :=
  ∃ state, t.state? folder = some state ∧ state.synchronized = true ∧
    state.numbers = some (folderNumbers numbers)

/-- The folder holds the listed messages, with the flags listed. -/
def Reflects (listed : List ListedMessage) (folder : FolderRef) (t : Tables) : Prop :=
  ∀ identity flags, t.heldFlags folder identity = some flags ↔
    ∃ message ∈ listed, message.identity = identity ∧ message.flags = flags

/-- What a pass that missed no message leaves of the tables: the folder is marked, and holds
what a listing of every message showed. -/
structure Done (folder : FolderRef) (numbers : MailboxNumbers) (plan : PassPlan)
    (listed : List ListedMessage) (t : Tables) : Prop where
  /-- The mark. -/
  marked : MarkedWith folder numbers t
  /-- The messages. -/
  reflects : plan = .everything → Reflects listed folder t

theorem Done.kept (hd : Done folder numbers plan listed t) (hk : Kept t t') :
    Done folder numbers plan listed t' := by
  obtain ⟨⟨state, hstate, hmark⟩, hreflects⟩ := hd
  refine ⟨⟨state, (hk.toStays.state folder).trans hstate, hmark⟩, fun hplan identity flags => ?_⟩
  rw [hk.heldFlags]
  exact hreflects hplan identity flags

/-- What a pass's batch made of a folder that was as the cycle read it. -/
structure Applied (folder : FolderRef) (stored : FolderSync) (batch : FolderBatch)
    (t : Tables) : Prop where
  /-- The messages. -/
  heldFlags : ∀ identity, t.heldFlags folder identity =
    if identity ∈ batch.removed then none
    else (stored.get identity).map fun flags => (latest identity batch.flagStates).getD flags
  /-- The state. -/
  state : t.state? folder = some (batch.state.getD stored.state)

section Applied

variable {stored : FolderSync} {refusal : Option ServerReply} {folderId : ℕ}

theorem Current.applied (hc : Current folder stored t) : Applied folder stored .default t :=
  ⟨fun identity => by rw [← hc.heldFlags identity]; cases stored.get identity <;> rfl, hc.state⟩

theorem applied_of_applyBatch (hshape : Shape t) (ho : t.Opened folder folderId)
    (hc : Current folder stored t) (numbers : FolderNumbers) :
    Applied folder stored (passBatch listed refusal stored numbers plan)
      (t.applyBatch folderId folder.account (passBatch listed refusal stored numbers plan)) := by
  refine ⟨fun identity => ?_, ?_⟩
  · rw [passBatch_heldFlags hshape ho, hc.heldFlags identity]
  · rw [applyBatch_state hshape ho, hc.state]
    cases (passBatch listed refusal stored numbers plan).state <;> rfl

/-- A pass that misses a message leaves the folder not completed. -/
theorem Applied.unmarked {numbers : FolderNumbers}
    (ha : Applied folder stored (passBatch listed refusal stored numbers plan) t)
    (hmissing : missingMessages listed stored ≠ []) : t.state? folder = some .default := by
  rw [ha.state, passBatch, passState, if_pos (by simpa using hmissing)]
  rfl

/-- After a listing of every message the folder holds only what was listed, as it was listed. -/
theorem Applied.only_listed {numbers : FolderNumbers}
    (ha : Applied folder stored (passBatch listed none stored numbers .everything) t)
    (hone : OnePerIdentity listed) {identity : String} {flags : MessageFlags}
    (hflags : t.heldFlags folder identity = some flags) :
    ∃ message ∈ listed, message.identity = identity ∧ message.flags = flags := by
  rw [ha.heldFlags identity] at hflags
  split at hflags
  · cases hflags
  · rename_i hkept
    obtain ⟨flags', hget, rfl⟩ := Option.map_eq_some_iff.mp hflags
    have hmem : identity ∈ listed.map ListedMessage.identity := by
      by_contra hnot
      exact hkept (mem_removed.mpr
        ⟨rfl, rfl, get_isSome_iff.mp (Option.isSome_iff_exists.mpr ⟨_, hget⟩), hnot⟩)
    obtain ⟨message, hm, rfl⟩ := List.mem_map.mp hmem
    exact ⟨message, hm, rfl, (passBatch_listed hone hm hget).symm⟩

/-- **A pass that completed its listing and misses no message.** -/
theorem Applied.done
    (ha : Applied folder stored (passBatch listed none stored (folderNumbers numbers) plan) t)
    (hmissing : missingMessages listed stored = [])
    (hone : plan = .everything → OnePerIdentity listed) : Done folder numbers plan listed t := by
  refine ⟨⟨_, ha.state, ?_⟩, ?_⟩
  · rw [passBatch, passState, if_neg (by simp [hmissing])]
    dsimp only
    split
    · exact ⟨rfl, rfl⟩
    · rename_i hmarked
      simpa using hmarked
  · rintro rfl identity flags
    have hone := hone rfl
    have hheld : ∀ message ∈ listed, (stored.get message.identity).isSome := by
      intro message hm
      rw [Option.isSome_iff_ne_none]
      intro hnone
      have hmem := mem_missingMessages.mpr ⟨hm, hnone⟩
      rw [hmissing] at hmem
      exact List.not_mem_nil hmem
    constructor
    · exact ha.only_listed hone
    · rintro ⟨message, hm, rfl, rfl⟩
      obtain ⟨flags', hget⟩ := Option.isSome_iff_exists.mp (hheld message hm)
      rw [ha.heldFlags message.identity,
        if_neg fun hr => (mem_removed.mp hr).2.2.2 (List.mem_map_of_mem hm), hget, Option.map_some,
        passBatch_listed hone hm hget]

end Applied

theorem setFlag_flagOf (flag : MessageFlag) (flags : MessageFlags) :
    setFlag flag (flagOf flag flags) flags = flags := by
  cases flag <;> rfl

/-- **A value the listing shows** changes nothing when it is settled. -/
theorem Done.settled (hd : Done folder numbers plan listed t) {identities : List String}
    {flag : MessageFlag} {value : Bool}
    (hshown : ∀ identity ∈ identities, ∃ message, latest identity (byIdentity listed) =
      some message ∧ flagOf flag message.flags = value)
    (met : Circumstances) :
    Done folder numbers plan listed
      (call t (.settleFlags folder.account identities flag value) met).2 := by
  have hstays : Stays t (call t (.settleFlags folder.account identities flag value) met).2 :=
    call_stays id t met
  obtain ⟨⟨state, hstate, hmark⟩, hreflects⟩ := hd
  refine ⟨⟨state, (hstays.state folder).trans hstate, hmark⟩, fun hplan identity flags => ?_⟩
  rw [settle_heldFlags, ← hreflects hplan identity flags]
  split
  · rename_i hsettled
    obtain ⟨message, hlatest, rfl⟩ := hshown identity hsettled.2
    obtain ⟨hm, rfl⟩ := mem_of_byIdentity hlatest
    rw [(hreflects hplan _ _).mpr ⟨message, hm, rfl, rfl⟩, Option.map_some, setFlag_flagOf]
  · rfl

/-! ### The cycle -/

/-- What a listing of every message showed under the numbers of the latest opening: nothing
of an empty mailbox, or what a listing completed since that opening reported. -/
inductive ListedSince (folder : FolderRef) (numbers : MailboxNumbers) :
    List ListedMessage → History S → Prop
  /-- Nothing was listed. -/
  | empty {h : History S} : numbers.messageCount = 0 → ListedSince folder numbers [] h
  /-- A listing was. -/
  | listing {h₁ h₂ : History S} {l : Happened S} {answer : FetchAnswer}
      {generic : Option String} : Lists l none answer →
      answer.ended = none → (∀ e ∈ h₂, opening? e = none) →
        genericPrefix .generic folder.identity numbers.uidValidity = .ok generic →
          ListedSince folder numbers (identified generic (listing answer.responses)) (h₁ ++ l :: h₂)

/-- What a cycle leaves that ends with the folder synchronized. -/
structure Settled (folder : FolderRef) (numbers : MailboxNumbers) (h : History S)
    (t : Tables) : Prop where
  /-- The mark. -/
  marked : MarkedWith folder numbers t
  /-- The numbers alone call for no listing, or the folder holds what was listed. -/
  rows : passPlan (folderNumbers numbers) (some (folderNumbers numbers)) false = .nothing ∨
    ∃ listed, ListedSince folder numbers listed h ∧ Reflects listed folder t

/-- Nothing is asked of an event. -/
def Anything (_ : History S) (_ : Happened S) : Prop := True

/-- Numbers that made a quick plan call for no listing when they come again. -/
theorem passPlan_again {numbers : FolderNumbers} {reference : Option FolderNumbers} {pending : Bool}
    (hquick : passPlan numbers reference pending ≠ .everything) :
    passPlan numbers (some numbers) false = .nothing := by
  cases reference with
  | none => exact absurd rfl hquick
  | some reference =>
    rw [passPlan] at hquick
    cases hr : reference.highestModseq with
    | none => simp [hr] at hquick
    | some since =>
      cases hn : numbers.highestModseq with
      | none => simp [hr, hn] at hquick
      | some highestModseq =>
        simp only [hr, hn] at hquick
        split at hquick
        · rename_i hsame
          obtain ⟨⟨hv, -, -, hu, -⟩, -⟩ := hsame
          simp [passPlan, hn, hv, hu]
        · exact absurd rfl hquick

theorem ListedSince.append {tr : History S} (hl : ListedSince folder numbers listed h)
    (htr : ∀ e ∈ tr, ByStore e) : ListedSince folder numbers listed (h ++ tr) := by
  cases hl with
  | empty hcount => exact .empty hcount
  | @listing h₁ h₂ l answer generic hlists hended hquiet hgeneric =>
    rw [List.append_assoc, List.cons_append]
    refine .listing hlists hended (fun e he => ?_) hgeneric
    rcases List.mem_append.mp he with he | he
    · exact hquiet e he
    · obtain ⟨op, hop⟩ := htr e he
      obtain ⟨before, o, answer, after⟩ := e
      cases hop
      rfl

theorem identified_onePerIdentity (start : String) (responses : List Fetch) :
    OnePerIdentity (identified (some start) (Imap.listing responses)) := by
  intro m hm m' hm' he
  obtain ⟨-, hi, hflags⟩ := mem_identified.mp hm
  obtain ⟨-, hi', hflags'⟩ := mem_identified.mp hm'
  have huid : m.uid = m'.uid := generic_injective (hi.trans (he ▸ hi'.symm))
  rw [← huid] at hflags'
  cases m
  cases m'
  exact (ListedMessage.mk.injEq ..).mpr ⟨he, huid, hflags.trans hflags'.symm⟩

theorem ListedSince.onePerIdentity (hl : ListedSince folder numbers listed h) :
    OnePerIdentity listed := by
  cases hl with
  | empty => exact fun m hm => absurd hm List.not_mem_nil
  | @listing h₁ h₂ l answer generic hlists hended hquiet hgeneric =>
    cases hv : numbers.uidValidity with
    | none =>
      rw [hv] at hgeneric
      cases hgeneric
    | some v =>
      rw [hv] at hgeneric
      cases hgeneric
      exact identified_onePerIdentity _ _

section Walk

theorem steady_anything {J : History S → S.World × Tables → Prop}
    (hJ : ∀ h s u, J h s → Kept s.2 u.2 → ∀ tr, J (h ++ tr) u) : Steady J Anything :=
  steady_of_kept (fun _ _ _ => trivial) (fun _ _ _ => trivial) hJ

theorem shape_anything : Steady (fun (_ : History S) s => Shape s.2) Anything :=
  steady_anything fun _ _ _ hs hkept _ => hkept.shape hs

theorem shape_safe (hs : Shape s.2) (op : StoreCall) :
    Safe (surroundings S) Anything h s (storeCall op) fun result h' u =>
      Called (fun _ t => Shape t.2) op result h h' s u ∧
      Passes (fun _ t => Shape t.2) ByStore h h' s u := by
  refine (storeCall_safe shape_anything hs fun _ _ _ _ _ _ => trivial).mono fun _ _ _ hcalled =>
    ⟨hcalled, ?_⟩
  obtain ⟨s', met, -, -, hs', -, hcall, -⟩ := hcalled.moment
  have hshape := call_shape hs' op met
  rw [hcall] at hshape
  exact Passes.of_called hcalled hshape

theorem shapeStore_safe (hs : Shape s.2) (batches : BatchWriter) (batch : FolderBatch) :
    Safe (surroundings S) Anything h s (batches.store batch) fun _ h' u =>
      ((batch = .default ∧ h' = h ∧ u = s) ∨ Called (fun _ t => Shape t.2)
        (.storeBatch batches.folder batch) .stored h h' s u) ∧
        Passes (fun _ t => Shape t.2) ByStore h h' s u := by
  refine (store_safe shape_anything hs fun _ _ _ _ _ _ => trivial).mono fun _ tr u hstored =>
    ⟨hstored, ?_⟩
  rcases hstored with ⟨-, heq, rfl⟩ | hcalled
  · rw [heq]
    exact .refl hs
  · obtain ⟨s', met, -, -, hs', -, hcall, -⟩ := hcalled.moment
    have hshape := call_shape hs' (.storeBatch batches.folder batch) met
    rw [hcall] at hshape
    exact Passes.of_called hcalled hshape

/-- What a pass leaves. -/
structure PassLeft (folder : FolderRef) (numbers : MailboxNumbers) (plan : PassPlan)
    (stored : FolderSync) (pass : StatePass) (h : History S) (s : S.World × Tables) : Prop where
  /-- The store's shape. -/
  shape : Shape s.2
  /-- The numbers of the latest opening. -/
  opened : numbersAt h = some numbers
  /-- A folder that misses a message is not completed. -/
  unmarked : missingMessages pass.listed stored ≠ [] → s.2.state? folder = some .default
  /-- One that misses none is, once the listing completed. -/
  done : pass.refusal = none → missingMessages pass.listed stored = [] →
    Done folder numbers plan pass.listed s.2
  /-- What a listing of every message showed. -/
  listed : pass.refusal = none → plan = .everything → ListedSince folder numbers pass.listed h

/-- **A pass**, on the session that opened the mailbox last. -/
theorem settledPass_safe {batches : BatchWriter} {server : ImapFolder} {stored : FolderSync}
    (hrule : server.identityRule = .generic) (hs : Shape s.2)
    (hn : numbersAt h = some server.reader.numbers)
    (hconnected : server.reader.needsReconnect = false)
    (hcurrent : Current batches.folder stored s.2) :
    Safe (surroundings S) Anything h s
    (runStatePass server stored (folderNumbers server.reader.numbers) batches plan)
      fun r h' u => PassLeft batches.folder server.reader.numbers plan stored r.1 h' u ∧
        OnePerUid r.1.listed ∧
        r.2.identityRule = .generic := by
  refine (runStatePass_safe (Q := fun pass _ h' u =>
    PassLeft batches.folder server.reader.numbers plan stored pass h' u ∧ OnePerUid pass.listed)
      shape_anything hs ?_).mono
      fun _ _ _ hq => ⟨hq.1.1, hq.1.2, hq.2.trans hrule⟩
  intro listed refusal reader' h' s' hpass
  -- the listing is the command right after the opening
  have hlisted : numbersAt h' = some server.reader.numbers ∧
      (refusal = none → plan = .everything → ListedSince batches.folder server.reader.numbers listed
        h') := by
    cases hpass with
    | unlisted hnone =>
      refine ⟨hn, ?_⟩
      rintro - rfl
      exact .empty (hnone.resolve_left nofun)
    | @listed items since answer generic _ _ _ _ _ _ hplan hasked hgeneric hended =>
      obtain ⟨h₁, s₁, s₂, hc, -, -, heq, -, -, -, -, hsame⟩ := hasked.moment
      rw [hsame hconnected] at hc heq
      have hreader : reader'.numbers = server.reader.numbers :=
        Option.some.inj ((hc.tracks hn).symm.trans hn)
      rw [heq]
      refine ⟨by rw [numbersAt_append_one]; exact hn, ?_⟩
      rintro hrefusal rfl
      cases hplan
      rw [hrule, MailboxReader.uidValidity, hreader] at hgeneric
      exact .listing ⟨s₂, items, s', rfl⟩ (hended.mp hrefusal)
        (fun _ he => absurd he List.not_mem_nil) hgeneric
  refine (shapeStore_safe (hpass.steady hs) batches _).mono ?_
  rintro _ tr u ⟨hstored, hpasses⟩
  have hbyStore := hpasses.events
  have happlied : Applied batches.folder stored
      (passBatch listed refusal stored (folderNumbers server.reader.numbers) plan) u.2 := by
    rcases hstored with ⟨hdefault, -, rfl⟩ | hcalled
    · rw [hdefault]
      exact (hcurrent.kept hpass.tables).applied
    · obtain ⟨s'', met, -, hkept, hs'', hsame, hcall, -⟩ := hcalled.moment
      obtain ⟨folderId, ho, htables⟩ := applied_of_stored hs'' (answered_of_call hsame hcall)
      rw [htables]
      exact applied_of_applyBatch hs'' ho ((hcurrent.kept hpass.tables).kept hkept) _
  refine ⟨⟨hpasses.steady, (numbersAt_of_byStore hbyStore).trans hlisted.1, happlied.unmarked, ?_,
    fun hrefusal hplan => (hlisted.2 hrefusal hplan).append hbyStore⟩, hpass.onePerUid⟩
  rintro rfl hmissing
  exact happlied.done hmissing fun hplan => (hlisted.2 rfl hplan).onePerIdentity

/-- **What a pass leaves that missed no message** stays through calls of the store that
leave the folder so. -/
theorem PassLeft.settled {stored : FolderSync} {pass : StatePass} {reference : Option FolderNumbers}
    {pending : Bool} (hleft : PassLeft folder numbers plan stored pass h s)
    (hrefusal : pass.refusal = none)
    (hplan : passPlan (folderNumbers numbers) reference pending = plan) (tr : History S)
    (htr : ∀ e ∈ tr, ByStore e) (hdone : Done folder numbers plan pass.listed t) :
    numbersAt (h ++ tr) = some numbers ∧ Settled folder numbers (h ++ tr) t := by
  refine ⟨(numbersAt_of_byStore htr).trans hleft.opened, hdone.marked, ?_⟩
  by_cases heverything : plan = .everything
  · exact .inr ⟨_, (hleft.listed hrefusal heverything).append htr, hdone.reflects heverything⟩
  · exact .inl (passPlan_again (hplan ▸ heverything))

/-- What a cycle ends with: unless it says otherwise, a folder marked synchronized is settled. -/
def Ends (folder : FolderRef) (result : LoadResult) (h : History S) (s : S.World × Tables) : Prop :=
  result = .stored none → (s.2.state? folder).any FolderState.synchronized →
    ∃ numbers, numbersAt h = some numbers ∧ Settled folder numbers h s.2

/-- A pass that misses a message does not end the cycle with the folder synchronized. -/
theorem PassLeft.missed {stored : FolderSync} {pass : StatePass} {result : LoadResult}
    (hleft : PassLeft folder numbers plan stored pass h s)
    (hmissing : missingMessages pass.listed stored ≠ []) : Ends folder result h s := by
  intro _ hsynchronized
  rw [hleft.unmarked hmissing] at hsynchronized
  cases hsynchronized

/-- **The second pass** settles the folder, or misses a message. -/
theorem secondPass_settles {batches : BatchWriter} {server : ImapFolder}
    {firstNumbers : FolderNumbers} {firstRefusal : Option ServerReply}
    (hrule : server.identityRule = .generic) (hs : Shape s.2) :
    Safe (surroundings S) Anything h s (secondPass batches firstNumbers firstRefusal server)
      (Ends batches.folder) := by
  refine (Safe.mapFail (reopen_safe shape_anything hs)).bind ?_
  rintro reader tr u ⟨hcontinues, ⟨c, answer, before, heq, hopening, -⟩, hconnected⟩
  have hn : numbersAt (h ++ tr) = some reader.numbers := by
    rw [heq, numbersAt_append_one, hopening, Option.some_or]
  refine (shape_safe hcontinues.steady _).bind ?_
  rintro storedNow tr' v ⟨hcalled, hp⟩
  have hn' : numbersAt (h ++ tr ++ tr') = some reader.numbers :=
    (Proceeds.of_byStore reader hp).tracks hn
  have hrule' : ({ server with reader } : ImapFolder).identityRule = .generic := hrule
  refine (settledPass_safe hrule' hp.steady hn' hconnected
    (hcalled.current hcontinues.steady)).bind ?_
  rintro ⟨second, server'⟩ tr'' w ⟨hleft, -⟩
  refine .done ?_
  by_cases hmissing : missingMessages second.listed storedNow = []
  · intro hresult _
    obtain ⟨-, hrefusal⟩ : firstRefusal = none ∧ second.refusal = none := by
      simpa [BatchWriter.finish] using hresult
    have hsettled := hleft.settled hrefusal rfl [] (fun _ he => absurd he List.not_mem_nil)
      (hleft.done hrefusal hmissing)
    rw [List.append_nil] at hsettled
    exact ⟨_, hsettled⟩
  · exact hleft.missed hmissing

theorem endChanges_done {batches : BatchWriter} {pending : List PendingChange} {C : Prop}
    (hs : Shape s.2) (hdone : C → Done batches.folder numbers plan listed s.2) :
    Safe (surroundings S) Anything h s (endChangesTheListingShows listed pending batches)
    fun _ h' u =>
      Passes (fun _ t => Shape t.2 ∧ (C → Done batches.folder numbers plan listed t.2)) ByStore h h'
      s u := by
  have hsteady : Steady (fun (_ : History S) t => Shape t.2 ∧
      (C → Done batches.folder numbers plan listed t.2)) Anything :=
    steady_anything fun _ _ _ hs hkept _ => ⟨hkept.shape hs.1, fun hc => (hs.2 hc).kept hkept⟩
  refine endChangesTheListingShows_safe
    (J := fun _ t => Shape t.2 ∧ (C → Done batches.folder numbers plan listed t.2))
    ⟨hs, hdone⟩ fun flag value identities hshown h' s' hp => ?_
  refine (storeCall_safe hsteady hp.steady fun _ _ _ _ _ _ => trivial).mono fun _ tr u hcalled =>
    Passes.of_called hcalled ?_
  obtain ⟨s'', met, -, -, hs'', -, hcall, -⟩ := hcalled.moment
  have htables : u.2 = (call s''.2 (.settleFlags batches.folder.account identities flag value)
      met).2 := by rw [hcall]
  rw [htables]
  exact ⟨call_shape hs''.1 _ met, fun hc => (hs''.2 hc).settled
    (fun identity hi => (hshown identity hi).2) met⟩

theorem fetchMissing_shape (hs : Shape s.2) {rules : ContentRules} {recentLimit : ℤ}
    {batches : BatchWriter} {stored : FolderSync} {server : ImapFolder}
    (hrule : server.identityRule = .generic) {sent : SentChanges} (hone : OnePerUid listed) :
    Safe (surroundings S) Anything h s
      (fetchMissing rules recentLimit batches listed
        ((missingMessages listed stored).toChunks batchSize) server sent)
      fun r h' u => Shape u.2 ∧
        (∀ server' sent', r = .inr (server', sent') → server'.identityRule = .generic) ∧
        (missingMessages listed stored = [] → r = .inr (server, sent) ∧ h' = h ∧ u = s) := by
  by_cases hmissing : missingMessages listed stored = []
  · rw [hmissing]
    exact .done ⟨hs, fun _ _ he => by cases he; exact hrule, fun _ => ⟨rfl, rfl, rfl⟩⟩
  · refine (fetchMissing_safe (I := fun _ _ t => Shape t.2) (fun _ => shape_anything) hs ?_ ?_
      ?_).mono ?_
    · intro chunk hchunk m hm m' hm'
      exact hone m (mem_missingMessages.mp (mem_of_mem_toChunks hchunk hm)).1 m'
        (mem_missingMessages.mp (mem_of_mem_toChunks hchunk hm')).1
    · intro chunk rest batch refusal h₁ s₁ h₂ s₂ _ _ hf
      exact (shapeStore_safe hf.steady _ _).mono fun _ _ _ hq => hq.2
    · intro rest flag wanted identities h₁ s₁ h₂ s₂ _ _ hs'
      exact (shape_safe hs' _).mono fun _ _ _ hq => hq.2
    · rintro r tr u ⟨rest, hp, hr⟩
      refine ⟨hp.steady, ?_, fun h => absurd h hmissing⟩
      rintro server' sent' rfl
      exact hr.2.2.trans hrule

/-- **A cycle that ends without a refusal** leaves a folder marked synchronized settled. -/
theorem synchronizeImapFolder_settles (rules : ContentRules) (recentLimit : ℤ)
    (batches : BatchWriter) (hs : Shape s.2) :
    Safe (surroundings S) Anything [] s (synchronizeImapFolder rules .generic recentLimit batches)
      (Ends batches.folder) := by
  refine Safe.bind (R := fun server h u => numbersAt h = some server.reader.numbers ∧ Shape u.2 ∧
    server.reader.needsReconnect = false ∧ server.identityRule = .generic) ?_ ?_
  · refine (Safe.mapFail (openMailbox_safe shape_anything hs)).bind ?_
    rintro reader tr u ⟨hn, hp, -, -, hconnected⟩
    exact .done ⟨hn, hp.steady, hconnected, rfl⟩
  rintro server tr u ⟨hn, hu, hconnected, hrule⟩
  refine (shape_safe hu _).bind ?_
  rintro stored tr₁ u₁ ⟨hcalled₁, hp₁⟩
  refine (shape_safe hp₁.steady _).bind ?_
  rintro pending tr₂ u₂ ⟨hcalled₂, hp₂⟩
  have hn₂ := ((Proceeds.of_byStore server.reader hp₁).trans (.of_byStore _ hp₂)).tracks hn
  refine (settledPass_safe hrule hp₂.steady hn₂ hconnected
    ((hcalled₁.current hu).kept (hcalled₂.kept id id))).bind ?_
  rintro ⟨first, server₁⟩ tr₃ u₃ ⟨hleft, hone, hrule₁⟩
  refine (endChanges_done (C := first.refusal = none ∧ missingMessages first.listed stored = [])
    hleft.shape
    fun hc => hleft.done hc.1 hc.2).bind ?_
  rintro _ tr₄ u₄ hended
  refine (sendImapChanges_safe shape_anything hended.steady.1 fun _ _ _ _ _ _ hs' =>
    (shape_safe hs' _).mono fun _ _ _ hq => hq.2).bind ?_
  rintro ⟨reader, sent⟩ tr₅ u₅ ⟨hsent, hnothing⟩
  have hrule₂ : ({ server₁ with reader } : ImapFolder).identityRule = .generic := hrule₁
  refine (fetchMissing_shape hsent.steady hrule₂ hone).bind ?_
  rintro fetched tr₆ u₆ ⟨hu₆, hfetched, hnone⟩
  cases fetched with
  | inl refusal => exact .done nofun
  | inr r =>
    obtain ⟨server₂, sent₂⟩ := r
    dsimp only
    split
    · exact secondPass_settles (hfetched _ _ rfl) hu₆
    · rename_i hends
      -- nothing was fetched and nothing sent: the cycle ends as the first pass left it
      obtain ⟨hmissing, hsent₂⟩ : missingMessages first.listed stored = [] ∧ sent₂ = [] := by
        simpa using hends
      obtain ⟨hsame, hh, rfl⟩ := hnone hmissing
      cases hsame
      obtain ⟨-, -, hread, hkept⟩ := hnothing hsent₂
      refine .done fun hresult _ => ?_
      have hrefusal : first.refusal = none := by simpa [BatchWriter.finish] using hresult
      have hafter := hleft.settled hrefusal rfl (tr₄ ++ tr₅)
        (fun e he => (List.mem_append.mp he).elim (hended.events e) (hread.events e))
        ((hended.steady.2 ⟨hrefusal, hmissing⟩).kept hkept)
      rw [hh, List.append_assoc _ tr₄ tr₅]
      exact ⟨_, hafter⟩

end Walk

end Mailbag.Cycle
