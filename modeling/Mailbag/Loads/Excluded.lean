import Mailbag.Loads.EndsOnce
import Mailbag.Store.Frames

/-!
# An excluded account's mail does not come back

A complete answer of Online Accounts that leaves an account out, or lists it with Mail off,
cancels the load that runs for it and starts a deletion of its stored mail. The load may be
anywhere then: it may wait for its access, for its server or for the store. What it still
asks of the store creates nothing, because a cancelled load's folder list and batches are
not written and its other calls only change messages that are there.

## What is proved

* `writes_of_step` — what one step does to the stored mail.
* `Cancelled.step` — a load that is cancelled stays cancelled.
* `excluded_stays_deleted` — the account's mail does not come back.
-/

namespace Mailbag.Loads

open Cycle Interaction OnlineAccounts Relation Store

/-- The change creates no folder, message or membership of the account. -/
structure CreatesNone (account : AccountId) (t u : Tables) : Prop where
  /-- No folder. -/
  folders : ∀ identity, (u.folder? account.asStr identity).isSome →
    (t.folder? account.asStr identity).isSome
  /-- No message. -/
  messages : ∀ identity, (u.message? account.asStr identity).isSome →
    (t.message? account.asStr identity).isSome
  /-- No membership. -/
  memberships : ∀ folder identity, u.Holds account.asStr folder identity →
    t.Holds account.asStr folder identity

theorem CreatesNone.of_stays {account : AccountId} {t u : Tables} (h : Stays t u) :
    CreatesNone account t u where
  folders identity hsome := by rwa [Tables.folder?, h.folders] at hsome
  messages identity hsome := by
    have hvalues := h.values account.asStr identity
    rw [Tables.values?, Tables.values?, Option.isSome_map, Option.isSome_map] at hvalues
    rwa [hvalues] at hsome
  memberships folder identity hholds := (h.holds account.asStr folder identity).mp hholds

/-- The tables have no folder of the account. -/
def NoFolder (account : AccountId) (t : Tables) : Prop := ∀ f ∈ t.folders, f.account ≠ account.asStr

theorem NoFolder.of_part {account : AccountId} {t u : Tables} (h : NoFolder account t)
    (hpart : u.part account.asStr = t.part account.asStr) : NoFolder account u := by
  intro f hf hfaccount
  have hmem : f ∈ (u.part account.asStr).folders :=
    List.mem_filter.mpr ⟨hf, by simpa using hfaccount⟩
  rw [hpart] at hmem
  exact h f (List.mem_of_mem_filter hmem) hfaccount

theorem NoFolder.of_empty {account : AccountId} {t : Tables}
    (h : t.part account.asStr = .empty) : NoFolder account t := by
  intro f hf hfaccount
  have hmem : f ∈ (t.part account.asStr).folders :=
    List.mem_filter.mpr ⟨hf, by simpa using hfaccount⟩
  rw [h] at hmem
  cases hmem

theorem NoFolder.of_stays {account : AccountId} {t u : Tables} (h : NoFolder account t)
    (hstays : Stays t u) : NoFolder account u := by
  rw [NoFolder, hstays.folders]
  exact h

theorem account_of_asks {load : Load}
    (htarget : ∀ folder, load.target = .mailbox folder → folder.account = load.account)
    {call : StoreCall} (h : load.asks call) : call.account? = some load.account := by
  cases call with
  | replaceFolders | storedIdentities | settleFlags | dropPendingFlags => exact congrArg some h.2
  | readFolderSync folder | identitiesInOtherFolders folder | storeBatch folder
  | readPendingChanges folder =>
    exact congrArg some (htarget folder h)
  | writePendingFlag | readFolderRows | deleteOtherAccounts => exact absurd h id

/-- A cancelled load's calls move no message and change no folder: its folder list and its batches
are not written. -/
theorem call_cancelled {load : Load} {call : StoreCall} (h : load.asks call) (t : Tables)
    (fault : Option StoreError) : Stays t (Store.call t call ⟨true, fault⟩).2 := by
  have hnothing : (Store.call t call ⟨true, fault⟩).2 = t →
      Stays t (Store.call t call ⟨true, fault⟩).2 := fun heq => by
    rw [heq]
    exact .refl t
  cases call with
  | replaceFolders | storeBatch => exact hnothing (by cases fault <;> rfl)
  | deleteOtherAccounts => exact absurd h id
  | _ => exact call_stays id t _

namespace World

variable {w w' : World} {fromPanic : Option String → Failure}

/-! ### What a step does to the stored mail -/

/-- What one step does to the stored mail. -/
inductive Writes (w w' : World) : Prop
  /-- Nothing. -/
  | nothing (h : w'.tables = w.tables)
  /-- A load that runs asks the store. -/
  | load (t i : ℕ) (call : StoreCall) (fault : Option StoreError)
      (hrunning : (w.threads t).running = some i) (hcall : (w.loads i).asks call)
      (h : w'.tables = (Store.call w.tables call ⟨(w.loads i).cancelled, fault⟩).2)
  /-- Other accounts are deleted. -/
  | delete (kept : List AccountId) (fault : Option StoreError)
    (h : w'.tables = (call w.tables (.deleteOtherAccounts kept) ⟨false, fault⟩).2)
  /-- A flag the user wants is written. -/
  | flag (account : AccountId) (identity : String) (flag : MessageFlag) (wanted : Bool)
      (fault : Option StoreError)
      (h : w'.tables = (call w.tables (.writePendingFlag account identity flag wanted)
        ⟨false, fault⟩).2)

theorem dropCancellation_tables (w : World) (cancellation : Option ℕ) :
    (w.dropCancellation cancellation).tables = w.tables := by cases cancellation <;> rfl

theorem askStore_tables (w : World) (i : ℕ) (call : StoreCall) (fault : Option StoreError) :
    (w.askStore i call fault).tables =
      (Store.call w.tables call ⟨(w.loads i).cancelled, fault⟩).2 := by
  unfold World.askStore
  dsimp only
  split <;> rfl

/-- **What one step does to the stored mail.** -/
theorem writes_of_step (hstep : Step fromPanic w w') : Writes w w' := by
  cases hstep with
  | refreshMailbox | refreshAccount =>
    refine .nothing ?_
    rw [World.startLoad]
    split <;> rfl
  | update update =>
    refine .nothing ?_
    unfold World.applyAccountUpdate
    dsimp only
    split <;> exact dropCancellation_tables _ _
  | quit => exact .nothing (dropCancellation_tables _ _)
  | @accessGiven i =>
    refine .nothing ?_
    have hspawn : w.spawn.tables = w.tables := by
      unfold World.spawn
      cases w.worker <;> rfl
    show w.queue.2.tables = w.tables
    unfold World.queue
    split
    · split
      · exact hspawn
      · rfl
    · exact hspawn
  | accessRefused | take | finish | unwindRunning | unwindIdle | close => exact .nothing rfl
  | accessFailed | accessCancelled | reportStopped => exact .nothing rfl
  | @report i event => cases event <;> exact .nothing rfl
  | @askStore t i hrunning call hcall fault =>
    exact .load t i call fault hrunning hcall (askStore_tables w i call fault)
  | @delete kept _ fault => exact .delete kept fault rfl
  | writeFlag account identity flag wanted fault =>
    exact .flag account identity flag wanted fault rfl

theorem shape_of_step (h : Shape w.tables) (hstep : Step fromPanic w w') : Shape w'.tables := by
  cases writes_of_step hstep with
  | nothing heq => exact heq.symm ▸ h
  | load _ _ _ _ _ _ heq | delete _ _ heq | flag _ _ _ _ _ heq => exact heq.symm ▸ call_shape h _ _

/-! ### What a load stays -/

/-- A load keeps its account and what it loads, and stays cancelled once it was. -/
theorem load_of_step (hstep : Step fromPanic w w') {i : ℕ} (hi : i < w.started) :
    (w'.loads i).account = (w.loads i).account ∧ (w'.loads i).target = (w.loads i).target ∧
      ((w.loads i).cancelled = true → (w'.loads i).cancelled = true) := by
  have hsame : ∀ {load : Load}, load = w.loads i → load.account = (w.loads i).account ∧
    load.target = (w.loads i).target ∧
      ((w.loads i).cancelled = true → load.cancelled = true) := fun heq => heq ▸ ⟨rfl, rfl, id⟩
  cases effect_of_step hstep with
  | quiet hquiet =>
    obtain ⟨haccount, htarget, hcancelled, -⟩ := hquiet.loads i
    exact ⟨haccount, htarget, hcancelled.trans⟩
  | start account target _ _ heq =>
    rw [heq, World.startLoad]
    split
    · exact hsame rfl
    · exact hsame (Function.update_of_ne (Nat.ne_of_lt hi) ..)
  | update update heq =>
    rw [heq]
    unfold World.applyAccountUpdate
    dsimp only
    split <;> exact of_dropCancellation _ _ i
  | quit heq =>
    rw [heq]
    exact of_dropCancellation _ _ i
  | told between j event hquiet hj _ _ heq =>
    obtain ⟨haccount, htarget, hcancelled, -⟩ := hquiet.loads i
    rw [heq, onEvent_loads]
    by_cases hij : i = j
    · subst hij
      rw [Function.update_self]
      exact ⟨haccount, htarget, hcancelled.trans⟩
    · rw [Function.update_of_ne hij]
      exact ⟨haccount, htarget, hcancelled.trans⟩

/-- Every load of a mailbox is of the mailbox's account. -/
def Owned (w : World) : Prop :=
  ∀ i < w.started, ∀ folder, (w.loads i).target = .mailbox folder →
    folder.account = (w.loads i).account

theorem Owned.step (h : Owned w) (hstep : Step fromPanic w w') : Owned w' := by
  intro i hi folder htarget
  by_cases hiw : i < w.started
  · obtain ⟨haccount, htarget', -⟩ := load_of_step hstep hiw
    rw [haccount]
    exact h i hiw folder (htarget'.symm.trans htarget)
  · -- Only the start of a load adds one.
    cases effect_of_step hstep with
    | quiet hquiet => exact absurd (hquiet.started ▸ hi) hiw
    | start account target _ howned heq =>
      rw [heq, World.startLoad] at hi htarget ⊢
      split at hi
      · exact absurd hi hiw
      · next hloading =>
        rw [if_neg hloading] at htarget ⊢
        obtain rfl : i = w.started := Nat.le_antisymm (Nat.le_of_lt_succ hi) (Nat.le_of_not_lt hiw)
        simp only [Function.update_self] at htarget ⊢
        exact howned folder htarget
    | update update heq => exact absurd ((applyAccountUpdate_loads w update i).1 ▸ heq ▸ hi) hiw
    | quit heq =>
      rw [heq] at hi
      exact absurd
        ((dropCancellation_started { w with refreshes := w.refreshes.cancelLoad.1, quit := true }
          _) ▸ hi) hiw
    | told between j event hquiet _ _ _ heq =>
      rw [heq, onEvent_started, hquiet.started] at hi
      exact absurd hi hiw

/-- The account's loads that were started before the first `n` loads were, and that have not ended,
are cancelled. -/
structure Cancelled (account : AccountId) (n : ℕ) (w : World) : Prop where
  /-- They were started. -/
  started : n ≤ w.started
  /-- They are cancelled. -/
  cancelled : ∀ i < n, (w.loads i).account = account → (w.loads i).ended = false →
    (w.loads i).cancelled = true

theorem ended_of_step (hstep : Step fromPanic w w') {i : ℕ} (hi : i < w.started)
    (hended : (w'.loads i).ended = false) : (w.loads i).ended = false := by
  rcases (told_of_step hstep).2 i hi with hsame | ⟨hnot, -⟩
  · rwa [Load.ended, hsame, ← Load.ended] at hended
  · exact hnot

/-- **A load that is cancelled stays cancelled.** -/
theorem Cancelled.step {account : AccountId} {n : ℕ} (h : Cancelled account n w)
    (hstep : Step fromPanic w w') : Cancelled account n w' := by
  refine ⟨h.started.trans (told_of_step hstep).1, fun i hi haccount hended => ?_⟩
  have hiw := hi.trans_le h.started
  obtain ⟨haccount', -, hcancelled⟩ := load_of_step hstep hiw
  exact hcancelled (h.cancelled i hi (haccount'.symm.trans haccount)
    (ended_of_step hstep hiw hended))

theorem Slot.cancelled (h : Slot w) {update : AccountUpdate Accounts AccountCheckError}
    (hcomplete : update.lastCheck = .complete) {account : AccountId}
    (hexcluded : update.accounts.Excludes account) :
    Cancelled account w.started (w.applyAccountUpdate update) := by
  have hslot := h.applyAccountUpdate update
  have hstarted : (w.applyAccountUpdate update).started = w.started :=
    (applyAccountUpdate_loads w update 0).1
  have hrunning : (w.applyAccountUpdate update).refreshes.runningLoad =
      (w.refreshes.discardExcluded fun id =>
        decide (id ∈ applyUpdate w.visible update)).1.runningLoad := by
    unfold World.applyAccountUpdate
    dsimp only
    split <;> exact congrArg Refreshes.runningLoad (dropCancellation_refreshes _ _)
  refine ⟨hstarted.ge, fun i hi haccount hended => ?_⟩
  rcases (hslot.last i (hstarted.symm ▸ hi) hended).2 with ⟨-, hcancelled⟩ | hplace
  · exact hcancelled
  · -- The place is the account's, so the answer took what cancels its load.
    rw [hrunning, Refreshes.discardExcluded_runningLoad, Option.map_eq_some_iff] at hplace
    obtain ⟨running, -, hplace⟩ := hplace
    have haccount' : running.accountId = account := by
      refine Eq.trans ?_ ((congrArg RunningLoad.accountId hplace).trans haccount)
      split <;> rfl
    have hnot : ¬ decide (running.accountId ∈ applyUpdate w.visible update) = true := by
      rw [haccount', decide_eq_true_eq]
      exact applyUpdate_excluded hcomplete hexcluded
    rw [if_neg hnot] at hplace
    by_contra hcancelled
    have := congrArg RunningLoad.cancellation hplace
    simp [Bool.of_not_eq_true hcancelled] at this

/-! ### What stays deleted -/

theorem Inv.not_ended (h : Inv w) {t i : ℕ} (hholds : w.Holds t i) : (w.loads i).ended = false := by
  obtain ⟨-, -, -, -, htold⟩ := h.held_of_holds hholds
  unfold Load.ended
  cases hlog : (w.loads i).told with
  | nil => rfl
  | cons event told =>
    rw [hlog] at htold
    rw [htold event List.mem_cons_self]

theorem noFolder_of_step (hinv : Inv w) (howned : Owned w) (hshape : Shape w.tables)
    {account : AccountId} {n : ℕ} (hcancelled : Cancelled account n w)
    (hnone : ∀ i < w.started, n ≤ i → (w.loads i).account ≠ account) (h : NoFolder account w.tables)
    (hstep : Step fromPanic w w') : NoFolder account w'.tables := by
  cases writes_of_step hstep with
  | nothing heq => exact heq.symm ▸ h
  | load t i call fault hrunning hcall heq =>
    rw [heq]
    have hi := hinv.started t i (.inr hrunning)
    by_cases haccount : (w.loads i).account = account
    · have hin : i < n := Nat.lt_of_not_le fun hle => hnone i hi hle haccount
      rw [hcancelled.cancelled i hin haccount (hinv.not_ended (.inr hrunning))]
      exact h.of_stays (call_cancelled hcall _ fault)
    · refine h.of_part (call_part hshape (account_of_asks (howned i hi) hcall) _ fun hsame =>
        haccount ?_)
      exact (AccountId.asStr_injective hsame).symm
  | delete kept fault heq =>
    rw [heq]
    cases fault with
    | some error => exact h
    | none =>
      obtain ⟨hshape', hkept, hdeleted⟩ := deleteOtherAccounts_spec hshape kept
      by_cases hmem : account ∈ kept
      · exact h.of_part (hkept account hmem)
      · exact .of_empty (hdeleted account.asStr fun other hother hsame =>
          hmem (AccountId.asStr_injective hsame ▸ hother))
  | flag other identity flag wanted fault heq =>
    rw [heq]
    exact h.of_stays (call_stays id _ _)

/-! ### Runs -/

variable {unused : Load} {calls : List (StoreCall × Circumstances)}

/-- Every load of a mailbox is of the mailbox's account, in every state reached. -/
theorem owned_reached {tables : Tables}
    (h : ReflTransGen (Step fromPanic) (World.start unused tables) w) : Owned w :=
  invariant (I := Owned) (fun i hi => absurd hi (Nat.not_lt_zero i)) (fun _ _ => Owned.step) h

/-- The store has its shape, in every state reached from what earlier operations left. -/
theorem shape_reached
    (h : ReflTransGen (Step fromPanic) (World.start unused (run .empty calls)) w) :
    Shape w.tables :=
  invariant (I := fun w => Shape w.tables) (run_shape shape_empty calls)
    (fun _ _ => shape_of_step) h

/-- **The end of a cancelled load is not recorded.** -/
theorem outcomes_of_cancelled (hslot : Slot w) (hhonest : Honest w) (hstep : Step fromPanic w w')
    {i : ℕ} (hi : i < w.started)
    (hcancelled : (w.loads i).ended = false → (w.loads i).cancelled = true) {result : LoadResult}
    (htold : (w'.loads i).told = .finished result :: (w.loads i).told) :
    w'.refreshes.outcomes = w.refreshes.outcomes := by
  have hended : (w.loads i).ended = false := by
    rcases (told_of_step hstep).2 i hi with hsame | ⟨hnot, -⟩
    · exact absurd (hsame.symm.trans htold) List.ne_cons_self
    · exact hnot
  rcases ends_of_step hslot hhonest hstep with ⟨j, result', hend⟩ | hno
  · -- Only one load has not ended.
    have hj := (hslot.last j hend.running.1 hend.running.2).1
    obtain rfl : i = j := by
      have := (hslot.last i hi hended).1
      omega
    exact hend.ignored (hcancelled hended)
  · rcases hno.told i hi with hsame | hchange
    · exact absurd (hsame.symm.trans htold) List.ne_cons_self
    · cases (List.cons.inj (hchange.symm.trans htold)).1

/-- Once there is no folder of the account, there is none until a load of it is started. -/
theorem noFolder_reached
    (hreached : ReflTransGen (Step fromPanic) (World.start unused (run .empty calls)) w)
    {account : AccountId} {n : ℕ} (hcancelled : Cancelled account n w)
    (h : NoFolder account w.tables) (hlater : ReflTransGen (Step fromPanic) w w')
    (hnone : ∀ i < w'.started, n ≤ i → (w'.loads i).account ≠ account) :
    NoFolder account w'.tables := by
  induction hlater with
  | refl => exact h
  | @tail u v hu hstep ih =>
    have hreached' := hreached.trans hu
    have hcancelled' : Cancelled account n u :=
      invariant (I := Cancelled account n) hcancelled (fun _ _ => Cancelled.step) hu
    have hnone' : ∀ i < u.started, n ≤ i → (u.loads i).account ≠ account := fun i hi hni => by
      rw [← (load_of_step hstep hi).1]
      exact hnone i (hi.trans_le (told_of_step hstep).1) hni
    exact noFolder_of_step (inv_reached hreached') (owned_reached hreached')
      (shape_reached hreached') hcancelled' hnone'
      (ih hnone') hstep

/-- **An excluded account's mail does not come back.** Once a complete answer that excludes the
account was applied, no later step of a load of the account that ran then creates any folder,
message or membership of it, and the load's outcome is not recorded. Once the deletion the answer
started has run, the store holds nothing of the account until a load of it is started. -/
theorem excluded_stays_deleted
    (hreached : ReflTransGen (Step fromPanic) (World.start unused (run .empty calls)) w)
    {update : AccountUpdate Accounts AccountCheckError} (hcomplete : update.lastCheck = .complete)
    {account : AccountId} (hexcluded : update.accounts.Excludes account) :
    (∀ i < w.started, (w.loads i).account = account →
      ∀ u, ReflTransGen (Step fromPanic) (w.applyAccountUpdate update) u →
        (∀ t call fault, (u.threads t).running = some i → (u.loads i).asks call →
          CreatesNone account u.tables (u.askStore i call fault).tables) ∧
        ∀ v result, Step fromPanic u v → (v.loads i).told = .finished result :: (u.loads i).told →
          v.refreshes.outcomes = u.refreshes.outcomes) ∧
    ∀ u, ReflTransGen (Step fromPanic) (w.applyAccountUpdate update) u →
      update.accounts.withMail ∈ u.deletions →
      ∀ v, ReflTransGen (Step fromPanic) { u with
          deletions := u.deletions.erase update.accounts.withMail
          tables := (call u.tables (.deleteOtherAccounts update.accounts.withMail)
            ⟨false, none⟩).2 } v →
        (∀ i < v.started, w.started ≤ i → (v.loads i).account ≠ account) →
        v.tables.part account.asStr = .empty := by
  have hupdated := hreached.tail (Step.update update)
  have hcancelled : ∀ u, ReflTransGen (Step fromPanic) (w.applyAccountUpdate update) u →
      Cancelled account w.started u :=
    fun u hu => invariant (I := Cancelled account w.started)
      ((slot_reached hreached).cancelled hcomplete hexcluded)
      (fun _ _ => Cancelled.step) hu
  -- A load keeps its account, and was cancelled by the answer.
  have hload : ∀ i < w.started, (w.loads i).account = account →
    ∀ u, ReflTransGen (Step fromPanic) (w.applyAccountUpdate update) u →
      (u.loads i).ended = false → (u.loads i).cancelled = true := by
    intro i hi haccount u hu
    refine (hcancelled u hu).cancelled i hi ?_
    refine (invariant (I := fun u => i < u.started ∧ (u.loads i).account = account) ⟨hi, haccount⟩
      (fun a b ha hab => ?_)
      ((ReflTransGen.single (Step.update update)).trans hu)).2
    exact ⟨ha.1.trans_le (told_of_step hab).1, (load_of_step hab ha.1).1.trans ha.2⟩
  refine ⟨fun i hi haccount u hu =>
    ⟨fun t call fault hrunning hcall => ?_, fun v result hstep htold => ?_⟩,
    fun u hu hdeletion v hv hnone => ?_⟩
  · have hnot := (inv_reached (hupdated.trans hu)).not_ended (.inr hrunning)
    rw [askStore_tables, hload i hi haccount u hu hnot]
    exact .of_stays (call_cancelled hcall _ fault)
  · have hreached' := hupdated.trans hu
    exact outcomes_of_cancelled (slot_reached hreached') (honest_reached hreached') hstep
      (hi.trans_le (hcancelled u hu).started) (hload i hi haccount u hu) htold
  · have hdeleted : Step fromPanic u { u with
        deletions := u.deletions.erase update.accounts.withMail
        tables := (call u.tables (.deleteOtherAccounts update.accounts.withMail)
          ⟨false, none⟩).2 } :=
      .delete hdeletion none
    have hgone := (deleteOtherAccounts_spec (shape_reached (hupdated.trans hu))
      update.accounts.withMail).2.2
      account.asStr fun other hother hsame => Accounts.excludes_iff_withMail.mp hexcluded
        (AccountId.asStr_injective hsame ▸ hother)
    have hreached' := (hupdated.trans hu).tail hdeleted
    refine (shape_reached (hreached'.trans hv)).part_empty ?_
    exact noFolder_reached hreached' ((hcancelled u hu).step hdeleted) (.of_empty hgone) hv hnone

/-- The answer that has no account. -/
def noAccounts : AccountUpdate Accounts AccountCheckError :=
  ⟨⟨[], List.nodup_nil⟩, .complete, false⟩

/-- The folder list a cancelled load still asks the store to write is not written. -/
theorem excluded_stays_deleted_folderList :
    CreatesNone imapAccount (running.applyAccountUpdate noAccounts).tables
      ((running.applyAccountUpdate noAccounts).askStore 0
        (.replaceFolders imapAccount [⟨"INBOX", "Inbox", none, some .inbox, true⟩])
          none).tables := by
  have hreached : ReflTransGen (Step workerStopped)
      (World.start ⟨imapAccount, .folderList, false, none, []⟩ (run .empty [])) running :=
    (((ReflTransGen.single step_shown).tail step_refreshing).tail step_requested).tail step_running
  have hexcluded : noAccounts.accounts.Excludes imapAccount := fun _ hmem => by cases hmem
  exact ((excluded_stays_deleted hreached rfl hexcluded).1 0 (by decide) (by decide) _ .refl).1
    0 _ none (by decide) ⟨by decide, by decide⟩

end World
end Mailbag.Loads
