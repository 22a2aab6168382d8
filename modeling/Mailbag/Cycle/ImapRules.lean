import Mailbag.Cycle.Imap

/-!
# The rules of an IMAP cycle's parts

What each part of the cycle does, for every server and every property `J` that others and
readings keep (`Steady`). A part that writes to the store takes the rule of the writing as
a hypothesis, and hands it the evidence on which the part writes:

* `endChangesTheListingShows_safe` — a change is ended when the listing shows its value;
* `sendImapChanges_safe` — a change is ended when the reading right after its command
  shows its value (`ReadBack`);
* `listPlanned_safe` — what a pass listed (`Planned`);
* `fetchMissing_safe` — what a batch of missing messages stores (`Fetched`).
-/

namespace Mailbag.Cycle

open Collections Imap Interaction Program Relation Store

/-! ### Lists in chunks -/

theorem flatten_toChunks_go {α : Type} (n : ℕ) (xs : List α) (acc₁ : Array α)
    (acc₂ : Array (List α)) :
    (List.toChunks.go n xs acc₁ acc₂).flatten = acc₂.toList.flatten ++ acc₁.toList ++ xs := by
  induction xs generalizing acc₁ acc₂ with
  | nil => simp [List.toChunks.go]
  | cons x xs ih =>
    rw [List.toChunks.go]
    split
    · simp [ih]
    · simp [ih]

/-- The chunks of a list are its entries in their order. -/
theorem flatten_toChunks {α : Type} (n : ℕ) (xs : List α) : (xs.toChunks n).flatten = xs := by
  cases xs with
  | nil => cases n <;> simp [List.toChunks]
  | cons x xs =>
    cases n with
    | zero => simp [List.toChunks]
    | succ n => simp [List.toChunks, flatten_toChunks_go]

theorem mem_of_mem_toChunks {α : Type} {n : ℕ} {xs chunk : List α} (h : chunk ∈ xs.toChunks n)
    {x : α} (hx : x ∈ chunk) : x ∈ xs := by
  have hflat : x ∈ (xs.toChunks n).flatten := List.mem_flatten.mpr ⟨chunk, h, hx⟩
  rwa [flatten_toChunks] at hflat

theorem length_toChunks_go {α : Type} {n : ℕ} (hn : 0 < n) (xs : List α) (acc₁ : Array α)
    (acc₂ : Array (List α)) (h₁ : 0 < acc₁.size ∧ acc₁.size ≤ n)
    (h₂ : ∀ chunk ∈ acc₂.toList, 0 < chunk.length ∧ chunk.length ≤ n) :
    ∀ chunk ∈ List.toChunks.go n xs acc₁ acc₂, 0 < chunk.length ∧ chunk.length ≤ n := by
  have hpush : ∀ (acc₁ : Array α) (acc₂ : Array (List α)), 0 < acc₁.size ∧ acc₁.size ≤ n →
      (∀ chunk ∈ acc₂.toList, 0 < chunk.length ∧ chunk.length ≤ n) →
        ∀ chunk ∈ (acc₂.push acc₁.toList).toList, 0 < chunk.length ∧ chunk.length ≤ n := by
    intro acc₁ acc₂ h₁ h₂ chunk hc
    rw [Array.toList_push] at hc
    rcases List.mem_append.mp hc with hc | hc
    · exact h₂ chunk hc
    · rwa [List.mem_singleton.mp hc, Array.length_toList]
  induction xs generalizing acc₁ acc₂ with
  | nil => exact hpush acc₁ acc₂ h₁ h₂
  | cons x xs ih =>
    rw [List.toChunks.go]
    split
    · exact ih _ _ (by simpa using Nat.succ_le_of_lt hn) (hpush acc₁ acc₂ h₁ h₂)
    · rename_i hne
      have hlt : acc₁.size < n := lt_of_le_of_ne h₁.2 (by simpa using hne)
      exact ih _ _ (by simpa using Nat.succ_le_of_lt hlt) h₂

/-- A chunk has an entry, and is no longer than asked for. -/
theorem length_of_mem_toChunks {α : Type} {n : ℕ} (hn : 0 < n) {xs chunk : List α}
    (h : chunk ∈ xs.toChunks n) : 0 < chunk.length ∧ chunk.length ≤ n := by
  cases xs with
  | nil => cases n <;> simp [List.toChunks] at h
  | cons x xs =>
    cases n with
    | zero => cases hn
    | succ n => exact length_toChunks_go hn xs #[x] #[] (by simp) (by simp) chunk h

/-! ### The parts between two listings -/

variable {S : Server ImapCommand.Reply}

/-- Anything but a listing of every message. -/
def Quiet (e : Happened S) : Prop := ∀ items, e.op ≠ .server (.uidFetch .all items)

theorem Aside.quiet {e : Happened S} (he : Aside e) : Quiet e := by
  obtain ⟨c, hop, hc⟩ := he
  intro items h
  rw [hop] at h
  exact hc items (CycleOp.server.inj h)

/-- A call of the store. -/
def ByStore (e : Happened S) : Prop := ∃ op, e.op = .store op

theorem ByStore.quiet {e : Happened S} (he : ByStore e) : Quiet e := by
  obtain ⟨op, hop⟩ := he
  intro items h
  rw [hop] at h
  cases h

/-- The cycle went on without listing every message: the reader keeps the numbers of the
latest opening, under the same numbering. -/
structure Proceeds (J : History S → S.World × Tables → Prop) (reader reader' : MailboxReader)
    (h h' : History S) (s u : S.World × Tables) : Prop extends Passes J Quiet h h' s u where
  /-- The numbers. -/
  tracks : numbersAt h = some reader.numbers → numbersAt h' = some reader'.numbers
  /-- The numbering. -/
  numbering : reader'.uidValidity = reader.uidValidity

section Proceeds

variable {J J' : History S → S.World × Tables → Prop} {reader reader' reader'' : MailboxReader}
  {h h' h'' : History S} {s u v : S.World × Tables}

theorem Proceeds.refl (hs : J h s) : Proceeds J reader reader h h s s := ⟨.refl hs, id, rfl⟩

theorem Proceeds.trans (h₁ : Proceeds J reader reader' h h' s u)
    (h₂ : Proceeds J' reader' reader'' h' h'' u v) : Proceeds J' reader reader'' h h'' s v :=
  ⟨h₁.toPasses.trans h₂.toPasses, h₂.tracks ∘ h₁.tracks, h₂.numbering.trans h₁.numbering⟩

theorem Proceeds.of_continues (hc : Continues J reader reader' h h' s u) :
    Proceeds J reader reader' h h' s u :=
  ⟨hc.toPasses.mono fun _ => Aside.quiet, hc.tracks, hc.numbering⟩

/-- Calls of the store open nothing. -/
theorem numbersAt_of_byStore {tr : History S} (htr : ∀ e ∈ tr, ByStore e) :
    numbersAt (h ++ tr) = numbersAt h := by
  rw [numbersAt, numbersAt, List.reverse_append, List.findSome?_append]
  have hnone : tr.reverse.findSome? opening? = none := by
    refine List.findSome?_eq_none_iff.mpr fun e he => ?_
    obtain ⟨op, hop⟩ := htr e (List.mem_reverse.mp he)
    obtain ⟨before, o, answer, after⟩ := e
    cases hop
    rfl
  rw [hnone, Option.none_or]

theorem Proceeds.of_byStore (reader : MailboxReader) (hp : Passes J ByStore h h' s u) :
    Proceeds J reader reader h h' s u := by
  refine ⟨hp.mono fun _ => ByStore.quiet, fun ht => ?_, rfl⟩
  obtain ⟨⟨tr, rfl, hk⟩, -⟩ := hp
  rw [numbersAt_of_byStore fun e he => (hk e he).1, ht]

theorem Passes.of_called {op : StoreCall} {result : op.Result}
    (hcalled : Called J op result h h' s u) (hu : J' h' u) : Passes J' ByStore h h' s u :=
  hcalled.passes hu fun _ he => ⟨op, he⟩

end Proceeds

variable {J : History S → S.World × Tables → Prop} {G : History S → Happened S → Prop}
  {h : History S} {s : S.World × Tables}

/-- The listing shows the pending change's value. -/
def Shown (listed : List ListedMessage) (pending : List PendingChange) (flag : MessageFlag)
    (value : Bool) (identity : String) : Prop :=
  ⟨identity, flag, value⟩ ∈ pending ∧
    ∃ message, latest identity (byIdentity listed) = some message ∧
      flagOf flag message.flags = value

theorem mem_shownChanges {listed : List ListedMessage} {pending : List PendingChange}
    {flag : MessageFlag} {value : Bool} {identity : String} :
    identity ∈ shownChanges listed pending flag value ↔
      Shown listed pending flag value identity := by
  rw [shownChanges, List.mem_map]
  constructor
  · rintro ⟨⟨identity, flag', wanted⟩, hc, rfl⟩
    rw [List.mem_filter, decide_eq_true_eq] at hc
    obtain ⟨hmem, rfl, rfl, hany⟩ := hc
    cases hl : latest identity (byIdentity listed) with
    | none => simp [hl] at hany
    | some message => exact ⟨hmem, message, hl, by simpa [hl] using hany⟩
  · rintro ⟨hmem, message, hm, hv⟩
    refine ⟨⟨identity, flag, value⟩, List.mem_filter.mpr ⟨hmem, ?_⟩, rfl⟩
    simp [hm, hv]

theorem mem_of_byIdentity {listed : List ListedMessage} {identity : String}
    {message : ListedMessage} (h : latest identity (byIdentity listed) = some message) :
    message ∈ listed ∧ message.identity = identity := by
  obtain ⟨m, hm, he⟩ := List.mem_map.mp (mem_of_latest h)
  obtain ⟨rfl, rfl⟩ := Prod.mk.inj he
  exact ⟨hm, rfl⟩

/-- Groups of changes ended one after another. -/
theorem settleAll_safe (hs : J h s) {batches : BatchWriter}
    {groups : List ((MessageFlag × Bool) × List String)}
    (hsettle : ∀ flag value identities, ((flag, value), identities) ∈ groups → ∀ h' s',
      Passes J ByStore h h' s s' → Safe (surroundings S) G h' s'
        (batches.settle identities flag value) fun _ h'' u => Passes J ByStore h' h'' s' u) :
    Safe (surroundings S) G h s (settleAll batches groups) fun _ h' u =>
      Passes J ByStore h h' s u := by
  induction groups generalizing h s with
  | nil => exact .done (.refl hs)
  | cons group groups ih =>
    obtain ⟨⟨flag, value⟩, identities⟩ := group
    have hrest : ∀ h' s', Passes J ByStore h h' s s' →
        Safe (surroundings S) G h' s' (settleAll batches groups) fun _ h'' u =>
          Passes J ByStore h' h'' s' u := by
      refine fun h' s' hp => ih hp.steady fun flag value identities hmem h'' s'' hp' => ?_
      exact hsettle flag value identities (List.mem_cons_of_mem _ hmem) h'' s'' (hp.trans hp')
    rw [settleAll]
    split
    · exact hrest h s (.refl hs)
    · refine (hsettle flag value identities List.mem_cons_self h s (.refl hs)).bind ?_
      rintro _ tr t hp
      exact (hrest _ t hp).mono fun _ _ _ hp' => hp.trans hp'

/-- **The changes the listing shows**: only a change is ended whose value the listing shows. -/
theorem endChangesTheListingShows_safe (hs : J h s) {listed : List ListedMessage}
    {pending : List PendingChange} {batches : BatchWriter}
    (hsettle : ∀ flag value identities,
      (∀ identity ∈ identities, Shown listed pending flag value identity) →
        ∀ h' s', Passes J ByStore h h' s s' → Safe (surroundings S) G h' s'
          (batches.settle identities flag value) fun _ h'' u => Passes J ByStore h' h'' s' u) :
    Safe (surroundings S) G h s (endChangesTheListingShows listed pending batches) fun _ h' u =>
      Passes J ByStore h h' s u := by
  refine settleAll_safe hs fun flag value identities hmem h' s' hp => ?_
  obtain ⟨⟨flag', value'⟩, -, he⟩ := List.mem_map.mp hmem
  obtain ⟨hfv, rfl⟩ := Prod.mk.inj he
  obtain ⟨rfl, rfl⟩ := Prod.mk.inj hfv
  exact hsettle flag' value' _ (fun identity hi => mem_shownChanges.mp hi) h' s' hp

/-! ### Commands sent -/

/-- The reading right after a command: it completed, the reading came next, and its
responses show the value of the flag for the messages ended. -/
structure ReadBack (J : History S → S.World × Tables → Prop) (listed : List ListedMessage)
    (flag : MessageFlag) (value : Bool) (identities : List String) (h₀ h : History S)
    (s₀ s : S.World × Tables) : Prop where
  /-- The command and the reading. -/
  moments : ∃ h₁ b₁ a₁ c₁ b₂ a₂ uids, h = h₁ ++ [⟨b₁, .server (.uidStore uids flag value), a₁, c₁⟩,
      ⟨b₂, .server (.uidFetch (.uids uids) (.listing .standard none)), a₂, s⟩] ∧ a₁.ended = none ∧
    Passes J Quiet h₀ (h₁ ++ [⟨b₁, .server (.uidStore uids flag value), a₁, c₁⟩]) s₀ b₂ ∧
    S.answer b₂.1 (.uidFetch (.uids uids) (.listing .standard none)) a₂ s.1 ∧ s.2 = b₂.2 ∧
      ∀ identity ∈ identities, ∃ message ∈ listed, message.identity = identity ∧
        message.uid ∈ uids ∧
        Names a₂.responses message.uid ∧
          flagOf flag ((lastFlags a₂.responses message.uid).getD ⟨false, false⟩) = value

theorem ReadBack.earlier {listed : List ListedMessage} {flag : MessageFlag} {value : Bool}
    {identities : List String} {h₀ h₁ h' : History S} {s₀ s₁ s' : S.World × Tables}
    (hback : ReadBack J listed flag value identities h₁ h' s₁ s')
    (hp : Passes J Quiet h₀ h₁ s₀ s₁) : ReadBack J listed flag value identities h₀ h' s₀ s' := by
  obtain ⟨h₂, b₁, a₁, c₁, b₂, a₂, uids, heq, hended, hpass, hrest⟩ := hback.moments
  exact ⟨h₂, b₁, a₁, c₁, b₂, a₂, uids, heq, hended, hp.trans hpass, hrest⟩

/-- The messages of a command are listed ones. -/
def OfListed (listed : List ListedMessage) (messages : List (String × UInt32)) : Prop :=
  ∀ p ∈ messages, ∃ message ∈ listed, p = (message.identity, message.uid)

theorem messagesToSend_ofListed (listed : List ListedMessage) (sent : SentChanges)
    (pending : List PendingChange) (flag : MessageFlag) (wanted : Bool) :
    OfListed listed (messagesToSend listed sent pending flag wanted) := by
  intro p hp
  rw [messagesToSend, (List.perm_insertionSort _ _).mem_iff, List.mem_filterMap] at hp
  obtain ⟨change, -, hp⟩ := hp
  split at hp
  · obtain ⟨message, hm, rfl⟩ := Option.map_eq_some_iff.mp hp
    obtain ⟨hmem, hi⟩ := mem_of_byIdentity hm
    exact ⟨message, hmem, by rw [hi]⟩
  · cases hp

theorem commandsToSend_ofListed {listed : List ListedMessage} {sent : SentChanges}
    {pending : List PendingChange} {flag : MessageFlag} {wanted : Bool}
    {messages : List (String × UInt32)}
    (h : ((flag, wanted), messages) ∈ commandsToSend listed sent pending) :
    messages ≠ [] ∧ OfListed listed messages := by
  rw [commandsToSend, List.mem_flatMap] at h
  obtain ⟨⟨flag', wanted'⟩, -, h⟩ := h
  obtain ⟨chunk, hchunk, he⟩ := List.mem_map.mp h
  obtain ⟨-, rfl⟩ := Prod.mk.inj he
  refine ⟨List.length_pos_iff.mp (length_of_mem_toChunks (by decide) hchunk).1, fun p hp => ?_⟩
  exact messagesToSend_ofListed listed sent pending flag' wanted' p (mem_of_mem_toChunks hchunk hp)

/-- A message confirmed by a reading is one of the command's, which the reading shows with
the value. -/
theorem mem_confirmedBy {reading : FolderListing} {flag : MessageFlag} {wanted : Bool}
    {messages : List (String × UInt32)} {identity : String}
    (h : identity ∈ confirmedBy reading flag wanted messages) :
    ∃ message ∈ reading.messages, (identity, message.uid) ∈ messages ∧
      flagOf flag message.flags = wanted := by
  rw [confirmedBy, List.mem_filterMap] at h
  obtain ⟨message, hm, h⟩ := h
  rw [List.mem_filter, decide_eq_true_eq] at hm
  obtain ⟨⟨i, uid⟩, hfind, rfl⟩ := Option.map_eq_some_iff.mp h
  have huid : uid = message.uid := by simpa using List.find?_some hfind
  exact ⟨message, hm.1, huid ▸ List.mem_of_find?_eq_some hfind, hm.2⟩

/-- What was sent is remembered. -/
theorem foldl_sent_eq_nil {identities : List String} {sent : SentChanges} {flag : MessageFlag}
    {wanted : Bool}
    (h : identities.foldl (fun sent identity => ((identity, flag), wanted) :: sent) sent = []) :
    identities = [] ∧ sent = [] := by
  induction identities generalizing sent with
  | nil => exact ⟨rfl, h⟩
  | cons identity identities ih => cases (ih h).2

section Send

variable (hJ : Steady J G)

include hJ

/-- **One command**: what is ended after it was read back. -/
theorem sendCommand_safe (hs : J h s) {reader : MailboxReader} {sent : SentChanges}
    {batches : BatchWriter} {flag : MessageFlag} {wanted : Bool} {messages : List (String × UInt32)}
    {listed : List ListedMessage} (hlisted : OfListed listed messages)
    (hsettle : ∀ identities h' s', ReadBack J listed flag wanted identities h h' s s' → J h' s' →
      Safe (surroundings S) G h' s' (batches.settle identities flag wanted) fun _ h'' u =>
        Passes J ByStore h' h'' s' u) :
    Safe (surroundings S) G h s (sendCommand reader sent batches flag wanted messages) fun r h' u =>
      Proceeds J reader r.1 h h' s u ∧ (r.2 = [] → messages = [] ∧ sent = []) := by
  refine (Safe.mapFail (storeFlags_safe hJ hs)).bind ?_
  rintro ⟨refusal, reader₁⟩ tr u ⟨answer, hasked, hconnected, hended⟩
  have hcontinues : Continues J reader reader₁ h (h ++ tr) s u :=
    hasked.continues (fun _ => rfl) fun _ he => by cases he
  cases refusal with
  | some refusal =>
    exact (keeping_safe hJ hcontinues.steady id id).bind fun _ _ _ _ => .fail
  | none =>
    refine (Safe.mapFail (fetchListing_safe hJ hcontinues.steady)).bind ?_
    rintro ⟨reading, reader₂⟩ tr' v ⟨answer', hread, hmessages, -⟩
    have hcontinues' : Continues J reader₁ reader₂ (h ++ tr) (h ++ tr ++ tr') u v :=
      hread.continues (fun _ => rfl) fun _ he => by cases he
    have hproceeds : Proceeds J reader reader₂ h (h ++ tr ++ tr') s v :=
      (Proceeds.of_continues hcontinues).trans (.of_continues hcontinues')
    have hnothing : (messages.map Prod.fst).foldl
      (fun sent identity => ((identity, flag), wanted) :: sent) sent = [] →
        messages = [] ∧ sent = [] :=
          fun hnil => (foldl_sent_eq_nil hnil).imp_left List.map_eq_nil_iff.mp
    dsimp only
    split
    · exact .done ⟨hproceeds, hnothing⟩
    · rename_i hconfirmed
      have hback : ReadBack J listed flag wanted (confirmedBy reading flag wanted messages) h
          (h ++ tr ++ tr') s v := by
        obtain ⟨h₁, s₁, s₂, -, -, -, heq, -, -, -, -, -⟩ := hasked.moment
        obtain ⟨h₂, s₃, s₄, hc, -, hsteps, heq', hanswer, htables, hs₄, -, hsame⟩ := hread.moment
        cases hsame hconnected
        rw [heq', heq]
        refine ⟨h₁, s₂, answer, u, s₄, answer', messages.map Prod.snd, by simp, hended rfl, ?_,
          hanswer, htables, ?_⟩
        · have hworld := (hcontinues.world.trans hc.world).trans (leads_of_steps hsteps)
          obtain ⟨trq, htrq, hquiet⟩ := (Proceeds.of_continues hcontinues).past
          rw [heq] at htrq hs₄
          exact ⟨⟨trq, htrq, fun e he => ⟨(hquiet e he).1,
            (hquiet e he).2.widen .refl (hc.world.trans (leads_of_steps hsteps))⟩⟩, hworld, hs₄⟩
        · intro identity hi
          obtain ⟨m, hm, hp, hv⟩ := mem_confirmedBy hi
          obtain ⟨message, hmem, he⟩ := hlisted _ hp
          obtain ⟨rfl, huid⟩ := Prod.mk.inj he
          rw [hmessages] at hm
          obtain ⟨hnames, hflags, -⟩ := mem_listing.mp hm
          refine ⟨message, hmem, rfl, ?_, ?_, ?_⟩
          · rw [← huid]
            exact List.mem_map.mpr ⟨_, hp, rfl⟩
          · rw [← huid]
            exact hnames
          · rw [← huid, ← hflags]
            exact hv
      refine (hsettle _ _ _ hback hproceeds.steady).bind ?_
      rintro _ tr'' w hp
      exact .done ⟨hproceeds.trans (.of_byStore _ hp), hnothing⟩

/-- Commands one after another. -/
theorem sendCommands_safe (hs : J h s) (listed : List ListedMessage) {batches : BatchWriter}
    {commands : List ((MessageFlag × Bool) × List (String × UInt32))} {reader : MailboxReader}
    {sent : SentChanges}
    (hlisted : ∀ flag wanted messages, ((flag, wanted), messages) ∈ commands → messages ≠ [] ∧
      OfListed listed messages)
    (hsettle : ∀ flag wanted identities h' s', ReadBack J listed flag wanted identities h h' s s' →
      J h' s' → Safe (surroundings S) G h' s' (batches.settle identities flag wanted) fun _ h'' u =>
        Passes J ByStore h' h'' s' u) :
    Safe (surroundings S) G h s (sendCommands batches commands reader sent) fun r h' u =>
      Proceeds J reader r.1 h h' s u ∧ (r.2 = [] → sent = [] ∧ r.1 = reader ∧ h' = h ∧ u = s) := by
  induction commands generalizing h s reader sent with
  | nil => exact .done ⟨.refl hs, fun hnil => ⟨hnil, rfl, rfl, rfl⟩⟩
  | cons c commands ih =>
    obtain ⟨⟨flag, wanted⟩, messages⟩ := c
    obtain ⟨hne, hof⟩ := hlisted _ _ _ List.mem_cons_self
    refine (sendCommand_safe hJ hs hof (hsettle flag wanted)).bind ?_
    rintro ⟨reader₁, sent₁⟩ tr u ⟨hproceeds, hnil⟩
    refine (ih hproceeds.steady (fun f w m hm => hlisted f w m (List.mem_cons_of_mem _ hm)) ?_).mono
      ?_
    · intro flag wanted identities h' s' hback hs'
      exact hsettle flag wanted identities h' s' (hback.earlier hproceeds.toPasses) hs'
    · rintro ⟨reader₂, sent₂⟩ tr' v ⟨hproceeds', hnil'⟩
      exact ⟨hproceeds.trans hproceeds', fun h => absurd (hnil (hnil' h).1).1 hne⟩

/-- **The sending step**: only changes are ended that a reading right after their command
shows; when nothing was sent, only the pending changes were read. -/
theorem sendImapChanges_safe (hs : J h s) {reader : MailboxReader} {listed : List ListedMessage}
    {sent : SentChanges} {batches : BatchWriter}
    (hsettle : ∀ flag wanted identities h' s', ReadBack J listed flag wanted identities h h' s s' →
      J h' s' → Safe (surroundings S) G h' s' (batches.settle identities flag wanted) fun _ h'' u =>
        Passes J ByStore h' h'' s' u) :
    Safe (surroundings S) G h s (sendImapChanges reader listed sent batches) fun r h' u =>
      Proceeds J reader r.1 h h' s u ∧
        (r.2 = [] → sent = [] ∧ r.1 = reader ∧ Passes J ByStore h h' s u ∧ Kept s.2 u.2) := by
  refine (keeping_safe hJ hs id id).bind ?_
  rintro pending tr u ⟨hcalled, hu⟩
  have hp : Passes J ByStore h (h ++ tr) s u := Passes.of_called hcalled hu
  have hkept : Kept s.2 u.2 := hcalled.kept id id
  refine (sendCommands_safe hJ hu listed (fun _ _ _ hm => commandsToSend_ofListed hm) ?_).mono ?_
  · intro flag wanted identities h' s' hback hs'
    exact hsettle flag wanted identities h' s' (hback.earlier (hp.mono fun _ => ByStore.quiet)) hs'
  · rintro r tr' v ⟨hproceeds, hnil⟩
    refine ⟨(Proceeds.of_byStore _ hp).trans hproceeds, fun h => ?_⟩
    obtain ⟨hsent, hreader, hh, rfl⟩ := hnil h
    rw [hh]
    exact ⟨hsent, hreader, hp, hkept⟩

end Send

/-! ### A pass's listing -/

/-- What a plan lists: the messages changed since a mod-sequence, or everything. -/
def PassPlan.changedSince : PassPlan → Option (Option UInt64)
  | .nothing => none
  | .changedFlags since => some (some since)
  | .everything => some none

/-- What a plan's listing showed: nothing without a command, or what its command's responses
report. -/
def Planned (J : History S → S.World × Tables → Prop) (server server' : ImapFolder)
    (plan : PassPlan) (listing : FolderListing) (h h' : History S) (s u : S.World × Tables) :
    Prop :=
  ((plan.changedSince = none ∨ server.reader.numbers.messageCount = 0) ∧ listing = ⟨[], none⟩ ∧
    server' = server ∧ h' = h ∧
      u = s) ∨
    ∃ items since answer, plan.changedSince = some since ∧
      Asked J server.reader server'.reader (.uidFetch .all (.listing items since)) answer h h' s u ∧
        server'.identityRule = server.identityRule ∧
        listing.messages = Imap.listing answer.responses ∧
          (listing.refusal = none ↔ answer.ended = none)

section Pass

variable (hJ : Steady J G)

include hJ

theorem listFolder_safe (hs : J h s) {server : ImapFolder} {plan : PassPlan} {since : Option UInt64}
    (hplan : plan.changedSince = some since) :
    Safe (surroundings S) G h s
      ((readerStep (server.reader.list server.rowItems since)).bind fun r =>
        (.done (r.1, { server with reader := r.2 }) : ImapCycle (FolderListing × ImapFolder)))
      fun r h' u => Planned J server r.2 plan r.1 h h' s u := by
  refine (Safe.mapFail (list_safe hJ hs)).bind ?_
  rintro ⟨listing, reader⟩ tr u hq
  refine .done ?_
  rcases hq with ⟨hcount, heq, htr, hu⟩ | ⟨answer, hasked, hmessages, hrefusal⟩
  · obtain ⟨rfl, rfl⟩ := Prod.mk.inj heq
    exact .inl ⟨.inr hcount, rfl, rfl, htr, hu⟩
  · exact .inr ⟨_, since, answer, hplan, hasked, rfl, hmessages, hrefusal⟩

/-- **A pass's listing.** -/
theorem listPlanned_safe (hs : J h s) {server : ImapFolder} {plan : PassPlan} :
    Safe (surroundings S) G h s (listPlanned server plan) fun r h' u => Planned J server r.2 plan
      r.1 h h' s u := by
  cases plan with
  | nothing => exact .done (.inl ⟨.inl rfl, rfl, rfl, rfl, rfl⟩)
  | changedFlags since => exact listFolder_safe hJ hs rfl
  | everything => exact listFolder_safe hJ hs rfl

end Pass

/-! ### Missing messages fetched -/

/-- What one batch of missing messages stores: messages the account holds, as they were
listed, and messages with flags a row command gave; and when no refusal ended the rows,
a message in neither was left unanswered. -/
structure Fetched (J : History S → S.World × Tables → Prop) (account : AccountId)
    (messages : List ListedMessage) (batch : FolderBatch) (refusal : Option ServerReply)
    (h h' : History S) (s u : S.World × Tables) : Prop
    extends Passes J Quiet h h' s u where
  /-- The store. -/
  tables : Kept s.2 u.2
  /-- Nothing else. -/
  only : batch.removed = [] ∧ batch.flagStates = [] ∧ batch.state = none
  /-- The messages the account holds. -/
  known : ∀ p ∈ batch.knownArrived, ∃ message ∈ messages, p = (message.identity, message.flags)
  /-- The messages fetched. -/
  arrived : ∀ m ∈ batch.arrived, ∃ message ∈ messages, m.identity = message.identity ∧
    Occurred (Gives · message.uid m.flags) h h' s u
  /-- The messages left out. -/
  complete : refusal = none → ∀ message ∈ messages,
    (message.identity ∈ batch.knownArrived.map Prod.fst ∧
      (u.2.values? account.asStr message.identity).isSome) ∨
      message.identity ∈ batch.arrived.map Message.identity ∨
      Occurred (Unanswered · message.uid) h h' s u

/-- No two messages have one UID. -/
def OnePerUid (messages : List ListedMessage) : Prop :=
  ∀ m ∈ messages, ∀ m' ∈ messages, m.uid = m'.uid → m = m'

theorem mem_arrivals {rules : ContentRules} {unknown : List ListedMessage} {rows : List MessageRow}
    {contents : List (UInt32 × ReceivedContent × String)} {m : Message}
    (h : m ∈ ImapFolder.arrivals rules unknown rows contents) :
    ∃ message ∈ unknown, ∃ row ∈ rows, row.uid = message.uid ∧ m.identity = message.identity ∧
      m.flags = row.flags := by
  rw [ImapFolder.arrivals, List.mem_filterMap] at h
  obtain ⟨row, hrow, h⟩ := h
  rw [Option.bind_eq_bind, Option.bind_eq_some_iff] at h
  obtain ⟨⟨content, preview⟩, -, h⟩ := h
  rw [Option.bind_eq_bind, Option.bind_eq_some_iff] at h
  obtain ⟨message, hfind, h⟩ := h
  cases h
  have huid : message.uid = row.uid := by simpa using List.find?_some hfind
  exact ⟨message, List.mem_of_find?_eq_some hfind, row, hrow, huid.symm, rfl, rfl⟩

theorem exists_arrival {rules : ContentRules} {unknown : List ListedMessage}
    {rows : List MessageRow} {contents : List (UInt32 × ReceivedContent × String)}
    {message : ListedMessage} (hone : OnePerUid unknown) (hmessage : message ∈ unknown)
    {row : MessageRow} (hrow : row ∈ rows) (huid : row.uid = message.uid)
    {content : ReceivedContent × String} (hcontent : (row.uid, content) ∈ contents) :
    message.identity ∈ (ImapFolder.arrivals rules unknown rows contents).map Message.identity := by
  have hlookup : (contents.lookup row.uid).isSome := by
    rw [Option.isSome_iff_ne_none]
    intro hnone
    have := List.lookup_eq_none_iff.mp hnone _ hcontent
    simp at this
  obtain ⟨⟨content', preview⟩, hlookup⟩ := Option.isSome_iff_exists.mp hlookup
  have hfind : unknown.find? (fun m => m.uid = row.uid) = some message := by
    cases hf : unknown.find? (fun m => m.uid = row.uid) with
    | none =>
      have := List.find?_eq_none.mp hf message hmessage
      simp [huid] at this
    | some m =>
      have hm : m.uid = row.uid := by simpa using List.find?_some hf
      rw [hone m (List.mem_of_find?_eq_some hf) message hmessage (hm.trans huid)]
  have harrival : (⟨message.identity, rules.decodeDisplayFields row.listHeaders, row.internalDate,
    row.seen, row.flagged,
      content', preview⟩ : Message) ∈ ImapFolder.arrivals rules unknown rows contents := by
    refine List.mem_filterMap.mpr ⟨row, hrow, ?_⟩
    simp only [hlookup, hfind, Option.bind_eq_bind, Option.bind_some]
  exact List.mem_map.mpr ⟨_, harrival, rfl⟩

section Fetch

variable (hJ : Steady J G)

include hJ

/-- **One batch of missing messages.** -/
theorem fetchArrivals_safe (hs : J h s) {server : ImapFolder} {rules : ContentRules}
    {messages : List ListedMessage} {recentLimit : ℤ} {batches : BatchWriter}
    (hone : OnePerUid messages) :
    Safe (surroundings S) G h s (server.fetchArrivals rules messages recentLimit batches)
    fun r h' u =>
      Fetched J batches.folder.account messages r.1.1 r.1.2 h h' s u ∧
      Proceeds J server.reader r.2.reader h h' s u ∧
        r.2.identityRule = server.identityRule := by
  refine (keeping_safe hJ hs id id).bind ?_
  rintro held tr u ⟨hcalled, hu⟩
  refine (Safe.mapFail (fetchRowsByUid_safe hJ hu)).bind ?_
  rintro ⟨rows, reader₁⟩ tr' v ⟨hrows, hread, haccounted⟩
  refine (Safe.mapFail (readContents_safe hJ hrows.steady)).bind ?_
  rintro ⟨contents, reader₂⟩ tr'' w ⟨hcontents, hcontent⟩
  have hp : Proceeds J server.reader reader₂ h (h ++ tr ++ tr' ++ tr'') s w :=
    ((Proceeds.of_byStore _ (Passes.of_called hcalled hu)).trans (.of_continues hrows)).trans
      (.of_continues hcontents)
  have hkept : Kept s.2 w.2 := ((hcalled.kept id id).trans hrows.tables).trans hcontents.tables
  refine .done ⟨⟨hp.toPasses, hkept, ⟨rfl, rfl, rfl⟩, ?_, ?_, ?_⟩, hp, rfl⟩
  · rintro p hmem
    obtain ⟨message, hm, rfl⟩ := List.mem_map.mp hmem
    exact ⟨message, (List.mem_filter.mp hm).1, rfl⟩
  · rintro m hmem
    obtain ⟨message, hm, row, hrow, huid, hidentity, hflags⟩ := mem_arrivals hmem
    refine ⟨message, (List.mem_filter.mp hm).1, hidentity, ?_⟩
    rw [hflags, ← huid]
    exact ((hread.given row hrow).later hcontents.toPasses).earlier (Passes.of_called hcalled hu)
  · intro hrefusal message hmessage
    by_cases hheld : message.identity ∈ held
    · obtain ⟨s', met, -, -, -, -, hcall, -⟩ := hcalled.moment
      obtain ⟨hsame, hspec⟩ := storedIdentities_spec hcall
      have hvalues := ((hspec message.identity).mp hheld).2
      rw [← hsame, ← (hrows.tables.trans hcontents.tables).values] at hvalues
      refine .inl ⟨List.mem_map.mpr ⟨(message.identity, message.flags), ?_, rfl⟩, hvalues⟩
      exact List.mem_map_of_mem (List.mem_filter.mpr ⟨hmessage, by simpa using hheld⟩)
    · have hunknown : message ∈ messages.filter fun message => message.identity ∉ held :=
        List.mem_filter.mpr ⟨hmessage, by simpa using hheld⟩
      rcases haccounted hrefusal message.uid (List.mem_map_of_mem hunknown) with hrow | ho
      · obtain ⟨row, hrow, huid⟩ := List.mem_map.mp hrow
        rcases hcontent row hrow with ⟨content, hc⟩ | ho
        · have hone' : OnePerUid (messages.filter fun message => message.identity ∉ held) :=
            fun m hm m' hm' => hone m (List.mem_filter.mp hm).1 m' (List.mem_filter.mp hm').1
          exact .inr (.inl (exists_arrival hone' hunknown hrow huid hc))
        · exact .inr (.inr (huid ▸ (ho.earlier hrows.toPasses).earlier
            (Passes.of_called hcalled hu)))
      · exact .inr (.inr ((ho.later hcontents.toPasses).earlier (Passes.of_called hcalled hu)))

end Fetch

/-- **The missing messages**, a batch at a time: `I rest` holds while the batches `rest` are
still to be stored, and at the end none is, unless a refusal ended the rows. -/
theorem fetchMissing_safe {I : List (List ListedMessage) → History S → S.World × Tables → Prop}
    (hI : ∀ rest, Steady (I rest) G) {rules : ContentRules} {recentLimit : ℤ}
    {batches : BatchWriter} {listed : List ListedMessage} {chunks : List (List ListedMessage)}
    {server : ImapFolder} {sent : SentChanges} (hs : I chunks h s)
    (hone : ∀ chunk ∈ chunks, OnePerUid chunk)
    (hstore : ∀ chunk rest batch refusal h₁ s₁ h₂ s₂, chunk ∈ chunks → I (chunk :: rest) h₁ s₁ →
      Fetched (I (chunk :: rest)) batches.folder.account chunk batch refusal h₁ h₂ s₁ s₂ →
        Safe (surroundings S) G h₂ s₂ (batches.store batch) fun _ h₃ u =>
          Passes (I (if refusal = none then rest else chunk :: rest)) ByStore h₂ h₃ s₂ u)
    (hsettle : ∀ rest flag wanted identities h₁ s₁ h₂ s₂, I rest h₁ s₁ →
      ReadBack (I rest) listed flag wanted identities h₁ h₂ s₁ s₂ → I rest h₂ s₂ →
        Safe (surroundings S) G h₂ s₂ (batches.settle identities flag wanted) fun _ h₃ u =>
          Passes (I rest) ByStore h₂ h₃ s₂ u) :
    Safe (surroundings S) G h s (fetchMissing rules recentLimit batches listed chunks server sent)
    fun r h' u =>
      ∃ rest, Passes (I rest) Quiet h h' s u ∧
        match r with
        | .inl _ => True
        | .inr (server', _) =>
          rest = [] ∧ Proceeds (I []) server.reader server'.reader h h' s u ∧
          server'.identityRule = server.identityRule := by
  induction chunks generalizing h s server sent with
  | nil => exact .done ⟨[], .refl hs, rfl, .refl hs, rfl⟩
  | cons chunk rest ih =>
    refine (fetchArrivals_safe (hI _) hs (hone chunk List.mem_cons_self)).bind ?_
    rintro ⟨⟨batch, refusal⟩, server₁⟩ tr u ⟨hfetched, hp, hrule⟩
    refine (hstore chunk rest batch refusal h s _ u List.mem_cons_self hs hfetched).bind ?_
    rintro _ tr' v hstored
    refine (sendImapChanges_safe (hI _) hstored.steady ?_).bind ?_
    · intro flag wanted identities h' s' hback hs'
      exact hsettle _ flag wanted identities _ v h' s' hstored.steady hback hs'
    · rintro ⟨reader, sent'⟩ tr'' w ⟨hsent, -⟩
      have hpasses := (hp.trans (.of_byStore _ hstored)).trans hsent
      cases refusal with
      | some refusal => exact .done ⟨_, hpasses.toPasses, trivial⟩
      | none =>
        refine (ih hpasses.steady (fun c hc => hone c (List.mem_cons_of_mem _ hc))
          (fun c r b f h₁ s₁ h₂ s₂ hc => hstore c r b f h₁ s₁ h₂ s₂
            (List.mem_cons_of_mem _ hc))).mono ?_
        rintro r tr₃ x ⟨rest', hrest, hr⟩
        refine ⟨rest', hpasses.toPasses.trans hrest, ?_⟩
        cases r with
        | inl => trivial
        | inr r =>
          obtain ⟨hnil, hproceeds, hrule'⟩ := hr
          exact ⟨hnil, hpasses.trans hproceeds, hrule'.trans hrule⟩

end Mailbag.Cycle
