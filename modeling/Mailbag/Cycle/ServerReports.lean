import Mailbag.Cycle.PassReports

/-!
# What an IMAP cycle writes rests on what the server reported

Whatever the server answers, every event of a cycle keeps to its guarantees: the batches of its
passes, those of the missing messages, and the changes it ends.

## What is proved

* `synchronizeImapFolder_lawful` — every event of a cycle is lawful, whatever the server.
-/

namespace Mailbag.Cycle

open Collections Imap Interaction Program Relation Store

variable {S : Server ImapCommand.Reply} {rule : IdentityRule} {folder : FolderRef}

/-! ### The cycle -/

/-- What a cycle keeps true while the batches `rest` of missing messages are to be stored:
every listed message is held, or in `rest`, or was left unanswered since it was listed. -/
structure Covered (rule : IdentityRule) (folder : FolderRef) (listed : List ListedMessage)
    (pending : List PendingChange) (rest : List (List ListedMessage)) (h : History S)
    (s : S.World × Tables) : Prop where
  /-- The store's shape. -/
  shape : Shape s.2
  /-- Where the messages were listed. -/
  first : listed ≠ [] → ∃ h₁ answer generic, FirstListing h₁ answer h ∧
    PrefixAt rule folder h₁ generic ∧
    listed = identified generic (listing answer.responses) ∧
    ∀ change ∈ pending, PendingAt folder h₁ change
  /-- Where they are. -/
  here : ∀ message ∈ listed, (s.2.heldFlags folder message.identity).isSome ∨
    message ∈ rest.flatten ∨
    UnansweredSince h message.uid

section Walk

variable {listed : List ListedMessage} {pending : List PendingChange}
  {rest : List (List ListedMessage)} {h : History S} {s u : S.World × Tables}

theorem FirstListing.append {h₁ : History S} {answer : FetchAnswer} (hf : FirstListing h₁ answer h)
    (tr : History S) : FirstListing h₁ answer (h ++ tr) := by
  obtain ⟨l, h₂, since, rfl, hl, hquiet⟩ := hf
  exact ⟨l, h₂ ++ tr, since, by simp, hl, hquiet⟩

/-- A message a command left unanswered after the first listing. -/
theorem FirstListing.unansweredSince {h₁ h' : History S} {answer : FetchAnswer} {uid : UInt32}
    (hf : FirstListing h₁ answer h) (ho : Occurred (Unanswered · uid) h h' s u) :
    UnansweredSince h' uid := by
  obtain ⟨l, h₂, since, rfl, hl, hquiet⟩ := hf
  obtain ⟨tr, rfl, e, he, hun, -⟩ := ho
  exact ⟨h₁, l, h₂ ++ tr, by simp, hquiet, hl.not_quiet, e, List.mem_append_right _ he, hun⟩

theorem held_of_stays {t t' : Tables} (hs : Stays t t') {identity : String}
    (hh : (t.heldFlags folder identity).isSome) : (t'.heldFlags folder identity).isSome := by
  rw [Tables.heldFlags_isSome_iff] at hh ⊢
  exact (hs.holds _ _ _).mpr hh

theorem Covered.later (hc : Covered rule folder listed pending rest h s) (hs : Stays s.2 u.2)
    (tr : History S) : Covered rule folder listed pending rest (h ++ tr) u := by
  refine ⟨hs.shape hc.shape, fun hne => ?_, fun message hm => ?_⟩
  · obtain ⟨h₁, answer, generic, hf, hrest⟩ := hc.first hne
    exact ⟨h₁, answer, generic, hf.append tr, hrest⟩
  · rcases hc.here message hm with hh | hr | hun
    · exact .inl (held_of_stays hs hh)
    · exact .inr (.inl hr)
    · exact .inr (.inr (hun.append tr))

/-- A property of the tables that calls which move no message keep, and more events. -/
theorem steady_of_stays {J : History S → S.World × Tables → Prop}
    (hJ : ∀ h s u, J h s → Stays s.2 u.2 → ∀ tr, J (h ++ tr) u) : Steady J (Lawful rule folder) :=
  steady_of_kept (fun _ _ => lawful_of_byServer) (fun _ _ => lawful_of_byKeeping)
    fun h s u hs hkept => hJ h s u hs hkept.toStays

theorem covered_steady :
    Steady (Covered (S := S) rule folder listed pending rest) (Lawful rule folder) :=
  steady_of_stays fun _ _ _ hs hstays tr => hs.later hstays tr

theorem shape_steady : Steady (fun (_ : History S) s => Shape s.2) (Lawful rule folder) :=
  steady_of_stays fun _ _ _ hs hstays _ => hstays.shape hs

/-- A change ended on evidence. -/
theorem settle_safe (hs : Covered rule folder listed pending rest h s) {batches : BatchWriter}
    (hfolder : batches.folder = folder) {identities : List String} {flag : MessageFlag}
    {value : Bool}
    (hends : ∀ e : Happened S, e.op = .store (.settleFlags folder.account identities flag value) →
      EndsBy Assumed rule folder h e) :
    Safe (surroundings S) (Lawful rule folder) h s (batches.settle identities flag value)
    fun _ h' u =>
      Passes (Covered rule folder listed pending rest) ByStore h h' s u := by
  subst hfolder
  refine (storeCall_safe covered_steady hs fun e hop _ _ _ _ => ⟨?_, ?_, hends e hop⟩).mono ?_
  · intro batch hop'
    rw [hop] at hop'
    cases hop'
  · rintro before batch state after rfl
    cases hop
  · rintro _ tr u hcalled
    refine Passes.of_called hcalled ?_
    obtain ⟨s', met, -, -, hs', -, hcall, heq⟩ := hcalled.moment
    rw [heq]
    refine hs'.later ?_ _
    have hstays := @call_stays (.settleFlags batches.folder.account identities flag value)
      id s'.2 met
    rwa [hcall] at hstays

/-- The end of a change the listing shows. -/
theorem ends_of_shown (hs : Covered rule folder listed pending rest h s) {identities : List String}
    {flag : MessageFlag} {value : Bool}
    (hshown : ∀ identity ∈ identities, Shown listed pending flag value identity) {e : Happened S}
    (hop : e.op = .store (.settleFlags folder.account identities flag value)) :
    EndsBy Assumed rule folder h e := by
  intro account identities' flag' value' hop'
  rw [hop] at hop'
  cases hop'
  refine ⟨rfl, fun identity hi => ?_⟩
  obtain ⟨hpending, message, hlatest, hvalue⟩ := hshown identity hi
  obtain ⟨hm, -⟩ := mem_of_byIdentity hlatest
  obtain ⟨h₁, answer, generic, hfirst, hgeneric, rfl, hread⟩ := hs.first (List.ne_nil_of_mem hm)
  obtain ⟨hnames, -, hflags⟩ := mem_identified.mp hm
  refine .inl ⟨h₁, answer, message, hfirst, hread _ hpending, ⟨generic, hgeneric, hlatest⟩,
    hnames, ?_⟩
  rw [Assumed, ← hflags]
  exact hvalue

theorem ends_of_readBack {J : History S → S.World × Tables → Prop} {h₀ : History S}
    {s₀ : S.World × Tables} (hs : Covered rule folder listed pending rest h s)
    {identities : List String} {flag : MessageFlag} {value : Bool}
    (hback : ReadBack J listed flag value identities h₀ h s₀ s) {e : Happened S}
    (hop : e.op = .store (.settleFlags folder.account identities flag value)) :
    EndsBy Assumed rule folder h e := by
  intro account identities' flag' value' hop'
  rw [hop] at hop'
  cases hop'
  refine ⟨rfl, fun identity hi => ?_⟩
  obtain ⟨h₁, b₁, a₁, c₁, b₂, a₂, uids, heq, hended, -, -, -, hmessages⟩ := hback.moments
  obtain ⟨message, hm, rfl, huid, hnames, hvalue⟩ := hmessages identity hi
  obtain ⟨h₂, answer, generic, hfirst, hgeneric, rfl, -⟩ := hs.first (List.ne_nil_of_mem hm)
  exact .inr ⟨h₁, b₁, a₁, c₁, b₂, a₂, s, uids, message.uid, heq, hended, huid,
    ⟨h₂, answer, hfirst, reports_of_mem hm hgeneric⟩, hnames, hvalue⟩

/-- **A batch of missing messages**: they are held then, or were left unanswered. -/
theorem storeFetched_safe {J : History S → S.World × Tables → Prop} {batches : BatchWriter}
    (hfolder : batches.folder = folder) {chunk : List ListedMessage} {batch : FolderBatch}
    {refusal : Option ServerReply} {h₀ : History S} {s₀ : S.World × Tables}
    (hs₀ : Covered rule folder listed pending (chunk :: rest) h₀ s₀)
    (hs : Covered rule folder listed pending (chunk :: rest) h s)
    (hf : Fetched J folder.account chunk batch refusal h₀ h s₀ s) :
    Safe (surroundings S) (Lawful rule folder) h s (batches.store batch) fun _ h' u =>
      Passes (Covered rule folder listed pending (if refusal = none then rest
        else chunk :: rest)) ByStore h h' s u := by
  subst hfolder
  refine (store_safe covered_steady hs fun e hop _ _ _ _ => ⟨?_, ?_, ?_⟩).mono ?_
  · intro batch' hop' identity hr
    rw [hop] at hop'
    cases hop'
    rw [hf.only.1] at hr
    cases hr
  · rintro before batch' state after rfl hstate
    cases hop
    rw [hf.only.2.2] at hstate
    cases hstate
  · intro _ _ _ _ hop'
    rw [hop] at hop'
    cases hop'
  · -- what the batch stores is held, of a message it leaves out the command was left unanswered
    have hafter : ∀ (h' : History S) (u : S.World × Tables), Shape u.2 → (∃ tr, h' = h ++ tr) →
        (∀ identity, (s.2.heldFlags batches.folder identity).isSome ∨
          identity ∈ batch.arrived.map Message.identity ∨
          identity ∈ batch.knownArrived.map Prod.fst ∧
          (s.2.values? batches.folder.account.asStr identity).isSome →
            (u.2.heldFlags batches.folder identity).isSome) →
        Covered rule batches.folder listed pending (if refusal = none then rest
          else chunk :: rest) h' u := by
      rintro h' u hshape ⟨tr, rfl⟩ hhere
      refine ⟨hshape, fun hne => ?_, fun message hm => ?_⟩
      · obtain ⟨h₁, answer, generic, hfirst, hrest⟩ := hs.first hne
        exact ⟨h₁, answer, generic, hfirst.append tr, hrest⟩
      · rcases hs.here message hm with hh | hr | hun
        · exact .inl (hhere _ (.inl hh))
        · by_cases hrefusal : refusal = none
          · rw [if_pos hrefusal]
            rcases List.mem_append.mp (List.flatten_cons ▸ hr) with hr | hr
            · rcases hf.complete hrefusal message hr with hk | ha | hun
              · exact .inl (hhere _ (.inr (.inr hk)))
              · exact .inl (hhere _ (.inr (.inl ha)))
              · obtain ⟨h₁, answer, generic, hfirst, -⟩ := hs₀.first (List.ne_nil_of_mem hm)
                exact .inr (.inr ((hfirst.unansweredSince hun).append tr))
            · exact .inr (.inl hr)
          · rw [if_neg hrefusal]
            exact .inr (.inl hr)
        · exact .inr (.inr (hun.append tr))
    rintro _ tr u (⟨hdefault, heq, rfl⟩ | hcalled)
    · rw [heq]
      refine .refl (hafter h u hs.shape ⟨[], by simp⟩ fun identity hi => ?_)
      rw [hdefault] at hi
      simpa [FolderBatch.default] using hi
    · refine Passes.of_called hcalled ?_
      obtain ⟨s', met, -, hkept, hs', hsame, hcall, heq⟩ := hcalled.moment
      obtain ⟨folderId, ho, happly⟩ := applied_of_stored hs'.shape (answered_of_call hsame hcall)
      refine hafter _ u ?_ ⟨_, heq⟩ fun identity hi => ?_
      · have hshape := call_shape hs'.shape (.storeBatch batches.folder batch) met
        rwa [hcall] at hshape
      · rw [happly]
        refine fetched_held hs'.shape ho hf.only
          (hi.imp (held_of_stays hkept.toStays) (.imp_right fun hk => ⟨hk.1, ?_⟩))
        rw [hkept.values]
        exact hk.2

theorem openFolder_safe (hs : Shape s.2) {name : String} :
    Safe (surroundings S) (Lawful rule folder) [] s (ImapFolder.openFolder rule name)
    fun server h u =>
      numbersAt h = some server.reader.numbers ∧ Passes (fun _ t => Shape t.2) Aside [] h s u ∧
      server.identityRule = rule :=
  (Safe.mapFail (openMailbox_safe shape_steady hs)).bind fun _ _ _ hq => .done ⟨hq.1, hq.2.1, rfl⟩

/-- What the cycle read before its first pass. -/
structure Started (folder : FolderRef) (server : ImapFolder) (stored : FolderSync)
    (pending : List PendingChange) (h : History S) (u : S.World × Tables) : Prop where
  /-- The store's shape. -/
  shape : Shape u.2
  /-- Nothing was listed. -/
  quiet : ∀ e ∈ h, Quiet e
  /-- The numbers. -/
  numbers : numbersAt h = some server.reader.numbers
  /-- The folder. -/
  current : Current folder stored u.2
  /-- The changes. -/
  pending : ∀ change ∈ pending, PendingAt folder h change

theorem Started.of_called {server : ImapFolder} {stored : FolderSync} {s₀ u₁ u₂ : S.World × Tables}
    {tr tr₁ tr₂ : History S} (hn : numbersAt tr = some server.reader.numbers)
    (hopened : Passes (fun _ t => Shape t.2) Aside [] tr s₀ u)
    (hcalled₁ : Called (fun _ t => Shape t.2) (.readFolderSync folder) stored tr (tr ++ tr₁) u u₁)
    (hs₁ : Shape u₁.2)
    (hcalled₂ : Called (fun _ t => Shape t.2) (.readPendingChanges folder) pending (tr ++ tr₁)
      (tr ++ tr₁ ++ tr₂) u₁ u₂)
    (hs₂ : Shape u₂.2) : Started folder server stored pending (tr ++ tr₁ ++ tr₂) u₂ := by
  have hp₁ : Passes (fun (_ : History S) t => Shape t.2) ByStore tr (tr ++ tr₁) u u₁ :=
    Passes.of_called hcalled₁ hs₁
  have hp₂ : Passes (fun (_ : History S) t => Shape t.2) ByStore (tr ++ tr₁)
      (tr ++ tr₁ ++ tr₂) u₁ u₂ :=
    Passes.of_called hcalled₂ hs₂
  have hstart := ((Proceeds.of_byStore server.reader hp₁).trans (.of_byStore _ hp₂))
  refine ⟨hs₂, ?_, hstart.tracks hn, (hcalled₁.current hopened.steady).kept (hcalled₂.kept id id),
    fun change hc => ?_⟩
  · obtain ⟨⟨tr', htr', hk⟩, -⟩ := (hopened.mono fun _ => Aside.quiet).trans hstart.toPasses
    rw [List.nil_append] at htr'
    exact fun e he => (hk e (htr' ▸ he)).1
  · obtain ⟨s', met, -, -, -, -, -, heq⟩ := hcalled₂.moment
    exact ⟨s', pending, u₂, by rw [heq]; simp, hc⟩

/-- **The first pass**: the messages it listed are held, or missing, and every listing so far
is its own. -/
theorem firstPass_safe {batches : BatchWriter} (hfolder : batches.folder = folder)
    {server : ImapFolder} (hrule : server.identityRule = rule) {stored : FolderSync}
    {numbers : FolderNumbers} {plan : PassPlan}
    (hstarted : Started folder server stored pending h s) :
    Safe (surroundings S) (Lawful rule folder) h s (runStatePass server stored numbers batches plan)
    fun r h' u =>
      Covered rule folder r.1.listed pending
      ((missingMessages r.1.listed stored).toChunks batchSize) h' u ∧
        ListsOnly rule folder r.1.listed h' ∧ OnePerUid r.1.listed ∧
        numbersAt h' = some r.2.reader.numbers ∧
          r.2.identityRule = rule := by
  subst hfolder hrule
  obtain ⟨hs, hquiet, hn, hcurrent, hread⟩ := hstarted
  refine (runStatePass_safe (Q := fun pass reader' h' u =>
    Covered server.identityRule batches.folder pass.listed pending
      ((missingMessages pass.listed stored).toChunks batchSize) h' u ∧
      ListsOnly server.identityRule batches.folder pass.listed h' ∧ OnePerUid pass.listed ∧
        numbersAt h' = some reader'.numbers) shape_steady hs ?_).mono
          fun _ _ _ hq => ⟨hq.1.1, hq.1.2.1, hq.1.2.2.1, hq.1.2.2.2, hq.2⟩
  intro listed refusal reader' h' s' hpass
  have hshape : Shape s'.2 := hpass.tables.shape hs
  -- where the messages were listed
  have hlisted : ListsOnly server.identityRule batches.folder listed h' ∧
    (listed ≠ [] → ∃ h₁ answer generic,
      FirstListing h₁ answer h' ∧ PrefixAt server.identityRule batches.folder h₁ generic ∧
        listed = identified generic (listing answer.responses) ∧
          ∀ change ∈ pending, PendingAt batches.folder h₁ change) := by
    cases hpass with
    | unlisted => exact ⟨listsOnly_nil hquiet, fun hne => absurd rfl hne⟩
    | listed hplan hasked hgeneric hended =>
      obtain ⟨tr, g, rfl, hq, hl, hnumbers⟩ := listing_event hasked hn
      have hbefore : ∀ e ∈ h ++ tr, Quiet e :=
        fun e he => (List.mem_append.mp he).elim (hquiet e) (hq e)
      refine ⟨?_, fun _ => ⟨h ++ tr, _, _, ⟨g, [], _, rfl, hl, hbefore⟩, ⟨_, hnumbers, hgeneric⟩,
        rfl, fun change hc => ?_⟩⟩
      · intro h₁ l h₂ since answer' uid identity heq hl' hreports
        rcases List.eq_nil_or_concat h₂ with rfl | ⟨h₃, g', rfl⟩
        · obtain ⟨rfl, hg⟩ := List.append_inj' heq rfl
          cases hg
          obtain ⟨-, rfl⟩ := hl.unique hl'
          exact ⟨hbefore, hreports.mem_identified ⟨_, hnumbers, hgeneric⟩⟩
        · rw [List.concat_eq_append] at heq
          obtain ⟨heq', -⟩ := List.append_inj'
            (heq.trans (by simp) : h ++ tr ++ [g] = (h₁ ++ l :: h₃) ++ [g']) rfl
          exact absurd (hbefore l (by rw [heq']; simp)) hl'.not_quiet
      · obtain ⟨before, changes, after, he, hmem⟩ := hread change hc
        exact ⟨before, changes, after, List.mem_append_left tr he, hmem⟩
  -- what becomes of them
  have hafter : ∀ (tr : History S) (u : S.World × Tables), Shape u.2 → (∀ e ∈ tr, ByStore e) →
      (∀ m ∈ listed, (s'.2.heldFlags batches.folder m.identity).isSome →
        (u.2.heldFlags batches.folder m.identity).isSome) →
      Covered server.identityRule batches.folder listed pending
        ((missingMessages listed stored).toChunks batchSize) (h' ++ tr) u ∧
        ListsOnly server.identityRule batches.folder listed (h' ++ tr) ∧ OnePerUid listed ∧
          numbersAt (h' ++ tr) = some reader'.numbers := by
    intro tr u hu hq hheld
    refine ⟨⟨hu, fun hne => ?_, fun m hm => ?_⟩, hlisted.1.append fun e he => (hq e he).quiet,
      hpass.onePerUid,
      (numbersAt_of_byStore hq).trans (hpass.tracks hn)⟩
    · obtain ⟨h₁, answer, generic, hfirst, hrest⟩ := hlisted.2 hne
      exact ⟨h₁, answer, generic, hfirst.append tr, hrest⟩
    · rw [flatten_toChunks, mem_missingMessages]
      cases hget : stored.get m.identity with
      | none => exact .inr (.inl ⟨hm, rfl⟩)
      | some flags =>
        refine .inl (hheld m hm ?_)
        rw [← (hcurrent.kept hpass.tables).heldFlags, hget]
        rfl
  refine (store_safe shape_steady hshape fun e hop hreal hbefore _ hkept => ?_).mono ?_
  · refine passBatch_lawful hpass hn hop hreal hbefore
      ((hcurrent.kept hpass.tables).kept hkept) ?_ ?_
    · intro h₁ l h₂ h₃ since answer uid identity _ heq hl _
      exact absurd (hquiet l (heq ▸ by simp)) hl.not_quiet
    · intro h₁ l h₂ heq hl
      exact absurd (hquiet l (heq ▸ by simp)) hl
  · rintro _ tr u (⟨-, heq, rfl⟩ | hcalled)
    · have hsame := hafter [] u hshape (fun _ he => absurd he List.not_mem_nil) fun _ _ => id
      rw [heq]
      rwa [List.append_nil] at hsame
    · obtain ⟨s'', met, -, hkept, hs'', hsame, hcall, heq⟩ := hcalled.moment
      obtain ⟨folderId, ho, happly⟩ := applied_of_stored hs'' (answered_of_call hsame hcall)
      rw [heq]
      refine hafter _ u ?_ ?_ fun m hm hheld => ?_
      · have hshape := call_shape hs''
          (.storeBatch batches.folder (passBatch listed refusal stored numbers plan)) met
        rwa [hcall] at hshape
      · intro e he
        cases List.mem_singleton.mp he
        exact ⟨_, rfl⟩
      · rw [happly]
        refine (passBatch_held hs'' ho).mpr ⟨held_of_stays hkept.toStays hheld, fun hr => ?_⟩
        exact (mem_removed.mp hr).2.2.2 (List.mem_map_of_mem hm)

/-- **The second pass.** -/
theorem secondPass_safe {batches : BatchWriter} (hfolder : batches.folder = folder)
    {server : ImapFolder} (hrule : server.identityRule = rule) {numbers : FolderNumbers}
    {refusal : Option ServerReply} (hs : Covered rule folder listed pending [] h s)
    (hlists : ListsOnly rule folder listed h) (hn : numbersAt h = some server.reader.numbers) :
    Safe (surroundings S) (Lawful rule folder) h s (secondPass batches numbers refusal server)
      fun _ _ _ => True := by
  subst hfolder hrule
  refine (Safe.mapFail (reopen_safe covered_steady hs)).bind ?_
  rintro reader tr u ⟨hcontinues, hopened, -⟩
  refine (keeping_safe covered_steady hcontinues.steady id id).bind ?_
  rintro storedNow tr' v ⟨hcalled, hv⟩
  have hstored : Passes (Covered server.identityRule batches.folder listed pending []) ByStore
      (h ++ tr) (h ++ tr ++ tr') u v :=
    Passes.of_called hcalled hv
  have hp := (Proceeds.of_continues hcontinues).trans (Proceeds.of_byStore reader hstored)
  refine (runStatePass_safe (Q := fun _ _ _ _ => True) covered_steady hv ?_).bind
    fun _ _ _ _ => .done trivial
  intro listed' refusal' reader' h' s' hpass
  have hcurrent : Current batches.folder storedNow v.2 := hcalled.current hcontinues.steady.shape
  refine (store_safe covered_steady (hpass.steady hv) fun e hop hreal hbefore _ hkept => ?_).mono
    fun _ _ _ _ => trivial
  refine passBatch_lawful hpass (hp.tracks hn) hop hreal hbefore.shape
    ((hcurrent.kept hpass.tables).kept hkept) ?_ ?_
  · intro h₁ l h₂ h₃ since answer uid identity heq₂ heq₃ hl hreports
    obtain ⟨⟨tr'', heq', hk⟩, -⟩ := hp.toPasses
    obtain ⟨h₄, rfl, -⟩ := listing_split (fun e he => (hk e he).1) hl.not_quiet
      (heq'.symm.trans heq₃)
    obtain ⟨hquiet, m, hm, rfl, rfl⟩ := hlists h₁ l h₄ since answer uid identity rfl hl hreports
    rcases hbefore.here m hm with hh | hr | hun
    · exact .inl hh
    · cases hr
    · rw [heq₂] at hun
      exact .inr (hun.exists_after hquiet hl.not_quiet)
  · intro h₁ l h₂ heq hl
    obtain ⟨c, answer, before, heq', hg, -⟩ := hopened
    obtain ⟨⟨tr'', heq'', hk⟩, -⟩ := hp.toPasses
    obtain ⟨h₃, rfl, rfl⟩ := listing_split (fun e he => (hk e he).1) hl (heq''.symm.trans heq)
    obtain rfl := List.append_cancel_left heq'
    rw [List.append_assoc] at heq''
    exact ⟨h₃, _, tr', congrArg (h₃ ++ ·) (List.append_cancel_left heq'').symm, hg⟩

/-- **Every event of a cycle is lawful.** -/
theorem synchronizeImapFolder_lawful (rules : ContentRules) (rule : IdentityRule) (recentLimit : ℤ)
    (batches : BatchWriter) (hs : Shape s.2) :
    Safe (surroundings S) (Lawful rule batches.folder) [] s
    (synchronizeImapFolder rules rule recentLimit batches)
      fun _ _ _ => True := by
  refine (openFolder_safe hs).bind ?_
  rintro server tr u ⟨hn, hopened, hrule⟩
  rw [List.nil_append] at hn hopened ⊢
  refine (keeping_safe shape_steady hopened.steady id id).bind ?_
  rintro stored tr₁ u₁ ⟨hcalled₁, hs₁⟩
  refine (keeping_safe shape_steady hs₁ id id).bind ?_
  rintro pending tr₂ u₂ ⟨hcalled₂, hs₂⟩
  have hstarted := Started.of_called hn hopened hcalled₁ hs₁ hcalled₂ hs₂
  refine (firstPass_safe rfl hrule hstarted).bind ?_
  rintro ⟨first, server₁⟩ tr₃ u₃ ⟨hcovered, hlists, hone, hn₃, hrule₁⟩
  refine (endChangesTheListingShows_safe (J := Covered rule batches.folder first.listed pending
    ((missingMessages first.listed stored).toChunks batchSize)) hcovered ?_).bind ?_
  · intro flag value identities hshown h' s' hp
    exact settle_safe hp.steady rfl fun e hop => ends_of_shown hp.steady hshown hop
  rintro _ tr₄ u₄ hended
  refine (sendImapChanges_safe covered_steady hended.steady ?_).bind ?_
  · intro flag value identities h' s' hback hs'
    exact settle_safe hs' rfl fun e hop => ends_of_readBack hs' hback hop
  rintro ⟨reader, sent⟩ tr₅ u₅ ⟨hsent, -⟩
  refine (fetchMissing_safe (I := Covered rule batches.folder first.listed pending)
    (fun _ => covered_steady) hsent.steady
    ?_ ?_ ?_).bind ?_
  · intro chunk hchunk m hm m' hm'
    exact hone m (mem_missingMessages.mp (mem_of_mem_toChunks hchunk hm)).1 m'
      (mem_missingMessages.mp (mem_of_mem_toChunks hchunk hm')).1
  · intro chunk rest batch refusal h₁ s₁ h₂ s₂ _ hs₁ hf
    exact storeFetched_safe rfl hs₁ hf.steady hf
  · intro rest flag value identities h₁ s₁ h₂ s₂ _ hback hs'
    exact settle_safe hs' rfl fun e hop => ends_of_readBack hs' hback hop
  rintro (refusal | ⟨server₂, sent'⟩) tr₆ u₆ ⟨rest, hpasses, hr⟩
  · exact .done trivial
  obtain ⟨rfl, hfetched, hrule₂⟩ := hr
  dsimp only
  split
  · have hall := ((Proceeds.of_byStore server₁.reader hended).trans hsent).trans hfetched
    refine secondPass_safe rfl (hrule₂.trans hrule₁) hfetched.steady ?_ (hall.tracks hn₃)
    obtain ⟨⟨tr', htr', hk⟩, -⟩ := hall.toPasses
    rw [htr']
    exact hlists.append fun e he => (hk e he).1
  · exact .done trivial

end Walk

end Mailbag.Cycle
