import Mailbag.Cycle.GraphEntries

/-!
# What a Microsoft 365 page stores

`PageStored` says of the whole page what it stores: it names what the service says is in the folder
(`found`) and reads the batch off it.

## What is proved

* `batchFromChanges_stored` — what a page stores, and which texts are asked for.
-/

namespace Mailbag.Cycle

open Collections Graph Imap Interaction Relation Store

variable {S : Server GraphRequest.Reply}

variable {t : Tables} {folder : FolderRef} {reading : Reading} {known : KnownMessages}
  {recentLimit : ℤ} {h : History S} {s : S.World × Tables} {G : History S → Happened S → Prop}

/-! ### The page -/

/-- A message of the service as the store keeps it, with a content. -/
def stored (rules : ContentRules) (content : ReceivedContent) (message : GraphMessage) :
    Message where
  identity := graphIdentity message.immutableId
  fields := receivedFields message
  receivedUnix := message.receivedUnix
  seen := message.isRead
  flagged := message.flagged
  content := content
  preview := rules.previewOfText (message.bodyPreview.getD "")

/-- The content of a message whose text was asked for: the text the service gave last. -/
def answeredContent (tr : History S) (id : String) : ReceivedContent :=
  match latest id (tr.flatMap answeredTexts) with
  | some (some text) => .text text
  | _ => .textNotReturned

/-- The arrivals that want a text. -/
def Wanted (t : Tables) (folder : FolderRef) (recentLimit : ℤ)
    (changes : List (String × MessageChange)) (found : String → Option GraphMessage) :
    Set GraphMessage :=
  {message | ∃ id change, (id, change) ∈ changes ∧ found id = some message ∧
    WantsText t folder recentLimit id change message}

/-- What a page stores, and what it asks for, where `found` says what is in the folder. -/
structure PageStored (t : Tables) (folder : FolderRef) (rules : ContentRules) (reading : Reading)
    (recentLimit : ℤ) (changes : List (String × MessageChange))
    (found : String → Option GraphMessage) (tr : History S) (batch : FolderBatch) : Prop where
  /-- It is as the page or the service says. -/
  inFolder : ∀ id change, (id, change) ∈ changes → Found t folder reading tr id change (found id)
  /-- Each named message is once in one of the two lists. -/
  once : (batch.removed ++ batch.arrived.map Message.identity).Perm
    (changes.map fun entry => graphIdentity entry.1)
  /-- The batch has nothing else. -/
  rest : batch.flagStates = [] ∧ batch.knownArrived = [] ∧ batch.state = none
  /-- What is not in the folder is removed. -/
  removed : ∀ id change, (id, change) ∈ changes → found id = none → graphIdentity id ∈ batch.removed
  /-- What is in the folder arrives, with its text when it wants one. -/
  wanted : ∀ id change message, (id, change) ∈ changes → found id = some message →
    WantsText t folder recentLimit id change message →
    stored rules (answeredContent tr message.immutableId) message ∈ batch.arrived
  /-- And without one otherwise. -/
  unwanted : ∀ id change message, (id, change) ∈ changes → found id = some message →
    ¬WantsText t folder recentLimit id change message →
    stored rules .notDownloaded message ∈ batch.arrived
  /-- A round asks for the texts one by one, exactly of these. -/
  inRound : reading = .round →
    (∀ id, Requested tr (.readMessageText id) ↔
      ∃ message ∈ Wanted t folder recentLimit changes found, message.immutableId = id) ∧
      ∀ f first last, ¬Requested tr (.readTextsReceivedBetween f first last)
  /-- Any other reading asks for those of the dates from the first to the last of these. -/
  otherwise : reading ≠ .round →
    (∀ id, ¬Requested tr (.readMessageText id)) ∧
      ∀ f first last, Requested tr (.readTextsReceivedBetween f first last) ↔ f = folder.identity ∧
        IsLeast (datesOf (Wanted t folder recentLimit changes found)) first ∧
          IsGreatest (datesOf (Wanted t folder recentLimit changes found)) last

theorem graphIdentity_injective : Function.Injective graphIdentity := by
  intro a b hab
  have := congrArg graphId hab
  rwa [graphId_graphIdentity, graphId_graphIdentity, Option.some.injEq] at this

theorem outcomes_perm {α β γ : Type} (f : α → γ) (g : β → γ) (outcomes : List (α ⊕ β)) :
    ((outcomes.filterMap Sum.getLeft?).map f ++ (outcomes.filterMap Sum.getRight?).map g).Perm
      (outcomes.map (Sum.elim f g)) := by
  induction outcomes with
  | nil => exact .nil
  | cons outcome outcomes ih =>
    cases outcome with
    | inl a => exact ih.cons _
    | inr b => exact List.perm_middle.trans (ih.cons _)

/-- The message read again is the one asked for, so what is found of an entry is its message. -/
theorem Found.own {tr : History S} {id : String} {change : MessageChange} {message : GraphMessage}
    (hf : Found t folder reading tr id change (some message)) (hid : change.id = id)
    (hown : ∀ id message parent, Replied tr (.readMessage id) (.ok (some (message, parent))) →
      message.immutableId = id) : message.immutableId = id := by
  generalize hfound : some message = found at hf
  cases hf with
  | removed => cases hfound
  | reported => cases hfound; exact hid
  | @readAgain _ answer _ _ hreply =>
    obtain ⟨⟨message', parent⟩, hanswer, rfl⟩ := Option.map_eq_some_iff.mp hfound.symm
    obtain ⟨rfl, -⟩ := Option.filter_eq_some_iff.mp hanswer
    exact hown id message' parent hreply

section Page

variable {changes : List (String × MessageChange)} {found : String → Option GraphMessage}
  {tr : History S}

/-- The arrivals among what the entries come to. -/
def arrivalsOf (known : KnownMessages) (recentLimit : ℤ) (changes : List (String × MessageChange))
    (found : String → Option GraphMessage) : List Arrival :=
  (changes.map (outcomeOf known recentLimit found)).filterMap Sum.getRight?

theorem mem_arrivalsOf {arrival : Arrival} : arrival ∈ arrivalsOf known recentLimit changes found ↔
    ∃ id change message, (id, change) ∈ changes ∧ found id = some message ∧
      arrival = ⟨message, wantsText known recentLimit id change message⟩ := by
  rw [arrivalsOf, List.mem_filterMap]
  constructor
  · rintro ⟨outcome, houtcome, harrival⟩
    obtain ⟨⟨id, change⟩, hmem, rfl⟩ := List.mem_map.mp houtcome
    rw [outcomeOf] at harrival
    cases hfound : found id with
    | none =>
      simp only [hfound] at harrival
      cases harrival
    | some message =>
      simp only [hfound] at harrival
      cases harrival
      exact ⟨id, change, message, hmem, hfound, rfl⟩
  · rintro ⟨id, change, message, hmem, hfound, rfl⟩
    refine ⟨_, List.mem_map_of_mem hmem, ?_⟩
    simp only [outcomeOf, hfound]
    rfl

/-- The messages whose texts are asked for are those that want one. -/
theorem mem_recent (hknown : Knows t folder known (changes.map Prod.fst))
    {message : GraphMessage} :
    message ∈ ((arrivalsOf known recentLimit changes found).filter Arrival.wantsText).map
    Arrival.message ↔
      message ∈ Wanted t folder recentLimit changes found := by
  rw [List.mem_map]
  constructor
  · rintro ⟨arrival, harrival, rfl⟩
    obtain ⟨hmem, hwants⟩ := List.mem_filter.mp harrival
    obtain ⟨id, change, message, hchange, hfound, rfl⟩ := mem_arrivalsOf.mp hmem
    exact ⟨id, change, hchange, hfound,
      (wantsText_iff hknown (List.mem_map_of_mem hchange) change message).mp hwants⟩
  · rintro ⟨id, change, hchange, hfound, hwants⟩
    refine ⟨_, List.mem_filter.mpr ⟨mem_arrivalsOf.mpr ⟨id, change, message, hchange, hfound, rfl⟩,
      ?_⟩, rfl⟩
    exact (wantsText_iff hknown (List.mem_map_of_mem hchange) change message).mpr hwants

/-- What a page's run did: it read the store, then entries again, then texts. -/
structure PageRun (t : Tables) (folder : FolderRef) (rules : ContentRules) (reading : Reading)
    (recentLimit : ℤ) (changes : List (String × MessageChange)) (known : KnownMessages)
    (found : String → Option GraphMessage) (tr₀ tr₁ tr₂ : History S) (batch : FolderBatch) :
    Prop where
  /-- The store was read first. -/
  store : ∀ e ∈ tr₀, ∃ op, e.op = .store op
  /-- It said what is so. -/
  knows : Knows t folder known (changes.map Prod.fst)
  /-- Then messages were read again. -/
  again : ∀ e ∈ tr₁, ∃ id, e.op = .server (.readMessage id)
  /-- This is what is in the folder. -/
  inFolder : ∀ entry ∈ changes, Found t folder reading tr₁ entry.1 entry.2 (found entry.1)
  /-- Then texts were read. -/
  texts : tr₂.map Event.op =
    (textRequests (arrivalsOf known recentLimit changes found) reading folder.identity).map .server
  /-- This is the batch. -/
  batch : batch = { FolderBatch.default with
    removed := (changes.map (outcomeOf known recentLimit found)).filterMap Sum.getLeft?
    arrived := (arrivalsOf known recentLimit changes found).map
      (storedMessage rules (tr₂.flatMap answeredTexts)) }

/-- **The run of a page.** -/
theorem batchFromChanges_run {rules : ContentRules} (hkeys : (changes.map Prod.fst).Nodup)
    {batches : BatchWriter} (hshape : Shape s.2) {batch : FolderBatch} {u : S.World × Tables}
    (hrun : Run (surroundings S) (batchFromChanges rules changes reading recentLimit batches) s tr
      (.returned batch) u) :
    ∃ known found tr₀ tr₁ tr₂, tr = tr₀ ++ tr₁ ++ tr₂ ∧
      PageRun s.2 batches.folder rules reading recentLimit changes known found tr₀ tr₁ tr₂
          batch := by
  have hsafe : Safe (surroundings S) (fun _ _ => True) [] s
    (batchFromChanges rules changes reading recentLimit batches)
      fun batch h' _ => ∃ known found tr₀ tr₁ tr₂, h' = tr₀ ++ tr₁ ++ tr₂ ∧
        PageRun s.2 batches.folder rules reading recentLimit changes known found tr₀ tr₁ tr₂
            batch := by
    have hJ : Steady (S := S) (fun _ v => Kept s.2 v.2) fun _ _ => True :=
      steady_of_kept (fun _ _ _ => trivial) (fun _ _ _ => trivial) fun _ _ _ hs hkept _ =>
        hs.trans hkept
    refine Safe.bind (keeping_safe hJ (Kept.refl _) id id) ?_
    rintro elsewhere tr₀ v ⟨hcalled, hv⟩
    refine Safe.bind (keeping_safe hJ hv id id) ?_
    rintro byAccount tr₀' w ⟨hcalled', hw⟩
    obtain ⟨s₁, met, -, hkept, -, -, hcall, heq⟩ := hcalled.moment
    obtain ⟨s₂, met', -, hkept', -, -, hcall', heq'⟩ := hcalled'.moment
    have hknows : Knows s.2 batches.folder ⟨elsewhere, byAccount⟩ (changes.map Prod.fst) := by
      intro id hid
      have hidentity : graphIdentity id ∈ changes.map fun entry => graphIdentity entry.1 := by
        obtain ⟨entry, hentry, rfl⟩ := List.mem_map.mp hid
        exact List.mem_map_of_mem hentry
      have hlinked₁ : Linked s₁.2 := (hkept.shape hshape).toLinked
      constructor
      · refine ((identitiesInOtherFolders_spec hlinked₁ hcall).2 _).trans
          ((and_iff_right hidentity).trans ?_)
        exact exists_congr fun fo => and_congr_right fun _ => hkept.holds _ _ _
      · refine ((storedIdentities_spec hcall').2 _).trans ((and_iff_right hidentity).trans ?_)
        rw [HeldByAccount, (hv.trans hkept').values]
    have hstore : ∀ e ∈ ([] : History S) ++ tr₀ ++ tr₀', ∃ op, e.op = .store op := by
      rw [heq', heq]
      intro e he
      rw [List.nil_append, List.mem_append, List.mem_singleton, List.mem_singleton] at he
      rcases he with rfl | rfl
      · exact ⟨_, rfl⟩
      · exact ⟨_, rfl⟩
    refine Safe.bind (readEntries_safe hknows (fun entry hentry => List.mem_map_of_mem hentry) hkeys
      fun _ _ => trivial) ?_
    rintro outcomes tr₁ x ⟨tr₁', found, heq₁, hagain, hfound, rfl⟩
    refine Safe.bind (readTexts_safe _ reading batches.folder.identity fun _ _ => trivial) ?_
    rintro texts tr₂ y ⟨tr₂', heq₂, rfl, hops⟩
    rw [heq₂, heq₁]
    refine Safe.done ⟨⟨elsewhere, byAccount⟩, found, _, tr₁', tr₂', rfl, ?_⟩
    exact { store := hstore
            knows := hknows
            again := hagain
            inFolder := hfound
            texts := hops
            batch := rfl }
  exact (hsafe tr _ u hrun).2 batch rfl

section Batch

variable {rules : ContentRules} {tr₀ tr₁ tr₂ : History S} {batch : FolderBatch}

theorem PageRun.says
    (hp : PageRun t folder rules reading recentLimit changes known found tr₀ tr₁ tr₂ batch) :
    ∀ id change, (id, change) ∈ changes →
      Found t folder reading (tr₀ ++ tr₁ ++ tr₂) id change (found id) := fun _ _ hmem =>
  (hp.inFolder _ hmem).mono fun _ he => List.mem_append_left _ (List.mem_append_right _ he)

theorem PageRun.own
    (hp : PageRun t folder rules reading recentLimit changes known found tr₀ tr₁ tr₂ batch)
    (hentry : ∀ id change, (id, change) ∈ changes → change.id = id)
    (hown : ∀ id message parent, Replied (tr₀ ++ tr₁ ++ tr₂) (.readMessage id)
      (.ok (some (message, parent))) → message.immutableId = id) :
    ∀ id change message, (id, change) ∈ changes → found id = some message →
      message.immutableId = id := by
  intro id change message hmem hfound
  have hsay := hp.says id change hmem
  rw [hfound] at hsay
  exact hsay.own (hentry id change hmem) hown

theorem PageRun.once
    (hp : PageRun t folder rules reading recentLimit changes known found tr₀ tr₁ tr₂ batch)
    (hown : ∀ id change message, (id, change) ∈ changes → found id = some message →
      message.immutableId = id) :
    (batch.removed ++ batch.arrived.map Message.identity).Perm
      (changes.map fun entry => graphIdentity entry.1) := by
  rw [hp.batch]
  dsimp only
  rw [List.map_map, arrivalsOf]
  have hperm := outcomes_perm id
    (fun arrival : Arrival => graphIdentity arrival.message.immutableId)
    (changes.map (outcomeOf known recentLimit found))
  rw [List.map_id] at hperm
  refine hperm.trans (.of_eq ?_)
  rw [List.map_map]
  refine List.map_congr_left fun entry hmem => ?_
  cases hfound : found entry.1 with
  | none => simp [outcomeOf, hfound]
  | some message => simp [outcomeOf, hfound, hown entry.1 entry.2 message hmem hfound]

theorem PageRun.removed
    (hp : PageRun t folder rules reading recentLimit changes known found tr₀ tr₁ tr₂ batch)
    {identity : String} (hremoved : identity ∈ batch.removed) :
    ∃ id change, (id, change) ∈ changes ∧ identity = graphIdentity id ∧
      Found t folder reading (tr₀ ++ tr₁ ++ tr₂) id change none := by
  rw [hp.batch] at hremoved
  obtain ⟨outcome, houtcome, hleft⟩ := List.mem_filterMap.mp hremoved
  obtain ⟨⟨id, change⟩, hmem, rfl⟩ := List.mem_map.mp houtcome
  have hsays := hp.says id change hmem
  rw [outcomeOf] at hleft
  cases hfound : found id with
  | none =>
    simp only [hfound] at hleft
    rw [hfound] at hsays
    cases hleft
    exact ⟨id, change, hmem, rfl, hsays⟩
  | some message =>
    simp only [hfound] at hleft
    cases hleft

end Batch

theorem PageRun.requested {rules : ContentRules} {tr₀ tr₁ tr₂ : History S} {batch : FolderBatch}
    (hp : PageRun t folder rules reading recentLimit changes known found tr₀ tr₁ tr₂ batch)
    {request : GraphRequest} (hrequest : ∀ id, request ≠ .readMessage id) :
    Requested (tr₀ ++ tr₁ ++ tr₂) request ↔
      request ∈ textRequests (arrivalsOf known recentLimit changes found) reading
      folder.identity := by
  have hlast : Requested (tr₀ ++ tr₁ ++ tr₂) request ↔
      CycleOp.server request ∈ tr₂.map Event.op := by
    rw [List.mem_map]
    constructor
    · rintro ⟨e, he, hop⟩
      rcases List.mem_append.mp he with he | he
      · rcases List.mem_append.mp he with he | he
        · obtain ⟨op, hstore⟩ := hp.store e he
          cases hstore.symm.trans hop
        · obtain ⟨id, hagain⟩ := hp.again e he
          cases hagain.symm.trans hop
          exact absurd rfl (hrequest id)
      · exact ⟨e, he, hop⟩
    · rintro ⟨e, he, hop⟩
      exact ⟨e, List.mem_append_right _ he, hop⟩
  rw [hlast, hp.texts, List.mem_map]
  constructor
  · rintro ⟨request', hmem, heq⟩
    cases heq
    exact hmem
  · exact fun hmem => ⟨request, hmem, rfl⟩

theorem PageRun.answered {rules : ContentRules} {tr₀ tr₁ tr₂ : History S} {batch : FolderBatch}
    (hp : PageRun t folder rules reading recentLimit changes known found tr₀ tr₁ tr₂ batch) :
    (tr₀ ++ tr₁ ++ tr₂).flatMap answeredTexts = tr₂.flatMap answeredTexts := by
  have hstore : tr₀.flatMap answeredTexts = [] := by
    refine List.flatMap_eq_nil_iff.mpr fun e he => ?_
    obtain ⟨op, hop⟩ := hp.store e he
    obtain ⟨before, op', ans, after⟩ := e
    cases hop
    rfl
  have hagain : tr₁.flatMap answeredTexts = [] := by
    refine List.flatMap_eq_nil_iff.mpr fun e he => ?_
    obtain ⟨id, hop⟩ := hp.again e he
    obtain ⟨before, op', ans, after⟩ := e
    cases hop
    rfl
  rw [List.flatMap_append, List.flatMap_append, hstore, hagain]
  rfl

/-- The arrivals that want a text, stored. -/
theorem storedMessage_eq (rules : ContentRules) (tr : History S) (message : GraphMessage)
    (wants : Bool) :
    storedMessage rules (tr.flatMap answeredTexts) ⟨message, wants⟩ =
      stored rules (if wants then answeredContent tr message.immutableId
        else .notDownloaded) message := by
  cases wants <;> rfl

end Page

/-- **What a page stores**, in a run of any server from any reachable store: the entries of a
page, merged per message and in any order, whose messages the service answers with the
identifier asked. -/
theorem batchFromChanges_stored (rules : ContentRules) (entries : List MessageChange)
    (changes : List (String × MessageChange)) (hchanges : changes.Perm (mergePerMessage entries))
    (reading : Reading) (recentLimit : ℤ) (batches : BatchWriter)
    (calls : List (StoreCall × Circumstances)) (w : S.World) (tr : History S) (batch : FolderBatch)
    (u : S.World × Tables)
    (hrun : Run (surroundings S) (batchFromChanges rules changes reading recentLimit batches)
      (w, run .empty calls) tr (.returned batch) u)
    (hown : ∀ id message parent, Replied tr (.readMessage id) (.ok (some (message, parent))) →
      message.immutableId = id) :
    ∃ found, PageStored (run .empty calls) batches.folder rules reading recentLimit changes found tr
      batch := by
  have hkeys : (changes.map Prod.fst).Nodup :=
    (hchanges.map Prod.fst).nodup_iff.mpr (mergePerMessage_keys entries)
  have hentry : ∀ id change, (id, change) ∈ changes → change.id = id := fun id change hmem =>
    mergePerMessage_own (hchanges.mem_iff.mp hmem)
  obtain ⟨known, found, tr₀, tr₁, tr₂, rfl, hp⟩ :=
    batchFromChanges_run hkeys (run_shape shape_empty calls) hrun
  have hsays := hp.says
  have hfoundOwn := hp.own hentry hown
  have hrecent : {message | message ∈
    ((arrivalsOf known recentLimit changes found).filter Arrival.wantsText).map Arrival.message} =
      Wanted (run .empty calls) batches.folder recentLimit changes found :=
        Set.ext fun message => mem_recent hp.knows
  have harrived : ∀ id change message, (id, change) ∈ changes → found id = some message →
      stored rules (if wantsText known recentLimit id change message then
        answeredContent (tr₀ ++ tr₁ ++ tr₂) message.immutableId
          else .notDownloaded) message ∈ batch.arrived := by
    intro id change message hmem hfound
    rw [← storedMessage_eq, hp.answered, hp.batch]
    exact List.mem_map_of_mem (mem_arrivalsOf.mpr ⟨id, change, message, hmem, hfound, rfl⟩)
  have htext : ∀ id id', GraphRequest.readMessageText id ≠ .readMessage id' := by simp
  have hrange : ∀ f first last id', GraphRequest.readTextsReceivedBetween f first last ≠
      .readMessage id' := by simp
  refine ⟨found, hsays, hp.once hfoundOwn, ?_, ?_, ?_, ?_, ?_, ?_⟩
  · rw [hp.batch]
    exact ⟨rfl, rfl, rfl⟩
  · intro id change hmem hfound
    rw [hp.batch]
    refine List.mem_filterMap.mpr ⟨_, List.mem_map_of_mem hmem, ?_⟩
    simp [outcomeOf, hfound]
  · intro id change message hmem hfound hwants
    have hmessage := harrived id change message hmem hfound
    rwa [if_pos ((wantsText_iff hp.knows (List.mem_map_of_mem hmem) change message).mpr hwants)]
      at hmessage
  · intro id change message hmem hfound hwants
    have hmessage := harrived id change message hmem hfound
    rwa [if_neg fun h => hwants
      ((wantsText_iff hp.knows (List.mem_map_of_mem hmem) change message).mp h)] at hmessage
  · rintro rfl
    refine ⟨fun id => ?_, fun f first last => ?_⟩
    · rw [hp.requested (htext id), mem_textRequests_round]
      constructor
      · rintro ⟨message, hmem, heq⟩
        cases heq
        exact ⟨message, (mem_recent hp.knows).mp hmem, rfl⟩
      · rintro ⟨message, hmem, rfl⟩
        exact ⟨message, (mem_recent hp.knows).mpr hmem, rfl⟩
    · rw [hp.requested (hrange f first last), mem_textRequests_round]
      rintro ⟨message, -, heq⟩
      cases heq
  · intro hreading
    refine ⟨fun id => ?_, fun f first last => ?_⟩
    · rw [hp.requested (htext id), mem_textRequests_range hreading]
      rintro ⟨first, last, heq, -⟩
      cases heq
    · rw [hp.requested (hrange f first last), mem_textRequests_range hreading, hrecent]
      constructor
      · rintro ⟨first', last', heq, hfirst, hlast⟩
        cases heq
        exact ⟨rfl, hfirst, hlast⟩
      · rintro ⟨rfl, hfirst, hlast⟩
        exact ⟨first, last, rfl, hfirst, hlast⟩

/-! ### A first fill -/

/-- The request brings the text of a message in the folder. -/
def BringsText (folder : String) (message : GraphMessage) : GraphRequest → Prop
  | .readMessageText id => id = message.immutableId
  | .readTextsReceivedBetween f first last =>
    f = folder ∧ ∃ received, message.receivedUnix = some received ∧ first ≤ received ∧
    received ≤ last
  | _ => False

/-- The texts asked for are exactly those of the arrivals that want one. -/
def AsksExactly (t : Tables) (folder : FolderRef) (recentLimit : ℤ)
    (changes : List (String × MessageChange)) (found : String → Option GraphMessage)
    (tr : History S) : Prop :=
  ∀ id change message, (id, change) ∈ changes → found id = some message →
    ((∃ request, Requested tr request ∧ BringsText folder.identity message request) ↔
      WantsText t folder recentLimit id change message)

/-- Content rules that find nothing to show. -/
def noTextRules : ContentRules where
  selectTextParts _ := .parts []
  selectPreviewPart _ := none
  decodeMessageText _ := .ok ""
  previewOfPiece _ _ _ := ""
  previewOfText text := text
  decodeDisplayFields _ := ⟨none, none, none⟩

/-- The account whose inbox is filled. -/
def filledInbox : FolderRef := ⟨⟨"account", by decide⟩, "INBOX"⟩

/-- A message of the service, received at a second. -/
def receivedAt (id : String) (received : ℤ) : GraphMessage :=
  ⟨id, none, none, [], some received, false, false, none⟩

/-- The archive holds a message the inbox does not. -/
def inArchive : List (StoreCall × Circumstances) :=
  let message : Message :=
    ⟨"graph:b", ⟨none, none, none⟩, some 2000, false, false, .text "Kept", ""⟩
  [(.replaceFolders filledInbox.account [⟨"INBOX", "INBOX", none, none, true⟩,
    ⟨"Archive", "Archive", none, none, true⟩],
      ⟨false, none⟩),
    (.storeBatch ⟨filledInbox.account, "Archive"⟩ { FolderBatch.default with arrived := [message] },
      ⟨false, none⟩)]

/-- Two new messages, and between them the flags of the one in the archive. -/
def scattered : List MessageChange :=
  [.listed (receivedAt "a" 1000), .changed "b" (some true) none false,
    .listed (receivedAt "c" 3000)]

/-- The service has the archived message in the inbox too, and a text of each. -/
def servingTexts : (request : GraphRequest) → request.Reply
  | .readMessageChanges _ => .ok ⟨[], .finished ""⟩
  | .readMessage id => .ok (some (receivedAt id 2000, "INBOX"))
  | .readMessageText _ => .ok none
  | .readTextsReceivedBetween .. =>
    .ok [("a", some "First"), ("b", some "Second"), ("c", some "Third")]
  | .updateMessageFlags .. => .ok ()

/-- Their page in a first fill. -/
def filling :
    History (anyServer GraphRequest.Reply) × Outcome CycleEnd FolderBatch × (Unit × Tables) :=
  exec (scripted servingTexts) (batchFromChanges noTextRules (mergePerMessage scattered)
    (.firstFill false) 0 ⟨filledInbox⟩)
    ((), run .empty inArchive)

/-- The batch the page makes. -/
def filledBatch : FolderBatch where
  removed := []
  flagStates := []
  knownArrived := []
  arrived := [stored noTextRules (.text "Third") (receivedAt "c" 3000),
    stored noTextRules .notDownloaded (receivedAt "b" 2000),
    stored noTextRules (.text "First") (receivedAt "a" 1000)]
  state := none

theorem filling_run :
    Run (surroundings (anyServer GraphRequest.Reply))
      (batchFromChanges noTextRules (mergePerMessage scattered) (.firstFill false) 0 ⟨filledInbox⟩)
      ((), run .empty inArchive)
      filling.1 (.returned filledBatch) filling.2.2 := by
  have hends : filling.2.1 = .returned filledBatch := rfl
  rw [← hends]
  exact run_scripted _ _ _

/-- A message is read as the script says. -/
theorem filling_replied {id : String} {answer : Option (GraphMessage × String)}
    (hr : Replied filling.1 (.readMessage id) (.ok answer)) :
    answer = some (receivedAt id 2000, "INBOX") := by
  obtain ⟨before, after, he⟩ := hr
  have hans := (exec_answered he).1
  exact Except.ok.inj hans

theorem filling_own (id : String) (message : GraphMessage) (parent : String)
    (hr : Replied filling.1 (.readMessage id) (.ok (some (message, parent)))) :
    message.immutableId = id := by
  cases filling_replied hr
  rfl

/-- The page of the first fill. -/
theorem batchFromChanges_stored_filling :
    ∃ found, PageStored (run .empty inArchive) filledInbox noTextRules (.firstFill false) 0
      (mergePerMessage scattered) found
      filling.1 filledBatch :=
  batchFromChanges_stored noTextRules scattered _ (.refl _) _ _ ⟨filledInbox⟩ inArchive
    () _ _ _ filling_run filling_own

/-- **A range of dates brings more texts than those that are wanted**: the archived message lies
between the new ones, so its text is asked for with theirs and not stored. -/
theorem texts_not_asked_exactly :
    ¬∀ (rules : ContentRules) (entries : List MessageChange)
    (changes : List (String × MessageChange)),
      changes.Perm (mergePerMessage entries) →
      ∀ (reading : Reading) (recentLimit : ℤ) (batches : BatchWriter)
        (calls : List (StoreCall × Circumstances)) (tr : History (anyServer GraphRequest.Reply))
        (batch : FolderBatch)
        (u : Unit × Tables),
          Run (surroundings (anyServer GraphRequest.Reply))
          (batchFromChanges rules changes reading recentLimit batches)
            ((), run .empty calls) tr (.returned batch) u →
          (∀ id message parent, Replied tr (.readMessage id) (.ok (some (message, parent))) →
            message.immutableId = id) →
          ∃ found, PageStored (run .empty calls) batches.folder rules reading recentLimit changes
            found tr batch ∧
            AsksExactly (run .empty calls) batches.folder recentLimit changes found tr := by
  intro hclaim
  obtain ⟨found, hstored, hexact⟩ :=
    hclaim noTextRules scattered _ (.refl _) _ _ ⟨filledInbox⟩ inArchive _ _ _ filling_run
    filling_own
  have hmem : ("b", MessageChange.changed "b" (some true) none false) ∈
      mergePerMessage scattered := by decide
  have hfound : found "b" = some (receivedAt "b" 2000) := by
    have hsays := hstored.inFolder _ _ hmem
    generalize found "b" = what at hsays
    cases hsays with
    | readAgain _ _ hreply =>
      rw [filling_replied hreply]
      rfl
  obtain ⟨e, he, hop⟩ := List.mem_map.mp
    (by decide : CycleOp.server (.readTextsReceivedBetween "INBOX" 1000
      3000) ∈ filling.1.map Event.op)
  have hwants := (hexact _ _ _ hmem hfound).mp
    ⟨.readTextsReceivedBetween "INBOX" 1000 3000, ⟨e, he, hop⟩, rfl, 2000,
      rfl, by decide, by decide⟩
  have hheld : HeldByAccount (run .empty inArchive) filledInbox (graphIdentity "b") :=
    (by decide :
      ((run .empty inArchive).values? filledInbox.account.asStr (graphIdentity "b")).isSome = true)
  rcases hwants.1 with hlacks | hreported
  · exact hlacks hheld
  · cases hreported

end Mailbag.Cycle
