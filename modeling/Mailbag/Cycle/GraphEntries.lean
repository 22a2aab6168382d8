import Mailbag.Cycle.Graph
import Mailbag.Graph.MergedEntries
import Mathlib.Order.Bounds.Basic

/-!
# The entries of a Microsoft 365 page

The entries of a page are gone through in the order of a hash map. What each comes to
depends on its kind, on what the cycle is reading, on two readings of the store, and, when
the message is read again, on the service's answer; the texts are then read for the
arrivals that want one.

## What is proved

* `readEntries_safe`, `readTexts_safe` — what the two halves ask, and what they leave;
* `mem_textRequests_range` — the dates the texts are asked for.
-/

namespace Mailbag.Cycle

open Collections Graph Imap Interaction Relation Store

variable {S : Server GraphRequest.Reply}

/-- The request was made and answered so. -/
def Replied (tr : History S) (request : GraphRequest) (reply : request.Reply) : Prop :=
  ∃ before after, (⟨before, .server request, reply, after⟩ : Happened S) ∈ tr

/-- The request was made. -/
def Requested (tr : History S) (request : GraphRequest) : Prop := ∃ e ∈ tr, e.op = .server request

/-- The texts an event brought. -/
def answeredTexts : Happened S → List (String × Option String)
  | ⟨_, .server (.readMessageText id), .ok text, _⟩ => [(id, text)]
  | ⟨_, .server (.readTextsReceivedBetween ..), .ok texts, _⟩ => texts
  | _ => []

/-- Another folder of the account holds the message. -/
def HeldElsewhere (t : Tables) (folder : FolderRef) (identity : String) : Prop :=
  ∃ fo, fo ≠ folder.identity ∧ t.Holds folder.account.asStr fo identity

/-- The account holds the message. -/
def HeldByAccount (t : Tables) (folder : FolderRef) (identity : String) : Prop :=
  (t.values? folder.account.asStr identity).isSome

/-- A full entry's fields may be stored: no other folder holds the message and, in a round,
the account does not hold it. -/
def Trusted (t : Tables) (folder : FolderRef) (reading : Reading) (identity : String) : Prop :=
  ¬HeldElsewhere t folder identity ∧ ¬(reading = .round ∧ HeldByAccount t folder identity)

/-- What the page, or the service when the message is read again, says is in the folder. -/
inductive Found (t : Tables) (folder : FolderRef) (reading : Reading) (tr : History S)
    (id : String) : MessageChange → Option GraphMessage → Prop
  /-- A removal. -/
  | removed {id' : String} : Found t folder reading tr id (.removed id') none
  /-- A full entry stored as reported. -/
  | reported {message : GraphMessage} (htrusted : Trusted t folder reading (graphIdentity id)) :
      Found t folder reading tr id (.listed message) (some message)
  /-- Any other entry: what the service answers now, if it places the message in the folder. -/
  | readAgain {change : MessageChange} {answer : Option (GraphMessage × String)}
      (hkept : isRemoved change = false)
      (hnot : change.listed?.isSome → ¬Trusted t folder reading (graphIdentity id))
      (hreply : Replied tr (.readMessage id) (.ok answer)) :
      Found t folder reading tr id
        change ((answer.filter fun found => found.2 = folder.identity).map Prod.fst)

/-- The entry reports the message's list fields. -/
def fieldsReported : MessageChange → Prop
  | .listed _ => True
  | .changed _ _ _ otherFields => otherFields = true
  | .removed _ => False

/-- The message arrived within the limit, and the account lacks it or its fields were reported. -/
def WantsText (t : Tables) (folder : FolderRef) (recentLimit : ℤ) (id : String)
    (change : MessageChange) (message : GraphMessage) : Prop :=
  (¬HeldByAccount t folder (graphIdentity id) ∨ fieldsReported change) ∧
    ∃ received, message.receivedUnix = some received ∧ recentLimit ≤ received

/-- What the two readings of the store said of a page's messages is so. -/
def Knows (t : Tables) (folder : FolderRef) (known : KnownMessages) (ids : List String) : Prop :=
  ∀ id ∈ ids, (graphIdentity id ∈ known.heldElsewhere ↔ HeldElsewhere t folder (graphIdentity id)) ∧
    (graphIdentity id ∈ known.heldByAccount ↔ HeldByAccount t folder (graphIdentity id))

variable {t : Tables} {folder : FolderRef} {reading : Reading} {known : KnownMessages}
  {recentLimit : ℤ} {h : History S} {s : S.World × Tables} {G : History S → Happened S → Prop}

theorem Replied.mono {tr tr' : History S} {request : GraphRequest} {reply : request.Reply}
    (hr : Replied tr request reply) (hsub : tr ⊆ tr') : Replied tr' request reply := by
  obtain ⟨before, after, he⟩ := hr
  exact ⟨before, after, hsub he⟩

theorem Found.mono {tr tr' : History S} {id : String} {change : MessageChange}
    {found : Option GraphMessage} (hf : Found t folder reading tr id change found)
    (hsub : tr ⊆ tr') : Found t folder reading tr' id change found := by
  cases hf with
  | removed => exact .removed
  | reported htrusted => exact .reported htrusted
  | readAgain hkept hnot hreply => exact .readAgain hkept hnot (hreply.mono hsub)

theorem wantsText_iff {id : String} {ids : List String} (hknown : Knows t folder known ids)
    (hid : id ∈ ids) (change : MessageChange) (message : GraphMessage) :
    wantsText known recentLimit id change message = true ↔
      WantsText t folder recentLimit id change message := by
  have hrecent : isRecent message recentLimit = true ↔
      ∃ received, message.receivedUnix = some received ∧ recentLimit ≤ received := by
    rw [isRecent, Option.any_eq_true]
    simp
  rw [WantsText, ← hrecent, ← (hknown id hid).2]
  cases change <;> simp [wantsText, fieldsReported]

/-- The entry's message is read again when the entry is not a removal and is not trusted. -/
theorem readsAgain_iff {id : String} {ids : List String} (hknown : Knows t folder known ids)
    (hid : id ∈ ids) (change : MessageChange) :
    readsAgain known reading id change = true ↔
      isRemoved change = false ∧
      (change.listed?.isSome → ¬Trusted t folder reading (graphIdentity id)) := by
  rw [Trusted, ← (hknown id hid).1, ← (hknown id hid).2]
  cases change with
  | removed => simp [readsAgain, isRemoved]
  | changed => simp [readsAgain, isRemoved, MessageChange.listed?]
  | listed message =>
    simp only [readsAgain, isRemoved, MessageChange.listed?, Bool.or_eq_true, Bool.and_eq_true,
      decide_eq_true_eq, Option.isSome_some, true_and, forall_const]
    tauto

/-! ### The entries -/

/-- What an entry comes to, once it is known what is in the folder. -/
def outcomeOf (known : KnownMessages) (recentLimit : ℤ) (found : String → Option GraphMessage)
    (entry : String × MessageChange) : String ⊕ Arrival :=
  match found entry.1 with
  | some message => .inr ⟨message, wantsText known recentLimit entry.1 entry.2 message⟩
  | none => .inl (graphIdentity entry.1)

/-- A request, answered with a result. -/
theorem graphRequest_safe {β : Type} {request : GraphRequest} {f : request.Reply → GraphCycle β}
    {Q : β → History S → S.World × Tables → Prop}
    (hf : ∀ s' reply u, Safe (surroundings S) G (h ++ [⟨s', .server request, reply, u⟩]) u
      (f reply) Q)
    (hG : ∀ e : Happened S, e.op = .server request → G h e) :
    Safe (surroundings S) G h s ((graphRequest request).bind f) Q := by
  refine Safe.bind (R := fun reply h' u => ∃ s', h' = h ++ [⟨s', .server request, reply, u⟩])
    (.request ?_) ?_
  · intro s' reply u _ _
    exact ⟨hG _ rfl, s', rfl⟩
  · rintro reply tr u ⟨s', heq⟩
    rw [heq]
    exact hf s' reply u

theorem readInFolder_safe (id folder : String) (hG : ∀ h e, G h e) :
    Safe (surroundings S) G h s (readInFolder id folder) fun found h' _ =>
      ∃ e answer, h' = h ++ [e] ∧ e.op = .server (.readMessage id) ∧
        Replied [e] (.readMessage id) (.ok answer) ∧
        found = (answer.filter fun found => found.2 = folder).map Prod.fst := by
  refine graphRequest_safe (fun s' reply u => ?_) fun e _ => hG h e
  cases reply with
  | error error => exact .fail
  | ok answer => exact .done ⟨_, answer, rfl, rfl, ⟨s', u, List.mem_singleton.mpr rfl⟩, rfl⟩

/-- **One entry.** -/
theorem readEntry_safe {id : String} {ids : List String} (hknown : Knows t folder known ids)
    (hid : id ∈ ids) (change : MessageChange) (hG : ∀ h e, G h e) :
    Safe (surroundings S) G h s (readEntry known reading recentLimit folder.identity id change)
    fun outcome h' _ =>
      ∃ (tr : History S) (found : Option GraphMessage), h' = h ++ tr ∧
        (∀ e ∈ tr, e.op = .server (.readMessage id)) ∧ Found t folder reading tr id change found ∧
        outcome = some (outcomeOf known recentLimit (fun _ => found) (id, change)) := by
  unfold readEntry
  split
  · rename_i hagain
    obtain ⟨hkept, hnot⟩ := (readsAgain_iff hknown hid change).mp hagain
    refine (readInFolder_safe id folder.identity hG).bind ?_
    rintro found tr u ⟨e, answer, heq, hop, hreply, rfl⟩
    have hfound : Found t folder reading [e] id change
        ((answer.filter fun found => found.2 = folder.identity).map Prod.fst) :=
          .readAgain hkept hnot hreply
    have hops : ∀ e' ∈ [e], e'.op = .server (.readMessage id) := fun e' he => by
      rw [List.mem_singleton.mp he, hop]
    cases hanswer : (answer.filter fun found => found.2 = folder.identity).map Prod.fst with
    | none =>
      rw [hanswer] at hfound
      exact .done ⟨[e], none, heq, hops, hfound, by simp only [outcomeOf]⟩
    | some message =>
      rw [hanswer] at hfound
      exact .done ⟨[e], some message, heq, hops, hfound, by simp only [outcomeOf]⟩
  · rename_i hfirst
    rw [readsAgain_iff hknown hid] at hfirst
    have hops : ∀ e ∈ ([] : History S), e.op = .server (.readMessage id) :=
      fun e he => absurd he List.not_mem_nil
    cases change with
    | removed id' =>
      exact .done ⟨[], none, (List.append_nil h).symm, hops, .removed, by simp only [outcomeOf]⟩
    | listed message =>
      have htrusted : Trusted t folder reading (graphIdentity id) := by
        by_contra hnot
        exact hfirst ⟨rfl, fun _ => hnot⟩
      have hfound : Found t folder reading ([] : History S) id (.listed message) (some message) :=
        .reported htrusted
      exact .done ⟨[], some message, (List.append_nil h).symm, hops,
        hfound, by simp only [outcomeOf]⟩
    | changed => exact absurd ⟨rfl, nofun⟩ hfirst

/-- **The entries**, in any order. -/
theorem readEntries_safe {changes : List (String × MessageChange)} {ids : List String}
    (hknown : Knows t folder known ids) (hids : ∀ entry ∈ changes, entry.1 ∈ ids)
    (hkeys : (changes.map Prod.fst).Nodup) (hG : ∀ h e, G h e) :
    Safe (surroundings S) G h s (readEntries known reading recentLimit folder.identity changes)
    fun outcomes h' _ =>
      ∃ (tr : History S) (found : String → Option GraphMessage), h' = h ++ tr ∧
        (∀ e ∈ tr, ∃ id, e.op = .server (.readMessage id)) ∧
        (∀ entry ∈ changes, Found t folder reading tr entry.1 entry.2 (found entry.1)) ∧
        outcomes = changes.map (outcomeOf known recentLimit found) := by
  induction changes generalizing h s with
  | nil =>
    exact .done ⟨[], fun _ => none, (List.append_nil h).symm, fun e he =>
      absurd he List.not_mem_nil,
      fun entry he => absurd he List.not_mem_nil, rfl⟩
  | cons entry changes ih =>
    obtain ⟨id, change⟩ := entry
    rw [List.map_cons, List.nodup_cons] at hkeys
    refine (readEntry_safe hknown (hids _ List.mem_cons_self) change hG).bind ?_
    rintro outcome tr₀ u ⟨tr, found, heq, hops, hfound, rfl⟩
    rw [heq]
    refine (ih (fun entry he => hids entry (List.mem_cons_of_mem _ he)) hkeys.2).bind ?_
    rintro outcomes tr₀' u' ⟨tr', found', heq', hops', hfound', rfl⟩
    rw [heq']
    have hother : ∀ entry ∈ changes, Function.update found' id found entry.1 = found' entry.1 := by
      intro entry he
      have hmem : entry.1 ∈ changes.map Prod.fst := List.mem_map_of_mem he
      refine Function.update_of_ne (fun heq => hkeys.1 ?_) _ _
      rwa [heq] at hmem
    refine .done ⟨tr ++ tr', Function.update found' id found, by simp, ?_, ?_, ?_⟩
    · intro e he
      rcases List.mem_append.mp he with he | he
      · exact ⟨id, hops e he⟩
      · exact hops' e he
    · intro entry he
      rcases List.mem_cons.mp he with rfl | he
      · rw [Function.update_self]
        exact hfound.mono (List.subset_append_left _ _)
      · rw [hother entry he]
        exact (hfound' entry he).mono (List.subset_append_right _ _)
    · rw [List.map_cons, Option.toList_some, List.singleton_append]
      refine congrArg₂ List.cons ?_ (List.map_congr_left fun entry he => ?_)
      · rw [outcomeOf, outcomeOf, Function.update_self]
      · rw [outcomeOf, outcomeOf, hother entry he]

/-! ### The texts -/

/-- The requests for the texts of the arrivals that want one. -/
def textRequests (arrivals : List Arrival) (reading : Reading) (folder : String) :
    List GraphRequest :=
  let recent := (arrivals.filter Arrival.wantsText).map Arrival.message
  match reading with
  | .round => recent.map fun message => .readMessageText message.immutableId
  | .firstFill _ | .fullRereading _ =>
    match (recent.filterMap GraphMessage.receivedUnix).min?, (recent.filterMap
      GraphMessage.receivedUnix).max? with
    | some first, some last => [.readTextsReceivedBetween folder first last]
    | _, _ => []

/-- When messages were received. -/
def datesOf (messages : Set GraphMessage) : Set ℤ :=
  {received | ∃ message ∈ messages, message.receivedUnix = some received}

theorem mem_textRequests_round {arrivals : List Arrival} {folder : String}
    {request : GraphRequest} :
    request ∈ textRequests arrivals .round folder ↔
      ∃ message ∈ (arrivals.filter Arrival.wantsText).map Arrival.message, request =
        .readMessageText message.immutableId := by
  simp only [textRequests, List.mem_map, eq_comm]

theorem mem_textRequests_range {arrivals : List Arrival} {folder : String} {request : GraphRequest}
    (hreading : reading ≠ .round) :
    request ∈ textRequests arrivals reading folder ↔
    ∃ first last, request = .readTextsReceivedBetween folder first last ∧
      IsLeast (datesOf {message | message ∈ (arrivals.filter Arrival.wantsText).map
        Arrival.message}) first ∧
        IsGreatest (datesOf {message | message ∈ (arrivals.filter Arrival.wantsText).map
          Arrival.message}) last := by
  have hrange : ∀ dates : List ℤ, ∀ D : Set ℤ, (∀ d, d ∈ dates ↔ d ∈ D) →
    (request ∈ (match dates.min?, dates.max? with
        | some first, some last => [GraphRequest.readTextsReceivedBetween folder first last]
        | _, _ => []) ↔
      ∃ first last, request = .readTextsReceivedBetween folder first last ∧ IsLeast D first ∧
        IsGreatest D last) := by
    intro dates D hD
    have hmin : ∀ first, dates.min? = some first ↔ IsLeast D first := by
      intro first
      rw [List.min?_eq_some_iff, IsLeast, ← hD]
      exact and_congr_right fun _ => forall_congr' fun d => imp_congr_left (hD d)
    have hmax : ∀ last, dates.max? = some last ↔ IsGreatest D last := by
      intro last
      rw [List.max?_eq_some_iff, IsGreatest, ← hD]
      exact and_congr_right fun _ => forall_congr' fun d => imp_congr_left (hD d)
    simp only [← hmin, ← hmax]
    cases hl : dates.min? with
    | none => simp
    | some first =>
      cases hg : dates.max? with
      | none => simp
      | some last => simp
  have hdates : ∀ d, d ∈ ((arrivals.filter Arrival.wantsText).map Arrival.message).filterMap
    GraphMessage.receivedUnix ↔
      d ∈ datesOf {message | message ∈ (arrivals.filter Arrival.wantsText).map Arrival.message} :=
        fun d => List.mem_filterMap
  cases reading with
  | round => exact absurd rfl hreading
  | firstFill => exact hrange _ _ hdates
  | fullRereading => exact hrange _ _ hdates

theorem readTextsOf_safe (messages : List GraphMessage) (hG : ∀ h e, G h e) :
    Safe (surroundings S) G h s (readTextsOf messages) fun texts h' _ => ∃ tr, h' = h ++ tr ∧
      texts = tr.flatMap answeredTexts ∧
        tr.map Event.op = messages.map fun message =>
        .server (.readMessageText message.immutableId) := by
  induction messages generalizing h s with
  | nil => exact .done ⟨[], by simp, rfl, rfl⟩
  | cons message messages ih =>
    refine graphRequest_safe (fun s' reply u => ?_) fun e _ => hG h e
    cases reply with
    | error error => exact .fail
    | ok text =>
      refine ih.bind ?_
      rintro texts tr₀ u' ⟨tr, heq, rfl, hops⟩
      rw [heq]
      refine .done ⟨_ :: tr, (List.append_cons _ _ _).symm, rfl, ?_⟩
      rw [List.map_cons, List.map_cons, hops]

/-- **The texts**: what is asked for, and what is answered. -/
theorem readTexts_safe (arrivals : List Arrival) (reading : Reading) (folder : String)
    (hG : ∀ h e, G h e) :
    Safe (surroundings S) G h s (readTexts arrivals reading folder) fun texts h' _ =>
      ∃ tr, h' = h ++ tr ∧ texts = tr.flatMap answeredTexts ∧
        tr.map Event.op = (textRequests arrivals reading folder).map .server := by
  unfold readTexts textRequests
  generalize (arrivals.filter Arrival.wantsText).map Arrival.message = recent
  dsimp only
  have hrange : Safe (surroundings S) G h s
      (match (recent.filterMap GraphMessage.receivedUnix).min?,
        (recent.filterMap GraphMessage.receivedUnix).max? with
        | some first, some last => (graphRequest (.readTextsReceivedBetween folder first last)).bind
            fun (answer : Except GraphError (List (String × Option String))) => graphResult answer
        | _, _ => .done [])
      fun texts h' _ => ∃ tr, h' = h ++ tr ∧ texts = tr.flatMap answeredTexts ∧
        tr.map Event.op = List.map CycleOp.server
        (match (recent.filterMap GraphMessage.receivedUnix).min?,
          (recent.filterMap GraphMessage.receivedUnix).max? with
          | some first, some last => [.readTextsReceivedBetween folder first last]
          | _, _ => []) := by
    split
    · refine graphRequest_safe (fun s' reply u => ?_) fun e _ => hG h e
      cases reply with
      | error error => exact .fail
      | ok texts => exact .done ⟨[_], rfl, (List.append_nil texts).symm, rfl⟩
    · exact .done ⟨[], by simp, rfl, rfl⟩
  split
  · rename_i hnone
    rw [List.isEmpty_iff.mp hnone]
    cases reading <;> exact .done ⟨[], by simp, rfl, rfl⟩
  · cases reading with
    | round =>
      refine (readTextsOf_safe recent hG).mono fun texts tr u hq => ?_
      rwa [List.map_map]
    | firstFill => exact hrange
    | fullRereading => exact hrange

end Mailbag.Cycle
