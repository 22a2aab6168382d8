import Mailbag.Collections.Grouping
import Mailbag.Imap.PageWithText
import Mailbag.Imap.RowsByUid

/-!
# Every text request is answered once

`fetchText` groups the requests by the shape of what to read, gives one command for each
shape, and finds each message's text among the responses, which may come in pieces and in
any order. Its callers rely on this: a message is removed when its text says so, and the
last of the parts is taken for the page.

## What is proved

* `uidsByShape_perm` — the groups name every request once.
* `fetchText_answers` — when `fetchText` returns, each request was answered once, with its
  own UID and limit, and with the parts of its own shape in their order; a message reported
  gone was left out by a command the server completed with OK; and a page read with the
  text is the last part received.
-/

namespace Mailbag.Imap

open Collections Cycle Interaction Program Relation Store

/-! ### The groups -/

/-- The shapes of the requests. -/
def TextRequest.shape (request : TextRequest) : TextParts × Option UInt32 :=
  (request.parts, request.limit)

/-- The parts as a list of leaves, none for a single-part body. -/
def TextParts.leaves? : TextParts → Option (List (List UInt32))
  | .singlePartBody => none
  | .multipartLeaves leaves => some leaves

theorem compareShape_eq :
    compareShape = compareLex (compareOn fun shape => shape.1.leaves?)
      (compareOn fun shape => shape.2) := by
  funext ⟨parts, limit⟩ ⟨parts', limit'⟩
  cases parts <;> cases parts' <;> rfl

instance : Std.TransCmp compareShape := by
  rw [compareShape_eq]
  infer_instance

instance : Std.LawfulEqCmp compareShape where
  eq_of_compare {a b} h := by
    obtain ⟨parts, limit⟩ := a
    obtain ⟨parts', limit'⟩ := b
    rw [compareShape_eq, compareLex, Ordering.then_eq_eq] at h
    have hparts : parts.leaves? = parts'.leaves? := Std.LawfulEqCmp.eq_of_compare h.1
    have hlimit : limit = limit' := Std.LawfulEqCmp.eq_of_compare h.2
    cases parts <;> cases parts' <;> simp_all [TextParts.leaves?]

/-- The requests of a group. -/
def requestsOf (shape : (TextParts × Option UInt32) × List UInt32) : List TextRequest :=
  shape.2.map fun uid => ⟨uid, shape.1.1, shape.1.2⟩

/-- **No request is lost or doubled** by the grouping. -/
theorem uidsByShape_perm (requests : List TextRequest) :
    ((uidsByShape requests).flatMap requestsOf).Perm requests := by
  have hgroups : ((uidsByShape requests).flatMap fun shape => shape.2.map (shape.1, ·)).Perm
      (requests.map fun request => (request.shape, request.uid)) := group_perm requests
  have hperm := hgroups.map fun p => (⟨p.2, p.1.1, p.1.2⟩ : TextRequest)
  rw [List.map_flatMap, List.map_map] at hperm
  have hsame : (fun p : (TextParts × Option UInt32) × UInt32 =>
    (⟨p.2, p.1.1, p.1.2⟩ : TextRequest)) ∘
      (fun request => (request.shape, request.uid)) = id := rfl
  simp only [hsame, List.map_id, List.map_map] at hperm
  exact hperm

/-! ### What a command says of a message -/

variable {S : Server ImapCommand.Reply}

/-- The responses to a command that name a message. -/
def responsesTo (e : Happened S) (uid : UInt32) : List Fetch :=
  match e with
  | ⟨_, .server (.uidFetch _ _), answer, _⟩ =>
    answer.responses.filter fun fetch => fetch.uid = some uid
  | _ => []

/-- The command of a request, and the text its answer gives of the message. -/
structure TextAnswer (request : TextRequest) (text : MessageText) (e : Happened S) : Prop where
  /-- It asks for the sections of the request's shape, of this message among others. -/
  asked : ∃ uids, request.uid ∈ uids ∧
    e.op = .server (.uidFetch (.uids uids) (.sections (sectionPaths request.parts) request.limit))
  /-- What is received is a part for each of these sections, in their order. -/
  received : ∀ parts, text = .received parts →
    List.Forall₂ (fun path part => receivedPart (responsesTo e request.uid) path = some part)
      (sectionPaths request.parts) parts
  /-- A message is gone only when the command completed with OK and no response names it. -/
  disappeared : text = .disappeared → ¬NotCompleted e.op e.ans ∧ responsesTo e request.uid = []

/-- Each request got one text, from the answer to its command. -/
def AnsweredOnce (h : History S) (requests : List TextRequest)
    (calls : List (UInt32 × Option UInt32 × MessageText)) : Prop :=
  ∃ answered : List (TextRequest × MessageText), (answered.map Prod.fst).Perm requests ∧
    calls = answered.map (fun a => (a.1.uid, a.1.limit, a.2)) ∧
    ∀ a ∈ answered, ∃ e ∈ h, TextAnswer a.1 a.2 e

variable {h : History S} {requests : List TextRequest}
  {calls : List (UInt32 × Option UInt32 × MessageText)}

theorem AnsweredOnce.nil : AnsweredOnce h [] [] :=
  ⟨[], .refl _, rfl, fun _ ha => absurd ha List.not_mem_nil⟩

theorem AnsweredOnce.append {requests' : List TextRequest}
    {calls' : List (UInt32 × Option UInt32 × MessageText)} (ha : AnsweredOnce h requests calls)
    (ha' : AnsweredOnce h requests' calls') :
    AnsweredOnce h (requests ++ requests') (calls ++ calls') := by
  obtain ⟨answered, hrequests, rfl, hanswers⟩ := ha
  obtain ⟨answered', hrequests', rfl, hanswers'⟩ := ha'
  refine ⟨answered ++ answered', ?_, (List.map_append ..).symm, fun a hmem => ?_⟩
  · rw [List.map_append]
    exact hrequests.append hrequests'
  · exact (List.mem_append.mp hmem).elim (hanswers a) (hanswers' a)

theorem AnsweredOnce.later (ha : AnsweredOnce h requests calls) {h' : History S}
    (hsub : ∀ e ∈ h, e ∈ h') : AnsweredOnce h' requests calls := by
  obtain ⟨answered, hrequests, hcalls, hanswers⟩ := ha
  refine ⟨answered, hrequests, hcalls, fun a hmem => ?_⟩
  obtain ⟨e, he, hanswer⟩ := hanswers a hmem
  exact ⟨e, hsub e he, hanswer⟩

theorem AnsweredOnce.perm (ha : AnsweredOnce h requests calls) {requests' : List TextRequest}
    (hperm : requests.Perm requests') : AnsweredOnce h requests' calls := by
  obtain ⟨answered, hrequests, hcalls, hanswers⟩ := ha
  exact ⟨answered, hrequests.trans hperm, hcalls, hanswers⟩

/-- The parts received are found one for each section, in their order. -/
theorem receivedParts_eq_some_iff {responses : List Fetch}
    {paths : List (SectionName × SectionName)} {parts : List ReceivedPart} :
    receivedParts responses paths = some parts ↔
      List.Forall₂ (fun path part => receivedPart responses path = some part) paths parts := by
  induction paths generalizing parts with
  | nil =>
    rw [List.forall₂_nil_left_iff]
    exact ⟨fun heq => (Option.some.inj heq).symm, fun heq => congrArg some heq.symm⟩
  | cons path paths ih =>
    rw [receivedParts_cons, List.forall₂_cons_left_iff]
    constructor
    · intro heq
      obtain ⟨part, hpart, heq⟩ := Option.bind_eq_some_iff.mp heq
      obtain ⟨rest, hrest, rfl⟩ := Option.map_eq_some_iff.mp heq
      exact ⟨part, rest, hpart, ih.mp hrest, rfl⟩
    · rintro ⟨part, rest, hpart, hrest, rfl⟩
      rw [hpart, ih.mpr hrest]
      rfl

/-- **A message's text** is its answer. -/
theorem textAnswer_messageText (request : TextRequest) {uids : List UInt32}
    (hnamed : request.uid ∈ uids) {answer : FetchAnswer} {rejected : Bool}
    (hrejected : textRejected (collectFetches answer).ended = .ok rejected)
    (before after : S.World × Tables) :
    TextAnswer request (messageText answer.responses request.uid (sectionPaths request.parts)
      rejected)
      (⟨before, .server (.uidFetch (.uids uids)
        (.sections (sectionPaths request.parts) request.limit)), answer, after⟩ :
        Happened S) where
  asked := ⟨uids, hnamed, rfl⟩
  received := by
    intro parts htext
    rw [messageText] at htext
    split at htext
    · split at htext <;> cases htext
    · split at htext
      · rename_i hparts
        cases htext
        exact receivedParts_eq_some_iff.mp hparts
      · cases htext
  disappeared := by
    intro htext
    obtain ⟨hnames, rfl⟩ := messageText_disappeared htext
    refine ⟨fun hnot => hnot (ended_eq_none_of_textRejected hrejected), ?_⟩
    exact List.filter_eq_nil_iff.mpr fun fetch hf hu => hnames ⟨fetch, hf, by simpa using hu⟩

section Safe

variable {J : History S → S.World × Tables → Prop} {G : History S → Happened S → Prop}
  {s : S.World × Tables} (hJ : Steady J G)

include hJ

theorem fetchShapes_answers (hs : J h s) {reader : MailboxReader}
    {shapes : List ((TextParts × Option UInt32) × List UInt32)} :
    Safe (surroundings S) G h s (reader.fetchShapes shapes) fun r h' u =>
      J h' u ∧ (∀ e ∈ h, e ∈ h') ∧ AnsweredOnce h' (shapes.flatMap requestsOf) r.1 := by
  induction shapes generalizing reader h s with
  | nil => exact .done ⟨hs, fun _ he => he, .nil⟩
  | cons shape shapes ih =>
    obtain ⟨⟨parts, limit⟩, uids⟩ := shape
    refine (fetch_safe hJ hs).bind ?_
    rintro ⟨_, reader₁⟩ tr u ⟨reader', answer, hasked, rfl, hcontinues⟩
    refine Safe.bind_ofExcept fun rejected hrejected => ?_
    refine (ih hcontinues.steady).bind ?_
    rintro ⟨rest, reader₂⟩ tr' v ⟨hv, hkept, hrest⟩
    refine .done ⟨hv, fun e he => hkept e (List.mem_append_left _ he), ?_⟩
    have hshape : AnsweredOnce (h ++ tr) (requestsOf ((parts, limit), uids))
        (uids.map fun uid => (uid, limit, messageText answer.responses uid (sectionPaths parts)
          rejected)) := by
      refine ⟨uids.map fun uid =>
        (⟨uid, parts, limit⟩, messageText answer.responses uid (sectionPaths parts) rejected),
        ?_, ?_, fun a ha => ?_⟩
      · rw [List.map_map]
        exact .refl _
      · rw [List.map_map]
        rfl
      · obtain ⟨uid, huid, rfl⟩ := List.mem_map.mp ha
        exact (hasked.occurred fun before => textAnswer_messageText ⟨uid, parts, limit⟩ huid
          hrejected before u).exists_mem
    exact (hshape.later hkept).append hrest

end Safe

/-! ### The page that is read with the text -/

theorem mem_planReadings {rules : ContentRules} {rows : List MessageRow} {recent : List UInt32}
    {uid : UInt32} {reading : MessageReading}
    (hreading : (planReadings rules rows recent)[uid]? = some reading) :
    ∃ row ∈ rows, row.uid = uid ∧
      reading = planReading rules row.structure' (row.uid ∈ recent) := by
  suffices ∀ m : Std.TreeMap UInt32 MessageReading,
      (rows.foldl (fun readings row =>
        readings.insert row.uid (planReading rules row.structure' (row.uid ∈ recent))) m)[uid]? =
        some reading →
        m[uid]? = some reading ∨
          ∃ row ∈ rows, row.uid = uid ∧
            reading = planReading rules row.structure' (row.uid ∈ recent) by
    exact (this ∅ hreading).resolve_left (by simp)
  clear hreading
  induction rows with
  | nil => exact fun m h => .inl h
  | cons row rows ih =>
    intro m h
    rcases ih _ h with h | ⟨row', hrow', hu, hr⟩
    · rw [Std.TreeMap.getElem?_insert] at h
      split at h
      · rename_i he
        exact .inr ⟨row, List.mem_cons_self, Std.LawfulEqCmp.eq_of_compare he,
          (Option.some.inj h).symm⟩
      · exact .inl h
    · exact .inr ⟨row', List.mem_cons_of_mem _ hrow', hu, hr⟩

theorem textParts_of_pageWithText {rules : ContentRules} {part : Option MessagePart}
    {isRecent : Bool}
    (hpage : (planReading (selecting rules) part isRecent).pageWithText = true) :
    ∃ root ∈ part, ∃ page ∈ (walkMessage root).htmlPart,
      (planReading (selecting rules) part isRecent).textParts =
        some (.multipartLeaves ((walkMessage root).parts ++ [page])) := by
  cases part with
  | none => cases isRecent <;> simp [planReading] at hpage
  | some root =>
    refine ⟨root, rfl, ?_⟩
    cases hparts : (walkMessage root).parts with
    | nil =>
      cases hhtml : (walkMessage root).htmlPart <;> cases hexplanation :
        (walkMessage root).explanation <;>
        cases isRecent <;> simp [planReading, selecting, selectTextParts, selectPreviewPart, hparts,
          hhtml, hexplanation] at hpage
    | cons section' sections =>
      cases isRecent with
      | false =>
        cases hhtml : (walkMessage root).htmlPart <;>
          simp [planReading, selecting, selectTextParts, selectPreviewPart, hparts, hhtml] at hpage
      | true =>
        cases hhtml : (walkMessage root).htmlPart with
        | none =>
          simp [planReading, selecting, selectTextParts, selectPreviewPart, hparts, hhtml] at hpage
        | some page =>
          have hne : (walkMessage root).parts ≠ [] := by simp [hparts]
          exact ⟨page, rfl, by rw [planReading_page rules hhtml hne,
            textParts_page hhtml hne, hparts]⟩

theorem AnsweredOnce.request_of_mem {h : History S} {requests : List TextRequest}
    {calls : List (UInt32 × Option UInt32 × MessageText)} (ha : AnsweredOnce h requests calls)
    {uid : UInt32} {limit : Option UInt32} {text : MessageText}
    (hcall : (uid, limit, text) ∈ calls) :
    ∃ parts, ⟨uid, parts, limit⟩ ∈ requests ∧ ∃ e ∈ h, TextAnswer ⟨uid, parts, limit⟩ text e := by
  obtain ⟨answered, hrequests, rfl, hanswers⟩ := ha
  obtain ⟨⟨⟨uid', parts, limit'⟩, text'⟩, hmem, heq⟩ := List.mem_map.mp hcall
  cases heq
  exact ⟨parts, hrequests.mem_iff.mp (List.mem_map_of_mem hmem), hanswers _ hmem⟩

/-- The requests of the messages' readings ask for each message what its reading says. -/
theorem textParts_of_request {readings : Std.TreeMap UInt32 MessageReading} {uid : UInt32}
    {parts : TextParts} {reading : MessageReading} (hreading : readings[uid]? = some reading)
    (hrequest : ⟨uid, parts, none⟩ ∈ readings.toList.flatMap fun (uid, reading) =>
      reading.requests uid) : reading.textParts = some parts := by
  obtain ⟨⟨uid', reading'⟩, hmem, hrequest⟩ := List.mem_flatMap.mp hrequest
  have hget := Std.TreeMap.mem_toList_iff_getElem?_eq_some.mp hmem
  rcases List.mem_append.mp hrequest with hrequest | hrequest
  · obtain ⟨parts', hparts, heq⟩ := Option.map_eq_some_iff.mp (Option.mem_toList.mp hrequest)
    cases heq
    rw [hreading] at hget
    rw [Option.some.inj hget]
    exact hparts
  · obtain ⟨parts', -, heq⟩ := Option.map_eq_some_iff.mp (Option.mem_toList.mp hrequest)
    cases heq

/-- **Each text request is answered exactly once.** In every run in which `fetchText` returns,
whatever the server answers, each request got one text with its UID and its limit: the
parts of its own shape in their order, or none; and a message is reported gone only after a
command that named it completed with OK without a response for it. So when the requests
are those of messages to read, the last part received of one whose page is read with its
text is the page. -/
theorem fetchText_answers {reader : MailboxReader} {requests : List TextRequest}
    {s u : S.World × Tables} {tr : History S} {calls : List (UInt32 × Option UInt32 × MessageText)}
    {reader' : MailboxReader}
    (hrun : Run (surroundings S) (reader.fetchText requests) s tr (.returned (calls, reader')) u) :
    AnsweredOnce tr requests calls ∧
      ∀ (rules : ContentRules) (rows : List MessageRow) (recent : List UInt32),
        requests = ((planReadings (selecting rules) rows recent).toList.flatMap
          fun (uid, reading) => reading.requests uid) →
          ∀ uid reading parts, (planReadings (selecting rules) rows recent)[uid]? = some reading →
            reading.pageWithText = true → (uid, none, .received parts) ∈ calls →
              ∃ row ∈ rows, row.uid = uid ∧
                ∃ root ∈ row.structure', ∃ section' ∈ (walkMessage root).htmlPart,
                ∃ texts page, parts = texts ++ [page] ∧
                  (∃ e ∈ tr, receivedPart (responsesTo e uid)
                    (.partHeader section', .part section') = some page) ∧
                  (reading.receive (selecting rules) none (.received parts)).pieces =
                  some (.received [page]) := by
  have hJ : Steady (S := S) (fun _ _ => True) fun _ _ => True :=
    steady_of_kept (fun _ _ _ => trivial) (fun _ _ _ => trivial) fun _ _ _ _ _ _ => trivial
  obtain ⟨-, -, hshapes⟩ := (fetchShapes_answers hJ (h := []) trivial _ _ _ hrun).2 _ rfl
  have hanswered : AnsweredOnce tr requests calls := hshapes.perm (uidsByShape_perm requests)
  refine ⟨hanswered, fun rules rows recent hrequests uid reading received hreading hpage hcall =>
    ?_⟩
  obtain ⟨row, hrow, hu, rfl⟩ := mem_planReadings hreading
  obtain ⟨root, hroot, section', hsection, htext⟩ := textParts_of_pageWithText hpage
  obtain ⟨parts, hrequest, e, he, hanswer⟩ := hanswered.request_of_mem hcall
  -- the request is the one of this reading, whose last section is the page
  have hparts := (textParts_of_request hreading (hrequests ▸ hrequest)).symm.trans htext
  have hpaths : sectionPaths parts =
      sectionPaths (.multipartLeaves (walkMessage root).parts) ++
        [(.partHeader section', .part section')] := by
    rw [Option.some.inj hparts, sectionPaths, List.map_append]
    rfl
  have hreceived := receivedParts_eq_some_iff.mpr (hanswer.received received rfl)
  rw [hpaths, receivedParts_concat] at hreceived
  obtain ⟨texts, -, hreceived⟩ := Option.bind_eq_some_iff.mp hreceived
  obtain ⟨page, hlast, rfl⟩ := Option.map_eq_some_iff.mp hreceived
  refine ⟨row, hrow, hu, root, hroot, section', hsection, texts, page, rfl, ⟨e, he, hlast⟩, ?_⟩
  simp [MessageReading.receive, hpage]

/-- Three messages with a text and a page. -/
def threeRows : List MessageRow :=
  [⟨7, false, false, none, [], some textAndPage⟩, ⟨8, false, false, none, [], some textAndPage⟩,
    ⟨9, false, false, none, [], some textAndPage⟩]

/-- A server that answers for the seventh message in pieces, with a flag change among them, and
no more for the eighth; it refuses the beginnings of parts. -/
def answeringInPieces : (command : ImapCommand) → command.Reply
  | .openMailbox _ => .ok ⟨some 7, 3, none, none⟩
  | .select _ => .ok ⟨some 7, 3, none, none⟩
  | .uidFetch _ (.sections _ none) =>
    ⟨[⟨some 7, none, none, none, [(.part [2], [60, 112, 62]), (.partHeader [1], [])], none⟩,
      ⟨some 7, some ⟨true, false⟩, none, none, [], none⟩,
      ⟨some 7, none, none, none, [(.part [1], [72, 105]), (.partHeader [2], [])], none⟩], none⟩
  | .uidFetch _ _ => ⟨[], some (.no ⟨none, "no pieces"⟩)⟩
  | .uidStore .. => ⟨[], none⟩

/-- What is read of the three messages, the first two of which are recent. -/
def threeReadings : Std.TreeMap UInt32 MessageReading :=
  planReadings (selecting sameText) threeRows [7, 8]

/-- The requests for them. -/
def threeRequests : List TextRequest :=
  threeReadings.toList.flatMap fun (uid, reading) => reading.requests uid

/-- The page of the seventh message is received last, the eighth message is gone, and the pieces
of the ninth are not returned. -/
theorem fetchText_answers_inPieces :
    ∃ (tr : History (anyServer ImapCommand.Reply)) (calls : List
      (UInt32 × Option UInt32 × MessageText)),
      AnsweredOnce tr threeRequests calls ∧ (8, none, .disappeared) ∈ calls ∧
      (9, some 65536, .notReturned) ∈ calls ∧
        ∃ texts page, [⟨[], [72, 105]⟩, ⟨[], [60, 112, 62]⟩] = texts ++ [page] ∧
          ∃ e ∈ tr, receivedPart (responsesTo e 7) (.partHeader [2], .part [2]) = some page := by
  have hreturned : ∃ calls reader',
      (exec (scripted answeringInPieces) (withheldReader.fetchText threeRequests)
        ((), .empty)).2.1 =
        .returned (calls, reader') ∧
      calls = [(7, none, .received [⟨[], [72, 105]⟩, ⟨[], [60, 112, 62]⟩]), (8, none, .disappeared),
        (9, some 65536, .notReturned)] := ⟨_, _, rfl, rfl⟩
  obtain ⟨calls, reader', hreturned, rfl⟩ := hreturned
  have hrun := run_scripted answeringInPieces (withheldReader.fetchText threeRequests) .empty
  rw [hreturned] at hrun
  obtain ⟨hanswered, hpage⟩ := fetchText_answers hrun
  have hreading : ∃ reading, threeReadings[(7 : UInt32)]? = some reading ∧
      reading.pageWithText = true := ⟨_, rfl, rfl⟩
  obtain ⟨reading, hreading, hwith⟩ := hreading
  obtain ⟨row, hrow, hu, root, hroot, section', hsection, texts, page, hparts, he, -⟩ :=
    hpage sameText threeRows [7, 8] rfl 7 reading _ hreading hwith List.mem_cons_self
  have hrows : ∀ row ∈ threeRows, row.structure' = some textAndPage := by simp [threeRows]
  obtain rfl : root = textAndPage := Option.some.inj (hroot.symm.trans (hrows row hrow))
  obtain rfl : section' = [2] := Option.some.inj (hsection.symm.trans rfl)
  exact ⟨_, _, hanswered, by decide, by decide, texts, page, hparts, he⟩

end Mailbag.Imap
