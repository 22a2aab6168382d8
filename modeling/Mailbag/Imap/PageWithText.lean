import Mailbag.Imap.Texts

/-!
# Reading a message's page together with its text

The content rules walk over a message's part description. They choose the plain-text parts
the reader shows, or say why there are none, and the part the preview is made from: the
first web page that is no attached file, else the first plain-text part.

A recent message's page is read whole in the same request as its plain-text parts. The
request is answered as a whole: when a section of it is missing, nothing of it counts as
returned. So a page that the server does not return costs the text as well.

## What is proved

* `walkMessage_leaf` — a message of one part has a plain text or a page, not both.
* `text_with_page_iff` — exactly when the content is the one its plain-text parts alone
  would have given.
* `page_costs_text` — a page that is not returned leaves the message without its text.
-/

namespace Mailbag.Imap

open Cycle

namespace MessagePart

/-- The part's parameters. -/
def parameters : MessagePart → List (String × String)
  | .mk _ _ _ parameters .. => parameters

/-- Its disposition. -/
def disposition : MessagePart → Option String
  | .mk _ _ _ _ disposition .. => disposition

/-- Its Content-ID. -/
def contentId : MessagePart → Option String
  | .mk _ _ _ _ _ contentId _ => contentId

end MessagePart

/-- `name` itself, the extended `name*`, and continuations such as `name*0` and `name*1*`. -/
def isFileNameParameter (parameter : String) : Bool :=
  match parameter.toList with
  | 'n' :: 'a' :: 'm' :: 'e' :: suffix =>
    match suffix with
    | [] => true
    | '*' :: continuation =>
      let number := if continuation.getLast? = some '*' then continuation.dropLast else continuation
      continuation.isEmpty || (!number.isEmpty && number.all Char.isDigit)
    | _ => false
  | _ => false

/-- A file name without an explicit inline disposition marks an attached file. -/
def MessagePart.isAttachedFile (part : MessagePart) : Bool :=
  part.parameters.any (fun parameter => isFileNameParameter parameter.1) && part.disposition ≠
    some "inline"

/-- What the walk over a message's parts has found. -/
structure Walk where
  /-- The plain-text parts. -/
  parts : List (List UInt32)
  /-- Whether there is a web page. -/
  hasHtml : Bool
  /-- The first web page that is no attached file. -/
  htmlPart : Option (List UInt32)
  /-- Why there may be no text. -/
  explanation : Option ContentExplanation
  deriving DecidableEq

/-- Nothing is found yet. -/
def Walk.new : Walk := ⟨[], false, none, none⟩

/-- The Content-ID that a related set's `start` parameter names, without its angle brackets. -/
def startOf (parameters : List (String × String)) : Option String :=
  (parameters.lookup "start").map fun start =>
    String.ofList (((start.toList.dropWhile (· = '<')).reverse.dropWhile (· = '>')).reverse)

mutual

/-- Look at one part. -/
def visit : MessagePart → Walk → Walk
  | .mk section' mediaType mediaSubtype parameters disposition contentId children, walk =>
    -- An attachment and everything inside it is a file, not the message text.
    if disposition = some "attachment" then walk
    else if mediaType = "multipart" then
      if mediaSubtype = "alternative" then
        let (walk, chosen) := visitAlternatives children walk none
        { walk with parts := walk.parts ++ chosen.getD [] }
      else if mediaSubtype = "signed" then visitFirst children walk
      else if mediaSubtype = "encrypted" then
        { walk with explanation := walk.explanation.or (some .encrypted) }
      else if mediaSubtype = "related" then
        match (startOf parameters).bind fun start => visitNamed start children walk with
        | some walk => walk
        | none => visitFirst children walk
      else visitAll children walk
    else if mediaType = "text" ∧ mediaSubtype = "plain" then
      if MessagePart.isAttachedFile
        (.mk section' mediaType mediaSubtype parameters disposition contentId children) then walk
      else { walk with parts := walk.parts ++ [section'] }
    else if mediaType = "text" ∧ mediaSubtype = "html" then
      { walk with
        hasHtml := true
        htmlPart := if walk.htmlPart.isNone ∧
            !MessagePart.isAttachedFile
              (.mk section' mediaType mediaSubtype parameters disposition contentId children)
          then some section' else walk.htmlPart }
    else if mediaType = "application" ∧
        (mediaSubtype = "pkcs7-mime" ∨ mediaSubtype = "x-pkcs7-mime") then
      { walk with explanation := walk.explanation.or (some .securedWithSMime) }
    else walk

/-- Look at every part. -/
def visitAll : List MessagePart → Walk → Walk
  | [], walk => walk
  | part :: rest, walk => visitAll rest (visit part walk)

/-- Look at the first part. -/
def visitFirst : List MessagePart → Walk → Walk
  | [], walk => walk
  | part :: _, walk => visit part walk

/-- Look at the first part with the Content-ID, if one has it. -/
def visitNamed (start : String) : List MessagePart → Walk → Option Walk
  | [], _ => none
  | part :: rest, walk =>
    if part.contentId = some start then some (visit part walk) else visitNamed start rest walk

/-- Look at each alternative on its own; the last one with plain text is the richest one to show. -/
def visitAlternatives :
    List MessagePart → Walk → Option (List (List UInt32)) → Walk × Option (List (List UInt32))
  | [], walk, chosen => (walk, chosen)
  | part :: rest, walk, chosen =>
    let branch := visit part .new
    let walk := { walk with
        hasHtml := walk.hasHtml || branch.hasHtml
        htmlPart := walk.htmlPart.or branch.htmlPart }
    if branch.parts.isEmpty then
      visitAlternatives rest { walk with explanation := walk.explanation.or branch.explanation }
        chosen
    else visitAlternatives rest walk (some branch.parts)

end

/-- The walk over a message. -/
def walkMessage (root : MessagePart) : Walk := visit root .new

/-- Choose the plain-text parts to read. -/
def selectTextParts (root : MessagePart) : TextSelection :=
  let walk := walkMessage root
  match walk.parts, walk.explanation with
  | part :: parts, _ => .parts (part :: parts)
  | [], some explanation => .explained explanation
  | [], none => .explained (.noPlainText walk.hasHtml)

/-- Choose the part to read for a preview. -/
def selectPreviewPart (root : MessagePart) : Option PreviewPart :=
  let walk := walkMessage root
  match walk.htmlPart, walk.parts with
  | some section', _ => some ⟨section', true⟩
  | none, section' :: _ => some ⟨section', false⟩
  | none, [] => none

/-- The rules with the choice of parts above; how parts are decoded stays as it is. -/
def selecting (rules : ContentRules) : ContentRules :=
  { rules with selectTextParts, selectPreviewPart }

/-- The reading that asks for the plain-text parts alone. -/
def planText (rules : ContentRules) (part : Option MessagePart) (isRecent : Bool) :
    MessageReading :=
  planReading { rules with selectPreviewPart := fun _ => none } part isRecent

/-- The content a message is stored with after the answer to its text command; none when it
disappeared. -/
def MessageReading.storedContent (reading : MessageReading) (rules : ContentRules)
    (fetches : List Fetch) (uid : UInt32) (rejected : Bool) : Option ReceivedContent :=
  let reading :=
    match reading.textParts with
    | some parts =>
      reading.receive rules none (messageText fetches uid (sectionPaths parts) rejected)
    | none => reading
  (reading.finish rules).map Prod.fst

/-- The server returned a section of the message. -/
def Returned (fetches : List Fetch) (uid : UInt32) (name : SectionName) : Prop :=
  ∃ fetch ∈ fetches, fetch.uid = some uid ∧ (fetch.getSection name).isSome

instance (fetches : List Fetch) (uid : UInt32) (name : SectionName) :
    Decidable (Returned fetches uid name) :=
  inferInstanceAs (Decidable (∃ fetch ∈ fetches, fetch.uid = some uid ∧
    (fetch.getSection name).isSome))

/-- The server returned a part with its MIME header. -/
abbrev PartReturned (fetches : List Fetch) (uid : UInt32) (section' : List UInt32) : Prop :=
  Returned fetches uid (.partHeader section') ∧ Returned fetches uid (.part section')

/-- **A lost page**: the message has plain text and a page, and of these the server returned
every plain-text part and not the page. -/
def PageLost (root : MessagePart) (fetches : List Fetch) (uid : UInt32) : Prop :=
  (walkMessage root).parts ≠ [] ∧
  (∀ section' ∈ (walkMessage root).parts, PartReturned fetches uid section') ∧
    ∃ page, (walkMessage root).htmlPart = some page ∧ ¬PartReturned fetches uid page

/-! ### A message of one part -/

theorem MessagePart.children_eq_nil {root : MessagePart} (h : root.children = []) :
    ∃ section' mediaType mediaSubtype parameters disposition contentId,
      root = .mk section' mediaType mediaSubtype parameters disposition contentId [] := by
  obtain ⟨section', mediaType, mediaSubtype, parameters, disposition, contentId, children⟩ := root
  obtain rfl : children = [] := h
  exact ⟨_, _, _, _, _, _, rfl⟩

/-- A message of one part has a plain text or a page, not both. -/
theorem walkMessage_leaf {root : MessagePart} (hleaf : root.children = [])
    (hparts : (walkMessage root).parts ≠ []) : (walkMessage root).htmlPart = none := by
  obtain ⟨section', mediaType, mediaSubtype, parameters, disposition, contentId, rfl⟩ :=
    root.children_eq_nil hleaf
  revert hparts
  rw [walkMessage, visit]
  simp only [visitAll, visitFirst, visitNamed, visitAlternatives]
  have hnew : Walk.new.parts = [] ∧ Walk.new.htmlPart = none := ⟨rfl, rfl⟩
  split_ifs <;> simp_all

theorem textParts_page {root : MessagePart} {page : List UInt32}
    (hpage : (walkMessage root).htmlPart = some page) (hparts : (walkMessage root).parts ≠ [])
    (sections : List (List UInt32)) : textParts root sections = .multipartLeaves sections := by
  rw [textParts]
  split
  · rename_i hleaf
    cases hpage.symm.trans (walkMessage_leaf hleaf hparts)
  · rfl

/-! ### The parts of an answer -/

theorem returned_iff (fetches : List Fetch) (uid : UInt32) (name : SectionName) :
    ((fetches.filter fun fetch => fetch.uid = some uid).findSome? fun fetch =>
      fetch.getSection name).isSome ↔
      Returned fetches uid name := by
  simp [Returned, and_assoc]

/-- One part of an answer, with its header. -/
def receivedPart (responses : List Fetch) (path : SectionName × SectionName) :
    Option ReceivedPart := do
  let header ← responses.findSome? fun (fetch : Fetch) => fetch.getSection path.1
  let body ← responses.findSome? fun (fetch : Fetch) => fetch.getSection path.2
  some ⟨header, body⟩

theorem receivedParts_eq (responses : List Fetch) (paths : List (SectionName × SectionName)) :
    receivedParts responses paths = paths.mapM (receivedPart responses) := rfl

theorem receivedPart_isSome (fetches : List Fetch) (uid : UInt32) (section' : List UInt32) :
    (receivedPart (fetches.filter fun fetch => fetch.uid = some uid)
      (.partHeader section', .part section')).isSome ↔
      PartReturned fetches uid section' := by
  rw [PartReturned, ← returned_iff, ← returned_iff, receivedPart]
  cases (fetches.filter fun fetch => fetch.uid = some uid).findSome? fun fetch => fetch.getSection
    (.partHeader section') <;>
    cases (fetches.filter fun fetch => fetch.uid = some uid).findSome? fun fetch => fetch.getSection
      (.part section') <;>
      simp

theorem receivedParts_cons (responses : List Fetch) (path : SectionName × SectionName)
    (paths : List (SectionName × SectionName)) :
    receivedParts responses (path :: paths) =
      (receivedPart responses path).bind fun part => (receivedParts responses paths).map
      (part :: ·) := by
  rw [receivedParts_eq, receivedParts_eq, List.mapM_cons]
  cases receivedPart responses path with
  | none => rfl
  | some part => cases paths.mapM (receivedPart responses) <;> rfl

theorem receivedParts_isSome (fetches : List Fetch) (uid : UInt32) (sections : List (List UInt32)) :
    (receivedParts (fetches.filter fun fetch => fetch.uid = some uid)
        (sectionPaths (.multipartLeaves sections))).isSome ↔
      ∀ section' ∈ sections, PartReturned fetches uid section' := by
  rw [sectionPaths]
  induction sections with
  | nil => simp [receivedParts]
  | cons section' sections ih =>
    rw [List.map_cons, receivedParts_cons, List.forall_mem_cons, ← ih, ← receivedPart_isSome]
    cases receivedPart (fetches.filter fun fetch => fetch.uid = some uid)
      (.partHeader section', .part section') <;> simp

theorem receivedParts_concat (responses : List Fetch) (paths : List (SectionName × SectionName))
    (path : SectionName × SectionName) :
    receivedParts responses (paths ++ [path]) =
      (receivedParts responses paths).bind fun parts =>
        (receivedPart responses path).map fun page => parts ++ [page] := by
  induction paths with
  | nil => rw [List.nil_append, receivedParts_cons]; cases receivedPart responses path <;> rfl
  | cons path' paths ih =>
    rw [List.cons_append, receivedParts_cons, receivedParts_cons, ih]
    cases receivedPart responses path' with
    | none => rfl
    | some part =>
      cases receivedParts responses paths with
      | none => rfl
      | some parts => cases receivedPart responses path <;> rfl

/-! ### The content stored -/

section Stored

variable (rules : ContentRules) {root : MessagePart}

theorem planText_eq (hparts : (walkMessage root).parts ≠ []) :
    planText (selecting rules) (some root) true =
      ⟨.textNotReturned, some (textParts root (walkMessage root).parts), none, false, false, none,
        false⟩ := by
  cases hwalk : (walkMessage root).parts with
  | nil => exact absurd hwalk hparts
  | cons section' sections => simp [planText, planReading, selecting, selectTextParts, hwalk]

/-- Without a page, nothing is read beside the text. -/
theorem planReading_noPage (hpage : (walkMessage root).htmlPart = none)
    (hparts : (walkMessage root).parts ≠ []) :
    planReading (selecting rules) (some root) true = planText (selecting rules)
      (some root) true := by
  rw [planText_eq rules hparts]
  cases hwalk : (walkMessage root).parts with
  | nil => exact absurd hwalk hparts
  | cons section' sections =>
    simp [planReading, selecting, selectTextParts, selectPreviewPart, hwalk, hpage]

theorem planReading_page {page : List UInt32} (hpage : (walkMessage root).htmlPart = some page)
    (hparts : (walkMessage root).parts ≠ []) :
    planReading (selecting rules) (some root) true =
      ⟨.textNotReturned, some (textParts root ((walkMessage root).parts ++ [page])), none, true,
        true, none, false⟩ := by
  cases hwalk : (walkMessage root).parts with
  | nil => exact absurd hwalk hparts
  | cons section' sections =>
    simp [planReading, selecting, selectTextParts, selectPreviewPart, hwalk, hpage]

/-- Without plain text, both readings have the same content and send no text command. -/
theorem planReading_noText (hparts : (walkMessage root).parts = []) :
    (planReading (selecting rules) (some root) true).content =
    (planText (selecting rules) (some root) true).content ∧
      (planReading (selecting rules) (some root) true).textParts = none ∧
      (planText (selecting rules) (some root) true).textParts = none := by
  cases hexplanation : (walkMessage root).explanation <;> cases hpage :
    (walkMessage root).htmlPart <;>
    simp [planText, planReading, selecting, selectTextParts, selectPreviewPart, hparts,
      hexplanation, hpage]

/-- A text received is a text or a reason, never a text that was not returned. -/
theorem receivedText_received (parts : List ReceivedPart) :
    ∃ content, receivedText rules (.received parts) = some content ∧
      content ≠ .textNotReturned := by
  rw [receivedText]
  cases rules.decodeMessageText parts with
  | ok text => exact ⟨_, rfl, nofun⟩
  | error explanation => exact ⟨_, rfl, nofun⟩

theorem storedContent_of_noText {reading : MessageReading} {fetches : List Fetch} {uid : UInt32}
    {rejected : Bool} (hreading : reading.textParts = none)
    (hthere : reading.disappeared = false) :
    reading.storedContent rules fetches uid rejected = some reading.content := by
  simp [MessageReading.storedContent, MessageReading.finish, hreading, hthere]

theorem storedContent_of_responses {reading : MessageReading} {parts : TextParts}
    {fetches : List Fetch} {uid : UInt32} {rejected : Bool}
    (hreading : reading.textParts = some parts) (hthere : reading.disappeared = false)
    (hresponses : (fetches.filter fun fetch => fetch.uid = some uid) ≠ []) :
    reading.storedContent rules fetches uid rejected =
      match receivedParts (fetches.filter fun fetch => fetch.uid = some uid) (sectionPaths
        parts) with
      | some parts =>
        receivedText rules (.received (if reading.pageWithText then parts.dropLast else parts))
      | none => some .textNotReturned := by
  simp only [MessageReading.storedContent, hreading, messageText, if_neg hresponses]
  cases receivedParts (fetches.filter fun fetch => fetch.uid = some uid) (sectionPaths parts) with
  | none => simp [MessageReading.receive, MessageReading.finish, receivedText, hthere]
  | some parts =>
    obtain ⟨content, hreceived, -⟩ :=
      receivedText_received rules (if reading.pageWithText then parts.dropLast else parts)
    cases hpage : reading.pageWithText <;>
      simp [MessageReading.receive, MessageReading.finish, hthere,
        hpage] at hreceived ⊢ <;> simp [hreceived]

/-- The content after an answer in which no response names the message: after OK it is gone,
and a refusal leaves its text not returned. -/
theorem storedContent_of_none {reading : MessageReading} {parts : TextParts} {fetches : List Fetch}
    {uid : UInt32} {rejected : Bool} (hreading : reading.textParts = some parts)
    (hthere : reading.disappeared = false)
    (hresponses : (fetches.filter fun fetch => fetch.uid = some uid) = []) :
    reading.storedContent rules fetches uid rejected = if rejected then some .textNotReturned
      else none := by
  simp only [MessageReading.storedContent, hreading, messageText, if_pos hresponses]
  cases rejected <;> simp [MessageReading.receive, MessageReading.finish, receivedText, hthere]

/-- The page beside the text, when the message has both. -/
theorem storedContent_page {page : List UInt32} {fetches : List Fetch} {uid : UInt32}
    {rejected : Bool} (hpage : (walkMessage root).htmlPart = some page)
    (hparts : (walkMessage root).parts ≠ []) :
    (planReading (selecting rules) (some root) true).storedContent (selecting rules) fetches uid
    rejected =
        (planText (selecting rules) (some root) true).storedContent (selecting rules) fetches uid
        rejected ↔
      ¬PageLost root fetches uid := by
  rw [planReading_page rules hpage hparts, planText_eq rules hparts, textParts_page hpage hparts,
    textParts_page hpage hparts]
  by_cases hresponses : (fetches.filter fun fetch => fetch.uid = some uid) = []
  · rw [storedContent_of_none _ rfl rfl hresponses, storedContent_of_none _ rfl rfl hresponses]
    refine iff_of_true rfl ?_
    rintro ⟨-, hreturned, -⟩
    obtain ⟨section', sections, hwalk⟩ := List.exists_cons_of_ne_nil hparts
    obtain ⟨⟨fetch, hfetch, hnames, -⟩, -⟩ := hreturned section' (by simp [hwalk])
    exact List.filter_eq_nil_iff.mp hresponses fetch hfetch (by simp [hnames])
  · rw [storedContent_of_responses _ rfl rfl hresponses,
      storedContent_of_responses _ rfl rfl hresponses]
    have hplain := receivedParts_isSome fetches uid (walkMessage root).parts
    have hlast := receivedPart_isSome fetches uid page
    have hpaths : sectionPaths (.multipartLeaves ((walkMessage root).parts ++ [page])) =
        sectionPaths (.multipartLeaves (walkMessage root).parts) ++
          [(.partHeader page, .part page)] := by
      simp [sectionPaths]
    rw [hpaths, receivedParts_concat]
    cases htext : receivedParts (fetches.filter fun fetch => fetch.uid = some uid)
        (sectionPaths (.multipartLeaves (walkMessage root).parts)) with
    | none =>
      refine iff_of_true rfl ?_
      rintro ⟨-, hreturned, -⟩
      exact absurd (hplain.mpr hreturned) (by simp [htext])
    | some parts =>
      cases hreceived : receivedPart (fetches.filter fun fetch => fetch.uid = some uid)
        (.partHeader page, .part page) with
      | none =>
        -- The page is missing: the text received is thrown away with it.
        refine iff_of_false ?_ (not_not.mpr ⟨hparts, ?_, page, hpage, ?_⟩)
        · obtain ⟨content, hcontent, hne⟩ := receivedText_received (selecting rules) parts
          simpa [hcontent] using hne.symm
        · exact hplain.mp (by simp [htext])
        · exact fun h => by simpa [hreceived] using hlast.mpr h
      | some last =>
        refine iff_of_true (by simp) ?_
        rintro ⟨-, -, page', hpage', hmissing⟩
        obtain rfl : page = page' := Option.some.inj (hpage.symm.trans hpage')
        exact hmissing (hlast.mp (by simp [hreceived]))

end Stored

/-- **The page read with the text**: a recent message is stored with the content its
plain-text parts alone would have given, exactly when its page was not lost. -/
theorem text_with_page_iff (rules : ContentRules) (part : Option MessagePart) (fetches : List Fetch)
    (uid : UInt32) (rejected : Bool) :
    (planReading (selecting rules) part true).storedContent (selecting rules) fetches uid rejected =
        (planText (selecting rules) part true).storedContent (selecting rules) fetches uid
        rejected ↔
      ∀ root ∈ part, ¬PageLost root fetches uid := by
  cases part with
  | none => simp [planText, planReading]
  | some root =>
    simp only [Option.mem_def, Option.some.injEq, forall_eq']
    by_cases hparts : (walkMessage root).parts = []
    · obtain ⟨hcontent, hpage, htext⟩ := planReading_noText rules hparts
      refine iff_of_true ?_ fun hlost => hlost.1 hparts
      rw [storedContent_of_noText _ hpage (planReading_disappeared ..),
        storedContent_of_noText _ htext (planReading_disappeared ..), hcontent]
    · cases hpage : (walkMessage root).htmlPart with
      | none =>
        rw [planReading_noPage rules hpage hparts]
        refine iff_of_true rfl ?_
        rintro ⟨-, -, page, hsome, -⟩
        simp [hpage] at hsome
      | some page => exact storedContent_page rules hpage hparts

/-! ### A page that is not returned -/

/-- A message with a text and a page to choose from. -/
def textAndPage : MessagePart :=
  .mk [] "multipart" "alternative" [] none none
    [.mk [1] "text" "plain" [] none none [], .mk [2] "text" "html" [] none none []]

/-- The text is returned, and the page is sent as NIL. -/
def textWithoutPage : List Fetch :=
  [⟨some 7, none, none, none,
    [(.partHeader [1], []), (.part [1], [72, 105]), (.partHeader [2], [])], none⟩]

/-- Content rules that read every part as the same text. -/
def sameText : ContentRules where
  selectTextParts := selectTextParts
  selectPreviewPart := selectPreviewPart
  decodeMessageText _ := .ok "Hi"
  previewOfPiece _ _ _ := "Hi"
  previewOfText text := text
  decodeDisplayFields _ := ⟨none, none, none⟩

/-- A page that is not returned costs the message its text. -/
theorem page_costs_text :
    (planReading (selecting sameText) (some textAndPage) true).storedContent (selecting sameText)
    textWithoutPage 7
        false = some .textNotReturned ∧
      (planText (selecting sameText) (some textAndPage) true).storedContent (selecting sameText)
      textWithoutPage 7
        false = some (.text "Hi") := by
  decide

end Mailbag.Imap
