import Mailbag.Imap.Rules

/-!
# The texts of the messages a cycle downloads

A recent message gets its text, or why it has none; every message gets the beginning of
its page or plain part for the preview. The content rules, which choose parts and decode
them, are a parameter (`ContentRules`).

`readContents_safe` says what matters to a cycle: a message without a content was named
by a text command that completed with OK without answering for it.
-/

namespace Mailbag.Imap

open Cycle Interaction Relation Store

/-- The text parts to read from a message, or why there are none. -/
inductive TextSelection where
  /-- Section numbers of the plain-text parts, in reading order. -/
  | parts (sections : List (List UInt32))
  /-- Why there are none. -/
  | explained (explanation : ContentExplanation)

/-- The part a preview is made from. -/
structure PreviewPart where
  /-- Its section numbers. -/
  sectionNumbers : List UInt32
  /-- Whether it is a web page rather than plain text. -/
  isHtml : Bool

/-- The rules of message content: what to read of a message, and how it is decoded. -/
structure ContentRules where
  /-- The plain-text parts to read. -/
  selectTextParts : MessagePart → TextSelection
  /-- The part to read for the preview. -/
  selectPreviewPart : MessagePart → Option PreviewPart
  /-- The text of the parts read. -/
  decodeMessageText : List ReceivedPart → Except ContentExplanation String
  /-- The preview from the beginning of a part: its header, its body, and whether it is a page. -/
  previewOfPiece : List UInt8 → List UInt8 → Bool → String
  /-- The preview from a whole text. -/
  previewOfText : String → String
  /-- The display fields of the header lines. -/
  decodeDisplayFields : List UInt8 → DisplayFields

/-- How many octets of a part a preview reads. -/
def previewPieceBytes : UInt32 := 65536

/-- What a cycle reads of one message, and what it received of it. -/
structure MessageReading where
  /-- What the reader shows; replaced when the text is received. -/
  content : ReceivedContent
  /-- The parts of a recent message's text, read whole. -/
  textParts : Option TextParts
  /-- The parts whose beginnings the preview is made from. -/
  pieceParts : Option TextParts
  /-- Whether the first piece is a web page. -/
  pageFirst : Bool
  /-- Whether the page is read whole as the last of the text parts. -/
  pageWithText : Bool
  /-- The pieces received. -/
  pieces : Option MessageText
  /-- The message is gone. -/
  disappeared : Bool

/-- How the selected sections are read. -/
def textParts (root : MessagePart) (sections : List (List UInt32)) : TextParts :=
  match root.children with
  | [] => .singlePartBody
  | _ :: _ => .multipartLeaves sections

/-- One message's received text, or why there is none; none means it disappeared. -/
def receivedText (rules : ContentRules) : MessageText → Option ReceivedContent
  | .received parts =>
    match rules.decodeMessageText parts with
    | .ok text => some (.text text)
    | .error explanation => some (.explained explanation)
  | .notReturned => some .textNotReturned
  | .disappeared => none

/-- Choose what to read of a message: a recent one's text, and the part its preview is made
from. A recent message's page is read whole with its text. -/
def planReading (rules : ContentRules) (part : Option MessagePart) (isRecent : Bool) :
    MessageReading :=
  let reading : MessageReading := ⟨.notDownloaded, none, none, false, false, none, false⟩
  match part with
  | none => if isRecent then { reading with content := .structureUnreadable } else reading
  | some root =>
    let (reading, plainSections) :=
      match rules.selectTextParts root with
      | .parts sections => (reading, sections)
      | .explained explanation =>
        (if isRecent then { reading with content := .explained explanation } else reading, [])
    let reading :=
      if isRecent ∧ plainSections ≠ [] then
        { reading with
          content := .textNotReturned
          textParts := some (textParts root plainSections) }
      else reading
    let previewPart := rules.selectPreviewPart root
    let reading := { reading with pageFirst := (previewPart.map PreviewPart.isHtml).getD false }
    match previewPart, reading.textParts with
    | some page, some _ =>
      if page.isHtml then
        { reading with
          textParts := some (textParts root (plainSections ++ [page.sectionNumbers])),
            pageWithText := true }
      else reading
    | some page, none =>
      if page.isHtml then
        { reading with
          pieceParts := some
            (textParts root (page.sectionNumbers :: plainSections.head?.toList)) }
      else if isRecent then reading
      else { reading with pieceParts := some (textParts root [page.sectionNumbers]) }
    | none, _ => reading

namespace MessageReading

variable (reading : MessageReading)

/-- What is asked for. -/
def requests (uid : UInt32) : List TextRequest :=
  (reading.textParts.map fun parts => ⟨uid, parts, none⟩).toList ++
    (reading.pieceParts.map fun parts => ⟨uid, parts, some previewPieceBytes⟩).toList

/-- What a text received changes. -/
def receive (rules : ContentRules) (limit : Option UInt32) (text : MessageText) : MessageReading :=
  match limit, text with
  | _, .disappeared => { reading with disappeared := true }
  | none, .received parts =>
    if reading.pageWithText then
      { reading with
        pieces := some (.received parts.getLast?.toList)
        content := (receivedText rules (.received parts.dropLast)).getD reading.content }
    else { reading with content := (receivedText rules text).getD reading.content }
  | none, .notReturned => { reading with content := (receivedText rules text).getD reading.content }
  | some _, _ => { reading with pieces := some text }

/-- The content and the preview, the first source that yields words; none when the message
disappeared. -/
def finish (rules : ContentRules) : Option (ReceivedContent × String) :=
  if reading.disappeared then none
  else
    let pieces :=
      match reading.pieces with
      | some (.received parts) => parts
      | _ => []
    let fromPieces := pieces.mapIdx fun index piece =>
      rules.previewOfPiece piece.header piece.body (index = 0 && reading.pageFirst)
    let fromText :=
      match reading.content with
      | .text text => [rules.previewOfText text]
      | _ => []
    let preview := ((fromPieces ++ fromText).find? fun preview => preview ≠ "").getD ""
    some (reading.content, preview)

theorem receive_disappeared (rules : ContentRules) (limit : Option UInt32) (text : MessageText)
    (h : (reading.receive rules limit text).disappeared = true) :
    reading.disappeared = true ∨ text = .disappeared := by
  cases text with
  | disappeared => exact .inr rfl
  | notReturned => cases limit <;> exact .inl h
  | received parts =>
    cases limit with
    | some limit => exact .inl h
    | none =>
      unfold receive at h
      dsimp only at h
      split at h <;> exact .inl h

end MessageReading

theorem planReading_disappeared (rules : ContentRules) (part : Option MessagePart)
    (isRecent : Bool) : (planReading rules part isRecent).disappeared = false := by
  unfold planReading
  cases part with
  | none =>
    dsimp only
    split <;> rfl
  | some root =>
    dsimp only
    repeat' split
    all_goals rfl

/-- What a cycle reads of the rows' messages. -/
def planReadings (rules : ContentRules) (rows : List MessageRow) (recent : List UInt32) :
    Std.TreeMap UInt32 MessageReading :=
  rows.foldl (fun readings row => readings.insert row.uid
    (planReading rules row.structure' (row.uid ∈ recent))) ∅

/-- The readings after the texts received, one after another. -/
def receiveTexts (rules : ContentRules) (readings : Std.TreeMap UInt32 MessageReading)
    (texts : List (UInt32 × Option UInt32 × MessageText)) : Std.TreeMap UInt32 MessageReading :=
  texts.foldl
    (fun readings text => readings.alter text.1
      (Option.map fun reading => reading.receive rules text.2.1 text.2.2))
    readings

/-- Read what the reader shows of each message and its preview. A message missing from the
result disappeared. -/
def readContents (rules : ContentRules) (reader : MailboxReader) (rows : List MessageRow)
    (recent : List UInt32) :
    ImapProgram (List (UInt32 × ReceivedContent × String) × MailboxReader) := do
  let readings := planReadings rules rows recent
  let requests := readings.toList.flatMap fun (uid, reading) => reading.requests uid
  let (texts, reader) ← reader.fetchText requests
  let contents := (receiveTexts rules readings texts).toList.filterMap fun (uid, reading) =>
    (reading.finish rules).map (uid, ·)
  return (contents, reader)

theorem planReadings_get (rules : ContentRules) (rows : List MessageRow) (recent : List UInt32)
    {row : MessageRow} (hrow : row ∈ rows) :
    ∃ reading, (planReadings rules rows recent)[row.uid]? = some reading ∧
      reading.disappeared = false := by
  suffices ∀ m : Std.TreeMap UInt32 MessageReading, row ∈ rows ∨
      (∃ reading, m[row.uid]? = some reading ∧ reading.disappeared = false) →
        ∃ reading, (rows.foldl (fun readings row =>
          readings.insert row.uid (planReading rules row.structure' (row.uid ∈ recent)))
            m)[row.uid]? = some reading ∧
            reading.disappeared = false from this ∅ (.inl hrow)
  clear hrow
  induction rows with
  | nil =>
    rintro m (hr | hm)
    · cases hr
    · exact hm
  | cons row' rows ih =>
    intro m h
    refine ih _ ?_
    rw [Std.TreeMap.getElem?_insert]
    by_cases he : row'.uid = row.uid
    · right
      rw [he, if_pos Std.ReflCmp.compare_self]
      exact ⟨_, rfl, planReading_disappeared ..⟩
    · have hc : compare row'.uid row.uid ≠ .eq := fun h => he (Std.LawfulEqCmp.eq_of_compare h)
      rw [if_neg hc]
      rcases h with hr | hm
      · rcases List.mem_cons.mp hr with rfl | hr
        · exact absurd rfl he
        · exact .inl hr
      · exact .inr hm

/-- A reading stays, and its message is gone only when a text said so. -/
theorem receiveTexts_get (rules : ContentRules) {uid : UInt32}
    (texts : List (UInt32 × Option UInt32 × MessageText))
    (readings : Std.TreeMap UInt32 MessageReading) {reading : MessageReading}
    (hreading : readings[uid]? = some reading) (hthere : reading.disappeared = false) :
    ∃ reading', (receiveTexts rules readings texts)[uid]? = some reading' ∧
      (reading'.disappeared = true → ∃ t ∈ texts, t.1 = uid ∧ t.2.2 = .disappeared) := by
  suffices ∀ (readings : Std.TreeMap UInt32 MessageReading) (reading : MessageReading),
    readings[uid]? = some reading →
      ∃ reading', (receiveTexts rules readings texts)[uid]? = some reading' ∧
        (reading'.disappeared = true → reading.disappeared = true ∨ ∃ t ∈ texts, t.1 = uid ∧
          t.2.2 = .disappeared) by
    obtain ⟨reading', hr, hgone⟩ := this readings reading hreading
    exact ⟨reading', hr, fun h => (hgone h).resolve_left (by simp [hthere])⟩
  clear hreading hthere
  induction texts with
  | nil => exact fun _ reading hr => ⟨reading, hr, .inl⟩
  | cons text texts ih =>
    intro readings reading hr
    have hget : (readings.alter text.1
      (Option.map fun reading => reading.receive rules text.2.1 text.2.2))[uid]? =
        if text.1 = uid then some (reading.receive rules text.2.1 text.2.2) else some reading := by
      rw [Std.TreeMap.getElem?_alter]
      by_cases he : text.1 = uid
      · rw [he, if_pos Std.ReflCmp.compare_self, if_pos rfl, hr]
        rfl
      · have hc : compare text.1 uid ≠ .eq := fun h => he (Std.LawfulEqCmp.eq_of_compare h)
        rw [if_neg hc, if_neg he, hr]
    rw [receiveTexts, List.foldl_cons]
    by_cases he : text.1 = uid
    · rw [if_pos he] at hget
      obtain ⟨reading', hr', hgone⟩ := ih _ _ hget
      refine ⟨reading', hr', fun h => ?_⟩
      rcases hgone h with hg | ⟨t, ht, hu⟩
      · rcases reading.receive_disappeared rules _ _ hg with hg | hg
        · exact .inl hg
        · exact .inr ⟨text, List.mem_cons_self, he, hg⟩
      · exact .inr ⟨t, List.mem_cons_of_mem _ ht, hu⟩
    · rw [if_neg he] at hget
      obtain ⟨reading', hr', hgone⟩ := ih _ _ hget
      refine ⟨reading', hr', fun h => (hgone h).imp_right ?_⟩
      rintro ⟨t, ht, hu⟩
      exact ⟨t, List.mem_cons_of_mem _ ht, hu⟩

section Safe

variable {S : Server ImapCommand.Reply} {J : History S → S.World × Tables → Prop}
  {G : History S → Happened S → Prop} {h : History S} {s : S.World × Tables} (hJ : Steady J G)

include hJ

/-- **The contents**: a row's message without one was left unanswered by a text command. -/
theorem readContents_safe (hs : J h s) {rules : ContentRules} {reader : MailboxReader}
    {rows : List MessageRow} {recent : List UInt32} :
    Safe (surroundings S) G h s (readContents rules reader rows recent) fun r h' u =>
      Continues J reader r.2 h h' s u ∧
        ∀ row ∈ rows, (∃ content, (row.uid, content) ∈ r.1) ∨
          Occurred (Unanswered · row.uid) h h' s u := by
  refine (fetchText_safe hJ hs).bind ?_
  rintro ⟨texts, reader'⟩ tr u ⟨hcontinues, hgone⟩
  refine .done ⟨hcontinues, fun row hrow => ?_⟩
  obtain ⟨reading, hreading, hthere⟩ := planReadings_get rules rows recent hrow
  obtain ⟨reading', hreading', hdisappeared⟩ := receiveTexts_get rules texts _ hreading hthere
  cases hd : reading'.disappeared with
  | true =>
    obtain ⟨t, ht, htu, htd⟩ := hdisappeared hd
    exact .inr (htu ▸ hgone t ht htd)
  | false =>
    have hfinish : ∃ content, reading'.finish rules = some content := by
      rw [MessageReading.finish, hd]
      exact ⟨_, rfl⟩
    obtain ⟨content, hcontent⟩ := hfinish
    refine .inl ⟨content, List.mem_filterMap.mpr ⟨(row.uid, reading'), ?_, by simp [hcontent]⟩⟩
    exact Std.TreeMap.mem_toList_iff_getElem?_eq_some.mpr hreading'

end Safe

end Mailbag.Imap
