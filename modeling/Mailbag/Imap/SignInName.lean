import Mailbag.Collections.Occurrences
import Mailbag.Imap.Protocol

/-!
# The sign-in name in the server's texts

What the server says of a failure reaches the record and the screen with the sign-in name
replaced, in any ASCII letter case. The matches are found in a copy in lower case and cut from
the text as sent. An empty name, which nothing keeps out of an account's settings, matches
between any two characters.

## What is proved

* `replaceSignInName_hides` — the name is hidden and nothing else is altered, unless the name is
  empty.
* `replaceSignInName_empty` — what an empty name makes of a text.
* `replaceSignInName_hides_iff` — the first holds of exactly the names that are not empty.
* `error_shown` — every text of a failed step's error has the name replaced.
-/

namespace Mailbag.Imap

open Collections

/-- `str::to_ascii_lowercase`. -/
def asciiLowercase (text : List Char) : List Char := text.map Char.toLower

/-- What stands for the sign-in name. -/
def loginMark : List Char := ['<', 'l', 'o', 'g', 'i', 'n', '>']

/-- The rest of the replacement, at the matches from there on: what of the text is copied, and the
text replaced so far. -/
def replaceMatches (nameLength : ℕ) (text : List Char) :
    List ℕ → ℕ → List Char → Except Panic (List Char)
  | [], copied, replacedText => do return replacedText ++ (← sliceFrom text copied)
  | start :: starts, copied, replacedText => do
    let piece ← slice text copied start
    replaceMatches nameLength text starts (start + nameLength) (replacedText ++ piece ++ loginMark)

/-- The server's text with every occurrence of the sign-in name, in any ASCII letter case,
replaced. -/
def replaceSignInName (signInName text : List Char) : Except Panic (List Char) :=
  let lowercaseName := asciiLowercase signInName
  replaceMatches (byteLength lowercaseName) text
    (matchIndices lowercaseName (asciiLowercase text)) 0 []

/-! ### What hiding the name is -/

/-- The text is the name, in some ASCII letter case, and not empty. -/
def IsName (signInName found : List Char) : Prop :=
  found ≠ [] ∧ asciiLowercase found = asciiLowercase signInName

/-- The name is hidden and nothing else altered: the leftmost occurrences of the name, one behind
the other, are replaced, the pieces between them are kept and hold the name nowhere, and a text
without the name is unchanged. -/
def Hides (signInName text result : List Char) : Prop :=
  (∃ cuts last, Cuts (IsName signInName) text cuts last ∧
      text = (cuts.flatMap fun cut => cut.1 ++ cut.2) ++ last ∧
      result = joinPieces loginMark cuts last ∧
      (∀ cut ∈ cuts, ¬ Occurs (IsName signInName) cut.1) ∧ ¬ Occurs (IsName signInName) last) ∧
    (¬ Occurs (IsName signInName) text → result = text)

/-! ### The copy in lower case -/

theorem utf8Size_toLower (character : Char) : character.toLower.utf8Size = character.utf8Size := by
  delta Char.toLower
  split
  · next hupper =>
    -- Both letters are ASCII, of one byte.
    have hletter : character.val.toNat ≤ 90 := UInt32.le_iff_toNat_le.mp hupper.2
    have hsum : (character.val + ('a'.val - 'A'.val)).toNat = character.val.toNat + 32 := by
      rw [UInt32.toNat_add, (by decide : ('a'.val - 'A'.val).toNat = 32)]
      omega
    have hone : (127 : UInt32).toNat = 127 := rfl
    have hsmall : character.val ≤ 127 := UInt32.le_iff_toNat_le.mpr (by omega)
    have hlower : character.val + ('a'.val - 'A'.val) ≤ 127 := UInt32.le_iff_toNat_le.mpr (by omega)
    rw [Char.utf8Size_eq_one_iff.mpr hlower, Char.utf8Size_eq_one_iff.mpr hsmall]
  · rfl

@[simp] theorem byteLength_asciiLowercase (text : List Char) :
    byteLength (asciiLowercase text) = byteLength text := by
  simp [byteLength, asciiLowercase, Function.comp_def, utf8Size_toLower]

theorem asciiLowercase_append (front text : List Char) :
    asciiLowercase (front ++ text) = asciiLowercase front ++ asciiLowercase text := List.map_append

theorem IsName.ne_nil {signInName found : List Char} (h : IsName signInName found) : found ≠ [] :=
  h.1

theorem occurs_iff_lowercase {signInName text : List Char} (hne : signInName ≠ []) :
    Occurs (IsName signInName) text ↔ asciiLowercase signInName <:+: asciiLowercase text := by
  constructor
  · rintro ⟨front, found, rest, rfl, hfound⟩
    rw [asciiLowercase_append, asciiLowercase_append, hfound.2]
    exact ⟨asciiLowercase front, asciiLowercase rest, List.append_assoc _ _ _⟩
  · rintro ⟨front, rest, heq⟩
    obtain ⟨before, rest', rfl, hbefore, -⟩ := List.map_eq_append_iff.mp heq.symm
    obtain ⟨front', found, rfl, -, hfound⟩ := List.map_eq_append_iff.mp hbefore
    refine ⟨front', found, rest', List.append_assoc _ _ _, ?_, hfound⟩
    intro hnil
    rw [hnil] at hfound
    exact hne (List.map_eq_nil_iff.mp hfound.symm)

/-! ### A name that is not empty -/

section NotEmpty

variable {signInName : List Char} (hne : signInName ≠ [])
include hne

theorem cut_of_lowercase {text piece rest : List Char}
    (heq : asciiLowercase text = piece ++ (asciiLowercase signInName ++ rest))
    (hleftmost : ∀ front tail, piece = front ++ tail → tail ≠ [] → ¬ asciiLowercase signInName <+:
      tail ++ (asciiLowercase signInName ++ rest)) :
    ∃ kept found after, text = kept ++ (found ++ after) ∧ asciiLowercase kept = piece ∧
      asciiLowercase after = rest ∧
      IsName signInName found ∧ NoneBegins (IsName signInName) kept (found ++ after) := by
  obtain ⟨kept, behind, rfl, hkept, hbehind⟩ := List.map_eq_append_iff.mp heq
  obtain ⟨found, after, rfl, hfound, hafter⟩ := List.map_eq_append_iff.mp hbehind
  have hfoundNe : found ≠ [] := by
    intro hnil
    rw [hnil] at hfound
    exact hne (List.map_eq_nil_iff.mp hfound.symm)
  refine ⟨kept, found, after, rfl, hkept, hafter, ⟨hfoundNe, hfound⟩, ?_⟩
  intro front tail found' after' hsplit htail hbegins hname
  -- A match that begins in the kept piece begins in the copy's piece.
  apply hleftmost (asciiLowercase front) (asciiLowercase tail)
  · rw [← hkept, ← asciiLowercase_append, ← hsplit]
    rfl
  · intro hnil
    exact htail (List.map_eq_nil_iff.mp hnil)
  · refine ⟨asciiLowercase after', ?_⟩
    have hcopy := congrArg asciiLowercase hbegins
    rw [asciiLowercase_append, asciiLowercase_append, asciiLowercase_append, hname.2] at hcopy
    rw [← hcopy, ← hafter]
    exact congrArg (asciiLowercase tail ++ ·) (congrArg (· ++ asciiLowercase after) hfound)

/-- The replacement from a place on, where everything before it was copied. -/
theorem replaceMatches_cuts (before rest replacedText : List Char) :
    ∃ cuts last, Cuts (IsName signInName) rest cuts last ∧
    replaceMatches (byteLength (asciiLowercase signInName)) (before ++ rest)
      (matchPositions (asciiLowercase signInName) 0 (byteLength before) (asciiLowercase rest))
      (byteLength before) replacedText =
        .ok (replacedText ++ joinPieces loginMark cuts last) := by
  have hne' : asciiLowercase signInName ≠ [] := fun hnil => hne (List.map_eq_nil_iff.mp hnil)
  induction hlength : rest.length using Nat.strongRecOn generalizing before rest replacedText with
  | _ length ih =>
    rcases matchPositions_cases hne' (asciiLowercase rest) (byteLength before)
      with ⟨hnone, hnot⟩ | ⟨piece, rest', heq, hleftmost, hfirst⟩
    · refine ⟨[], rest, .last ?_, ?_⟩
      · rw [occurs_iff_lowercase hne]
        exact hnot
      · rw [hnone, replaceMatches, sliceFrom_append]
        rfl
    · obtain ⟨kept, found, after, rfl, rfl, rfl, hfound, hnoneBegins⟩ :=
        cut_of_lowercase hne heq hleftmost
      have hsize : byteLength (asciiLowercase signInName) = byteLength found := by
        rw [← hfound.2, byteLength_asciiLowercase]
      have hshorter : after.length < length := by
        have hpos := List.length_pos_iff.mpr hfound.1
        rw [← hlength, List.length_append, List.length_append]
        omega
      obtain ⟨cuts, last, hcuts, hrest⟩ :=
        ih after.length hshorter (before ++ (kept ++ found)) after
        (replacedText ++ kept ++ loginMark) rfl
      refine ⟨(kept, found) :: cuts, last, .cut hfound hnoneBegins hcuts, ?_⟩
      have hplace : byteLength before + byteLength kept + byteLength found = byteLength
          (before ++ (kept ++ found)) := by
        rw [byteLength_append, byteLength_append, Nat.add_assoc]
      have htext : before ++ (kept ++ (found ++ after)) = before ++ (kept ++ found) ++ after := by
        simp
      rw [hfirst, byteLength_asciiLowercase kept, hsize, replaceMatches, slice_append, hplace,
        htext]
      rw [hsize] at hrest
      exact hrest.trans (by simp)

/-- **The name is hidden**, and nothing else is altered, when it is not empty. -/
theorem replaceSignInName_hides (text : List Char) :
    ∃ result, replaceSignInName signInName text = .ok result ∧ Hides signInName text result := by
  obtain ⟨cuts, last, hcuts, hresult⟩ := replaceMatches_cuts hne [] text []
  have hpieces := hcuts.not_occurs fun found hfound => hfound.ne_nil
  refine ⟨joinPieces loginMark cuts last, hresult,
    ⟨cuts, last, hcuts, hcuts.text_eq, rfl, hpieces.1, hpieces.2⟩, fun hnone => ?_⟩
  obtain ⟨rfl, rfl⟩ := hcuts.eq_of_not_occurs hnone
  rfl

end NotEmpty

/-! ### An empty name -/

/-- An empty name matches at every place, so the rest of the text is replaced character by
character. -/
theorem replaceMatches_empty (before piece rest replacedText : List Char) :
    replaceMatches 0 (before ++ (piece ++ rest))
    (matchPositions [] 0 (byteLength before + byteLength piece) (asciiLowercase rest))
      (byteLength before) replacedText =
        .ok (replacedText ++ piece ++ loginMark ++ rest.flatMap fun character => character ::
          loginMark) := by
  induction rest generalizing before piece replacedText with
  | nil =>
    have hrest : sliceFrom (before ++ (piece ++ [])) (byteLength before + byteLength piece) =
        .ok [] := by
      rw [← byteLength_append, ← List.append_assoc]
      exact sliceFrom_append (before ++ piece) []
    rw [show asciiLowercase [] = [] from rfl, matchPositions, if_pos rfl, replaceMatches,
      slice_append before piece []]
    show (sliceFrom _ (_ + _ + 0)).bind _ = _
    rw [Nat.add_zero, hrest, List.flatMap_nil]
    rfl
  | cons character rest ih =>
    have hpositions : matchPositions [] 0 (byteLength before + byteLength piece)
      (asciiLowercase (character :: rest)) =
        (byteLength before + byteLength piece) ::
          matchPositions [] 0 (byteLength (before ++ piece) + byteLength [character])
            (asciiLowercase rest) := by
      have hsize : byteLength [character] = character.toLower.utf8Size :=
        (utf8Size_toLower character).symm
      rw [byteLength_append, hsize]
      rfl
    have hnext := ih (before ++ piece) [character] (replacedText ++ piece ++ loginMark)
    have htext : before ++ (piece ++ character :: rest) = before ++ piece ++
        ([character] ++ rest) := by simp
    rw [hpositions, replaceMatches, slice_append before piece (character :: rest), htext]
    show replaceMatches 0 _ _ (_ + _ + 0) _ = _
    rw [Nat.add_zero, ← byteLength_append before piece, hnext]
    simp

/-- **An empty name** puts the mark before every character and at the end. -/
theorem replaceSignInName_empty (text : List Char) :
    replaceSignInName [] text = .ok (loginMark ++ text.flatMap fun character => character ::
      loginMark) :=
  replaceMatches_empty [] [] text []

theorem not_occurs_empty (text : List Char) : ¬ Occurs (IsName []) text := by
  rintro ⟨front, found, rest, -, hne, hsame⟩
  exact hne (List.map_eq_nil_iff.mp hsame)

/-- **The name is hidden and nothing else is altered** for exactly the names that are not empty. -/
theorem replaceSignInName_hides_iff (signInName text : List Char) :
    (∃ result, replaceSignInName signInName text = .ok result ∧ Hides signInName text result) ↔
      signInName ≠ [] := by
  constructor
  · rintro ⟨result, hresult, -, hunchanged⟩ rfl
    rw [replaceSignInName_empty, Except.ok.injEq] at hresult
    have hsame : loginMark ++ text.flatMap (fun character => character :: loginMark) = text :=
      hresult.trans (hunchanged (not_occurs_empty text))
    have hlonger : text.length ≤ (text.flatMap fun character => character :: loginMark).length := by
      clear hsame hresult hunchanged
      induction text with
      | nil => simp
      | cons character text ih =>
        rw [List.flatMap_cons, List.length_append, List.length_cons, List.length_cons]
        omega
    have hlength := congrArg List.length hsame
    have hmark : loginMark.length = 7 := rfl
    rw [List.length_append] at hlength
    omega
  · intro hne
    exact replaceSignInName_hides hne text

/-- With an empty name the mark stands around every character of a text that holds no name. -/
theorem replaceSignInName_empty_alters :
    replaceSignInName [] ['N', 'O'] = .ok (loginMark ++ ['N'] ++ loginMark ++ ['O'] ++ loginMark) ∧
      ¬ ∃ result, replaceSignInName [] ['N', 'O'] = .ok result ∧ Hides [] ['N', 'O'] result := by
  refine ⟨by decide, ?_⟩
  rintro ⟨result, hresult, -, hunchanged⟩
  have hsame : result = ['N', 'O'] := hunchanged (not_occurs_empty _)
  rw [hsame] at hresult
  exact absurd hresult (by decide)

/-! ### The error of a failed step -/

/-- A failed step and the server's reason. -/
structure StepFailure where
  /-- What failed. -/
  failure : ImapFailure
  /-- The server's reason, if it gave one. -/
  serverReply : Option ServerReply

/-- What the caller is told of a failed step. -/
structure ReportedError extends ImapError where
  /-- The alerts that the server sent during the attempt. -/
  alerts : List String

/-- The status of a response. -/
inductive Status where
  /-- OK. -/
  | ok
  /-- NO. -/
  | no
  /-- BAD. -/
  | bad
  /-- PREAUTH. -/
  | preAuth
  /-- BYE. -/
  | bye
  deriving DecidableEq

/-- The code of a response, as far as it matters here. -/
inductive ResponseCode where
  /-- ALERT. -/
  | alert
  /-- Any other. -/
  | other
  deriving DecidableEq

/-- A response that the server sent by itself. -/
inductive Response where
  /-- Data with a status. -/
  | data (status : Status) (code : Option ResponseCode) (information : Option String)
  /-- A tagged result. -/
  | done (code : Option ResponseCode) (information : Option String)
  /-- Any other. -/
  | other

/-- What the server said during an attempt. -/
structure ServerNotices where
  /-- The waiting responses of the current connection. -/
  responses : Option (List Response)
  /-- The ALERT texts. -/
  alerts : List String
  /-- The BYE with which the server closed the connection. -/
  bye : Option ServerReply

namespace ServerNotices

/-- Keep the text of an ALERT and of a BYE. -/
def keep (notices : ServerNotices) : Response → ServerNotices
  | .data status code information =>
    let text := information.getD ""
    { notices with
      alerts := if code = some .alert then notices.alerts ++ [text] else notices.alerts
      bye := if status = .bye then some ⟨none, text⟩ else notices.bye }
  | .done code information =>
    { notices with alerts := if code = some .alert then notices.alerts ++ [information.getD ""]
      else notices.alerts }
  | .other => notices

/-- Keep the texts among the waiting responses. -/
def collect (notices : ServerNotices) : ServerNotices :=
  match notices.responses with
  | none => notices
  | some responses => { responses.foldl keep notices with responses := some [] }

/-- The text with the sign-in name replaced. -/
def hiddenIn (signInName text : String) : Except Panic String := do
  return String.ofList (← replaceSignInName signInName.toList text.toList)

/-- The reason given for a failure: the server's reply, else the BYE. -/
def reason (notices : ServerNotices) (failure : StepFailure) : Option ServerReply :=
  failure.serverReply.or notices.bye

/-- The notices once a failure took its texts. -/
def told (notices : ServerNotices) (failure : StepFailure) : ServerNotices :=
  { notices with alerts := [], bye := if failure.serverReply.isSome then notices.bye else none }

/-- The error for a failed step, with what the server said about it, and the notices left. -/
def error (notices : ServerNotices) (signInName : String) (failure : StepFailure) :
    Except Panic (ReportedError × ServerNotices) := do
  let notices := notices.collect
  let serverReply ← (notices.reason failure).mapM
    fun reply => do return { reply with text := ← hiddenIn signInName reply.text }
  let alerts ← notices.alerts.mapM (hiddenIn signInName)
  return (⟨⟨failure.failure, serverReply⟩, alerts⟩, notices.told failure)

end ServerNotices

/-- The text shown is the one received with the name replaced, which hides a name that is not
empty. -/
structure ShownAs (signInName text shown : String) : Prop where
  /-- What the replacement leaves. -/
  replaced : ServerNotices.hiddenIn signInName text = .ok shown
  /-- The name is hidden, and nothing else altered. -/
  hides : signInName ≠ "" → Hides signInName.toList text.toList shown.toList

theorem exists_shown (signInName text : String) : ∃ shown, ShownAs signInName text shown := by
  by_cases hempty : signInName.toList = []
  · have hresult := replaceSignInName_empty text.toList
    rw [← hempty] at hresult
    refine ⟨String.ofList (loginMark ++ text.toList.flatMap fun character => character ::
      loginMark),
      ?_, fun hne => absurd (String.toList_eq_nil_iff.mp hempty) hne⟩
    rw [ServerNotices.hiddenIn, hresult]
    rfl
  · obtain ⟨result, hresult, hhides⟩ := replaceSignInName_hides hempty text.toList
    refine ⟨String.ofList result, ?_, fun _ => ?_⟩
    · rw [ServerNotices.hiddenIn, hresult]
      rfl
    · rw [String.toList_ofList]
      exact hhides

theorem mapM_hiddenIn (signInName : String) (texts : List String) :
    ∃ shown, texts.mapM (ServerNotices.hiddenIn signInName) = .ok shown ∧
      List.Forall₂ (ShownAs signInName) texts shown := by
  induction texts with
  | nil => exact ⟨[], rfl, .nil⟩
  | cons text texts ih =>
    obtain ⟨first, hfirst⟩ := exists_shown signInName text
    obtain ⟨rest, hrest, hall⟩ := ih
    refine ⟨first :: rest, ?_, .cons hfirst hall⟩
    rw [List.mapM_cons, hfirst.replaced, hrest]
    rfl

/-- **Every text of the error** has the name replaced: the server's reason, or its BYE, and the
alerts, each once and in order. -/
theorem error_shown (notices : ServerNotices) (signInName : String) (failure : StepFailure) :
    ∃ reported,
    notices.error signInName failure = .ok (reported, notices.collect.told failure) ∧
      reported.failure = failure.failure ∧
      Option.Rel (fun reply shown => shown.code = reply.code ∧
          ShownAs signInName reply.text shown.text)
        (notices.collect.reason failure) reported.serverReply ∧
      List.Forall₂ (ShownAs signInName) notices.collect.alerts reported.alerts := by
  obtain ⟨alerts, halerts, hshown⟩ := mapM_hiddenIn signInName notices.collect.alerts
  cases hreason : notices.collect.reason failure with
  | none =>
    refine ⟨⟨⟨failure.failure, none⟩, alerts⟩, ?_, rfl, .none, hshown⟩
    rw [ServerNotices.error, hreason, halerts]
    rfl
  | some reply =>
    obtain ⟨text, hreply⟩ := exists_shown signInName reply.text
    refine ⟨⟨⟨failure.failure, some { reply with text := text }⟩, alerts⟩, ?_, rfl,
      .some ⟨rfl, hreply⟩, hshown⟩
    rw [ServerNotices.error, hreason, halerts, Option.mapM_some, hreply.replaced]
    rfl

end Mailbag.Imap
