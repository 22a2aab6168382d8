import Mailbag.Collections.Spacing

/-!
# The preview of a message

A list row shows the first words of a message's text. They are made from a piece of a part,
which ends wherever the read stopped.

## What is proved

* `normaliseWords_eq` — the loop makes the text's visible characters, single-spaced and cut.
* `normaliseWords_normal` — so a preview has at most 400 characters and only single spaces,
  shows nothing invisible, stays as it is, and grows with the text.
* `cleanCut_clean` — a base64 piece is cut back to its complete groups, and no further.
-/

namespace Mailbag.Content

open Collections

/-! ### Words -/

/-- The longest preview kept, in characters. -/
def previewCharacters : ℕ := 400

/-- The characters with Unicode's White_Space property. -/
def isWhitespace (character : Char) : Bool :=
  ('\t' ≤ character && character ≤ '\r') || character = ' ' || character = '\u0085' ||
    character = '\u00A0' || character = '\u1680' ||
    ('\u2000' ≤ character && character ≤ '\u200A') || character = '\u2028' ||
    character = '\u2029' || character = '\u202F' || character = '\u205F' || character = '\u3000'

/-- The characters of Unicode's general category Cc. -/
def isControl (character : Char) : Bool :=
  character ≤ '\u001F' || ('\u007F' ≤ character && character ≤ '\u009F')

/-- White space, the braille blank and the Mongolian vowel separator. -/
def isBlank (character : Char) : Bool :=
  isWhitespace character || character = '\u2800' || character = '\u180E'

/-- Control and formatting characters that show nothing, and the combining grapheme joiner. -/
def isInvisible (character : Char) : Bool :=
  isControl character || character = '\u00AD' || character = '\u034F' ||
    ('\u200B' ≤ character && character ≤ '\u200F') ||
      ('\u202A' ≤ character && character ≤ '\u202E') ||
      ('\u2060' ≤ character && character ≤ '\u2064') ||
        ('\u2066' ≤ character && character ≤ '\u206F') ||
        character = '\uFEFF'

/-- The loop over a text's characters: the words written, how many characters they have, and
whether a space is pending. -/
def normaliseFrom (words : List Char) (characters : ℕ) (spacePending : Bool) : List Char → List Char
  | [] => words
  | character :: text =>
    if isBlank character then normaliseFrom words characters (!words.isEmpty) text
    else if isInvisible character then normaliseFrom words characters spacePending text
    else
      let words := if spacePending then words ++ [' '] else words
      let characters := if spacePending then characters + 1 else characters
      if previewCharacters ≤ characters then words
      else normaliseFrom (words ++ [character]) (characters + 1) false text

/-- White space becomes one space per run, invisible characters go, and the result is trimmed
and cut to its first characters. -/
def normaliseWords (text : List Char) : List Char :=
  -- A space may have been the last character that fitted.
  (normaliseFrom [] 0 false text).rdropWhile isWhitespace

/-- The characters that show something, and the blanks. -/
def shown (text : List Char) : List Char :=
  text.filter fun character => isBlank character || !isInvisible character

theorem isWhitespace_space : isWhitespace ' ' = true := rfl

/-- **The loop**: the words are the beginning of what is shown, single-spaced, but for a space
at the end. -/
theorem normaliseFrom_eq (words : List Char) (spacePending : Bool) (text : List Char)
    (hlength : words.length ≤ previewCharacters)
    (hlast : ∀ character ∈ words.getLast?, ¬isWhitespace character)
    (hpending : spacePending → words ≠ []) :
    (normaliseFrom words words.length spacePending text).rdropWhile isWhitespace =
      cutTo isWhitespace previewCharacters
      (words ++ spaced isBlank ' ' (!words.isEmpty) spacePending (shown text)) := by
  induction text generalizing words spacePending with
  | nil =>
    rw [normaliseFrom, shown, List.filter_nil, spaced, List.append_nil, cutTo,
      List.take_of_length_le hlength]
  | cons character text ih =>
    by_cases hblank : isBlank character
    · -- a blank after words waits for the next character
      have hshown : shown (character :: text) = character :: shown text := by simp [shown, hblank]
      rw [normaliseFrom, if_pos hblank, hshown, spaced_cons_of_blank hblank]
      exact ih words (!words.isEmpty) hlength hlast (by simp)
    by_cases hinvisible : isInvisible character
    · have hshown : shown (character :: text) = shown text := by simp [shown, hblank, hinvisible]
      rw [normaliseFrom, if_neg hblank, if_pos hinvisible, hshown]
      exact ih words spacePending hlength hlast hpending
    have hshown : shown (character :: text) = character :: shown text := by simp [shown, hinvisible]
    have hwhite : ¬isWhitespace character := fun h => hblank (by simp [isBlank, h])
    rw [normaliseFrom, if_neg hblank, if_neg hinvisible, hshown, spaced_cons_of_not hblank]
    have hdropped : words.rdropWhile isWhitespace = words :=
      List.rdropWhile_eq_self_iff.mpr fun hne => hlast _ (List.getLast?_eq_some_getLast hne)
    have hword : ∀ c ∈ (words ++ [character]).getLast?, ¬isWhitespace c := by simpa using hwhite
    cases spacePending with
    | false =>
      by_cases hfull : previewCharacters ≤ words.length
      · rw [cutTo_append_of_length (Nat.le_antisymm hlength hfull) hlast]
        simpa [hfull] using hdropped
      · have hbegun : (words ++ [character]).isEmpty = false := by simp
        have hrest := ih (words ++ [character]) false (by simp; omega) hword (by simp)
        rw [hbegun] at hrest
        simpa [hfull] using hrest
    | true =>
      by_cases hfull : previewCharacters ≤ words.length + 1
      · have hcut := cutTo_append_space hlength hfull isWhitespace_space hlast
          (character :: spaced isBlank ' ' true false (shown text))
        simp only [if_true, hfull, List.singleton_append, hcut]
        rw [List.rdropWhile_concat, if_pos isWhitespace_space, hdropped]
      · have hbegun : (words ++ [' ', character]).isEmpty = false := by simp
        have hrest := ih (words ++ [' ', character]) false (by simp; omega) (by simpa using hwhite)
          (by simp)
        rw [hbegun] at hrest
        simpa [hfull] using hrest

/-- **A preview** is the beginning of what the text shows, single-spaced. -/
theorem normaliseWords_eq (text : List Char) :
    normaliseWords text = cutTo isWhitespace previewCharacters
      (spaced isBlank ' ' false false (shown text)) :=
  normaliseFrom_eq [] false text (Nat.zero_le _) (by simp) (by simp)

theorem normaliseWords_singleSpaced (text : List Char) :
    SingleSpaced isBlank ' ' (normaliseWords text) := by
  rw [normaliseWords_eq]
  exact (spaced_singleSpaced _).cut isWhitespace_space

theorem normaliseWords_visible (text : List Char) :
    ∀ character ∈ normaliseWords text, ¬isInvisible character := by
  intro character hmem
  rw [normaliseWords_eq] at hmem
  rcases mem_spaced ((cutTo_isPrefix _).subset hmem) with rfl | ⟨hmem, hblank⟩
  · decide
  · have hshown := (List.mem_filter.mp hmem).2
    simpa [hblank] using hshown

theorem normaliseWords_length (text : List Char) :
    (normaliseWords text).length ≤ previewCharacters := by
  rw [normaliseWords_eq]
  exact length_cutTo_le _

theorem normaliseWords_of_normal {text : List Char} (hlength : text.length ≤ previewCharacters)
    (hspaced : SingleSpaced isBlank ' ' text)
    (hvisible : ∀ character ∈ text, ¬isInvisible character) : normaliseWords text = text := by
  have hshown : shown text = text := List.filter_eq_self.mpr fun character hmem => by
    simp [hvisible character hmem]
  rw [normaliseWords_eq, hshown, spaced_of_singleSpaced hspaced]
  refine cutTo_of_length_le hlength fun character hmem hwhite => hspaced.last character hmem ?_
  simp [isBlank, hwhite]

/-- **Preview text is normal.** It has at most 400 characters, no blanks but single spaces
between others, and nothing invisible; normalising it again changes nothing; and the preview
of a beginning of a text is a beginning of the preview of the text. -/
theorem normaliseWords_normal (text : List Char) :
    (normaliseWords text).length ≤ 400 ∧ SingleSpaced isBlank ' ' (normaliseWords text) ∧
      (∀ character ∈ normaliseWords text, ¬isInvisible character) ∧
      normaliseWords (normaliseWords text) = normaliseWords text ∧
      ∀ piece, piece <+: text → normaliseWords piece <+: normaliseWords text := by
  refine ⟨normaliseWords_length text, normaliseWords_singleSpaced text,
    normaliseWords_visible text, ?_, ?_⟩
  · exact normaliseWords_of_normal (normaliseWords_length text) (normaliseWords_singleSpaced text)
      (normaliseWords_visible text)
  · rintro piece ⟨rest, rfl⟩
    rw [normaliseWords_eq, normaliseWords_eq, shown, shown, List.filter_append]
    exact cutTo_mono (spaced_append _ _ _ _)

/-- Blanks of several kinds and an invisible joiner between them are one space. -/
example :
    normaliseWords ['\n', 'a', ' ', '\u034F', '\u00A0', '\t', 'b', '\u2800'] = ['a', ' ', 'b'] := by
  decide

/-! ### A piece cut anywhere -/

/-- Space, tab, line feed, form feed and carriage return. -/
def isAsciiWhitespace (byte : UInt8) : Bool :=
  byte = 32 || byte = 9 || byte = 10 || byte = 12 || byte = 13

/-- How many bytes are no white space. -/
def countCharacters (body : List UInt8) : ℕ := body.countP fun byte => !isAsciiWhitespace byte

/-- Whether a base64 body ends on a complete group of four characters. -/
def base64GroupsAreComplete (body : List UInt8) : Bool := countCharacters body % 4 = 0

/-- The check a decoded entity must pass: a base64 body that ends inside a group is refused. -/
def refusesGroups (encoding : String) (body : List UInt8) : Bool :=
  encoding.toLower = "base64" && !base64GroupsAreComplete body

/-- Going back from a place until `incomplete` characters are dropped; `none` when it runs past
the start. -/
def dropBack (piece : List UInt8) : ℕ → ℕ → Option ℕ
  | 0, stop => some stop
  | _ + 1, 0 => none
  | incomplete + 1, stop + 1 =>
    piece[stop]?.bind fun byte =>
      if isAsciiWhitespace byte then dropBack piece (incomplete + 1) stop
        else dropBack piece incomplete stop

/-- Drop a base64 group the cut left with fewer than four characters. -/
def cleanCut (piece : List UInt8) (transferEncoding : Option String) : Option (List UInt8) :=
  if transferEncoding = some "base64" then
    (dropBack piece (countCharacters piece % 4) piece.length).map piece.take
  else some piece

theorem countCharacters_append (front rest : List UInt8) :
    countCharacters (front ++ rest) = countCharacters front + countCharacters rest :=
  List.countP_append

theorem countCharacters_take_succ {piece : List UInt8} {stop : ℕ} {byte : UInt8}
    (hbyte : piece[stop]? = some byte) :
    countCharacters (piece.take (stop + 1)) =
      countCharacters (piece.take stop) + if isAsciiWhitespace byte then 0 else 1 := by
  rw [List.take_add_one, hbyte, countCharacters_append]
  cases h : isAsciiWhitespace byte <;> simp [countCharacters, h]

/-- **The loop** drops as many characters as it is told to, if the piece has them, and stops
in front of the last one dropped. -/
theorem dropBack_drops {piece : List UInt8} (incomplete stop : ℕ) (hstop : stop ≤ piece.length)
    (hhas : incomplete ≤ countCharacters (piece.take stop)) :
    ∃ stop' ≤ stop, dropBack piece incomplete stop = some stop' ∧
      countCharacters (piece.take stop') + incomplete = countCharacters (piece.take stop) ∧
      (0 < incomplete → countCharacters (piece.take (stop' + 1)) = countCharacters
        (piece.take stop') + 1) := by
  induction stop generalizing incomplete with
  | zero =>
    obtain rfl : incomplete = 0 := by simpa [countCharacters] using hhas
    exact ⟨0, Nat.le_refl _, rfl, rfl, fun h => absurd h (Nat.lt_irrefl _)⟩
  | succ stop ih =>
    cases incomplete with
    | zero => exact ⟨stop + 1, Nat.le_refl _, rfl, rfl, fun h => absurd h (Nat.lt_irrefl _)⟩
    | succ incomplete =>
      have hbyte : piece[stop]? = some piece[stop] := List.getElem?_eq_getElem hstop
      have hcount := countCharacters_take_succ hbyte
      rw [dropBack, hbyte, Option.bind_some]
      cases hwhite : isAsciiWhitespace piece[stop] with
      | true =>
        simp only [hwhite, if_true] at hcount ⊢
        obtain ⟨stop', hle, hdrop, hsum, hnext⟩ := ih (incomplete + 1) (by omega) (by omega)
        exact ⟨stop', by omega, hdrop, by omega, hnext⟩
      | false =>
        simp only [hwhite, Bool.false_eq_true, if_false] at hcount ⊢
        obtain ⟨stop', hle, hdrop, hsum, hnext⟩ := ih incomplete (by omega) (by omega)
        refine ⟨stop', by omega, hdrop, by omega, fun _ => ?_⟩
        rcases Nat.eq_zero_or_pos incomplete with rfl | hpos
        · obtain rfl : stop' = stop := by simpa [dropBack] using hdrop.symm
          exact hcount
        · exact hnext hpos

theorem countCharacters_take_mono (piece : List UInt8) {m n : ℕ} (h : m ≤ n) :
    countCharacters (piece.take m) ≤ countCharacters (piece.take n) :=
  (List.take_prefix_take_left h).sublist.countP_le

/-- What is kept of a base64 piece: all complete groups, with the white space after them. -/
theorem cleanCut_base64 (piece : List UInt8) :
    ∃ kept, cleanCut piece (some "base64") = some kept ∧ kept <+: piece ∧
      base64GroupsAreComplete kept ∧
      (∀ complete, complete <+: piece → base64GroupsAreComplete complete → complete <+: kept) ∧
      countCharacters piece < countCharacters kept + 4 := by
  have hwhole : piece.take piece.length = piece := List.take_length
  obtain ⟨stop, -, hdrop, hsum, hnext⟩ :=
    dropBack_drops (countCharacters piece % 4) piece.length (Nat.le_refl _)
    (hwhole.symm ▸ Nat.mod_le _ _)
  rw [hwhole] at hsum
  refine ⟨piece.take stop, by simp [cleanCut, hdrop], List.take_prefix _ _, ?_,
    fun complete hcomplete hgroups => ?_, by omega⟩
  · have hgroups : countCharacters (piece.take stop) % 4 = 0 := by omega
    simpa [base64GroupsAreComplete] using hgroups
  · have hgroups : countCharacters complete % 4 = 0 := by
      simpa [base64GroupsAreComplete] using hgroups
    have hle : countCharacters complete ≤ countCharacters piece := hcomplete.sublist.countP_le
    rw [List.prefix_iff_eq_take.mp hcomplete] at hgroups hle ⊢
    refine List.take_prefix_take_left ?_
    by_contra hlonger
    -- a longer beginning ends inside the group that was dropped, or nothing was
    rcases Nat.eq_zero_or_pos (countCharacters piece % 4) with hzero | hpos
    · rw [hzero, dropBack, Option.some.injEq] at hdrop
      exact hlonger (hdrop ▸ hcomplete.length_le)
    · have hmore : countCharacters (piece.take (stop + 1)) ≤ countCharacters
          (piece.take complete.length) :=
        countCharacters_take_mono piece (Nat.lt_of_not_le hlonger)
      have hgroup := hnext hpos
      omega

/-- **A piece cut anywhere is clean.** For base64 the cut never runs past the start and leaves
the longest beginning whose groups are complete, fewer than four characters shorter; in any
other encoding it leaves the piece; so no piece is refused for an incomplete group. -/
theorem cleanCut_clean (piece : List UInt8) :
    (∃ kept, cleanCut piece (some "base64") = some kept ∧ kept <+: piece ∧
      base64GroupsAreComplete kept ∧
      (∀ complete, complete <+: piece → base64GroupsAreComplete complete → complete <+: kept) ∧
      countCharacters piece < countCharacters kept + 4) ∧
    (∀ encoding, encoding ≠ some "base64" → cleanCut piece encoding = some piece) ∧
    ∀ encoding : Option String, ∃ kept, cleanCut piece (encoding.map String.toLower) = some kept ∧
      ¬refusesGroups (encoding.getD "") kept := by
  have hother : ∀ encoding, encoding ≠ some "base64" → cleanCut piece encoding = some piece :=
    fun encoding hne => if_neg hne
  refine ⟨cleanCut_base64 piece, hother, fun encoding => ?_⟩
  by_cases hbase64 : encoding.map String.toLower = some "base64"
  · obtain ⟨kept, hkept, -, hcomplete, -⟩ := cleanCut_base64 piece
    exact ⟨kept, hbase64 ▸ hkept, by simp [refusesGroups, hcomplete]⟩
  · refine ⟨piece, hother _ hbase64, ?_⟩
    cases encoding with
    | none =>
      have hempty : String.map Char.toLower "" = "" := by simp
      have hlower : ("" : String).toLower = "" := hempty
      simp [refusesGroups, hlower]
    | some encoding =>
      have hne : encoding.toLower ≠ "base64" := fun h => hbase64 (congrArg some h)
      simp [refusesGroups, hne]

end Mailbag.Content
