import Mathlib.Data.List.Forall2
import Mathlib.Data.List.Infix

/-!
# Text sent as `format=flowed`

A sender of flowed text cuts a paragraph into lines. A line that ends in a space is soft: its
paragraph goes on in the next line of the same quoting depth. `unflowText` joins the lines
again, line by line, keeping which paragraph is still open.

## The model

`Flowed` says what a sender may send for a list of paragraphs: how a paragraph is cut
(`Cut`), what stands in front of each line (`Quoted`), and how lines end (`Sent`).

## What is proved

* `unflowText_flowed` — whatever was sent for some paragraphs, unflowing gives them back, one
  a line, each behind its quote prefix.
-/

namespace Mailbag.Content

/-! ### Unflowing -/

/-- The line without the CR of its line end. -/
def withoutReturn (rawLine : List Char) : List Char :=
  if rawLine.getLast? = some '\r' then rawLine.dropLast else rawLine

/-- The text without the space the sender put in front to protect it. -/
def withoutStuffing : List Char → List Char
  | ' ' :: rest => rest
  | text => text

/-- The `>` in front of a quoted line. -/
def quotePrefix : ℕ → List Char
  | 0 => []
  | depth + 1 => List.replicate (depth + 1) '>' ++ [' ']

/-- The line between a message and its signature. -/
def signatureSeparator : List Char := ['-', '-', ' ']

/-- The lines made so far, and the quoting depth of the paragraph still waiting for its next
line. -/
structure Unflowing where
  /-- The lines. -/
  lines : List (List Char)
  /-- The depth of the open paragraph. -/
  openParagraph : Option ℕ
  /-- An open paragraph has its line. -/
  hasLine : openParagraph.isSome → lines ≠ []

namespace Unflowing

/-- Nothing is read yet. -/
def new : Unflowing := ⟨[], none, nofun⟩

/-- The line ends its paragraph: the separator does, and a line that does not end in a space. -/
def endsParagraph (content : List Char) : Bool :=
  content = signatureSeparator || content.getLast? ≠ some ' '

/-- What a line adds to its paragraph; `delsp=yes` says the space of a soft break is not part of
it. -/
def joined (deleteSpace : Bool) (content : List Char) : List Char :=
  if !endsParagraph content && deleteSpace then content.dropLast else content

/-- Read the content of a line of some depth. -/
def add (deleteSpace : Bool) (state : Unflowing) (depth : ℕ) (content : List Char) : Unflowing where
  lines :=
    if h : state.openParagraph = some depth ∧ content ≠ signatureSeparator then
      state.lines.dropLast ++ [state.lines.getLast (state.hasLine (by simp [h.1])) ++
        joined deleteSpace content]
    else state.lines ++ [quotePrefix depth ++ joined deleteSpace content]
  openParagraph := if endsParagraph content then none else some depth
  hasLine _ := by split <;> simp

/-- Read a line. -/
def read (deleteSpace : Bool) (state : Unflowing) (rawLine : List Char) : Unflowing :=
  let line := withoutReturn rawLine
  let depth := (line.takeWhile (· = '>')).length
  state.add deleteSpace depth (withoutStuffing (line.drop depth))

end Unflowing

/-- Join the soft line breaks of a flowed text. -/
def unflowText (text : String) (deleteSpace : Bool) : String :=
  String.ofList (['\n'].intercalate
    ((text.toList.splitOn '\n').foldl (Unflowing.read deleteSpace) .new).lines)

/-! ### What a sender may send -/

/-- A paragraph: a quoting depth and a text of one line that does not end in a space, or the
signature separator. -/
structure Paragraph where
  /-- How deep it is quoted. -/
  depth : ℕ
  /-- Its text. -/
  text : List Char
  /-- It has no line break. -/
  oneLine : '\n' ∉ text
  /-- A CR at its end would belong to a line end. -/
  noReturn : text.getLast? ≠ some '\r'
  /-- It does not end in a space. -/
  fixed : text.getLast? ≠ some ' ' ∨ text = signatureSeparator

/-- A paragraph as a line behind its quote prefix. -/
def Paragraph.shown (paragraph : Paragraph) : List Char :=
  quotePrefix paragraph.depth ++ paragraph.text

/-- The soft line of a fragment, which a space ends: one of its own, or one added for
`delsp=yes`. -/
def softLine (deleteSpace : Bool) (fragment : List Char) : List Char :=
  if deleteSpace then fragment ++ [' '] else fragment

/-- A text cut into fragments, each but the last sent as a soft line that is not the separator. -/
inductive Cut (deleteSpace : Bool) : List Char → List (List Char) → Prop
  /-- The last fragment. -/
  | last {text : List Char} : Cut deleteSpace text [text]
  /-- A fragment before others. -/
  | soft {fragment rest : List Char} {contents : List (List Char)}
      (hspace : (softLine deleteSpace fragment).getLast? = some ' ')
      (hseparator : softLine deleteSpace fragment ≠ signatureSeparator)
      (hrest : Cut deleteSpace rest contents) :
      Cut deleteSpace (fragment ++ rest) (softLine deleteSpace fragment :: contents)

/-- The contents of the lines sent for a paragraph; the separator is sent as it is. -/
def Paragraph.CutInto (deleteSpace : Bool) (paragraph : Paragraph)
    (contents : List (List Char)) : Prop :=
  if paragraph.text = signatureSeparator then contents = [signatureSeparator]
    else Cut deleteSpace paragraph.text contents

/-- A line behind the marks of its depth, with a protecting space where it begins with a space
or a mark, and at will elsewhere. -/
inductive Quoted (depth : ℕ) (content : List Char) : List Char → Prop
  /-- As it is. -/
  | plain (hspace : content.head? ≠ some ' ') (hmark : content.head? ≠ some '>') :
      Quoted depth content (List.replicate depth '>' ++ content)
  /-- With a protecting space. -/
  | stuffed : Quoted depth content (List.replicate depth '>' ++ ' ' :: content)

/-- The lines sent for some paragraphs. -/
inductive Lines (deleteSpace : Bool) : List Paragraph → List (List Char) → Prop
  /-- Nothing. -/
  | nil : Lines deleteSpace [] []
  /-- One paragraph more. -/
  | cons {paragraph : Paragraph} {paragraphs : List Paragraph}
      {contents rawLines rest : List (List Char)} (hcut : paragraph.CutInto deleteSpace contents)
      (hquoted : List.Forall₂ (Quoted paragraph.depth) contents rawLines)
      (hrest : Lines deleteSpace paragraphs rest) :
      Lines deleteSpace (paragraph :: paragraphs) (rawLines ++ rest)

/-- Lines ended by LF or CRLF, the last one ended or not. -/
inductive Sent : List (List Char) → (ended : Bool) → List Char → Prop
  /-- After the last line end. -/
  | nil : Sent [] true []
  /-- A last line without an end. -/
  | last {rawLine : List Char} : Sent [rawLine] false rawLine
  /-- A line ended by LF. -/
  | lf {rawLine text : List Char} {rest : List (List Char)} {ended : Bool}
      (hrest : Sent rest ended text) : Sent (rawLine :: rest) ended (rawLine ++ '\n' :: text)
  /-- A line ended by CRLF. -/
  | crlf {rawLine text : List Char} {rest : List (List Char)} {ended : Bool}
      (hrest : Sent rest ended text) :
      Sent (rawLine :: rest) ended (rawLine ++ '\r' :: '\n' :: text)

/-- A text sent for some paragraphs. -/
def Flowed (deleteSpace : Bool) (paragraphs : List Paragraph) (ended : Bool) (text : String) :
    Prop :=
  ∃ rawLines, Lines deleteSpace paragraphs rawLines ∧ Sent rawLines ended text.toList

/-! ### One line -/

namespace Unflowing

/-- The state holds these lines and this open paragraph. -/
def Holds (state : Unflowing) (lines : List (List Char)) (openParagraph : Option ℕ) : Prop :=
  state.lines = lines ∧ state.openParagraph = openParagraph

variable {deleteSpace : Bool} {state : Unflowing} {depth : ℕ} {content : List Char}
  {lines : List (List Char)}

/-- A line that continues the open paragraph. -/
theorem add_continues (deleteSpace : Bool) {line : List Char}
    (h : state.Holds (lines ++ [line]) (some depth))
    (hcontent : content ≠ signatureSeparator) :
    (state.add deleteSpace depth content).Holds (lines ++ [line ++ joined deleteSpace content])
      (if endsParagraph content then none else some depth) := by
  obtain ⟨hlines, hopen⟩ := h
  refine ⟨(dif_pos ⟨hopen, hcontent⟩).trans ?_, rfl⟩
  simp [hlines]

/-- A line after a closed paragraph. -/
theorem add_begins (deleteSpace : Bool) (depth : ℕ) (content : List Char)
    (h : state.Holds lines none) :
    (state.add deleteSpace depth content).Holds
    (lines ++ [quotePrefix depth ++ joined deleteSpace content])
      (if endsParagraph content then none else some depth) := by
  obtain ⟨hlines, hopen⟩ := h
  refine ⟨(dif_neg fun hcontinues => ?_).trans ?_, rfl⟩
  · exact absurd (hopen.symm.trans hcontinues.1) (by simp)
  · rw [hlines]

theorem endsParagraph_of_fixed (h : content.getLast? ≠ some ' ') :
    endsParagraph content = true := by
  simp [endsParagraph, h]

theorem joined_of_ends (h : endsParagraph content = true) :
    joined deleteSpace content = content := by
  simp [joined, h]

theorem endsParagraph_soft {fragment : List Char}
    (hspace : (softLine deleteSpace fragment).getLast? = some ' ')
    (hseparator : softLine deleteSpace fragment ≠ signatureSeparator) :
    endsParagraph (softLine deleteSpace fragment) = false := by
  simp [endsParagraph, hspace, hseparator]

theorem joined_soft {fragment : List Char}
    (hspace : (softLine deleteSpace fragment).getLast? = some ' ')
    (hseparator : softLine deleteSpace fragment ≠ signatureSeparator) :
    joined deleteSpace (softLine deleteSpace fragment) = fragment := by
  rw [joined, endsParagraph_soft hspace hseparator, softLine]
  cases deleteSpace <;> simp

/-- The rest of a paragraph that is open. -/
theorem foldl_continues {text : List Char} {contents : List (List Char)}
    (hcut : Cut deleteSpace text contents) (hfixed : text.getLast? ≠ some ' ') {state : Unflowing}
    {line : List Char} (h : state.Holds (lines ++ [line]) (some depth)) :
    (contents.foldl (fun state content => state.add deleteSpace depth content) state).Holds
      (lines ++ [line ++ text]) none := by
  induction hcut generalizing state line with
  | @last text =>
    have hends := endsParagraph_of_fixed hfixed
    have hcontent : text ≠ signatureSeparator := by
      rintro rfl
      exact hfixed rfl
    have hadd := add_continues deleteSpace h hcontent
    rwa [joined_of_ends hends, if_pos hends] at hadd
  | @soft fragment rest contents hspace hseparator hrest ih =>
    have hadd := add_continues deleteSpace h hseparator
    rw [joined_soft hspace hseparator, endsParagraph_soft hspace hseparator] at hadd
    rw [List.foldl_cons, ← List.append_assoc]
    refine ih (fun hlast => hfixed ?_) hadd
    rw [List.getLast?_append, hlast]
    rfl

/-- **A paragraph** becomes one line behind its quote prefix. -/
theorem foldl_paragraph {paragraph : Paragraph} {contents : List (List Char)}
    (hcut : paragraph.CutInto deleteSpace contents) (h : state.Holds lines none) :
    (contents.foldl (fun state content => state.add deleteSpace paragraph.depth content)
      state).Holds
      (lines ++ [paragraph.shown]) none := by
  rw [Paragraph.CutInto] at hcut
  split at hcut
  · rename_i hseparator
    subst hcut
    have hends : endsParagraph signatureSeparator = true := rfl
    have hadd := add_begins deleteSpace paragraph.depth signatureSeparator h
    rw [joined_of_ends hends, if_pos hends] at hadd
    rwa [Paragraph.shown, hseparator]
  · rename_i hseparator
    have hfixed := paragraph.fixed.resolve_right hseparator
    generalize htext : paragraph.text = text at hcut hfixed
    cases hcut with
    | last =>
      have hends := endsParagraph_of_fixed hfixed
      have hadd := add_begins deleteSpace paragraph.depth text h
      rw [joined_of_ends hends, if_pos hends] at hadd
      rwa [Paragraph.shown, htext]
    | @soft fragment rest contents hspace hsoft hrest =>
      have hadd := add_begins deleteSpace paragraph.depth (softLine deleteSpace fragment) h
      rw [joined_soft hspace hsoft, endsParagraph_soft hspace hsoft] at hadd
      rw [Paragraph.shown, htext, ← List.append_assoc]
      refine foldl_continues hrest (fun hlast => hfixed ?_) hadd
      rw [List.getLast?_append, hlast]
      rfl

end Unflowing

/-! ### The lines sent -/

/-- A line as it was sent: without a line break, and without a CR at its end. -/
def Whole (text : List Char) : Prop := '\n' ∉ text ∧ text.getLast? ≠ some '\r'

theorem Whole.of_append {text rest : List Char} (h : Whole (text ++ rest)) : Whole rest := by
  refine ⟨fun hmem => h.1 (List.mem_append_right _ hmem), fun hlast => h.2 ?_⟩
  rw [List.getLast?_append, hlast]
  rfl

theorem whole_of_cut {deleteSpace : Bool} {text : List Char} {contents : List (List Char)}
    (hcut : Cut deleteSpace text contents) (h : Whole text) :
    ∀ content ∈ contents, Whole content := by
  induction hcut with
  | last => exact List.forall_mem_singleton.mpr h
  | @soft fragment rest contents hspace _ _ ih =>
    refine List.forall_mem_cons.mpr
      ⟨⟨fun hmem => h.1 (List.mem_append_left _ ?_), by simp [hspace]⟩, ih h.of_append⟩
    rw [softLine] at hmem
    split at hmem
    · exact (List.mem_append.mp hmem).resolve_right (by decide)
    · exact hmem

theorem Paragraph.whole_of_cutInto {deleteSpace : Bool} {paragraph : Paragraph}
    {contents : List (List Char)} (hcut : paragraph.CutInto deleteSpace contents) :
    ∀ content ∈ contents, Whole content := by
  rw [Paragraph.CutInto] at hcut
  split at hcut
  · subst hcut
    exact List.forall_mem_singleton.mpr ⟨by decide, by decide⟩
  · exact whole_of_cut hcut ⟨paragraph.oneLine, paragraph.noReturn⟩

/-- What stands in front of a line neither breaks it nor ends in a CR. -/
theorem whole_of_quoted {depth : ℕ} {content rawLine : List Char}
    (hquoted : Quoted depth content rawLine) (h : Whole content) : Whole rawLine := by
  have hfront : ∀ front : List Char, (∀ c ∈ front, c = '>' ∨ c = ' ') →
      Whole (front ++ content) := by
    intro front hfront
    refine ⟨fun hmem => ?_, fun hlast => ?_⟩
    · rcases List.mem_append.mp hmem with hmem | hmem
      · rcases hfront _ hmem with hc | hc <;> exact absurd hc (by decide)
      · exact h.1 hmem
    · rw [List.getLast?_append, Option.or_eq_some_iff] at hlast
      rcases hlast with hlast | ⟨-, hlast⟩
      · exact h.2 hlast
      · rcases hfront _ (List.mem_of_getLast? hlast) with hc | hc <;> exact absurd hc (by decide)
  cases hquoted with
  | plain => exact hfront _ fun c hc => .inl (List.eq_of_mem_replicate hc)
  | stuffed =>
    have hstuffed := hfront (List.replicate depth '>' ++ [' ']) fun c hc =>
      (List.mem_append.mp hc).imp List.eq_of_mem_replicate List.mem_singleton.mp
    rwa [List.append_assoc, List.singleton_append] at hstuffed

theorem withoutReturn_whole {rawLine : List Char} (h : Whole rawLine) :
    withoutReturn rawLine = rawLine ∧ withoutReturn (rawLine ++ ['\r']) = rawLine := by
  constructor
  · rw [withoutReturn, if_neg h.2]
  · rw [withoutReturn, if_pos (by simp), List.dropLast_concat]

theorem takeWhile_marks (depth : ℕ) {rest : List Char} (h : rest.head? ≠ some '>') :
    (List.replicate depth '>' ++ rest).takeWhile (· = '>') = List.replicate depth '>' := by
  have hrest : rest.takeWhile (· = '>') = [] := by
    cases rest with
    | nil => rfl
    | cons c rest => exact List.takeWhile_cons_of_neg (by simpa using h)
  rw [List.takeWhile_append_of_pos (fun c hc => by simpa using List.eq_of_mem_replicate hc), hrest,
    List.append_nil]

theorem Unflowing.read_of_line {deleteSpace : Bool} {state : Unflowing} {depth : ℕ}
    {content rawLine : List Char} (hquoted : Quoted depth content (withoutReturn rawLine)) :
    state.read deleteSpace rawLine = state.add deleteSpace depth content := by
  generalize hline : withoutReturn rawLine = line at hquoted
  have hread : ∀ rest : List Char, line = List.replicate depth '>' ++ rest → rest.head? ≠ some '>' →
    withoutStuffing rest = content →
      state.read deleteSpace rawLine = state.add deleteSpace depth content := by
    intro rest hmarks hhead hcontent
    have hdepth : (line.takeWhile (· = '>')).length = depth := by
      rw [hmarks, takeWhile_marks depth hhead, List.length_replicate]
    have hdrop : line.drop depth = rest := by
      rw [hmarks]
      exact List.drop_left' List.length_replicate
    simp only [Unflowing.read, hline, hdepth, hdrop, hcontent]
  cases hquoted with
  | plain hspace hmark =>
    refine hread content rfl hmark ?_
    cases content with
    | nil => rfl
    | cons c content =>
      have hc : c ≠ ' ' := fun hc => hspace (congrArg some hc)
      exact withoutStuffing.eq_2 _ fun rest he => hc (List.cons.inj he).1
  | stuffed => exact hread (' ' :: content) rfl (by simp) rfl

/-! ### A text -/

/-- The text between line ends. -/
theorem splitOn_sent {rawLines : List (List Char)} {ended : Bool} {text : List Char}
    (h : Sent rawLines ended text) (hwhole : ∀ rawLine ∈ rawLines, Whole rawLine) :
    (text.splitOn '\n').map withoutReturn = rawLines ++ if ended then [[]] else [] := by
  -- a line up to a line end, with or without CR
  have hsplit : ∀ {line text : List Char}, '\n' ∉ line →
      (line ++ '\n' :: text).splitOn '\n' = line :: text.splitOn '\n' := by
    intro line text hline
    rw [List.splitOn_eq_splitOnP, List.splitOn_eq_splitOnP]
    exact List.splitOnP_append_cons_of_forall_mem
      (fun c hc => beq_false_of_ne fun (he : c = '\n') => hline (he ▸ hc)) '\n' rfl text
  induction h with
  | nil => rfl
  | @last rawLine =>
    have hline := hwhole rawLine List.mem_cons_self
    rw [List.splitOn_eq_splitOnP,
      List.splitOnP_eq_singleton fun c hc => beq_false_of_ne fun (he : c = '\n') =>
        hline.1 (he ▸ hc)]
    exact congrArg (· :: []) (withoutReturn_whole hline).1
  | @lf rawLine text rest ended hrest ih =>
    obtain ⟨hline, hwhole⟩ := List.forall_mem_cons.mp hwhole
    rw [hsplit hline.1, List.map_cons, ih hwhole, (withoutReturn_whole hline).1, List.cons_append]
  | @crlf rawLine text rest ended hrest ih =>
    obtain ⟨hline, hwhole⟩ := List.forall_mem_cons.mp hwhole
    have hreturn : '\n' ∉ rawLine ++ ['\r'] := fun hmem => by
      rcases List.mem_append.mp hmem with hmem | hmem
      · exact hline.1 hmem
      · exact absurd hmem (by decide)
    have hcrlf : rawLine ++ '\r' :: '\n' :: text = (rawLine ++ ['\r']) ++ '\n' :: text := by simp
    rw [hcrlf, hsplit hreturn, List.map_cons, ih hwhole, (withoutReturn_whole hline).2,
      List.cons_append]

namespace Unflowing

variable {deleteSpace : Bool}

/-- The lines of a paragraph are read as their contents. -/
theorem foldl_quoted {depth : ℕ} {contents rawLines : List (List Char)} {state : Unflowing}
    (hquoted : List.Forall₂ (Quoted depth) contents (rawLines.map withoutReturn)) :
    rawLines.foldl (read deleteSpace) state = contents.foldl
      (fun state content => state.add deleteSpace depth content) state := by
  induction rawLines generalizing contents state with
  | nil =>
    cases hquoted
    rfl
  | cons rawLine rawLines ih =>
    cases hquoted with
    | cons hline hrest => rw [List.foldl_cons, List.foldl_cons, read_of_line hline, ih hrest]

/-- **The lines of paragraphs** become one line each. -/
theorem foldl_lines {paragraphs : List Paragraph} {lines : List (List Char)}
    (h : Lines deleteSpace paragraphs lines) {rawLines : List (List Char)}
    (hraw : rawLines.map withoutReturn = lines) {state : Unflowing} {made : List (List Char)}
    (hstate : state.Holds made none) :
    (rawLines.foldl (read deleteSpace) state).Holds (made ++ paragraphs.map Paragraph.shown)
      none := by
  induction h generalizing rawLines state made with
  | nil =>
    rw [List.map_eq_nil_iff] at hraw
    subst hraw
    rwa [List.map_nil, List.append_nil]
  | @cons paragraph paragraphs contents lines rest hcut hquoted hrest ih =>
    obtain ⟨rawLines, rawRest, rfl, hlines, hraw⟩ := List.map_eq_append_iff.mp hraw
    have hread : rawLines.foldl (read deleteSpace) state = _ := foldl_quoted (hlines ▸ hquoted)
    have hrestHolds := ih hraw (foldl_paragraph hcut hstate)
    rw [List.foldl_append, hread]
    rwa [List.append_assoc] at hrestHolds

end Unflowing

theorem whole_of_forall₂ {depth : ℕ} {contents lines : List (List Char)}
    (hquoted : List.Forall₂ (Quoted depth) contents lines)
    (h : ∀ content ∈ contents, Whole content) : ∀ line ∈ lines, Whole line := by
  induction hquoted with
  | nil => exact fun line hline => absurd hline List.not_mem_nil
  | cons hline hrest ih =>
    obtain ⟨hcontent, hcontents⟩ := List.forall_mem_cons.mp h
    exact List.forall_mem_cons.mpr ⟨whole_of_quoted hline hcontent, ih hcontents⟩

theorem Lines.whole {deleteSpace : Bool} {paragraphs : List Paragraph} {lines : List (List Char)}
    (h : Lines deleteSpace paragraphs lines) : ∀ line ∈ lines, Whole line := by
  induction h with
  | nil => exact fun line hline => absurd hline List.not_mem_nil
  | @cons paragraph paragraphs contents lines rest hcut hquoted hrest ih =>
    intro line hline
    rcases List.mem_append.mp hline with hline | hline
    · exact whole_of_forall₂ hquoted (Paragraph.whole_of_cutInto hcut) line hline
    · exact ih line hline

/-- **Unflowing undoes `format=flowed`**: of a text sent for some paragraphs it makes the
paragraphs, one a line, each behind its quote prefix; a text whose last line was ended keeps
that end. -/
theorem unflowText_flowed (deleteSpace : Bool) (paragraphs : List Paragraph) (ended : Bool)
    (text : String) (h : Flowed deleteSpace paragraphs ended text) :
    unflowText text deleteSpace =
      String.ofList (['\n'].intercalate (paragraphs.map Paragraph.shown ++ if ended then [[]]
        else [])) := by
  obtain ⟨lines, hlines, hsent⟩ := h
  have hsplit := splitOn_sent hsent hlines.whole
  obtain ⟨rawLines, rawLast, hraw, hrawLines, hrawLast⟩ := List.map_eq_append_iff.mp hsplit
  have hnew : Unflowing.new.Holds [] none := ⟨rfl, rfl⟩
  have hholds : (rawLines.foldl (Unflowing.read deleteSpace) .new).Holds _ none :=
    Unflowing.foldl_lines hlines hrawLines hnew
  rw [List.nil_append] at hholds
  rw [unflowText, hraw, List.foldl_append]
  refine congrArg (fun lines => String.ofList (['\n'].intercalate lines)) ?_
  cases ended with
  | false =>
    rw [if_neg (by decide), List.map_eq_nil_iff] at hrawLast
    rw [hrawLast, if_neg (by decide), List.append_nil]
    exact hholds.1
  | true =>
    -- after the last line end there is one more, empty line
    rw [if_pos rfl, List.map_eq_singleton_iff] at hrawLast
    obtain ⟨rawLine, rfl, hempty⟩ := hrawLast
    have hquoted : Quoted 0 [] (withoutReturn rawLine) := by
      rw [hempty]
      exact .plain (by decide) (by decide)
    rw [List.foldl_cons, List.foldl_nil, Unflowing.read_of_line hquoted]
    exact (Unflowing.add_begins deleteSpace 0 [] hholds).1

/-- A quoted paragraph in two lines, the separator, and a line that begins with a mark. -/
def quotedParagraphs : List Paragraph :=
  [⟨1, "Hello world".toList, by decide, by decide, .inl (by decide)⟩,
    ⟨0, signatureSeparator, by decide, by decide, .inr rfl⟩,
    ⟨0, ">x".toList, by decide, by decide, .inl (by decide)⟩]

theorem flowed_quoted : Flowed false quotedParagraphs true ">Hello \r\n> world\n-- \n >x\n" := by
  have hcut : Cut false ("Hello ".toList ++ "world".toList)
      [softLine false "Hello ".toList, "world".toList] :=
    .soft (by decide) (by decide) .last
  have hfirst : List.Forall₂ (Quoted 1) ["Hello ".toList, "world".toList]
      [">Hello ".toList, "> world".toList] :=
    .cons (.plain (by decide) (by decide)) (.cons .stuffed .nil)
  have hsecond : List.Forall₂ (Quoted 0) [signatureSeparator] ["-- ".toList] :=
    .cons (.plain (by decide) (by decide)) .nil
  have hthird : List.Forall₂ (Quoted 0) [">x".toList] [" >x".toList] := .cons .stuffed .nil
  exact ⟨_, .cons hcut hfirst (.cons rfl hsecond (.cons .last hthird .nil)),
    .crlf (.lf (.lf (.lf .nil)))⟩

/-- The quoted paragraph is whole again, and the separator stays a line of its own. -/
theorem unflowText_flowed_quoted : unflowText ">Hello \r\n> world\n-- \n >x\n" false =
    "> Hello world\n-- \n>x\n" :=
  (unflowText_flowed false quotedParagraphs true _ flowed_quoted).trans (by decide)

end Mailbag.Content
