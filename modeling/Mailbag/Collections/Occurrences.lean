import Mailbag.Collections.Slices

/-!
# The occurrences of a pattern in a text

A text is searched from its beginning, and after a match from the match's end on. The places
found cut the text into pieces that hold no match.

## What is proved

* `Cuts.text_eq`, `Cuts.not_occurs` — the pieces and the matches are the text, and no piece holds a
  match.
* `matchPositions_cases` — a search finds the leftmost match and goes on behind it, or finds none.
-/

namespace Mailbag.Collections

section Cuts

variable {α : Type} {IsMatch : List α → Prop}

/-- A match is somewhere in the text. -/
def Occurs (IsMatch : List α → Prop) (text : List α) : Prop :=
  ∃ front found rest, text = front ++ (found ++ rest) ∧ IsMatch found

/-- No match begins within the piece, in a text that goes on like that. -/
def NoneBegins (IsMatch : List α → Prop) (piece rest : List α) : Prop :=
  ∀ front tail found after, piece = front ++ tail → tail ≠ [] → tail ++ rest = found ++ after →
    ¬ IsMatch found

/-- The text cut at the leftmost matches, each searched for behind the one before: the pieces, each
with the match after it, and the last piece. -/
inductive Cuts (IsMatch : List α → Prop) : List α → List (List α × List α) → List α → Prop where
  /-- No match is left. -/
  | last {text : List α} (hnone : ¬ Occurs IsMatch text) : Cuts IsMatch text [] text
  /-- The leftmost match. -/
  | cut {piece found rest last : List α} {cuts : List (List α × List α)} (hfound : IsMatch found)
    (hleftmost : NoneBegins IsMatch piece (found ++ rest)) (hrest : Cuts IsMatch rest cuts last) :
    Cuts IsMatch (piece ++ (found ++ rest)) ((piece, found) :: cuts) last

/-- The pieces, with something after each but the last. -/
def joinPieces (between : List α) (cuts : List (List α × List α)) (last : List α) : List α :=
  (cuts.flatMap fun cut => cut.1 ++ between) ++ last

@[simp] theorem joinPieces_nil (between last : List α) : joinPieces between [] last = last := rfl

@[simp] theorem joinPieces_cons (between last : List α) (cut : List α × List α)
    (cuts : List (List α × List α)) :
    joinPieces between (cut :: cuts) last = cut.1 ++ between ++ joinPieces between cuts last := by
  simp [joinPieces]

variable {text last : List α} {cuts : List (List α × List α)}

/-- **The pieces and the matches** are the text. -/
theorem Cuts.text_eq (h : Cuts IsMatch text cuts last) :
    text = (cuts.flatMap fun cut => cut.1 ++ cut.2) ++ last := by
  induction h with
  | last => rfl
  | cut _ _ _ ih => simp [ih]

/-- A piece within which no match begins holds none, unless a match may be empty. -/
theorem NoneBegins.not_occurs {piece rest : List α} (h : NoneBegins IsMatch piece rest)
    (hne : ∀ found, IsMatch found → found ≠ []) : ¬ Occurs IsMatch piece := by
  intro hoccurs
  obtain ⟨front, found, after, heq, hfound⟩ := hoccurs
  refine h front (found ++ after) found (after ++ rest) heq ?_ (by simp) hfound
  intro hnil
  exact hne found hfound (List.append_eq_nil_iff.mp hnil).1

/-- **No piece holds a match.** -/
theorem Cuts.not_occurs (h : Cuts IsMatch text cuts last)
    (hne : ∀ found, IsMatch found → found ≠ []) :
    (∀ cut ∈ cuts, ¬ Occurs IsMatch cut.1) ∧ ¬ Occurs IsMatch last := by
  induction h with
  | last hnone => exact ⟨fun cut hcut => absurd hcut List.not_mem_nil, hnone⟩
  | cut _ hleftmost _ ih => exact ⟨List.forall_mem_cons.mpr ⟨hleftmost.not_occurs hne, ih.1⟩, ih.2⟩

theorem Cuts.eq_of_not_occurs (h : Cuts IsMatch text cuts last)
    (hnone : ¬ Occurs IsMatch text) : cuts = [] ∧ last = text := by
  cases h with
  | last => exact ⟨rfl, rfl⟩
  | cut hfound _ _ => exact absurd ⟨_, _, _, rfl, hfound⟩ hnone

end Cuts

/-! ### A search by byte positions -/

/-- The byte positions of the pattern's matches, where `skip` more characters are behind the last
match's beginning; an empty pattern matches at every character's place and at the end. -/
def matchPositions (pattern : List Char) : ℕ → ℕ → List Char → List ℕ
  | _, position, [] => if pattern = [] then [position] else []
  | skip + 1, position, first :: text =>
    matchPositions pattern skip (position + first.utf8Size) text
  | 0, position, first :: text =>
    if pattern <+: first :: text then
      position :: matchPositions pattern (pattern.length - 1) (position + first.utf8Size) text
    else matchPositions pattern 0 (position + first.utf8Size) text

/-- `str::match_indices`: the byte positions of the leftmost matches, each searched for behind the
one before. -/
def matchIndices (pattern text : List Char) : List ℕ := matchPositions pattern 0 0 text

variable {pattern : List Char}

theorem matchPositions_skip (front rest : List Char) (position : ℕ) :
    matchPositions pattern front.length position (front ++ rest) = matchPositions pattern 0
      (position + byteLength front) rest := by
  induction front generalizing position with
  | nil => rfl
  | cons first front ih =>
    rw [List.length_cons, List.cons_append, matchPositions, ih, byteLength_cons, Nat.add_assoc]

theorem matchPositions_of_match (hne : pattern ≠ []) (rest : List Char) (position : ℕ) :
    matchPositions pattern 0 position (pattern ++ rest) =
      position :: matchPositions pattern 0 (position + byteLength pattern) rest := by
  cases pattern with
  | nil => exact absurd rfl hne
  | cons first pattern =>
    have hprefix : first :: pattern <+: first :: (pattern ++ rest) := ⟨rest, rfl⟩
    rw [List.cons_append, matchPositions, if_pos hprefix, List.length_cons, Nat.add_sub_cancel,
      matchPositions_skip, byteLength_cons, Nat.add_assoc]

/-- **A search** finds the leftmost match and goes on behind it, or finds none. -/
theorem matchPositions_cases (hne : pattern ≠ []) (text : List Char) (position : ℕ) :
    (matchPositions pattern 0 position text = [] ∧ ¬ pattern <:+: text) ∨
      ∃ piece rest, text = piece ++ (pattern ++ rest) ∧
        (∀ front tail, piece = front ++ tail → tail ≠ [] → ¬ pattern <+: tail ++
          (pattern ++ rest)) ∧
        matchPositions pattern 0 position text = (position + byteLength piece) ::
          matchPositions pattern 0 (position + byteLength piece + byteLength pattern) rest := by
  induction text generalizing position with
  | nil =>
    left
    refine ⟨if_neg hne, fun hinfix => hne (List.infix_nil.mp hinfix)⟩
  | cons first text ih =>
    by_cases hprefix : pattern <+: first :: text
    · right
      obtain ⟨rest, heq⟩ := hprefix
      refine ⟨[], rest, heq.symm, fun front tail hnil htail => ?_, ?_⟩
      · exact absurd (List.append_eq_nil_iff.mp hnil.symm).2 htail
      · rw [← heq, matchPositions_of_match hne]
        rfl
    · have hskip : matchPositions pattern 0 position (first :: text) = matchPositions pattern 0
          (position + first.utf8Size) text := by
        rw [matchPositions, if_neg hprefix]
      rcases ih (position + first.utf8Size) with ⟨hnone, hnot⟩ | ⟨piece, rest, rfl,
        hleftmost, hfound⟩
      · left
        refine ⟨hskip.trans hnone, fun hinfix => ?_⟩
        rcases List.infix_cons_iff.mp hinfix with h | h
        · exact hprefix h
        · exact hnot h
      · right
        refine ⟨first :: piece, rest, rfl, fun front tail heq htail => ?_, ?_⟩
        · cases front with
          | nil =>
            have hwhole : tail = first :: piece := heq.symm
            rw [hwhole]
            exact hprefix
          | cons _ front => exact hleftmost front tail (List.cons.inj heq).2 htail
        · rw [hskip, hfound, byteLength_cons, ← Nat.add_assoc]

end Mailbag.Collections
