import Mathlib.Algebra.GroupWithZero.Nat
import Mathlib.Data.List.Basic

/-!
# Slices of a text by byte positions

A text in UTF-8 whose places are counted in bytes. A slice panics when an end of it falls
inside a character or outside the text.

## What is proved

`findByte_append`, `sliceFrom_append`, `sliceTo_append` and `slice_append` — the place found is
where the text before the character ends, and slices at such places are the parts around them.
-/

namespace Mailbag.Collections

/-- Why a slice panics. -/
inductive Panic where
  /-- An end of it falls inside a character or outside the text. -/
  | notABoundary
  deriving DecidableEq

/-- How many bytes the text has. -/
def byteLength (text : List Char) : ℕ := (text.map Char.utf8Size).sum

/-- `str::find`: the byte position of the first such character. -/
def findByte (character : Char) : List Char → Option ℕ
  | [] => none
  | first :: text =>
    if first = character then some 0 else (findByte character text).map (first.utf8Size + ·)

/-- `&text[position..]`. -/
def sliceFrom : List Char → ℕ → Except Panic (List Char)
  | text, 0 => .ok text
  | [], _ + 1 => .error .notABoundary
  | first :: text, position + 1 =>
    if first.utf8Size ≤ position + 1 then sliceFrom text (position + 1 - first.utf8Size)
      else .error .notABoundary

/-- `&text[..position]`. -/
def sliceTo : List Char → ℕ → Except Panic (List Char)
  | _, 0 => .ok []
  | [], _ + 1 => .error .notABoundary
  | first :: text, position + 1 =>
    if first.utf8Size ≤ position + 1 then
      (sliceTo text (position + 1 - first.utf8Size)).map (first :: ·)
    else .error .notABoundary

/-- `&text[start..stop]`. -/
def slice (text : List Char) (start stop : ℕ) : Except Panic (List Char) :=
  if start ≤ stop then (sliceFrom text start).bind fun rest => sliceTo rest (stop - start)
    else .error .notABoundary

@[simp] theorem byteLength_nil : byteLength [] = 0 := rfl

@[simp] theorem byteLength_cons (first : Char) (text : List Char) :
    byteLength (first :: text) = first.utf8Size + byteLength text := rfl

theorem byteLength_append (front text : List Char) :
    byteLength (front ++ text) = byteLength front + byteLength text := by
  simp [byteLength]

theorem findByte_eq_none {character : Char} {text : List Char} (h : character ∉ text) :
    findByte character text = none := by
  induction text with
  | nil => rfl
  | cons first text ih =>
    rw [List.mem_cons, not_or] at h
    rw [findByte, if_neg fun he => h.1 he.symm, ih h.2, Option.map_none]

/-- **The place found** is where the text before the character ends. -/
theorem findByte_append {character : Char} {front : List Char} (h : character ∉ front)
    (rest : List Char) :
    findByte character (front ++ character :: rest) = some (byteLength front) := by
  induction front with
  | nil => exact if_pos rfl
  | cons first front ih =>
    rw [List.mem_cons, not_or] at h
    rw [List.cons_append, findByte, if_neg fun he => h.1 he.symm, ih h.2, Option.map_some,
      byteLength_cons]

/-- What comes after a first part. -/
theorem sliceFrom_append (front rest : List Char) :
    sliceFrom (front ++ rest) (byteLength front) = .ok rest := by
  induction front with
  | nil => cases rest <;> rfl
  | cons first front ih =>
    have hpos := first.utf8Size_pos
    obtain ⟨n, hn⟩ : ∃ n, byteLength (first :: front) = n + 1 :=
      ⟨byteLength (first :: front) - 1, by rw [byteLength_cons]; omega⟩
    rw [hn, List.cons_append, sliceFrom, ← hn, byteLength_cons, if_pos (Nat.le_add_right _ _),
      Nat.add_sub_cancel_left, ih]

/-- A first part. -/
theorem sliceTo_append (front rest : List Char) :
    sliceTo (front ++ rest) (byteLength front) = .ok front := by
  induction front with
  | nil => cases rest <;> rfl
  | cons first front ih =>
    have hpos := first.utf8Size_pos
    obtain ⟨n, hn⟩ : ∃ n, byteLength (first :: front) = n + 1 :=
      ⟨byteLength (first :: front) - 1, by rw [byteLength_cons]; omega⟩
    rw [hn, List.cons_append, sliceTo, ← hn, byteLength_cons, if_pos (Nat.le_add_right _ _),
      Nat.add_sub_cancel_left, ih]
    rfl

/-- A part in the middle. -/
theorem slice_append (front middle rest : List Char) :
    slice (front ++ (middle ++ rest)) (byteLength front) (byteLength front + byteLength middle) =
      .ok middle := by
  rw [slice, if_pos (Nat.le_add_right _ _), sliceFrom_append, Nat.add_sub_cancel_left]
  exact sliceTo_append middle rest

theorem length_of_sliceFrom {text rest : List Char} {position : ℕ} (hpos : 0 < position)
    (h : sliceFrom text position = .ok rest) : rest.length < text.length := by
  induction text generalizing position with
  | nil =>
    obtain ⟨n, rfl⟩ := Nat.exists_eq_add_one_of_ne_zero (Nat.pos_iff_ne_zero.mp hpos)
    cases h
  | cons first text ih =>
    obtain ⟨n, rfl⟩ := Nat.exists_eq_add_one_of_ne_zero (Nat.pos_iff_ne_zero.mp hpos)
    rw [sliceFrom] at h
    split at h
    · by_cases hrest : 0 < n + 1 - first.utf8Size
      · exact Nat.lt_trans (ih hrest h) (Nat.lt_succ_self _)
      · rw [Nat.eq_zero_of_not_pos hrest] at h
        have hsame : rest = text := by cases text <;> exact (Except.ok.inj h).symm
        rw [hsame]
        exact Nat.lt_succ_self _
    · cases h

end Mailbag.Collections
