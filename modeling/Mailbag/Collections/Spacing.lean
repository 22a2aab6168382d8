import Mathlib.Data.List.Chain
import Mathlib.Data.List.DropRight

/-!
# Single spaces

Runs of blanks between other elements become one space each, and blanks at the ends go. What
is made so is cut to a length, and a space the cut left at the end goes too.

## What is proved

* `spaced_singleSpaced` — only single spaces between others are left.
* `spaced_of_singleSpaced` — where only these are, nothing changes.
* `spaced_append`, `cutTo_mono` — a beginning becomes a beginning, cut or not.
-/

namespace Mailbag.Collections

variable {α : Type}

/-- The elements with one space for each run of blanks between them. `begun` says that
something stands before, and `pending` that blanks do since then. -/
def spaced (blank : α → Bool) (space : α) : Bool → Bool → List α → List α
  | _, _, [] => []
  | begun, pending, x :: xs =>
    if blank x then spaced blank space begun begun xs
    else (if pending then [space] else []) ++ x :: spaced blank space true false xs

/-- No blanks but single spaces between others. -/
structure SingleSpaced (blank : α → Bool) (space : α) (xs : List α) : Prop where
  /-- The only blank is the space. -/
  spaces : ∀ x ∈ xs, blank x → x = space
  /-- No two stand together. -/
  apart : xs.IsChain fun x y => ¬(blank x ∧ blank y)
  /-- None stands at the beginning. -/
  head : ∀ x ∈ xs.head?, ¬blank x
  /-- None stands at the end. -/
  last : ∀ x ∈ xs.getLast?, ¬blank x

variable {blank : α → Bool} {space : α}

/-! ### Spacing -/

theorem spaced_cons_of_not {x : α} (hx : ¬blank x) (begun pending : Bool) (xs : List α) :
    spaced blank space begun pending (x :: xs) =
      (if pending then [space] else []) ++ x :: spaced blank space true false xs := by
  rw [spaced, if_neg hx]

theorem spaced_cons_of_blank {x : α} (hx : blank x) (begun pending : Bool) (xs : List α) :
    spaced blank space begun pending (x :: xs) = spaced blank space begun begun xs := by
  rw [spaced, if_pos hx]

/-- **A beginning of the elements** becomes a beginning. -/
theorem spaced_append (begun pending : Bool) (xs ys : List α) :
    spaced blank space begun pending xs <+: spaced blank space begun pending (xs ++ ys) := by
  induction xs generalizing begun pending with
  | nil =>
    rw [spaced]
    exact List.nil_prefix
  | cons x xs ih =>
    rw [List.cons_append]
    by_cases hx : blank x
    · rw [spaced_cons_of_blank hx, spaced_cons_of_blank hx]
      exact ih _ _
    · rw [spaced_cons_of_not hx, spaced_cons_of_not hx]
      exact (List.prefix_append_right_inj _).mpr ((List.cons_prefix_cons).mpr ⟨rfl, ih _ _⟩)

theorem mem_spaced {begun pending : Bool} {xs : List α} {x : α}
    (hx : x ∈ spaced blank space begun pending xs) : x = space ∨ x ∈ xs ∧ ¬blank x := by
  induction xs generalizing begun pending with
  | nil => simp [spaced] at hx
  | cons y xs ih =>
    by_cases hy : blank y
    · rw [spaced_cons_of_blank hy] at hx
      exact (ih hx).imp_right fun h => ⟨List.mem_cons_of_mem _ h.1, h.2⟩
    · rw [spaced_cons_of_not hy] at hx
      rcases List.mem_append.mp hx with hx | hx
      · cases pending <;> simp at hx
        exact .inl hx
      · rcases List.mem_cons.mp hx with rfl | hx
        · exact .inr ⟨List.mem_cons_self, hy⟩
        · exact (ih hx).imp_right fun h => ⟨List.mem_cons_of_mem _ h.1, h.2⟩

theorem spaced_apart (begun pending : Bool) (xs : List α) :
    (spaced blank space begun pending xs).IsChain fun x y => ¬(blank x ∧ blank y) := by
  induction xs generalizing begun pending with
  | nil => exact .nil
  | cons x xs ih =>
    by_cases hx : blank x
    · rw [spaced_cons_of_blank hx]
      exact ih _ _
    · have hrest : (x :: spaced blank space true false xs).IsChain fun x y =>
          ¬(blank x ∧ blank y) :=
        List.isChain_cons.mpr ⟨fun _ _ h => hx h.1, ih _ _⟩
      rw [spaced_cons_of_not hx]
      cases pending with
      | false => exact hrest
      | true => exact List.isChain_cons_cons.mpr ⟨fun h => hx h.2, hrest⟩

theorem spaced_head (xs : List α) : ∀ x ∈ (spaced blank space false false xs).head?, ¬blank x := by
  induction xs with
  | nil => simp [spaced]
  | cons x xs ih =>
    by_cases hx : blank x
    · rw [spaced_cons_of_blank hx]
      exact ih
    · rw [spaced_cons_of_not hx]
      simpa using hx

theorem spaced_last (begun pending : Bool) (xs : List α) :
    ∀ x ∈ (spaced blank space begun pending xs).getLast?, ¬blank x := by
  induction xs generalizing begun pending with
  | nil => simp [spaced]
  | cons x xs ih =>
    by_cases hx : blank x
    · rw [spaced_cons_of_blank hx]
      exact ih _ _
    · intro y hy
      rw [spaced_cons_of_not hx, List.getLast?_append_of_ne_nil _ (List.cons_ne_nil _ _),
        List.getLast?_cons] at hy
      rcases hlast : (spaced blank space true false xs).getLast? with _ | z
      · rw [hlast] at hy
        cases hy
        exact hx
      · rw [hlast] at hy
        cases hy
        exact ih _ _ _ hlast

/-- **Only single spaces** between others are left. -/
theorem spaced_singleSpaced (xs : List α) :
    SingleSpaced blank space (spaced blank space false false xs) where
  spaces _ hx hblank := (mem_spaced hx).resolve_right fun h => h.2 hblank
  apart := spaced_apart _ _ _
  head := spaced_head _
  last := spaced_last _ _ _

/-- Where only single spaces are, they stay, after something or at the beginning. -/
theorem spaced_of_apart {xs : List α} (hspaces : ∀ x ∈ xs, blank x → x = space)
    (hapart : xs.IsChain fun x y => ¬(blank x ∧ blank y)) (hlast : ∀ x ∈ xs.getLast?, ¬blank x) :
    spaced blank space true false xs = xs := by
  induction xs with
  | nil => rw [spaced]
  | cons x xs ih =>
    obtain ⟨hbeside, hrest⟩ := List.isChain_cons.mp hapart
    have hlast' : ∀ y ∈ xs.getLast?, ¬blank y :=
      fun y hy => hlast y (by simp [List.getLast?_cons, Option.mem_def.mp hy])
    have ih := ih (fun y hy => hspaces y (List.mem_cons_of_mem _ hy)) hrest hlast'
    by_cases hx : blank x
    · cases xs with
      | nil => exact absurd hx (hlast x rfl)
      | cons y xs =>
        -- the space is written when the next element is
        have hy : ¬blank y := fun hy => hbeside y rfl ⟨hx, hy⟩
        rw [spaced_cons_of_not hy] at ih
        rw [spaced_cons_of_blank hx, spaced_cons_of_not hy, hspaces x List.mem_cons_self hx]
        exact congrArg (space :: ·) ih
    · rw [spaced_cons_of_not hx, ih]
      rfl

/-- **Where only single spaces are**, nothing changes. -/
theorem spaced_of_singleSpaced {xs : List α} (h : SingleSpaced blank space xs) :
    spaced blank space false false xs = xs := by
  have hsame := spaced_of_apart h.spaces h.apart h.last
  cases xs with
  | nil => rw [spaced]
  | cons x xs =>
    rw [spaced_cons_of_not (h.head x rfl)] at hsame ⊢
    exact hsame

/-! ### A cut -/

/-- The first elements, without the blanks at their end. -/
def cutTo (trim : α → Bool) (limit : ℕ) (xs : List α) : List α := (xs.take limit).rdropWhile trim

variable {trim : α → Bool} {limit : ℕ}

theorem cutTo_isPrefix (xs : List α) : cutTo trim limit xs <+: xs := by
  have hdrop : cutTo trim limit xs <+: xs.take limit := List.rdropWhile_prefix _ _
  exact hdrop.trans <| List.take_prefix _ _

theorem length_cutTo_le (xs : List α) : (cutTo trim limit xs).length ≤ limit := by
  have hdrop : cutTo trim limit xs <+: xs.take limit := List.rdropWhile_prefix _ _
  exact hdrop.length_le.trans (List.length_take_le _ _)

/-- A list that ends in what is kept stays a beginning when blanks are dropped at the end. -/
theorem prefix_rdropWhile {xs ys : List α} (h : xs <+: ys) (hlast : ∀ x ∈ xs.getLast?, ¬trim x) :
    xs <+: ys.rdropWhile trim := by
  obtain ⟨zs, rfl⟩ := h
  induction zs using List.reverseRecOn with
  | nil =>
    have hsame : xs.rdropWhile trim = xs :=
      List.rdropWhile_eq_self_iff.mpr fun hne => hlast _ (List.getLast?_eq_some_getLast hne)
    exact ⟨[], by rw [List.append_nil, hsame]⟩
  | append_singleton zs z ih =>
    rw [← List.append_assoc, List.rdropWhile_concat]
    split
    · exact ih
    · rw [List.append_assoc]
      exact List.prefix_append _ _

theorem cutTo_last (xs : List α) : ∀ x ∈ (cutTo trim limit xs).getLast?, ¬trim x := by
  intro x hx
  rw [cutTo] at hx
  obtain ⟨hne, rfl⟩ := List.mem_getLast?_eq_getLast hx
  exact List.rdropWhile_last_not _ _ hne

/-- **A cut of a beginning** is a beginning of the cut. -/
theorem cutTo_mono {xs ys : List α} (h : xs <+: ys) :
    cutTo trim limit xs <+: cutTo trim limit ys := by
  have hstart : xs.take limit <+: xs := List.take_prefix _ _
  have htake : xs.take limit <+: ys.take limit :=
    List.prefix_take_iff.mpr ⟨hstart.trans h, List.length_take_le _ _⟩
  have hdrop : cutTo trim limit xs <+: xs.take limit := List.rdropWhile_prefix _ _
  exact prefix_rdropWhile (hdrop.trans htake) (cutTo_last xs)

/-- **A cut of what is single-spaced** is single-spaced, when the space is dropped at the end and
nothing but blanks is. -/
theorem SingleSpaced.cut {xs : List α} (h : SingleSpaced blank space xs) (hspace : trim space) :
    SingleSpaced blank space (cutTo trim limit xs) where
  spaces x hx := h.spaces x ((cutTo_isPrefix xs).subset hx)
  apart := h.apart.prefix (cutTo_isPrefix xs)
  head x hx := by
    have hprefix : cutTo trim limit xs <+: xs := cutTo_isPrefix xs
    obtain ⟨zs, hzs⟩ := hprefix
    refine h.head x ?_
    rw [← hzs, List.head?_append, Option.mem_def.mp hx]
    rfl
  last x hx hblank := by
    have hx' := h.spaces x ((cutTo_isPrefix xs).subset (List.mem_of_getLast? hx)) hblank
    exact cutTo_last xs x hx (hx' ▸ hspace)

theorem cutTo_of_length_le {xs : List α} (hlength : xs.length ≤ limit)
    (hlast : ∀ x ∈ xs.getLast?, ¬trim x) : cutTo trim limit xs = xs := by
  rw [cutTo, List.take_of_length_le hlength]
  exact List.rdropWhile_eq_self_iff.mpr fun hne => hlast _ (List.getLast?_eq_some_getLast hne)

theorem cutTo_append_of_length {xs : List α} (hlength : xs.length = limit)
    (hlast : ∀ x ∈ xs.getLast?, ¬trim x) (ys : List α) : cutTo trim limit (xs ++ ys) = xs := by
  have htake : (xs ++ ys).take limit = xs.take limit := by
    rw [← hlength, List.take_left, List.take_length]
  rw [cutTo, htake]
  exact cutTo_of_length_le (Nat.le_of_eq hlength) hlast

/-- A space that is the last element that fits, or does not fit, is dropped. -/
theorem cutTo_append_space {xs : List α} {x : α} (hlength : xs.length ≤ limit)
    (hfull : limit ≤ xs.length + 1) (hx : trim x) (hlast : ∀ x ∈ xs.getLast?, ¬trim x)
    (ys : List α) : cutTo trim limit (xs ++ x :: ys) = xs := by
  rcases Nat.lt_or_eq_of_le hlength with hlt | heq
  · have hlimit : (xs ++ [x]).length = limit := by simp; omega
    have htake : (xs ++ x :: ys).take limit = xs ++ [x] := by
      rw [← hlimit, List.append_cons xs x ys, List.take_left]
    rw [cutTo, htake, List.rdropWhile_concat, if_pos hx]
    exact List.rdropWhile_eq_self_iff.mpr fun hne => hlast _ (List.getLast?_eq_some_getLast hne)
  · exact cutTo_append_of_length heq hlast _

end Mailbag.Collections
