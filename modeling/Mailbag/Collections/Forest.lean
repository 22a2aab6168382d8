import Mailbag.Collections.Keyed
import Mathlib.Data.Set.Finite.List
import Mathlib.Data.Set.Card
import Mathlib.Data.List.Basic
import Mathlib.Data.List.Sort
import Mathlib.Logic.Relation
import Mathlib.Order.CompletePartialOrder
import Mathlib.Order.WellFounded

/-!
# Forests from parent links

Rows that each have a key and may name the key of a parent. `fill` makes the forest of
them, from the rows without a parent down; how siblings are arranged is a parameter. It
follows a number of levels and says when there are more.

## What is proved

* `acc_of_rank` — when every row ranks above its parent, following parents ends.
* `fill_of_rank` — then the forest has no more levels than there are ranks.
* `shown_of_acc` — a forest shows every row from which following parents ends.
* `exists_rank` — when no row is its own ancestor, some rank puts every row above its parent.
* `not_ancestor_of_shown` — a forest shows no row that is its own ancestor.
* `fill_of_unique` — with unique keys a forest has no more levels than there are rows.
-/

namespace Mailbag.Collections

variable {α κ : Type}

/-- A row with the trees under it. -/
inductive Tree (α : Type) where
  /-- A node. -/
  | node (row : α) (children : List (Tree α))

/-- The trees show the row. -/
inductive Shown (x : α) : List (Tree α) → Prop
  /-- As a root. -/
  | root {children trees : List (Tree α)} : .node x children ∈ trees → Shown x trees
  /-- Under a root. -/
  | under {y : α} {children trees : List (Tree α)} :
      .node y children ∈ trees → Shown x children → Shown x trees

section Forest

variable (key : α → κ) (parent : α → Option κ) (rows : List α)

/-- Every parent is the key of a row. -/
def Closed : Prop := ∀ x ∈ rows, ∀ k, parent x = some k → ∃ y ∈ rows, key y = k

/-- `y` is a parent of `x`. -/
def IsParent (y x : α) : Prop := y ∈ rows ∧ parent x = some (key y)

variable [DecidableEq κ] (arrange : List α → List α)

/-- The trees of the rows under a parent, as far as `n` levels. -/
def fill : ℕ → Option κ → Option (List (Tree α))
  | 0, _ => none
  | n + 1, p =>
    (arrange (rows.filter fun x => parent x = p)).mapM fun x => (fill n (some (key x))).map
      (.node x)

end Forest

variable {key : α → κ} {parent : α → Option κ} {rows : List α}

/-- **Following parents ends** when every row ranks above its parent. -/
theorem acc_of_rank (rank : κ → ℕ)
    (hrank : ∀ x ∈ rows, ∀ k, parent x = some k → rank k < rank (key x)) :
    ∀ x ∈ rows, Acc (IsParent key parent rows) x := by
  suffices ∀ n, ∀ x ∈ rows, rank (key x) = n →
    Acc (IsParent key parent rows) x from fun x hx => this _ x hx rfl
  intro n
  induction n using Nat.strong_induction_on with
  | _ n ih =>
    rintro x hx rfl
    exact ⟨x, fun y hy => ih _ (hrank x hx _ hy.2) y hy.1 rfl⟩

theorem not_isParent_self {x : α} (h : Acc (IsParent key parent rows) x) :
    ¬ IsParent key parent rows x x := by
  induction h with
  | intro x _ ih => exact fun hself => ih x hself hself

/-! ### Ancestors -/

open Relation

/-- `y` is an ancestor of `x`. -/
def IsAncestor (key : α → κ) (parent : α → Option κ) (rows : List α) (y x : α) : Prop :=
  TransGen (IsParent key parent rows) y x

theorem IsAncestor.of_key {x y z : α} (h : IsAncestor key parent rows y x) (hz : z ∈ rows)
    (hkey : key z = key y) : IsAncestor key parent rows z x := by
  obtain ⟨w, ⟨-, hw⟩, hrest⟩ := TransGen.head'_iff.mp h
  exact TransGen.head'_iff.mpr ⟨w, ⟨hz, hkey ▸ hw⟩, hrest⟩

theorem IsAncestor.mono {rows' : List α} (hrows : ∀ x ∈ rows, x ∈ rows') {x y : α}
    (h : IsAncestor key parent rows y x) : IsAncestor key parent rows' y x := by
  induction h with
  | single h => exact .single ⟨hrows _ h.1, h.2⟩
  | tail _ h ih => exact ih.tail ⟨hrows _ h.1, h.2⟩

/-- The rows above a key: the ancestors of the rows that have it. -/
def above (key : α → κ) (parent : α → Option κ) (rows : List α) (k : κ) : Set α :=
  {y | y ∈ rows ∧ ∃ x ∈ rows, key x = k ∧ IsAncestor key parent rows y x}

theorem above_ssubset (hclosed : Closed key parent rows)
    (h : ∀ x ∈ rows, ¬ IsAncestor key parent rows x x) {x : α} (hx : x ∈ rows) {k : κ}
    (hk : parent x = some k) : above key parent rows k ⊂ above key parent rows (key x) := by
  obtain ⟨y, hy, rfl⟩ := hclosed x hx k hk
  refine ⟨?_, fun hsubset => ?_⟩
  · rintro z ⟨hz, y', hy', hkey, hancestor⟩
    exact ⟨hz, x, hx, rfl, hancestor.tail ⟨hy', hkey ▸ hk⟩⟩
  · -- the parent would be above its own key
    obtain ⟨-, y', hy', hkey, hancestor⟩ := hsubset ⟨hy, x, hx, rfl, .single ⟨hy, hk⟩⟩
    exact h y' hy' (hancestor.of_key hy' hkey)

/-- **Some rank puts every row above its parent** when no row is its own ancestor: how many stand
above it. -/
theorem exists_rank (hclosed : Closed key parent rows)
    (h : ∀ x ∈ rows, ¬ IsAncestor key parent rows x x) :
    ∃ rank : κ → ℕ, ∀ x ∈ rows, ∀ k, parent x = some k → rank k < rank (key x) := by
  classical
  have hfinite : ∀ k, (above key parent rows k).Finite :=
    fun k => (List.finite_toSet rows).subset fun y hy => hy.1
  refine ⟨fun k => (hfinite k).toFinset.card, fun x hx k hk => Finset.card_lt_card ?_⟩
  exact Set.Finite.toFinset_ssubset_toFinset.mpr (above_ssubset hclosed h hx hk)

/-! ### Lines of rows -/

/-- The rows from a root down to the row whose key is `p`, the last first. -/
inductive Line (key : α → κ) (parent : α → Option κ) (rows : List α) : Option κ → List α → Prop
  /-- Above a root stands no row. -/
  | nil : Line key parent rows none []
  /-- A row under the line. -/
  | cons {x : α} {line : List α} :
      x ∈ rows → Line key parent rows (parent x) line →
        Line key parent rows (some (key x)) (x :: line)

theorem Line.not_mem (hunique : Unique key rows) {p : Option κ} {line : List α}
    (h : Line key parent rows p line) (hnodup : line.Nodup) {x : α} (hparent : parent x = p) :
    x ∉ line := by
  -- a row of the line stands under the rows after it
  have hsplit : ∀ {p line}, Line key parent rows p line → x ∈ line →
    ∃ before after, line = before ++ x :: after ∧
      Line key parent rows (parent x) after := by
    intro p line h
    induction h with
    | nil => exact fun hmem => absurd hmem List.not_mem_nil
    | @cons y line hy hline ih =>
      intro hmem
      rcases List.mem_cons.mp hmem with rfl | hmem
      · exact ⟨[], line, rfl, hline⟩
      · obtain ⟨before, after, rfl, hafter⟩ := ih hmem
        exact ⟨y :: before, after, rfl, hafter⟩
  intro hmem
  obtain ⟨before, after, rfl, hafter⟩ := hsplit h hmem
  rw [hparent] at hafter
  cases hafter with
  | nil =>
    generalize before ++ [x] = line at h hmem
    cases h
    exact List.not_mem_nil hmem
  | @cons z after hz _ =>
    -- so the line's last row stands twice on it
    cases before with
    | nil =>
      generalize hkey : some (key z) = p at h
      cases h with
      | cons hx _ =>
        obtain rfl : z = x := hunique.eq_of_key hz hx (Option.some.inj hkey)
        simp at hnodup
    | cons y before =>
      generalize hkey : some (key z) = p at h
      cases h with
      | cons hy _ =>
        obtain rfl : z = y := hunique.eq_of_key hz hy (Option.some.inj hkey)
        simp at hnodup

/-! ### Lists of options -/

theorem mapM_isSome {β : Type} {f : α → Option β} {xs : List α} (h : ∀ x ∈ xs, (f x).isSome) :
    (xs.mapM f).isSome := by
  induction xs with
  | nil => rfl
  | cons x xs ih =>
    rw [List.forall_mem_cons] at h
    obtain ⟨y, hy⟩ := Option.isSome_iff_exists.mp h.1
    obtain ⟨ys, hys⟩ := Option.isSome_iff_exists.mp (ih h.2)
    simp [List.mapM_cons, hy, hys]

theorem mem_of_mapM {β : Type} {f : α → Option β} {xs : List α} {ys : List β}
    (h : xs.mapM f = some ys) {x : α} (hx : x ∈ xs) : ∃ y ∈ ys, f x = some y := by
  induction xs generalizing ys with
  | nil => cases hx
  | cons x' xs ih =>
    simp only [List.mapM_cons, Option.bind_eq_bind, Option.bind_eq_some_iff] at h
    obtain ⟨y, hy, ys', hys, heq⟩ := h
    cases heq
    rcases List.mem_cons.mp hx with rfl | hx
    · exact ⟨y, List.mem_cons_self, hy⟩
    · obtain ⟨y', hy', hf⟩ := ih hys hx
      exact ⟨y', List.mem_cons_of_mem _ hy', hf⟩

theorem mem_of_mapM_mem {β : Type} {f : α → Option β} {xs : List α} {ys : List β}
    (h : xs.mapM f = some ys) {y : β} (hy : y ∈ ys) : ∃ x ∈ xs, f x = some y := by
  induction xs generalizing ys with
  | nil =>
    cases h
    cases hy
  | cons x xs ih =>
    simp only [List.mapM_cons, Option.bind_eq_bind, Option.bind_eq_some_iff] at h
    obtain ⟨y', hy', ys', hys, heq⟩ := h
    cases heq
    rcases List.mem_cons.mp hy with rfl | hy
    · exact ⟨x, List.mem_cons_self, hy'⟩
    · obtain ⟨x', hx', hf⟩ := ih hys hy
      exact ⟨x', List.mem_cons_of_mem _ hx', hf⟩

/-! ### Filling -/

variable [DecidableEq κ] {arrange : List α → List α}

/-- How many ranks are left under a parent. -/
def ranksUnder (rank : κ → ℕ) (bound : ℕ) : Option κ → ℕ
  | none => bound
  | some k => bound - (rank k + 1)

/-- **The forest ends** after as many levels as there are ranks. -/
theorem fill_of_rank (rank : κ → ℕ)
    (hrank : ∀ x ∈ rows, ∀ k, parent x = some k → rank k < rank (key x))
    (harrange : ∀ xs, (arrange xs).Perm xs) {bound : ℕ} (hbound : ∀ x ∈ rows, rank (key x) < bound)
    (n : ℕ) (p : Option κ) (hn : ranksUnder rank bound p < n) :
    (fill key parent rows arrange n p).isSome := by
  induction n generalizing p with
  | zero => omega
  | succ n ih =>
    refine mapM_isSome fun x hx => ?_
    obtain ⟨hrow, hp⟩ := List.mem_filter.mp ((harrange _).mem_iff.mp hx)
    have hp : parent x = p := of_decide_eq_true hp
    rw [Option.isSome_map]
    refine ih (some (key x)) ?_
    have hlt := hbound x hrow
    cases p with
    | none =>
      simp only [ranksUnder] at hn ⊢
      omega
    | some k =>
      have hrank := hrank x hrow k hp
      simp only [ranksUnder] at hn ⊢
      omega

/-- The trees under a shown row are filled, and what they show is shown. -/
theorem filled_of_shown {x : α} {n : ℕ} {p : Option κ} {trees : List (Tree α)}
    (hfill : fill key parent rows arrange n p = some trees) (hshown : Shown x trees) :
    ∃ m children, fill key parent rows arrange m (some (key x)) = some children ∧
      ∀ y, Shown y children → Shown y trees := by
  induction hshown generalizing n p with
  | root hmem =>
    cases n with
    | zero => cases hfill
    | succ n =>
      obtain ⟨x', -, hf⟩ := mem_of_mapM_mem hfill hmem
      obtain ⟨children, hchildren, heq⟩ := Option.map_eq_some_iff.mp hf
      cases heq
      exact ⟨n, _, hchildren, fun y hy => .under hmem hy⟩
  | under hmem _ ih =>
    cases n with
    | zero => cases hfill
    | succ n =>
      obtain ⟨x', -, hf⟩ := mem_of_mapM_mem hfill hmem
      obtain ⟨children, hchildren, heq⟩ := Option.map_eq_some_iff.mp hf
      cases heq
      obtain ⟨m, children', hfill', hall⟩ := ih hchildren
      exact ⟨m, children', hfill', fun y hy => .under hmem (hall y hy)⟩

theorem shown_of_fill (harrange : ∀ xs, (arrange xs).Perm xs) {x : α} (hx : x ∈ rows) {n : ℕ}
    {trees : List (Tree α)} (hfill : fill key parent rows arrange n (parent x) = some trees) :
    Shown x trees := by
  cases n with
  | zero => cases hfill
  | succ n =>
    have hmem : x ∈ arrange (rows.filter fun y => parent y = parent x) :=
      (harrange _).mem_iff.mpr (List.mem_filter.mpr ⟨hx, decide_eq_true rfl⟩)
    obtain ⟨tree, htree, hf⟩ := mem_of_mapM hfill hmem
    obtain ⟨children, -, rfl⟩ := Option.map_eq_some_iff.mp hf
    exact .root htree

/-- **A forest shows every row** from which following parents ends. -/
theorem shown_of_acc (harrange : ∀ xs, (arrange xs).Perm xs) (hclosed : Closed key parent rows)
    {n : ℕ} {trees : List (Tree α)} (hfill : fill key parent rows arrange n none = some trees)
    {x : α} (hacc : Acc (IsParent key parent rows) x) (hx : x ∈ rows) : Shown x trees := by
  induction hacc with
  | intro x _ ih =>
    cases hp : parent x with
    | none => exact shown_of_fill harrange hx (hp ▸ hfill)
    | some k =>
      obtain ⟨y, hy, rfl⟩ := hclosed x hx k hp
      obtain ⟨m, children, hchildren, hall⟩ := filled_of_shown hfill (ih y ⟨hy, hp⟩ hy)
      exact hall x (shown_of_fill harrange hx (hp ▸ hchildren))

theorem filled_of_ancestor (harrange : ∀ xs, (arrange xs).Perm xs) {x y : α}
    (h : IsAncestor key parent rows y x) (hx : x ∈ rows) {n : ℕ}
    (hfill : (fill key parent rows arrange n (some (key y))).isSome) :
    ∃ m < n, (fill key parent rows arrange m (some (key x))).isSome := by
  have hstep : ∀ {x y n}, x ∈ rows → parent x = some (key y) →
    (fill key parent rows arrange n (some (key y))).isSome →
      ∃ m < n, (fill key parent rows arrange m (some (key x))).isSome := by
    intro x y n hx hparent hfill
    obtain ⟨trees, hfill⟩ := Option.isSome_iff_exists.mp hfill
    cases n with
    | zero => cases hfill
    | succ n =>
      have hmem : x ∈ arrange (rows.filter fun x => parent x = some (key y)) :=
        (harrange _).mem_iff.mpr (List.mem_filter.mpr ⟨hx, decide_eq_true hparent⟩)
      obtain ⟨_, -, hf⟩ := mem_of_mapM hfill hmem
      obtain ⟨children, hchildren, -⟩ := Option.map_eq_some_iff.mp hf
      exact ⟨n, Nat.lt_succ_self n, Option.isSome_of_eq_some hchildren⟩
  induction h with
  | single h => exact hstep hx h.2 hfill
  | tail _ h ih =>
    obtain ⟨m, hm, hfill'⟩ := ih h.1
    obtain ⟨m', hm', hfill''⟩ := hstep hx h.2 hfill'
    exact ⟨m', hm'.trans hm, hfill''⟩

/-- **A forest shows no row that is its own ancestor.** -/
theorem not_ancestor_of_shown (harrange : ∀ xs, (arrange xs).Perm xs) {n : ℕ} {p : Option κ}
    {trees : List (Tree α)} (hfill : fill key parent rows arrange n p = some trees) {x : α}
    (hrow : x ∈ rows) (hx : Shown x trees) : ¬ IsAncestor key parent rows x x := by
  obtain ⟨m, children, hchildren, -⟩ := filled_of_shown hfill hx
  intro hself
  have hdescends : ∀ m, ¬ (fill key parent rows arrange m (some (key x))).isSome := by
    intro m
    induction m using Nat.strong_induction_on with
    | _ m ih =>
      intro hfilled
      obtain ⟨m', hm', hfilled'⟩ := filled_of_ancestor harrange hself hrow hfilled
      exact ih m' hm' hfilled'
  exact hdescends m (Option.isSome_of_eq_some hchildren)

/-- **With unique keys a forest has no more levels than there are rows.** -/
theorem fill_of_unique (hunique : Unique key rows) (harrange : ∀ xs, (arrange xs).Perm xs) :
    (fill key parent rows arrange (rows.length + 1) none).isSome := by
  suffices ∀ n p line, Line key parent rows p line → line.Nodup → line ⊆ rows →
    rows.length < line.length + n →
      (fill key parent rows arrange n p).isSome from
    this _ none [] .nil List.nodup_nil (List.nil_subset rows) (by simp)
  intro n
  induction n with
  | zero =>
    intro p line _ hnodup hsubset hlong
    exact absurd (hnodup.subperm hsubset).length_le (by omega)
  | succ n ih =>
    intro p line hline hnodup hsubset hlong
    refine mapM_isSome fun x hx => ?_
    obtain ⟨hrow, hp⟩ := List.mem_filter.mp ((harrange _).mem_iff.mp hx)
    have hp : parent x = p := of_decide_eq_true hp
    rw [Option.isSome_map]
    refine ih _ (x :: line) (.cons hrow (hp ▸ hline))
      (List.nodup_cons.mpr ⟨hline.not_mem hunique hnodup hp, hnodup⟩)
      (List.cons_subset.mpr ⟨hrow, hsubset⟩) ?_
    rw [List.length_cons]
    omega

end Mailbag.Collections
