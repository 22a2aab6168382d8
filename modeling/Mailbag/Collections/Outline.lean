import Mailbag.Collections.Forest

/-!
# Outlines

A forest whose rows fold away what is under them. Folding a row forgets which rows under it
were folded: when it is unfolded again, so is all that is under it.

## What is proved

* `forest_induction` — what holds of no trees, and of trees with those under the first row, holds
  of all.
* `mem_allRows_of_fill` — a forest of rows has no others.
* `mapRows_foldRows` — folding changes nothing but what is folded.
* `rowsShown_fold_sublist`, `rowsShown_unfold_sublist` — folding only hides rows, unfolding only
  shows rows.
-/

namespace Mailbag.Collections

variable {α β γ : Type}

/-! ### Induction -/

/-- What holds of no trees, and of trees when it holds of those under the first row and of the
others, holds of all. -/
@[elab_as_elim]
theorem forest_induction {motive : List (Tree α) → Prop} (nil : motive [])
    (cons : ∀ row children trees, motive children → motive trees →
      motive (.node row children :: trees))
    (trees : List (Tree α)) : motive trees := by
  let ofTree : Tree α → Prop := fun tree => ∀ row children, tree = .node row children →
    motive children
  refine @Tree.rec_1 α ofTree motive ?_ nil ?_ trees
  · rintro row children hchildren _ _ ⟨⟩
    exact hchildren
  · rintro ⟨row, children⟩ trees htree htrees
    exact cons row children trees (htree row children rfl) htrees

/-! ### The rows -/

mutual

/-- A tree with each row replaced. -/
def Tree.mapRows (f : α → β) : Tree α → Tree β
  | .node row children => .node (f row) (mapRows f children)

/-- Trees with each row replaced. -/
def mapRows (f : α → β) : List (Tree α) → List (Tree β)
  | [] => []
  | tree :: trees => tree.mapRows f :: mapRows f trees

end

mutual

/-- A tree's rows, each before those under it. -/
def Tree.allRows : Tree α → List α
  | .node row children => row :: allRows children

/-- The rows of trees. -/
def allRows : List (Tree α) → List α
  | [] => []
  | tree :: trees => tree.allRows ++ allRows trees

end

mutual

/-- A tree's rows but those under a folded row. -/
def Tree.rowsShown (expanded : α → Bool) : Tree α → List α
  | .node row children => row :: if expanded row then rowsShown expanded children else []

/-- The rows of trees but those under a folded row. -/
def rowsShown (expanded : α → Bool) : List (Tree α) → List α
  | [] => []
  | tree :: trees => tree.rowsShown expanded ++ rowsShown expanded trees

end

mutual

/-- A tree with the rows `p` replaced by `f`, and those under them by `g`. -/
def Tree.foldRows (p : α → Bool) (f g : α → α) : Tree α → Tree α
  | .node row children =>
    if p row then .node (f row) (mapRows g children) else .node row (foldRows p f g children)

/-- Trees with the rows `p` replaced by `f`, and those under them by `g`. -/
def foldRows (p : α → Bool) (f g : α → α) : List (Tree α) → List (Tree α)
  | [] => []
  | tree :: trees => tree.foldRows p f g :: foldRows p f g trees

end

@[simp] theorem mapRows_nil (f : α → β) : mapRows f [] = [] := rfl

@[simp] theorem mapRows_cons (f : α → β) (row : α) (children trees : List (Tree α)) :
    mapRows f (.node row children :: trees) = .node (f row) (mapRows f children) ::
      mapRows f trees :=
  rfl

@[simp] theorem allRows_nil : allRows ([] : List (Tree α)) = [] := rfl

@[simp] theorem allRows_cons (row : α) (children trees : List (Tree α)) :
    allRows (.node row children :: trees) = row :: (allRows children ++ allRows trees) := rfl

@[simp] theorem rowsShown_nil (expanded : α → Bool) : rowsShown expanded [] = [] := rfl

@[simp] theorem rowsShown_cons (expanded : α → Bool) (row : α)
    (children trees : List (Tree α)) :
    rowsShown expanded (.node row children :: trees) =
      row :: ((if expanded row then rowsShown expanded children
        else []) ++ rowsShown expanded trees) :=
  rfl

@[simp] theorem foldRows_nil (p : α → Bool) (f g : α → α) : foldRows p f g [] = [] := rfl

@[simp] theorem foldRows_cons (p : α → Bool) (f g : α → α) (row : α)
    (children trees : List (Tree α)) :
    foldRows p f g (.node row children :: trees) =
      (if p row then .node (f row) (mapRows g children)
        else .node row (foldRows p f g children)) :: foldRows p f g trees :=
  rfl

theorem mapRows_mapRows (f : α → β) (g : β → γ) (trees : List (Tree α)) :
    mapRows g (mapRows f trees) = mapRows (g ∘ f) trees := by
  induction trees using forest_induction with
  | nil => rfl
  | cons row children trees ih ih' =>
    rw [mapRows_cons, mapRows_cons, mapRows_cons, ih, ih', Function.comp]

theorem mapRows_congr {f g : α → β} {trees : List (Tree α)}
    (h : ∀ row ∈ allRows trees, f row = g row) : mapRows f trees = mapRows g trees := by
  induction trees using forest_induction with
  | nil => rfl
  | cons row children trees ih ih' =>
    rw [allRows_cons, List.forall_mem_cons, List.forall_mem_append] at h
    rw [mapRows_cons, mapRows_cons, h.1, ih h.2.1, ih' h.2.2]

theorem allRows_mapRows (f : α → β) (trees : List (Tree α)) :
    allRows (mapRows f trees) = (allRows trees).map f := by
  induction trees using forest_induction with
  | nil => rfl
  | cons row children trees ih ih' =>
    rw [mapRows_cons, allRows_cons, ih, ih', allRows_cons, List.map_cons, List.map_append]

/-- What is shown is some of the rows, in their order. -/
theorem rowsShown_sublist (expanded : α → Bool) (trees : List (Tree α)) :
    (rowsShown expanded trees).Sublist (allRows trees) := by
  induction trees using forest_induction with
  | nil => exact .slnil
  | cons row children trees ih ih' =>
    rw [rowsShown_cons, allRows_cons]
    refine (List.Sublist.append ?_ ih').cons_cons row
    split
    · exact ih
    · exact List.nil_sublist _

/-- **Folding changes nothing but what is folded.** -/
theorem mapRows_foldRows {p : α → Bool} {f g : α → α} {r : α → β} (hf : ∀ row, r (f row) = r row)
    (hg : ∀ row, r (g row) = r row) (trees : List (Tree α)) :
    mapRows r (foldRows p f g trees) = mapRows r trees := by
  induction trees using forest_induction with
  | nil => rfl
  | cons row children trees ih ih' =>
    rw [foldRows_cons, mapRows_cons]
    split
    · rw [mapRows_cons, mapRows_mapRows, ih', hf]
      congr 2
      exact mapRows_congr fun row _ => hg row
    · rw [mapRows_cons, ih, ih']

/-- A row stands at the root of a tree or under it. -/
theorem mem_allRows_iff {x : α} {trees : List (Tree α)} :
    x ∈ allRows trees ↔ ∃ row children, .node row children ∈ trees ∧
      (x = row ∨ x ∈ allRows children) := by
  induction trees with
  | nil => simp
  | cons tree trees ih =>
    obtain ⟨row, children⟩ := tree
    rw [allRows_cons, List.mem_cons, List.mem_append, ih]
    constructor
    · rintro (rfl | h | ⟨row', children', hmem, h⟩)
      · exact ⟨_, children, List.mem_cons_self, .inl rfl⟩
      · exact ⟨row, children, List.mem_cons_self, .inr h⟩
      · exact ⟨row', children', List.mem_cons_of_mem _ hmem, h⟩
    · rintro ⟨row', children', hmem, h⟩
      rcases List.mem_cons.mp hmem with heq | hmem
      · cases heq
        exact h.imp_right .inl
      · exact .inr (.inr ⟨row', children', hmem, h⟩)

/-- When every row is unfolded, all are shown. -/
theorem rowsShown_of_expanded {expanded : α → Bool} {trees : List (Tree α)}
    (h : ∀ row ∈ allRows trees, expanded row = true) :
    rowsShown expanded trees = allRows trees := by
  induction trees using forest_induction with
  | nil => rfl
  | cons row children trees ih ih' =>
    rw [allRows_cons, List.forall_mem_cons, List.forall_mem_append] at h
    rw [rowsShown_cons, if_pos h.1, ih h.2.1, ih' h.2.2, allRows_cons]

section Fold

variable {expanded : α → Bool} {p : α → Bool} {f g : α → α} {r : α → β}

/-- Folding a row only hides rows. -/
theorem rowsShown_fold_sublist (hf : ∀ row, r (f row) = r row)
    (hfolds : ∀ row, expanded (f row) = false) (trees : List (Tree α)) :
    ((rowsShown expanded (foldRows p f g trees)).map r).Sublist
      ((rowsShown expanded trees).map r) := by
  induction trees using forest_induction with
  | nil => exact .slnil
  | cons row children trees ih ih' =>
    rw [foldRows_cons]
    split
    · rw [rowsShown_cons, rowsShown_cons, hfolds, List.map_cons, List.map_cons, hf, List.map_append,
        List.map_append]
      exact .cons_cons _ (.append (List.nil_sublist _) ih')
    · rw [rowsShown_cons, rowsShown_cons, List.map_cons, List.map_cons, List.map_append,
        List.map_append]
      refine .cons_cons _ (.append ?_ ih')
      split
      · exact ih
      · exact .slnil

/-- Unfolding a row only shows rows. -/
theorem rowsShown_unfold_sublist (hf : ∀ row, r (f row) = r row) (hg : ∀ row, r (g row) = r row)
    (hfolds : ∀ row, expanded (f row) = true) (hunder : ∀ row, expanded (g row) = true)
    (trees : List (Tree α)) :
    ((rowsShown expanded trees).map r).Sublist
      ((rowsShown expanded (foldRows p f g trees)).map r) := by
  induction trees using forest_induction with
  | nil => exact .slnil
  | cons row children trees ih ih' =>
    rw [foldRows_cons]
    split
    · rw [rowsShown_cons, rowsShown_cons, hfolds, List.map_cons, List.map_cons, hf, List.map_append,
        List.map_append]
      refine .cons_cons _ (.append ?_ ih')
      have hall : ∀ row ∈ allRows (mapRows g children), expanded row = true := by
        intro row hrow
        rw [allRows_mapRows] at hrow
        obtain ⟨under, -, rfl⟩ := List.mem_map.mp hrow
        exact hunder under
      have hsame : r ∘ g = r := funext hg
      rw [if_pos rfl, rowsShown_of_expanded hall, allRows_mapRows, List.map_map, hsame]
      split
      · exact (rowsShown_sublist expanded children).map r
      · exact List.nil_sublist _
    · rw [rowsShown_cons, rowsShown_cons, List.map_cons, List.map_cons, List.map_append,
        List.map_append]
      refine .cons_cons _ (.append ?_ ih')
      split
      · exact ih
      · exact .slnil

end Fold

/-- A forest of rows has no others. -/
theorem mem_allRows_of_fill {κ : Type} [DecidableEq κ] {key : α → κ} {parent : α → Option κ}
    {rows : List α} {arrange : List α → List α} (harrange : ∀ xs, (arrange xs).Perm xs) {n : ℕ}
    {p : Option κ} {trees : List (Tree α)} (hfill : fill key parent rows arrange n p = some trees)
    {x : α} (hx : x ∈ allRows trees) : x ∈ rows := by
  induction n generalizing p trees with
  | zero => cases hfill
  | succ n ih =>
    obtain ⟨row, children, hmem, h⟩ := mem_allRows_iff.mp hx
    obtain ⟨row', hrow', hf⟩ := mem_of_mapM_mem hfill hmem
    obtain ⟨children', hchildren, heq⟩ := Option.map_eq_some_iff.mp hf
    cases heq
    rcases h with rfl | h
    · exact (List.mem_filter.mp ((harrange _).mem_iff.mp hrow')).1
    · exact ih hchildren h

end Mailbag.Collections
