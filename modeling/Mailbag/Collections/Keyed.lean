import Mathlib.Data.List.Nodup

/-!
# Lists of rows with a unique key

A table kept as a list of rows: `Unique key xs` says that no two rows have one key,
`lookup key xs k` is the row with a key. The lemmas say what the usual statements of
a table, an update of the rows by key, a deletion of rows, an insertion of a row
with a new key, do to both. `latest k xs` is the last value a list of entries gives
for a key, which is what counts when the entries are applied one after another.
-/

namespace Mailbag.Collections

variable {α β κ : Type}

/-- No two rows have one key. -/
def Unique (key : α → κ) (xs : List α) : Prop := (xs.map key).Nodup

/-- The first row with the key `k`. -/
def lookup [DecidableEq κ] (key : α → κ) (xs : List α) (k : κ) : Option α :=
  xs.find? fun x => key x = k

section Unique

variable {key : α → κ} {xs : List α}

theorem unique_nil : Unique key ([] : List α) := List.nodup_nil

theorem Unique.eq_of_key (h : Unique key xs) {x y : α} (hx : x ∈ xs) (hy : y ∈ xs)
    (hk : key x = key y) : x = y :=
  List.inj_on_of_nodup_map h hx hy hk

theorem Unique.filter (h : Unique key xs) (p : α → Bool) : Unique key (xs.filter p) :=
  (List.filter_sublist.map key).nodup h

/-- An update that keeps the keys keeps them unique. -/
theorem Unique.map (h : Unique key xs) {f : α → α} (hf : ∀ x, key (f x) = key x) :
    Unique key (xs.map f) := by
  have hcomp : (xs.map f).map key = xs.map key := by
    rw [List.map_map]
    exact List.map_congr_left fun x _ => hf x
  rw [Unique, hcomp]
  exact h

/-- A row with a new key can be added. -/
theorem Unique.append_one (h : Unique key xs) {x : α} (hx : ∀ y ∈ xs, key y ≠ key x) :
    Unique key (xs ++ [x]) := by
  rw [Unique, List.map_append, List.map_singleton]
  refine List.nodup_append.mpr ⟨h, List.nodup_singleton _, ?_⟩
  rintro k hk k' hk' rfl
  obtain ⟨y, hy, rfl⟩ := List.mem_map.mp hk
  exact hx y hy (List.mem_singleton.mp hk')

end Unique

/-- An update that leaves alone the rows a filter keeps, and keeps what it tests. -/
theorem filter_map_of_fixed {f : α → α} {p : α → Bool} {xs : List α} (hp : ∀ x ∈ xs, p (f x) = p x)
    (hf : ∀ x ∈ xs, p x = true → f x = x) : (xs.map f).filter p = xs.filter p := by
  induction xs with
  | nil => rfl
  | cons x xs ih =>
    rw [List.forall_mem_cons] at hp hf
    rw [List.map_cons, List.filter_cons, List.filter_cons, hp.1, ih hp.2 hf.2]
    split
    · rename_i hx
      rw [hf.1 hx]
    · rfl

section Lookup

variable [DecidableEq κ] {key : α → κ} {xs : List α} {k : κ} {x : α}

theorem mem_of_lookup (h : lookup key xs k = some x) : x ∈ xs := List.mem_of_find?_eq_some h

theorem key_of_lookup (h : lookup key xs k = some x) : key x = k := by
  simpa using List.find?_some h

theorem lookup_eq_none_iff : lookup key xs k = none ↔ ∀ x ∈ xs, key x ≠ k := by
  simp [lookup]

theorem lookup_isSome_iff : (lookup key xs k).isSome ↔ ∃ x ∈ xs, key x = k := by
  simp [lookup]

/-- With unique keys the row found is the row with the key. -/
theorem Unique.lookup_eq_some_iff (h : Unique key xs) :
    lookup key xs k = some x ↔ x ∈ xs ∧ key x = k := by
  constructor
  · exact fun hx => ⟨mem_of_lookup hx, key_of_lookup hx⟩
  · rintro ⟨hx, hk⟩
    cases hl : lookup key xs k with
    | none => exact absurd hk (lookup_eq_none_iff.mp hl x hx)
    | some y => rw [h.eq_of_key (mem_of_lookup hl) hx ((key_of_lookup hl).trans hk.symm)]

theorem Unique.lookup_of_mem (h : Unique key xs) (hx : x ∈ xs) : lookup key xs (key x) = some x :=
  h.lookup_eq_some_iff.mpr ⟨hx, rfl⟩

/-- An update of the rows that keeps their keys updates the row found. -/
theorem lookup_map {f : α → α} (hf : ∀ x, key (f x) = key x) :
    lookup key (xs.map f) k = (lookup key xs k).map f := by
  rw [lookup, lookup, List.find?_map]
  congr 2
  funext x
  simp [hf x]

/-- With unique keys a deletion of rows deletes the row found. -/
theorem Unique.lookup_filter (h : Unique key xs) (p : α → Bool) :
    lookup key (xs.filter p) k = (lookup key xs k).filter p := by
  apply Option.ext
  intro x
  rw [(h.filter p).lookup_eq_some_iff, List.mem_filter, Option.filter_eq_some_iff,
    h.lookup_eq_some_iff]
  tauto

/-- A row with a new key is found by it, and the others as before. -/
theorem lookup_append_one (hx : ∀ y ∈ xs, key y ≠ key x) :
    lookup key (xs ++ [x]) k = if k = key x then some x else lookup key xs k := by
  rw [lookup, List.find?_append]
  by_cases hk : k = key x
  · subst hk
    have hnone : xs.find? (fun y => key y = key x) = none := lookup_eq_none_iff.mpr hx
    simp [hnone]
  · have hne : key x ≠ k := fun h => hk h.symm
    simp [hk, hne, lookup]

/-- An update of the rows with one key. -/
theorem lookup_update {f : α → α} (hf : ∀ x, key (f x) = key x) (k' : κ) :
    lookup key (xs.map fun x => if key x = k' then f x else x) k =
      if k = k' then (lookup key xs k).map f else lookup key xs k := by
  have hkey : ∀ x, key (if key x = k' then f x else x) = key x := by
    intro x
    split
    · exact hf x
    · rfl
  rw [lookup_map hkey]
  cases hl : lookup key xs k with
  | none => split <;> rfl
  | some x =>
    have hx := key_of_lookup hl
    rw [Option.map_some, hx]
    split <;> rfl

end Lookup

/-! ### The last entry of a key -/

section Latest

variable [DecidableEq κ]

/-- The last value the entries give for the key `k`. -/
def latest (k : κ) : List (κ × β) → Option β
  | [] => none
  | (k', v) :: xs => (latest k xs).or (if k' = k then some v else none)

@[simp] theorem latest_nil (k : κ) : latest k ([] : List (κ × β)) = none := rfl

theorem latest_append (k : κ) (xs ys : List (κ × β)) :
    latest k (xs ++ ys) = (latest k ys).or (latest k xs) := by
  induction xs with
  | nil => simp
  | cons x xs ih => rw [List.cons_append, latest, ih, latest, Option.or_assoc]

theorem latest_isSome_iff {k : κ} {xs : List (κ × β)} :
    (latest k xs).isSome ↔ k ∈ xs.map Prod.fst := by
  induction xs with
  | nil => simp
  | cons x xs ih =>
    rw [latest, Option.isSome_or, Bool.or_eq_true, ih, List.map_cons, List.mem_cons]
    by_cases hk : x.1 = k
    · simp [hk]
    · simp [hk, Ne.symm hk]

theorem latest_eq_none_iff {k : κ} {xs : List (κ × β)} :
    latest k xs = none ↔ k ∉ xs.map Prod.fst := by
  rw [← latest_isSome_iff, Option.not_isSome_iff_eq_none]

theorem mem_of_latest {k : κ} {v : β} {xs : List (κ × β)} (h : latest k xs = some v) :
    (k, v) ∈ xs := by
  induction xs with
  | nil => cases h
  | cons x xs ih =>
    rw [latest, Option.or_eq_some_iff] at h
    rcases h with h | ⟨-, h⟩
    · exact List.mem_cons_of_mem _ (ih h)
    · split at h
      · rename_i hk
        cases h
        exact hk ▸ List.mem_cons_self
      · cases h

/-- When a key has one entry, its last value is the value of that entry. -/
theorem latest_eq_some_iff {k : κ} {v : β} {xs : List (κ × β)} (h : (xs.map Prod.fst).Nodup) :
    latest k xs = some v ↔ (k, v) ∈ xs := by
  refine ⟨mem_of_latest, fun hmem => ?_⟩
  obtain ⟨v', hv'⟩ := Option.isSome_iff_exists.mp
    (latest_isSome_iff.mpr (List.mem_map_of_mem (f := Prod.fst) hmem))
  rw [hv', ← (Prod.mk.inj (List.inj_on_of_nodup_map h hmem (mem_of_latest hv') rfl)).2]

/-- The entries of a map collected from these: of a repeated key it keeps the last entry. -/
def collect : List (κ × β) → List (κ × β)
  | [] => []
  | x :: xs => if x.1 ∈ xs.map Prod.fst then collect xs else x :: collect xs

/-- Without a repeated key the map keeps every entry. -/
theorem collect_of_nodup {xs : List (κ × β)} (h : (xs.map Prod.fst).Nodup) : collect xs = xs := by
  induction xs with
  | nil => rfl
  | cons x xs ih =>
    rw [List.map_cons, List.nodup_cons] at h
    rw [collect, if_neg h.1, ih h.2]

end Latest

end Mailbag.Collections
