import Std.Data.TreeMap.Lemmas
import Mathlib.Data.List.Nodup

/-!
# Grouping by a key

A loop puts each element under its key, in a map from keys to lists. Nothing is lost or
doubled that way, and what stands under a key keeps its order.

## What is proved

* `group_get` — under a key stand the elements with this key, in their order.
* `group_perm` — the groups, one after another, are the elements in another order.
-/

namespace Mailbag.Collections

variable {κ α β : Type} {cmp : κ → κ → Ordering}

/-- `map.entry(key(x)).or_default().push(value(x))`. -/
def pushUnder (key : α → κ) (value : α → β) (m : Std.TreeMap κ (List β) cmp) (x : α) :
    Std.TreeMap κ (List β) cmp :=
  m.alter (key x) fun values => some (values.getD [] ++ [value x])

/-- The elements under their keys. -/
def group (key : α → κ) (value : α → β) (xs : List α) : Std.TreeMap κ (List β) cmp :=
  xs.foldl (pushUnder key value) ∅

variable [DecidableEq κ]

theorem flatMap_filter_perm {key : α → κ} {keys : List κ} (hkeys : keys.Nodup) {xs : List α}
    (hmem : ∀ x ∈ xs, key x ∈ keys) :
    (keys.flatMap fun k => xs.filter fun x => key x = k).Perm xs := by
  induction keys generalizing xs with
  | nil =>
    have hnil : xs = [] := List.eq_nil_iff_forall_not_mem.mpr fun x hx => List.not_mem_nil
      (hmem x hx)
    rw [hnil]
    exact .refl _
  | cons k keys ih =>
    obtain ⟨hk, hkeys⟩ := List.nodup_cons.mp hkeys
    -- the elements of the other keys are among those without the first
    have hothers : (keys.flatMap fun k' => xs.filter fun x => key x = k') =
        keys.flatMap fun k' => (xs.filter fun x => ¬key x = k).filter fun x => key x = k' := by
      refine List.flatMap_congr fun k' hk' => ?_
      rw [List.filter_filter]
      refine List.filter_congr fun x _ => ?_
      have hne : key x = k' → key x ≠ k := fun he he' => hk (he' ▸ he ▸ hk')
      by_cases he : key x = k'
      · simp [hne he, ← he]
      · simp [he]
    rw [List.flatMap_cons, hothers]
    have hrest : ∀ x ∈ xs.filter (fun x => ¬key x = k), key x ∈ keys := by
      intro x hx
      obtain ⟨hx, hne⟩ := List.mem_filter.mp hx
      exact (List.mem_cons.mp (hmem x hx)).resolve_left (by simpa using hne)
    refine ((ih hkeys hrest).append_left _).trans ?_
    simpa using List.filter_append_perm (fun x => decide (key x = k)) xs

variable [Std.TransCmp cmp] [Std.LawfulEqCmp cmp] {key : α → κ} {value : α → β}

theorem foldl_pushUnder_get (m : Std.TreeMap κ (List β) cmp) (xs : List α) (k : κ) :
    (xs.foldl (pushUnder key value) m)[k]? =
      if k ∈ xs.map key then some (m[k]?.getD [] ++ (xs.filter fun x => key x = k).map value)
          else m[k]? := by
  induction xs generalizing m with
  | nil => simp
  | cons x xs ih =>
    rw [List.foldl_cons, ih, pushUnder, Std.TreeMap.getElem?_alter]
    by_cases hx : key x = k
    · have hnone : k ∉ xs.map key → xs.filter (fun x => key x = k) = [] := by
        intro hk
        refine List.filter_eq_nil_iff.mpr fun y hy he => hk ?_
        exact List.mem_map.mpr ⟨y, hy, by simpa using he⟩
      subst hx
      by_cases hxs : key x ∈ xs.map key
      · simp [hxs]
      · simp [hxs, hnone hxs]
    · have hc : cmp (key x) k ≠ .eq := fun he => hx (Std.LawfulEqCmp.eq_of_compare he)
      simp [hc, hx, Ne.symm hx]

/-- **What stands under a key.** -/
theorem group_get (xs : List α) (k : κ) :
    (group key value xs : Std.TreeMap κ (List β) cmp)[k]? =
      if k ∈ xs.map key then some ((xs.filter fun x => key x = k).map value) else none := by
  rw [group, foldl_pushUnder_get]
  simp

/-- **Grouping loses and doubles nothing.** -/
theorem group_perm (xs : List α) :
    ((group key value xs : Std.TreeMap κ (List β) cmp).toList.flatMap fun p =>
      p.2.map (p.1, ·)).Perm
      (xs.map fun x => (key x, value x)) := by
  have hget : ∀ p ∈ (group key value xs : Std.TreeMap κ (List β) cmp).toList,
      p.2.map (p.1, ·) = (xs.filter fun x => key x = p.1).map fun x => (key x, value x) := by
    intro p hp
    have hp := Std.TreeMap.mem_toList_iff_getElem?_eq_some.mp hp
    rw [group_get] at hp
    split at hp
    · rw [← Option.some.inj hp, List.map_map]
      refine List.map_congr_left fun x hx => ?_
      have hk : key x = p.1 := by simpa using (List.mem_filter.mp hx).2
      simp [hk]
    · cases hp
  have hkeys : ((group key value xs : Std.TreeMap κ (List β) cmp).toList.map Prod.fst).Nodup := by
    rw [List.Nodup, List.pairwise_map]
    refine Std.TreeMap.distinct_keys_toList.imp fun hne he => hne ?_
    rw [he]
    exact Std.ReflCmp.compare_self
  have hmem : ∀ x ∈ xs, key x ∈ (group key value xs : Std.TreeMap κ (List β) cmp).toList.map
      Prod.fst := by
    intro x hx
    have hgroup : (group key value xs : Std.TreeMap κ (List β) cmp)[key x]? =
        some ((xs.filter fun y => key y = key x).map value) := by
      rw [group_get, if_pos (List.mem_map_of_mem hx)]
    exact List.mem_map.mpr ⟨_, Std.TreeMap.mem_toList_iff_getElem?_eq_some.mpr hgroup, rfl⟩
  have heq : (group key value xs : Std.TreeMap κ (List β) cmp).toList.flatMap
    (fun p => p.2.map (p.1, ·)) =
      (((group key value xs : Std.TreeMap κ (List β) cmp).toList.map Prod.fst).flatMap fun k =>
        xs.filter fun x => key x = k).map fun x => (key x, value x) := by
    rw [List.flatMap_congr hget, List.map_flatMap, List.flatMap_map]
  rw [heq]
  exact (flatMap_filter_perm hkeys hmem).map _

end Mailbag.Collections
