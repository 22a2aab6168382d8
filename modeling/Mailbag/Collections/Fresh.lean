import Mathlib.Algebra.GroupWithZero.Nat
import Mathlib.Logic.Function.Iterate
import Mathlib.Data.List.Nodup

/-!
# A name grown until it is free

A loop grows a name, which gets longer each time, until no name taken equals it. It ends,
since only finitely many names are taken.

## What is proved

* `growUntilFree_not_mem` — the name is free.
* `growUntilFree_eq_iterate` — it is the first name with the growth repeated that is.
-/

namespace Mailbag.Collections

variable {α : Type}

/-- A taken name is no longer than all of them together. -/
theorem size_le_sum {size : α → ℕ} {taken : List α} {name : α} (h : name ∈ taken) :
    size name ≤ (taken.map size).sum := by
  induction taken with
  | nil => cases h
  | cons first taken ih =>
    rw [List.map_cons, List.sum_cons]
    rcases List.mem_cons.mp h with rfl | h
    · omega
    · have := ih h
      omega

variable [DecidableEq α]

/-- `loop { name = grow(name); if taken.insert(name) { break } }`. -/
def growUntilFree (grow : α → α) (size : α → ℕ) (hgrow : ∀ name, size name < size (grow name))
    (taken : List α) (name : α) : α :=
  if _taken : grow name ∈ taken then growUntilFree grow size hgrow taken (grow name) else grow name
termination_by (taken.map size).sum - size name
decreasing_by
  have hlonger := hgrow name
  have htaken : size (grow name) ≤ (taken.map size).sum := size_le_sum _taken
  omega

variable {grow : α → α} {size : α → ℕ} {hgrow : ∀ name, size name < size (grow name)}
  {taken : List α}

/-- **The name is free.** -/
theorem growUntilFree_not_mem (name : α) : growUntilFree grow size hgrow taken name ∉ taken := by
  fun_induction growUntilFree with
  | case1 name h ih => exact ih
  | case2 name h => exact h

/-- **The growth is repeated** until the name is free, and no more often. -/
theorem growUntilFree_eq_iterate (name : α) :
    ∃ rounds, growUntilFree grow size hgrow taken name = grow^[rounds + 1] name ∧
    ∀ n < rounds, grow^[n + 1] name ∈ taken := by
  fun_induction growUntilFree with
  | case1 name h ih =>
    obtain ⟨rounds, heq, htaken⟩ := ih
    refine ⟨rounds + 1, heq, fun n hn => ?_⟩
    cases n with
    | zero => exact h
    | succ n => exact htaken n (by omega)
  | case2 name h => exact ⟨0, rfl, fun n hn => absurd hn (Nat.not_lt_zero n)⟩

end Mailbag.Collections
