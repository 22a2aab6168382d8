import Mathlib.Data.List.Induction
import Mathlib.Data.Nat.Digits.Defs

/-!
# Digits, the most significant first

A number written in base `b` with a fixed number of digits, and the number that some digits
write. Data cut into pieces of one size and put together again in pieces of another is one
number written in two bases.

## What is proved

* `value_digits` and `digits_value` — reading undoes writing, and writing reading.
* `digits_head` — a number's first digit and the digits of what is left.
-/

namespace Mailbag.Collections

/-- The number that the digits write in base `b`. -/
def value (b : ℕ) (ds : List ℕ) : ℕ := Nat.ofDigits b ds.reverse

/-- The last `k` digits of a number in base `b`. -/
def digits (b : ℕ) : ℕ → ℕ → List ℕ
  | 0, _ => []
  | k + 1, n => digits b k (n / b) ++ [n % b]

variable {b : ℕ}

@[simp] theorem value_nil : value b [] = 0 := rfl

theorem value_concat (ds : List ℕ) (d : ℕ) : value b (ds ++ [d]) = value b ds * b + d := by
  rw [value, value, List.reverse_append, List.reverse_singleton, List.singleton_append,
    Nat.ofDigits_cons]
  exact (Nat.add_comm _ _).trans (congrArg (· + d) (Nat.mul_comm _ _))

theorem value_cons (d : ℕ) (ds : List ℕ) : value b (d :: ds) = d * b ^ ds.length + value b ds := by
  rw [value, value, List.reverse_cons, Nat.ofDigits_append, Nat.ofDigits_singleton,
    List.length_reverse]
  rw [Nat.add_comm, Nat.mul_comm]

theorem value_lt (hb : 1 < b) {ds : List ℕ} (h : ∀ d ∈ ds, d < b) : value b ds < b ^ ds.length := by
  rw [value, ← List.length_reverse]
  exact Nat.ofDigits_lt_base_pow_length hb fun d hd => h d (List.mem_reverse.mp hd)

@[simp] theorem length_digits (k n : ℕ) : (digits b k n).length = k := by
  induction k generalizing n with
  | zero => rfl
  | succ k ih => rw [digits, List.length_append, ih, List.length_singleton]

theorem digits_lt (hb : 0 < b) (k n : ℕ) : ∀ d ∈ digits b k n, d < b := by
  induction k generalizing n with
  | zero => exact fun d hd => absurd hd List.not_mem_nil
  | succ k ih =>
    intro d hd
    rcases List.mem_append.mp hd with hd | hd
    · exact ih _ d hd
    · rw [List.mem_singleton.mp hd]
      exact Nat.mod_lt _ hb

/-- **Reading undoes writing** where there are digits enough. -/
theorem value_digits {k n : ℕ} (h : n < b ^ k) : value b (digits b k n) = n := by
  induction k generalizing n with
  | zero =>
    rw [pow_zero, Nat.lt_one_iff] at h
    rw [digits, h, value_nil]
  | succ k ih =>
    have hdiv : n / b < b ^ k := Nat.div_lt_of_lt_mul (by rwa [pow_succ, Nat.mul_comm] at h)
    rw [digits, value_concat, ih hdiv, Nat.div_add_mod']

/-- **Writing undoes reading.** -/
theorem digits_value {ds : List ℕ} (h : ∀ d ∈ ds, d < b) :
    digits b ds.length (value b ds) = ds := by
  induction ds using List.reverseRecOn with
  | nil => rfl
  | append_singleton ds d ih =>
    obtain ⟨hds, hd⟩ := List.forall_mem_append.mp h
    have hd := List.forall_mem_singleton.mp hd
    have hdiv : (value b ds * b + d) / b = value b ds := by
      have hb : 0 < b := by omega
      rw [Nat.mul_comm, Nat.mul_add_div hb, Nat.div_eq_of_lt hd, Nat.add_zero]
    have hmod : (value b ds * b + d) % b = d := Nat.mul_add_mod_of_lt hd
    rw [List.length_append, List.length_singleton, digits, value_concat, hdiv, hmod, ih hds]

/-- The first digit, and the digits of what is left. -/
theorem digits_head {k d n : ℕ} (hd : d < b) (hn : n < b ^ k) :
    digits b (k + 1) (d * b ^ k + n) = d :: digits b k n := by
  have hvalue : value b (d :: digits b k n) = d * b ^ k + n := by
    rw [value_cons, length_digits, value_digits hn]
  have hall : ∀ d' ∈ d :: digits b k n, d' < b :=
    List.forall_mem_cons.mpr ⟨hd, digits_lt (by omega) k n⟩
  have hback := digits_value hall
  rwa [hvalue, List.length_cons, length_digits] at hback

end Mailbag.Collections
