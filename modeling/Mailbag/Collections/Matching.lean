import Mathlib.Data.List.Forall2
import Mathlib.Data.List.Nodup

/-!
# Two lists that agree at both ends

A counter loop finds how far two lists agree from the beginning, and another one how far they
agree from the end. What is between is taken out of the one and replaced.

## What is proved

* `countWhile_counts` — the loop ends within its limit, and its condition held at every count
  before.
* `forall₂_replaced` — with the middle replaced by elements that agree with the other list's
  middle, the lists agree throughout.
-/

namespace Mailbag.Collections

variable {α β ε : Type} {R : α → β → Prop}

/-- `while n < limit && holds(n) { n += 1 }`, where `remaining` is how far the limit is. -/
def countWhile (holds : ℕ → Except ε Bool) : ℕ → ℕ → Except ε ℕ
  | 0, n => .ok n
  | remaining + 1, n => do
    if ← holds n then countWhile holds remaining (n + 1) else return n

/-- The list with `removals` elements from `position` on replaced. -/
def replaced (xs : List α) (position removals : ℕ) (additions : List α) : List α :=
  xs.take position ++ additions ++ xs.drop (position + removals)

theorem countWhile_from {holds : ℕ → Except ε Bool} (remaining start : ℕ)
    (h : ∀ n, start ≤ n → n < start + remaining → ∃ b, holds n = .ok b) :
    ∃ count, countWhile holds remaining start = .ok count ∧ start ≤ count ∧
      count ≤ start + remaining ∧
      ∀ n, start ≤ n → n < count → holds n = .ok true := by
  induction remaining generalizing start with
  | zero =>
    exact ⟨start, rfl, (Nat.le_refl _), (Nat.le_refl _), fun n h1 h2 => absurd h1 (by omega)⟩
  | succ remaining ih =>
    obtain ⟨b, hb⟩ := h start (Nat.le_refl _) (by omega)
    cases b with
    | false =>
      refine ⟨start, ?_, (Nat.le_refl _), by omega, fun n h1 h2 => absurd h1 (by omega)⟩
      rw [countWhile, hb]
      rfl
    | true =>
      obtain ⟨count, hcount, hle, hlimit, hholds⟩ :=
        ih (start + 1) fun n h1 h2 => h n (by omega) (by omega)
      refine ⟨count, ?_, by omega, by omega, fun n h1 h2 => ?_⟩
      · rw [countWhile, hb]
        exact hcount
      · rcases Nat.eq_or_lt_of_le h1 with rfl | hlt
        · exact hb
        · exact hholds n hlt h2

/-- **The loop counts** up to its limit, and its condition held at every count before. -/
theorem countWhile_counts {holds : ℕ → Except ε Bool} {limit : ℕ}
    (h : ∀ n < limit, ∃ b, holds n = .ok b) :
    ∃ count, countWhile holds limit 0 = .ok count ∧ count ≤ limit ∧
      ∀ n < count, holds n = .ok true := by
  obtain ⟨count, hcount, -, hlimit, hholds⟩ := countWhile_from limit 0 fun n _ hn => h n (by omega)
  exact ⟨count, hcount, by omega, fun n hn => hholds n (Nat.zero_le n) hn⟩

theorem forall₂_take_of_agree {xs : List α} {ys : List β} {n : ℕ}
    (h : ∀ i < n, ∃ x y, xs[i]? = some x ∧ ys[i]? = some y ∧ R x y) :
    List.Forall₂ R (xs.take n) (ys.take n) := by
  induction n generalizing xs ys with
  | zero => simp
  | succ n ih =>
    obtain ⟨x, y, hx, hy, hR⟩ := h 0 (Nat.succ_pos n)
    cases xs with
    | nil => cases hx
    | cons x' xs =>
      cases ys with
      | nil => cases hy
      | cons y' ys =>
        cases hx
        cases hy
        exact .cons hR (ih fun i hi => h (i + 1) (Nat.succ_lt_succ hi))

theorem forall₂_drop_of_agree {xs : List α} {ys : List β} {n : ℕ}
    (h : ∀ i < n, ∃ x y, xs[xs.length - 1 - i]? = some x ∧ ys[ys.length - 1 - i]? = some y ∧ R x y)
    (hxs : n ≤ xs.length) (hys : n ≤ ys.length) :
    List.Forall₂ R (xs.drop (xs.length - n)) (ys.drop (ys.length - n)) := by
  have hback : List.Forall₂ R (xs.reverse.take n) (ys.reverse.take n) := by
    apply forall₂_take_of_agree
    intro i hi
    obtain ⟨x, y, hx, hy, hR⟩ := h i hi
    exact ⟨x, y, by rw [List.getElem?_reverse (by omega), hx], by rw [List.getElem?_reverse
      (by omega), hy], hR⟩
  rw [List.take_reverse, List.take_reverse] at hback
  exact List.forall₂_reverse_iff.mp hback

/-- **The lists agree throughout** once the middle is replaced. -/
theorem forall₂_replaced {xs additions : List α} {ys : List β} {start removals stop : ℕ}
    (hstop : start ≤ stop) (hfront : List.Forall₂ R (xs.take start) (ys.take start))
    (hmiddle : List.Forall₂ R additions ((ys.take stop).drop start))
    (hback : List.Forall₂ R (xs.drop (start + removals)) (ys.drop stop)) :
    List.Forall₂ R (replaced xs start removals additions) ys := by
  have hys : ys = ys.take start ++ (ys.take stop).drop start ++ ys.drop stop := by
    have htake : (ys.take stop).take start = ys.take start := by
      rw [List.take_take, Nat.min_eq_left hstop]
    rw [← htake, List.take_append_drop, List.take_append_drop]
  rw [hys]
  exact List.rel_append (List.rel_append hfront hmiddle) hback

theorem exists_at_of_forall₂ {xs : List α} {ys : List β} (h : List.Forall₂ R xs ys) {i : ℕ} {y : β}
    (hy : ys[i]? = some y) : ∃ x, xs[i]? = some x ∧ R x y := by
  induction h generalizing i with
  | nil => simp at hy
  | cons hR _ ih =>
    cases i with
    | zero =>
      cases hy
      exact ⟨_, rfl, hR⟩
    | succ i => exact ih hy

/-- Another relation holds throughout, if it follows for what the second list holds. -/
theorem forall₂_of_mem_right {S : α → β → Prop} {xs : List α} {ys : List β}
    (h : List.Forall₂ R xs ys) (hS : ∀ x y, y ∈ ys → R x y → S x y) : List.Forall₂ S xs ys := by
  have hboth : List.Forall₂ (fun y x => y ∈ ys ∧ R x y) ys xs :=
    (List.forall₂_and_left _ _).mpr ⟨fun _ hy => hy, h.flip⟩
  exact (hboth.imp fun y x hxy => hS x y hxy.1 hxy.2).flip

theorem exists_of_forall₂ {xs : List α} {ys : List β} (h : List.Forall₂ R xs ys) {x : α}
    (hx : x ∈ xs) : ∃ y ∈ ys, R x y := by
  induction h with
  | nil => simp at hx
  | cons hR _ ih =>
    rcases List.mem_cons.mp hx with rfl | hx
    · exact ⟨_, List.mem_cons_self, hR⟩
    · obtain ⟨y, hy, hR⟩ := ih hx
      exact ⟨y, List.mem_cons_of_mem _ hy, hR⟩

end Mailbag.Collections
