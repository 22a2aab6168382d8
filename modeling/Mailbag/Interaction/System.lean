import Mathlib.Logic.Relation
import Mathlib.Data.Nat.Init
import Mathlib.Order.Nat

/-!
# Systems that take step after step

A system is a state type with a step relation; several parties that act in any order are
one such relation. What every state reached satisfies is proved by an invariant. What must
happen is said of a behaviour: infinitely many states, each the one before or a step from
it.

What happened is kept in a log, newest event first, as part of a state. Here are also the
rules that read a log by the places in it.
-/

namespace Mailbag.Interaction

open Relation

variable {σ ε : Type}

/-- A state predicate that holds at the start and through every step holds of every state
reached. -/
theorem invariant {step : σ → σ → Prop} {I : σ → Prop} {s t : σ} (hstart : I s)
    (hstep : ∀ a b, I a → step a b → I b) (h : ReflTransGen step s t) : I t := by
  induction h with
  | refl => exact hstart
  | tail _ hab ih => exact hstep _ _ ih hab

/-! ### Behaviours -/

/-- Infinitely many states, each the one before or a step from it. -/
structure Behaviour (step : σ → σ → Prop) (start : σ) where
  /-- The state at each moment. -/
  state : ℕ → σ
  /-- It starts at the start. -/
  zero : state 0 = start
  /-- What happens at each moment. -/
  next : ∀ n, state (n + 1) = state n ∨ step (state n) (state (n + 1))

namespace Behaviour

variable {step : σ → σ → Prop} {start : σ} (b : Behaviour step start)

theorem reaches {n m : ℕ} (h : n ≤ m) : ReflTransGen step (b.state n) (b.state m) := by
  induction m, h using Nat.le_induction with
  | base => exact .refl
  | succ m _ ih =>
    rcases b.next m with heq | hstep
    · exact heq ▸ ih
    · exact ih.tail hstep

theorem reachable (n : ℕ) : ReflTransGen step start (b.state n) := by
  have h := b.reaches (Nat.zero_le n)
  rwa [b.zero] at h

/-- `P` leads to `Q`: whenever `P` holds, `Q` holds then or later. -/
def LeadsTo (P Q : σ → Prop) : Prop := ∀ n, P (b.state n) → ∃ m ≥ n, Q (b.state m)

variable {b} {P Q : σ → Prop}

/-- What a step keeps, unless it ends in `Q`, holds from then on, or `Q` holds then or later. -/
theorem always_or (hstep : ∀ n s, P (b.state n) → step (b.state n) s → P s ∨ Q s) {n : ℕ}
    (h : P (b.state n)) : (∀ m ≥ n, P (b.state m)) ∨ ∃ m ≥ n, Q (b.state m) := by
  by_cases hnever : ∃ m ≥ n, Q (b.state m)
  · exact .inr hnever
  · refine .inl fun m hm => ?_
    induction m, hm using Nat.le_induction with
    | base => exact h
    | succ m hm ih =>
      rcases b.next m with heq | hnext
      · rwa [heq]
      · exact (hstep m _ ih hnext).resolve_right fun hq => hnever ⟨m + 1, Nat.le_succ_of_le hm, hq⟩

/-- **Progress by a rank**: while `P` holds, a step that changes what is in view lowers the rank,
and what is in view changes again and again, so `P` ends in `Q`. -/
theorem LeadsTo.of_rank {α : Type} (rank : σ → ℕ) (view : σ → α)
    (hstep : ∀ n s, P (b.state n) → step (b.state n) s →
      (P s ∧ (rank s < rank (b.state n) ∨ rank s = rank (b.state n) ∧ view s = view (b.state n))) ∨
        Q s)
    (hfair : ∀ n, P (b.state n) → ∃ m ≥ n, Q (b.state m) ∨ view (b.state m) ≠ view (b.state n)) :
    b.LeadsTo P Q := by
  -- By induction on the rank at the moment `P` holds.
  suffices h : ∀ r n, rank (b.state n) = r → P (b.state n) →
    ∃ m ≥ n, Q (b.state m) from fun n => h _ n rfl
  intro r
  induction r using Nat.strong_induction_on with
  | _ r ih =>
    intro n hr hP
    -- Until `Q` holds, `P` does, and the view stays as long as the rank does.
    have hwalk : ∀ s t, P s ∧ (rank s < r ∨ rank s = r ∧ view s = view (b.state n)) →
        (P t ∧ (rank t < rank s ∨ rank t = rank s ∧ view t = view s)) ∨ Q t →
        (P t ∧ (rank t < r ∨ rank t = r ∧ view t = view (b.state n))) ∨ Q t := by
      rintro s t ⟨-, hs⟩ (⟨hPt, ht⟩ | hQ)
      · refine .inl ⟨hPt, ?_⟩
        rcases hs with hs | ⟨hs, hview⟩ <;> rcases ht with ht | ⟨ht, hview'⟩
        · exact .inl (ht.trans hs)
        · exact .inl (ht ▸ hs)
        · exact .inl (hs ▸ ht)
        · exact .inr ⟨ht.trans hs, hview'.trans hview⟩
      · exact .inr hQ
    rcases always_or (P := fun s => P s ∧ (rank s < r ∨ rank s = r ∧ view s = view (b.state n)))
      (Q := Q)
      (fun m s hm hnext => hwalk _ s hm (hstep m s hm.1 hnext)) ⟨hP, .inr ⟨hr, rfl⟩⟩
        with halways | hQ
    · obtain ⟨m, hm, hQ | hview⟩ := hfair n hP
      · exact ⟨m, hm, hQ⟩
      · obtain ⟨hPm, hrank⟩ := halways m hm
        obtain ⟨k, hk, hQ⟩ := ih _ (hrank.resolve_right fun h => hview h.2) m rfl hPm
        exact ⟨k, Nat.le_trans hm hk, hQ⟩
    · exact hQ

end Behaviour

/-! ### Logs -/

theorem cons_eq_append_cons_iff {x e : ε} {log later before : List ε} :
    x :: log = later ++ e :: before ↔
      (later = [] ∧ x = e ∧ log = before) ∨ ∃ rest, later = x :: rest ∧
      log = rest ++ e :: before := by
  cases later with
  | nil => simp
  | cons y rest =>
    constructor
    · intro h
      simp only [List.cons_append, List.cons.injEq] at h
      exact .inr ⟨rest, by rw [h.1], h.2⟩
    · rintro (⟨hnil, -⟩ | ⟨rest', hrest, hlog⟩)
      · cases hnil
      · cases hrest
        rw [hlog]
        rfl

namespace Log

/-- Every event of the log satisfies `G` with the events before it. -/
def Every (G : ε → List ε → Prop) : List ε → Prop
  | [] => True
  | e :: before => G e before ∧ Every G before

variable {G : ε → List ε → Prop} {e : ε} {log later before : List ε}

@[simp] theorem every_nil : Every G [] := trivial

@[simp] theorem every_cons : Every G (e :: before) ↔ G e before ∧ Every G before := .rfl

/-- What an event satisfies, wherever it stands. -/
theorem Every.at (h : Every G log) (hlog : log = later ++ e :: before) : G e before := by
  induction later generalizing log with
  | nil =>
    rw [List.nil_append] at hlog
    exact (hlog ▸ h).1
  | cons x later ih =>
    rw [List.cons_append] at hlog
    exact ih (hlog ▸ h).2 rfl

end Log

end Mailbag.Interaction
