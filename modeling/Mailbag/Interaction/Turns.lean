import Mailbag.Interaction.Run

/-!
# The turns of a loop

A run of `iterate body` is a run of `body` after another, each from what the one before
left. `Turns` is such a run with its turns kept apart: what each started from, the state it
met and its events. A claim that relates a turn to earlier ones is said of the turns.

## What is proved

* `Run.by_turns`, `Turns.run` — a run of a loop, turn by turn, and back.
* `Turns.every` — the rule: an invariant that may speak of the turns before.
-/

namespace Mailbag.Interaction

open Program Relation

variable {Op : Type} {Ans : Op → Type} {σ ε α β : Type}

/-- One turn of a loop. -/
structure Turn (β Op : Type) (Ans : Op → Type) (σ : Type) where
  /-- What it started from. -/
  loop : β
  /-- The state it met. -/
  before : σ
  /-- Its events. -/
  events : List (Event Op Ans σ)

/-- How the loop ends after a turn that ended so; not at all, when another turn follows. -/
def Outcome.last : Outcome ε (β ⊕ α) → Option (Outcome ε α)
  | .returned (.inl _) => none
  | .returned (.inr a) => some (.returned a)
  | .failed e => some (.failed e)
  | .cut => some .cut

/-- The turns and the outcome of a run of a loop from one state to another. -/
inductive Turns (E : Surroundings Op Ans σ) (body : β → Program Op Ans ε (β ⊕ α)) :
    β → σ → List (Turn β Op Ans σ) → Outcome ε α → σ → Prop
  /-- The run is dropped between two turns. -/
  | cut {b : β} {s : σ} : Turns E body b s [] .cut s
  /-- The last turn. -/
  | last {b : β} {s u : σ} {tr : List (Event Op Ans σ)} {r : Outcome ε (β ⊕ α)} {r' : Outcome ε α} :
      Run E (body b) s tr r u → r.last = some r' → Turns E body b s [⟨b, s, tr⟩] r' u
  /-- A turn that another follows. -/
  | next {b b' : β} {s t u : σ} {tr : List (Event Op Ans σ)} {turns : List (Turn β Op Ans σ)}
      {r : Outcome ε α} :
      Run E (body b) s tr (.returned (.inl b')) t → Turns E body b' t turns r u →
        Turns E body b s (⟨b, s, tr⟩ :: turns) r u

variable {E : Surroundings Op Ans σ} {body : β → Program Op Ans ε (β ⊕ α)} {b : β} {s u : σ}
  {r : Outcome ε α} {turns : List (Turn β Op Ans σ)}

/-- A run of a loop, turn by turn. -/
theorem Run.by_turns {n : ℕ} {tr : List (Event Op Ans σ)} (h : Run E (iterate body n b) s tr r u) :
    ∃ turns, Turns E body b s turns r u ∧ tr = turns.flatMap Turn.events := by
  induction n generalizing b s tr with
  | zero =>
    cases h
    exact ⟨[], .cut, rfl⟩
  | succ n ih =>
    rcases h.of_bind with ⟨tr₁, tr₂, x, t, rfl, h₁, h₂⟩ | ⟨r', hstopped, h'⟩
    · cases x with
      | inl b' =>
        obtain ⟨turns, hturns, rfl⟩ := ih h₂
        exact ⟨⟨b, s, tr₁⟩ :: turns, .next h₁ hturns, rfl⟩
      | inr a =>
        cases h₂ with
        | done => exact ⟨[⟨b, s, tr₁⟩], .last h₁ rfl, rfl⟩
        | cut => exact ⟨[⟨b, s, tr₁⟩], .last h₁.dropped rfl, rfl⟩
    · refine ⟨[⟨b, s, tr⟩], .last h' ?_, by simp⟩
      cases hstopped <;> rfl

/-- Turn after turn is a run of the loop. -/
theorem Turns.run (h : Turns E body b s turns r u) :
    ∃ n, Run E (iterate body n b) s (turns.flatMap Turn.events) r u := by
  induction h with
  | cut => exact ⟨0, .cut⟩
  | @last b s u tr r r' hrun hlast =>
    refine ⟨1, ?_⟩
    rw [List.flatMap_singleton]
    cases r with
    | returned x =>
      cases x with
      | inl b' => cases hlast
      | inr a =>
        cases hlast
        have hdone : Run E (iterate body 1 b) s (tr ++ []) (.returned a) u := hrun.bind .done
        rwa [List.append_nil] at hdone
    | failed e =>
      cases hlast
      exact hrun.bind_stopped .failed
    | cut =>
      cases hlast
      exact hrun.bind_stopped .cut
  | next hrun _ ih =>
    obtain ⟨n, hrest⟩ := ih
    exact ⟨n + 1, hrun.bind hrest⟩

/-- A rule for loops: `I` holds before every turn, of the turns so far; then `P` holds of every
turn and `F` of where the run ends. -/
theorem Turns.every {I : List (Turn β Op Ans σ) → β → σ → Prop}
    {P : List (Turn β Op Ans σ) → Turn β Op Ans σ → Prop} {F : List (Turn β Op Ans σ) → σ → Prop}
    (hI : ∀ past b s, I past b s → F past s) (h : Turns E body b s turns r u)
    (hturn : ∀ past b s tr r u, ⟨b, s, tr⟩ ∈ turns → I past b s → Run E (body b) s tr r u →
      P past ⟨b, s, tr⟩ ∧ F (past ++ [⟨b, s, tr⟩]) u ∧ ∀ b', r = .returned (.inl b') →
        I (past ++ [⟨b, s, tr⟩]) b' u)
    (past : List (Turn β Op Ans σ)) (hs : I past b s) :
    (∀ pre turn post, turns = pre ++ turn :: post → P (past ++ pre) turn) ∧
      F (past ++ turns) u := by
  induction h generalizing past with
  | cut =>
    rw [List.append_nil]
    refine ⟨fun pre turn post heq => ?_, hI _ _ _ hs⟩
    cases pre <;> cases heq
  | last hrun _ =>
    obtain ⟨hP, hF, -⟩ := hturn _ _ _ _ _ _ List.mem_cons_self hs hrun
    refine ⟨fun pre turn post heq => ?_, hF⟩
    cases pre with
    | nil =>
      cases heq
      rwa [List.append_nil]
    | cons _ pre => cases pre <;> cases heq
  | next hrun _ ih =>
    obtain ⟨hP, -, hnext⟩ := hturn _ _ _ _ _ _ List.mem_cons_self hs hrun
    obtain ⟨hrest, hend⟩ := ih (fun past b s tr r u hmem => hturn past b s tr r u
      (List.mem_cons_of_mem _ hmem)) _ (hnext _ rfl)
    rw [List.append_assoc] at hend
    refine ⟨fun pre turn post heq => ?_, hend⟩
    cases pre with
    | nil =>
      cases heq
      rwa [List.append_nil]
    | cons _ pre =>
      cases heq
      have := hrest pre turn post rfl
      rwa [List.append_assoc] at this

theorem concat_eq_append_cons {γ : Type} {past pre mid : List γ} {last x : γ}
    (h : past ++ [last] = pre ++ x :: mid) :
    (mid = [] ∧ x = last ∧ pre = past) ∨ ∃ mid', mid = mid' ++ [last] ∧
      past = pre ++ x :: mid' := by
  rcases List.eq_nil_or_concat mid with rfl | ⟨mid', y, hmid⟩
  · obtain ⟨rfl, hlast⟩ := List.append_inj' h rfl
    cases hlast
    exact .inl ⟨rfl, rfl, rfl⟩
  · rw [List.concat_eq_append] at hmid
    rw [hmid, ← List.cons_append, ← List.append_assoc] at h
    obtain ⟨rfl, hlast⟩ := List.append_inj' h rfl
    cases hlast
    exact .inr ⟨mid', hmid, rfl⟩

theorem Turns.head (h : Turns E body b s turns r u) {turn : Turn β Op Ans σ}
    (hturn : turns.head? = some turn) : turn.loop = b ∧ turn.before = s := by
  cases h with
  | cut => cases hturn
  | last => cases hturn; exact ⟨rfl, rfl⟩
  | next => cases hturn; exact ⟨rfl, rfl⟩

end Mailbag.Interaction
