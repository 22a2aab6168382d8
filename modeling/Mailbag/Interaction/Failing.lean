import Mailbag.Interaction.Run

/-!
# What a run leaves when it fails

`Safe` says nothing of a program that failed. Where the failure itself is the result, as it
is of an attempt whose caller is told why it ended, `SafeOr E G h s p Q F` also says that the
program fails only with `F`: of the failure, of the events up to it and of the state it left.
The rules are those of `Safe`.
-/

namespace Mailbag.Interaction

open Relation Program

variable {Op : Type} {Ans : Op → Type} {σ ε α β : Type} {E : Surroundings Op Ans σ}

/-- A result satisfies `Q`, a failure `F`. -/
def Outcome.Meets (Q : α → Prop) (F : ε → Prop) : Outcome ε α → Prop
  | .returned a => Q a
  | .failed e => F e
  | .cut => True

theorem Outcome.Meets.mono {Q Q' : α → Prop} {F F' : ε → Prop} {r : Outcome ε α} (h : r.Meets Q F)
    (hq : ∀ a, Q a → Q' a) (hf : ∀ e, F e → F' e) : r.Meets Q' F' := by
  cases r with
  | returned a => exact hq a h
  | failed e => exact hf e h
  | cut => trivial

/-- `p` started in `s` after the events `h` adds only events that satisfy `G`, returns only
with `Q` and fails only with `F`. -/
def SafeOr (E : Surroundings Op Ans σ) (G : List (Event Op Ans σ) → Event Op Ans σ → Prop)
    (h : List (Event Op Ans σ)) (s : σ) (p : Program Op Ans ε α)
    (Q : α → List (Event Op Ans σ) → σ → Prop) (F : ε → List (Event Op Ans σ) → σ → Prop) : Prop :=
  ∀ tr r u, Run E p s tr r u → EveryAfter G h tr ∧ r.Meets (Q · (h ++ tr) u) (F · (h ++ tr) u)

variable {G : List (Event Op Ans σ) → Event Op Ans σ → Prop} {h : List (Event Op Ans σ)} {s : σ}
  {Q R : α → List (Event Op Ans σ) → σ → Prop} {F F' : ε → List (Event Op Ans σ) → σ → Prop}

theorem SafeOr.done {a : α} (hq : Q a h s) : SafeOr E G h s (.done a) Q F := by
  intro tr r u hr
  cases hr with
  | done =>
    rw [List.append_nil]
    exact ⟨every_nil, hq⟩
  | cut => exact ⟨every_nil, trivial⟩

theorem SafeOr.fail {e : ε} (hf : F e h s) : SafeOr E G h s (.fail e) Q F := by
  intro tr r u hr
  cases hr with
  | fail =>
    rw [List.append_nil]
    exact ⟨every_nil, hf⟩
  | cut => exact ⟨every_nil, trivial⟩

theorem SafeOr.cut : SafeOr E G h s (.cut : Program Op Ans ε α) Q F := by
  intro tr r u hr
  cases hr
  exact ⟨every_nil, trivial⟩

/-- One operation: whatever the others did before it and however it is answered, it satisfies
the guarantee and the program goes on safely. -/
theorem SafeOr.ask {o : Op} {k : Ans o → Program Op Ans ε α}
    (ha : ∀ s' a t, ReflTransGen E.move s s' → E.answer s' o a t →
      G h ⟨s', o, a, t⟩ ∧ SafeOr E G (h ++ [⟨s', o, a, t⟩]) t (k a) Q F) :
    SafeOr E G h s (.ask o k) Q F := by
  intro tr r u hr
  cases hr with
  | cut => exact ⟨every_nil, trivial⟩
  | @ask _ _ _ s' t _ a tr _ hm hans hrest =>
    obtain ⟨hg, hk⟩ := ha _ _ _ hm hans
    obtain ⟨hevery, hr⟩ := hk _ _ _ hrest
    have hsame : ∀ tr', h ++ ⟨s', o, a, t⟩ :: tr' = h ++ [⟨s', o, a, t⟩] ++ tr' :=
      fun _ => (List.append_cons _ _ _)
    refine ⟨every_cons_iff.mpr ⟨?_, fun pre e post hs => ?_⟩, ?_⟩
    · rw [List.append_nil]
      exact hg
    · show G (h ++ ⟨s', o, a, t⟩ :: pre) e
      rw [hsame]
      exact hevery pre e post hs
    · rw [hsame]
      exact hr

/-- An operation that may be asked here, and what follows its answer. -/
theorem SafeOr.bind_request {o : Op} {f : Ans o → Program Op Ans ε α}
    (hg : ∀ s' a t, E.answer s' o a t → G h ⟨s', o, a, t⟩)
    (hf : ∀ s' a t, E.answer s' o a t → SafeOr E G (h ++ [⟨s', o, a, t⟩]) t (f a) Q F) :
    SafeOr E G h s ((Program.request o).bind f) Q F :=
  .ask fun s' a t _ ha => ⟨hg s' a t ha, hf s' a t ha⟩

/-- Sequencing: `f` starts after the events `p` added, with what `p` left. -/
theorem SafeOr.bind {p : Program Op Ans ε α} {f : α → Program Op Ans ε β}
    {Q : β → List (Event Op Ans σ) → σ → Prop} (hp : SafeOr E G h s p R F)
    (hf : ∀ a tr t, R a (h ++ tr) t → SafeOr E G (h ++ tr) t (f a) Q F) :
    SafeOr E G h s (p.bind f) Q F := by
  intro tr r u hr
  rcases hr.of_bind with ⟨tr₁, tr₂, a, t, rfl, h₁, h₂⟩ | ⟨r', hstopped, h'⟩
  · obtain ⟨g₁, q₁⟩ := hp _ _ _ h₁
    obtain ⟨g₂, q₂⟩ := hf a tr₁ t q₁ _ _ _ h₂
    refine ⟨every_append_iff.mpr ⟨g₁, fun pre e post hs => ?_⟩, ?_⟩
    · show G (h ++ (tr₁ ++ pre)) e
      rw [← List.append_assoc]
      exact g₂ pre e post hs
    · rw [← List.append_assoc]
      exact q₂
  · obtain ⟨g, q⟩ := hp _ _ _ h'
    refine ⟨g, ?_⟩
    cases hstopped with
    | failed => exact q
    | cut => trivial

theorem SafeOr.mono {p : Program Op Ans ε α} (hp : SafeOr E G h s p R F)
    (hq : ∀ a tr t, R a (h ++ tr) t → Q a (h ++ tr) t)
    (hf : ∀ e tr t, F e (h ++ tr) t → F' e (h ++ tr) t) : SafeOr E G h s p Q F' :=
  fun tr r u hr => ⟨(hp tr r u hr).1, (hp tr r u hr).2.mono (fun a => hq a tr u) fun e => hf e tr u⟩

theorem SafeOr.bind_ofExcept {x : Except ε α} {f : α → Program Op Ans ε β}
    {Q : β → List (Event Op Ans σ) → σ → Prop} (hok : ∀ a, x = .ok a → SafeOr E G h s (f a) Q F)
    (herr : ∀ e, x = .error e → F e h s) : SafeOr E G h s ((Program.ofExcept x).bind f) Q F := by
  cases x with
  | ok a => exact hok a rfl
  | error e => exact .fail (herr e rfl)

/-- A loop: `I` holds before every round, and a round that returns leaves `Q`. -/
theorem SafeOr.iterate {body : β → Program Op Ans ε (β ⊕ α)}
    {I : β → List (Event Op Ans σ) → σ → Prop}
    (hb : ∀ b h s, I b h s → SafeOr E G h s (body b)
      (fun x h t => Sum.elim (I · h t) (Q · h t) x) F)
    (n : ℕ) : ∀ b h s, I b h s → SafeOr E G h s (Program.iterate body n b) Q F := by
  induction n with
  | zero => exact fun _ _ _ _ => .cut
  | succ n ih =>
    intro b h s hi
    refine (hb b h s hi).bind fun x tr t hx => ?_
    cases x with
    | inl b' => exact ih b' _ t hx
    | inr a => exact .done hx

end Mailbag.Interaction
