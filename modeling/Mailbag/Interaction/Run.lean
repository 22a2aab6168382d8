import Mailbag.Interaction.Program

/-!
# Running programs against their surroundings

`Surroundings` says what may happen around a program: `move`, what others may do
to the common state between two of its operations, and `answer`, how an
operation may be answered and what it does to the state. A run records every
operation with its answer and the state before and after it (`Event`); it may
end with the program's result, with its failure, or anywhere before (`cut`), as
a program does that is dropped while it waits.

## Reasoning

`Safe E G h s p Q` says of a program `p` started in state `s` after the events
`h`: whatever the surroundings do, every event `e` the program adds satisfies
the guarantee `G` at the events before it, and if it returns `a`, then `Q a`
holds of the events and the state at that moment. A claim about every run is a
guarantee; what one part of a program leaves to the next is a postcondition. The
rules follow the program: `Safe.bind`, `Safe.request`, `Safe.iterate`. A part
that asks only operations of one kind is dealt with at once by `Safe.asks`.
-/

namespace Mailbag.Interaction

open Relation Program

variable {Op : Type} {Ans : Op → Type} {σ ε ε' α β : Type}

/-- What may happen around a program. -/
structure Surroundings (Op : Type) (Ans : Op → Type) (σ : Type) where
  /-- What others may do between two operations. -/
  move : σ → σ → Prop
  /-- How an operation may be answered, and what it does. -/
  answer : σ → (o : Op) → Ans o → σ → Prop

/-- An operation a run asked: the state it met, its answer and the state it left. -/
structure Event (Op : Type) (Ans : Op → Type) (σ : Type) where
  /-- The state before. -/
  before : σ
  /-- What was asked. -/
  op : Op
  /-- The answer. -/
  ans : Ans op
  /-- The state after. -/
  after : σ

/-- How a run ended. -/
inductive Outcome (ε α : Type) where
  /-- The program returned. -/
  | returned (a : α)
  /-- The program failed. -/
  | failed (e : ε)
  /-- The run is followed no further. -/
  | cut

/-- The events `tr` and the outcome `r` of a run of a program from one state to another. -/
inductive Run (E : Surroundings Op Ans σ) :
    Program Op Ans ε α → σ → List (Event Op Ans σ) → Outcome ε α → σ → Prop
  /-- The program returns. -/
  | done {a : α} {s : σ} : Run E (.done a) s [] (.returned a) s
  /-- The program fails. -/
  | fail {e : ε} {s : σ} : Run E (.fail e) s [] (.failed e) s
  /-- The run is dropped here. -/
  | cut {p : Program Op Ans ε α} {s : σ} : Run E p s [] .cut s
  /-- Others move, then the program's next operation is answered. -/
  | ask {o : Op} {k : Ans o → Program Op Ans ε α} {s s' t u : σ} {a : Ans o}
      {tr : List (Event Op Ans σ)} {r : Outcome ε α} :
      ReflTransGen E.move s s' → E.answer s' o a t → Run E (k a) t tr r u →
        Run E (.ask o k) s (⟨s', o, a, t⟩ :: tr) r u

variable {E : Surroundings Op Ans σ}

/-- What every move of others keeps, their moves keep. -/
theorem Surroundings.moves_keep {I : σ → Prop} (hmove : ∀ s t, I s → E.move s t → I t) {s t : σ}
    (hs : I s) (hm : ReflTransGen E.move s t) : I t := by
  induction hm with
  | refl => exact hs
  | tail _ hstep ih => exact hmove _ _ ih hstep

/-- The end of a run that did not return, for a program that returns something else. -/
inductive Outcome.Stopped : Outcome ε α → Outcome ε β → Prop
  /-- It failed. -/
  | failed {e : ε} : Stopped (.failed e) (.failed e)
  /-- It is followed no further. -/
  | cut : Stopped .cut .cut

theorem Outcome.Stopped.ne_returned {r : Outcome ε α} {r' : Outcome ε β} (h : r.Stopped r')
    (b : β) : r' ≠ .returned b := by
  cases h <;> simp

/-- A run of `p` then `f` is a run of `p` that returned, followed by one of `f`, or a
run of `p` that did not return. -/
theorem Run.of_bind {p : Program Op Ans ε α} {f : α → Program Op Ans ε β} {s u : σ}
    {tr : List (Event Op Ans σ)} {r : Outcome ε β} (h : Run E (p.bind f) s tr r u) :
    (∃ tr₁ tr₂ a t, tr = tr₁ ++ tr₂ ∧ Run E p s tr₁ (.returned a) t ∧ Run E (f a) t tr₂ r u) ∨
      ∃ r' : Outcome ε α, r'.Stopped r ∧ Run E p s tr r' u := by
  induction p generalizing s tr with
  | done a => exact .inl ⟨[], tr, a, s, rfl, .done, h⟩
  | fail e =>
    rw [fail_bind] at h
    cases h with
    | fail => exact .inr ⟨_, .failed, .fail⟩
    | cut => exact .inr ⟨_, .cut, .cut⟩
  | cut =>
    rw [cut_bind] at h
    cases h
    exact .inr ⟨_, .cut, .cut⟩
  | ask o k ih =>
    rw [ask_bind] at h
    cases h with
    | cut => exact .inr ⟨_, .cut, .cut⟩
    | ask hm ha hr =>
      rcases ih _ hr with ⟨tr₁, tr₂, a, t, rfl, h₁, h₂⟩ | ⟨r', hstopped, h'⟩
      · exact .inl ⟨_, tr₂, a, t, rfl, .ask hm ha h₁, h₂⟩
      · exact .inr ⟨r', hstopped, .ask hm ha h'⟩

/-- A run of `p` that returned, followed by one of `f`, is a run of `p` then `f`. -/
theorem Run.bind {p : Program Op Ans ε α} {f : α → Program Op Ans ε β} {s t u : σ}
    {tr tr' : List (Event Op Ans σ)} {a : α} {r : Outcome ε β} (h : Run E p s tr (.returned a) t)
    (h' : Run E (f a) t tr' r u) : Run E (p.bind f) s (tr ++ tr') r u := by
  generalize hr : (Outcome.returned a : Outcome ε α) = end' at h
  induction h with
  | done =>
    cases hr
    exact h'
  | fail => cases hr
  | cut => cases hr
  | ask hm ha _ ih => exact .ask hm ha (ih h' hr)

theorem Run.bind_stopped {p : Program Op Ans ε α} {f : α → Program Op Ans ε β} {s u : σ}
    {tr : List (Event Op Ans σ)} {r : Outcome ε α} {r' : Outcome ε β} (h : Run E p s tr r u)
    (hr : r.Stopped r') : Run E (p.bind f) s tr r' u := by
  induction h with
  | done => cases hr
  | fail =>
    cases hr
    exact .fail
  | cut =>
    cases hr
    exact .cut
  | ask hm ha _ ih => exact .ask hm ha (ih hr)

theorem Run.dropped {p : Program Op Ans ε α} {s u : σ} {tr : List (Event Op Ans σ)}
    {r : Outcome ε α} (h : Run E p s tr r u) : Run E p s tr .cut u := by
  induction h with
  | done => exact .cut
  | fail => exact .cut
  | cut => exact .cut
  | ask hm ha _ ih => exact .ask hm ha ih

theorem Run.of_mapFail {f : ε → ε'} {p : Program Op Ans ε α} {s u : σ} {tr : List (Event Op Ans σ)}
    {r : Outcome ε' α} (h : Run E (p.mapFail f) s tr r u) :
    ∃ r' : Outcome ε α, Run E p s tr r' u ∧ ∀ a, r = .returned a → r' = .returned a := by
  induction p generalizing s tr with
  | done a =>
    cases h with
    | done => exact ⟨_, .done, fun _ h => by cases h; rfl⟩
    | cut => exact ⟨.cut, .cut, nofun⟩
  | fail e =>
    cases h with
    | fail => exact ⟨_, .fail, nofun⟩
    | cut => exact ⟨.cut, .cut, nofun⟩
  | cut => cases h; exact ⟨.cut, .cut, nofun⟩
  | ask o k ih =>
    cases h with
    | cut => exact ⟨.cut, .cut, nofun⟩
    | ask hm ha hr =>
      obtain ⟨r', h', hr'⟩ := ih _ hr
      exact ⟨r', .ask hm ha h', hr'⟩

/-- A run whose last operation was answered so that the program asks another is dropped there. -/
theorem Run.cut_of_goesOn {B : (o : Op) → Ans o → Prop} {p : Program Op Ans ε α} (hp : p.GoesOn B)
    {s u : σ} {tr : List (Event Op Ans σ)} {e : Event Op Ans σ} {r : Outcome ε α}
    (h : Run E p s (tr ++ [e]) r u) (he : B e.op e.ans) : r = .cut := by
  induction tr generalizing p s with
  | nil =>
    rw [List.nil_append] at h
    cases h with
    | ask hm ha hr =>
      obtain ⟨o', k', hk⟩ := (hp _).1 he
      rw [hk] at hr
      cases hr
      rfl
  | cons e' tr ih =>
    rw [List.cons_append] at h
    cases h with
    | ask hm ha hr => exact ih (hp _).2 hr

theorem Run.returns {Q : α → Prop} {p : Program Op Ans ε α} {s u : σ} {tr : List (Event Op Ans σ)}
    {a : α} (h : Run E p s tr (.returned a) u) (hp : p.Returns Q) : Q a := by
  generalize hr : (Outcome.returned a : Outcome ε α) = r at h
  induction h with
  | done =>
    cases hr
    exact hp
  | fail => cases hr
  | cut => cases hr
  | ask hm ha hrest ih => exact ih (hp _) hr

theorem Run.asked {K : Op → Prop} {p : Program Op Ans ε α} {s u : σ} {tr : List (Event Op Ans σ)}
    {r : Outcome ε α} (h : Run E p s tr r u) (hp : p.Asks K) : ∀ e ∈ tr, K e.op := by
  induction h with
  | done => exact fun e he => absurd he List.not_mem_nil
  | fail => exact fun e he => absurd he List.not_mem_nil
  | cut => exact fun e he => absurd he List.not_mem_nil
  | ask hm ha hrest ih =>
    intro e he
    rcases List.mem_cons.mp he with rfl | he
    · exact hp.1
    · exact ih (hp.2 _) e he

/-- An answer the program fails with is the run's last: it fails so, or is dropped there. -/
theorem Run.failed_of_failsOn {F : (o : Op) → Ans o → ε → Prop} {p : Program Op Ans ε α} {s u : σ}
    {tr : List (Event Op Ans σ)} {r : Outcome ε α} {e : Event Op Ans σ} {x : ε}
    (h : Run E p s tr r u) (hp : p.FailsOn F) (he : e ∈ tr) (hx : F e.op e.ans x) :
    tr.getLast? = some e ∧ (r = .failed x ∨ r = .cut) := by
  induction h with
  | done => cases he
  | fail => cases he
  | cut => cases he
  | ask hm ha hrest ih =>
    rcases List.mem_cons.mp he with rfl | he
    · rw [(hp _).1 x hx] at hrest
      cases hrest with
      | fail => exact ⟨rfl, .inl rfl⟩
      | cut => exact ⟨rfl, .inr rfl⟩
    · obtain ⟨hlast, hr⟩ := ih (hp _).2 he
      exact ⟨by rw [List.getLast?_cons, hlast]; rfl, hr⟩

/-! ### Guarantees -/

/-- Every event satisfies `G` at the events before it. -/
def Every (G : List (Event Op Ans σ) → Event Op Ans σ → Prop) (h : List (Event Op Ans σ)) : Prop :=
  ∀ pre e post, h = pre ++ e :: post → G pre e

/-- The events `tr`, coming after `h`, satisfy `G`. -/
def EveryAfter (G : List (Event Op Ans σ) → Event Op Ans σ → Prop)
    (h tr : List (Event Op Ans σ)) : Prop :=
  Every (fun pre e => G (h ++ pre) e) tr

variable {G : List (Event Op Ans σ) → Event Op Ans σ → Prop}

theorem every_nil : Every G [] := fun pre _ _ h => by cases pre <;> cases h

theorem every_cons_iff {e : Event Op Ans σ} {tr : List (Event Op Ans σ)} :
    Every G (e :: tr) ↔ G [] e ∧ Every (fun pre => G (e :: pre)) tr := by
  constructor
  · intro h
    exact ⟨h [] e tr rfl, fun pre e' post hs => h (e :: pre) e' post (by rw [hs]; rfl)⟩
  · rintro ⟨h₁, h₂⟩ pre e' post hs
    cases pre with
    | nil =>
      obtain ⟨rfl, rfl⟩ := List.cons.inj hs
      exact h₁
    | cons a pre =>
      obtain ⟨rfl, rfl⟩ := List.cons.inj hs
      exact h₂ pre e' post rfl

theorem every_append_iff {h tr : List (Event Op Ans σ)} :
    Every G (h ++ tr) ↔ Every G h ∧ EveryAfter G h tr := by
  induction h generalizing G with
  | nil => exact ⟨fun h => ⟨every_nil, h⟩, And.right⟩
  | cons e h ih =>
    rw [List.cons_append, every_cons_iff, every_cons_iff, ih, and_assoc]
    rfl

theorem Every.at {tr : List (Event Op Ans σ)} (h : Every G tr) {n : ℕ} {e : Event Op Ans σ}
    (he : tr[n]? = some e) : G (tr.take n) e := by
  obtain ⟨hn, rfl⟩ := List.getElem?_eq_some_iff.mp he
  exact h (tr.take n) tr[n] (tr.drop (n + 1)) (by simp)

/-- `p` started in `s` after the events `h` adds only events that satisfy `G`, and
returns only with `Q`. -/
def Safe (E : Surroundings Op Ans σ) (G : List (Event Op Ans σ) → Event Op Ans σ → Prop)
    (h : List (Event Op Ans σ)) (s : σ) (p : Program Op Ans ε α)
    (Q : α → List (Event Op Ans σ) → σ → Prop) : Prop :=
  ∀ tr r u, Run E p s tr r u → EveryAfter G h tr ∧ ∀ a, r = .returned a → Q a (h ++ tr) u

variable {h : List (Event Op Ans σ)} {s : σ} {Q R : α → List (Event Op Ans σ) → σ → Prop}

theorem Safe.done {a : α} (hq : Q a h s) : Safe E G h s (.done a : Program Op Ans ε α) Q := by
  intro tr r u hr
  cases hr with
  | done => exact ⟨every_nil, fun _ he => by cases he; simpa using hq⟩
  | cut => exact ⟨every_nil, nofun⟩

theorem Safe.fail {e : ε} : Safe E G h s (.fail e : Program Op Ans ε α) Q := by
  intro tr r u hr
  cases hr <;> exact ⟨every_nil, nofun⟩

theorem Safe.cut : Safe E G h s (.cut : Program Op Ans ε α) Q := by
  intro tr r u hr
  cases hr
  exact ⟨every_nil, nofun⟩

/-- One operation: whatever the others did before it and however it is answered, it
satisfies the guarantee and leaves `Q`. -/
theorem Safe.request {o : Op} {Q : Ans o → List (Event Op Ans σ) → σ → Prop}
    (ha : ∀ s' a t, ReflTransGen E.move s s' → E.answer s' o a t →
      G h ⟨s', o, a, t⟩ ∧ Q a (h ++ [⟨s', o, a, t⟩]) t) :
    Safe E G h s (Program.request o : Program Op Ans ε (Ans o)) Q := by
  intro tr r u hr
  cases hr with
  | cut => exact ⟨every_nil, nofun⟩
  | ask hm hans hr =>
    obtain ⟨hg, hq⟩ := ha _ _ _ hm hans
    cases hr with
    | done =>
      exact ⟨every_cons_iff.mpr ⟨by simpa using hg, every_nil⟩, fun _ he => by cases he; exact hq⟩
    | cut => exact ⟨every_cons_iff.mpr ⟨by simpa using hg, every_nil⟩, nofun⟩

/-- Sequencing: `f` starts after the events `p` added, with what `p` left. -/
theorem Safe.bind {p : Program Op Ans ε α} {f : α → Program Op Ans ε β}
    {Q : β → List (Event Op Ans σ) → σ → Prop} (hp : Safe E G h s p R)
    (hf : ∀ a tr t, R a (h ++ tr) t → Safe E G (h ++ tr) t (f a) Q) :
    Safe E G h s (p.bind f) Q := by
  intro tr r u hr
  rcases hr.of_bind with ⟨tr₁, tr₂, a, t, rfl, h₁, h₂⟩ | ⟨r', hstopped, h'⟩
  · obtain ⟨g₁, q₁⟩ := hp _ _ _ h₁
    obtain ⟨g₂, q₂⟩ := hf a tr₁ t (q₁ a rfl) _ _ _ h₂
    refine ⟨?_, fun b hb => by rw [← List.append_assoc]; exact q₂ b hb⟩
    refine every_append_iff.mpr ⟨g₁, fun pre e post hs => ?_⟩
    show G (h ++ (tr₁ ++ pre)) e
    rw [← List.append_assoc]
    exact g₂ pre e post hs
  · exact ⟨(hp _ _ _ h').1, fun b hb => absurd hb (hstopped.ne_returned b)⟩

theorem Safe.mono {p : Program Op Ans ε α} (hp : Safe E G h s p R)
    (hq : ∀ a tr t, R a (h ++ tr) t → Q a (h ++ tr) t) : Safe E G h s p Q :=
  fun tr r u hr => ⟨(hp tr r u hr).1, fun a he => hq a tr u ((hp tr r u hr).2 a he)⟩

/-- What a program leaves under one guarantee it leaves under every other. -/
theorem Safe.and {G' : List (Event Op Ans σ) → Event Op Ans σ → Prop} {p : Program Op Ans ε α}
    (hp : Safe E G h s p Q) (hp' : Safe E G' h s p R) :
    Safe E G h s p fun a h t => Q a h t ∧ R a h t :=
  fun tr r u hr => ⟨(hp tr r u hr).1, fun a he => ⟨(hp tr r u hr).2 a he, (hp' tr r u hr).2 a he⟩⟩

theorem Safe.mapFail {f : ε → ε'} {p : Program Op Ans ε α} (hp : Safe E G h s p Q) :
    Safe E G h s (p.mapFail f) Q := by
  intro tr r u hr
  obtain ⟨r', h', hr'⟩ := hr.of_mapFail
  exact ⟨(hp _ _ _ h').1, fun a he => (hp _ _ _ h').2 a (hr' a he)⟩

theorem Safe.ofExcept {x : Except ε α} (hq : ∀ a, x = .ok a → Q a h s) :
    Safe E G h s (Program.ofExcept x : Program Op Ans ε α) Q := by
  cases x with
  | ok a => exact .done (hq a rfl)
  | error e => exact .fail

theorem Safe.bind_ofExcept {x : Except ε α} {f : α → Program Op Ans ε β}
    {Q : β → List (Event Op Ans σ) → σ → Prop} (hf : ∀ a, x = .ok a → Safe E G h s (f a) Q) :
    Safe E G h s ((Program.ofExcept x).bind f) Q := by
  cases x with
  | ok a => exact hf a rfl
  | error e => exact .fail

/-- A loop: `I` holds before every round, and a round that returns leaves `Q`. -/
theorem Safe.iterate {body : β → Program Op Ans ε (β ⊕ α)}
    {I : β → List (Event Op Ans σ) → σ → Prop}
    (hb : ∀ b h s, I b h s → Safe E G h s (body b) fun x h t => match x with
      | .inl b' => I b' h t
      | .inr a => Q a h t) (n : ℕ) :
    ∀ b h s, I b h s → Safe E G h s (Program.iterate body n b) Q := by
  induction n with
  | zero => exact fun _ _ _ _ => .cut
  | succ n ih =>
    intro b h s hi
    refine (hb b h s hi).bind fun x tr t hx => ?_
    cases x with
    | inl b' => exact ih b' _ t hx
    | inr a => exact .done hx

/-- A program that asks only operations in `K`: `I` stays true while others move, and
through each of these, which satisfy the guarantee. -/
theorem Safe.asks {K : Op → Prop} {I : List (Event Op Ans σ) → σ → Prop} {p : Program Op Ans ε α}
    (hK : p.Asks K) (hmove : ∀ h s t, I h s → E.move s t → I h t)
    (hans : ∀ h s o a t, I h s → K o → E.answer s o a t → G h ⟨s, o, a, t⟩ ∧
      I (h ++ [⟨s, o, a, t⟩]) t)
    (hs : I h s) : Safe E G h s p fun _ h' t => I h' t := by
  induction p generalizing h s with
  | done a => exact .done hs
  | fail e => exact .fail
  | cut => exact .cut
  | ask o k ih =>
    refine Safe.bind (R := fun _ h' t => I h' t) (p := Program.request o)
      (.request fun s' a t hm ha => ?_)
      fun a _ t ht => ih a (hK.2 a) ht
    exact hans h s' o a t (E.moves_keep (hmove h) hs hm) hK.1 ha

/-! ### What holds of every run -/

section Runs

variable {p : Program Op Ans ε α} {s u : σ} {tr : List (Event Op Ans σ)} {r : Outcome ε α}

theorem Run.answered (h : Run E p s tr r u) : ∀ e ∈ tr, E.answer e.before e.op e.ans e.after := by
  induction h with
  | done => exact fun e he => absurd he List.not_mem_nil
  | fail => exact fun e he => absurd he List.not_mem_nil
  | cut => exact fun e he => absurd he List.not_mem_nil
  | ask hm ha hr ih =>
    intro e he
    rcases List.mem_cons.mp he with rfl | he
    · exact ha
    · exact ih e he

/-- What others and every event of the run keep holds before each event, and at the end. -/
theorem Run.keeps {I : σ → Prop} (h : Run E p s tr r u) (hmove : ∀ s t, I s → E.move s t → I t)
    (htr : ∀ e ∈ tr, I e.before → I e.after) (hs : I s) : I u ∧ ∀ e ∈ tr, I e.before := by
  induction h with
  | done => exact ⟨hs, fun e he => absurd he List.not_mem_nil⟩
  | fail => exact ⟨hs, fun e he => absurd he List.not_mem_nil⟩
  | cut => exact ⟨hs, fun e he => absurd he List.not_mem_nil⟩
  | ask hm ha hr ih =>
    have hbefore := E.moves_keep hmove hs hm
    obtain ⟨hu, hall⟩ := ih (fun e he => htr e (List.mem_cons_of_mem _ he))
      (htr _ List.mem_cons_self hbefore)
    refine ⟨hu, fun e he => ?_⟩
    rcases List.mem_cons.mp he with rfl | he
    · exact hbefore
    · exact hall e he

/-- The states of a run one after another, in an order that others and answers go up in. -/
theorem Run.ordered (h : Run E p s tr r u) (ρ : σ → σ → Prop) (hrefl : ∀ s, ρ s s)
    (htrans : ∀ s t u, ρ s t → ρ t u → ρ s u) (hmove : ∀ s t, E.move s t → ρ s t)
    (hanswer : ∀ s o a t, E.answer s o a t → ρ s t) :
    ρ s u ∧ (∀ e ∈ tr, ρ s e.before ∧ ρ e.after u) ∧
      tr.Pairwise fun e e' => ρ e.after e'.before := by
  induction h with
  | done => exact ⟨hrefl _, fun e he => absurd he List.not_mem_nil, .nil⟩
  | fail => exact ⟨hrefl _, fun e he => absurd he List.not_mem_nil, .nil⟩
  | cut => exact ⟨hrefl _, fun e he => absurd he List.not_mem_nil, .nil⟩
  | @ask o k s s' t u a tr r hm ha hr ih =>
    obtain ⟨hend, hall, hpairs⟩ := ih
    have hbefore : ρ s s' :=
      E.moves_keep (I := ρ s) (fun _ _ ht hstep => htrans _ _ _ ht (hmove _ _ hstep)) (hrefl s) hm
    have hfirst := htrans _ _ _ hbefore (hanswer _ _ _ _ ha)
    refine ⟨htrans _ _ _ hfirst hend, fun e he => ?_, List.pairwise_cons.mpr
      ⟨fun e he => (hall e he).1, hpairs⟩⟩
    rcases List.mem_cons.mp he with rfl | he
    · exact ⟨hbefore, hend⟩
    · exact ⟨htrans _ _ _ hfirst (hall e he).1, (hall e he).2⟩

/-- The surroundings as long as they stay within `P`. -/
def Surroundings.within (E : Surroundings Op Ans σ) (P : σ → Prop) : Surroundings Op Ans σ where
  move s t := E.move s t ∧ P t
  answer s o a t := E.answer s o a t ∧ P t

/-- A run that ends within `P` stayed within it, when nothing leads into `P` from outside. -/
theorem Run.within {P : σ → Prop} (h : Run E p s tr r u) (hmove : ∀ s t, E.move s t → P t → P s)
    (hanswer : ∀ s o a t, E.answer s o a t → P t → P s) (hu : P u) :
    Run (E.within P) p s tr r u ∧ P s := by
  have hmoves : ∀ s t, ReflTransGen E.move s t → P t → ReflTransGen (E.within P).move s t ∧
      P s := by
    intro s t hm
    induction hm with
    | refl => exact fun ht => ⟨.refl, ht⟩
    | tail _ hstep ih =>
      intro ht
      obtain ⟨hmoves, hs⟩ := ih (hmove _ _ hstep ht)
      exact ⟨hmoves.tail ⟨hstep, ht⟩, hs⟩
  induction h with
  | done => exact ⟨.done, hu⟩
  | fail => exact ⟨.fail, hu⟩
  | cut => exact ⟨.cut, hu⟩
  | ask hm ha hr ih =>
    obtain ⟨hrest, ht⟩ := ih hu
    obtain ⟨hm', hs⟩ := hmoves _ _ hm (hanswer _ _ _ _ ha ht)
    exact ⟨.ask hm' ⟨ha, ht⟩ hrest, hs⟩

end Runs

/-! ### Chains of runs -/

/-- Runs of programs in `P`, one after another, `rest` what happens in between: the events
of each. -/
inductive Chain (E : Surroundings Op Ans σ) (P : Program Op Ans ε α → Prop) (rest : σ → σ → Prop) :
    σ → List (List (Event Op Ans σ)) → σ → Prop
  /-- No run yet. -/
  | nil {s : σ} : Chain E P rest s [] s
  /-- One more run. -/
  | run {p : Program Op Ans ε α} {s t t' u : σ} {runs : List (List (Event Op Ans σ))}
      {tr : List (Event Op Ans σ)} {r : Outcome ε α} :
      Chain E P rest s runs t → rest t t' → P p → Run E p t' tr r u →
        Chain E P rest s (runs ++ [tr]) u

section Chains

variable {P : Program Op Ans ε α → Prop} {rest : σ → σ → Prop} {s u : σ}
  {runs : List (List (Event Op Ans σ))}

/-- What every run starts and ends with, and what holds of the events of each. -/
theorem Chain.invariant {I : σ → Prop} {C : List (Event Op Ans σ) → Prop}
    (h : Chain E P rest s runs u)
    (hrun : ∀ p t t' tr r u, I t → rest t t' → P p → Run E p t' tr r u → C tr ∧ I u)
    (hs : I s) : (∀ tr ∈ runs, C tr) ∧ I u := by
  induction h with
  | nil => exact ⟨fun tr htr => absurd htr List.not_mem_nil, hs⟩
  | run _ hrest hp hr ih =>
    obtain ⟨hruns, ht⟩ := ih hs
    obtain ⟨htr, hu⟩ := hrun _ _ _ _ _ _ ht hrest hp hr
    refine ⟨fun tr h => ?_, hu⟩
    rcases List.mem_append.mp h with h | h
    · exact hruns tr h
    · exact List.mem_singleton.mp h ▸ htr

/-- A chain that ends within `I` stayed within it, when nothing leads into `I` from outside. -/
theorem Chain.within {I : σ → Prop} (h : Chain E P rest s runs u)
    (hrest : ∀ s t, rest s t → I t → I s) (hmove : ∀ s t, E.move s t → I t → I s)
    (hanswer : ∀ s o a t, E.answer s o a t → I t → I s) (hu : I u) :
    Chain (E.within I) P (fun s t => rest s t ∧ I t) s runs u ∧ I s := by
  induction h with
  | nil => exact ⟨.nil, hu⟩
  | run _ hr hp hrun ih =>
    obtain ⟨hrun', ht'⟩ := hrun.within hmove hanswer hu
    obtain ⟨hchain, hs⟩ := ih (hrest _ _ hr ht')
    exact ⟨hchain.run ⟨hr, ht'⟩ hp hrun', hs⟩

end Chains

/-! ### Executing a run -/

/-- The run in which the surroundings answer by `respond` and nobody else moves. -/
def exec (respond : σ → (o : Op) → Ans o × σ) :
    Program Op Ans ε α → σ → List (Event Op Ans σ) × Outcome ε α × σ
  | .done a, s => ([], .returned a, s)
  | .fail e, s => ([], .failed e, s)
  | .cut, s => ([], .cut, s)
  | .ask o k, s =>
    let rest := exec respond (k (respond s o).1) (respond s o).2
    (⟨s, o, (respond s o).1, (respond s o).2⟩ :: rest.1, rest.2)

theorem run_exec {respond : σ → (o : Op) → Ans o × σ}
    (ha : ∀ s o, E.answer s o (respond s o).1 (respond s o).2) (p : Program Op Ans ε α)
    (s : σ) : Run E p s (exec respond p s).1 (exec respond p s).2.1 (exec respond p s).2.2 := by
  induction p generalizing s with
  | done => exact .done
  | fail => exact .fail
  | cut => exact .cut
  | ask o k ih => exact .ask .refl (ha s o) (ih _ _)

theorem exec_answered {respond : σ → (o : Op) → Ans o × σ} {p : Program Op Ans ε α} {s : σ}
    {e : Event Op Ans σ} (he : e ∈ (exec respond p s).1) :
    e.ans = (respond e.before e.op).1 ∧ e.after = (respond e.before e.op).2 := by
  induction p generalizing s with
  | done => cases he
  | fail => cases he
  | cut => cases he
  | ask o k ih =>
    rcases List.mem_cons.mp he with rfl | he
    · exact ⟨rfl, rfl⟩
    · exact ih _ he

end Mailbag.Interaction
