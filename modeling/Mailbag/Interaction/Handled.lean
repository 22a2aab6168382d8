import Mailbag.Interaction.Failing

/-!
# Operations carried out by programs

What one program asks in a single operation, another may carry out in several: a request and
its repetition, an exchange for each page of an answer. A `Handler` is such a program for each
operation, with a state it keeps from one to the next; `handledBy` is the program with every
operation carried out so. `among` is a program whose operations are some of those of a larger
one, and `attempt` a program whose failure is a result.

## What is proved

* `Run.of_among` — a run among others is a run of the program.
* `Run.of_handledBy` — where every completed handling is an answer the surroundings may give,
  a run of the handled program is a run of the program, operation by operation (`Carried`).
* `SafeOr.handledBy` — what every handling keeps, the handled program keeps, up to an answer
  the program fails with.
-/

namespace Mailbag.Interaction

open Program Relation

variable {Op Op' : Type} {Ans : Op → Type} {Ans' : Op' → Type} {σ ε ε' α β τ : Type}

/-! ### A failure as a result -/

/-- The program with its failure returned. -/
def Program.attempt : Program Op Ans ε α → Program Op Ans ε' (Except ε α)
  | .done a => .done (.ok a)
  | .fail e => .done (.error e)
  | .cut => .cut
  | .ask o k => .ask o fun r => (k r).attempt

/-- What an attempt returns when the program ends so. -/
def Outcome.attempted : Outcome ε α → Outcome ε' (Except ε α)
  | .returned a => .returned (.ok a)
  | .failed e => .returned (.error e)
  | .cut => .cut

theorem Run.of_attempt {E : Surroundings Op Ans σ} {p : Program Op Ans ε α} {s u : σ}
    {tr : List (Event Op Ans σ)} {r : Outcome ε' (Except ε α)} (h : Run E p.attempt s tr r u) :
    ∃ r' : Outcome ε α, Run E p s tr r' u ∧ (r = r'.attempted ∨ r = .cut) := by
  induction p generalizing s tr with
  | done a =>
    cases h with
    | done => exact ⟨_, .done, .inl rfl⟩
    | cut => exact ⟨_, .cut, .inr rfl⟩
  | fail e =>
    cases h with
    | done => exact ⟨_, .fail, .inl rfl⟩
    | cut => exact ⟨_, .cut, .inr rfl⟩
  | cut =>
    cases h
    exact ⟨_, .cut, .inr rfl⟩
  | ask o k ih =>
    cases h with
    | cut => exact ⟨_, .cut, .inr rfl⟩
    | ask hm ha hr =>
      obtain ⟨r', hrun, hend⟩ := ih _ hr
      exact ⟨r', .ask hm ha hrun, hend⟩

theorem Program.Asks.attempt {K : Op → Prop} {p : Program Op Ans ε α} (hp : p.Asks K) :
    (p.attempt : Program Op Ans ε' (Except ε α)).Asks K := by
  induction p with
  | done => trivial
  | fail => trivial
  | cut => trivial
  | ask o k ih => exact ⟨hp.1, fun r => ih r (hp.2 r)⟩

section Attempt

variable {E : Surroundings Op Ans σ} {G : List (Event Op Ans σ) → Event Op Ans σ → Prop}
  {h : List (Event Op Ans σ)} {s : σ} {Q : α → List (Event Op Ans σ) → σ → Prop}
  {F : ε → List (Event Op Ans σ) → σ → Prop} {F' : ε' → List (Event Op Ans σ) → σ → Prop}

/-- An attempt leaves what the program leaves when it returns, or when it fails. -/
theorem SafeOr.attempt {p : Program Op Ans ε α} (hp : SafeOr E G h s p Q F) :
    SafeOr E G h s p.attempt (fun r h s => (∀ a, r = .ok a → Q a h s) ∧ ∀ e, r = .error e →
      F e h s) F' := by
  intro tr r u hr
  obtain ⟨r', hrun, hend⟩ := hr.of_attempt
  obtain ⟨hevery, hmeets⟩ := hp _ _ _ hrun
  refine ⟨hevery, ?_⟩
  rcases hend with rfl | rfl
  · cases r' with
    | returned a => exact ⟨fun _ h => (by cases h; exact hmeets), fun _ h => (by cases h)⟩
    | failed e => exact ⟨fun _ h => (by cases h), fun _ h => (by cases h; exact hmeets)⟩
    | cut => trivial
  · trivial

end Attempt

/-! ### Operations among others -/

/-- The program's operations as operations of a larger program. -/
def Program.among (inject : Op → Op') (read : (o : Op) → Ans' (inject o) → Ans o) :
    Program Op Ans ε α → Program Op' Ans' ε α
  | .done a => .done a
  | .fail e => .fail e
  | .cut => .cut
  | .ask o k => .ask (inject o) fun r => (k (read o r)).among inject read

theorem Program.Asks.among {K : Op' → Prop} {inject : Op → Op'}
    {read : (o : Op) → Ans' (inject o) → Ans o} {p : Program Op Ans ε α}
    (hp : p.Asks fun o => K (inject o)) : (p.among inject read).Asks K := by
  induction p with
  | done => trivial
  | fail => trivial
  | cut => trivial
  | ask o k ih => exact ⟨hp.1, fun r => ih _ (hp.2 _)⟩

/-- An event of the larger program, and what it was to the program; `π` is what the program's
surroundings are of the larger one's. -/
inductive Event.Among {σ σ' : Type} (inject : Op → Op') (read : (o : Op) → Ans' (inject o) → Ans o)
    (π : σ' → σ) : Event Op' Ans' σ' → Event Op Ans σ → Prop
  /-- One of the program's operations. -/
  | mk {s t : σ'} {o : Op} {a : Ans' (inject o)} :
      Among inject read π ⟨s, inject o, a, t⟩ ⟨π s, o, read o a, π t⟩

/-- A run among others is a run of the program. -/
theorem Run.of_among {σ' : Type} {E : Surroundings Op Ans σ} {E' : Surroundings Op' Ans' σ'}
    {inject : Op → Op'} {read : (o : Op) → Ans' (inject o) → Ans o} (π : σ' → σ)
    (hmove : ∀ s t, E'.move s t → ReflTransGen E.move (π s) (π t))
    (hanswer : ∀ s o a t, E'.answer s (inject o) a t → E.answer (π s) o (read o a) (π t))
    {p : Program Op Ans ε α} {s u : σ'} {tr : List (Event Op' Ans' σ')} {r : Outcome ε α}
    (h : Run E' (p.among inject read) s tr r u) :
    ∃ tr', List.Forall₂ (Event.Among inject read π) tr tr' ∧ Run E p (π s) tr' r (π u) := by
  have hmoves : ∀ s t, ReflTransGen E'.move s t →
      ReflTransGen E.move (π s) (π t) := fun s t hm => by
    induction hm with
    | refl => exact .refl
    | tail _ hstep ih => exact ih.trans (hmove _ _ hstep)
  induction p generalizing s tr with
  | done a =>
    cases h with
    | done => exact ⟨[], .nil, .done⟩
    | cut => exact ⟨[], .nil, .cut⟩
  | fail e =>
    cases h with
    | fail => exact ⟨[], .nil, .fail⟩
    | cut => exact ⟨[], .nil, .cut⟩
  | cut =>
    cases h
    exact ⟨[], .nil, .cut⟩
  | ask o k ih =>
    cases h with
    | cut => exact ⟨[], .nil, .cut⟩
    | ask hm ha hr =>
      obtain ⟨tr', hevents, hrun⟩ := ih _ hr
      exact ⟨_ :: tr', .cons .mk hevents, .ask (hmoves _ _ hm) (hanswer _ _ _ _ ha) hrun⟩

/-! ### Handlers -/

/-- Carries out operations, and keeps a state. It does not fail: a failure is an answer. -/
abbrev Handler (Op : Type) (Ans : Op → Type) (Op' : Type) (Ans' : Op' → Type) (τ : Type) : Type :=
  (o : Op) → τ → Program Op' Ans' Empty (Ans o × τ)

/-- The program with every operation carried out by the handler, from its state. -/
def Program.handledBy (handle : Handler Op Ans Op' Ans' τ) :
    Program Op Ans ε α → τ → Program Op' Ans' ε (α × τ)
  | .done a, t => .done (a, t)
  | .fail e, _ => .fail e
  | .cut, _ => .cut
  | .ask o k, t => ((handle o t).mapFail Empty.elim).bind fun r => (k r.1).handledBy handle r.2

/-- The events `es`, each carried out by a run of the handler, from one state of it to another. -/
inductive Carried (E : Surroundings Op' Ans' σ) (handle : Handler Op Ans Op' Ans' τ) :
    τ → List (Event Op Ans σ) → List (Event Op' Ans' σ) → τ → Prop
  /-- Nothing was asked. -/
  | nil {t : τ} : Carried E handle t [] [] t
  /-- The first operation was carried out, then the rest. -/
  | cons {t t' t'' : τ} {s : σ} {e : Event Op Ans σ} {es : List (Event Op Ans σ)}
      {tr tr' : List (Event Op' Ans' σ)} :
      Run E (handle e.op t) s tr (.returned (e.ans, t')) e.after → Carried E handle t' es tr' t'' →
        Carried E handle t (e :: es) (tr ++ tr') t''

/-- How the handled program ended, where the program ended so: the handler's state is returned
with the result. -/
inductive Outcome.Handled (t : τ) : Outcome ε α → Outcome ε (α × τ) → Prop
  /-- It returned. -/
  | returned {a : α} : Handled t (.returned a) (.returned (a, t))
  /-- It failed. -/
  | failed {e : ε} : Handled t (.failed e) (.failed e)

/-- After the events `es` the program asks `o`. -/
inductive Next : Program Op Ans ε α → List (Event Op Ans σ) → Op → Prop
  /-- At once. -/
  | here {o : Op} {k : Ans o → Program Op Ans ε α} : Next (.ask o k) [] o
  /-- After another operation. -/
  | there {o o' : Op} {k : Ans o → Program Op Ans ε α} {s t : σ} {a : Ans o}
      {es : List (Event Op Ans σ)} : Next (k a) es o' → Next (.ask o k) (⟨s, o, a, t⟩ :: es) o'

/-- A run of the handler that was followed no further, and had not carried the operation out. -/
def Unfinished (E : Surroundings Op' Ans' σ) (handle : Handler Op Ans Op' Ans' τ) (t : τ) (o : Op)
    (tr : List (Event Op' Ans' σ)) : Prop :=
  ∃ s u, Run E (handle o t) s tr .cut u ∧ ∀ r, ¬Run E (handle o t) s tr (.returned r) u

variable {E : Surroundings Op Ans σ} {E' : Surroundings Op' Ans' σ}
  {handle : Handler Op Ans Op' Ans' τ}

theorem Carried.of_append {t t'' : τ} {es es' : List (Event Op Ans σ)}
    {tr : List (Event Op' Ans' σ)} (h : Carried E' handle t (es ++ es') tr t'') :
    ∃ t' tr₁ tr₂, tr = tr₁ ++ tr₂ ∧ Carried E' handle t es tr₁ t' ∧
      Carried E' handle t' es' tr₂ t'' := by
  induction es generalizing t tr with
  | nil => exact ⟨t, [], tr, rfl, .nil, h⟩
  | cons e es ih =>
    cases h with
    | cons hrun hrest =>
      obtain ⟨t', tr₁, tr₂, rfl, h₁, h₂⟩ := ih hrest
      exact ⟨t', _, tr₂, (List.append_assoc _ _ _).symm, .cons hrun h₁, h₂⟩

theorem Carried.of_mem {t t'' : τ} {es : List (Event Op Ans σ)} {pre post : List (Event Op' Ans' σ)}
    {e' : Event Op' Ans' σ} (h : Carried E' handle t es (pre ++ e' :: post) t'') :
    ∃ es₁ e es₂ t₁ t₂ s tr₁ pre' post' tr₂, es = es₁ ++ e :: es₂ ∧ pre = tr₁ ++ pre' ∧
      post = post' ++ tr₂ ∧
      Carried E' handle t es₁ tr₁ t₁ ∧
      Run E' (handle e.op t₁) s (pre' ++ e' :: post') (.returned (e.ans, t₂)) e.after ∧
      Carried E' handle t₂ es₂ tr₂ t'' := by
  generalize htr : pre ++ e' :: post = tr at h
  induction h generalizing pre with
  | nil =>
    cases pre <;> cases htr
  | @cons t t' t'' s e es tr tr' hrun hrest ih =>
    rcases List.append_eq_append_iff.mp htr with ⟨mid, htr', hpost⟩ | ⟨mid, hpre, htr'⟩
    · cases mid with
      | nil =>
        rw [List.nil_append] at hpost
        obtain ⟨es₁, e₁, es₂, t₁, t₂, s₁, tr₁, pre', post', tr₂, rfl, hpre', rfl, h₁, h₂, h₃⟩ :=
          @ih [] hpost
        obtain ⟨rfl, rfl⟩ := List.append_eq_nil_iff.mp hpre'.symm
        refine ⟨e :: es₁, e₁, es₂, t₁, t₂, s₁, tr ++ [], [], post', tr₂, rfl, ?_, rfl,
          .cons hrun h₁, h₂, h₃⟩
        rw [List.append_nil] at htr' ⊢
        rw [htr', List.append_nil]
      | cons e₀ mid =>
        obtain ⟨rfl, rfl⟩ := List.cons.inj hpost
        exact ⟨[], e, es, t, t', s, [], pre, mid, tr', rfl, rfl, rfl, .nil, htr' ▸ hrun, hrest⟩
    · obtain ⟨es₁, e₁, es₂, t₁, t₂, s₁, tr₁, pre', post', tr₂, rfl, rfl, rfl, h₁, h₂, h₃⟩ :=
        ih htr'.symm
      exact ⟨e :: es₁, e₁, es₂, t₁, t₂, s₁, tr ++ tr₁, pre', post', tr₂,
        rfl, by rw [hpre, List.append_assoc], rfl, .cons hrun h₁,
        h₂, h₃⟩

/-- A handler's run with its failures, of which there are none, read another way. -/
theorem Run.of_mapFail_empty {p : Program Op' Ans' Empty β} {s u : σ} {tr : List (Event Op' Ans' σ)}
    {r : Outcome ε β} (h : Run E' (p.mapFail Empty.elim) s tr r u) :
    (∃ b, r = .returned b ∧ Run E' p s tr (.returned b) u) ∨
      r = .cut ∧ Run E' p s tr .cut u := by
  induction p generalizing s tr with
  | done b =>
    cases h with
    | done => exact .inl ⟨b, rfl, .done⟩
    | cut => exact .inr ⟨rfl, .cut⟩
  | fail e => exact e.elim
  | cut =>
    cases h
    exact .inr ⟨rfl, .cut⟩
  | ask o k ih =>
    cases h with
    | cut => exact .inr ⟨rfl, .cut⟩
    | ask hm ha hr =>
      rcases ih _ hr with ⟨b, rfl, h'⟩ | ⟨rfl, h'⟩
      · exact .inl ⟨b, rfl, .ask hm ha h'⟩
      · exact .inr ⟨rfl, .ask hm ha h'⟩

/-- **A run of the handled program is a run of the program**, each of whose operations a run of the
handler carried out; it was followed as far, but for a last operation that was not carried out. -/
theorem Run.of_handledBy
    (hcarried : ∀ o t s tr a t' u, Run E' (handle o t) s tr (.returned (a, t')) u → ∃ s',
      ReflTransGen E.move s s' ∧ E.answer s' o a u)
    {p : Program Op Ans ε α} {t : τ} {s u : σ} {tr : List (Event Op' Ans' σ)}
    {r : Outcome ε (α × τ)} (h : Run E' (p.handledBy handle t) s tr r u) :
    ∃ es t' done rest, Carried E' handle t es done t' ∧ tr = done ++ rest ∧
      ((rest = [] ∧ ∃ r', r'.Handled t' r ∧ Run E p s es r' u) ∨
        r = .cut ∧ (rest = [] ∨ ∃ o, Next p es o ∧ Unfinished E' handle t' o rest) ∧
          ∃ v, Run E p s es .cut v) := by
  induction p generalizing t s tr with
  | done a =>
    cases h with
    | done => exact ⟨[], t, [], [], .nil, rfl, .inl ⟨rfl, _, .returned, .done⟩⟩
    | cut => exact ⟨[], t, [], [], .nil, rfl, .inr ⟨rfl, .inl rfl, _, .cut⟩⟩
  | fail e =>
    cases h with
    | fail => exact ⟨[], t, [], [], .nil, rfl, .inl ⟨rfl, _, .failed, .fail⟩⟩
    | cut => exact ⟨[], t, [], [], .nil, rfl, .inr ⟨rfl, .inl rfl, _, .cut⟩⟩
  | cut =>
    cases h
    exact ⟨[], t, [], [], .nil, rfl, .inr ⟨rfl, .inl rfl, _, .cut⟩⟩
  | ask o k ih =>
    rcases Run.of_bind h with ⟨tr₁, tr₂, ⟨a, t₁⟩, v, rfl, h₁, h₂⟩ | ⟨r', hstopped, h'⟩
    · rcases h₁.of_mapFail_empty with ⟨b, hb, hhandled⟩ | ⟨hcut, -⟩
      · cases hb
        obtain ⟨s', hmoves, hanswer⟩ := hcarried o t s tr₁ a t₁ v hhandled
        obtain ⟨es, t', done, rest, hes, rfl, hend⟩ := ih a h₂
        refine ⟨⟨s', o, a, v⟩ :: es, t', tr₁ ++ done, rest,
          .cons hhandled hes, by rw [List.append_assoc], ?_⟩
        rcases hend with ⟨hrest, r', hr', hrun⟩ | ⟨hr, hrest, w, hrun⟩
        · exact .inl ⟨hrest, r', hr', .ask hmoves hanswer hrun⟩
        · refine .inr ⟨hr, hrest.imp_right ?_, w, .ask hmoves hanswer hrun⟩
          rintro ⟨o', hnext, hunfinished⟩
          exact ⟨o', .there hnext, hunfinished⟩
      · cases hcut
    · have hcut : r = .cut ∧ Run E' (handle o t) s tr .cut u := by
        rcases h'.of_mapFail_empty with ⟨b, rfl, -⟩ | ⟨rfl, hrun⟩
        · cases hstopped
        · cases hstopped
          exact ⟨rfl, hrun⟩
      -- the run may have been dropped only after the operation was carried out
      by_cases hreturned : ∃ b, Run E' (handle o t) s tr (.returned b) u
      · obtain ⟨⟨a, t'⟩, hhandled⟩ := hreturned
        obtain ⟨s', hmoves, hanswer⟩ := hcarried o t s tr a t' u hhandled
        exact ⟨[⟨s', o, a, u⟩], t', tr ++ [], [], .cons hhandled .nil, by simp,
          .inr ⟨hcut.1, .inl rfl, _, .ask hmoves hanswer .cut⟩⟩
      · exact ⟨[], t, [], tr, .nil, rfl,
          .inr ⟨hcut.1, .inr ⟨o, .here, s, u, hcut.2, fun b hb => hreturned ⟨b, hb⟩⟩, s, .cut⟩⟩

/-! ### What a program asks -/

/-- Surroundings in which anything may happen. -/
def anything (Op : Type) (Ans : Op → Type) (σ : Type) : Surroundings Op Ans σ :=
  ⟨fun _ _ => True, fun _ _ _ _ => True⟩

theorem Next.run {p : Program Op Ans ε α} {es : List (Event Op Ans σ)} {o : Op} (h : Next p es o)
    (s t v : σ) (a : Ans o) : Run (anything Op Ans σ) p v (es ++ [⟨s, o, a, t⟩]) .cut t := by
  induction h generalizing v with
  | here => exact .ask (.single trivial) trivial .cut
  | there _ ih => exact .ask (.single trivial) trivial (ih _ _)

/-! ### What handlings keep -/

section Safe

variable {G : List (Event Op' Ans' σ) → Event Op' Ans' σ → Prop}
  {I : τ → List (Event Op' Ans' σ) → σ → Prop} {F : (o : Op) → Ans o → ε → Prop}
  {L : ε → List (Event Op' Ans' σ) → σ → Prop}

theorem SafeOr.mapFail_empty {p : Program Op' Ans' Empty β} {h : List (Event Op' Ans' σ)} {s : σ}
    {Q : β → List (Event Op' Ans' σ) → σ → Prop} {F : ε → List (Event Op' Ans' σ) → σ → Prop}
    (hp : SafeOr E' G h s p Q fun _ _ _ => True) : SafeOr E' G h s (p.mapFail Empty.elim) Q F := by
  intro tr r u hr
  rcases hr.of_mapFail_empty with ⟨b, rfl, hrun⟩ | ⟨rfl, hrun⟩
  · exact hp _ _ _ hrun
  · exact ⟨(hp _ _ _ hrun).1, trivial⟩

/-- **What every handling keeps, the handled program keeps**: `I` before each operation, until one
is answered so that the program fails, which leaves `L`. -/
theorem SafeOr.handledBy
    (hhandle : ∀ o t h s, I t h s → SafeOr E' G h s (handle o t)
      (fun r h s => (∀ e, F o r.1 e → L e h s) ∧ ((∀ e, ¬F o r.1 e) → I r.2 h s)) fun _ _ _ => True)
    {p : Program Op Ans ε α} (hp : p.FailsOn F) {t : τ} {h : List (Event Op' Ans' σ)} {s : σ}
    (hI : I t h s) :
    SafeOr E' G h s (p.handledBy handle t) (fun r h s => I r.2 h s) fun e h s => L e h s ∨
      ∃ t, I t h s := by
  induction p generalizing t h s with
  | done a => exact .done hI
  | fail e => exact .fail (.inr ⟨t, hI⟩)
  | cut => exact .cut
  | ask o k ih =>
    refine (hhandle o t h s hI).mapFail_empty.bind fun r tr u hr => ?_
    by_cases hfails : ∃ e, F o r.1 e
    · obtain ⟨e, he⟩ := hfails
      rw [(hp r.1).1 e he]
      exact .fail (.inl (hr.1 e he))
    · exact ih r.1 (hp r.1).2 (hr.2 fun e he => hfails ⟨e, he⟩)

end Safe

end Mailbag.Interaction
