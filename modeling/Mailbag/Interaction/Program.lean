import Mathlib.Data.List.Basic
import Mathlib.Logic.Relation

/-!
# Programs that ask their surroundings

A sequential program that computes with pure functions and, between them, asks
its surroundings to do something: read or write a store, send a command to a
server, wait for an answer. `Program Op Ans ε α` is such a program as the tree
of what it asks: `o : Op` is what it may ask, `Ans o` the type of the answer,
`ε` what it fails with and `α` what it returns. Nothing here says what the
surroundings do; `Interaction.Run` runs a program against them.

A program is built with `do`; a failure ends it there, as `?` does in the code
such a program is written from. A loop whose number of rounds nothing bounds is
`iterate`, which follows a given number of rounds and then `cut`s: what is said
of the program for every number of rounds is said of every beginning of it.
-/

namespace Mailbag.Interaction

/-- A program that asks operations `o : Op`, answered in `Ans o`, fails with an
`ε` and returns an `α`. -/
inductive Program (Op : Type) (Ans : Op → Type) (ε α : Type) : Type where
  /-- The program returns. -/
  | done (a : α)
  /-- The program fails. -/
  | fail (e : ε)
  /-- The program is followed no further. -/
  | cut
  /-- The program asks `o` and goes on with the answer. -/
  | ask (o : Op) (k : Ans o → Program Op Ans ε α)

namespace Program

variable {Op : Type} {Ans : Op → Type} {ε ε' α β γ : Type}

/-- Run `p`, then `f` on what it returned. -/
def bind : Program Op Ans ε α → (α → Program Op Ans ε β) → Program Op Ans ε β
  | .done a, f => f a
  | .fail e, _ => .fail e
  | .cut, _ => .cut
  | .ask o k, f => .ask o fun r => (k r).bind f

instance : Monad (Program Op Ans ε) where
  pure := .done
  bind := bind

/-- Ask `o` and return the answer. -/
def request (o : Op) : Program Op Ans ε (Ans o) := .ask o .done

/-- The program with what it fails with read another way. -/
def mapFail (f : ε → ε') : Program Op Ans ε α → Program Op Ans ε' α
  | .done a => .done a
  | .fail e => .fail (f e)
  | .cut => .cut
  | .ask o k => .ask o fun r => (k r).mapFail f

/-- The result as a program: an error fails. -/
def ofExcept : Except ε α → Program Op Ans ε α
  | .ok a => .done a
  | .error e => .fail e

/-- At most `n` rounds of `body`, each starting from what the one before left,
until a round returns. -/
def iterate (body : β → Program Op Ans ε (β ⊕ α)) : ℕ → β → Program Op Ans ε α
  | 0, _ => .cut
  | n + 1, b => (body b).bind fun
    | .inl b' => iterate body n b'
    | .inr a => .done a

@[simp] theorem pure_eq (a : α) : (pure a : Program Op Ans ε α) = .done a := rfl

@[simp] theorem bind_eq (p : Program Op Ans ε α) (f : α → Program Op Ans ε β) :
    p >>= f = p.bind f := rfl

@[simp] theorem done_bind (a : α) (f : α → Program Op Ans ε β) : (Program.done a).bind f = f a :=
  rfl

@[simp] theorem fail_bind (e : ε) (f : α → Program Op Ans ε β) :
    (Program.fail e).bind f = .fail e := rfl

@[simp] theorem cut_bind (f : α → Program Op Ans ε β) : Program.cut.bind f = .cut := rfl

@[simp] theorem ask_bind (o : Op) (k : Ans o → Program Op Ans ε α) (f : α → Program Op Ans ε β) :
    (Program.ask o k).bind f = .ask o fun r => (k r).bind f := rfl

theorem bind_assoc (p : Program Op Ans ε α) (f : α → Program Op Ans ε β)
    (g : β → Program Op Ans ε γ) : (p.bind f).bind g = p.bind fun a => (f a).bind g := by
  induction p with
  | done => rfl
  | fail => rfl
  | cut => rfl
  | ask o k ih => exact congrArg (Program.ask o) (funext ih)

theorem mapFail_bind (g : ε → ε') (p : Program Op Ans ε α) (f : α → Program Op Ans ε β) :
    (p.bind f).mapFail g = (p.mapFail g).bind fun a => (f a).mapFail g := by
  induction p with
  | done => rfl
  | fail => rfl
  | cut => rfl
  | ask o k ih => exact congrArg (Program.ask o) (funext ih)

/-! ### What a program asks -/

/-- Every operation the program may ask, whatever it is answered, is in `K`. -/
def Asks (K : Op → Prop) : Program Op Ans ε α → Prop
  | .done _ => True
  | .fail _ => True
  | .cut => True
  | .ask o k => K o ∧ ∀ r, (k r).Asks K

variable {K K' : Op → Prop}

theorem Asks.bind {p : Program Op Ans ε α} {f : α → Program Op Ans ε β} (hp : p.Asks K)
    (hf : ∀ a, (f a).Asks K) : (p.bind f).Asks K := by
  induction p with
  | done a => exact hf a
  | fail => trivial
  | cut => trivial
  | ask o k ih => exact ⟨hp.1, fun r => ih r (hp.2 r)⟩

theorem Asks.mono (hK : ∀ o, K o → K' o) {p : Program Op Ans ε α} (hp : p.Asks K) : p.Asks K' := by
  induction p with
  | done => trivial
  | fail => trivial
  | cut => trivial
  | ask o k ih => exact ⟨hK o hp.1, fun r => ih r (hp.2 r)⟩

theorem Asks.request {o : Op} (ho : K o) : (request o : Program Op Ans ε (Ans o)).Asks K :=
  ⟨ho, fun _ => trivial⟩

theorem Asks.mapFail {f : ε → ε'} {p : Program Op Ans ε α} (hp : p.Asks K) :
    (p.mapFail f).Asks K := by
  induction p with
  | done => trivial
  | fail => trivial
  | cut => trivial
  | ask o k ih => exact ⟨hp.1, fun r => ih r (hp.2 r)⟩

theorem Asks.ofExcept (x : Except ε α) : (ofExcept x : Program Op Ans ε α).Asks K := by
  cases x <;> trivial

/-! ### What a program does not end with -/

/-- After an operation answered so that `B` holds, the program asks another. -/
def GoesOn (B : (o : Op) → Ans o → Prop) : Program Op Ans ε α → Prop
  | .done _ => True
  | .fail _ => True
  | .cut => True
  | .ask o k => ∀ r, (B o r → ∃ o' k', k r = .ask o' k') ∧ (k r).GoesOn B

variable {B : (o : Op) → Ans o → Prop}

theorem GoesOn.bind {p : Program Op Ans ε α} {f : α → Program Op Ans ε β} (hp : p.GoesOn B)
    (hf : ∀ a, (f a).GoesOn B) : (p.bind f).GoesOn B := by
  induction p with
  | done a => exact hf a
  | fail => trivial
  | cut => trivial
  | ask o k ih =>
    refine fun r => ⟨fun hB => ?_, ih r (hp r).2⟩
    obtain ⟨o', k', hk⟩ := (hp r).1 hB
    exact ⟨o', _, congrArg (Program.bind · f) hk⟩

theorem GoesOn.of_asks (hK : ∀ o r, K o → ¬B o r) {p : Program Op Ans ε α} (hp : p.Asks K) :
    p.GoesOn B := by
  induction p with
  | done => trivial
  | fail => trivial
  | cut => trivial
  | ask o k ih => exact fun r => ⟨fun hB => absurd hB (hK o r hp.1), ih r (hp.2 r)⟩

/-! ### What a program returns -/

/-- Whatever it is answered, the program returns only what satisfies `Q`. -/
def Returns (Q : α → Prop) : Program Op Ans ε α → Prop
  | .done a => Q a
  | .fail _ => True
  | .cut => True
  | .ask _ k => ∀ r, (k r).Returns Q

variable {Q : α → Prop} {R : β → Prop}

theorem Returns.bind {p : Program Op Ans ε α} {f : α → Program Op Ans ε β} (hp : p.Returns Q)
    (hf : ∀ a, Q a → (f a).Returns R) : (p.bind f).Returns R := by
  induction p with
  | done a => exact hf a hp
  | fail => trivial
  | cut => trivial
  | ask o k ih => exact fun r => ih r (hp r)

/-- Of what a program returns nothing need be known. -/
theorem Returns.unknown (p : Program Op Ans ε α) : p.Returns fun _ => True := by
  induction p with
  | done => trivial
  | fail => trivial
  | cut => trivial
  | ask o k ih => exact ih

/-! ### Which answers a program fails with -/

/-- After an operation answered so that `F` says what to fail with, the program fails so. -/
def FailsOn (F : (o : Op) → Ans o → ε → Prop) : Program Op Ans ε α → Prop
  | .done _ => True
  | .fail _ => True
  | .cut => True
  | .ask o k => ∀ r, (∀ e, F o r e → k r = .fail e) ∧ (k r).FailsOn F

variable {F : (o : Op) → Ans o → ε → Prop}

theorem FailsOn.bind {p : Program Op Ans ε α} {f : α → Program Op Ans ε β} (hp : p.FailsOn F)
    (hf : ∀ a, (f a).FailsOn F) : (p.bind f).FailsOn F := by
  induction p with
  | done a => exact hf a
  | fail => trivial
  | cut => trivial
  | ask o k ih =>
    refine fun r => ⟨fun e he => ?_, ih r (hp r).2⟩
    exact congrArg (Program.bind · f) ((hp r).1 e he)

theorem FailsOn.of_asks (hK : ∀ o r e, K o → ¬F o r e) {p : Program Op Ans ε α}
    (hp : p.Asks K) : p.FailsOn F := by
  induction p with
  | done => trivial
  | fail => trivial
  | cut => trivial
  | ask o k ih => exact fun r => ⟨fun e he => absurd he (hK o r e hp.1), ih r (hp.2 r)⟩

end Program

end Mailbag.Interaction
