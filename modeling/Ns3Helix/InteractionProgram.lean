import Mathlib.Logic.Function.Basic

/-!
# Programs that call out in the middle

A program performs local operations on its own state and external
operations, during which control leaves it. `advance` runs the local part
up to the next external call and hands back what is left of the program.
The machine that owns the call stack decides when the rest continues, so
code that is entered again while it waits needs no special treatment here.
-/

set_option autoImplicit false

namespace Ns3Helix.InteractionProgram

structure Signature where
  Op : Type
  Answer : Op → Type

inductive Program (L X : Signature) (α : Type) : Type
  | pure (a : α)
  | perform (o : L.Op) (rest : L.Answer o → Program L X α)
  | external (o : X.Op) (rest : X.Answer o → Program L X α)

variable {L X : Signature} {α β σ ε : Type}

def Program.bind : Program L X α → (α → Program L X β) → Program L X β
  | .pure a, f => f a
  | .perform o k, f => .perform o (fun r => (k r).bind f)
  | .external o k, f => .external o (fun r => (k r).bind f)

instance : Monad (Program L X) where
  pure := .pure
  bind := .bind

abbrev Handler (L : Signature) (σ ε : Type) := (o : L.Op) → σ → Except ε (L.Answer o × σ)

inductive Outcome (L X : Signature) (σ ε α : Type) : Type
  | done (s : σ) (a : α)
  | suspended (s : σ) (o : X.Op) (rest : X.Answer o → Program L X α)
  | fault (e : ε)

def advance (H : Handler L σ ε) : Program L X α → σ → Outcome L X σ ε α
  | .pure a, s => .done s a
  | .perform o k, s => match H o s with
    | .ok (r,s') => advance H (k r) s'
    | .error e => .fault e
  | .external o k, s => .suspended s o k

def Outcome.andThen (H : Handler L σ ε) (f : α → Program L X β) :
    Outcome L X σ ε α → Outcome L X σ ε β
  | .done s a => advance H (f a) s
  | .suspended s o k => .suspended s o (fun r => k r >>= f)
  | .fault e => .fault e

def Outcome.state : Outcome L X σ ε α → Option σ
  | .done s _ => some s
  | .suspended s _ _ => some s
  | .fault _ => none

section
variable (H : Handler L σ ε)

theorem advance_bind (p : Program L X α) (f : α → Program L X β) (s : σ) :
    advance H (p >>= f) s = (advance H p s).andThen H f := by
  induction p generalizing s with
  | pure a => rfl
  | perform o k ih =>
    change advance H (.perform o (fun r => (k r).bind f)) s = _
    simp only [advance]
    cases H o s with
    | error e => rfl
    | ok r => exact ih r.1 r.2
  | external o k ih => rfl

/-- What every local operation keeps is kept up to the next external call. -/
theorem advance_keeps (R : σ → Prop) (hH : ∀ o s r s', H o s = .ok (r,s') → R s → R s')
    (p : Program L X α) {s s' : σ} (h : (advance H p s).state = some s') (hs : R s) : R s' := by
  induction p generalizing s with
  | pure a =>
    obtain rfl := Option.some.inj h
    exact hs
  | perform o k ih =>
    simp only [advance] at h
    cases hr : H o s with
    | error e =>
      rw [hr] at h
      cases h
    | ok r =>
      rw [hr] at h
      exact ih r.1 h (hH o s r.1 r.2 hr hs)
  | external o k ih =>
    obtain rfl := Option.some.inj h
    exact hs

end

section Related

variable {τ : Type} (R : σ → τ → Prop)

inductive Answered {A : Type} : Except ε (A × σ) → Except ε (A × τ) → Prop
  | ok (r : A) {s : σ} {t : τ} (h : R s t) : Answered (.ok (r,s)) (.ok (r,t))
  | error (e : ε) : Answered (.error e) (.error e)

inductive Outcome.Related : Outcome L X σ ε α → Outcome L X τ ε α → Prop
  | done {s : σ} {t : τ} (h : R s t) (a : α) : Related (.done s a) (.done t a)
  | suspended {s : σ} {t : τ} (h : R s t) (o : X.Op) (k : X.Answer o → Program L X α) :
      Related (.suspended s o k) (.suspended t o k)
  | fault (e : ε) : Related (.fault e) (.fault e)

variable {R}

/-- A program cannot tell states apart that its local operations do not. -/
theorem advance_related {H : Handler L σ ε} {H' : Handler L τ ε}
    (hH : ∀ o s t, R s t → Answered R (H o s) (H' o t)) (p : Program L X α) {s : σ} {t : τ}
    (h : R s t) : (advance H p s).Related R (advance H' p t) := by
  induction p generalizing s t with
  | pure a => exact .done h a
  | perform o k ih =>
    have hanswer := hH o s t h
    simp only [advance]
    generalize H o s = x at hanswer
    generalize H' o t = y at hanswer
    cases hanswer with
    | ok r h' => exact ih r h'
    | error e => exact .fault e
  | external o k ih => exact .suspended h o k

end Related

end Ns3Helix.InteractionProgram
