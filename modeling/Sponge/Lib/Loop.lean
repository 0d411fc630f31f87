import Mathlib.Tactic.Common

/-!
# Bounded `while` Loops

A loop body either leaves the loop with a result or goes round again with a new
loop state.  `iterate body n s` runs at most `n` rounds and returns `none` when
they do not suffice, so the function is structurally recursive and evaluates.

`iterate_spec` is the total-correctness rule: an invariant, a postcondition on
leaving the loop and a measure that every further round decreases give a result
within any bound above the measure.

The last section has the rules for the steps of a body that may fail: they rewrite a sequence of
such steps by what its first one does.
-/

namespace Loop

/-- What one round of a loop does. -/
inductive Round (σ ρ : Type*) where
  /-- leave the loop with this result -/
  | exit (r : ρ)
  /-- go round again from this loop state -/
  | next (s : σ)

variable {σ ρ : Type*}

/-- Run at most `n` rounds; `none` when the loop has not been left by then. -/
def iterate (body : σ → Round σ ρ) : ℕ → σ → Option ρ
  | 0, _ => none
  | n + 1, s =>
    match body s with
    | .exit r => some r
    | .next t => iterate body n t

/-- **Total correctness of a bounded loop.** -/
theorem iterate_spec {body : σ → Round σ ρ} {Inv : σ → Prop} {Post : ρ → Prop} (μ : σ → ℕ)
    (hexit : ∀ s r, Inv s → body s = .exit r → Post r)
    (hnext : ∀ s t, Inv s → body s = .next t → Inv t ∧ μ t < μ s) :
    ∀ (n : ℕ) (s : σ), Inv s → μ s < n → ∃ r, iterate body n s = some r ∧ Post r := by
  intro n
  induction n with
  | zero => intro s _ hμ; omega
  | succ n ih =>
    intro s hs hμ
    cases hb : body s with
    | exit r => exact ⟨r, by simp [iterate, hb], hexit s r hs hb⟩
    | next t =>
      -- the round has used up part of the measure, so the rounds left suffice
      obtain ⟨ht, hlt⟩ := hnext s t hs hb
      obtain ⟨r, hr, hpost⟩ := ih t ht (by omega)
      exact ⟨r, by simpa [iterate, hb] using hr, hpost⟩

/-! ## Steps that may fail -/

section Fallible

variable {ε α β : Type}

theorem ok_bind (a : α) (f : α → Except ε β) : (Except.ok a >>= f) = f a :=
  rfl

theorem error_bind (e : ε) (f : α → Except ε β) : (Except.error e >>= f) = .error e :=
  rfl

theorem throw_bind (e : ε) (f : α → Except ε β) :
    ((throw e : Except ε α) >>= f) = .error e :=
  rfl

end Fallible

end Loop
