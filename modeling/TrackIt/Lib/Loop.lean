import Mathlib.Tactic.Common

/-!
# While loops whose body may fail

`While test body s n out s'` says that the loop `while (test) body` from `s` ends after `n` turns in `s'`, with the
output `out`, and that no turn of it fails.

- `While.unique`: a loop has at most one outcome, so that a loop that ends without failing does nothing else;
- `While.simulation`: a loop whose turns are matched by those of another one is matched by it to its end.
-/

namespace TrackIt.Lib

variable {σ τ α β : Type*}

inductive While (test : σ → Bool) (body : σ → Option (σ × List α)) : σ → Nat → List α → σ → Prop
  | exit {s : σ} : test s = false → While test body s 0 [] s
  | turn {s s' s'' : σ} {out out' : List α} {n : Nat} :
      test s = true → body s = some (s', out) → While test body s' n out' s'' →
      While test body s (n + 1) (out ++ out') s''

namespace While

variable {test : σ → Bool} {body : σ → Option (σ × List α)} {s s₁ s₂ : σ} {n₁ n₂ : Nat} {out₁ out₂ : List α}

/-- **A loop has one outcome.** -/
theorem unique (h₁ : While test body s n₁ out₁ s₁) (h₂ : While test body s n₂ out₂ s₂) :
    n₁ = n₂ ∧ out₁ = out₂ ∧ s₁ = s₂ := by
  induction h₁ generalizing n₂ out₂ with
  | exit ht =>
    cases h₂ with
    | exit => exact ⟨rfl, rfl, rfl⟩
    | turn ht' => rw [ht] at ht'; cases ht'
  | turn ht hb _ ih =>
    cases h₂ with
    | exit ht' => rw [ht] at ht'; cases ht'
    | turn _ hb' h' =>
      obtain ⟨rfl, rfl⟩ : _ ∧ _ := by simpa only [hb, Option.some.injEq, Prod.mk.injEq] using hb'
      obtain ⟨rfl, rfl, rfl⟩ := ih h'
      exact ⟨rfl, rfl, rfl⟩

/-- **Two loops in lock-step.** When the tests agree on related states and each turn of the first loop is matched by one
of the second, with related states and outputs behind it, then the second loop ends after as many turns. -/
theorem simulation (test' : τ → Bool) (body' : τ → Option (τ × List β)) (R : σ → τ → Prop)
    (Q : List α → List β → Prop) (hnil : Q [] []) (happend : ∀ {a a' b b'}, Q a b → Q a' b' → Q (a ++ a') (b ++ b'))
    (htest : ∀ {s t}, R s t → test' t = test s)
    (hbody : ∀ {s t s' out}, R s t → body s = some (s', out) →
      ∃ t' out', body' t = some (t', out') ∧ R s' t' ∧ Q out out')
    {out : List α} {s s' : σ} {n : Nat} (h : While test body s n out s') {t : τ} (hr : R s t) :
    ∃ t' out', While test' body' t n out' t' ∧ R s' t' ∧ Q out out' := by
  induction h generalizing t with
  | exit ht => exact ⟨t, [], .exit ((htest hr).trans ht), hr, hnil⟩
  | turn ht hb _ ih =>
    obtain ⟨t₁, out₁, hb', hr₁, hq₁⟩ := hbody hr hb
    obtain ⟨t₂, out₂, h', hr₂, hq₂⟩ := ih hr₁
    exact ⟨t₂, out₁ ++ out₂, .turn ((htest hr).trans ht) hb' h', hr₂, happend hq₁ hq₂⟩

/-- A loop whose first turn ends it. -/
theorem once {s' : σ} {out : List α} (ht : test s = true) (hb : body s = some (s', out)) (ht' : test s' = false) :
    While test body s 1 out s' := by
  have h := turn ht hb (exit ht')
  rwa [List.append_nil] at h

end While

end TrackIt.Lib
