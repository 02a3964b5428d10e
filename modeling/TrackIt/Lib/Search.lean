import Mathlib.Data.List.Infix
import Mathlib.Tactic.Common

/-!
# The first occurrence of a pattern in a list

`findPat pat l` is the index at which `pat` first begins in `l`, as `memmem` computes it.

- `findPat_eq_none_iff`: there is no index iff `pat` is nowhere in `l`;
- `findPat_append`: an occurrence with no earlier one, not even a straddling one, is the one found;
- `findPat_spec`: what is found splits `l` around `pat`, and nothing before the split contains `pat`;
- `not_infix_append_cons`: when a pair that is in neither of two lists is not in their concatenation either.
-/

namespace TrackIt.Lib

variable {α : Type*}

/-- A pair in neither part straddles the seam only if the second part begins with its second element. -/
theorem not_infix_append_cons {a b x : α} (hx : b ≠ x) {v : List α} (hv : ¬ [a, b] <:+: x :: v) :
    ∀ {u : List α}, ¬ [a, b] <:+: u → ¬ [a, b] <:+: u ++ x :: v
  | [], _ => hv
  | y :: u, hu => by
    have ih := not_infix_append_cons hx hv fun hi => hu (hi.trans (List.suffix_cons y u).isInfix)
    rw [List.cons_append, List.infix_cons_iff]
    rintro (hpre | hin)
    · obtain ⟨hy, hrest⟩ := List.cons_prefix_cons.1 hpre
      cases u with
      | nil => exact hx (List.cons_prefix_cons.1 hrest).1
      | cons z u =>
        have hz := (List.cons_prefix_cons.1 hrest).1
        exact hu ⟨[], u, by simp [hy, hz]⟩
    · exact ih hin

variable [DecidableEq α]

/-- The index at which `pat` first begins. -/
def findPat (pat : List α) : List α → Option Nat
  | [] => if pat = [] then some 0 else none
  | x :: xs => if pat <+: x :: xs then some 0 else (findPat pat xs).map (· + 1)

theorem findPat_zero {pat l : List α} (h : pat <+: l) : findPat pat l = some 0 := by
  cases l with
  | nil => rw [findPat, if_pos (List.prefix_nil.1 h)]
  | cons x xs => rw [findPat, if_pos h]

theorem findPat_cons {pat xs : List α} {x : α} (h : ¬ pat <+: x :: xs) :
    findPat pat (x :: xs) = (findPat pat xs).map (· + 1) := by
  rw [findPat, if_neg h]

theorem findPat_eq_none_iff {pat : List α} : ∀ {l : List α}, findPat pat l = none ↔ ¬ pat <:+: l
  | [] => by
    rw [findPat, List.infix_nil]
    split <;> simp_all
  | x :: xs => by
    rw [List.infix_cons_iff]
    by_cases h : pat <+: x :: xs
    · simp [findPat_zero h, h]
    · simp [findPat_cons h, h, findPat_eq_none_iff (l := xs)]

/-- An occurrence that no earlier one, inside `u` or across its end, precedes is the one found. -/
theorem findPat_append {pat : List α} (hp : pat ≠ []) (v : List α) :
    ∀ {u : List α}, ¬ pat <:+: u ++ pat.dropLast → findPat pat (u ++ pat ++ v) = some u.length
  | [], _ => findPat_zero (by simp)
  | x :: u, h => by
    have hlen : pat.dropLast.length + 1 = pat.length := by
      have := List.length_pos_iff.2 hp
      rw [List.length_dropLast]; omega
    have hx : ¬ pat <+: x :: (u ++ pat ++ v) := by
      intro hpre
      -- both are prefixes of the whole, and `pat` is not the longer one
      have hshort : (x :: u) ++ pat.dropLast <+: x :: (u ++ pat ++ v) := by
        have := List.dropLast_prefix pat
        simpa [List.append_assoc] using this.trans (List.prefix_append pat v)
      have hle : pat.length ≤ ((x :: u) ++ pat.dropLast).length := by
        simp only [List.length_append, List.length_cons]; omega
      exact h (List.prefix_of_prefix_length_le hpre hshort hle).isInfix
    have hu : ¬ pat <:+: u ++ pat.dropLast := fun hi => h (by simpa using hi.trans (List.suffix_cons x _).isInfix)
    have ih := findPat_append hp v hu
    rw [List.cons_append, List.cons_append, findPat_cons hx, ih]
    rfl

/-- What is found splits the list around the pattern, with no occurrence before its end. -/
theorem findPat_spec {pat : List α} (hp : pat ≠ []) : ∀ {l : List α} {i : Nat}, findPat pat l = some i →
    ∃ u v, l = u ++ pat ++ v ∧ u.length = i ∧ ¬ pat <:+: u ++ pat.dropLast
  | [], i, h => by simp [findPat, hp] at h
  | x :: xs, i, h => by
    have hlt : pat.dropLast.length < pat.length := by
      have := List.length_pos_iff.2 hp
      rw [List.length_dropLast]; omega
    by_cases hx : pat <+: x :: xs
    · obtain ⟨v, hv⟩ := hx
      rw [findPat_zero ⟨v, hv⟩] at h
      refine ⟨[], v, by simpa using hv.symm, by simpa using h, fun hi => ?_⟩
      have := hi.length_le
      simp only [List.nil_append] at this
      omega
    · rw [findPat_cons hx] at h
      obtain ⟨j, hj, rfl⟩ := Option.map_eq_some_iff.1 h
      obtain ⟨u, v, rfl, rfl, hu⟩ := findPat_spec hp hj
      refine ⟨x :: u, v, by simp, by simp, fun hi => ?_⟩
      rcases List.infix_cons_iff.1 (by simpa using hi) with hpre | hin
      · apply hx
        have hd : x :: (u ++ pat.dropLast) <+: x :: (u ++ pat ++ v) := by
          have := List.dropLast_prefix pat
          simpa [List.append_assoc] using this.trans (List.prefix_append pat v)
        exact hpre.trans hd
      · exact hu hin

theorem findPat_le {pat l : List α} {i : Nat} (hp : pat ≠ []) (h : findPat pat l = some i) :
    i + pat.length ≤ l.length := by
  obtain ⟨u, v, rfl, rfl, _⟩ := findPat_spec hp h
  simp only [List.length_append]
  omega

end TrackIt.Lib
