import Mathlib.Data.Nat.Digits.Defs
import Mathlib.Data.Nat.Digits.Lemmas

/-!
# Numbers in positions

`digitsBe b n x` are the last `n` digits of `x` to the base `b`, the highest one first, as a shift and a mask take them
off; `ofDigitsBe` puts them together.

- `ofDigitsBe_digitsBe`: all but `x % b ^ n` is lost;
- `ofDigitsBe_flatMap`: a number may be put together digit by digit, or from the digits of its digits.
-/

namespace TrackIt.Lib

def digitsBe (b n x : Nat) : List Nat := (List.range n).map fun i => x / b ^ (n - 1 - i) % b

def ofDigitsBe (b : Nat) (digits : List Nat) : Nat := digits.foldl (fun x d => b * x + d) 0

@[simp] theorem length_digitsBe (b n x : Nat) : (digitsBe b n x).length = n := by
  rw [digitsBe, List.length_map, List.length_range]

theorem digitsBe_succ (b n x : Nat) : digitsBe b (n + 1) x = digitsBe b n (x / b) ++ [x % b] := by
  rw [digitsBe, List.range_succ, List.map_append]
  refine congrArg₂ _ ?_ ?_
  · refine List.map_congr_left fun i hi => ?_
    have hi := List.mem_range.1 hi
    rw [Nat.div_div_eq_div_mul, ← pow_succ', show n + 1 - 1 - i = n - 1 - i + 1 by omega]
  · simp

theorem ofDigitsBe_append (b : Nat) (digits : List Nat) (d : Nat) :
    ofDigitsBe b (digits ++ [d]) = b * ofDigitsBe b digits + d := by
  rw [ofDigitsBe, List.foldl_append]
  rfl

/-- **The digits of a number** are those of its remainder. -/
theorem ofDigitsBe_digitsBe (b n : Nat) : ∀ x, ofDigitsBe b (digitsBe b n x) = x % b ^ n := by
  induction n with
  | zero => intro x; rw [pow_zero, Nat.mod_one]; rfl
  | succ n ih =>
    intro x
    rw [digitsBe_succ, ofDigitsBe_append, ih, pow_succ', Nat.mod_mul, Nat.add_comm]

theorem ofDigitsBe_eq_foldl (b : Nat) (digits : List Nat) (x : Nat) :
    digits.foldl (fun x d => b * x + d) x = b ^ digits.length * x + ofDigitsBe b digits := by
  induction digits using List.reverseRecOn with
  | nil => simp [ofDigitsBe]
  | append_singleton digits d ih =>
    rw [List.foldl_append, List.foldl_cons, List.foldl_nil, ih, ofDigitsBe_append, List.length_append,
      List.length_singleton, pow_succ']
    ring

/-- **Digits of digits**: to the base `b ^ n`, each digit may be written out to the base `b`. -/
theorem ofDigitsBe_flatMap (b n : Nat) {digits : List Nat} (h : ∀ d ∈ digits, d < b ^ n) :
    ofDigitsBe b (digits.flatMap (digitsBe b n)) = ofDigitsBe (b ^ n) digits := by
  induction digits using List.reverseRecOn with
  | nil => rfl
  | append_singleton digits d ih =>
    have hd : d < b ^ n := h d (by simp)
    have hdigits : ∀ d ∈ digits, d < b ^ n := fun d hd => h d (List.mem_append_left _ hd)
    rw [List.flatMap_append, List.flatMap_singleton, ofDigitsBe_append, ← ih hdigits]
    rw [ofDigitsBe, List.foldl_append, ofDigitsBe_eq_foldl, length_digitsBe, ofDigitsBe_digitsBe,
      Nat.mod_eq_of_lt hd]
    rfl

/-! ## Slices -/

section Slices

variable {α β : Type*} {g : α → List β} {m : Nat}

theorem drop_flatMap (hg : ∀ a, (g a).length = m) (l : List α) (k : Nat) :
    (l.flatMap g).drop (k * m) = (l.drop k).flatMap g := by
  induction k generalizing l with
  | zero => rw [Nat.zero_mul, List.drop_zero, List.drop_zero]
  | succ k ih =>
    cases l with
    | nil => rw [List.drop_nil, List.flatMap_nil, List.drop_nil]
    | cons a l =>
      rw [List.flatMap_cons, List.drop_succ_cons, ← ih, Nat.succ_mul, Nat.add_comm, ← List.drop_drop,
        List.drop_left' (hg a)]

theorem take_flatMap (hg : ∀ a, (g a).length = m) (l : List α) (k : Nat) :
    (l.flatMap g).take (k * m) = (l.take k).flatMap g := by
  induction k generalizing l with
  | zero => rw [Nat.zero_mul, List.take_zero, List.take_zero, List.flatMap_nil]
  | succ k ih =>
    cases l with
    | nil => rw [List.take_nil, List.flatMap_nil, List.take_nil]
    | cons a l =>
      rw [List.flatMap_cons, List.take_succ_cons, List.flatMap_cons, ← ih, Nat.succ_mul, Nat.add_comm,
        List.take_add, List.take_left' (hg a), List.drop_left' (hg a)]

end Slices

end TrackIt.Lib
