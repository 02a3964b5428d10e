import Mathlib.Tactic.Common

/-!
# Writing into an array

`overwrite data k bytes` is the array `data` with `bytes` written from index `k` on, as `memcpy` and reads into a buffer
do it. The array keeps its length (`length_overwrite`), and in front of the end of the write stand what was in front of
`k` and `bytes` (`take_overwrite`).

`setAll data writes` is `data` after single elements have been written one after the other. What is written nowhere
stays (`getElem?_setAll_of_notMem`), and a place that is always written the same holds that (`getElem?_setAll`).
-/

namespace TrackIt.Lib

variable {α : Type*}

def overwrite (data : List α) (k : Nat) (bytes : List α) : List α :=
  data.take k ++ bytes ++ data.drop (k + bytes.length)

theorem length_overwrite {data bytes : List α} {k : Nat} (h : k + bytes.length ≤ data.length) :
    (overwrite data k bytes).length = data.length := by
  simp only [overwrite, List.length_append, List.length_take, List.length_drop]
  omega

theorem take_overwrite {data : List α} {k : Nat} (bytes : List α) (h : k ≤ data.length) :
    (overwrite data k bytes).take (k + bytes.length) = data.take k ++ bytes := by
  apply List.take_left'
  rw [List.length_append, List.length_take, Nat.min_eq_left h]

/-- The writes, each of them an index and an element, in order. -/
def setAll (data : List α) (writes : List (Nat × α)) : List α := writes.foldl (fun data w => data.set w.1 w.2) data

@[simp] theorem length_setAll (data : List α) (writes : List (Nat × α)) :
    (setAll data writes).length = data.length := by
  induction writes generalizing data with
  | nil => rfl
  | cons w writes ih => exact (ih _).trans List.length_set

theorem getElem?_setAll_of_notMem {data : List α} {writes : List (Nat × α)} {k : Nat}
    (h : k ∉ writes.map Prod.fst) : (setAll data writes)[k]? = data[k]? := by
  induction writes generalizing data with
  | nil => rfl
  | cons w writes ih =>
    rw [List.map_cons, List.mem_cons, not_or] at h
    exact (ih h.2).trans (List.getElem?_set_ne (Ne.symm h.1))

theorem getElem?_setAll {data : List α} {writes : List (Nat × α)} {k : Nat} {a : α}
    (hmem : k ∈ writes.map Prod.fst) (hall : ∀ b, (k, b) ∈ writes → b = a) (hk : k < data.length) :
    (setAll data writes)[k]? = some a := by
  induction writes generalizing data with
  | nil => cases hmem
  | cons w writes ih =>
    by_cases hlater : k ∈ writes.map Prod.fst
    · exact ih hlater (fun b hb => hall b (List.mem_cons_of_mem _ hb)) (by rwa [List.length_set])
    · -- the last write to `k`
      rw [List.map_cons, List.mem_cons, or_iff_left hlater] at hmem
      subst hmem
      exact (getElem?_setAll_of_notMem hlater).trans
        ((List.getElem?_set_self hk).trans (congrArg some (hall w.2 List.mem_cons_self)))

end TrackIt.Lib
