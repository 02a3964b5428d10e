import Mathlib.Tactic.Common

/-!
# A place for one value

A value that is put replaces one that has not been taken yet. `Served put taken slot`: of the values put, those that
were taken and the one that is still there are some, in order, up to the last.

- `Served.put_value`, `Served.take`: putting and taking keep it;
- `Served.getLast?_eq`: when nothing is there, the last value put has been taken.
-/

namespace TrackIt.Lib

variable {α : Type*}

structure Served (put taken : List α) (slot : Option α) : Prop where
  sublist : (taken ++ slot.toList).Sublist put
  last : (taken ++ slot.toList).getLast? = put.getLast?

namespace Served

variable {put taken : List α} {slot : Option α}

theorem nil : Served ([] : List α) [] none := ⟨List.Sublist.refl _, rfl⟩

/-- A value is put, whatever was there. -/
theorem put_value (h : Served put taken slot) (a : α) : Served (put ++ [a]) taken (some a) where
  sublist := ((List.sublist_append_left taken slot.toList).trans h.sublist).append (List.Sublist.refl [a])
  last := by simp

theorem take {a : α} (h : Served put taken (some a)) : Served put (taken ++ [a]) none where
  sublist := by simpa using h.sublist
  last := by simpa using h.last

theorem taken_sublist (h : Served put taken slot) : taken.Sublist put :=
  (List.sublist_append_left taken slot.toList).trans h.sublist

/-- **Nothing is left**: the last value put is the last one taken. -/
theorem getLast?_eq (h : Served put taken none) : taken.getLast? = put.getLast? := by
  simpa using h.last

end Served

end TrackIt.Lib
