import Mathlib.Tactic.Common

/-!
# Being told of new values

A value is put in the place of the one before, and then the event bit of a reader is set. The reader waits for its bit,
clears it and copies the value; more values may be put between any two of these. A wait may fail, before or after it has
cleared the bit.

- `UpToDate`: nothing is under way, and the last value has not been missed;
- `Copies`: the values copied are some of those put, in order; one may be copied again, but no more are copied than were
  put; and a reader that is up to date has copied the last one.
-/

namespace TrackIt.Lib

/-- What stands between the values put and a reader. -/
structure Subscriber where
  /-- The values that have been put and not been signalled yet. -/
  signalling : Nat
  evtBit : Bool
  /-- The reader has cleared its bit and not copied the value yet. -/
  woken : Bool
  /-- A wait has failed after it had cleared the bit, and nothing has been copied since. -/
  missed : Bool

namespace Subscriber

def init : Subscriber := ⟨0, false, false, false⟩

def put (s : Subscriber) : Subscriber := { s with signalling := s.signalling + 1 }

def signal (s : Subscriber) : Subscriber := { s with signalling := s.signalling - 1, evtBit := true }

def wake (s : Subscriber) : Subscriber := { s with evtBit := false, woken := true }

def copy (s : Subscriber) : Subscriber := { s with woken := false, missed := false }

def fail (s : Subscriber) : Subscriber := { s with woken := false, missed := s.missed || s.woken }

/-- The reader has nothing to wait for, and has not missed anything. -/
structure UpToDate (s : Subscriber) : Prop where
  signalling : s.signalling = 0
  evtBit : s.evtBit = false
  woken : s.woken = false
  missed : s.missed = false

/-- The copies that are still to be made. -/
def owed (s : Subscriber) : Nat := s.signalling + s.evtBit.toNat + s.woken.toNat

variable {s : Subscriber}

theorem not_upToDate_put (s : Subscriber) : ¬ s.put.UpToDate := fun h => Nat.succ_ne_zero _ h.signalling

theorem not_upToDate_signal (s : Subscriber) : ¬ s.signal.UpToDate := fun h => Bool.false_ne_true h.evtBit.symm

theorem not_upToDate_wake (s : Subscriber) : ¬ s.wake.UpToDate := fun h => Bool.false_ne_true h.woken.symm

/-- A wait that fails brings no reader up to date. -/
theorem UpToDate.of_fail (h : s.fail.UpToDate) : s.UpToDate := by
  obtain ⟨hmissed, hwoken⟩ := Bool.or_eq_false_iff.1 h.missed
  exact ⟨h.signalling, h.evtBit, hwoken, hmissed⟩

theorem owed_put (s : Subscriber) : s.put.owed = s.owed + 1 := by
  simp only [owed, put]
  omega

theorem owed_signal (h : 0 < s.signalling) : s.signal.owed ≤ s.owed := by
  simp only [owed, signal, Bool.toNat_true]
  omega

theorem owed_wake (hbit : s.evtBit = true) (hwoken : s.woken = false) : s.wake.owed = s.owed := by
  simp [owed, wake, hbit, hwoken]

theorem owed_copy (h : s.woken = true) : s.copy.owed + 1 = s.owed := by
  simp [owed, copy, h]

theorem owed_fail (s : Subscriber) : s.fail.owed ≤ s.owed := by
  simp only [owed, fail, Bool.toNat_false]
  omega

end Subscriber

/-! ## The values -/

variable {α : Type*} {values taken : List α} {s : Subscriber}

/-- `taken` are some of the values, in order; each any number of times. -/
def Stutters (values taken : List α) : Prop :=
  ∃ indices : List Nat, indices.Pairwise (· ≤ ·) ∧ indices.map (values[·]?) = taken.map some

namespace Stutters

theorem nil : Stutters values [] := ⟨[], .nil, rfl⟩

theorem lt_length {indices : List Nat} (h : indices.map (values[·]?) = taken.map some) :
    ∀ i ∈ indices, i < values.length := by
  intro i hi
  have hmem : values[i]? ∈ taken.map some := h ▸ List.mem_map_of_mem hi
  obtain ⟨a, -, ha⟩ := List.mem_map.1 hmem
  exact (List.getElem?_eq_some_iff.1 ha.symm).1

theorem snoc (h : Stutters values taken) (a : α) : Stutters (values ++ [a]) taken := by
  obtain ⟨indices, hord, hmap⟩ := h
  refine ⟨indices, hord, ?_⟩
  rw [← hmap]
  exact List.map_congr_left fun i hi => List.getElem?_append_left (lt_length hmap i hi)

/-- The last value is taken, once more or for the first time. -/
theorem take_last (h : Stutters values taken) {a : α} (ha : values.getLast? = some a) :
    Stutters values (taken ++ [a]) := by
  obtain ⟨indices, hord, hmap⟩ := h
  rw [List.getLast?_eq_getElem?] at ha
  refine ⟨indices ++ [values.length - 1], ?_, by simp [hmap, ha]⟩
  rw [List.pairwise_append]
  refine ⟨hord, List.pairwise_singleton _ _, fun i hi j hj => ?_⟩
  have hlt := lt_length hmap i hi
  rw [List.mem_singleton.1 hj]
  omega

end Stutters

/-- What a reader has copied of the values put. -/
structure Copies (values taken : List α) (s : Subscriber) : Prop where
  stutters : Stutters values taken
  length : taken.length + s.owed ≤ values.length
  last : s.UpToDate → taken.getLast? = values.getLast?

namespace Copies

theorem init : Copies ([] : List α) [] .init := ⟨.nil, Nat.le_refl _, fun _ => rfl⟩

theorem put (h : Copies values taken s) (a : α) : Copies (values ++ [a]) taken s.put where
  stutters := h.stutters.snoc a
  length := by
    have hlen := h.length
    rw [s.owed_put, List.length_append, List.length_singleton]
    omega
  last hu := absurd hu s.not_upToDate_put

theorem signal (h : Copies values taken s) (hs : 0 < s.signalling) : Copies values taken s.signal where
  stutters := h.stutters
  length := Nat.le_trans (Nat.add_le_add_left (Subscriber.owed_signal hs) _) h.length
  last hu := absurd hu s.not_upToDate_signal

theorem wake (h : Copies values taken s) (hbit : s.evtBit = true) (hwoken : s.woken = false) :
    Copies values taken s.wake where
  stutters := h.stutters
  length := by rw [Subscriber.owed_wake hbit hwoken]; exact h.length
  last hu := absurd hu s.not_upToDate_wake

/-- The value that is copied is the last one put. -/
theorem copy (h : Copies values taken s) (hwoken : s.woken = true) {a : α} (ha : values.getLast? = some a) :
    Copies values (taken ++ [a]) s.copy where
  stutters := h.stutters.take_last ha
  length := by
    have hlen := h.length
    rw [← Subscriber.owed_copy hwoken] at hlen
    rw [List.length_append, List.length_singleton]
    omega
  last _ := by rw [List.getLast?_append, ha]; rfl

theorem fail (h : Copies values taken s) : Copies values taken s.fail where
  stutters := h.stutters
  length := Nat.le_trans (Nat.add_le_add_left s.owed_fail _) h.length
  last hu := h.last hu.of_fail

/-- A reader that is about to copy a value finds one. -/
theorem ne_nil (h : Copies values taken s) (hwoken : s.woken = true) : values ≠ [] := by
  rintro rfl
  have hlen := h.length
  rw [← Subscriber.owed_copy hwoken, List.length_nil] at hlen
  omega

end Copies

end TrackIt.Lib
