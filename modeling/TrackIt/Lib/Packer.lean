import TrackIt.Lib.Overwrite

/-!
# Packing an array

A packer fills an array piece by piece at an offset that it advances itself, as a row of `memcpy(&a[offset], …)` and
`a[offset++] = …` does. `Writes w bs` says that `w` puts `bs` at the offset, moves the offset behind them, and leaves
the rest of the array alone. `Fills w bs` is the same for a packer that leaves the offset anywhere.

- `Writes.bind_fills`: writing one thing after the other puts the strings together;
- `Fills.fill`: an array as long as what is written holds just that.
-/

namespace TrackIt.Lib

/-- The state is the array and the offset. -/
abbrev Packer (α : Type) := StateM (List α × Nat)

namespace Packer

variable {α : Type}

/-- `memcpy(&a[offset], …)` -/
def memcpy (bs : List α) : Packer α Unit := modify fun s => (overwrite s.1 s.2 bs, s.2)

/-- `offset += n` -/
def advance (n : Nat) : Packer α Unit := modify fun s => (s.1, s.2 + n)

/-- `memcpy(&a[offset], …); offset += n;` -/
def put (bs : List α) (n : Nat) : Packer α Unit := do
  memcpy bs
  advance n

/-- `a[offset++] = b` -/
def next (b : α) : Packer α Unit := put [b] 1

/-- The array that a packer leaves; it begins at offset 0. -/
def fill (w : Packer α Unit) (a : List α) : List α := (w.run (a, 0)).2.1

def Writes (w : Packer α Unit) (bs : List α) : Prop := ∀ pre rest, bs.length ≤ rest.length →
  w.run (pre ++ rest, pre.length) = ((), (pre ++ bs) ++ rest.drop bs.length, (pre ++ bs).length)

def Fills (w : Packer α Unit) (bs : List α) : Prop := ∀ pre rest, bs.length ≤ rest.length →
  (w.run (pre ++ rest, pre.length)).2.1 = (pre ++ bs) ++ rest.drop bs.length

theorem overwrite_append (pre rest bs : List α) :
    overwrite (pre ++ rest) pre.length bs = (pre ++ bs) ++ rest.drop bs.length := by
  rw [overwrite, List.take_left' rfl, List.drop_length_add_append]

theorem fills_memcpy (bs : List α) : Fills (memcpy bs) bs := fun pre rest _ => overwrite_append pre rest bs

theorem writes_put (bs : List α) {n : Nat} (h : bs.length = n) : Writes (put bs n) bs := by
  intro pre rest _
  show ((), overwrite (pre ++ rest) pre.length bs, pre.length + n) = _
  rw [overwrite_append, List.length_append, h]

theorem writes_next (b : α) : Writes (next b) [b] := writes_put [b] rfl

variable {w w' : Packer α Unit} {bs bs' : List α}

/-- What is left of the array has room for what follows. -/
theorem length_drop_le {rest : List α} (h : (bs ++ bs').length ≤ rest.length) :
    bs.length ≤ rest.length ∧ bs'.length ≤ (rest.drop bs.length).length := by
  rw [List.length_append] at h
  rw [List.length_drop]
  omega

theorem append_drop (pre rest : List α) : (pre ++ bs ++ bs') ++ (rest.drop bs.length).drop bs'.length =
    (pre ++ (bs ++ bs')) ++ rest.drop (bs ++ bs').length := by
  rw [List.drop_drop, List.length_append, List.append_assoc pre]

/-- **One after the other.** -/
theorem Writes.bind_fills (h : Writes w bs) (h' : Fills w' bs') : Fills (w >>= fun _ => w') (bs ++ bs') := by
  intro pre rest hle
  obtain ⟨hle₁, hle₂⟩ := length_drop_le hle
  rw [StateT.run_bind, h pre rest hle₁]
  exact (h' (pre ++ bs) _ hle₂).trans (append_drop pre rest)

/-- **A whole array.** -/
theorem Fills.fill (h : Fills w bs) {a : List α} (hlen : a.length = bs.length) : fill w a = bs := by
  refine (h [] a (Nat.le_of_eq hlen.symm)).trans ?_
  rw [← hlen, List.drop_length, List.append_nil, List.nil_append]

end Packer

end TrackIt.Lib
