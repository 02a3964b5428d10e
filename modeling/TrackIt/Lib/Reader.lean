import TrackIt.Lib.LittleEndian

/-!
# Readers of byte strings

A reader takes a value off the front of the bytes it is given. `Reads r bs a` says that `r` consumes exactly `bs` and
makes `a` of them, whatever comes after; reading one thing after the other puts the strings together (`Reads.bind`). A
field that is there only if a flag says so is read with `onFlag`.
-/

namespace TrackIt.Lib

abbrev Reader (α : Type) := StateT (List UInt8) Option α

namespace Reader

variable {α β : Type}

/-- The next `n` bytes. -/
def take (n : Nat) : Reader (List UInt8) := fun s => if s.length < n then none else some (s.take n, s.drop n)

/-- An unsigned number of `n` bytes. -/
def unsigned (n : Nat) : Reader Nat := leNat <$> take n

/-- A signed number of `n` bytes. -/
def signed (n : Nat) : Reader Int := leInt <$> take n

/-- A field that is there if bit `k` of the flags is set. -/
def onFlag (flags k : Nat) (r : Reader α) : Reader (Option α) := if flags.testBit k then some <$> r else pure none

/-- `r` consumes exactly `bs`, and makes `a` of them. -/
def Reads (r : Reader α) (bs : List UInt8) (a : α) : Prop := ∀ rest, r.run (bs ++ rest) = some (a, rest)

theorem Reads.pure (a : α) : Reads (pure a) [] a := fun _ => rfl

/-- **One after the other.** -/
theorem Reads.bind {r : Reader α} {f : α → Reader β} {bs bs' : List UInt8} {a : α} {b : β} (h : Reads r bs a)
    (h' : Reads (f a) bs' b) : Reads (r >>= f) (bs ++ bs') b := by
  intro rest
  rw [List.append_assoc, StateT.run_bind, h]
  exact h' rest

theorem Reads.map {r : Reader α} {bs : List UInt8} {a : α} (f : α → β) (h : Reads r bs a) :
    Reads (f <$> r) bs (f a) := by
  intro rest
  rw [StateT.run_map, h]
  rfl

theorem reads_take {n : Nat} {bs : List UInt8} (h : bs.length = n) : Reads (take n) bs bs := by
  intro rest
  have hlen : ¬ (bs ++ rest).length < n := by
    rw [List.length_append, h]
    omega
  show (if _ then _ else _) = _
  rw [if_neg hlen, List.take_left' h, List.drop_left' h]

theorem reads_unsigned {n : Nat} {bs : List UInt8} (h : bs.length = n) : Reads (unsigned n) bs (leNat bs) :=
  (reads_take h).map leNat

theorem reads_signed {n : Nat} {bs : List UInt8} (h : bs.length = n) : Reads (signed n) bs (leInt bs) :=
  (reads_take h).map leInt

theorem reads_present {flags k : Nat} {r : Reader α} {bs : List UInt8} {a : α} (hk : flags.testBit k = true)
    (h : Reads r bs a) : Reads (onFlag flags k r) bs (some a) := by
  rw [onFlag, if_pos hk]
  exact h.map some

theorem reads_absent {flags k : Nat} {r : Reader α} (hk : flags.testBit k = false) :
    Reads (onFlag flags k r) [] none := by
  rw [onFlag, if_neg (by rw [hk]; exact Bool.false_ne_true)]
  exact .pure none

/-- The last thing that is read. -/
theorem Reads.last {r : Reader α} {f : α → β} {bs : List UInt8} {a : α} (h : Reads r bs a) :
    Reads (r >>= fun a => Pure.pure (f a)) bs (f a) := by
  have hb := h.bind (f := fun a => Pure.pure (f a)) (Reads.pure (f a))
  rwa [List.append_nil] at hb

end Reader

end TrackIt.Lib
