import Mathlib.Data.Nat.Digits.Defs

/-!
# Little-endian words

`le16` and `le32` put a word together from its bytes with shifts and ors, `bytes32` takes it apart with shifts and
masks. In numbers both are base 256 (`toNat_le32`, `toNat_byteAt`), so that putting the bytes of a word together gives
the word back (`le32_bytes32`).

A string of bytes stands for a number, `leNat`, or in two's complement `leInt`. The bytes of a signed word are taken off
by arithmetic shifts, and are those of the unsigned one (`bytesInt32_eq`).
-/

namespace TrackIt.Lib

/-- `b₀ | (b₁ << 8)` -/
def le16 (b₀ b₁ : UInt8) : UInt16 := b₀.toUInt16 ||| (b₁.toUInt16 <<< 8)

/-- `b₀ | (b₁ << 8) | (b₂ << 16) | (b₃ << 24)` -/
def le32 (b₀ b₁ b₂ b₃ : UInt8) : UInt32 :=
  b₀.toUInt32 ||| (b₁.toUInt32 <<< 8) ||| (b₂.toUInt32 <<< 16) ||| (b₃.toUInt32 <<< 24)

/-- `(x >> k) & 0xFF` -/
def byteAt (x k : UInt32) : UInt8 := ((x >>> k) &&& 0xFF).toUInt8

/-- The bytes of a word, lowest first. -/
def bytes32 (x : UInt32) : List UInt8 := [byteAt x 0, byteAt x 8, byteAt x 16, byteAt x 24]

def bytes16 (x : UInt16) : List UInt8 := [x.toUInt8, (x >>> 8).toUInt8]

/-- `(x >> k) & 0xFF` of a signed word. -/
def byteAtInt (x k : Int32) : UInt8 := ((x >>> k) &&& 0xFF).toUInt32.toUInt8

def bytesInt32 (x : Int32) : List UInt8 := [byteAtInt x 0, byteAtInt x 8, byteAtInt x 16, byteAtInt x 24]

/-- An or of numbers that share no bit is a sum. -/
theorem or_shiftLeft_of_lt {a k : Nat} (b : Nat) (h : a < 2 ^ k) : a ||| b <<< k = a + 2 ^ k * b := by
  rw [Nat.or_comm, ← Nat.shiftLeft_add_eq_or_of_lt h, Nat.shiftLeft_eq, Nat.mul_comm, Nat.add_comm]

/-- A byte shifted within a word loses nothing. -/
theorem shiftLeft_mod_of_lt {a k : Nat} (h : a < 2 ^ 8) (hk : k ≤ 24) : a <<< k % 2 ^ 32 = a <<< k := by
  apply Nat.mod_eq_of_lt
  rw [Nat.shiftLeft_eq]
  calc a * 2 ^ k < 2 ^ 8 * 2 ^ k := Nat.mul_lt_mul_of_pos_right h (Nat.two_pow_pos k)
    _ ≤ 2 ^ 8 * 2 ^ 24 := Nat.mul_le_mul_left _ (Nat.pow_le_pow_right (by decide) hk)
    _ = 2 ^ 32 := rfl

theorem toNat_le32 (b₀ b₁ b₂ b₃ : UInt8) :
    (le32 b₀ b₁ b₂ b₃).toNat = b₀.toNat + 256 * b₁.toNat + 65536 * b₂.toNat + 16777216 * b₃.toNat := by
  have h₀ := b₀.toNat_lt
  have h₁ := b₁.toNat_lt
  have h₂ := b₂.toNat_lt
  have h₃ := b₃.toNat_lt
  have k₁ : (8 : UInt32).toNat % 32 = 8 := rfl
  have k₂ : (16 : UInt32).toNat % 32 = 16 := rfl
  have k₃ : (24 : UInt32).toNat % 32 = 24 := rfl
  simp only [le32, UInt32.toNat_or, UInt32.toNat_shiftLeft, UInt8.toNat_toUInt32]
  rewrite [k₁, k₂, k₃, shiftLeft_mod_of_lt h₁ (by decide), shiftLeft_mod_of_lt h₂ (by decide),
    shiftLeft_mod_of_lt h₃ (by decide), or_shiftLeft_of_lt _ h₀, or_shiftLeft_of_lt (k := 16) _ (by omega),
    or_shiftLeft_of_lt (k := 24) _ (by omega)]
  omega

theorem toNat_le16 (b₀ b₁ : UInt8) : (le16 b₀ b₁).toNat = b₀.toNat + 256 * b₁.toNat := by
  have h₀ := b₀.toNat_lt
  have h₁ := b₁.toNat_lt
  have hmod : b₁.toNat <<< 8 % 2 ^ 16 = b₁.toNat <<< 8 := by
    rw [Nat.shiftLeft_eq]
    omega
  have k₁ : (8 : UInt16).toNat % 16 = 8 := rfl
  simp only [le16, UInt16.toNat_or, UInt16.toNat_shiftLeft, UInt8.toNat_toUInt16]
  rewrite [k₁, hmod, or_shiftLeft_of_lt _ h₀]
  rfl

theorem toNat_byteAt (x : UInt32) {k : UInt32} (h : k < 32) : (byteAt x k).toNat = x.toNat / 2 ^ k.toNat % 256 := by
  have hk : k.toNat % 32 = k.toNat := Nat.mod_eq_of_lt h
  have hff : (0xFF : UInt32).toNat = 2 ^ 8 - 1 := rfl
  simp only [byteAt, UInt32.toNat_toUInt8, UInt32.toNat_and, UInt32.toNat_shiftRight, hk, hff,
    Nat.and_two_pow_sub_one_eq_mod, Nat.shiftRight_eq_div_pow]
  exact Nat.mod_mod _ _

/-- **A word is put together from its bytes.** -/
theorem le32_bytes32 (x : UInt32) : le32 (byteAt x 0) (byteAt x 8) (byteAt x 16) (byteAt x 24) = x := by
  have hx := x.toNat_lt
  apply UInt32.toNat_inj.1
  rw [toNat_le32, toNat_byteAt x (by decide), toNat_byteAt x (by decide), toNat_byteAt x (by decide),
    toNat_byteAt x (by decide)]
  change x.toNat / 2 ^ 0 % 256 + 256 * (x.toNat / 2 ^ 8 % 256) + 65536 * (x.toNat / 2 ^ 16 % 256) +
    16777216 * (x.toNat / 2 ^ 24 % 256) = x.toNat
  omega

/-- **And the other way round.** -/
theorem bytes32_le32 (b₀ b₁ b₂ b₃ : UInt8) : bytes32 (le32 b₀ b₁ b₂ b₃) = [b₀, b₁, b₂, b₃] := by
  have h₀ := b₀.toNat_lt
  have h₁ := b₁.toNat_lt
  have h₂ := b₂.toNat_lt
  have h₃ := b₃.toNat_lt
  have hbyte {k : UInt32} {b : UInt8} (hk : k < 32) (h : (le32 b₀ b₁ b₂ b₃).toNat / 2 ^ k.toNat % 256 = b.toNat) :
      byteAt (le32 b₀ b₁ b₂ b₃) k = b := UInt8.toNat_inj.1 ((toNat_byteAt _ hk).trans h)
  rw [toNat_le32] at hbyte
  have k₀ : 2 ^ (0 : UInt32).toNat = 1 := rfl
  have k₁ : 2 ^ (8 : UInt32).toNat = 256 := rfl
  have k₂ : 2 ^ (16 : UInt32).toNat = 65536 := rfl
  have k₃ : 2 ^ (24 : UInt32).toNat = 16777216 := rfl
  have e₀ := hbyte (k := 0) (b := b₀) (by decide) (by rw [k₀]; omega)
  have e₁ := hbyte (k := 8) (b := b₁) (by decide) (by rw [k₁]; omega)
  have e₂ := hbyte (k := 16) (b := b₂) (by decide) (by rw [k₂]; omega)
  have e₃ := hbyte (k := 24) (b := b₃) (by decide) (by rw [k₃]; omega)
  rw [bytes32, e₀, e₁, e₂, e₃]

/-! ## Strings of bytes -/

/-- The number that bytes stand for, lowest first. -/
def leNat (bs : List UInt8) : Nat := Nat.ofDigits 256 (bs.map UInt8.toNat)

/-- The same in two's complement. -/
def leInt (bs : List UInt8) : Int := (leNat bs : Int).bmod (256 ^ bs.length)

@[simp] theorem leNat_nil : leNat [] = 0 := rfl

@[simp] theorem leNat_cons (b : UInt8) (bs : List UInt8) : leNat (b :: bs) = b.toNat + 256 * leNat bs := by
  simp only [leNat, List.map_cons, Nat.ofDigits_cons]

theorem leNat_append (bs bs' : List UInt8) : leNat (bs ++ bs') = leNat bs + 256 ^ bs.length * leNat bs' := by
  rw [leNat, List.map_append, Nat.ofDigits_append, List.length_map]
  rfl

theorem leNat_bytes16 (x : UInt16) : leNat (bytes16 x) = x.toNat := by
  have hx := x.toNat_lt
  have hhigh : (x >>> 8).toNat = x.toNat / 256 := by
    rw [UInt16.toNat_shiftRight, Nat.shiftRight_eq_div_pow]
    rfl
  simp only [bytes16, leNat_cons, leNat_nil, UInt16.toNat_toUInt8, hhigh]
  omega

/-- **A word of two bytes is put together from them.** -/
theorem le16_bytes16 (x : UInt16) : le16 x.toUInt8 (x >>> 8).toUInt8 = x := by
  apply UInt16.toNat_inj.1
  rw [toNat_le16, ← leNat_bytes16 x, bytes16, leNat_cons, leNat_cons, leNat_nil, Nat.mul_zero, Nat.add_zero]

theorem bytes16_le16 (b₀ b₁ : UInt8) : bytes16 (le16 b₀ b₁) = [b₀, b₁] := by
  have h₀ := b₀.toNat_lt
  have h₁ := b₁.toNat_lt
  have hhigh : (le16 b₀ b₁ >>> 8).toNat = (le16 b₀ b₁).toNat / 256 := by
    rw [UInt16.toNat_shiftRight, Nat.shiftRight_eq_div_pow]
    rfl
  have hl : (le16 b₀ b₁).toUInt8 = b₀ := by
    apply UInt8.toNat_inj.1
    rw [UInt16.toNat_toUInt8, toNat_le16]
    omega
  have hr : (le16 b₀ b₁ >>> 8).toUInt8 = b₁ := by
    apply UInt8.toNat_inj.1
    rw [UInt16.toNat_toUInt8, hhigh, toNat_le16]
    omega
  rw [bytes16, hl, hr]

/-- The low bytes of a word. -/
theorem leNat_byteAt_two (x : UInt32) : leNat [byteAt x 0, byteAt x 8] = x.toNat % 65536 := by
  simp only [leNat_cons, leNat_nil]
  rw [toNat_byteAt x (by decide), toNat_byteAt x (by decide)]
  change x.toNat / 2 ^ 0 % 256 + 256 * (x.toNat / 2 ^ 8 % 256 + 256 * 0) = x.toNat % 65536
  omega

theorem leNat_byteAt_three (x : UInt32) : leNat [byteAt x 0, byteAt x 8, byteAt x 16] = x.toNat % 16777216 := by
  simp only [leNat_cons, leNat_nil]
  rw [toNat_byteAt x (by decide), toNat_byteAt x (by decide), toNat_byteAt x (by decide)]
  change x.toNat / 2 ^ 0 % 256 + 256 * (x.toNat / 2 ^ 8 % 256 + 256 * (x.toNat / 2 ^ 16 % 256 + 256 * 0)) =
    x.toNat % 16777216
  omega

theorem leNat_bytes32 (x : UInt32) : leNat (bytes32 x) = x.toNat := by
  have hx := x.toNat_lt
  rw [← le32_bytes32 x, toNat_le32, le32_bytes32, bytes32]
  simp only [leNat_cons, leNat_nil]
  omega

theorem toNat_le32_eq (b₀ b₁ b₂ b₃ : UInt8) : (le32 b₀ b₁ b₂ b₃).toNat = leNat [b₀, b₁, b₂, b₃] := by
  rw [toNat_le32]
  simp only [leNat_cons, leNat_nil]
  omega

theorem toInt_le32 (b₀ b₁ b₂ b₃ : UInt8) : (le32 b₀ b₁ b₂ b₃).toInt32.toInt = leInt [b₀, b₁, b₂, b₃] := by
  have hlen : 256 ^ [b₀, b₁, b₂, b₃].length = 2 ^ 32 := by norm_num
  rewrite [leInt, hlen, ← toNat_le32_eq]
  exact BitVec.toInt_eq_toNat_bmod (le32 b₀ b₁ b₂ b₃).toBitVec

/-- The low byte of an arithmetic shift is that of a logical one, as long as no sign bit gets into it. -/
theorem byteAtInt_eq (x : Int32) {k : Int32} (hk : k.toBitVec.toNat ≤ 24) (hmod : k.toBitVec.smod 32 = k.toBitVec) :
    byteAtInt x k = byteAt x.toUInt32 k.toUInt32 := by
  apply UInt8.toBitVec_inj.1
  apply BitVec.eq_of_getLsbD_eq
  intro i hi
  have hmod' : (k.toBitVec % 32).toNat = k.toBitVec.toNat := by
    rw [BitVec.toNat_umod]
    exact Nat.mod_eq_of_lt (Nat.lt_of_le_of_lt hk (by decide))
  have hlt : k.toBitVec.toNat + i < 32 := by omega
  have hle : ¬ 32 ≤ i := by omega
  simp only [byteAtInt, byteAt, UInt32.toBitVec_toUInt8, Int32.toBitVec_toUInt32, Int32.toBitVec_and,
    Int32.toBitVec_shiftRight, UInt32.toBitVec_and, UInt32.toBitVec_shiftRight, BitVec.getLsbD_setWidth,
    BitVec.getLsbD_and, hmod, BitVec.getLsbD_sshiftRight', BitVec.ushiftRight_eq', BitVec.getLsbD_ushiftRight, hmod',
    hlt, hle, if_true, decide_false, Bool.not_false, Bool.true_and]
  rfl

theorem byteAtInt_zero (x : Int32) : byteAtInt x 0 = byteAt x.toUInt32 0 := byteAtInt_eq x (by decide) (by decide)

theorem byteAtInt_eight (x : Int32) : byteAtInt x 8 = byteAt x.toUInt32 8 := byteAtInt_eq x (by decide) (by decide)

theorem byteAtInt_sixteen (x : Int32) : byteAtInt x 16 = byteAt x.toUInt32 16 := byteAtInt_eq x (by decide) (by decide)

theorem bytesInt32_eq (x : Int32) : bytesInt32 x = bytes32 x.toUInt32 := by
  rw [bytesInt32, byteAtInt_zero, byteAtInt_eight, byteAtInt_sixteen, byteAtInt_eq x (by decide) (by decide)]
  rfl

/-- The same for signed words. -/
theorem bytesInt32_le32 (b₀ b₁ b₂ b₃ : UInt8) : bytesInt32 (le32 b₀ b₁ b₂ b₃).toInt32 = [b₀, b₁, b₂, b₃] := by
  rw [bytesInt32_eq]
  exact bytes32_le32 b₀ b₁ b₂ b₃

theorem le32_bytesInt32 (x : Int32) :
    (le32 (byteAtInt x 0) (byteAtInt x 8) (byteAtInt x 16) (byteAtInt x 24)).toInt32 = x := by
  rw [byteAtInt_zero, byteAtInt_eight, byteAtInt_sixteen, byteAtInt_eq x (by decide) (by decide)]
  exact congrArg UInt32.toInt32 (le32_bytes32 x.toUInt32)

theorem leInt_bytesInt32 (x : Int32) : leInt (bytesInt32 x) = x.toInt := by
  have hlen : 256 ^ (bytes32 x.toUInt32).length = 2 ^ 32 := by norm_num [bytes32]
  rewrite [bytesInt32_eq, leInt, hlen, leNat_bytes32]
  exact (BitVec.toInt_eq_toNat_bmod x.toBitVec).symm

/-- The low three bytes, in two's complement. -/
theorem leInt_byteAtInt_three (x : Int32) :
    leInt [byteAtInt x 0, byteAtInt x 8, byteAtInt x 16] = x.toInt.bmod (2 ^ 24) := by
  have hlen : 256 ^ [byteAt x.toUInt32 0, byteAt x.toUInt32 8, byteAt x.toUInt32 16].length = 2 ^ 24 := by norm_num
  have hx : x.toInt = (x.toUInt32.toNat : Int).bmod (2 ^ 32) := BitVec.toInt_eq_toNat_bmod x.toBitVec
  have hdvd : 2 ^ 24 ∣ 2 ^ 32 := ⟨2 ^ 8, rfl⟩
  rewrite [byteAtInt_zero, byteAtInt_eight, byteAtInt_sixteen, leInt, hlen, leNat_byteAt_three, hx,
    Int.bmod_bmod_of_dvd hdvd]
  exact Int.emod_bmod (x.toUInt32.toNat : Int) (2 ^ 24)

end TrackIt.Lib
