import TrackIt.Lib.Decimal
import TrackIt.Gatt.AccessCb

/-!
# The telemetry as text

In a debug build `BT_LocAndSpdHumanAccessCB` answers with a line of text that `snprintf` makes of the shared base data,
in a buffer of 128 bytes. The values are divided as doubles before they are printed.

- `human_fits`: the line is never cut off;
- `human_reads`: **the line tells the values exactly**, save for the speed in km/h, which is rounded and made with the
  divisor 27.778.
-/

namespace TrackIt.Gatt

open TrackIt.Lib TrackIt.Lib.Reader TrackIt.Telemetry

def ascii (s : String) : List UInt8 := s.toList.map fun c => .ofNat c.toNat

/-- What the format string makes of the data. -/
def humanLine (d : GnssBaseData) : List UInt8 :=
  ascii "Longitude: " ++ formatF 7 (toDouble (d.longitude.toInt / 10000000)) ++
  ascii "; Latitude: " ++ formatF 7 (toDouble (d.latitude.toInt / 10000000)) ++
  ascii "; Velocity: " ++ formatF 2 (toDouble (d.velocityCmPerS.toNat / 100)) ++
  ascii " m/s (" ++ formatF 1 (toDouble (d.velocityCmPerS.toNat / toDouble 27.778)) ++
  ascii " km/h); Altitude: " ++ formatF 2 (toDouble (d.altitudeCm.toInt / 100)) ++ ascii " m"

/-- `buffer_len` -/
def humanBufferLen : Nat := 128

/-- `snprintf` leaves room for the terminating zero, and `strlen` counts up to it. -/
def locAndSpdHumanText (d : GnssBaseData) : List UInt8 := (humanLine d).take (humanBufferLen - 1)

/-! ## Reading the line -/

/-- The values of a line, each in units of its last place. -/
structure HumanReading where
  longitude : Int
  latitude : Int
  velocity : Int
  kmPerH : Int
  altitude : Int

/-- A text that is known. -/
def literal (text : List UInt8) : Reader Unit := do
  let bytes ← take text.length
  if bytes = text then pure () else failure

theorem reads_literal (text : List UInt8) : Reads (literal text) text () := by
  have h := (reads_take (n := text.length) rfl).bind (f := fun bytes => if bytes = text then pure () else failure)
    (show Reads (if text = text then pure () else failure) [] () by rw [if_pos rfl]; exact Reads.pure ())
  rwa [List.append_nil] at h

def readHumanLine : Reader HumanReading := do
  literal (ascii "Longitude: ")
  let longitude ← number 7
  literal (ascii "; Latitude: ")
  let latitude ← number 7
  literal (ascii "; Velocity: ")
  let velocity ← number 2
  literal (ascii " m/s (")
  let kmPerH ← number 1
  literal (ascii " km/h); Altitude: ")
  let altitude ← number 2
  literal (ascii " m")
  pure ⟨longitude, latitude, velocity, kmPerH, altitude⟩

/-! ## The speed in km/h -/

/-- What is printed for the speed in km/h, in tenths. -/
def kmPerHTenths (velocity : UInt32) : Int := roundEven (|toDouble (velocity.toNat / toDouble 27.778)| * 10 ^ 1)

/-- The divisor `27.778` is a double as well. -/
theorem kmPerH_divisor : |toDouble 27.778 - 27.778| ≤ 27.778 / 2 ^ 53 ∧ 27 < toDouble 27.778 := by
  have herr := abs_toDouble_sub_le 27.778
  rw [abs_of_pos (show (0 : ℚ) < 27.778 by norm_num)] at herr
  refine ⟨herr, ?_⟩
  have hlow := (abs_le.1 herr).1
  norm_num at hlow ⊢
  linarith

theorem toDouble_kmPerH_nonneg (velocity : UInt32) : 0 ≤ toDouble (velocity.toNat / toDouble 27.778) := by
  have hdiv := kmPerH_divisor.2
  exact toDouble_nonneg (div_nonneg (Nat.cast_nonneg _) (by linarith))

/-- The two roundings of the division matter little, and the one of the printing by half a tenth. -/
theorem kmPerH_close (velocity : UInt32) :
    |(kmPerHTenths velocity : ℚ) - velocity.toNat * 10 / 27.778| ≤ 501 / 1000 := by
  obtain ⟨herr, hdiv⟩ := kmPerH_divisor
  have hv0 : (0 : ℚ) ≤ velocity.toNat := Nat.cast_nonneg _
  have hv : (velocity.toNat : ℚ) ≤ 2 ^ 32 := by exact_mod_cast velocity.toNat_lt.le
  have hd := toDouble_kmPerH_nonneg velocity
  have hround := abs_roundEven_sub_le (|toDouble (velocity.toNat / toDouble 27.778)| * 10 ^ 1)
  rw [kmPerHTenths]
  rw [abs_of_nonneg hd] at hround ⊢
  generalize roundEven (toDouble (velocity.toNat / toDouble 27.778) * 10 ^ 1) = n at *
  have hdouble := abs_toDouble_sub_le (velocity.toNat / toDouble 27.778)
  generalize toDouble (velocity.toNat / toDouble 27.778) = r at *
  generalize toDouble 27.778 = t at *
  generalize (velocity.toNat : ℚ) = v at *
  have ht : 0 < t := by linarith
  have hq0 : 0 ≤ v / t := div_nonneg hv0 ht.le
  have hq : v / t ≤ 2 ^ 32 / 27 := div_le_div₀ (by norm_num) hv (by norm_num) hdiv.le
  have hquot : |v / t - v / 27.778| ≤ v / t / 2 ^ 53 := by
    have heq : v / t - v / 27.778 = v / t * ((27.778 - t) / 27.778) := by field_simp
    have hrel : |(27.778 - t) / 27.778| ≤ 1 / 2 ^ 53 := by
      rw [abs_div, abs_sub_comm, abs_of_pos (show (0 : ℚ) < 27.778 by norm_num), div_le_iff₀ (by norm_num)]
      linarith
    calc |v / t - v / 27.778| = v / t * |(27.778 - t) / 27.778| := by rw [heq, abs_mul, abs_of_nonneg hq0]
      _ ≤ v / t * (1 / 2 ^ 53) := mul_le_mul_of_nonneg_left hrel hq0
      _ = v / t / 2 ^ 53 := by ring
  rw [abs_of_nonneg hq0] at hdouble
  obtain ⟨hr₁, hr₂⟩ := abs_le.1 hround
  obtain ⟨hd₁, hd₂⟩ := abs_le.1 hdouble
  obtain ⟨hq₁, hq₂⟩ := abs_le.1 hquot
  have hv10 : v * 10 / 27.778 = 10 * (v / 27.778) := by ring
  rw [hv10, abs_le]
  constructor <;> linarith

theorem reads_kmPerH (velocity : UInt32) :
    Reads (number 1) (formatF 1 (toDouble (velocity.toNat / toDouble 27.778))) (kmPerHTenths velocity) := by
  have hread := reads_number 1 (toDouble (velocity.toNat / toDouble 27.778))
  rw [if_neg (not_lt.2 (toDouble_kmPerH_nonneg velocity))] at hread
  have hnonneg : 0 ≤ kmPerHTenths velocity := roundEven_nonneg (by positivity)
  rwa [show ((roundEven (|toDouble (velocity.toNat / toDouble 27.778)| * 10 ^ 1)).toNat : Int) =
    kmPerHTenths velocity from Int.toNat_of_nonneg hnonneg] at hread

/-! ## The other values -/

/-- The values are numbers of 32 bits. -/
def Is32Bit (x : Int) : Prop := -2 ^ 31 ≤ x ∧ x < 2 ^ 32

theorem is32Bit_toInt (x : Int32) : Is32Bit x.toInt := by
  have h := x.toInt_lt
  exact ⟨x.le_toInt, by omega⟩

theorem is32Bit_toNat (x : UInt32) : Is32Bit x.toNat := by
  have h := x.toNat_lt
  constructor <;> omega

theorem reads_fixed (k : Nat) {x : Int} (hx : Is32Bit x) :
    Reads (number k) (formatF k (toDouble (x / 10 ^ k))) x := by
  obtain ⟨h₁, h₂⟩ := hx
  exact printed_quotient k (by rw [abs_lt]; omega)

theorem length_fixed_le (k m : Nat) {x : Int} (hx : Is32Bit x) (hm : 0 < m) (hmk : 10 ≤ m + k) :
    (formatF k (toDouble (x / 10 ^ k))).length ≤ m + k + 2 := by
  obtain ⟨h₁, h₂⟩ := hx
  refine length_formatF_le hm ?_
  rw [roundEven_quotient k (by rw [abs_lt]; omega)]
  calc |x| < 10 ^ 10 := by rw [abs_lt]; omega
    _ ≤ 10 ^ (m + k) := pow_le_pow_right₀ (by decide) hmk

theorem length_kmPerH_le (velocity : UInt32) :
    (formatF 1 (toDouble (velocity.toNat / toDouble 27.778))).length ≤ 12 := by
  refine length_formatF_le (m := 9) (by decide) ?_
  have hclose := (abs_le.1 (kmPerH_close velocity)).2
  have hv : (velocity.toNat : ℚ) ≤ 2 ^ 32 := by exact_mod_cast velocity.toNat_lt.le
  have hlt : (kmPerHTenths velocity : ℚ) < 10 ^ 10 := by
    have hdiv : (velocity.toNat : ℚ) * 10 / 27.778 ≤ 2 ^ 32 := by
      rw [div_le_iff₀ (by norm_num)]
      linarith
    linarith
  exact_mod_cast hlt

/-- The line with its divisors as powers of ten. -/
theorem humanLine_eq (d : GnssBaseData) : humanLine d =
    ascii "Longitude: " ++ (formatF 7 (toDouble (d.longitude.toInt / 10 ^ 7)) ++
    (ascii "; Latitude: " ++ (formatF 7 (toDouble (d.latitude.toInt / 10 ^ 7)) ++
    (ascii "; Velocity: " ++ (formatF 2 (toDouble ((d.velocityCmPerS.toNat : Int) / 10 ^ 2)) ++
    (ascii " m/s (" ++ (formatF 1 (toDouble (d.velocityCmPerS.toNat / toDouble 27.778)) ++
    (ascii " km/h); Altitude: " ++ (formatF 2 (toDouble (d.altitudeCm.toInt / 10 ^ 2)) ++ ascii " m"))))))))) := by
  have h7 : (10000000 : ℚ) = 10 ^ 7 := by norm_num
  have h2 : (100 : ℚ) = 10 ^ 2 := by norm_num
  simp only [humanLine, List.append_assoc, h7, h2, Int.cast_natCast]

theorem reads_humanLine (d : GnssBaseData) : Reads readHumanLine (humanLine d) ⟨d.longitude.toInt, d.latitude.toInt,
    d.velocityCmPerS.toNat, kmPerHTenths d.velocityCmPerS, d.altitudeCm.toInt⟩ := by
  rw [humanLine_eq]
  exact (reads_literal _).bind <| (reads_fixed 7 (is32Bit_toInt d.longitude)).bind <|
    (reads_literal _).bind <| (reads_fixed 7 (is32Bit_toInt d.latitude)).bind <|
    (reads_literal _).bind <| (reads_fixed 2 (is32Bit_toNat d.velocityCmPerS)).bind <|
    (reads_literal _).bind <| (reads_kmPerH d.velocityCmPerS).bind <|
    (reads_literal _).bind <| (reads_fixed 2 (is32Bit_toInt d.altitudeCm)).bind <| (reads_literal _).last

/-- **The line is never cut off.** -/
theorem human_fits (d : GnssBaseData) : (humanLine d).length < humanBufferLen := by
  have hlon := length_fixed_le 7 3 (is32Bit_toInt d.longitude) (by decide) (by decide)
  have hlat := length_fixed_le 7 3 (is32Bit_toInt d.latitude) (by decide) (by decide)
  have hvel := length_fixed_le 2 8 (is32Bit_toNat d.velocityCmPerS) (by decide) (by decide)
  have hkmPerH := length_kmPerH_le d.velocityCmPerS
  have halt := length_fixed_le 2 8 (is32Bit_toInt d.altitudeCm) (by decide) (by decide)
  have htexts : (ascii "Longitude: ").length = 11 ∧ (ascii "; Latitude: ").length = 12 ∧
      (ascii "; Velocity: ").length = 12 ∧ (ascii " m/s (").length = 6 ∧
      (ascii " km/h); Altitude: ").length = 18 ∧ (ascii " m").length = 2 := by decide
  rw [humanLine_eq, humanBufferLen]
  simp only [List.length_append]
  omega

/-- **The line tells the values**: a read is answered, if both calls of the callback succeed, with the whole line, from
which a reader gets back longitude, latitude, speed and altitude exactly, and the speed in km/h, for which the source
divides by 27.778, to half a tenth, but for the two roundings of the division. -/
theorem human_reads (v : SharedValues) : ∃ (text : List UInt8) (kmPerH : Int),
    (∀ calls : Calls, (locAndSpdHumanAccessCB locAndSpdHumanText calls v .readChr).1 =
      if calls.get && calls.append then .data (some .gnssBaseData) text else .err .insufficientRes) ∧
    text = humanLine v.gnssBaseData ∧ text.length < humanBufferLen ∧
    Reads readHumanLine text ⟨v.gnssBaseData.longitude.toInt, v.gnssBaseData.latitude.toInt,
      v.gnssBaseData.velocityCmPerS.toNat, kmPerH, v.gnssBaseData.altitudeCm.toInt⟩ ∧
    |(kmPerH : ℚ) - v.gnssBaseData.velocityCmPerS.toNat * 10 / 27.778| ≤ 501 / 1000 := by
  have hfits := human_fits v.gnssBaseData
  have htext : locAndSpdHumanText v.gnssBaseData = humanLine v.gnssBaseData :=
    List.take_of_length_le (Nat.le_sub_one_of_lt hfits)
  refine ⟨locAndSpdHumanText v.gnssBaseData, kmPerHTenths v.gnssBaseData.velocityCmPerS, ?_, htext, ?_, ?_,
    kmPerH_close v.gnssBaseData.velocityCmPerS⟩
  · rintro ⟨get, append, set⟩
    cases get <;> cases append <;> rfl
  · rw [htext]
    exact hfits
  · rw [htext]
    exact reads_humanLine v.gnssBaseData

end TrackIt.Gatt
