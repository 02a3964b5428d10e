import Mathlib.Algebra.Order.Floor.Semifield
import TrackIt.Telemetry.Parser

/-!
# The scales of the published dilutions of precision

A NAV-DOP gives both dilutions of precision in hundredths. `tel_parser_task` publishes each as a byte, computed by a
scaling of its own: tenths for VDOP, but whole units for HDOP, which is divided by ten once more; neither saturates.

- `published_eq`: the published bytes, as integers;
- `dop_iff`: for which raw values a worse dilution of precision is never published as a better one.
-/

namespace TrackIt.Telemetry

open TrackIt.Lib

/-- hDOP at offset 12, vDOP at offset 10. -/
inductive DopField
  | hdop
  | vdop
  deriving DecidableEq

namespace DopField

/-- The value that the receiver gives, in hundredths. -/
def raw : DopField → Payload → UInt16
  | hdop, p => horizontalDop p
  | vdop, p => verticalDop p

/-- The number that is converted to a byte. -/
def scaled : DopField → Payload → ℚ
  | hdop, p => dopTimesTen (rawHdop p)
  | vdop, p => dopTimesTen (rawVdop p)

/-- The byte that is published. -/
def byte : DopField → GnssPrecisionData → UInt8
  | hdop, d => d.hdop
  | vdop, d => d.vdop

/-- Raw values per unit of the byte. -/
def unit : DopField → Nat
  | hdop => 100
  | vdop => 10

/-- The largest raw value whose scaled value is at most 255. -/
def largest : DopField → Nat
  | hdop => 25509
  | vdop => 2550

end DopField

/-- The scaled value is one of a byte. -/
def InRange (q : ℚ) : Prop := 0 ≤ q ∧ q ≤ 255

theorem byte_precisionData (f : DopField) (p : Payload) (fix : Nat) (count : UInt8) :
    f.byte (precisionData p fix count) = toUint8 (f.scaled p) := by
  cases f <;> rfl

theorem dopTimesTen_eq (raw : UInt16) : dopTimesTen raw = (raw.toNat : ℚ) / (10 : ℕ) := by
  rw [dopTimesTen]
  push_cast
  ring

theorem scaled_eq (f : DopField) (p : Payload) :
    f.scaled p = ((f.raw p).toNat / (f.unit / 10) : ℕ) / (10 : ℕ) := by
  cases f with
  | hdop => exact dopTimesTen_eq _
  | vdop =>
    refine (dopTimesTen_eq _).trans ?_
    rw [DopField.unit]
    norm_num
    rfl

/-- **The published byte**, as an integer. -/
theorem published_eq (f : DopField) (p : Payload) : toUint8 (f.scaled p) = UInt8.ofNat ((f.raw p).toNat / f.unit) := by
  rw [toUint8, scaled_eq, Nat.floor_div_eq_div, Nat.div_div_eq_div_mul]
  cases f <;> rfl

/-- No raw value is scaled below 0. -/
theorem inRange_iff (f : DopField) (p : Payload) : InRange (f.scaled p) ↔ (f.raw p).toNat ≤ f.largest := by
  have hten : (0 : ℚ) < (10 : ℕ) := by norm_num
  have hscaled : f.scaled p ≤ 255 ↔ (f.raw p).toNat / (f.unit / 10) ≤ 2550 := by
    rw [scaled_eq, div_le_iff₀ hten]
    norm_num
  have hnonneg : 0 ≤ f.scaled p := by
    rw [scaled_eq]
    positivity
  rw [InRange, hscaled]
  cases f <;> simp only [hnonneg, true_and, DopField.unit, DopField.largest] <;> omega

/-- **The condition.** The raw values are not scaled beyond 255; and a VDOP that is no worse than an HDOP is at most the
tenth of it, counted up to the end of a unit. -/
def Comparable (f g : DopField) (rawF rawG : Nat) : Prop :=
  rawF ≤ f.largest ∧ rawG ≤ g.largest ∧
    (f = .vdop → g = .hdop → rawF ≤ rawG → rawF < 10 * (rawG / 100) + 10)

/-- In range, bytes are compared as integers. -/
theorem byte_le_iff {f g : DopField} {p q : Payload} (hf : (f.raw p).toNat ≤ f.largest)
    (hg : (g.raw q).toNat ≤ g.largest) : toUint8 (f.scaled p) ≤ toUint8 (g.scaled q) ↔
      (f.raw p).toNat / f.unit ≤ (g.raw q).toNat / g.unit := by
  have hbyte (f : DopField) (p : Payload) (hf : (f.raw p).toNat ≤ f.largest) :
      (toUint8 (f.scaled p)).toNat = (f.raw p).toNat / f.unit := by
    rw [published_eq]
    have hlt : (f.raw p).toNat / f.unit < 256 := by
      cases f <;> simp only [DopField.unit, DopField.largest] at hf ⊢ <;> omega
    exact UInt8.toNat_ofNat_of_lt' hlt
  rw [UInt8.le_iff_toNat_le, hbyte f p hf, hbyte g q hg]

/-- **When a worse dilution of precision is never published as a better one.** For two NAV-DOPs that are published,
wherever they occur, and a field of each: the scaled values are those of a byte and are published in the order of the
raw values, iff the raw values are comparable. -/
theorem dop_iff {m10 : M10Codes} (t t' : TelParser) {p q : TelparserInput} (hp : p.IsDop m10) (hq : q.IsDop m10)
    (setBase setBase' : Bool) (f g : DopField) :
    (InRange (f.scaled p.payload) ∧ InRange (g.scaled q.payload) ∧
      (f.raw p.payload ≤ g.raw q.payload →
        f.byte (t.handle m10 p setBase true).gnssPrecisionData ≤
          g.byte (t'.handle m10 q setBase' true).gnssPrecisionData)) ↔
    Comparable f g (f.raw p.payload).toNat (g.raw q.payload).toNat := by
  rw [TelParser.handle_dop hp, TelParser.handle_dop hq, TelParser.gnssPrecisionData_navDop,
    TelParser.gnssPrecisionData_navDop, byte_precisionData, byte_precisionData, inRange_iff, inRange_iff, Comparable,
    UInt16.le_iff_toNat_le]
  refine and_congr_right fun hf => and_congr_right fun hg => ?_
  rw [byte_le_iff hf hg]
  cases f <;> cases g <;> simp only [DopField.unit, reduceCtorEq, false_implies, true_implies,
    imp_self, iff_true] <;> omega

/-- A NAV-DOP whose fields are all `hi · 256 + lo`. -/
def dopMessage (lo hi : UInt8) : TelparserInput :=
  ⟨0x01, 0x04, 18, Vector.ofFn fun k : Fin 256 => if k.val % 2 = 0 then lo else hi⟩

theorem raw_dopMessage (f : DopField) (lo hi : UInt8) : f.raw (dopMessage lo hi).payload = le16 lo hi := by
  cases f <;> simp [DopField.raw, horizontalDop, verticalDop, dopMessage]

/-- What is published of it. -/
theorem byte_dopMessage (f : DopField) (lo hi : UInt8) :
    f.byte ((TelParser.init someCodes).handle someCodes (dopMessage lo hi) true true).gnssPrecisionData =
      UInt8.ofNat ((le16 lo hi).toNat / f.unit) := by
  rw [TelParser.handle_dop ⟨rfl, rfl⟩, TelParser.gnssPrecisionData_navDop, byte_precisionData, published_eq,
    raw_dopMessage]

/-- With both dilutions of precision at 0.50, the VDOP is published as 5 and the HDOP as 0. A VDOP of 99.99 is out of
range, and published as 231. -/
theorem dop_disordered :
    (DopField.raw .vdop (dopMessage 50 0).payload ≤ DopField.raw .hdop (dopMessage 50 0).payload ∧
      DopField.byte .vdop ((TelParser.init someCodes).handle someCodes (dopMessage 50 0) true true).gnssPrecisionData =
        5 ∧
      DopField.byte .hdop ((TelParser.init someCodes).handle someCodes (dopMessage 50 0) true true).gnssPrecisionData =
        0) ∧
    ¬ InRange (DopField.scaled .vdop (dopMessage 15 39).payload) ∧
    DopField.byte .vdop ((TelParser.init someCodes).handle someCodes (dopMessage 15 39) true true).gnssPrecisionData =
      231 := by
  refine ⟨⟨?_, ?_, ?_⟩, ?_, ?_⟩
  · rw [raw_dopMessage, raw_dopMessage]
    exact UInt16.le_refl _
  · rw [byte_dopMessage]
    rfl
  · rw [byte_dopMessage]
    rfl
  · rw [inRange_iff, raw_dopMessage]
    decide
  · rw [byte_dopMessage]
    rfl

/-- An HDOP of 1.00 and a VDOP of 2.00 are in order. -/
theorem dop_iff_usual :
    (InRange (DopField.scaled .hdop (dopMessage 100 0).payload) ∧
      InRange (DopField.scaled .vdop (dopMessage 200 0).payload) ∧
      (DopField.raw .hdop (dopMessage 100 0).payload ≤ DopField.raw .vdop (dopMessage 200 0).payload →
        DopField.byte .hdop
            ((TelParser.init someCodes).handle someCodes (dopMessage 100 0) true true).gnssPrecisionData ≤
          DopField.byte .vdop
            ((TelParser.init someCodes).handle someCodes (dopMessage 200 0) true true).gnssPrecisionData)) := by
  refine (dop_iff (.init someCodes) (.init someCodes) ⟨rfl, rfl⟩ ⟨rfl, rfl⟩ true true .hdop .vdop).2 ?_
  rw [raw_dopMessage, raw_dopMessage]
  exact ⟨by decide, by decide, nofun⟩

end TrackIt.Telemetry
