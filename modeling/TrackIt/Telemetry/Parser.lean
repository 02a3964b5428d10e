import Mathlib.Data.Rat.Floor
import TrackIt.Lib.LittleEndian

/-!
# The telemetry parser

`tel_parser_task` reads the payloads of NAV-PVT and NAV-DOP messages at fixed offsets and publishes what they say as two
shared values; fix and satellite count of the last NAV-PVT are kept for the next NAV-DOP.

The classes, ids and fix states are those of the M10 driver; they enter as `M10Codes`.
-/

namespace TrackIt.Telemetry

open TrackIt.Lib

/-- The constants of the M10 driver that the firmware compares with. -/
structure M10Codes where
  ubxClassNav : UInt8
  ubxIdNavPvt : UInt8
  ubxIdNavDop : UInt8
  devStatusNoFix : Nat
  devStatusReady : Nat
  pvt_ne_dop : ubxIdNavPvt ≠ ubxIdNavDop

/-- Codes such as those of the driver. -/
def someCodes : M10Codes := ⟨0x01, 0x07, 0x04, 0, 3, by decide⟩

/-- `BT_DateTimeDataTypeDef` -/
structure DateTimeData where
  year : UInt16
  month : UInt8
  day : UInt8
  hours : UInt8
  minutes : UInt8
  seconds : UInt8
  deriving DecidableEq

/-- `BT_GnssBaseDataTypeDef` -/
structure GnssBaseData where
  gnssFix : Nat
  velocityCmPerS : UInt32
  latitude : Int32
  longitude : Int32
  altitudeCm : Int32
  heading : UInt32
  horizontalAccuracyCm : UInt32
  dateTime : DateTimeData
  deriving DecidableEq

/-- `BT_GnssPrecisionDataTypeDef` -/
structure GnssPrecisionData where
  gnssFix : Nat
  vehicleCount : UInt8
  hdop : UInt8
  vdop : UInt8
  deriving DecidableEq

/-- `gGnssBaseData = {0}` -/
def gnssBaseData₀ : GnssBaseData := ⟨0, 0, 0, 0, 0, 0, 0, ⟨0, 0, 0, 0, 0, 0⟩⟩

/-- `gGnssPrecisionData = {0}` -/
def gnssPrecisionData₀ : GnssPrecisionData := ⟨0, 0, 0, 0⟩

/-- `Payload[TELPARSER_INPUT_PAYLOAD_SIZE]` -/
abbrev Payload := Vector UInt8 256

/-- `TELPARSER_InputTypeDef` -/
structure TelparserInput where
  cls : UInt8
  messageId : UInt8
  length : UInt16
  payload : Payload

/-! ## Decoding -/

def fixType (p : Payload) : Nat := p[20].toNat

def vehicleCount (p : Payload) : UInt8 := p[23]

/-- The base data of a NAV-PVT payload. The heading is not set. -/
def baseData (p : Payload) : GnssBaseData where
  gnssFix := fixType p
  velocityCmPerS := le32 p[60] p[61] p[62] p[63] / 10
  latitude := (le32 p[28] p[29] p[30] p[31]).toInt32
  longitude := (le32 p[24] p[25] p[26] p[27]).toInt32
  altitudeCm := (le32 p[36] p[37] p[38] p[39]).toInt32 / 10
  heading := 0
  horizontalAccuracyCm := le32 p[40] p[41] p[42] p[43] / 10
  dateTime := ⟨le16 p[4] p[5], p[6], p[7], p[8], p[9], p[10]⟩

theorem toInt_latitude (p : Payload) : (baseData p).latitude.toInt = leInt [p[28], p[29], p[30], p[31]] :=
  toInt_le32 _ _ _ _

theorem toInt_longitude (p : Payload) : (baseData p).longitude.toInt = leInt [p[24], p[25], p[26], p[27]] :=
  toInt_le32 _ _ _ _

/-- The altitude is truncated toward zero. -/
theorem toInt_altitudeCm (p : Payload) :
    (baseData p).altitudeCm.toInt = (leInt [p[36], p[37], p[38], p[39]]).tdiv 10 := by
  rw [← toInt_le32]
  exact Int32.toInt_div_of_ne_right _ _ (by decide)

theorem toNat_velocityCmPerS (p : Payload) :
    (baseData p).velocityCmPerS.toNat = leNat [p[60], p[61], p[62], p[63]] / 10 := by
  rw [← toNat_le32_eq]
  rfl

theorem toNat_horizontalAccuracyCm (p : Payload) :
    (baseData p).horizontalAccuracyCm.toNat = leNat [p[40], p[41], p[42], p[43]] / 10 := by
  rw [← toNat_le32_eq]
  rfl

/-- `raw / 100.0f * 10.0f`, exactly. -/
def dopTimesTen (raw : UInt16) : ℚ := raw.toNat / 100 * 10

/-- `(uint8_t)` of a number: its integer part, of which a byte is kept. -/
def toUint8 (q : ℚ) : UInt8 := UInt8.ofNat ⌊q⌋₊

def rawHdop (p : Payload) : UInt16 := le16 p[12] p[13] / 10

def rawVdop (p : Payload) : UInt16 := le16 p[10] p[11]

/-- What a NAV-DOP gives, in hundredths. -/
def horizontalDop (p : Payload) : UInt16 := le16 p[12] p[13]

def verticalDop (p : Payload) : UInt16 := le16 p[10] p[11]

/-- The precision data of a NAV-DOP payload, with fix and satellite count of the NAV-PVT before it. -/
def precisionData (p : Payload) (lastFix : Nat) (lastVehicleCount : UInt8) : GnssPrecisionData where
  gnssFix := lastFix
  vehicleCount := lastVehicleCount
  hdop := toUint8 (dopTimesTen (rawHdop p))
  vdop := toUint8 (dopTimesTen (rawVdop p))

/-! ## The task -/

/-- The two shared values and the local variables of `tel_parser_task`. -/
structure TelParser where
  gnssBaseData : GnssBaseData
  gnssPrecisionData : GnssPrecisionData
  lastFix : Nat
  lastVehicleCount : UInt8

namespace TelParser

/-- After `TELPARSER_Init`, before the first message. -/
def init (m10 : M10Codes) : TelParser := ⟨gnssBaseData₀, gnssPrecisionData₀, m10.devStatusNoFix, 0⟩

/-- The NAV-PVT branch. `set` says whether `SHVAL_PointerSetValue` succeeds. -/
def navPvt (t : TelParser) (p : Payload) (set : Bool) : TelParser where
  gnssBaseData := if set then baseData p else t.gnssBaseData
  gnssPrecisionData := t.gnssPrecisionData
  lastFix := fixType p
  lastVehicleCount := vehicleCount p

/-- The NAV-DOP branch. -/
def navDop (t : TelParser) (p : Payload) (set : Bool) : TelParser :=
  { t with gnssPrecisionData :=
      if set then precisionData p t.lastFix t.lastVehicleCount else t.gnssPrecisionData }

/-- One message of the queue. `setBase` and `setPrecision` say whether the two shared values can be set. -/
def handle (m10 : M10Codes) (t : TelParser) (input : TelparserInput) (setBase setPrecision : Bool) : TelParser :=
  if input.cls = m10.ubxClassNav then
    let t₁ := if input.messageId = m10.ubxIdNavPvt then t.navPvt input.payload setBase else t
    if input.messageId = m10.ubxIdNavDop then t₁.navDop input.payload setPrecision else t₁
  else t

end TelParser

@[simp] theorem TelParser.lastFix_navPvt (t : TelParser) (p : Payload) (set : Bool) :
    (t.navPvt p set).lastFix = fixType p := rfl

@[simp] theorem TelParser.gnssPrecisionData_navPvt (t : TelParser) (p : Payload) (set : Bool) :
    (t.navPvt p set).gnssPrecisionData = t.gnssPrecisionData := rfl

@[simp] theorem TelParser.gnssPrecisionData_navDop (t : TelParser) (p : Payload) :
    (t.navDop p true).gnssPrecisionData = precisionData p t.lastFix t.lastVehicleCount := rfl

/-! ## What a message can change -/

def TelparserInput.IsPvt (m10 : M10Codes) (input : TelparserInput) : Prop :=
  input.cls = m10.ubxClassNav ∧ input.messageId = m10.ubxIdNavPvt

instance (m10 : M10Codes) (input : TelparserInput) : Decidable (input.IsPvt m10) :=
  inferInstanceAs (Decidable (_ ∧ _))

def TelparserInput.IsDop (m10 : M10Codes) (input : TelparserInput) : Prop :=
  input.cls = m10.ubxClassNav ∧ input.messageId = m10.ubxIdNavDop

instance (m10 : M10Codes) (input : TelparserInput) : Decidable (input.IsDop m10) :=
  inferInstanceAs (Decidable (_ ∧ _))

namespace TelParser

variable {m10 : M10Codes} {t : TelParser} {input : TelparserInput} {setBase setPrecision : Bool}

theorem handle_pvt (h : input.IsPvt m10) :
    t.handle m10 input setBase setPrecision = t.navPvt input.payload setBase := by
  have hdop : input.messageId ≠ m10.ubxIdNavDop := fun he => m10.pvt_ne_dop (h.2.symm.trans he)
  simp only [handle, h.1, h.2, if_true]
  rw [if_neg (h.2 ▸ hdop)]

theorem handle_dop (h : input.IsDop m10) :
    t.handle m10 input setBase setPrecision = t.navDop input.payload setPrecision := by
  have hpvt : ¬ m10.ubxIdNavDop = m10.ubxIdNavPvt := fun he => m10.pvt_ne_dop he.symm
  simp only [handle, h.1, h.2, if_true, if_neg hpvt]

theorem handle_other (hpvt : ¬ input.IsPvt m10) (hdop : ¬ input.IsDop m10) :
    t.handle m10 input setBase setPrecision = t := by
  unfold handle
  split
  · rename_i hcls
    rw [if_neg fun he => hdop ⟨hcls, he⟩]
    exact if_neg fun he => hpvt ⟨hcls, he⟩
  · rfl

/-- **What one message does**: a NAV-PVT leaves the precision data, a NAV-DOP all but the precision data, anything else
everything. -/
theorem handle_cases (m10 : M10Codes) (t : TelParser) (input : TelparserInput) (setBase setPrecision : Bool) :
    (input.IsPvt m10 ∧ t.handle m10 input setBase setPrecision = t.navPvt input.payload setBase) ∨
    (input.IsDop m10 ∧ t.handle m10 input setBase setPrecision = t.navDop input.payload setPrecision) ∨
    (¬ input.IsPvt m10 ∧ ¬ input.IsDop m10 ∧ t.handle m10 input setBase setPrecision = t) := by
  by_cases hpvt : input.IsPvt m10
  · exact .inl ⟨hpvt, handle_pvt hpvt⟩
  · by_cases hdop : input.IsDop m10
    · exact .inr (.inl ⟨hdop, handle_dop hdop⟩)
    · exact .inr (.inr ⟨hpvt, hdop, handle_other hpvt hdop⟩)

end TelParser

end TrackIt.Telemetry
