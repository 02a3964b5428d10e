import Mathlib.Tactic.IntervalCases
import TrackIt.Gatt.AccessCb
import TrackIt.Lib.Reader
import TrackIt.Telemetry.Dop

/-!
# What a client reads

A client decodes Location and Speed and Position Quality by the flags that they begin with, in the order of the
specification of the service. Of what the callbacks send it reads what the receiver measured, at the scales at which it
is published:

- `decode_locAndSpd`, `decode_gnssFixQlt`: the two decoders on the encodings of any shared values;
- `client_decodes`: the same from the payloads of the receiver.
-/

namespace TrackIt.Gatt

open TrackIt.Lib TrackIt.Telemetry Reader

/-! ## The client -/

/-- A Location and Speed value; fields that its flags do not announce are `none`. -/
structure LocationAndSpeed where
  speed : Option Nat
  totalDistance : Option Nat
  /-- Latitude and longitude. -/
  location : Option (Int × Int)
  elevation : Option Int
  heading : Option Nat
  rollingTime : Option Nat
  utcTime : Option (List UInt8)
  positionStatus : Nat

/-- A Position Quality value. -/
structure PositionQuality where
  beaconsInSolution : Option Nat
  beaconsInView : Option Nat
  timeToFirstFix : Option Nat
  ehpe : Option Nat
  evpe : Option Nat
  hdop : Option Nat
  vdop : Option Nat
  positionStatus : Nat

/-- Bits 7 and 8 of the flags. -/
def positionStatus (flags : Nat) : Nat := flags / 2 ^ 7 % 4

def decodeLocation : Reader (Int × Int) := do
  let latitude ← signed 4
  let longitude ← signed 4
  pure (latitude, longitude)

def decodeLocationAndSpeed : Reader LocationAndSpeed := do
  let flags ← unsigned 2
  let speed ← onFlag flags 0 (unsigned 2)
  let totalDistance ← onFlag flags 1 (unsigned 3)
  let location ← onFlag flags 2 decodeLocation
  let elevation ← onFlag flags 3 (signed 3)
  let heading ← onFlag flags 4 (unsigned 2)
  let rollingTime ← onFlag flags 5 (unsigned 1)
  let utcTime ← onFlag flags 6 (take 7)
  pure ⟨speed, totalDistance, location, elevation, heading, rollingTime, utcTime, positionStatus flags⟩

def decodePositionQuality : Reader PositionQuality := do
  let flags ← unsigned 2
  let beaconsInSolution ← onFlag flags 0 (unsigned 1)
  let beaconsInView ← onFlag flags 1 (unsigned 1)
  let timeToFirstFix ← onFlag flags 2 (unsigned 2)
  let ehpe ← onFlag flags 3 (unsigned 4)
  let evpe ← onFlag flags 4 (unsigned 4)
  let hdop ← onFlag flags 5 (unsigned 1)
  let vdop ← onFlag flags 6 (unsigned 1)
  pure ⟨beaconsInSolution, beaconsInView, timeToFirstFix, ehpe, evpe, hdop, vdop, positionStatus flags⟩

/-! ## The flags -/

theorem locAndSpdFlags_eq (m10 : M10Codes) (gnssFix : Nat) :
    (locAndSpdFlags m10 gnssFix).toNat = if gnssFix = m10.devStatusReady then 0x10DD else 0x105D := by
  unfold locAndSpdFlags
  split <;> rfl

theorem gnssFixQltFlags_eq (m10 : M10Codes) (gnssFix : Nat) :
    (gnssFixQltFlags m10 gnssFix).toNat = if gnssFix = m10.devStatusReady then 0xE1 else 0x61 := by
  unfold gnssFixQltFlags
  split <;> rfl

/-- What the flags of Location and Speed announce does not depend on the fix. -/
theorem testBit_locAndSpdFlags (m10 : M10Codes) (gnssFix : Nat) {k : Nat} (hk : k < 7) :
    (locAndSpdFlags m10 gnssFix).toNat.testBit k = Nat.testBit 0x5D k := by
  rw [locAndSpdFlags_eq]
  split <;> interval_cases k <;> rfl

theorem testBit_gnssFixQltFlags (m10 : M10Codes) (gnssFix : Nat) {k : Nat} (hk : k < 7) :
    (gnssFixQltFlags m10 gnssFix).toNat.testBit k = Nat.testBit 0x61 k := by
  rw [gnssFixQltFlags_eq]
  split <;> interval_cases k <;> rfl

/-! ## Decoding -/

theorem length_formatDateTimeBuffer (d : DateTimeData) : (formatDateTimeBuffer d).length = 7 := rfl

theorem length_formatLocAndSpdBuffer (m10 : M10Codes) (d : GnssBaseData) :
    (formatLocAndSpdBuffer m10 d).length = 24 := rfl

theorem length_formatGnssFixQltBuffer (m10 : M10Codes) (d : GnssPrecisionData) :
    (formatGnssFixQltBuffer m10 d).length = 5 := rfl

/-- Base data, as a client reads it. -/
def locationAndSpeedOf (m10 : M10Codes) (d : GnssBaseData) : LocationAndSpeed where
  speed := some (d.velocityCmPerS.toNat % 65536)
  totalDistance := none
  location := some (d.latitude.toInt, d.longitude.toInt)
  elevation := some (d.altitudeCm.toInt.bmod (2 ^ 24))
  heading := some (d.heading.toNat % 65536)
  rollingTime := none
  utcTime := some (formatDateTimeBuffer d.dateTime)
  positionStatus := if d.gnssFix = m10.devStatusReady then 1 else 0

/-- Precision data, as a client reads it. -/
def positionQualityOf (m10 : M10Codes) (d : GnssPrecisionData) : PositionQuality where
  beaconsInSolution := some d.vehicleCount.toNat
  beaconsInView := none
  timeToFirstFix := none
  ehpe := none
  evpe := none
  hdop := some d.hdop.toNat
  vdop := some d.vdop.toNat
  positionStatus := if d.gnssFix = m10.devStatusReady then 1 else 0

theorem reads_flags (x : UInt16) : Reads (unsigned 2) (bytes16 x) x.toNat := by
  have h := reads_unsigned (rfl : (bytes16 x).length = 2)
  rwa [leNat_bytes16] at h

theorem reads_low16 (x : UInt32) : Reads (unsigned 2) [byteAt x 0, byteAt x 8] (x.toNat % 65536) := by
  have h := reads_unsigned (rfl : [byteAt x 0, byteAt x 8].length = 2)
  rwa [leNat_byteAt_two] at h

theorem reads_int32 (x : Int32) : Reads (signed 4) (bytesInt32 x) x.toInt := by
  have h := reads_signed (rfl : (bytesInt32 x).length = 4)
  rwa [leInt_bytesInt32] at h

theorem reads_altitude (x : Int32) : Reads (signed 3) (altitudeBytes x) (x.toInt.bmod (2 ^ 24)) := by
  have h := reads_signed (rfl : (altitudeBytes x).length = 3)
  rwa [altitudeBytes, leInt_byteAtInt_three] at h

theorem reads_byte (b : UInt8) : Reads (unsigned 1) [b] b.toNat := by
  have h := reads_unsigned (rfl : [b].length = 1)
  rwa [leNat_cons, leNat_nil, Nat.mul_zero, Nat.add_zero] at h

theorem reads_location (latitude longitude : Int32) :
    Reads decodeLocation (bytesInt32 latitude ++ bytesInt32 longitude) (latitude.toInt, longitude.toInt) :=
  (reads_int32 latitude).bind (reads_int32 longitude).last

/-- **Location and Speed** is read back field by field, to its last byte. -/
theorem decode_locAndSpd (m10 : M10Codes) (d : GnssBaseData) :
    Reads decodeLocationAndSpeed (formatLocAndSpdBuffer m10 d) (locationAndSpeedOf m10 d) := by
  have hbit := @testBit_locAndSpdFlags m10 d.gnssFix
  have hspeed := reads_present (hbit (k := 0) (by omega)) (reads_low16 d.velocityCmPerS)
  have hdistance := reads_absent (r := unsigned 3) (hbit (k := 1) (by omega))
  have hlocation := reads_present (hbit (k := 2) (by omega)) (reads_location d.latitude d.longitude)
  have helevation := reads_present (hbit (k := 3) (by omega)) (reads_altitude d.altitudeCm)
  have hheading := reads_present (hbit (k := 4) (by omega)) (reads_low16 d.heading)
  have hrolling := reads_absent (r := unsigned 1) (hbit (k := 5) (by omega))
  have hutc := reads_present (hbit (k := 6) (by omega)) (reads_take (length_formatDateTimeBuffer d.dateTime))
  have hstatus : positionStatus (locAndSpdFlags m10 d.gnssFix).toNat =
      if d.gnssFix = m10.devStatusReady then 1 else 0 := by
    rw [locAndSpdFlags_eq]
    split <;> rfl
  have hbytes : formatLocAndSpdBuffer m10 d = bytes16 (locAndSpdFlags m10 d.gnssFix) ++
      ([byteAt d.velocityCmPerS 0, byteAt d.velocityCmPerS 8] ++ ([] ++ ((bytesInt32 d.latitude ++
      bytesInt32 d.longitude) ++ (altitudeBytes d.altitudeCm ++ ([byteAt d.heading 0, byteAt d.heading 8] ++
      ([] ++ formatDateTimeBuffer d.dateTime)))))) := rfl
  rw [hbytes, locationAndSpeedOf, ← hstatus]
  exact (reads_flags _).bind (hspeed.bind (hdistance.bind (hlocation.bind (helevation.bind (hheading.bind
    (hrolling.bind hutc.last))))))

/-- **Position Quality** likewise. -/
theorem decode_gnssFixQlt (m10 : M10Codes) (d : GnssPrecisionData) :
    Reads decodePositionQuality (formatGnssFixQltBuffer m10 d) (positionQualityOf m10 d) := by
  have hbit := @testBit_gnssFixQltFlags m10 d.gnssFix
  have hsolution := reads_present (hbit (k := 0) (by omega)) (reads_byte d.vehicleCount)
  have hview := reads_absent (r := unsigned 1) (hbit (k := 1) (by omega))
  have hfirst := reads_absent (r := unsigned 2) (hbit (k := 2) (by omega))
  have hehpe := reads_absent (r := unsigned 4) (hbit (k := 3) (by omega))
  have hevpe := reads_absent (r := unsigned 4) (hbit (k := 4) (by omega))
  have hhdop := reads_present (hbit (k := 5) (by omega)) (reads_byte d.hdop)
  have hvdop := reads_present (hbit (k := 6) (by omega)) (reads_byte d.vdop)
  have hstatus : positionStatus (gnssFixQltFlags m10 d.gnssFix).toNat =
      if d.gnssFix = m10.devStatusReady then 1 else 0 := by
    rw [gnssFixQltFlags_eq]
    split <;> rfl
  have hbytes : formatGnssFixQltBuffer m10 d = bytes16 (gnssFixQltFlags m10 d.gnssFix) ++
      ([d.vehicleCount] ++ ([] ++ ([] ++ ([] ++ ([] ++ ([d.hdop] ++ [d.vdop])))))) := rfl
  rw [hbytes, positionQualityOf, ← hstatus]
  exact (reads_flags _).bind (hsolution.bind (hview.bind (hfirst.bind (hehpe.bind (hevpe.bind (hhdop.bind
    hvdop.last))))))

/-! ## From the receiver to the client -/

/-- `elevation_nfty_task`: what is sent when the wait for the base data has given a value. -/
def elevationNftyTask (waited : Option GnssBaseData) : Option (List UInt8) :=
  waited.map fun d => [byteAtInt d.altitudeCm 0, byteAtInt d.altitudeCm 8, byteAtInt d.altitudeCm 16]

/-- A NAV-PVT payload, as a client is to read it. -/
def measuredPvt (m10 : M10Codes) (p : Payload) : LocationAndSpeed where
  speed := some (leNat [p.get 60, p.get 61, p.get 62, p.get 63] / 10 % 65536)
  totalDistance := none
  location := some (leInt [p.get 28, p.get 29, p.get 30, p.get 31], leInt [p.get 24, p.get 25, p.get 26, p.get 27])
  elevation := some (((leInt [p.get 36, p.get 37, p.get 38, p.get 39]).tdiv 10).bmod (2 ^ 24))
  heading := some 0
  rollingTime := none
  utcTime := some [p.get 4, p.get 5, p.get 6, p.get 7, p.get 8, p.get 9, p.get 10]
  positionStatus := if (p.get 20).toNat = m10.devStatusReady then 1 else 0

theorem utcTime_baseData (p : Payload) : formatDateTimeBuffer (baseData p).dateTime =
    [p.get 4, p.get 5, p.get 6, p.get 7, p.get 8, p.get 9, p.get 10] := by
  show bytes16 (le16 (p.get 4) (p.get 5)) ++ _ = _
  rw [bytes16_le16]
  rfl

/-- What is published of a NAV-PVT is read as it was measured. -/
theorem locationAndSpeedOf_baseData (m10 : M10Codes) (p : Payload) :
    locationAndSpeedOf m10 (baseData p) = measuredPvt m10 p := by
  rw [locationAndSpeedOf, measuredPvt, toNat_velocityCmPerS, toInt_latitude, toInt_longitude, toInt_altitudeCm,
    utcTime_baseData]
  rfl

/-- A NAV-DOP payload, as a client is to read it: HDOP in whole units and VDOP in tenths, of which a byte is kept. -/
def measuredQuality (m10 : M10Codes) (fix : Nat) (count : UInt8) (dop : Payload) : PositionQuality where
  beaconsInSolution := some count.toNat
  beaconsInView := none
  timeToFirstFix := none
  ehpe := none
  evpe := none
  hdop := some (leNat [dop.get 12, dop.get 13] / 100 % 256)
  vdop := some (leNat [dop.get 10, dop.get 11] / 10 % 256)
  positionStatus := if fix = m10.devStatusReady then 1 else 0

/-- The same after a NAV-PVT. -/
def measuredDop (m10 : M10Codes) (pvt dop : Payload) : PositionQuality :=
  measuredQuality m10 (pvt.get 20).toNat (pvt.get 23) dop

theorem positionQualityOf_precisionData (m10 : M10Codes) (p : Payload) (fix : Nat) (count : UInt8) :
    positionQualityOf m10 (precisionData p fix count) = measuredQuality m10 fix count p := by
  have hbyte (f : DopField) : (f.byte (precisionData p fix count)).toNat = (f.raw p).toNat / f.unit % 256 := by
    rw [byte_precisionData, published_eq]
    rfl
  have hraw (b₀ b₁ : UInt8) : (le16 b₀ b₁).toNat = leNat [b₀, b₁] := by
    rw [toNat_le16, leNat_cons, leNat_cons, leNat_nil, Nat.mul_zero, Nat.add_zero]
  have hhdop : (precisionData p fix count).hdop.toNat = leNat [p[12], p[13]] / 100 % 256 :=
    (hbyte .hdop).trans (by rw [DopField.raw, horizontalDop, hraw, DopField.unit])
  have hvdop : (precisionData p fix count).vdop.toNat = leNat [p[10], p[11]] / 10 % 256 :=
    (hbyte .vdop).trans (by rw [DopField.raw, verticalDop, hraw, DopField.unit])
  rw [positionQualityOf, hhdop, hvdop]
  rfl

/-- **A client decodes what the receiver measured.** Of a NAV-PVT that is published, Location and Speed is decoded to
what its payload says, and Elevation, read or notified, to the same elevation; of a NAV-DOP that is published after it,
Position Quality is decoded to the satellite count and fix of the NAV-PVT, and to the HDOP of the NAV-DOP in whole units
and its VDOP in tenths, as far as a byte holds them. -/
theorem client_decodes (m10 : M10Codes) (t : TelParser) (pvt : TelparserInput) (setPrecision : Bool)
    (h : pvt.IsPvt m10) :
    ∃ d, (t.handle m10 pvt true setPrecision).gnssBaseData = d ∧
      Reads decodeLocationAndSpeed (formatLocAndSpdBuffer m10 d) (measuredPvt m10 pvt.payload) ∧
      (formatLocAndSpdBuffer m10 d).length = 24 ∧
      (∃ elevation, (measuredPvt m10 pvt.payload).elevation = some elevation ∧
        Reads (signed 3) (altitudeBytes d.altitudeCm) elevation) ∧
      (∀ (v : SharedValues) (set : Bool), v.gnssBaseData = d →
        (altitudeAccessCB ⟨true, true, set⟩ v .readChr).1 =
          .data (some .gnssBaseData) (altitudeBytes d.altitudeCm)) ∧
      elevationNftyTask (some d) = some (altitudeBytes d.altitudeCm) ∧
      ∀ (dop : TelparserInput) (setBase : Bool), dop.IsDop m10 →
        ∃ q, ((t.handle m10 pvt true setPrecision).handle m10 dop setBase true).gnssPrecisionData = q ∧
          Reads decodePositionQuality (formatGnssFixQltBuffer m10 q) (measuredDop m10 pvt.payload dop.payload) ∧
          (formatGnssFixQltBuffer m10 q).length = 5 := by
  refine ⟨baseData pvt.payload, by rw [TelParser.handle_pvt h]; rfl, ?_, length_formatLocAndSpdBuffer m10 _, ?_, ?_,
    rfl, ?_⟩
  · rw [← locationAndSpeedOf_baseData]
    exact decode_locAndSpd m10 (baseData pvt.payload)
  · refine ⟨_, rfl, ?_⟩
    have hread := reads_altitude (baseData pvt.payload).altitudeCm
    rw [toInt_altitudeCm] at hread
    exact hread
  · intro v set hv
    rw [← hv]
    rfl
  · intro dop setBase hdop
    refine ⟨_, rfl, ?_, length_formatGnssFixQltBuffer m10 _⟩
    rw [TelParser.handle_dop hdop, TelParser.gnssPrecisionData_navDop, TelParser.handle_pvt h]
    have hread := decode_gnssFixQlt m10 (precisionData dop.payload (fixType pvt.payload) (vehicleCount pvt.payload))
    rw [positionQualityOf_precisionData] at hread
    exact hread

/-- A NAV-PVT whose payload bytes are all `0xFF`, with the latitude and altitude -1: the elevation is 0. The NAV-DOP
after it says 99.99 twice: the HDOP is 99, and the VDOP 231. -/
theorem client_decodes_negative : ∃ d, ((TelParser.init someCodes).handle someCodes
      ⟨0x01, 0x07, 92, Vector.replicate 256 0xFF⟩ true true).gnssBaseData = d ∧
    Reads decodeLocationAndSpeed (formatLocAndSpdBuffer someCodes d)
      ⟨some 39321, none, some (-1, -1), some 0, some 0, none, some [0xFF, 0xFF, 0xFF, 0xFF, 0xFF, 0xFF, 0xFF], 0⟩ ∧
    ∃ q, (((TelParser.init someCodes).handle someCodes ⟨0x01, 0x07, 92, Vector.replicate 256 0xFF⟩ true true).handle
        someCodes (dopMessage 15 39) true true).gnssPrecisionData = q ∧
      Reads decodePositionQuality (formatGnssFixQltBuffer someCodes q)
        ⟨some 255, none, none, none, none, some 99, some 231, 0⟩ := by
  obtain ⟨d, hd, hread, -, -, -, -, hquality⟩ := client_decodes someCodes (.init someCodes)
    ⟨0x01, 0x07, 92, Vector.replicate 256 0xFF⟩ true ⟨rfl, rfl⟩
  obtain ⟨q, hq, hreadq, -⟩ := hquality (dopMessage 15 39) true ⟨rfl, rfl⟩
  have hget (i : Fin 256) : (Vector.replicate 256 (0xFF : UInt8)).get i = 0xFF := Vector.getElem_replicate i.isLt
  refine ⟨d, hd, ?_, q, hq, ?_⟩
  · have hmeasured : measuredPvt someCodes (Vector.replicate 256 0xFF) = ⟨some 39321, none, some (-1, -1), some 0,
        some 0, none, some [0xFF, 0xFF, 0xFF, 0xFF, 0xFF, 0xFF, 0xFF], 0⟩ := by
      have hint : leInt [0xFF, 0xFF, 0xFF, 0xFF] = -1 := by decide +kernel
      have hnat : leNat [0xFF, 0xFF, 0xFF, 0xFF] = 4294967295 := by decide +kernel
      simp only [measuredPvt, hget, hint, hnat]
      simp [someCodes]
    rwa [hmeasured] at hread
  · have hmeasured : measuredDop someCodes (Vector.replicate 256 0xFF) (dopMessage 15 39).payload =
        ⟨some 255, none, none, none, none, some 99, some 231, 0⟩ := by
      have hlow (i : Fin 256) : (dopMessage 15 39).payload.get i = if i.val % 2 = 0 then 15 else 39 :=
        Vector.getElem_ofFn i.isLt
      have hhdop : leNat [(dopMessage 15 39).payload.get 12, (dopMessage 15 39).payload.get 13] = 9999 := by
        rw [hlow, hlow]
        rfl
      have hvdop : leNat [(dopMessage 15 39).payload.get 10, (dopMessage 15 39).payload.get 11] = 9999 := by
        rw [hlow, hlow]
        rfl
      simp only [measuredDop, measuredQuality, hget, hhdop, hvdop]
      simp [someCodes]
    rwa [hmeasured] at hreadq

end TrackIt.Gatt
