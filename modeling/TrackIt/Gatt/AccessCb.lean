import TrackIt.Lib.LittleEndian
import TrackIt.Telemetry.Parser

/-!
# The access callbacks

A read of a characteristic gets one of the shared values and appends its encoding to the answer; a write of the date and
time stores it as a shared value. What the calls of a callback return is its `Calls`.

The text that `BT_LocAndSpdHumanAccessCB` makes with `snprintf` is a parameter of the callback here;
`locAndSpdHumanText` is what the source makes.
-/

namespace TrackIt.Gatt

open TrackIt.Lib TrackIt.Telemetry

/-! ## The encodings -/

/-- `BT_FormatDateTimeBuffer` -/
def formatDateTimeBuffer (d : DateTimeData) : List UInt8 :=
  bytes16 d.year ++ [d.month, d.day, d.hours, d.minutes, d.seconds]

/-- The low three bytes of `AltitudeCm`. -/
def altitudeBytes (altitudeCm : Int32) : List UInt8 :=
  [byteAtInt altitudeCm 0, byteAtInt altitudeCm 8, byteAtInt altitudeCm 16]

/-- `1 << k` -/
def flag (k : UInt16) : UInt16 := 1 <<< k

/-- Speed, location, altitude, heading and UTC time are present, the heading is that of a magnetic compass, and the
position status is whether there is a fix. -/
def locAndSpdFlags (m10 : M10Codes) (gnssFix : Nat) : UInt16 :=
  let present := flag 0 ||| flag 2 ||| flag 3 ||| flag 4 ||| flag 6
  let flags := (present &&& ~~~(flag 9) &&& ~~~((0x03 : UInt16) <<< 10)) ||| flag 12
  let status : UInt16 := if gnssFix = m10.devStatusReady then 1 else 0
  flags ||| (status <<< 7)

/-- `BT_FormatLocAndSpdBuffer` -/
def formatLocAndSpdBuffer (m10 : M10Codes) (d : GnssBaseData) : List UInt8 :=
  bytes16 (locAndSpdFlags m10 d.gnssFix) ++ [byteAt d.velocityCmPerS 0, byteAt d.velocityCmPerS 8] ++
    bytesInt32 d.latitude ++ bytesInt32 d.longitude ++ altitudeBytes d.altitudeCm ++
    [byteAt d.heading 0, byteAt d.heading 8] ++ formatDateTimeBuffer d.dateTime

/-- Satellite count, HDOP and VDOP are said to be present. -/
def gnssFixQltFlags (m10 : M10Codes) (gnssFix : Nat) : UInt16 :=
  let status : UInt16 := if gnssFix = m10.devStatusReady then 1 else 0
  flag 0 ||| ((0x03 : UInt16) <<< 5) ||| (status <<< 7)

/-- `BT_FormatGnssFixQltBuffer` -/
def formatGnssFixQltBuffer (m10 : M10Codes) (d : GnssPrecisionData) : List UInt8 :=
  bytes16 (gnssFixQltFlags m10 d.gnssFix) ++ [d.vehicleCount, d.hdop, d.vdop]

/-! ## The callbacks -/

/-- The values that the access callbacks get and set. `GnssAuxUtcUpdateData` need not exist. -/
structure SharedValues where
  gnssBaseData : GnssBaseData
  gnssPrecisionData : GnssPrecisionData
  gnssAuxUtcUpdateData : Option (List UInt8)

/-- The shared values that hold telemetry. -/
inductive Source
  | gnssBaseData
  | gnssPrecisionData
  deriving DecidableEq

/-- `ctxt->op`. A value is written as the segments of an mbuf. -/
inductive Op
  | readChr
  | writeChr (om : List (List UInt8))
  | other

/-- Whether `SHVAL_PointerGetValue`, `os_mbuf_append` and `SHVAL_PointerSetValue` succeed. -/
structure Calls where
  get : Bool
  append : Bool
  set : Bool

/-- The errors `BLE_ATT_ERR_INSUFFICIENT_RES` and `BLE_ATT_ERR_VALUE_NOT_ALLOWED`. -/
inductive AttErr
  | insufficientRes
  | valueNotAllowed
  deriving DecidableEq

/-- What a callback returns, with what it has appended to the answer and which telemetry that is. -/
inductive Reply
  | ok
  | data (source : Option Source) (bytes : List UInt8)
  | err (e : AttErr)
  deriving DecidableEq

/-- An access callback: its reply, and the shared values it leaves. -/
abbrev AccessCb := Calls → SharedValues → Op → Reply × SharedValues

/-- `os_mbuf_append`, and the result that the callbacks make of it. -/
def Calls.reply (c : Calls) (source : Option Source) (bytes : List UInt8) : Reply :=
  if c.append then .data source bytes else .err .insufficientRes

/-- The callbacks that answer a read with the encoding of a shared value, and do nothing else. -/
def readShared {α : Type} (source : Source) (value : SharedValues → α) (encode : α → List UInt8) : AccessCb
  | c, v, .readChr => (if c.get then c.reply (some source) (encode (value v)) else .err .insufficientRes, v)
  | _, v, .writeChr _ => (.ok, v)
  | _, v, .other => (.ok, v)

/-- `BT_LNFeaturesAccessCB`: location, elevation, heading and HDOP, of which one byte is sent. -/
def lnFeaturesAccessCB : AccessCb
  | c, v, .readChr =>
    let supportedFeatures : UInt32 := (1 : UInt32) <<< 2 ||| (1 : UInt32) <<< 3 ||| (1 : UInt32) <<< 4 |||
      (1 : UInt32) <<< 15
    (c.reply none [supportedFeatures.toUInt8], v)
  | _, v, .writeChr _ => (.ok, v)
  | _, v, .other => (.ok, v)

/-- `BT_LocAndSpdAccessCB` -/
def locAndSpdAccessCB (m10 : M10Codes) : AccessCb :=
  readShared .gnssBaseData SharedValues.gnssBaseData (formatLocAndSpdBuffer m10)

/-- `BT_LocAndSpdHumanAccessCB` -/
def locAndSpdHumanAccessCB (snprintf : GnssBaseData → List UInt8) : AccessCb :=
  readShared .gnssBaseData SharedValues.gnssBaseData snprintf

/-- `BT_AltitudeAccessCB` -/
def altitudeAccessCB : AccessCb :=
  readShared .gnssBaseData SharedValues.gnssBaseData fun d => altitudeBytes d.altitudeCm

/-- `BT_GnssFixQltAccessCB` -/
def gnssFixQltAccessCB (m10 : M10Codes) : AccessCb :=
  readShared .gnssPrecisionData SharedValues.gnssPrecisionData (formatGnssFixQltBuffer m10)

/-- `BT_DateTimeAccessCB`: only the first segment of a written value is looked at, and a failure to set it is logged. -/
def dateTimeAccessCB : AccessCb
  | c, v, .readChr =>
    readShared .gnssBaseData SharedValues.gnssBaseData (fun d => formatDateTimeBuffer d.dateTime) c v .readChr
  | c, v, .writeChr om =>
    let segment := om.headD []
    if segment.length ≠ 7 then (.err .valueNotAllowed, v)
    else if v.gnssAuxUtcUpdateData.isSome && c.set then (.ok, { v with gnssAuxUtcUpdateData := some segment })
    else (.ok, v)
  | _, v, .other => (.ok, v)

/-! ## What a read discloses -/

/-- The reply discloses telemetry. -/
def Reply.Discloses (r : Reply) : Prop := ∃ source bytes, r = .data (some source) bytes

theorem not_discloses_err (e : AttErr) : ¬ (Reply.err e).Discloses := by
  rintro ⟨source, bytes, h⟩
  cases h

/-- A read of a shared value discloses it when both calls succeed. -/
theorem discloses_readShared {α : Type} {source : Source} {value : SharedValues → α} {encode : α → List UInt8}
    {c : Calls} {v : SharedValues} :
    (readShared source value encode c v .readChr).1.Discloses ↔ c.get = true ∧ c.append = true := by
  obtain ⟨get, append, set⟩ := c
  cases get with
  | false => exact iff_of_false (not_discloses_err _) (by simp)
  | true =>
    cases append with
    | false => exact iff_of_false (not_discloses_err _) (by simp)
    | true => exact iff_of_true ⟨_, _, rfl⟩ ⟨rfl, rfl⟩

theorem discloses_dateTime {c : Calls} {v : SharedValues} :
    (dateTimeAccessCB c v .readChr).1.Discloses ↔ c.get = true ∧ c.append = true := discloses_readShared

theorem not_discloses_lnFeatures {c : Calls} {v : SharedValues} :
    ¬ (lnFeaturesAccessCB c v .readChr).1.Discloses := by
  rintro ⟨source, bytes, h⟩
  simp only [lnFeaturesAccessCB, Calls.reply] at h
  split at h
  · cases h
  · cases h

end TrackIt.Gatt
