import Mathlib.Tactic.IntervalCases
import TrackIt.Gatt.AccessCb
import TrackIt.Lib.Packer

/-!
# The date and time

Four pieces of code take a date and time apart or put it together: `tel_parser_task`, the two formatters with their rows
of `memcpy`, and `gnss_date_time_upd_task`, which decodes what a client has written. A write goes through
`BT_DateTimeAccessCB`, segment by segment.

- `dateTime_agrees`: encoders and decoder agree, in both directions;
- `acknowledges_iff`: when a write is acknowledged only if it took effect.
-/

namespace TrackIt.Gatt

open TrackIt.Lib TrackIt.Telemetry

/-! ## The formatters, copy by copy -/

/-- `BT_FormatDateTimeBuffer` -/
def packDateTime (d : GnssBaseData) : Packer UInt8 Unit := do
  .put (bytes16 d.dateTime.year) 2
  .next d.dateTime.month
  .next d.dateTime.day
  .next d.dateTime.hours
  .next d.dateTime.minutes
  .memcpy [d.dateTime.seconds]

/-- `BT_FormatLocAndSpdBuffer` -/
def packLocAndSpd (m10 : M10Codes) (d : GnssBaseData) : Packer UInt8 Unit := do
  .put (bytes16 (locAndSpdFlags m10 d.gnssFix)) 2
  .next (byteAt d.velocityCmPerS 0)
  .next (byteAt d.velocityCmPerS 8)
  .put (bytesInt32 d.latitude) 4
  .put (bytesInt32 d.longitude) 4
  .next (byteAtInt d.altitudeCm 0)
  .next (byteAtInt d.altitudeCm 8)
  .next (byteAtInt d.altitudeCm 16)
  .next (byteAt d.heading 0)
  .next (byteAt d.heading 8)
  -- the date and time
  .put (bytes16 d.dateTime.year) 2
  .next d.dateTime.month
  .next d.dateTime.day
  .next d.dateTime.hours
  .next d.dateTime.minutes
  .memcpy [d.dateTime.seconds]

open Packer in
theorem fills_packDateTime (d : GnssBaseData) : Fills (packDateTime d) (formatDateTimeBuffer d.dateTime) :=
  (writes_put _ rfl).bind_fills ((writes_next _).bind_fills ((writes_next _).bind_fills ((writes_next _).bind_fills
    ((writes_next _).bind_fills (fills_memcpy [d.dateTime.seconds])))))

open Packer in
theorem fills_packLocAndSpd (m10 : M10Codes) (d : GnssBaseData) :
    Fills (packLocAndSpd m10 d) (formatLocAndSpdBuffer m10 d) := by
  -- what stands behind the heading is the other formatter
  have hdateTime := fills_packDateTime d
  have hheading := (writes_next (byteAt d.heading 0)).bind_fills
    ((writes_next (byteAt d.heading 8)).bind_fills hdateTime)
  have haltitude := (writes_next (byteAtInt d.altitudeCm 0)).bind_fills
    ((writes_next (byteAtInt d.altitudeCm 8)).bind_fills
      ((writes_next (byteAtInt d.altitudeCm 16)).bind_fills hheading))
  have hlocation := (writes_put (bytesInt32 d.latitude) rfl).bind_fills
    ((writes_put (bytesInt32 d.longitude) rfl).bind_fills haltitude)
  have hspeed := (writes_next (byteAt d.velocityCmPerS 0)).bind_fills
    ((writes_next (byteAt d.velocityCmPerS 8)).bind_fills hlocation)
  exact (writes_put (bytes16 (locAndSpdFlags m10 d.gnssFix)) rfl).bind_fills hspeed

/-- **The formatters fill their buffers**, whatever stood in them. -/
theorem fill_packDateTime (d : GnssBaseData) {buffer : List UInt8} (h : buffer.length = 7) :
    Packer.fill (packDateTime d) buffer = formatDateTimeBuffer d.dateTime := (fills_packDateTime d).fill h

theorem fill_packLocAndSpd (m10 : M10Codes) (d : GnssBaseData) {buffer : List UInt8} (h : buffer.length = 24) :
    Packer.fill (packLocAndSpd m10 d) buffer = formatLocAndSpdBuffer m10 d := (fills_packLocAndSpd m10 d).fill h

/-! ## The decoder -/

/-- `M10_DateTimeTypeDef`: its fields are wide enough for what is assigned to them. -/
structure M10DateTime where
  year : Nat
  month : Nat
  day : Nat
  hour : Nat
  minute : Nat
  second : Nat
  nanosecond : Nat

/-- What `gnss_date_time_upd_task` makes of `date_time_buf`. -/
def decodeDateTime (dateTimeBuf : List UInt8) : M10DateTime where
  year := (dateTimeBuf.getD 0 0).toNat ||| ((dateTimeBuf.getD 1 0).toNat <<< 8)
  month := (dateTimeBuf.getD 2 0).toNat
  day := (dateTimeBuf.getD 3 0).toNat
  hour := (dateTimeBuf.getD 4 0).toNat
  minute := (dateTimeBuf.getD 5 0).toNat
  second := (dateTimeBuf.getD 6 0).toNat
  nanosecond := 0

/-- The date and time of base data that a decoded one is stored in. -/
def M10DateTime.stored (t : M10DateTime) : DateTimeData :=
  ⟨.ofNat t.year, .ofNat t.month, .ofNat t.day, .ofNat t.hour, .ofNat t.minute, .ofNat t.second⟩

/-- The date and time of base data, as the driver takes it. -/
def M10DateTime.of (d : DateTimeData) : M10DateTime :=
  ⟨d.year.toNat, d.month.toNat, d.day.toNat, d.hours.toNat, d.minutes.toNat, d.seconds.toNat, 0⟩

theorem or_shiftLeft_eq (b₀ b₁ : UInt8) : b₀.toNat ||| b₁.toNat <<< 8 = (le16 b₀ b₁).toNat := by
  rw [toNat_le16]
  exact or_shiftLeft_of_lt b₁.toNat b₀.toNat_lt

/-- **Encoding, then decoding.** -/
theorem decode_formatDateTimeBuffer (d : DateTimeData) : decodeDateTime (formatDateTimeBuffer d) = .of d := by
  have hyear : (d.year.toUInt8).toNat ||| ((d.year >>> 8).toUInt8.toNat <<< 8) = d.year.toNat := by
    rw [or_shiftLeft_eq, le16_bytes16]
  rw [decodeDateTime, M10DateTime.of, ← hyear]
  rfl

/-- **Decoding, then encoding.** -/
theorem formatDateTimeBuffer_decode {b : List UInt8} (h : b.length = 7) :
    formatDateTimeBuffer (decodeDateTime b).stored = b := by
  match b, h with
  | [b₀, b₁, b₂, b₃, b₄, b₅, b₆], _ =>
    have hyear : UInt16.ofNat (b₀.toNat ||| b₁.toNat <<< 8) = le16 b₀ b₁ := by
      rw [or_shiftLeft_eq, UInt16.ofNat_toNat]
    show bytes16 (UInt16.ofNat (b₀.toNat ||| b₁.toNat <<< 8)) ++ [UInt8.ofNat b₂.toNat, UInt8.ofNat b₃.toNat,
      UInt8.ofNat b₄.toNat, UInt8.ofNat b₅.toNat, UInt8.ofNat b₆.toNat] = _
    rw [hyear, bytes16_le16]
    simp only [UInt8.ofNat_toNat]
    rfl

/-- What is published of a NAV-PVT has the date and time of its bytes 4 to 10. -/
theorem formatDateTimeBuffer_baseData (p : Payload) :
    formatDateTimeBuffer (baseData p).dateTime = (p.toList.drop 4).take 7 := by
  have hbytes : formatDateTimeBuffer (baseData p).dateTime =
      bytes16 (le16 p[4] p[5]) ++ [p[6], p[7], p[8], p[9], p[10]] := rfl
  rw [hbytes, bytes16_le16]
  apply List.ext_getElem
  · simp
  · intro i hi hi'
    have hlt : i < 7 := hi
    interval_cases i <;> simp

/-- **Encoders and decoder of the date and time agree.** Decoding what `BT_FormatDateTimeBuffer` has made of any date
and time gives it back; formatting what was decoded of any 7 bytes gives them back; the last 7 bytes of Location and
Speed are those of `BT_FormatDateTimeBuffer`; and what is read after a NAV-PVT was published are its bytes 4 to 10. -/
theorem dateTime_agrees (m10 : M10Codes) :
    (∀ (d : GnssBaseData) (buffer : List UInt8), buffer.length = 7 →
      decodeDateTime (Packer.fill (packDateTime d) buffer) = .of d.dateTime) ∧
    (∀ (b : List UInt8) (d : GnssBaseData) (buffer : List UInt8), b.length = 7 → buffer.length = 7 →
      Packer.fill (packDateTime { d with dateTime := (decodeDateTime b).stored }) buffer = b) ∧
    (∀ (d : GnssBaseData) (buffer buffer' : List UInt8), buffer.length = 24 → buffer'.length = 7 →
      (Packer.fill (packLocAndSpd m10 d) buffer).drop 17 = Packer.fill (packDateTime d) buffer') ∧
    ∀ (t : TelParser) (pvt : TelparserInput) (setPrecision : Bool), pvt.IsPvt m10 →
      ∀ (v : SharedValues) (set : Bool), v.gnssBaseData = (t.handle m10 pvt true setPrecision).gnssBaseData →
      (dateTimeAccessCB ⟨true, true, set⟩ v .readChr).1 =
        .data (some .gnssBaseData) ((pvt.payload.toList.drop 4).take 7) := by
  refine ⟨fun d buffer h => ?_, fun b d buffer hb h => ?_, fun d buffer buffer' h h' => ?_,
    fun t pvt setPrecision hpvt v set hv => ?_⟩
  · rw [fill_packDateTime d h]
    exact decode_formatDateTimeBuffer d.dateTime
  · rw [fill_packDateTime _ h]
    exact formatDateTimeBuffer_decode hb
  · rw [fill_packLocAndSpd m10 d h, fill_packDateTime d h']
    rfl
  · rw [TelParser.handle_pvt hpvt] at hv
    rw [← formatDateTimeBuffer_baseData]
    show Reply.data (some .gnssBaseData) (formatDateTimeBuffer v.gnssBaseData.dateTime) = _
    rw [hv]
    rfl

/-- The last second of 2024, as a client writes it. -/
def newYearsEve : List UInt8 := [0xE8, 0x07, 12, 31, 23, 59, 59]

theorem dateTime_agrees_newYearsEve :
    Packer.fill (packDateTime { gnssBaseData₀ with dateTime := (decodeDateTime newYearsEve).stored })
        (List.replicate 7 0xFF) = newYearsEve ∧
    decodeDateTime (Packer.fill (packDateTime { gnssBaseData₀ with dateTime := ⟨2024, 12, 31, 23, 59, 59⟩ })
        (List.replicate 7 0xFF)) = ⟨2024, 12, 31, 23, 59, 59, 0⟩ :=
  ⟨(dateTime_agrees someCodes).2.1 newYearsEve gnssBaseData₀ (List.replicate 7 0xFF) rfl rfl,
    (dateTime_agrees someCodes).1 _ (List.replicate 7 0xFF) rfl⟩

/-! ## Writes -/

/-- What `SHVAL_PointerExists` and `SHVAL_PointerSetValue` answer. -/
structure WriteCalls where
  pointerExists : Bool
  pointerSet : Bool

/-- `BT_DateTimeAccessCB` on `BLE_GATT_ACCESS_OP_WRITE_CHR`: the reply, and the shared value it leaves. -/
def dateTimeWrite (c : WriteCalls) (aux : Option (List UInt8)) (om : List (List UInt8)) :
    Reply × Option (List UInt8) :=
  if (om.headD []).length ≠ 7 then (.err .valueNotAllowed, aux)
  else if c.pointerExists then
    -- a failure is logged
    if c.pointerSet then (.ok, some (om.headD [])) else (.ok, aux)
  else (.ok, aux)

/-- The callback answers as `dateTimeWrite` does when `SHVAL_PointerExists` says whether there is a value. -/
theorem dateTimeAccessCB_write (c : Calls) (v : SharedValues) (om : List (List UInt8)) :
    dateTimeAccessCB c v (.writeChr om) =
      ((dateTimeWrite ⟨v.gnssAuxUtcUpdateData.isSome, c.set⟩ v.gnssAuxUtcUpdateData om).1,
        { v with gnssAuxUtcUpdateData :=
          (dateTimeWrite ⟨v.gnssAuxUtcUpdateData.isSome, c.set⟩ v.gnssAuxUtcUpdateData om).2 }) := by
  unfold dateTimeAccessCB dateTimeWrite
  dsimp only
  split
  · rfl
  · cases v.gnssAuxUtcUpdateData.isSome <;> cases c.set <;> rfl

/-- A write of `om` is acknowledged iff the value has exactly 7 bytes and has become the shared value, and changes
nothing when it is refused. -/
def Acknowledges (aux : Option (List UInt8)) (om : List (List UInt8)) (r : Reply × Option (List UInt8)) : Prop :=
  (r.1 = .ok ↔ om.flatten.length = 7 ∧ r.2 = some om.flatten) ∧ (r.1 ≠ .ok → r.2 = aux)

/-- The first segment has 7 bytes and there are no more, and they can be set or are there already; or the first segment
does not have 7 bytes, and the shared value is not already what is written. -/
def Writable (c : WriteCalls) (aux : Option (List UInt8)) (om : List (List UInt8)) : Prop :=
  (om.headD []).length = 7 ∧ om.tail.flatten = [] ∧
      (c.pointerExists = true ∧ c.pointerSet = true ∨ aux = some (om.headD [])) ∨
    (om.headD []).length ≠ 7 ∧ ¬ (om.flatten.length = 7 ∧ aux = some om.flatten)

theorem dateTimeWrite_refused (c : WriteCalls) (aux : Option (List UInt8)) {om : List (List UInt8)}
    (h : (om.headD []).length ≠ 7) : dateTimeWrite c aux om = (.err .valueNotAllowed, aux) := if_pos h

theorem dateTimeWrite_taken (c : WriteCalls) (aux : Option (List UInt8)) {segment : List UInt8}
    {rest : List (List UInt8)} (h : segment.length = 7) : dateTimeWrite c aux (segment :: rest) =
      (.ok, if c.pointerExists = true ∧ c.pointerSet = true then some segment else aux) := by
  have hlen : ¬ ((segment :: rest).headD []).length ≠ 7 := not_not.2 h
  obtain ⟨pointerExists, pointerSet⟩ := c
  rw [dateTimeWrite, if_neg hlen]
  cases pointerExists <;> cases pointerSet <;> rfl

/-- A first segment of 7 bytes is the whole value iff nothing is behind it. -/
theorem length_flatten_iff {segment : List UInt8} {rest : List (List UInt8)} (h : segment.length = 7) :
    (segment :: rest).flatten.length = 7 ↔ rest.flatten = [] := by
  rw [List.flatten_cons, List.length_append, h, ← List.length_eq_zero_iff]
  omega

/-- **When a write is acknowledged only if it took effect**, whatever is written, in whatever segments, and whatever the
calls answer. -/
theorem acknowledges_iff (c : WriteCalls) (aux : Option (List UInt8)) (om : List (List UInt8)) :
    Acknowledges aux om (dateTimeWrite c aux om) ↔ Writable c aux om := by
  by_cases hlen : (om.headD []).length = 7
  · cases om with
    | nil => cases hlen
    | cons segment rest =>
      change segment.length = 7 at hlen
      have hwhole : (segment :: rest).flatten.length = 7 ↔ rest.flatten = [] := length_flatten_iff hlen
      rw [dateTimeWrite_taken c aux hlen]
      constructor
      · rintro ⟨hack, -⟩
        obtain ⟨hseven, hstored⟩ := hack.1 rfl
        have hnil := hwhole.1 hseven
        refine .inl ⟨hlen, hnil, ?_⟩
        by_cases hc : c.pointerExists = true ∧ c.pointerSet = true
        · exact .inl hc
        · rw [if_neg hc, List.flatten_cons, hnil, List.append_nil] at hstored
          exact .inr hstored
      · rintro (⟨-, hnil, hc⟩ | ⟨hne, -⟩)
        · change rest.flatten = [] at hnil
          refine ⟨iff_of_true rfl ⟨hwhole.2 hnil, ?_⟩, fun hne => absurd rfl hne⟩
          rw [List.flatten_cons, hnil, List.append_nil]
          rcases hc with hc | (rfl : aux = some segment)
          · exact if_pos hc
          · exact ite_self _
        · exact absurd hlen hne
  · rw [dateTimeWrite_refused c aux hlen]
    constructor
    · rintro ⟨hack, -⟩
      exact .inr ⟨hlen, fun hsame => by cases hack.2 hsame⟩
    · rintro (⟨hseven, -⟩ | ⟨-, hother⟩)
      · exact absurd hseven hlen
      · exact ⟨iff_of_false (by simp) hother, fun _ => rfl⟩

/-- The value as `GNSS_Init` leaves it, and a date and time that cannot be set, or with a byte too many in a second
segment: the write is acknowledged, and the shared value is not what was written. -/
theorem write_lost :
    dateTimeWrite ⟨true, false⟩ (some (List.replicate 7 0)) [newYearsEve] = (.ok, some (List.replicate 7 0)) ∧
    ¬ Acknowledges (some (List.replicate 7 0)) [newYearsEve]
      (dateTimeWrite ⟨true, false⟩ (some (List.replicate 7 0)) [newYearsEve]) ∧
    ¬ Acknowledges (some (List.replicate 7 0)) [newYearsEve, [0x00]]
      (dateTimeWrite ⟨true, true⟩ (some (List.replicate 7 0)) [newYearsEve, [0x00]]) := by
  refine ⟨rfl, ?_, ?_⟩
  · rintro ⟨hack, -⟩
    obtain ⟨-, hstored⟩ := hack.1 rfl
    revert hstored
    decide
  · rintro ⟨hack, -⟩
    obtain ⟨hseven, -⟩ := hack.1 rfl
    cases hseven

end TrackIt.Gatt
