import TrackIt.Lib.Run
import TrackIt.Gatt.AccessCb

/-!
# Telemetry and the encryption of links

Peers connect, encrypt the link, read characteristics and subscribe to their notifications. Whether a read is permitted
is decided by the flags of the characteristic, whether a subscription is accepted by `on_gatt_subscribe_event`.

- `secure_iff`: all telemetry leaves over encrypted links iff no peer subscribes to the elevation or the position
  quality, or reads the location and speed as text, over a link that is not encrypted;
- `subscribed_encrypted`: in such runs every open subscription to telemetry is that of an encrypted link.
-/

namespace TrackIt.Gatt

open TrackIt.Lib TrackIt.Telemetry

/-! ## The table -/

/-- The fields of `BT_AttributesTypeDef`. -/
inductive Attr
  | lnFeature
  | locationAndSpeed
  | locationAndSpeedHuman
  | navData
  | gnssFixQuality
  | elevation
  | dateTime
  deriving DecidableEq

/-- The flags `BLE_GATT_CHR_F_READ`, `READ_ENC`, `WRITE`, `WRITE_ENC` and `NOTIFY`. -/
structure ChrFlags where
  read : Bool
  readEnc : Bool
  write : Bool
  writeEnc : Bool
  notify : Bool

/-- Whether a read is permitted on a link that is encrypted or not. -/
def ChrFlags.permitsRead (f : ChrFlags) (encrypted : Bool) : Bool := f.read && (!f.readEnc || encrypted)

/-- `ble_gatt_chr_def`. `valHandle` is the field that the value handle is stored in. -/
structure ChrDef where
  flags : ChrFlags
  valHandle : Attr
  accessCb : AccessCb

section Table

variable (m10 : M10Codes) (snprintf : GnssBaseData → List UInt8)

def lnFeatureChr : ChrDef := ⟨⟨true, false, false, false, false⟩, .lnFeature, lnFeaturesAccessCB⟩

def locationAndSpeedChr : ChrDef := ⟨⟨true, true, false, false, true⟩, .locationAndSpeed, locAndSpdAccessCB m10⟩

def elevationChr : ChrDef := ⟨⟨true, true, false, false, true⟩, .elevation, altitudeAccessCB⟩

def gnssFixQualityChr : ChrDef := ⟨⟨true, true, false, false, true⟩, .gnssFixQuality, gnssFixQltAccessCB m10⟩

def dateTimeChr : ChrDef := ⟨⟨true, true, true, true, false⟩, .dateTime, dateTimeAccessCB⟩

def locationAndSpeedHumanChr : ChrDef :=
  ⟨⟨true, false, false, false, false⟩, .locationAndSpeedHuman, locAndSpdHumanAccessCB snprintf⟩

/-- `gGattServices`, as built with `DEBUG_MODE_ENABLED`: the characteristics of each service. The array of the last
service has no `{0}` at its end; it ends with its one element here. -/
def gattServices : List (List ChrDef) :=
  [[lnFeatureChr, locationAndSpeedChr m10, elevationChr, gnssFixQualityChr m10], [dateTimeChr],
    [locationAndSpeedHumanChr snprintf]]

def characteristics : List ChrDef := (gattServices m10 snprintf).flatten

theorem mem_characteristics {chr : ChrDef} : chr ∈ characteristics m10 snprintf ↔
    chr = lnFeatureChr ∨ chr = locationAndSpeedChr m10 ∨ chr = elevationChr ∨ chr = gnssFixQualityChr m10 ∨
    chr = dateTimeChr ∨ chr = locationAndSpeedHumanChr snprintf := by
  simp [characteristics, gattServices]

end Table

/-! ## Subscriptions -/

/-- What `loc_and_spd_nfty_task`, `elevation_nfty_task` and `gnss_fix_qlt_task` wait for, and the characteristic that
they send it as a notification of. -/
def notifications : List (Source × Attr) :=
  [(.gnssBaseData, .locationAndSpeed), (.gnssBaseData, .elevation), (.gnssPrecisionData, .gnssFixQuality)]

/-- The notifications of a characteristic carry telemetry. -/
def Attr.Notified (a : Attr) : Prop := ∃ source, (source, a) ∈ notifications

theorem notified_iff {a : Attr} : a.Notified ↔ a = .locationAndSpeed ∨ a = .elevation ∨ a = .gnssFixQuality := by
  cases a <;> simp [Attr.Notified, notifications]

/-- `BLE_ATT_ERR_INSUFFICIENT_AUTHEN` -/
def attErrInsufficientAuthen : UInt8 := 0x05

/-- `on_gatt_subscribe_event`. `check` is what `BLE_CheckConnEncrypted` reports, if it does not fail. -/
def onGattSubscribeEvent (gBleAttributes : Attr → UInt16) (attrHandle : UInt16) (check : Option Bool) : UInt8 :=
  if attrHandle = gBleAttributes .locationAndSpeed then
    if check ≠ some true then attErrInsufficientAuthen else 0
  else 0

/-! ## Links -/

structure World where
  /-- The connections, each with whether it is encrypted. -/
  conns : UInt16 → Option Bool
  /-- The subscriptions of the connections. -/
  subs : List (UInt16 × Attr)
  values : SharedValues

def World.Encrypted (w : World) (conn : UInt16) : Prop := w.conns conn = some true

instance (w : World) (conn : UInt16) : Decidable (w.Encrypted conn) := inferInstanceAs (Decidable (_ = _))

/-- A connection made, encrypted, or gone. -/
def World.setConn (w : World) (conn : UInt16) (state : Option Bool) : World :=
  { w with conns := fun c => if c = conn then state else w.conns c }

inductive Label
  | connect (conn : UInt16)
  | encrypt (conn : UInt16)
  | disconnect (conn : UInt16)
  | read (conn : UInt16) (chr : ChrDef) (calls : Calls)
  | subscribe (conn : UInt16) (chr : ChrDef) (check : Option Bool)
  | publish (values : SharedValues)

section Steps

variable (m10 : M10Codes) (snprintf : GnssBaseData → List UInt8) (gBleAttributes : Attr → UInt16)

/-- `BLE_CheckConnEncrypted` fails, or reports the state of the connection. -/
inductive Step : World → Label → World → Prop
  | connect (w : World) (conn : UInt16) (h : w.conns conn = none) :
      Step w (.connect conn) (w.setConn conn (some false))
  | encrypt (w : World) (conn : UInt16) (h : w.conns conn ≠ none) :
      Step w (.encrypt conn) (w.setConn conn (some true))
  | disconnect (w : World) (conn : UInt16) (h : w.conns conn ≠ none) :
      Step w (.disconnect conn) { w.setConn conn none with subs := w.subs.filter (·.1 ≠ conn) }
  | read (w : World) (conn : UInt16) (chr : ChrDef) (calls : Calls) (h : w.conns conn ≠ none)
      (hchr : chr ∈ characteristics m10 snprintf) : Step w (.read conn chr calls) w
  | subscribe (w : World) (conn : UInt16) (chr : ChrDef) (check : Option Bool) (h : w.conns conn ≠ none)
      (hchr : chr ∈ characteristics m10 snprintf) (hnotify : chr.flags.notify = true)
      (hcheck : check = none ∨ check = w.conns conn) :
      Step w (.subscribe conn chr check)
        (if onGattSubscribeEvent gBleAttributes (gBleAttributes chr.valHandle) check = 0 then
          { w with subs := (conn, chr.valHandle) :: w.subs } else w)
  | publish (w : World) (values : SharedValues) : Step w (.publish values) { w with values := values }

/-- Telemetry leaves over encrypted links: that of an accepted subscription, and that of a permitted read. -/
def Secure (w : World) : Label → Prop
  | .subscribe conn chr check =>
    chr.valHandle.Notified → onGattSubscribeEvent gBleAttributes (gBleAttributes chr.valHandle) check = 0 →
      w.Encrypted conn
  | .read conn chr calls =>
    ∀ encrypted, w.conns conn = some encrypted → chr.flags.permitsRead encrypted = true →
      (chr.accessCb calls w.values .readChr).1.Discloses → encrypted = true
  | _ => True

/-- No subscription to the elevation or the position quality, and no read of the location and speed as text whose calls
succeed, over a link that is not encrypted. -/
def Careful (w : World) : Label → Prop
  | .subscribe conn chr _ => chr.valHandle = .elevation ∨ chr.valHandle = .gnssFixQuality → w.Encrypted conn
  | .read conn chr calls =>
    chr.valHandle = .locationAndSpeedHuman → calls.get = true → calls.append = true → w.Encrypted conn
  | _ => True

/-- The registered characteristics have different value handles. -/
def DistinctHandles : Prop :=
  ∀ chr ∈ characteristics m10 snprintf, ∀ chr' ∈ characteristics m10 snprintf,
    gBleAttributes chr.valHandle = gBleAttributes chr'.valHandle → chr.valHandle = chr'.valHandle

end Steps

/-- No connection yet. -/
def World.boot (values : SharedValues) : World := ⟨fun _ => none, [], values⟩

/-! ## One step -/

section Secure

variable {m10 : M10Codes} {snprintf : GnssBaseData → List UInt8} {gBleAttributes : Attr → UInt16}
variable {w w' : World} {chr : ChrDef} {conn : UInt16} {check : Option Bool} {calls : Calls}

/-- Without encryption the features can be read, and the location and speed as text. -/
theorem permitsRead_iff (hchr : chr ∈ characteristics m10 snprintf) {encrypted : Bool} :
    chr.flags.permitsRead encrypted = true ↔
      chr.valHandle = .lnFeature ∨ chr.valHandle = .locationAndSpeedHuman ∨ encrypted = true := by
  rcases (mem_characteristics m10 snprintf).1 hchr with rfl | rfl | rfl | rfl | rfl | rfl <;>
    simp [ChrFlags.permitsRead, lnFeatureChr, locationAndSpeedChr, elevationChr, gnssFixQualityChr, dateTimeChr,
      locationAndSpeedHumanChr]

/-- Every characteristic but the features discloses telemetry. -/
theorem discloses_iff (hchr : chr ∈ characteristics m10 snprintf) {v : SharedValues} :
    (chr.accessCb calls v .readChr).1.Discloses ↔
      chr.valHandle ≠ .lnFeature ∧ calls.get = true ∧ calls.append = true := by
  rcases (mem_characteristics m10 snprintf).1 hchr with rfl | rfl | rfl | rfl | rfl | rfl
  · exact iff_of_false not_discloses_lnFeatures fun h => h.1 rfl
  · exact discloses_readShared.trans (and_iff_right nofun).symm
  · exact discloses_readShared.trans (and_iff_right nofun).symm
  · exact discloses_readShared.trans (and_iff_right nofun).symm
  · exact discloses_dateTime.trans (and_iff_right nofun).symm
  · exact discloses_readShared.trans (and_iff_right nofun).symm

/-- The characteristics that can be subscribed to are those that telemetry is sent as notifications of. -/
theorem notified_of_notify (hchr : chr ∈ characteristics m10 snprintf) (h : chr.flags.notify = true) :
    chr.valHandle.Notified := by
  rcases (mem_characteristics m10 snprintf).1 hchr with rfl | rfl | rfl | rfl | rfl | rfl
  · cases h
  · exact notified_iff.2 (.inl rfl)
  · exact notified_iff.2 (.inr (.inl rfl))
  · exact notified_iff.2 (.inr (.inr rfl))
  · cases h
  · cases h

/-- **What `on_gatt_subscribe_event` accepts**: the check is made for the location and speed alone. -/
theorem onGattSubscribeEvent_eq_zero (hdistinct : DistinctHandles m10 snprintf gBleAttributes)
    (hchr : chr ∈ characteristics m10 snprintf) :
    onGattSubscribeEvent gBleAttributes (gBleAttributes chr.valHandle) check = 0 ↔
      (chr.valHandle = .locationAndSpeed → check = some true) := by
  have hlas : locationAndSpeedChr m10 ∈ characteristics m10 snprintf :=
    (mem_characteristics m10 snprintf).2 (.inr (.inl rfl))
  by_cases hv : chr.valHandle = .locationAndSpeed
  · simp [onGattSubscribeEvent, hv, attErrInsufficientAuthen]
  · have hne : gBleAttributes chr.valHandle ≠ gBleAttributes .locationAndSpeed :=
      fun he => hv (hdistinct chr hchr _ hlas he)
    simp [onGattSubscribeEvent, hv, hne]

/-- A read is secure iff it is careful. -/
theorem secure_read_iff (hconn : w.conns conn ≠ none) (hchr : chr ∈ characteristics m10 snprintf) :
    Secure gBleAttributes w (.read conn chr calls) ↔ Careful w (.read conn chr calls) := by
  obtain ⟨encrypted, he⟩ := Option.ne_none_iff_exists'.1 hconn
  simp only [Secure, Careful, World.Encrypted, he, permitsRead_iff hchr, discloses_iff hchr, Option.some.injEq]
  constructor
  · intro h hhuman hget happend
    exact h encrypted rfl (.inr (.inl hhuman)) ⟨by simp [hhuman], hget, happend⟩
  · rintro h _ rfl (hln | hhuman | henc) ⟨hne, hget, happend⟩
    · exact absurd hln hne
    · exact h hhuman hget happend
    · exact henc

/-- A subscription is secure iff it is careful. -/
theorem secure_subscribe_iff (hdistinct : DistinctHandles m10 snprintf gBleAttributes)
    (hchr : chr ∈ characteristics m10 snprintf) (hnotify : chr.flags.notify = true)
    (hcheck : check = none ∨ check = w.conns conn) :
    Secure gBleAttributes w (.subscribe conn chr check) ↔ Careful w (.subscribe conn chr check) := by
  have hnotified := notified_of_notify hchr hnotify
  simp only [Secure, Careful, onGattSubscribeEvent_eq_zero hdistinct hchr]
  constructor
  · intro h hv
    apply h hnotified
    intro hlas
    rcases hv with hv | hv <;> rw [hlas] at hv <;> cases hv
  · intro h _ haccepted
    rcases notified_iff.1 hnotified with hlas | hv
    · have hsome := haccepted hlas
      rcases hcheck with hnone | hreport
      · rw [hnone] at hsome
        cases hsome
      · exact hreport.symm.trans hsome
    · exact h hv

theorem secure_step_iff (hdistinct : DistinctHandles m10 snprintf gBleAttributes) {l : Label}
    (hs : Step m10 snprintf gBleAttributes w l w') : Secure gBleAttributes w l ↔ Careful w l := by
  cases hs with
  | connect conn h | encrypt conn h | disconnect conn h | publish values => exact Iff.rfl
  | read conn chr calls h hchr => exact secure_read_iff h hchr
  | subscribe conn chr check h hchr hnotify hcheck => exact secure_subscribe_iff hdistinct hchr hnotify hcheck

/-! ## Runs -/

variable {values : SharedValues} {tr : List (World × Label)}

/-- **Telemetry leaves over encrypted links only** in exactly the runs without a subscription to the elevation or the
position quality, and without a successful read of the location and speed as text, over a link that is not encrypted. -/
theorem secure_iff (hdistinct : DistinctHandles m10 snprintf gBleAttributes)
    (h : Run (Step m10 snprintf gBleAttributes) (World.boot values) tr w) :
    (∀ p ∈ tr, Secure gBleAttributes p.1 p.2) ↔ ∀ p ∈ tr, Careful p.1 p.2 :=
  h.forall_steps_iff fun _ _ _ hs => secure_step_iff hdistinct hs

/-- The subscriptions to telemetry are those of encrypted links. -/
def World.SubscribedEncrypted (w : World) : Prop := ∀ s ∈ w.subs, s.2.Notified → w.Encrypted s.1

theorem subscribedEncrypted_step (hdistinct : DistinctHandles m10 snprintf gBleAttributes) {l : Label}
    (hw : w.SubscribedEncrypted) (hl : Careful w l) (hs : Step m10 snprintf gBleAttributes w l w') :
    w'.SubscribedEncrypted := by
  have hsecure := (secure_step_iff hdistinct hs).2 hl
  cases hs with
  | connect conn h =>
    intro s hmem hn
    have hs := hw s hmem hn
    have hne : s.1 ≠ conn := fun he => by rw [← he, hs] at h; cases h
    simpa [World.Encrypted, World.setConn, hne] using hs
  | encrypt conn h =>
    intro s hmem hn
    by_cases he : s.1 = conn
    · simp [World.Encrypted, World.setConn, he]
    · simpa [World.Encrypted, World.setConn, he] using hw s hmem hn
  | disconnect conn h =>
    intro s hmem hn
    obtain ⟨hmem, hne⟩ := List.mem_filter.1 hmem
    have hne : s.1 ≠ conn := by simpa using hne
    simpa [World.Encrypted, World.setConn, hne] using hw s hmem hn
  | read conn chr calls h hchr => exact hw
  | subscribe conn chr check h hchr hnotify hcheck =>
    split
    · rename_i haccepted
      intro s hmem hn
      rcases List.mem_cons.1 hmem with rfl | hmem
      · exact hsecure hn haccepted
      · exact hw s hmem hn
    · exact hw
  | publish values => exact hw

/-- **Open subscriptions**: in a careful run, telemetry is only ever subscribed to over encrypted links. -/
theorem subscribed_encrypted (hdistinct : DistinctHandles m10 snprintf gBleAttributes)
    (h : Run (Step m10 snprintf gBleAttributes) (World.boot values) tr w) (hC : ∀ p ∈ tr, Careful p.1 p.2) :
    w.SubscribedEncrypted :=
  h.guarded (fun _ hs => absurd hs List.not_mem_nil)
    (fun _ _ _ hw hl hs => subscribedEncrypted_step hdistinct hw hl hs) hC

end Secure

/-! ## Two links -/

/-- Value handles such as NimBLE assigns. -/
def someHandles : Attr → UInt16
  | .lnFeature => 16
  | .locationAndSpeed => 19
  | .elevation => 23
  | .gnssFixQuality => 27
  | .dateTime => 32
  | .locationAndSpeedHuman => 36
  | .navData => 0

theorem distinct_someHandles (m10 : M10Codes) (snprintf : GnssBaseData → List UInt8) :
    DistinctHandles m10 snprintf someHandles := by
  intro chr _ chr' _ h
  revert h
  generalize chr.valHandle = a
  generalize chr'.valHandle = a'
  cases a <;> cases a' <;> decide

/-- A text such as `snprintf` writes. -/
def someText : GnssBaseData → List UInt8 := fun _ => "Longitude: 0.0000000".toUTF8.toList

/-- The initial shared values. -/
def sharedValues₀ : SharedValues := ⟨gnssBaseData₀, gnssPrecisionData₀, some (List.replicate 7 0)⟩

/-- A peer has connected. -/
def openLink : World := (World.boot sharedValues₀).setConn 1 (some false)

theorem openLink_run : Run (Step someCodes someText someHandles) (World.boot sharedValues₀)
    [(World.boot sharedValues₀, .connect 1)] openLink :=
  .single (.connect _ 1 rfl)

theorem elevation_mem (m10 : M10Codes) (snprintf : GnssBaseData → List UInt8) :
    elevationChr ∈ characteristics m10 snprintf :=
  (mem_characteristics m10 snprintf).2 (.inr (.inr (.inl rfl)))

theorem locationAndSpeedHuman_mem (m10 : M10Codes) (snprintf : GnssBaseData → List UInt8) :
    locationAndSpeedHumanChr snprintf ∈ characteristics m10 snprintf := by
  simp [mem_characteristics]

/-- A peer that has not encrypted the link subscribes to the elevation: it is accepted, and so is a read of the location
and speed as text. -/
theorem unencrypted_telemetry : DistinctHandles someCodes someText someHandles ∧
    ∃ tr w, Run (Step someCodes someText someHandles) (World.boot sharedValues₀) tr w ∧
      (1, Attr.elevation) ∈ w.subs ∧ ¬ w.Encrypted 1 ∧
      (∃ p ∈ tr, ∃ conn chr check, p.2 = .subscribe conn chr check ∧ ¬ Secure someHandles p.1 p.2) ∧
      ∃ p ∈ tr, ∃ conn chr calls, p.2 = .read conn chr calls ∧ ¬ Secure someHandles p.1 p.2 := by
  have hread := openLink_run.snoc (.read openLink 1 _ ⟨true, true, true⟩ (by decide)
    (locationAndSpeedHuman_mem someCodes someText))
  have hsub := hread.snoc (.subscribe openLink 1 _ (some false) (by decide) (elevation_mem someCodes someText) rfl
    (.inr rfl))
  refine ⟨distinct_someHandles _ _, _, _, hsub, by decide, by decide,
    ⟨_, List.mem_append_right _ (List.mem_singleton_self _), _, _, _, rfl, ?_⟩,
    ⟨_, List.mem_append_left _ (List.mem_append_right _ (List.mem_singleton_self _)), _, _, _, rfl, ?_⟩⟩
  · intro hsecure
    exact absurd (hsecure (notified_iff.2 (.inr (.inl rfl))) (by decide)) (by decide)
  · intro hsecure
    exact absurd (hsecure false rfl rfl ⟨_, _, rfl⟩) (by decide)

/-- A peer that has encrypted the link subscribes to the elevation. -/
theorem secure_iff_encrypted : ∃ tr w, Run (Step someCodes someText someHandles) (World.boot sharedValues₀) tr w ∧
    (1, Attr.elevation) ∈ w.subs ∧
    ((∀ p ∈ tr, Secure someHandles p.1 p.2) ↔ ∀ p ∈ tr, Careful p.1 p.2) := by
  have henc := openLink_run.snoc (.encrypt openLink 1 (by decide))
  have hsub := henc.snoc (.subscribe _ 1 _ (some true) (by decide) (elevation_mem someCodes someText) rfl (.inr rfl))
  exact ⟨_, _, hsub, by decide, secure_iff (distinct_someHandles _ _) hsub⟩

end TrackIt.Gatt
