import TrackIt.Lib.Run
import TrackIt.Telemetry.Parser

/-!
# From accepted frames to published telemetry

`handle_ubx_msg` turns every frame that `UBX_ParseMessage` accepts into an item of the telemetry queue, and
`tel_parser_task` takes the items out in order. When the payload is too long or missing, `handle_ubx_msg` says so in the
log and queues the item all the same, with a payload of zeros; and `tel_parser_task` never looks at the length.

- `allowed_of_benign`: in a run whose NAV-PVT and NAV-DOP frames are complete, only complete frames change what is
  published;
- `exists_run_not_allowed`: any other NAV-PVT or NAV-DOP frame can change it.
-/

namespace TrackIt.Telemetry

open TrackIt.Lib

/-- `UBX_MessageTypeDef`: a message that `UBX_ParseMessage` has accepted. `payloadPoolItem` is the slot of the payload
pool (of 1 KB) that holds the payload, or `NULL`. -/
structure UbxMessage where
  cls : UInt8
  messageId : UInt8
  length : UInt16
  payloadPoolItem : Option (Vector UInt8 1024)

/-- The first `n` bytes of `src` over `dst`. -/
def memcpy (dst : Payload) (src : Vector UInt8 1024) (n : Nat) : Payload :=
  Vector.ofFn fun i =>
    have hi : i.1 < 1024 := by omega
    if i.1 < n then src[i.1] else dst[i]

/-- `Payload` is not among the initializers of `telparser_input`. -/
def zeroPayload : Payload := Vector.replicate 256 0

/-- The payload of `telparser_input` when it is sent to the queue. -/
def telparserPayload (m : UbxMessage) : Payload :=
  if 256 < m.length.toNat then zeroPayload
  else match m.payloadPoolItem with
    | none => zeroPayload
    | some item => memcpy zeroPayload item m.length.toNat

/-- `telparser_input` of `handle_ubx_msg`. -/
def telparserInput (m : UbxMessage) : TelparserInput := ⟨m.cls, m.messageId, m.length, telparserPayload m⟩

namespace UbxMessage

def IsPvt (m10 : M10Codes) (m : UbxMessage) : Prop := m.cls = m10.ubxClassNav ∧ m.messageId = m10.ubxIdNavPvt

def IsDop (m10 : M10Codes) (m : UbxMessage) : Prop := m.cls = m10.ubxClassNav ∧ m.messageId = m10.ubxIdNavDop

/-- The payload has at least `n` bytes, and all of it is copied into the queue item. -/
def Complete (m : UbxMessage) (n : Nat) : Prop :=
  n ≤ m.length.toNat ∧ m.length.toNat ≤ 256 ∧ m.payloadPoolItem.isSome

/-- A NAV-PVT or NAV-DOP that is complete as far as it is read, or another message. -/
def Benign (m10 : M10Codes) (m : UbxMessage) : Prop :=
  (m.IsPvt m10 → m.Complete 64) ∧ (m.IsDop m10 → m.Complete 14)

end UbxMessage

/-! ## The queue between the two -/

/-- `TELPARSER_QUEUE_SIZE` -/
def telparserQueueSize : Nat := 5

structure World where
  /-- The messages whose items are in `TelemetryParserQueue`. -/
  queue : List UbxMessage
  parser : TelParser

inductive Label
  /-- `handle_ubx_msg` gets a message. -/
  | frame (m : UbxMessage)
  /-- `tel_parser_task` takes the item of `m`. -/
  | receive (m : UbxMessage) (setBase setPrecision : Bool)

def World.boot (m10 : M10Codes) : World := ⟨[], .init m10⟩

inductive Step (m10 : M10Codes) : World → Label → World → Prop
  | frame (w : World) (m : UbxMessage) (h : w.queue.length < telparserQueueSize) :
      Step m10 w (.frame m) { w with queue := w.queue ++ [m] }
  /-- `xQueueSend` fails. -/
  | dropped (w : World) (m : UbxMessage) (h : telparserQueueSize ≤ w.queue.length) : Step m10 w (.frame m) w
  | receive (w : World) (m : UbxMessage) (rest : List UbxMessage) (setBase setPrecision : Bool)
      (h : w.queue = m :: rest) :
      Step m10 w (.receive m setBase setPrecision)
        ⟨rest, w.parser.handle m10 (telparserInput m) setBase setPrecision⟩

/-- What a step changes comes from a complete message: base data, fix and satellite count from a NAV-PVT with at least
64 bytes, precision data from a NAV-DOP with at least 14. -/
def Allowed (m10 : M10Codes) (w : World) (l : Label) (w' : World) : Prop :=
  (w'.parser.gnssBaseData ≠ w.parser.gnssBaseData ∨ w'.parser.lastFix ≠ w.parser.lastFix ∨
      w'.parser.lastVehicleCount ≠ w.parser.lastVehicleCount →
    ∃ m setBase setPrecision, l = .receive m setBase setPrecision ∧ m.IsPvt m10 ∧ m.Complete 64) ∧
  (w'.parser.gnssPrecisionData ≠ w.parser.gnssPrecisionData →
    ∃ m setBase setPrecision, l = .receive m setBase setPrecision ∧ m.IsDop m10 ∧ m.Complete 14)

variable {m10 : M10Codes}

/-- Nothing changes. -/
theorem allowed_refl (w : World) (queue : List UbxMessage) (l : Label) : Allowed m10 w l ⟨queue, w.parser⟩ := by
  refine ⟨fun hc => ?_, fun hc => absurd rfl hc⟩
  rcases hc with hc | hc | hc <;> exact absurd rfl hc

/-- Taking a benign message changes what it may. -/
theorem allowed_receive {w : World} {m : UbxMessage} {rest : List UbxMessage} (hm : m.Benign m10)
    (setBase setPrecision : Bool) :
    Allowed m10 w (.receive m setBase setPrecision)
      ⟨rest, w.parser.handle m10 (telparserInput m) setBase setPrecision⟩ := by
  rcases TelParser.handle_cases m10 w.parser (telparserInput m) setBase setPrecision with
    ⟨hpvt, h⟩ | ⟨hdop, h⟩ | ⟨-, -, h⟩
  · rw [h]
    exact ⟨fun _ => ⟨m, setBase, setPrecision, rfl, hpvt, hm.1 hpvt⟩, fun hc => absurd rfl hc⟩
  · rw [h]
    refine ⟨fun hc => ?_, fun _ => ⟨m, setBase, setPrecision, rfl, hdop, hm.2 hdop⟩⟩
    rcases hc with hc | hc | hc <;> exact absurd rfl hc
  · rw [h]
    exact allowed_refl w rest _

/-- **Benign messages.** The queue holds benign messages only, and every step is allowed. -/
theorem benign_step {w w' : World} {l : Label} (hq : ∀ m ∈ w.queue, m.Benign m10)
    (hl : ∀ m, l = .frame m → m.Benign m10) (hs : Step m10 w l w') :
    (∀ m ∈ w'.queue, m.Benign m10) ∧ Allowed m10 w l w' := by
  cases hs with
  | frame m h =>
    refine ⟨fun m' hm' => ?_, allowed_refl w _ _⟩
    rcases List.mem_append.1 hm' with hm' | hm'
    · exact hq m' hm'
    · rw [List.mem_singleton.1 hm']
      exact hl m rfl
  | dropped m h => exact ⟨hq, allowed_refl w _ _⟩
  | receive m rest setBase setPrecision h =>
    rw [h] at hq
    exact ⟨fun m' hm' => hq m' (List.mem_cons_of_mem _ hm'), allowed_receive (hq m List.mem_cons_self) _ _⟩

/-- The steps of a run of benign messages are allowed. -/
theorem allowed_of_benign {tr : List (World × Label)} {w : World} (h : Run (Step m10) (World.boot m10) tr w)
    (hb : ∀ p ∈ tr, ∀ m, p.2 = .frame m → m.Benign m10) :
    ∀ p ∈ tr, ∀ w', Step m10 p.1 p.2 w' → Allowed m10 p.1 p.2 w' := by
  have hgood := h.guarded_throughout (J := fun w => ∀ m ∈ w.queue, m.Benign m10)
    (Q := fun w l => ∀ w', Step m10 w l w' → Allowed m10 w l w')
    (C := fun _ l => ∀ m, l = .frame m → m.Benign m10) (by simp [World.boot])
    (fun w l w' hq hl hs => ⟨(benign_step hq hl hs).1, fun w'' hs' => (benign_step hq hl hs').2⟩) hb
  exact hgood.2

/-! ## Messages that are not benign -/

/-- A complete NAV-PVT whose bytes are all `x`. -/
def pvtFrame (m10 : M10Codes) (x : UInt8) : UbxMessage :=
  ⟨m10.ubxClassNav, m10.ubxIdNavPvt, 64, some (Vector.replicate 1024 x)⟩

theorem length_pvtFrame (x : UInt8) : (pvtFrame m10 x).length.toNat = 64 := rfl

theorem complete_pvtFrame (x : UInt8) : (pvtFrame m10 x).Complete 64 := by
  refine ⟨?_, ?_, rfl⟩ <;> rw [length_pvtFrame]
  decide

theorem benign_pvtFrame (x : UInt8) : (pvtFrame m10 x).Benign m10 :=
  ⟨fun _ => complete_pvtFrame x, fun hdop => absurd hdop.2 m10.pvt_ne_dop⟩

theorem fixType_pvtFrame (x : UInt8) : fixType (telparserPayload (pvtFrame m10 x)) = x.toNat := by
  have hlen : ¬ 256 < (pvtFrame m10 x).length.toNat := by rw [length_pvtFrame]; decide
  rw [telparserPayload, if_neg hlen]
  simp [pvtFrame, fixType, memcpy]

/-- A NAV-PVT, and then a message that is not benign, each taken out of the queue at once. -/
theorem two_frames_run (g m : UbxMessage) : ∃ tr w, Run (Step m10) (World.boot m10) tr w ∧
    (∀ p ∈ tr, ∀ m', p.2 = .frame m' → m' = g ∨ m' = m) ∧ w.queue = [m] ∧
    w.parser = (TelParser.init m10).handle m10 (telparserInput g) true true := by
  have h₁ := Run.single (@Step.frame m10 (World.boot m10) g (Nat.succ_pos 4))
  have h₂ := h₁.snoc (Step.receive _ g [] true true rfl)
  have h₃ := h₂.snoc (Step.frame _ m (Nat.succ_pos 4))
  refine ⟨_, _, h₃, ?_, rfl, rfl⟩
  intro p hp m' hm'
  simp only [List.cons_append, List.nil_append, List.mem_cons, List.not_mem_nil, or_false] at hp
  rcases hp with rfl | rfl | rfl
  · exact .inl (Label.frame.inj hm').symm
  · cases hm'
  · exact .inr (Label.frame.inj hm').symm

theorem exists_fix (a : UInt8) : ∃ x : UInt8, x ≠ a ∧ x ≠ 0 := by
  by_cases ha : a = 1
  · exact ⟨2, by rw [ha]; decide, by decide⟩
  · exact ⟨1, Ne.symm ha, by decide⟩

/-- **Whatever is wrong with a NAV-PVT or NAV-DOP, it can change what is published**: after a fix type that it does not
repeat, a NAV-PVT changes the fix, and a NAV-DOP publishes it. -/
theorem exists_run_not_allowed {m : UbxMessage} (hm : ¬ m.Benign m10) : ∃ tr w, Run (Step m10) (World.boot m10) tr w ∧
    (∀ p ∈ tr, ∀ m', p.2 = .frame m' → m'.Benign m10 ∨ m' = m) ∧
    ∃ p ∈ tr, ∃ w', Step m10 p.1 p.2 w' ∧ ¬ Allowed m10 p.1 p.2 w' := by
  obtain ⟨x, hx, hx₀⟩ := exists_fix (telparserPayload m)[20]
  obtain ⟨tr, w, hr, hframes, hq, hw⟩ := @two_frames_run m10 (pvtFrame m10 x) m
  have hs := @Step.receive m10 w m [] true true hq
  refine ⟨_, _, hr.snoc hs, ?_, (w, .receive m true true), by simp, _, hs, ?_⟩
  · intro p hp m' hm'
    rcases List.mem_append.1 hp with hp | hp
    · rcases hframes p hp m' hm' with rfl | rfl
      · exact .inl (benign_pvtFrame x)
      · exact .inr rfl
    · rw [List.mem_singleton.1 hp] at hm'
      cases hm'
  · have hbefore : w.parser = (TelParser.init m10).navPvt (telparserPayload (pvtFrame m10 x)) true := by
      rw [hw]
      exact TelParser.handle_pvt ⟨rfl, rfl⟩
    have hfix : w.parser.lastFix = x.toNat := by
      rw [hbefore, TelParser.lastFix_navPvt, fixType_pvtFrame]
    rintro ⟨hbase, hprecision⟩
    rcases TelParser.handle_cases m10 w.parser (telparserInput m) true true with
      ⟨hpvt, h⟩ | ⟨hdop, h⟩ | ⟨hpvt, hdop, -⟩
    · have hchange : (w.parser.handle m10 (telparserInput m) true true).lastFix ≠ w.parser.lastFix := by
        rw [h, hfix, TelParser.lastFix_navPvt]
        exact fun he => hx (UInt8.toNat_inj.1 he.symm)
      obtain ⟨m', _, _, he, -, hc⟩ := hbase (.inr (.inl hchange))
      obtain rfl := (Label.receive.inj he).1
      exact hm ⟨fun _ => hc, fun hdop => absurd (hpvt.2.symm.trans hdop.2) m10.pvt_ne_dop⟩
    · have hchange : (w.parser.handle m10 (telparserInput m) true true).gnssPrecisionData ≠
          w.parser.gnssPrecisionData := by
        intro he
        have hfix₀ := congrArg GnssPrecisionData.gnssFix he
        rw [h, TelParser.gnssPrecisionData_navDop, precisionData, hfix, hbefore,
          TelParser.gnssPrecisionData_navPvt] at hfix₀
        exact hx₀ (UInt8.toNat_inj.1 hfix₀)
      obtain ⟨m', _, _, he, -, hc⟩ := hprecision hchange
      obtain rfl := (Label.receive.inj he).1
      exact hm ⟨fun hpvt => absurd (hpvt.2.symm.trans hdop.2) m10.pvt_ne_dop, fun _ => hc⟩
    · exact hm ⟨fun h => absurd h hpvt, fun h => absurd h hdop⟩

/-! ## Which messages are safe -/

/-- **Only complete messages change the published telemetry** in the runs whose NAV-PVT and NAV-DOP messages have a
payload that is there, fits in the queue item and reaches as far as it is read; and any other NAV-PVT or NAV-DOP spoils
some run of such messages and itself. -/
theorem published_exactly (m10 : M10Codes) :
    (∀ tr w, Run (Step m10) (World.boot m10) tr w → (∀ p ∈ tr, ∀ m, p.2 = .frame m → m.Benign m10) →
      ∀ p ∈ tr, ∀ w', Step m10 p.1 p.2 w' → Allowed m10 p.1 p.2 w') ∧
    (∀ m : UbxMessage, ¬ m.Benign m10 → ∃ tr w, Run (Step m10) (World.boot m10) tr w ∧
      (∀ p ∈ tr, ∀ m', p.2 = .frame m' → m'.Benign m10 ∨ m' = m) ∧
      ∃ p ∈ tr, ∃ w', Step m10 p.1 p.2 w' ∧ ¬ Allowed m10 p.1 p.2 w') :=
  ⟨fun _ _ hr hb => allowed_of_benign hr hb, fun _ hm => exists_run_not_allowed hm⟩

/-- A NAV-PVT of the usual length whose payload found no slot in the pool. -/
def lostPvt : UbxMessage := ⟨0x01, 0x07, 92, none⟩

/-- It changes what is published. -/
theorem lost_payload_published : ∃ tr w, Run (Step someCodes) (World.boot someCodes) tr w ∧
    (∀ p ∈ tr, ∀ m, p.2 = .frame m → m.Benign someCodes ∨ m = lostPvt) ∧ ¬ lostPvt.Complete 64 ∧
    ∃ p ∈ tr, ∃ w', Step someCodes p.1 p.2 w' ∧ ¬ Allowed someCodes p.1 p.2 w' := by
  have hlost : ¬ lostPvt.Complete 64 := fun h => absurd h.2.2 (by decide)
  have hbad : ¬ lostPvt.Benign someCodes := fun hb => hlost (hb.1 ⟨rfl, rfl⟩)
  obtain ⟨tr, w, hr, hframes, hp⟩ := exists_run_not_allowed hbad
  exact ⟨tr, w, hr, hframes, hlost, hp⟩

/-- A run of two complete NAV-PVTs. -/
theorem published_exactly_pvt : ∃ tr w, Run (Step someCodes) (World.boot someCodes) tr w ∧ w.parser.lastFix = 3 ∧
    ∀ p ∈ tr, ∀ w', Step someCodes p.1 p.2 w' → Allowed someCodes p.1 p.2 w' := by
  obtain ⟨tr, w, hr, hframes, -, hw⟩ := @two_frames_run someCodes (pvtFrame someCodes 3) (pvtFrame someCodes 3)
  refine ⟨tr, w, hr, ?_, (published_exactly someCodes).1 tr w hr fun p hp m hm => ?_⟩
  · rw [hw, TelParser.handle_pvt ⟨rfl, rfl⟩, TelParser.lastFix_navPvt]
    exact fixType_pvtFrame 3
  · rcases hframes p hp m hm with rfl | rfl <;> exact benign_pvtFrame 3

end TrackIt.Telemetry