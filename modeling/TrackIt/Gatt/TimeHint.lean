import TrackIt.Lib.Subscriber
import TrackIt.Gatt.Link
import TrackIt.Gatt.DateTime

/-!
# The time hint

A client writes the date and time, `BT_DateTimeAccessCB` stores it as `GnssAuxUtcUpdateData`, and
`gnss_date_time_upd_task` hands it to the receiver unless that has a fix. A hint that the task has not copied yet is
replaced by the next one; `World.written`, `World.decided` and `World.hinted` record what becomes of the hints.

`SHVAL_PointerSetValue` stores the value and then sets the event bit, `SHVAL_PointerWaitForValue` clears the bit and
then copies the value, or fails at any point; other tasks get in between (`Subscriber`).

- `write_permitted`: a hint comes over an encrypted link;
- `hints_sound`: the receiver is handed hints that were written, in order, and only without a fix;
- `last_hint_decided`: when the task waits and nothing is new, it has decided on the last one.
-/

namespace TrackIt.Gatt.TimeHint

open TrackIt.Lib TrackIt.Telemetry TrackIt.Gatt

/-- Whether a write is permitted on a link that is encrypted or not. -/
def permitsWrite (f : ChrFlags) (encrypted : Bool) : Bool := f.write && (!f.writeEnc || encrypted)

/-- Where `gnss_date_time_upd_task` stands: in `SHVAL_PointerWaitForValue`, or before `M10_HasValidFix` or `M10_SetUTC`
with its copy. -/
inductive Pc
  | waiting
  | got (dateTimeBuf : List UInt8)
  | setting (dateTimeBuf : List UInt8)

/-- The copy that the task has not decided on. -/
def Pc.undecided : Pc → Option (List UInt8)
  | .waiting => none
  | .got buf => some buf
  | .setting _ => none

/-- The copy that the task is about to hand on. -/
def Pc.handingOn : Pc → Option (List UInt8)
  | .waiting => none
  | .got _ => none
  | .setting buf => some buf

structure World where
  link : Gatt.World
  /-- `BT_AUX_UTC_UPDATE_DATA_EVT_BIT`, and how far the calls that set it and wait for it have got. -/
  sub : Subscriber
  pc : Pc
  /-- The hints that were stored. -/
  written : List (List UInt8)
  /-- The hints that the task has decided on, each with whether there was a fix. -/
  decided : List (List UInt8 × Bool)
  /-- What `M10_SetUTC` was called with. -/
  hinted : List M10DateTime

/-- What a write stores as `GnssAuxUtcUpdateData`. -/
def stored (chr : ChrDef) (c : Calls) (v : SharedValues) (om : List (List UInt8)) : Option (List UInt8) :=
  if chr.valHandle = .dateTime ∧ (om.headD []).length = 7 ∧ v.gnssAuxUtcUpdateData.isSome ∧ c.set then
    some (om.headD [])
  else none

inductive Label
  | link (l : Gatt.Label)
  | write (conn : UInt16) (chr : ChrDef) (om : List (List UInt8)) (calls : Calls)
  /-- `SHVAL_PointerSetValue` sets the event bit. -/
  | signal
  /-- `SHVAL_PointerWaitForValue` finds the bit set, and clears it. -/
  | wake
  /-- It copies the value, and returns `SHVAL_ERROR_OK`. -/
  | copy
  /-- It returns another error. -/
  | waitFails
  | hasValidFix (fix : Bool)
  | setUtc (ok : Bool)

/-- `GNSS_Init` has made the shared value. -/
def World.boot (values : SharedValues) : World := ⟨.boot values, .init, .waiting, [], [], []⟩

variable (m10 : M10Codes) (snprintf : GnssBaseData → List UInt8) (gBleAttributes : Attr → UInt16)

inductive Step : World → Label → World → Prop
  /-- Anything else that peers and `tel_parser_task` do. -/
  | link (w : World) (l : Gatt.Label) (link : Gatt.World)
      (haux : link.values.gnssAuxUtcUpdateData = w.link.values.gnssAuxUtcUpdateData)
      (h : Gatt.Step m10 snprintf gBleAttributes w.link l link) : Step w (.link l) { w with link := link }
  | write (w : World) (conn : UInt16) (chr : ChrDef) (om : List (List UInt8)) (calls : Calls) (encrypted : Bool)
      (hconn : w.link.conns conn = some encrypted) (hchr : chr ∈ characteristics m10 snprintf)
      (hpermit : permitsWrite chr.flags encrypted = true) :
      Step w (.write conn chr om calls)
        { w with
          link := { w.link with values := (chr.accessCb calls w.link.values (.writeChr om)).2 }
          sub := if (stored chr calls w.link.values om).isSome then w.sub.put else w.sub
          written := w.written ++ (stored chr calls w.link.values om).toList }
  | signal (w : World) (hset : 0 < w.sub.signalling) : Step w .signal { w with sub := w.sub.signal }
  | wake (w : World) (hpc : w.pc = .waiting) (hbit : w.sub.evtBit = true) (hwoken : w.sub.woken = false) :
      Step w .wake { w with sub := w.sub.wake }
  | copy (w : World) (buf : List UInt8) (hpc : w.pc = .waiting) (hwoken : w.sub.woken = true)
      (hbuf : w.link.values.gnssAuxUtcUpdateData = some buf) :
      Step w .copy { w with sub := w.sub.copy, pc := .got buf }
  /-- A failure is logged. -/
  | waitFails (w : World) (hpc : w.pc = .waiting) : Step w .waitFails { w with sub := w.sub.fail }
  | hasValidFix (w : World) (buf : List UInt8) (fix : Bool) (hpc : w.pc = .got buf) :
      Step w (.hasValidFix fix)
        { w with pc := if fix then .waiting else .setting buf, decided := w.decided ++ [(buf, fix)] }
  /-- A failure is logged. -/
  | setUtc (w : World) (buf : List UInt8) (ok : Bool) (hpc : w.pc = .setting buf) :
      Step w (.setUtc ok) { w with pc := .waiting, hinted := w.hinted ++ [decodeDateTime buf] }

/-! ## The invariant -/

/-- The hints that the task has got. -/
def World.got (w : World) : List (List UInt8) := w.decided.map Prod.fst ++ w.pc.undecided.toList

/-- The hints that were decided on without a fix. -/
def World.accepted (w : World) : List (List UInt8) := (w.decided.filter fun d => !d.2).map Prod.fst

structure Inv (w : World) : Prop where
  /-- The shared value is the last hint that was stored. -/
  stored : w.written ≠ [] → w.link.values.gnssAuxUtcUpdateData = w.written.getLast?
  copies : Copies w.written w.got w.sub
  handedOn : w.accepted.map decodeDateTime = w.hinted ++ (w.pc.handingOn.map decodeDateTime).toList
  length : ∀ buf ∈ w.written, buf.length = 7

variable {m10} {snprintf} {gBleAttributes} {w w' : World} {l : Label}

theorem inv_boot (values : SharedValues) : Inv (.boot values) where
  stored hne := absurd rfl hne
  copies := Copies.init
  handedOn := rfl
  length _ hbuf := absurd hbuf List.not_mem_nil

/-- Of the characteristics, only the date and time can be written, and only over an encrypted link. -/
theorem permitsWrite_iff {chr : ChrDef} (hchr : chr ∈ characteristics m10 snprintf) {encrypted : Bool} :
    permitsWrite chr.flags encrypted = true ↔ chr = dateTimeChr ∧ encrypted = true := by
  rcases (mem_characteristics m10 snprintf).1 hchr with rfl | rfl | rfl | rfl | rfl | rfl <;>
    simp [permitsWrite, lnFeatureChr, locationAndSpeedChr, elevationChr, gnssFixQualityChr, dateTimeChr,
      locationAndSpeedHumanChr]

/-- What a write leaves of the shared value. -/
theorem aux_write (c : Calls) (v : SharedValues) (om : List (List UInt8)) :
    (dateTimeAccessCB c v (.writeChr om)).2.gnssAuxUtcUpdateData =
      (stored dateTimeChr c v om).or v.gnssAuxUtcUpdateData := by
  rw [dateTimeAccessCB_write]
  simp only [dateTimeWrite, stored, dateTimeChr, true_and]
  generalize om.headD [] = segment
  by_cases hlen : segment.length = 7
  · cases hsome : v.gnssAuxUtcUpdateData.isSome <;> cases hset : c.set <;> simp [hlen]
  · simp [hlen]

theorem inv_write (h : Inv w) (calls : Calls) (om : List (List UInt8)) :
    Inv { w with
      link := { w.link with values := (dateTimeAccessCB calls w.link.values (.writeChr om)).2 }
      sub := if (stored dateTimeChr calls w.link.values om).isSome then w.sub.put else w.sub
      written := w.written ++ (stored dateTimeChr calls w.link.values om).toList } := by
  have haux := aux_write calls w.link.values om
  cases hstored : stored dateTimeChr calls w.link.values om with
  | none =>
    rw [hstored, Option.none_or] at haux
    rw [Option.toList_none, List.append_nil]
    exact ⟨fun hne => haux.trans (h.stored hne), h.copies, h.handedOn, h.length⟩
  | some segment =>
    rw [hstored, Option.some_or] at haux
    have hlen : segment.length = 7 := by
      rw [stored] at hstored
      split at hstored
      · rename_i hc
        rw [← Option.some.inj hstored]
        exact hc.2.1
      · cases hstored
    refine ⟨fun _ => haux.trans List.getLast?_concat.symm, h.copies.put segment, h.handedOn, fun buf hbuf => ?_⟩
    rcases List.mem_append.1 hbuf with hbuf | hbuf
    · exact h.length buf hbuf
    · rwa [List.mem_singleton.1 hbuf]

theorem inv_step (h : Inv w) (hs : Step m10 snprintf gBleAttributes w l w') : Inv w' := by
  cases hs with
  | link l link haux hs => exact ⟨fun hne => haux.trans (h.stored hne), h.copies, h.handedOn, h.length⟩
  | write conn chr om calls encrypted hconn hchr hpermit =>
    obtain ⟨rfl, -⟩ := (permitsWrite_iff hchr).1 hpermit
    exact inv_write h calls om
  | signal hset => exact ⟨h.stored, h.copies.signal hset, h.handedOn, h.length⟩
  | wake hpc hbit hwoken => exact ⟨h.stored, h.copies.wake hbit hwoken, h.handedOn, h.length⟩
  | copy buf hpc hwoken hbuf =>
    have hlast := (h.stored (h.copies.ne_nil hwoken)).symm.trans hbuf
    have hcopies := h.copies.copy hwoken hlast
    have hhanded := h.handedOn
    rw [World.got, hpc] at hcopies
    rw [hpc] at hhanded
    exact ⟨h.stored, by simpa [World.got, Pc.undecided] using hcopies, hhanded, h.length⟩
  | waitFails hpc => exact ⟨h.stored, h.copies.fail, h.handedOn, h.length⟩
  | hasValidFix buf fix hpc =>
    have hcopies := h.copies
    have hhanded := h.handedOn
    rw [World.got, hpc] at hcopies
    rw [hpc] at hhanded
    cases fix with
    | true =>
      exact ⟨h.stored, by simpa [World.got, Pc.undecided] using hcopies,
        by simpa [World.accepted, Pc.handingOn] using hhanded, h.length⟩
    | false =>
      exact ⟨h.stored, by simpa [World.got, Pc.undecided] using hcopies,
        by simpa [World.accepted, Pc.handingOn] using hhanded, h.length⟩
  | setUtc buf ok hpc =>
    have hcopies := h.copies
    have hhanded := h.handedOn
    rw [World.got, hpc] at hcopies
    rw [hpc] at hhanded
    exact ⟨h.stored, by simpa [World.got, Pc.undecided] using hcopies,
      by simpa [World.accepted, Pc.handingOn] using hhanded, h.length⟩

/-! ## Runs -/

variable {values : SharedValues} {tr : List (World × Label)}

theorem inv_run (h : Run (Step m10 snprintf gBleAttributes) (.boot values) tr w) : Inv w :=
  h.invariant (inv_boot values) fun _ _ _ => inv_step

end TrackIt.Gatt.TimeHint
