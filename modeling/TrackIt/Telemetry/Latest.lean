import Mathlib.Data.List.Induction
import TrackIt.Telemetry.Parser

/-!
# The latest messages determine what is published

`tel_parser_task` over any sequence of queue items, each with whether the shared values could be set. The two records
share the fix and the satellite count that the last NAV-PVT left, whether or not that NAV-PVT was published.

- `published_latest`: both records, read off the items from the last one back.
-/

namespace TrackIt.Telemetry

/-- An item of `TelemetryParserQueue`, and whether each of the shared values can be set while it is handled. -/
structure Item where
  input : TelparserInput
  setBase : Bool
  setPrecision : Bool

variable (m10 : M10Codes)

/-- The loop of `tel_parser_task`. -/
def TelParser.handleAll (t : TelParser) (items : List Item) : TelParser :=
  items.foldl (fun t i => t.handle m10 i.input i.setBase i.setPrecision) t

/-! ## The last item of a kind -/

/-- The last of the items that satisfies `p`, with the items before it. -/
def latest (p : Item → Bool) (items : List Item) : Option (List Item × Item) :=
  match items.reverse.dropWhile fun i => !p i with
  | [] => none
  | i :: before => some (before.reverse, i)

theorem latest_snoc (p : Item → Bool) (items : List Item) (i : Item) :
    latest p (items ++ [i]) = if p i then some (items, i) else latest p items := by
  cases hp : p i <;> simp [latest, hp]

/-- A NAV-PVT. -/
def Item.pvt (i : Item) : Bool := i.input.IsPvt m10

/-- A NAV-PVT that is published. -/
def Item.pvtSet (i : Item) : Bool := i.pvt m10 && i.setBase

/-- A NAV-DOP that is published. -/
def Item.dopSet (i : Item) : Bool := decide (i.input.IsDop m10) && i.setPrecision

/-- A NAV-PVT or a NAV-DOP. -/
def Item.telemetry (i : Item) : Bool := i.pvt m10 || decide (i.input.IsDop m10)

/-! ## What is published -/

/-- The decoding of the last NAV-PVT that was published. -/
def latestBase (items : List Item) : GnssBaseData :=
  match latest (Item.pvtSet m10) items with
  | none => gnssBaseData₀
  | some (_, i) => baseData i.input.payload

/-- The fix that the last NAV-PVT left. -/
def latestFix (items : List Item) : Nat :=
  match latest (Item.pvt m10) items with
  | none => m10.devStatusNoFix
  | some (_, i) => fixType i.input.payload

/-- The satellite count that the last NAV-PVT left. -/
def latestVehicleCount (items : List Item) : UInt8 :=
  match latest (Item.pvt m10) items with
  | none => 0
  | some (_, i) => vehicleCount i.input.payload

/-- The decoding of the last NAV-DOP that was published, with what the last NAV-PVT before it left. -/
def latestPrecision (items : List Item) : GnssPrecisionData :=
  match latest (Item.dopSet m10) items with
  | none => gnssPrecisionData₀
  | some (before, i) => precisionData i.input.payload (latestFix m10 before) (latestVehicleCount m10 before)

theorem latestBase_snoc (items : List Item) (i : Item) : latestBase m10 (items ++ [i]) =
    if i.pvtSet m10 then baseData i.input.payload else latestBase m10 items := by
  rw [latestBase, latest_snoc]
  cases i.pvtSet m10 <;> rfl

theorem latestFix_snoc (items : List Item) (i : Item) : latestFix m10 (items ++ [i]) =
    if i.pvt m10 then fixType i.input.payload else latestFix m10 items := by
  rw [latestFix, latest_snoc]
  cases i.pvt m10 <;> rfl

theorem latestVehicleCount_snoc (items : List Item) (i : Item) : latestVehicleCount m10 (items ++ [i]) =
    if i.pvt m10 then vehicleCount i.input.payload else latestVehicleCount m10 items := by
  rw [latestVehicleCount, latest_snoc]
  cases i.pvt m10 <;> rfl

theorem latestPrecision_snoc (items : List Item) (i : Item) : latestPrecision m10 (items ++ [i]) =
    if i.dopSet m10 then precisionData i.input.payload (latestFix m10 items) (latestVehicleCount m10 items)
    else latestPrecision m10 items := by
  rw [latestPrecision, latest_snoc]
  cases i.dopSet m10 <;> rfl

/-- **The invariant**: all four variables of the task. -/
structure Latest (items : List Item) (t : TelParser) : Prop where
  base : t.gnssBaseData = latestBase m10 items
  precision : t.gnssPrecisionData = latestPrecision m10 items
  fix : t.lastFix = latestFix m10 items
  vehicleCount : t.lastVehicleCount = latestVehicleCount m10 items

variable {m10}

theorem latest_init : Latest m10 [] (.init m10) := ⟨rfl, rfl, rfl, rfl⟩

/-- One more item. -/
theorem latest_step {items : List Item} {t : TelParser} (h : Latest m10 items t) (i : Item) :
    Latest m10 (items ++ [i]) (t.handle m10 i.input i.setBase i.setPrecision) := by
  obtain ⟨hbase, hprecision, hfix, hcount⟩ := h
  rcases TelParser.handle_cases m10 t i.input i.setBase i.setPrecision with ⟨hpvt, he⟩ | ⟨hdop, he⟩ | ⟨hpvt, hdop, he⟩
  · have hdop : ¬ i.input.IsDop m10 := fun hdop => m10.pvt_ne_dop (hpvt.2.symm.trans hdop.2)
    rw [he]
    constructor
    · rw [latestBase_snoc, ← hbase]
      simp [Item.pvtSet, Item.pvt, hpvt, TelParser.navPvt]
    · rw [latestPrecision_snoc, ← hprecision]
      simp [Item.dopSet, hdop]
    · rw [latestFix_snoc]
      simp [Item.pvt, hpvt]
    · rw [latestVehicleCount_snoc]
      simp [Item.pvt, hpvt, TelParser.navPvt]
  · have hpvt : ¬ i.input.IsPvt m10 := fun hpvt => m10.pvt_ne_dop (hpvt.2.symm.trans hdop.2)
    rw [he]
    constructor
    · rw [latestBase_snoc, ← hbase]
      simp [Item.pvtSet, Item.pvt, hpvt, TelParser.navDop]
    · rw [latestPrecision_snoc, ← hprecision, ← hfix, ← hcount]
      simp [Item.dopSet, hdop, TelParser.navDop]
    · rw [latestFix_snoc, ← hfix]
      simp [Item.pvt, hpvt, TelParser.navDop]
    · rw [latestVehicleCount_snoc, ← hcount]
      simp [Item.pvt, hpvt, TelParser.navDop]
  · rw [he]
    constructor
    · rw [latestBase_snoc, ← hbase]
      simp [Item.pvtSet, Item.pvt, hpvt]
    · rw [latestPrecision_snoc, ← hprecision]
      simp [Item.dopSet, hdop]
    · rw [latestFix_snoc, ← hfix]
      simp [Item.pvt, hpvt]
    · rw [latestVehicleCount_snoc, ← hcount]
      simp [Item.pvt, hpvt]

theorem latest_handleAll (items : List Item) : Latest m10 items (TelParser.handleAll m10 (.init m10) items) := by
  induction items using List.reverseRecOn with
  | nil => exact latest_init
  | append_singleton items i ih =>
    rw [TelParser.handleAll, List.foldl_append]
    exact latest_step ih i

end TrackIt.Telemetry
