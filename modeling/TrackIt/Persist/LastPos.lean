import TrackIt.Persist.Save

/-!
# Where the last position comes from

`tel_parser_task` publishes every NAV-PVT, whatever its fix, and `gnss_save_data_task` saves what is published when the
timer expires. What is saved has been published (`provenance_step`), but not with a fix.

- `lastPos_iff`: throughout a run the file holds the position of a fix iff no write stores a record without one.
-/

namespace TrackIt.Persist

open TrackIt.Lib TrackIt.Telemetry

variable {m10 : M10Codes}

/-- The initial record, or the record of a NAV-PVT handled. -/
def Published (pvts : List Payload) (b : GnssBaseData) : Prop := b = gnssBaseData₀ ∨ ∃ p ∈ pvts, b = baseData p

/-- What is saved has been published before. -/
structure Provenance (w : World) : Prop where
  published : Published w.pvts w.parser.gnssBaseData
  copied : ∀ b, w.pc = .gotBaseData b → Published w.pvts b
  lastPos : ∀ file, w.flash.lastPos = some file → ∃ b, w.lastPosFrom = some b ∧ file = lastPosBytes b

/-- `/last-pos` encodes the record of a NAV-PVT with fix type `M10_DEV_STATUS_READY`. -/
def World.LastPosOfFix (m10 : M10Codes) (w : World) : Prop := ∀ file, w.flash.lastPos = some file →
  ∃ b, w.lastPosFrom = some b ∧ file = lastPosBytes b ∧
    ∃ p ∈ w.pvts, b = baseData p ∧ fixType p = m10.devStatusReady

/-- `/last-pos` is written from a record without fix. -/
def WritesNoFix (m10 : M10Codes) (w : World) (l : Label) : Prop :=
  l = .writeLastPos true ∧ ∃ b, w.pc = .gotBaseData b ∧ b.gnssFix ≠ m10.devStatusReady

theorem provenance_boot : Provenance (World.boot m10) := by
  refine ⟨.inl rfl, ?_, ?_⟩ <;> simp [World.boot]

theorem Published.mono {pvts pvts' : List Payload} {b : GnssBaseData} (h : Published pvts b) (hs : pvts ⊆ pvts') :
    Published pvts' b :=
  h.imp id fun ⟨p, hp, hb⟩ => ⟨p, hs hp, hb⟩

theorem subset_pvtsAfter (m10 : M10Codes) (pvts : List Payload) (input : TelparserInput) :
    pvts ⊆ pvtsAfter m10 pvts input := by
  unfold pvtsAfter
  split
  · exact List.subset_append_left _ _
  · exact fun _ hp => hp

/-- Handling a message publishes its record, if it is a NAV-PVT and the shared value can be set. -/
theorem published_handle {pvts : List Payload} {t : TelParser} (h : Published pvts t.gnssBaseData)
    (input : TelparserInput) (setBase setPrecision : Bool) :
    Published (pvtsAfter m10 pvts input) (t.handle m10 input setBase setPrecision).gnssBaseData := by
  have hold := h.mono (subset_pvtsAfter m10 pvts input)
  rcases TelParser.handle_cases m10 t input setBase setPrecision with ⟨hpvt, he⟩ | ⟨-, he⟩ | ⟨-, -, he⟩
  · rw [he]
    cases setBase with
    | false => exact hold
    | true => exact .inr ⟨input.payload, by simp [pvtsAfter, hpvt], rfl⟩
  · rw [he]
    exact hold
  · rw [he]
    exact hold

theorem provenance_step {w w' : World} {l : Label} (h : Provenance w) (hs : Step m10 w l w') : Provenance w' := by
  cases hs with
  | message input setBase setPrecision =>
    refine ⟨published_handle h.published input setBase setPrecision, fun b hb => ?_, h.lastPos⟩
    exact (h.copied b hb).mono (subset_pvtsAfter m10 w.pvts input)
  | getBaseData hpc =>
    refine ⟨h.published, fun b hb => ?_, h.lastPos⟩
    rw [← Pc.gotBaseData.inj hb]
    exact h.published
  | writeLastPos b hpc => exact ⟨h.published, by simp, fun file hf => ⟨b, rfl, (Option.some.inj hf).symm⟩⟩
  | notify hpc => exact ⟨h.published, by simp, h.lastPos⟩
  | chunk c hpc => exact ⟨h.published, h.copied, h.lastPos⟩
  | exportNavData hpc => exact ⟨h.published, by simp, h.lastPos⟩
  | writeNavData hpc => exact ⟨h.published, by simp, h.lastPos⟩
  | writeNavDataLen hpc => exact ⟨h.published, by simp, h.lastPos⟩
  | failed _ hl => exact ⟨h.published, by simp, h.lastPos⟩
  | powerLoss => exact ⟨.inl rfl, by simp, h.lastPos⟩

/-- A published record with a fix is that of a NAV-PVT with a fix, for the initial record has none. -/
theorem Published.of_fix {pvts : List Payload} {b : GnssBaseData} (hready : m10.devStatusReady ≠ 0)
    (h : Published pvts b) (hfix : b.gnssFix = m10.devStatusReady) :
    ∃ p ∈ pvts, b = baseData p ∧ fixType p = m10.devStatusReady := by
  rcases h with rfl | ⟨p, hp, rfl⟩
  · exact absurd hfix.symm hready
  · exact ⟨p, hp, rfl, hfix⟩

theorem lastPosOfFix_step {w w' : World} {l : Label} (hready : m10.devStatusReady ≠ 0) (h : Provenance w)
    (hfix : w.LastPosOfFix m10) (hl : ¬ WritesNoFix m10 w l) (hs : Step m10 w l w') : w'.LastPosOfFix m10 := by
  cases hs with
  | message input setBase setPrecision =>
    intro file hf
    obtain ⟨b, hb, hbytes, p, hp, hpb⟩ := hfix file hf
    exact ⟨b, hb, hbytes, p, subset_pvtsAfter m10 w.pvts input hp, hpb⟩
  | writeLastPos b hpc =>
    intro file hf
    have hb : b.gnssFix = m10.devStatusReady := by
      by_contra hne
      exact hl ⟨rfl, b, hpc, hne⟩
    exact ⟨b, rfl, (Option.some.inj hf).symm, (h.copied b hpc).of_fix hready hb⟩
  | _ => exact hfix

theorem not_lastPosOfFix {w w' : World} {l : Label} (hl : WritesNoFix m10 w l) (hs : Step m10 w l w') :
    ¬ w'.LastPosOfFix m10 := by
  obtain ⟨rfl, b, hpc, hne⟩ := hl
  cases hs with
  | writeLastPos b' hpc' =>
    obtain rfl := Pc.gotBaseData.inj (hpc.symm.trans hpc')
    intro hfix
    obtain ⟨b', hb', -, p, -, hp, hready⟩ := hfix _ rfl
    obtain rfl := Option.some.inj hb'
    exact hne (by rw [hp]; exact hready)
  | failed _ hfail =>
    rw [hpc] at hfail
    cases hfail

/-- **The last position is that of a fix** in exactly the runs in which no write of `/last-pos` stores a record whose
fix is not `M10_DEV_STATUS_READY`. The state of the initial record, 0, must not be `M10_DEV_STATUS_READY`. -/
theorem lastPos_iff (hready : m10.devStatusReady ≠ 0) {tr : List (World × Label)} {w : World}
    (h : Run (Step m10) (World.boot m10) tr w) :
    (∀ x ∈ Run.states tr w, x.LastPosOfFix m10) ↔ ∀ p ∈ tr, ¬ WritesNoFix m10 p.1 p.2 := by
  refine Run.exact_states (J := fun w => Provenance w ∧ w.LastPosOfFix m10) (C := fun w l => ¬ WritesNoFix m10 w l)
    ⟨provenance_boot, fun file hf => by cases hf⟩ ?_ (fun _ hj => hj.2) ?_ h
  · rintro w l w' ⟨hprov, hfix⟩ hl hs
    exact ⟨provenance_step hprov hs, lastPosOfFix_step hready hprov hfix hl hs⟩
  · intro w l w' _ hl hs
    exact not_lastPosOfFix (Classical.byContradiction hl) hs

/-- A save before any message: `/last-pos` holds 16 zero bytes. -/
theorem lastPos_of_nothing : ∃ tr w, Run (Step someCodes) (World.boot someCodes) tr w ∧ w.pvts = [] ∧
    w.flash.lastPos = some (List.replicate 16 0) := by
  obtain ⟨tr, w, hr, -, -, -, hflash, hpvts, -⟩ :=
    cycle_run someCodes (w := World.boot someCodes) rfl ⟨[], by decide⟩ (by decide)
  refine ⟨tr, w, hr, hpvts, ?_⟩
  rw [hflash]
  decide

/-- A NAV-PVT with a fix. -/
def readyPvt : TelparserInput := ⟨0x01, 0x07, 92, Vector.replicate 256 3⟩

/-- A save after it. -/
theorem lastPos_iff_ready : ∃ tr w, Run (Step someCodes) (World.boot someCodes) tr w ∧ w.pvts = [readyPvt.payload] ∧
    ((∀ x ∈ Run.states tr w, x.LastPosOfFix someCodes) ↔ ∀ p ∈ tr, ¬ WritesNoFix someCodes p.1 p.2) := by
  obtain ⟨tr₁, w₁, h₁, hpc₁, hpvts₁⟩ : ∃ tr w, Run (Step someCodes) (World.boot someCodes) tr w ∧ w.pc = .waiting ∧
      w.pvts = [readyPvt.payload] :=
    ⟨_, _, .single (.message _ readyPvt true true), rfl, rfl⟩
  obtain ⟨tr, w, hr, -, -, -, -, hpvts, -⟩ := cycle_run someCodes hpc₁ ⟨[], by decide⟩ (by decide)
  exact ⟨_, w, h₁.trans hr, hpvts.trans hpvts₁, lastPos_iff (by decide) (h₁.trans hr)⟩

end TrackIt.Persist
