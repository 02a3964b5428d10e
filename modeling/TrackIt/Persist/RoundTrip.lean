import TrackIt.Persist.NavData

/-!
# The last position survives

The position of a NAV-PVT goes through three codecs: the telemetry parser's, that of `/last-pos`, and the one that reads
the file back.

- `restore_lastPosBytes`, `lastPosBytes_restore`: the last two are inverse to each other;
- `lastPos_survives`: what is published, saved and restored, however often the power is lost in between, is what the
  payload says.
-/

namespace TrackIt.Persist

open TrackIt.Lib TrackIt.Telemetry

/-! ## The codec of the file -/

/-- The arguments of `M10_ImportLastKnownPos`. -/
def Call.lastKnownPos : Call → Option (Int32 × Int32 × Int32 × UInt32)
  | .importLastKnownPos latitude longitude altitude hAcc => some (latitude, longitude, altitude, hAcc)
  | _ => none

/-- The part of the base data that is saved. -/
def position (b : GnssBaseData) : Int32 × Int32 × Int32 × UInt32 :=
  (b.latitude, b.longitude, b.altitudeCm, b.horizontalAccuracyCm)

theorem restoreLastPos_of_length {a : Answers} {flash : Flash} {file : List UInt8} (hread : a.readLastPos = true)
    (hfile : flash.lastPos = some file) (hlen : file.length = 16) :
    restoreLastPos a flash = [.importLastKnownPos (wordAt file 0).toInt32 (wordAt file 4).toInt32
      (wordAt file 8).toInt32 (wordAt file 12)] := by
  rw [restoreLastPos, hfile]
  refine (if_pos hread).trans ?_
  simp (disch := omega) only [wordAt_fsRead a.lastPosData hlen]

/-- **Encoding, then decoding.** -/
theorem restore_lastPosBytes {a : Answers} {flash : Flash} {b : GnssBaseData} (hread : a.readLastPos = true)
    (hfile : flash.lastPos = some (lastPosBytes b)) :
    (restoreLastPos a flash).filterMap Call.lastKnownPos = [position b] := by
  have hlatitude : (wordAt (lastPosBytes b) 0).toInt32 = b.latitude := le32_bytesInt32 b.latitude
  have hlongitude : (wordAt (lastPosBytes b) 4).toInt32 = b.longitude := le32_bytesInt32 b.longitude
  have haltitude : (wordAt (lastPosBytes b) 8).toInt32 = b.altitudeCm := le32_bytesInt32 b.altitudeCm
  have hacc : wordAt (lastPosBytes b) 12 = b.horizontalAccuracyCm := le32_bytes32 b.horizontalAccuracyCm
  rw [restoreLastPos_of_length hread hfile rfl, hlatitude, hlongitude, haltitude, hacc]
  rfl

/-- **Decoding, then encoding.** -/
theorem lastPosBytes_restore {a : Answers} {flash : Flash} {file : List UInt8} (hread : a.readLastPos = true)
    (hfile : flash.lastPos = some file) (hlen : file.length = 16) :
    ∃ q, (restoreLastPos a flash).filterMap Call.lastKnownPos = [q] ∧ ∀ b, position b = q → lastPosBytes b = file := by
  refine ⟨_, by rw [restoreLastPos_of_length hread hfile hlen]; rfl, fun b hb => ?_⟩
  obtain ⟨hlatitude, hlongitude, haltitude, hacc⟩ : _ ∧ _ ∧ _ ∧ _ := by simpa only [position, Prod.mk.injEq] using hb
  rw [lastPosBytes, hlatitude, hlongitude, haltitude, hacc]
  match file, hlen with
  | [_, _, _, _, _, _, _, _, _, _, _, _, _, _, _, _], _ =>
    simp only [wordAt, bytesInt32_le32, bytes32_le32]
    rfl

/-! ## From the payload to the restore -/

variable {m10 : M10Codes}

/-- Only a failing call ends a cycle early. -/
theorem Pc.failure_eq {pc : Pc} {l : Label} (h : pc.failure = some l) :
    l = .getBaseData false ∨ l = .writeLastPos false ∨ l = .exportNavData false ∨ l = .writeNavData false ∨
      l = .writeNavDataLen false := by
  cases pc <;> simp_all [Pc.failure]

/-- The base data is set again, or lost. -/
def Republishes (m10 : M10Codes) (l : Label) : Prop :=
  l = .powerLoss ∨ ∃ input setPrecision, l = .message input true setPrecision ∧ input.IsPvt m10

/-- What is published stays until something else is. -/
theorem published_step {w w' : World} {l : Label} (hl : ¬ Republishes m10 l) (hs : Step m10 w l w') :
    w'.parser.gnssBaseData = w.parser.gnssBaseData := by
  cases hs with
  | message input setBase setPrecision =>
    rcases TelParser.handle_cases m10 w.parser input setBase setPrecision with ⟨hpvt, he⟩ | ⟨-, he⟩ | ⟨-, -, he⟩
    · cases setBase with
      | false => rw [he]; rfl
      | true => exact absurd (.inr ⟨input, setPrecision, rfl, hpvt⟩) hl
    · rw [he]; rfl
    · rw [he]
  | powerLoss => exact absurd (.inl rfl) hl
  | _ => rfl

/-- Only a successful write changes the file. -/
theorem lastPos_step {w w' : World} {l : Label} (hl : l ≠ .writeLastPos true) (hs : Step m10 w l w') :
    w'.flash.lastPos = w.flash.lastPos := by
  cases hs with
  | writeLastPos b hpc => exact absurd rfl hl
  | _ => rfl

theorem published_run {w w' : World} {tr : List (World × Label)} (hr : Run (Step m10) w tr w')
    (h : ∀ q ∈ tr, ¬ Republishes m10 q.2) : w'.parser.gnssBaseData = w.parser.gnssBaseData :=
  hr.guarded (I := fun x => x.parser.gnssBaseData = w.parser.gnssBaseData) (C := fun _ l => ¬ Republishes m10 l) rfl
    (fun _ _ _ hi hc hs => (published_step hc hs).trans hi) h

theorem lastPos_run {w w' : World} {tr : List (World × Label)} (hr : Run (Step m10) w tr w')
    (h : ∀ q ∈ tr, q.2 ≠ .writeLastPos true) : w'.flash.lastPos = w.flash.lastPos :=
  hr.guarded (I := fun x => x.flash.lastPos = w.flash.lastPos) (C := fun _ l => l ≠ .writeLastPos true) rfl
    (fun _ _ _ hi hc hs => (lastPos_step hc hs).trans hi) h

/-- Messages do not move the task. -/
theorem pc_run {w w' : World} {tr : List (World × Label)} (hr : Run (Step m10) w tr w')
    (h : ∀ q ∈ tr, ∃ input setBase setPrecision, q.2 = .message input setBase setPrecision) : w'.pc = w.pc := by
  refine hr.guarded (I := fun x => x.pc = w.pc)
    (C := fun _ l => ∃ input setBase setPrecision, l = .message input setBase setPrecision) rfl ?_ h
  rintro x l x' hi ⟨input, setBase, setPrecision, rfl⟩ hs
  cases hs with
  | message => exact hi
  | failed _ hl => exact absurd (Pc.failure_eq hl) (by simp)

theorem lastKnownPos_restoreNavData (a : Answers) (flash : Flash) (buffer : List UInt8) :
    (restoreNavData a flash buffer).1.filterMap Call.lastKnownPos = [] := by
  rcases restoreNavData_cases a flash buffer with ⟨h, -⟩ | ⟨_, _, -, -, -, ⟨-, h⟩ | ⟨-, h⟩⟩ <;> rw [h] <;> rfl

/-- Without a fix, the position is imported as it is restored. -/
theorem lastKnownPos_checkGnssFix {a : Answers} {flash : Flash} {file : List UInt8} (hfix : a.hasValidFix = false)
    (hfile : flash.lastPos = some file) (buffer : List UInt8) :
    (checkGnssFix a flash buffer).1.filterMap Call.lastKnownPos =
      (restoreLastPos a flash).filterMap Call.lastKnownPos := by
  have hcalls : (checkGnssFix a flash buffer).1 =
      [.gnssStop] ++ restoreLastPos a flash ++ (restoreNavData a flash buffer).1 ++ [.gnssStart] := by
    simp [checkGnssFix, hfix, hfile]
  rw [hcalls, List.filterMap_append, List.filterMap_append, List.filterMap_append, lastKnownPos_restoreNavData]
  exact (List.append_nil _).trans (List.append_nil _)

/-- **The last position survives a reboot.** When a NAV-PVT is published, `gnss_save_data_task` gets its record before
another one is, and writes it to `/last-pos`, then whatever happens until the file is written again, loss of power
included, a restore that can read the file passes on the position that the payload gives, once. The codec of the file is
a bijection between the positions and the strings of 16 bytes. -/
theorem lastPos_survives (m10 : M10Codes) :
    (∀ {w₀ w₁ w₂ w₃ w₄ w₅ w₆ : World} {tr₁ tr₂ tr₃ : List (World × Label)} {input : TelparserInput}
        {setPrecision : Bool}, input.IsPvt m10 → Step m10 w₀ (.message input true setPrecision) w₁ →
      Run (Step m10) w₁ tr₁ w₂ → (∀ q ∈ tr₁, ¬ Republishes m10 q.2) → Step m10 w₂ (.getBaseData true) w₃ →
      Run (Step m10) w₃ tr₂ w₄ → (∀ q ∈ tr₂, ∃ input setBase setPrecision, q.2 = .message input setBase setPrecision) →
      Step m10 w₄ (.writeLastPos true) w₅ →
      Run (Step m10) w₅ tr₃ w₆ → (∀ q ∈ tr₃, q.2 ≠ .writeLastPos true) →
      ∀ (a : Answers) (buffer : List UInt8), a.hasValidFix = false → a.readLastPos = true →
      ∃ latitude longitude altitude hAcc, (checkGnssFix a w₆.flash buffer).1.filterMap Call.lastKnownPos =
          [(latitude, longitude, altitude, hAcc)] ∧
        latitude.toInt =
          leInt [input.payload.get 28, input.payload.get 29, input.payload.get 30, input.payload.get 31] ∧
        longitude.toInt =
          leInt [input.payload.get 24, input.payload.get 25, input.payload.get 26, input.payload.get 27] ∧
        altitude.toInt =
          (leInt [input.payload.get 36, input.payload.get 37, input.payload.get 38, input.payload.get 39]).tdiv 10 ∧
        hAcc.toNat =
          leNat [input.payload.get 40, input.payload.get 41, input.payload.get 42, input.payload.get 43] / 10) ∧
    (∀ (a : Answers) (flash : Flash) (b : GnssBaseData), a.readLastPos = true →
      flash.lastPos = some (lastPosBytes b) →
      (restoreLastPos a flash).filterMap Call.lastKnownPos = [position b]) ∧
    (∀ (a : Answers) (flash : Flash) (file : List UInt8), a.readLastPos = true → flash.lastPos = some file →
      file.length = 16 →
      ∃ q, (restoreLastPos a flash).filterMap Call.lastKnownPos = [q] ∧
        ∀ b, position b = q → lastPosBytes b = file) := by
  refine ⟨?_, fun _ _ _ => restore_lastPosBytes, fun _ _ _ => lastPosBytes_restore⟩
  intro w₀ w₁ w₂ w₃ w₄ w₅ w₆ tr₁ tr₂ tr₃ input setPrecision hpvt hpublish h₁ hkeep hget h₂ hmsg hwrite h₃ hno a buffer
    hfix hread
  have hbase : w₂.parser.gnssBaseData = baseData input.payload := by
    rw [published_run h₁ hkeep]
    cases hpublish with
    | message =>
      dsimp only
      rw [TelParser.handle_pvt hpvt]
      rfl
    | failed _ hl => exact absurd (Pc.failure_eq hl) (by simp)
  have hgot : w₄.pc = .gotBaseData (baseData input.payload) := by
    rw [pc_run h₂ hmsg, ← hbase]
    cases hget with
    | getBaseData hpc => rfl
    | failed _ hl => exact absurd (Pc.failure_eq hl) (by simp)
  have hfile : w₆.flash.lastPos = some (lastPosBytes (baseData input.payload)) := by
    rw [lastPos_run h₃ hno]
    cases hwrite with
    | writeLastPos b hpc =>
      rw [Pc.gotBaseData.inj (hgot.symm.trans hpc)]
    | failed _ hl => exact absurd (Pc.failure_eq hl) (by simp)
  refine ⟨_, _, _, _, ?_, toInt_latitude _, toInt_longitude _, toInt_altitudeCm _, toNat_horizontalAccuracyCm _⟩
  rw [lastKnownPos_checkGnssFix hfix hfile, restore_lastPosBytes hread hfile]
  rfl

/-- A NAV-PVT with the latitude -2^31, the longitude 2^31 - 1 and the accuracy 2^32 - 1. -/
def extremePvt : TelparserInput :=
  ⟨0x01, 0x07, 92, Vector.ofFn fun k : Fin 256 =>
    if k.val = 31 then 0x80 else if 28 ≤ k.val ∧ k.val < 31 then 0 else if k.val = 27 then 0x7F else 0xFF⟩

/-- It is published and saved, the power is lost, and it is restored. -/
theorem lastPos_survives_extreme : ∃ tr w, Run (Step someCodes) (World.boot someCodes) tr w ∧
    w.parser.gnssBaseData = gnssBaseData₀ ∧
    ∃ latitude longitude altitude hAcc, (checkGnssFix allAnswered w.flash w.exportData.buffer).1.filterMap
        Call.lastKnownPos = [(latitude, longitude, altitude, hAcc)] ∧
      latitude.toInt = -2 ^ 31 ∧ longitude.toInt = 2 ^ 31 - 1 ∧ altitude.toInt = 0 ∧ hAcc.toNat = 429496729 := by
  obtain ⟨w₁, hpublish, hpc₁⟩ : ∃ w₁, Step someCodes (.boot someCodes) (.message extremePvt true true) w₁ ∧
      w₁.pc = .waiting := ⟨_, .message _ _ _ _, rfl⟩
  obtain ⟨w₂, hnotify, hpc₂⟩ : ∃ w₂, Step someCodes w₁ .notify w₂ ∧ w₂.pc = .notified := ⟨_, .notify w₁ hpc₁, rfl⟩
  obtain ⟨w₃, hget, b, hpc₃⟩ : ∃ w₃, Step someCodes w₂ (.getBaseData true) w₃ ∧ ∃ b, w₃.pc = .gotBaseData b :=
    ⟨_, .getBaseData w₂ hpc₂, _, rfl⟩
  obtain ⟨w₄, hwrite⟩ : ∃ w₄, Step someCodes w₃ (.writeLastPos true) w₄ := ⟨_, .writeLastPos w₃ b hpc₃⟩
  have hloss := Run.single (@Step.powerLoss someCodes w₄)
  have hrun := (((Run.single hpublish).snoc hnotify).snoc hget).snoc hwrite
  refine ⟨_, _, hrun.trans hloss, rfl, ?_⟩
  obtain ⟨latitude, longitude, altitude, hAcc, hcalls, hlatitude, hlongitude, haltitude, hacc⟩ :=
    (lastPos_survives someCodes).1 ⟨rfl, rfl⟩ hpublish (.single hnotify) (by simp [Republishes]) hget .nil (by simp)
      hwrite hloss (by simp) allAnswered (World.exportData _).buffer rfl rfl
  exact ⟨latitude, longitude, altitude, hAcc, hcalls, hlatitude.trans (by decide +kernel),
    hlongitude.trans (by decide +kernel), haltitude.trans (by decide +kernel), hacc.trans (by decide +kernel)⟩

end TrackIt.Persist
