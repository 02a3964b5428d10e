import TrackIt.Persist.Restore

/-!
# Whether a restore finds what one save wrote

The database and its length are two files. Between the two writes the database is the new one and the length the old
one; when the task gets no further, the next restore takes the two together.

`restore_iff` says that this is the only way to restore something that no export delivered: every restore passes on the
whole of one exported database iff the cycle never ends between the two writes while `/gnss-len` holds another length.
-/

namespace TrackIt.Persist

open TrackIt.Lib TrackIt.Telemetry

/-- A database that is exported successfully has at most 12288 bytes. -/
def DatabaseFits (w : World) : Label → Prop
  | .exportNavData true => w.offered.length ≤ exportDataBufLen
  | _ => True

/-- Up to the end of the export: the buffer is filled from its start in this cycle. -/
def Pc.Filling : Pc → Prop
  | .notified | .gotBaseData _ | .exporting => True
  | _ => False

structure Inv (w : World) : Prop where
  filling : w.pc.Filling → w.offered.length ≤ exportDataBufLen → w.exportData.content = w.offered
  exported : w.pc = .exported ∨ w.pc = .navDataWritten → w.exportData.content ∈ w.exports
  written : w.pc = .navDataWritten → w.flash.navData = some w.exportData.content
  navData : ∀ file, w.flash.navData = some file → file ∈ w.exports
  navDataLen : ∀ lenFile, w.flash.navDataLen = some lenFile → lenFile.length = 4

/-- `/gnss-len`, if there is one, holds the length of `/gnss`. -/
def Flash.Consistent (flash : Flash) : Prop := ∀ file lenFile, flash.navData = some file →
  flash.navDataLen = some lenFile → (wordAt lenFile 0).toNat = file.length

/-- The files are consistent, except between the two writes. -/
def Consistent (w : World) : Prop := w.pc ≠ .navDataWritten → w.flash.Consistent

/-- The cycle ends between the two writes, and `/gnss-len` holds another length than that of the database written. -/
def Torn (w : World) (l : Label) : Prop :=
  w.pc = .navDataWritten ∧ (l = .powerLoss ∨ l = .writeNavDataLen false) ∧
    ∃ lenFile, w.flash.navDataLen = some lenFile ∧ (wordAt lenFile 0).toNat ≠ w.exportData.len

variable {m10 : M10Codes}

theorem inv_boot : Inv (World.boot m10) := by
  constructor <;> simp [World.boot, Pc.Filling]

theorem inv_step {w w' : World} {l : Label} (h : Inv w) (hfit : DatabaseFits w l) (hs : Step m10 w l w') : Inv w' := by
  cases hs with
  | message input setBase setPrecision => exact ⟨h.filling, h.exported, h.written, h.navData, h.navDataLen⟩
  | notify hpc => exact ⟨by simp, by simp, by simp, h.navData, h.navDataLen⟩
  | getBaseData hpc => exact ⟨fun _ => h.filling (by rw [hpc]; trivial), by simp, by simp, h.navData, h.navDataLen⟩
  | writeLastPos b hpc => exact ⟨fun _ => h.filling (by rw [hpc]; trivial), by simp, by simp, h.navData, h.navDataLen⟩
  | chunk c hpc =>
    refine ⟨fun _ hlen => ?_, by simp [hpc], by simp [hpc], h.navData, h.navDataLen⟩
    -- everything offered so far fits, so this chunk is accepted as all before it were
    simp only [List.length_append] at hlen ⊢
    have hcontent := h.filling (by rw [hpc]; trivial) (by omega)
    have hle : w.exportData.len + c.data.length ≤ exportDataBufLen := by
      rw [← ExportData.length_content, hcontent]
      exact hlen
    rw [ExportData.handleChunk_of_le hle, ExportData.content_append, hcontent]
  | exportNavData hpc =>
    have hcontent := h.filling (by rw [hpc]; trivial) hfit
    refine ⟨by simp [Pc.Filling], fun _ => ?_, by simp, fun file hf => List.mem_append_left _ (h.navData file hf),
      h.navDataLen⟩
    simp [hcontent]
  | writeNavData hpc =>
    have hmem := h.exported (.inl hpc)
    refine ⟨by simp [Pc.Filling], fun _ => hmem, fun _ => rfl, fun file hf => ?_, h.navDataLen⟩
    rwa [← Option.some.inj hf]
  | writeNavDataLen hpc =>
    refine ⟨by simp [Pc.Filling], by simp, by simp, h.navData, fun lenFile hl => ?_⟩
    rw [← Option.some.inj hl]
    rfl
  | failed hl => exact ⟨by simp [Pc.Filling], by simp, by simp, h.navData, h.navDataLen⟩
  | powerLoss => exact ⟨by simp [Pc.Filling], by simp, by simp, h.navData, h.navDataLen⟩

/-! ## Consistent files -/

theorem wordAt_dataLenBytes {n : Nat} (h : n ≤ exportDataBufLen) : (wordAt (dataLenBytes n) 0).toNat = n := by
  have hlt : n < 2 ^ 32 := Nat.lt_of_le_of_lt h (by decide)
  have hword : wordAt (dataLenBytes n) 0 = UInt32.ofNat n := le32_bytes32 _
  rw [hword, UInt32.toNat_ofNat_of_lt' hlt]

/-- When the cycle ends in a way that is not torn, the files are consistent. -/
theorem consistent_of_not_torn {w : World} {l : Label} (h : Inv w) (hc : Consistent w) (ht : ¬ Torn w l)
    (hl : w.pc = .navDataWritten → l = .powerLoss ∨ l = .writeNavDataLen false) : w.flash.Consistent := by
  by_cases hpc : w.pc = .navDataWritten
  · intro file lenFile hfile hlen
    have hwritten := h.written hpc
    rw [hfile] at hwritten
    rw [Option.some.inj hwritten, ExportData.length_content]
    by_contra hne
    exact ht ⟨hpc, hl hpc, lenFile, hlen, hne⟩
  · exact hc hpc

theorem consistent_step {w w' : World} {l : Label} (h : Inv w) (hc : Consistent w) (ht : ¬ Torn w l)
    (hs : Step m10 w l w') : Consistent w' := by
  cases hs with
  | message input setBase setPrecision => exact hc
  | notify hpc | getBaseData hpc | writeLastPos b hpc | chunk c hpc | exportNavData hpc =>
    exact fun _ => hc (by simp [hpc])
  | writeNavData hpc => exact fun hne => absurd rfl hne
  | writeNavDataLen hpc =>
    intro _ file lenFile hfile hlen
    have hwritten := h.written hpc
    have hfile : w.flash.navData = some file := hfile
    rw [hfile] at hwritten
    rw [← Option.some.inj hlen, wordAt_dataLenBytes w.exportData.len_le, Option.some.inj hwritten,
      ExportData.length_content]
  | failed _ hl =>
    have hflash : w.flash.Consistent := by
      refine consistent_of_not_torn h hc ht fun hpc => ?_
      rw [hpc] at hl
      exact .inr (Option.some.inj hl).symm
    exact fun _ => hflash
  | powerLoss =>
    have hflash : w.flash.Consistent := consistent_of_not_torn h hc ht fun _ => .inl rfl
    exact fun _ => hflash

/-! ## The restore -/

/-- When the task waits, a restore passes on nothing, or one exported database, which is the one in `/gnss`, and its
length. -/
def World.RestoresOne (w : World) : Prop := w.pc = .waiting → ∀ a bytes n,
  .importNavData bytes n ∈ (checkGnssFix a w.flash w.exportData.buffer).1 →
    bytes ∈ w.exports ∧ n = bytes.length ∧ w.flash.navData = some bytes

/-- A length file is read as the word in it, whatever stood in the array before. -/
theorem navDataLen_eq (a : Answers) {lenFile : List UInt8} (h : lenFile.length = 4) :
    navDataLen a lenFile = (wordAt lenFile 0).toNat := by
  rw [navDataLen, wordAt_fsRead a.navDataLenBuf h (Nat.le_refl 4)]

theorem restoresOne {w : World} (h : Inv w) (hc : Consistent w) : w.RestoresOne := by
  intro hpc a bytes n hmem
  obtain ⟨-, -, -, file, lenFile, hfile, hlen, rfl, rfl⟩ := importNavData_iff.1 hmem
  have hn : navDataLen a lenFile = file.length := by
    rw [navDataLen_eq a (h.navDataLen lenFile hlen)]
    exact hc (by simp [hpc]) file lenFile hfile hlen
  have hbytes : (fsRead w.exportData.buffer file file.length).take file.length = file := by
    have := @take_overwrite _ w.exportData.buffer 0 file (Nat.zero_le _)
    rw [fsRead, List.take_length]
    simpa using this
  rw [hn, hbytes]
  exact ⟨h.navData file hfile, rfl, hfile⟩

/-- All calls succeed, and there is no fix. -/
def allAnswered : Answers := ⟨false, true, true, true, [], []⟩

theorem not_restoresOne {w w' : World} {l : Label} (h : Inv w) (ht : Torn w l) (hs : Step m10 w l w') :
    ¬ w'.RestoresOne := by
  obtain ⟨hpc, hl, lenFile, hlen, hne⟩ := ht
  have hflash : w'.flash = w.flash ∧ w'.pc = .waiting := by
    rcases hl with rfl | rfl
    · cases hs with
      | failed hl => exact ⟨rfl, rfl⟩
      | powerLoss => exact ⟨rfl, rfl⟩
    · cases hs with
      | failed hl => exact ⟨rfl, rfl⟩
  intro hone
  have hwritten := h.written hpc
  have hn := navDataLen_eq allAnswered (h.navDataLen lenFile hlen)
  have hmem : .importNavData _ (navDataLen allAnswered lenFile) ∈
      (checkGnssFix allAnswered w.flash w'.exportData.buffer).1 :=
    importNavData_iff.2 ⟨rfl, rfl, rfl, _, lenFile, hwritten, hlen, rfl, rfl⟩
  rw [← hflash.1] at hmem
  obtain ⟨-, hlen', hfile⟩ := hone hflash.2 _ _ _ hmem
  rw [hflash.1, hwritten] at hfile
  rw [← Option.some.inj hfile, ExportData.length_content, hn] at hlen'
  exact hne hlen'

/-- **Restores are atomic** in exactly the runs in which no cycle ends, by a failing length write or a loss of power,
between the two writes while `/gnss-len` holds another length than that of the new database. -/
theorem restore_iff {tr : List (World × Label)} {w : World} (h : Run (Step m10) (World.boot m10) tr w)
    (hfit : ∀ p ∈ tr, DatabaseFits p.1 p.2) :
    (∀ x ∈ Run.states tr w, x.RestoresOne) ↔ ∀ p ∈ tr, ¬ Torn p.1 p.2 := by
  refine Run.exact_states (J := fun w => Inv w ∧ Consistent w) (C := fun w l => ¬ Torn w l) ?_ ?_ ?_ ?_
    (h.restrict hfit)
  · refine ⟨inv_boot, fun _ file lenFile hfile => ?_⟩
    cases hfile
  · rintro w l w' ⟨hinv, hc⟩ ht ⟨hfit, hs⟩
    exact ⟨inv_step hinv hfit hs, consistent_step hinv hc ht hs⟩
  · rintro w ⟨hinv, hc⟩
    exact restoresOne hinv hc
  · rintro w l w' ⟨hinv, -⟩ ht ⟨-, hs⟩
    exact not_restoresOne hinv (Classical.byContradiction ht) hs

theorem databaseFits {w : World} {l : Label} (h : l = .exportNavData true → w.offered.length ≤ exportDataBufLen) :
    DatabaseFits w l := by
  unfold DatabaseFits
  split
  · exact h rfl
  · trivial

/-- A save that succeeds. -/
theorem saved_run (m10 : M10Codes) {w : World} (hpc : w.pc = .waiting) (c : ExportDataChunk)
    (hc : c.data.length ≤ exportDataBufLen) : ∃ tr w', Run (Step m10) w tr w' ∧
    (∀ p ∈ tr, DatabaseFits p.1 p.2) ∧ w'.pc = .waiting ∧ w'.exports = w.exports ++ [c.data] ∧
    w'.flash.navData = some c.data ∧ w'.flash.navDataLen = some (dataLenBytes c.data.length) := by
  obtain ⟨tr, w', hr, hoffered, hpc', hcontent, hflash, -, hexports, -⟩ := cycle_run m10 hpc c hc
  refine ⟨_, _, hr.snoc (.writeNavDataLen w' hpc'), fun p hp => ?_, rfl, hexports, ?_, ?_⟩
  · apply databaseFits
    intro hl
    rcases List.mem_append.1 hp with hp | hp
    · rw [hoffered p hp hl]
      exact hc
    · rw [List.mem_singleton.1 hp] at hl
      cases hl
  · rw [hflash]
  · rw [← hcontent, ExportData.length_content]

def twoBytes : ExportDataChunk := ⟨[0x01, 0x02], by decide⟩

def threeBytes : ExportDataChunk := ⟨[0x03, 0x04, 0x05], by decide⟩

/-- A database of two bytes is saved; then one of three is written, and the power is lost before its length is. -/
theorem torn_restore : ∃ tr w, Run (Step someCodes) (World.boot someCodes) tr w ∧ (∀ p ∈ tr, DatabaseFits p.1 p.2) ∧
    w.pc = .waiting ∧ w.exports = [[0x01, 0x02], [0x03, 0x04, 0x05]] ∧
    .importNavData [0x03, 0x04] 2 ∈ (checkGnssFix allAnswered w.flash w.exportData.buffer).1 := by
  obtain ⟨tr₁, w₁, hr₁, hfits, hpc₁, hexports₁, -, hlen⟩ :=
    saved_run someCodes (w := World.boot someCodes) rfl twoBytes (by decide)
  obtain ⟨tr₂, w₂, hr₂, hoffered, -, -, hflash, -, hexports, -⟩ := cycle_run someCodes hpc₁ threeBytes (by decide)
  refine ⟨_, _, hr₁.trans (hr₂.snoc (.powerLoss w₂)), fun p hp => ?_, rfl, ?_, importNavData_iff.2 ?_⟩
  · rcases List.mem_append.1 hp with hp | hp
    · exact hfits p hp
    · apply databaseFits
      intro hl
      rcases List.mem_append.1 hp with hp | hp
      · rw [hoffered p hp hl]
        decide
      · rw [List.mem_singleton.1 hp] at hl
        cases hl
  · rw [hexports, hexports₁]
    rfl
  · refine ⟨rfl, rfl, rfl, threeBytes.data, dataLenBytes 2, ?_, ?_, by decide, rfl⟩
    · rw [hflash]
    · rw [hflash]
      exact hlen

/-- A save that is not interrupted. -/
theorem restore_iff_saved : ∃ tr w, Run (Step someCodes) (World.boot someCodes) tr w ∧
    w.flash.navData = some [0x01, 0x02] ∧
    ((∀ x ∈ Run.states tr w, x.RestoresOne) ↔ ∀ p ∈ tr, ¬ Torn p.1 p.2) := by
  obtain ⟨tr, w, hr, hfits, -, -, hfile, -⟩ :=
    saved_run someCodes (w := World.boot someCodes) rfl twoBytes (by decide)
  exact ⟨tr, w, hr, hfile, restore_iff hr hfits⟩

end TrackIt.Persist
