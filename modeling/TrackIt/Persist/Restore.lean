import TrackIt.Persist.Save

/-!
# Restoring position and navigation data

`check_gnss_fix_task` reads the three files back when there is no fix, between stopping and starting the receiver's
engine. `checkGnssFix` is what one notification does: the calls it makes, and the export buffer, into which the database
is read.

- `importNavData_iff`: which database and length are passed to the receiver.
-/

namespace TrackIt.Persist

open TrackIt.Lib

/-- The calls of `check_gnss_fix_task` after the fix check that reach the receiver or fill the export buffer. -/
inductive Call
  | gnssStop
  | importLastKnownPos (latitude longitude altitude : Int32) (hAcc : UInt32)
  /-- `FS_Read` of `n` bytes of the database into `gExportDataBuffer`. -/
  | readNavData (n : Nat)
  /-- `M10_ImportNavData` of the first `n` bytes of `gExportDataBuffer`. -/
  | importNavData (bytes : List UInt8) (n : Nat)
  | gnssStart

/-- What the calls answer during one notification, and what stands in the uninitialized local arrays. -/
structure Answers where
  hasValidFix : Bool
  readLastPos : Bool
  readNavDataLen : Bool
  readNavData : Bool
  lastPosData : List UInt8
  navDataLenBuf : List UInt8

/-- `FS_Read` of `n` bytes into `buf`, when it succeeds: the first `n` bytes of the file. -/
def fsRead (buf file : List UInt8) (n : Nat) : List UInt8 := overwrite buf 0 (file.take n)

/-- The word at index `k`. -/
def wordAt (b : List UInt8) (k : Nat) : UInt32 :=
  le32 (b.getD k 0) (b.getD (k + 1) 0) (b.getD (k + 2) 0) (b.getD (k + 3) 0)

/-- A word of a file that was read whole is that of the file, whatever stood in the array before. -/
theorem wordAt_fsRead (buf : List UInt8) {file : List UInt8} {n k : Nat} (hlen : file.length = n) (hk : k + 4 ≤ n) :
    wordAt (fsRead buf file n) k = wordAt file k := by
  have hread : fsRead buf file n = file ++ buf.drop n := by
    rw [fsRead, overwrite, List.take_of_length_le hlen.le, hlen, List.take_zero, List.nil_append, Nat.zero_add]
  have hbyte {i : Nat} (hi : i < n) : (fsRead buf file n).getD i 0 = file.getD i 0 := by
    rw [hread]
    rw [List.getD_eq_getElem?_getD, List.getD_eq_getElem?_getD, List.getElem?_append_left (by omega)]
  rw [wordAt, hbyte (by omega), hbyte (by omega), hbyte (by omega), hbyte (by omega), wordAt]

def restoreLastPos (a : Answers) (flash : Flash) : List Call :=
  match flash.lastPos with
  | none => []
  | some file =>
    if a.readLastPos then
      let d := fsRead a.lastPosData file 16
      [.importLastKnownPos (wordAt d 0).toInt32 (wordAt d 4).toInt32 (wordAt d 8).toInt32 (wordAt d 12)]
    else []

/-- `nav_data_len` -/
def navDataLen (a : Answers) (file : List UInt8) : Nat := (wordAt (fsRead a.navDataLenBuf file 4) 0).toNat

def restoreNavData (a : Answers) (flash : Flash) (buffer : List UInt8) : List Call × List UInt8 :=
  match flash.navData, flash.navDataLen with
  | none, _ => ([], buffer)
  | some _, none => ([], buffer)    -- the length file is missing
  | some file, some lenFile =>
    if a.readNavDataLen then
      let n := navDataLen a lenFile
      if a.readNavData then
        let read := fsRead buffer file n
        ([.readNavData n, .importNavData (read.take n) n], read)
      else ([.readNavData n], buffer)
    else ([], buffer)

def checkGnssFix (a : Answers) (flash : Flash) (buffer : List UInt8) : List Call × List UInt8 :=
  if a.hasValidFix then ([], buffer)
  else if flash.lastPos.isSome || flash.navData.isSome then
    let nav := restoreNavData a flash buffer
    ([.gnssStop] ++ restoreLastPos a flash ++ nav.1 ++ [.gnssStart], nav.2)
  else ([], buffer)

/-- The position is imported at most once. -/
theorem restoreLastPos_cases (a : Answers) (flash : Flash) :
    restoreLastPos a flash = [] ∨ ∃ latitude longitude altitude hAcc,
      restoreLastPos a flash = [.importLastKnownPos latitude longitude altitude hAcc] := by
  unfold restoreLastPos
  cases flash.lastPos with
  | none => exact .inl rfl
  | some file =>
    cases a.readLastPos with
    | false => exact .inl rfl
    | true => exact .inr ⟨_, _, _, _, rfl⟩

/-- **What the restore of the database does**: nothing, or it reads as much as the length file says, and imports it if
that could be read. -/
theorem restoreNavData_cases (a : Answers) (flash : Flash) (buffer : List UInt8) :
    restoreNavData a flash buffer = ([], buffer) ∧
      ¬ (flash.navData ≠ none ∧ flash.navDataLen ≠ none ∧ a.readNavDataLen = true) ∨
    ∃ file lenFile, flash.navData = some file ∧ flash.navDataLen = some lenFile ∧ a.readNavDataLen = true ∧
      (a.readNavData = false ∧ restoreNavData a flash buffer = ([.readNavData (navDataLen a lenFile)], buffer) ∨
        a.readNavData = true ∧ restoreNavData a flash buffer =
          ([.readNavData (navDataLen a lenFile),
            .importNavData ((fsRead buffer file (navDataLen a lenFile)).take (navDataLen a lenFile))
              (navDataLen a lenFile)],
            fsRead buffer file (navDataLen a lenFile))) := by
  unfold restoreNavData
  cases flash.navData with
  | none => exact .inl ⟨rfl, by simp⟩
  | some file =>
    cases flash.navDataLen with
    | none => exact .inl ⟨rfl, by simp⟩
    | some lenFile =>
      cases a.readNavDataLen with
      | false => exact .inl ⟨rfl, by simp⟩
      | true =>
        refine .inr ⟨file, lenFile, rfl, rfl, rfl, ?_⟩
        cases a.readNavData with
        | false => exact .inl ⟨rfl, rfl⟩
        | true => exact .inr ⟨rfl, rfl⟩

theorem not_importNavData_lastPos (a : Answers) (flash : Flash) (bytes : List UInt8) (n : Nat) :
    .importNavData bytes n ∉ restoreLastPos a flash := by
  rcases restoreLastPos_cases a flash with h | ⟨_, _, _, _, h⟩ <;> simp [h]

theorem importNavData_restore {a : Answers} {flash : Flash} {buffer bytes : List UInt8} {n : Nat} :
    .importNavData bytes n ∈ (restoreNavData a flash buffer).1 ↔ a.readNavDataLen ∧ a.readNavData ∧ ∃ file lenFile,
      flash.navData = some file ∧ flash.navDataLen = some lenFile ∧ n = navDataLen a lenFile ∧
      bytes = (fsRead buffer file n).take n := by
  rcases restoreNavData_cases a flash buffer with ⟨h, hno⟩ | ⟨file, lenFile, hf, hl, hlen, ⟨hr, h⟩ | ⟨hr, h⟩⟩ <;>
    rw [h]
  · refine iff_of_false (by simp) ?_
    rintro ⟨hlen, -, file, lenFile, hf, hl, -⟩
    exact hno ⟨by simp [hf], by simp [hl], hlen⟩
  · simp [hr]
  · constructor
    · intro hmem
      obtain ⟨rfl, rfl⟩ : bytes = _ ∧ n = _ := by simpa using hmem
      exact ⟨hlen, hr, file, lenFile, hf, hl, rfl, rfl⟩
    · rintro ⟨-, -, file', lenFile', hf', hl', rfl, rfl⟩
      obtain rfl : file = file' := Option.some.inj (hf.symm.trans hf')
      obtain rfl : lenFile = lenFile' := Option.some.inj (hl.symm.trans hl')
      exact List.mem_cons_of_mem _ (List.mem_singleton_self _)

/-- Between stopping and starting the engine, the calls are those of the two restores. -/
theorem mem_checkGnssFix {a : Answers} {flash : Flash} {buffer : List UInt8} {c : Call} (hstop : c ≠ .gnssStop)
    (hstart : c ≠ .gnssStart) : c ∈ (checkGnssFix a flash buffer).1 ↔
      a.hasValidFix = false ∧ (c ∈ restoreLastPos a flash ∨ c ∈ (restoreNavData a flash buffer).1) := by
  unfold checkGnssFix
  cases hfix : a.hasValidFix with
  | true => simp
  | false =>
    by_cases hex : (flash.lastPos.isSome || flash.navData.isSome) = true
    · simp [hex, hstop, hstart]
    · -- neither file is there
      obtain ⟨hpos, hnav⟩ : flash.lastPos = none ∧ flash.navData = none := by simpa using hex
      simp [restoreLastPos, restoreNavData, hpos, hnav]

/-- **What is imported**: the length is what `/gnss-len` says, whatever `/gnss` holds. -/
theorem importNavData_iff {a : Answers} {flash : Flash} {buffer bytes : List UInt8} {n : Nat} :
    .importNavData bytes n ∈ (checkGnssFix a flash buffer).1 ↔
      a.hasValidFix = false ∧ a.readNavDataLen ∧ a.readNavData ∧ ∃ file lenFile,
        flash.navData = some file ∧ flash.navDataLen = some lenFile ∧ n = navDataLen a lenFile ∧
        bytes = (fsRead buffer file n).take n := by
  rw [mem_checkGnssFix (c := .importNavData bytes n) (by simp) (by simp),
    or_iff_right (not_importNavData_lastPos a flash bytes n), importNavData_restore]

end TrackIt.Persist
