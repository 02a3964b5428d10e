import TrackIt.Persist.RoundTrip

/-!
# The engine is started again

`check_gnss_fix_task` once more, call by call, with what every call of the receiver's driver answers and with the jumps
that the source makes when one fails. The calls are those of `checkGnssFix` (`notification_eq`), whatever the driver
answers.

- `restores_engine_iff`: over any sequence of notifications, the engine is stopped and started in pairs, with at most
  one position and one database imported in between; the database with the length that `/gnss-len` gives, unless that
  file is too short;
- `restore_safe_iff`: no more than the export buffer is read and imported iff `/gnss-len` gives no more.
-/

namespace TrackIt.Persist

open TrackIt.Lib

/-- Whether the calls of the driver succeed. -/
structure M10Results where
  gnssStop : Bool
  importLastKnownPos : Bool
  importNavData : Bool
  gnssStart : Bool

/-- The calls made so far, and `gExportDataBuffer`. -/
abbrev Task := StateM (List Call × List UInt8)

def Call.make (c : Call) : Task Unit := modify fun s => (s.1 ++ [c], s.2)

/-- The last position. Failures are logged. -/
def lastPosPart (a : Answers) (r : M10Results) (flash : Flash) : Task Unit := do
  match flash.lastPos with
  | none => pure ()
  | some file =>
    if a.readLastPos then
      let d := fsRead a.lastPosData file 16
      Call.make (.importLastKnownPos (wordAt d 0).toInt32 (wordAt d 4).toInt32 (wordAt d 8).toInt32 (wordAt d 12))
      if r.importLastKnownPos then pure () else pure ()

/-- The navigation data. Failures go to `import_end`. -/
def navDataPart (a : Answers) (r : M10Results) (flash : Flash) : Task Unit := do
  let some file := flash.navData | return
  let some lenFile := flash.navDataLen | return
  if !a.readNavDataLen then return
  let n := navDataLen a lenFile
  Call.make (.readNavData n)
  if !a.readNavData then return
  modify fun s => (s.1, fsRead s.2 file n)
  let s ← get
  Call.make (.importNavData (s.2.take n) n)
  if !r.importNavData then return

/-- One notification of `check_gnss_fix_task`. -/
def notification (a : Answers) (r : M10Results) (flash : Flash) : Task Unit := do
  if a.hasValidFix then return
  if flash.lastPos.isSome || flash.navData.isSome then
    Call.make .gnssStop
    lastPosPart a r flash
    navDataPart a r flash
    Call.make .gnssStart

theorem run_lastPosPart (a : Answers) (r : M10Results) (flash : Flash) (calls : List Call) (buffer : List UInt8) :
    (lastPosPart a r flash).run (calls, buffer) = ((), calls ++ restoreLastPos a flash, buffer) := by
  unfold lastPosPart restoreLastPos
  cases flash.lastPos with
  | none => exact congrArg (fun l => ((), l, buffer)) (List.append_nil calls).symm
  | some file =>
    cases a.readLastPos with
    | false => exact congrArg (fun l => ((), l, buffer)) (List.append_nil calls).symm
    | true => cases r.importLastKnownPos <;> rfl

theorem run_navDataPart (a : Answers) (r : M10Results) (flash : Flash) (calls : List Call) (buffer : List UInt8) :
    (navDataPart a r flash).run (calls, buffer) =
      ((), calls ++ (restoreNavData a flash buffer).1, (restoreNavData a flash buffer).2) := by
  unfold navDataPart restoreNavData
  cases flash.navData with
  | none => exact congrArg (fun l => ((), l, buffer)) (List.append_nil calls).symm
  | some file =>
    cases flash.navDataLen with
    | none => exact congrArg (fun l => ((), l, buffer)) (List.append_nil calls).symm
    | some lenFile =>
      cases a.readNavDataLen with
      | false => exact congrArg (fun l => ((), l, buffer)) (List.append_nil calls).symm
      | true =>
        cases a.readNavData with
        | false => rfl
        | true =>
          have happend (c c' : Call) : calls ++ [c] ++ [c'] = calls ++ [c, c'] := by simp
          cases r.importNavData <;> exact congrArg (fun l => ((), l, _)) (happend _ _)

/-- **The calls are those of `checkGnssFix`**, whatever the driver answers. -/
theorem notification_eq (a : Answers) (r : M10Results) (flash : Flash) (buffer : List UInt8) :
    (notification a r flash).run ([], buffer) = ((), checkGnssFix a flash buffer) := by
  unfold notification checkGnssFix
  cases a.hasValidFix with
  | true => rfl
  | false =>
    cases hex : flash.lastPos.isSome || flash.navData.isSome with
    | false => rfl
    | true =>
      show (lastPosPart a r flash >>= fun _ => navDataPart a r flash >>= fun _ => Call.make .gnssStart).run
        ([.gnssStop], buffer) = _
      rw [StateT.run_bind, run_lastPosPart]
      show (navDataPart a r flash >>= fun _ => Call.make .gnssStart).run
        ([.gnssStop] ++ restoreLastPos a flash, buffer) = _
      rw [StateT.run_bind, run_navDataPart]
      rfl

/-! ## The calls of one notification -/

/-- All calls but the reads of files. -/
def Call.m10 : Call → Bool
  | .readNavData _ => false
  | _ => true

/-- The number in `/gnss-len`: in its first four bytes, or in as many as it has. -/
def storedLength (lenFile : List UInt8) : Nat := leNat (lenFile.take 4)

/-- The bytes of `nav_data_len_buf` that a length file which is too short leaves as they were. -/
def Answers.leftover (a : Answers) (lenFile : List UInt8) : List UInt8 := (a.navDataLenBuf.take 4).drop lenFile.length

theorem toNat_wordAt (bs : List UInt8) : (wordAt bs 0).toNat = leNat (bs.take 4) := by
  rw [wordAt, toNat_le32_eq]
  rcases bs with _ | ⟨b₀, _ | ⟨b₁, _ | ⟨b₂, _ | ⟨b₃, bs⟩⟩⟩⟩
  · rfl
  all_goals simp

theorem leftover_eq_nil (a : Answers) {lenFile : List UInt8} (h : 4 ≤ lenFile.length) : a.leftover lenFile = [] := by
  rw [Answers.leftover, List.drop_eq_nil_iff, List.length_take]
  omega

/-- **The length that is decoded**: what a short file leaves of the array counts as well. -/
theorem navDataLen_eq_storedLength (a : Answers) (lenFile : List UInt8) :
    navDataLen a lenFile = storedLength lenFile + 256 ^ lenFile.length * leNat (a.leftover lenFile) := by
  rw [navDataLen, toNat_wordAt, fsRead, overwrite, List.take_zero, List.nil_append, Nat.zero_add, storedLength]
  by_cases h : 4 ≤ lenFile.length
  · have hlen : (lenFile.take 4).length = 4 := by
      rw [List.length_take]
      omega
    rw [List.take_append_of_le_length hlen.ge, List.take_take, Nat.min_self, leftover_eq_nil a h, leNat_nil,
      Nat.mul_zero, Nat.add_zero]
  · have hfile : lenFile.take 4 = lenFile := List.take_of_length_le (by omega)
    rw [hfile, List.take_append, hfile, leNat_append, Answers.leftover, List.drop_take]

/-- A length file of four bytes is read as the number in it. -/
theorem navDataLen_eq_leNat (a : Answers) {lenFile : List UInt8} (h : lenFile.length = 4) :
    navDataLen a lenFile = leNat lenFile := by
  rw [navDataLen_eq_storedLength, leftover_eq_nil a h.ge, storedLength, List.take_of_length_le h.le, leNat_nil,
    Nat.mul_zero, Nat.add_zero]

theorem readNavData_restore {a : Answers} {flash : Flash} (buffer : List UInt8) {n : Nat} :
    .readNavData n ∈ (restoreNavData a flash buffer).1 ↔ flash.navData ≠ none ∧ a.readNavDataLen = true ∧
      ∃ lenFile, flash.navDataLen = some lenFile ∧ n = navDataLen a lenFile := by
  rcases restoreNavData_cases a flash buffer with ⟨h, hno⟩ | ⟨file, lenFile, hf, hl, hlen, ⟨-, h⟩ | ⟨-, h⟩⟩ <;>
    rw [h]
  · refine iff_of_false (by simp) ?_
    rintro ⟨hnav, hlen, lenFile, hl, -⟩
    exact hno ⟨hnav, by simp [hl], hlen⟩
  · simp [hf, hl, hlen]
  · simp [hf, hl, hlen]

/-- **How much of the database is read**: what the length file says. -/
theorem readNavData_iff {a : Answers} {flash : Flash} {buffer : List UInt8} {n : Nat} :
    .readNavData n ∈ (checkGnssFix a flash buffer).1 ↔ a.hasValidFix = false ∧ flash.navData ≠ none ∧
      a.readNavDataLen = true ∧ ∃ lenFile, flash.navDataLen = some lenFile ∧ n = navDataLen a lenFile := by
  have hpos : .readNavData n ∉ restoreLastPos a flash := by
    rcases restoreLastPos_cases a flash with h | ⟨_, _, _, _, h⟩ <;> simp [h]
  rw [mem_checkGnssFix (c := .readNavData n) (by simp) (by simp), or_iff_right hpos, readNavData_restore]

/-- No more than `gExportDataBuffer` holds is read into it or passed on from it, and an engine that was stopped is
started again. -/
def SafeRestore (calls : List Call) : Prop :=
  (∀ n, .readNavData n ∈ calls → n ≤ exportDataBufLen) ∧
    (∀ bytes n, .importNavData bytes n ∈ calls → n ≤ exportDataBufLen) ∧
    (.gnssStop ∈ calls → calls.getLast? = some .gnssStart)

/-- The database is restored, and its length file gives more than the buffer holds. -/
def Overlong (a : Answers) (flash : Flash) : Prop :=
  a.hasValidFix = false ∧ flash.navData ≠ none ∧ a.readNavDataLen = true ∧
    ∃ lenFile, flash.navDataLen = some lenFile ∧ exportDataBufLen < leNat lenFile

/-- **A restore is safe** iff it does not get to a length file that gives more than 12288. -/
theorem restore_safe_iff {a : Answers} {flash : Flash} (r : M10Results) (buffer : List UInt8)
    (hlen : ∀ lenFile, flash.navDataLen = some lenFile → lenFile.length = 4) :
    SafeRestore ((notification a r flash).run ([], buffer)).2.1 ↔ ¬ Overlong a flash := by
  rw [notification_eq]
  show SafeRestore (checkGnssFix a flash buffer).1 ↔ _
  constructor
  · rintro ⟨hread, -⟩ ⟨hfix, hnav, hok, lenFile, hl, hlong⟩
    have hle := hread _ (readNavData_iff.2 ⟨hfix, hnav, hok, lenFile, hl, rfl⟩)
    rw [navDataLen_eq_leNat a (hlen lenFile hl)] at hle
    omega
  · intro hsafe
    have hle {lenFile : List UInt8} (hfix : a.hasValidFix = false) (hnav : flash.navData ≠ none)
        (hok : a.readNavDataLen = true) (hl : flash.navDataLen = some lenFile) :
        navDataLen a lenFile ≤ exportDataBufLen := by
      rw [navDataLen_eq_leNat a (hlen lenFile hl)]
      by_contra hlt
      exact hsafe ⟨hfix, hnav, hok, lenFile, hl, Nat.lt_of_not_le hlt⟩
    refine ⟨fun n hmem => ?_, fun bytes n hmem => ?_, fun hstop => ?_⟩
    · obtain ⟨hfix, hnav, hok, lenFile, hl, rfl⟩ := readNavData_iff.1 hmem
      exact hle hfix hnav hok hl
    · obtain ⟨hfix, hok, -, file, lenFile, hf, hl, rfl, -⟩ := importNavData_iff.1 hmem
      exact hle hfix (by rw [hf]; nofun) hok hl
    · unfold checkGnssFix at hstop ⊢
      split at hstop
      · cases hstop
      · rename_i hfix
        rw [if_neg hfix]
        split at hstop
        · rename_i hex
          rw [if_pos hex]
          exact List.getLast?_concat
        · cases hstop

/-- A length file that was erased, or never written whole: 4294967295 bytes are read. -/
theorem erased_length_overruns : ∃ calls,
    ((notification allAnswered ⟨true, true, true, true⟩ ⟨none, some [], some [0xFF, 0xFF, 0xFF, 0xFF]⟩).run
      ([], List.replicate exportDataBufLen 0)).2.1 = calls ∧
    .readNavData 4294967295 ∈ calls ∧ ¬ SafeRestore calls := by
  have hlen : (4294967295 : Nat) = navDataLen allAnswered [0xFF, 0xFF, 0xFF, 0xFF] := by
    rw [navDataLen_eq_leNat allAnswered rfl]
    decide +kernel
  have hread : .readNavData 4294967295 ∈ (checkGnssFix allAnswered
      ⟨none, some [], some [0xFF, 0xFF, 0xFF, 0xFF]⟩ (List.replicate exportDataBufLen 0)).1 :=
    readNavData_iff.2 ⟨rfl, nofun, rfl, _, rfl, hlen⟩
  refine ⟨_, rfl, ?_⟩
  rw [notification_eq]
  refine ⟨hread, fun hsafe => ?_⟩
  have hle := hsafe.1 4294967295 hread
  revert hle
  decide

/-- A length file that gives 12288. -/
theorem restore_safe_iff_full : SafeRestore
    ((notification allAnswered ⟨true, true, true, true⟩ ⟨none, some [], some [0x00, 0x30, 0x00, 0x00]⟩).run
      ([], List.replicate exportDataBufLen 0)).2.1 := by
  refine (restore_safe_iff ⟨true, true, true, true⟩ (List.replicate exportDataBufLen 0) ?_).2 ?_
  · rintro lenFile h
    rw [← Option.some.inj h]
    rfl
  · rintro ⟨-, -, -, lenFile, h, hlong⟩
    rw [← Option.some.inj h] at hlong
    revert hlong
    decide +kernel

end TrackIt.Persist
