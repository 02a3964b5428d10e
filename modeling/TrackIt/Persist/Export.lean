import TrackIt.Persist.RoundTrip

/-!
# The export buffer over whole runs

`handle_gnss_data_msg_cb` appends the chunks of an export to a static buffer that every cycle of `gnss_save_data_task`
starts anew. What the buffer is to hold is read off the run: the chunks of the current cycle for which the callback
returned 0 (`accepted`), and whether the export of the cycle returned `M10_ERROR_OK` (`exportOk`).

- `export_accumulates`: the buffer holds the accepted chunks, nothing is lost or cut, and only whole exports are saved.
-/

namespace TrackIt.Persist

open TrackIt.Lib TrackIt.Telemetry

variable {m10 : M10Codes}

/-! ## What happened in the current cycle -/

/-- The accepted chunks of the cycle, after one more step. A chunk is accepted when the callback returns 0. -/
def acceptedAfter (chunks : List (List UInt8)) : World × Label → List (List UInt8)
  | (_, .notify) => []
  | (_, .powerLoss) => []
  | (w, .chunk c) => if (w.exportData.handleChunk c).1 = 0 then chunks ++ [c.data] else chunks
  | _ => chunks

def accepted (tr : List (World × Label)) : List (List UInt8) := tr.foldl acceptedAfter []

/-- Whether the export of the cycle has returned `M10_ERROR_OK`, after one more step. -/
def exportOkAfter (ok : Bool) : World × Label → Bool
  | (_, .notify) => false
  | (_, .powerLoss) => false
  | (_, .exportNavData result) => result
  | _ => ok

def exportOk (tr : List (World × Label)) : Bool := tr.foldl exportOkAfter false

theorem accepted_snoc (tr : List (World × Label)) (p : World × Label) :
    accepted (tr ++ [p]) = acceptedAfter (accepted tr) p := by
  rw [accepted, List.foldl_append]
  rfl

theorem exportOk_snoc (tr : List (World × Label)) (p : World × Label) :
    exportOk (tr ++ [p]) = exportOkAfter (exportOk tr) p := by
  rw [exportOk, List.foldl_append]
  rfl

/-! ## One chunk -/

/-- **A chunk is accepted iff it fits.** -/
theorem handleChunk_fst (e : ExportData) (c : ExportDataChunk) :
    (e.handleChunk c).1 = 0 ↔ e.len + c.data.length ≤ exportDataBufLen := by
  unfold ExportData.handleChunk
  split
  · rename_i h
    exact iff_of_false Nat.one_ne_zero (by omega)
  · rename_i h
    exact iff_of_true rfl (by omega)

/-- A rejected chunk changes nothing. -/
theorem handleChunk_rejected {e : ExportData} {c : ExportDataChunk} (h : (e.handleChunk c).1 ≠ 0) :
    (e.handleChunk c).2 = e := by
  have hlt : exportDataBufLen < e.len + c.data.length := Nat.lt_of_not_le fun hle => h ((handleChunk_fst e c).2 hle)
  rw [ExportData.handleChunk, dif_pos hlt]

theorem content_handleChunk (e : ExportData) (c : ExportDataChunk) :
    (e.handleChunk c).2.content = if (e.handleChunk c).1 = 0 then e.content ++ c.data else e.content := by
  by_cases h : (e.handleChunk c).1 = 0
  · have hle := (handleChunk_fst e c).1 h
    rw [if_pos h, ExportData.handleChunk_of_le hle, ExportData.content_append]
  · rw [if_neg h, handleChunk_rejected h]

/-! ## The invariant -/

structure Accumulates (tr : List (World × Label)) (w : World) : Prop where
  content : w.exportData.content = (accepted tr).flatten
  exported : w.pc = .exported ∨ w.pc = .navDataWritten → exportOk tr = true
  written : w.pc = .navDataWritten → w.flash.navData = some w.exportData.content

theorem accumulates_boot : Accumulates [] (World.boot m10) := by
  refine ⟨?_, ?_, ?_⟩ <;> simp [World.boot, accepted, ExportData.content, ExportData.init]

theorem accumulates_step {tr : List (World × Label)} {w w' : World} {l : Label} (h : Accumulates tr w)
    (hs : Step m10 w l w') : Accumulates (tr ++ [(w, l)]) w' := by
  obtain ⟨hcontent, hexported, hwritten⟩ := h
  -- most steps leave the buffer and the accepted chunks alone
  have hkeep (hsame : acceptedAfter (accepted tr) (w, l) = accepted tr) :
      w.exportData.content = (accepted (tr ++ [(w, l)])).flatten := by
    rw [accepted_snoc, hsame]
    exact hcontent
  cases hs with
  | message input setBase setPrecision =>
    refine ⟨hkeep rfl, ?_, hwritten⟩
    rw [exportOk_snoc]
    exact hexported
  | notify hpc =>
    refine ⟨?_, by simp, by simp⟩
    rw [accepted_snoc]
    exact ExportData.content_reset _
  | getBaseData hpc => exact ⟨hkeep rfl, by simp, by simp⟩
  | writeLastPos b hpc => exact ⟨hkeep rfl, by simp, by simp⟩
  | chunk c hpc =>
    refine ⟨?_, by simp [hpc], by simp [hpc]⟩
    rw [accepted_snoc, content_handleChunk, acceptedAfter]
    by_cases hc : (w.exportData.handleChunk c).1 = 0
    · rw [if_pos hc, if_pos hc, hcontent, List.flatten_append, List.flatten_singleton]
    · rw [if_neg hc, if_neg hc, hcontent]
  | exportNavData hpc =>
    refine ⟨hkeep rfl, fun _ => ?_, by simp⟩
    rw [exportOk_snoc]
    rfl
  | writeNavData hpc =>
    refine ⟨hkeep rfl, fun _ => ?_, fun _ => rfl⟩
    rw [exportOk_snoc]
    exact hexported (.inl hpc)
  | writeNavDataLen hpc => exact ⟨hkeep rfl, by simp, by simp⟩
  | failed _ hl =>
    refine ⟨hkeep ?_, by simp, by simp⟩
    rcases Pc.failure_eq hl with rfl | rfl | rfl | rfl | rfl <;> rfl
  | powerLoss =>
    refine ⟨?_, by simp, by simp⟩
    rw [accepted_snoc]
    simp [acceptedAfter, ExportData.content, ExportData.init]

theorem accumulates_run {tr : List (World × Label)} {w : World} (h : Run (Step m10) (World.boot m10) tr w) :
    Accumulates tr w := by
  induction h with
  | nil => exact accumulates_boot
  | snoc _ hs ih => exact accumulates_step ih hs

/-! ## Whole runs -/

/-- The two files are written, or attempted to be, after the calls before have succeeded. -/
theorem pc_of_write {w w' : World} {l : Label} (hs : Step m10 w l w') (ok : Bool) :
    (l = .writeNavData ok → w.pc = .exported) ∧ (l = .writeNavDataLen ok → w.pc = .navDataWritten) := by
  cases hs with
  | writeNavData hpc =>
    constructor
    · exact fun _ => hpc
    · rintro ⟨⟩
  | writeNavDataLen hpc =>
    constructor
    · rintro ⟨⟩
    · exact fun _ => hpc
  | failed _ hl =>
    constructor
    · rintro rfl
      cases hpc : w.pc <;> simp [Pc.failure, hpc] at hl
      rfl
    · rintro rfl
      cases hpc : w.pc <;> simp [Pc.failure, hpc] at hl
      rfl
  | _ => constructor <;> rintro ⟨⟩

/-- Nothing else changes them. -/
theorem write_of_changed {w w' : World} {l : Label} (hs : Step m10 w l w')
    (h : w'.flash.navData ≠ w.flash.navData ∨ w'.flash.navDataLen ≠ w.flash.navDataLen) :
    ∃ ok, l = .writeNavData ok ∨ l = .writeNavDataLen ok := by
  cases hs with
  | writeNavData hpc => exact ⟨true, .inl rfl⟩
  | writeNavDataLen hpc => exact ⟨true, .inr rfl⟩
  | _ => exact h.elim (absurd rfl) (absurd rfl)

/-- **The export accumulates** in every run. The buffer is never overfull and holds the chunks of the current cycle that
were accepted, in order. A chunk is accepted iff it fits, and a rejected one changes nothing. The two files are written
only in cycles whose export returned `M10_ERROR_OK`; once both writes of a cycle have succeeded, `/gnss` holds the
accepted chunks, and the length that a restore decodes is its own. -/
theorem export_accumulates {tr : List (World × Label)} {w : World} (h : Run (Step m10) (World.boot m10) tr w) :
    w.exportData.len ≤ 12288 ∧ w.exportData.buffer.take w.exportData.len = (accepted tr).flatten ∧
    ∀ l w', Step m10 w l w' →
      (∀ c, l = .chunk c →
        ((w.exportData.handleChunk c).1 = 0 ↔ w.exportData.len + c.data.length ≤ 12288) ∧
        ((w.exportData.handleChunk c).1 ≠ 0 →
          w'.exportData.len = w.exportData.len ∧ w'.exportData.buffer = w.exportData.buffer)) ∧
      (w'.flash.navData ≠ w.flash.navData ∨ w'.flash.navDataLen ≠ w.flash.navDataLen →
        ∃ ok, l = .writeNavData ok ∨ l = .writeNavDataLen ok) ∧
      (∀ ok, l = .writeNavData ok ∨ l = .writeNavDataLen ok → exportOk tr = true) ∧
      (l = .writeNavDataLen true → ∃ file lenFile, w'.flash.navData = some file ∧ w'.flash.navDataLen = some lenFile ∧
        file = (accepted tr).flatten ∧ ∀ a, navDataLen a lenFile = file.length) := by
  obtain ⟨hcontent, hexported, hwritten⟩ := accumulates_run h
  refine ⟨w.exportData.len_le, hcontent, fun l w' hs => ⟨?_, write_of_changed hs, ?_, ?_⟩⟩
  · rintro c rfl
    refine ⟨handleChunk_fst _ _, fun hne => ?_⟩
    have hsame := handleChunk_rejected hne
    cases hs with
    | chunk c hpc => exact ⟨congrArg ExportData.len hsame, congrArg ExportData.buffer hsame⟩
    | failed _ hl => exact absurd (Pc.failure_eq hl) (by simp)
  · rintro ok (hl | hl)
    · exact hexported (.inl ((pc_of_write hs ok).1 hl))
    · exact hexported (.inr ((pc_of_write hs ok).2 hl))
  · rintro rfl
    have hpc := (pc_of_write hs true).2 rfl
    cases hs with
    | writeNavDataLen hpc' =>
      refine ⟨w.exportData.content, dataLenBytes w.exportData.len, hwritten hpc, rfl, hcontent, fun a => ?_⟩
      rw [navDataLen_eq a rfl, wordAt_dataLenBytes w.exportData.len_le, ExportData.length_content]
    | failed _ hl => exact absurd (Pc.failure_eq hl) (by simp)

/-- A cycle whose only chunk fills the buffer. -/
def fullChunk : ExportDataChunk := ⟨List.replicate 12288 0xAB, by rw [List.length_replicate]; decide⟩

theorem length_fullChunk : fullChunk.data.length = exportDataBufLen := List.length_replicate

theorem export_accumulates_full : ∃ tr w, Run (Step someCodes) (World.boot someCodes) tr w ∧
    w.exportData.buffer.take w.exportData.len = (accepted tr).flatten ∧ w.exportData.len = 12288 := by
  obtain ⟨tr, w, hr, -, -, hcontent, -⟩ :=
    cycle_run someCodes (w := World.boot someCodes) rfl fullChunk (Nat.le_of_eq length_fullChunk)
  refine ⟨tr, w, hr, (export_accumulates hr).2.1, ?_⟩
  rw [← ExportData.length_content, hcontent]
  exact length_fullChunk

end TrackIt.Persist
