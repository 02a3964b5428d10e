import TrackIt.Lib.Run
import TrackIt.Lib.Overwrite
import TrackIt.Telemetry.Parser

/-!
# Saving position and navigation data

`gnss_save_data_task` writes three files one after the other: the last position from the published base data, the
navigation database that the receiver exports, and the length of the database. Every call may fail, and the power may be
lost between any two of them.

`World` has, besides the files and the task, the telemetry parser whose base data is saved, and what happened so far:
the NAV-PVT payloads handled, the databases exported, and the record that the last position was written from.
-/

namespace TrackIt.Persist

open TrackIt.Lib TrackIt.Telemetry

/-- `GNSS_LAST_POS_FILE_PATH`, `GNSS_NAV_DATA_FILE_PATH` and `GNSS_NAV_DATA_LEN_FILE_PATH`, each a file or none. -/
structure Flash where
  lastPos : Option (List UInt8)
  navData : Option (List UInt8)
  navDataLen : Option (List UInt8)

/-! ## The export buffer -/

/-- `GNSS_EXPORT_DATA_BUF_LEN` -/
def exportDataBufLen : Nat := 12288

/-- `gExportDataBuffer` and `gExportDataLen`. -/
structure ExportData where
  buffer : List UInt8
  len : Nat
  length_buffer : buffer.length = exportDataBufLen
  len_le : len ≤ exportDataBufLen

/-- `M10_ExportDataChunkTypeDef`. Its length has 16 bits, so that adding it to `gExportDataLen` cannot wrap around. -/
structure ExportDataChunk where
  data : List UInt8
  len_lt : data.length < 2 ^ 16

namespace ExportData

/-- The statically initialized buffer. -/
def init : ExportData := ⟨List.replicate exportDataBufLen 0, 0, List.length_replicate, Nat.zero_le _⟩

/-- `gExportDataLen = 0` -/
def reset (e : ExportData) : ExportData := ⟨e.buffer, 0, e.length_buffer, Nat.zero_le _⟩

/-- The bytes exported so far. -/
def content (e : ExportData) : List UInt8 := e.buffer.take e.len

theorem length_content (e : ExportData) : e.content.length = e.len := by
  rw [content, List.length_take, e.length_buffer]
  exact Nat.min_eq_left e.len_le

@[simp] theorem content_reset (e : ExportData) : e.reset.content = [] := by simp [content, reset]

/-- `memcpy` behind the bytes exported so far, and `gExportDataLen += Len`. -/
def append (e : ExportData) (bytes : List UInt8) (h : e.len + bytes.length ≤ exportDataBufLen) : ExportData where
  buffer := overwrite e.buffer e.len bytes
  len := e.len + bytes.length
  length_buffer := by
    have := e.length_buffer
    rw [length_overwrite (by omega), this]
  len_le := h

@[simp] theorem content_append (e : ExportData) (bytes : List UInt8) (h : e.len + bytes.length ≤ exportDataBufLen) :
    (e.append bytes h).content = e.content ++ bytes :=
  take_overwrite bytes (by rw [e.length_buffer]; exact e.len_le)

/-- `handle_gnss_data_msg_cb`: its result, and the buffer it leaves. -/
def handleChunk (e : ExportData) (c : ExportDataChunk) : Nat × ExportData :=
  if h : exportDataBufLen < e.len + c.data.length then (1, e)
  else (0, e.append c.data (Nat.not_lt.1 h))

theorem handleChunk_of_le {e : ExportData} {c : ExportDataChunk} (h : e.len + c.data.length ≤ exportDataBufLen) :
    e.handleChunk c = (0, e.append c.data h) :=
  dif_neg (Nat.not_lt.2 h)

end ExportData

/-! ## The files' contents -/

/-- `last_pos` -/
def lastPosBytes (b : GnssBaseData) : List UInt8 :=
  bytesInt32 b.latitude ++ bytesInt32 b.longitude ++ bytesInt32 b.altitudeCm ++ bytes32 b.horizontalAccuracyCm

/-- `data_len` -/
def dataLenBytes (len : Nat) : List UInt8 := bytes32 (UInt32.ofNat len)

/-! ## The task -/

/-- Where `gnss_save_data_task` stands: at `xTaskNotifyWait`, before one of its calls, or in `M10_ExportNavData`. -/
inductive Pc
  | waiting
  | notified
  | gotBaseData (baseData : GnssBaseData)
  | exporting
  | exported
  | navDataWritten

structure World where
  pc : Pc
  parser : TelParser
  exportData : ExportData
  flash : Flash
  /-- The NAV-PVT payloads that `tel_parser_task` has handled. -/
  pvts : List Payload
  /-- All that `M10_ExportNavData` has passed to its callback in the running cycle. -/
  offered : List UInt8
  /-- The databases of the exports that succeeded. -/
  exports : List (List UInt8)
  /-- The record that `/last-pos` was written from. -/
  lastPosFrom : Option GnssBaseData

inductive Label
  | message (input : TelparserInput) (setBase setPrecision : Bool)
  | notify
  | getBaseData (ok : Bool)
  | writeLastPos (ok : Bool)
  | chunk (c : ExportDataChunk)
  | exportNavData (ok : Bool)
  | writeNavData (ok : Bool)
  | writeNavDataLen (ok : Bool)
  | powerLoss

/-- The first boot: no files. -/
def World.boot (m10 : M10Codes) : World := ⟨.waiting, .init m10, .init, ⟨none, none, none⟩, [], [], [], none⟩

/-- The NAV-PVT payloads handled once `input` has been. -/
def pvtsAfter (m10 : M10Codes) (pvts : List Payload) (input : TelparserInput) : List Payload :=
  if input.IsPvt m10 then pvts ++ [input.payload] else pvts

/-- The call that the task makes next, failing. -/
def Pc.failure : Pc → Option Label
  | .waiting => none
  | .notified => some (.getBaseData false)
  | .gotBaseData _ => some (.writeLastPos false)
  | .exporting => some (.exportNavData false)
  | .exported => some (.writeNavData false)
  | .navDataWritten => some (.writeNavDataLen false)

inductive Step (m10 : M10Codes) : World → Label → World → Prop
  | message (w : World) (input : TelparserInput) (setBase setPrecision : Bool) :
      Step m10 w (.message input setBase setPrecision)
        { w with parser := w.parser.handle m10 input setBase setPrecision, pvts := pvtsAfter m10 w.pvts input }
  | notify (w : World) (hpc : w.pc = .waiting) :
      Step m10 w .notify { w with pc := .notified, exportData := w.exportData.reset, offered := [] }
  | getBaseData (w : World) (hpc : w.pc = .notified) :
      Step m10 w (.getBaseData true) { w with pc := .gotBaseData w.parser.gnssBaseData }
  | writeLastPos (w : World) (b : GnssBaseData) (hpc : w.pc = .gotBaseData b) :
      Step m10 w (.writeLastPos true)
        { w with pc := .exporting, flash := { w.flash with lastPos := some (lastPosBytes b) },
                 lastPosFrom := some b }
  | chunk (w : World) (c : ExportDataChunk) (hpc : w.pc = .exporting) :
      Step m10 w (.chunk c)
        { w with exportData := (w.exportData.handleChunk c).2, offered := w.offered ++ c.data }
  | exportNavData (w : World) (hpc : w.pc = .exporting) :
      Step m10 w (.exportNavData true) { w with pc := .exported, exports := w.exports ++ [w.offered] }
  | writeNavData (w : World) (hpc : w.pc = .exported) :
      Step m10 w (.writeNavData true)
        { w with pc := .navDataWritten, flash := { w.flash with navData := some w.exportData.content } }
  | writeNavDataLen (w : World) (hpc : w.pc = .navDataWritten) :
      Step m10 w (.writeNavDataLen true)
        { w with pc := .waiting, flash := { w.flash with navDataLen := some (dataLenBytes w.exportData.len) } }
  /-- A failure is logged and ends the cycle. -/
  | failed (w : World) (l : Label) (hl : w.pc.failure = some l) : Step m10 w l { w with pc := .waiting }
  /-- Only the files survive. -/
  | powerLoss (w : World) :
      Step m10 w .powerLoss { w with pc := .waiting, parser := .init m10, exportData := .init, offered := [] }

/-- A cycle in which every call succeeds and the receiver exports one chunk, up to the write of the length. -/
theorem cycle_run (m10 : M10Codes) {w : World} (hpc : w.pc = .waiting) (c : ExportDataChunk)
    (hc : c.data.length ≤ exportDataBufLen) : ∃ tr w', Run (Step m10) w tr w' ∧
    (∀ p ∈ tr, p.2 = .exportNavData true → p.1.offered = c.data) ∧ w'.pc = .navDataWritten ∧
    w'.exportData.content = c.data ∧
    w'.flash = ⟨some (lastPosBytes w.parser.gnssBaseData), some c.data, w.flash.navDataLen⟩ ∧
    w'.pvts = w.pvts ∧ w'.exports = w.exports ++ [c.data] ∧ w'.lastPosFrom = some w.parser.gnssBaseData := by
  have hle : w.exportData.reset.len + c.data.length ≤ exportDataBufLen := by
    rw [ExportData.reset, Nat.zero_add]
    exact hc
  have hcontent : (w.exportData.reset.handleChunk c).2.content = c.data := by
    rw [ExportData.handleChunk_of_le hle, ExportData.content_append, ExportData.content_reset, List.nil_append]
  let e := w.exportData.reset
  let b := w.parser.gnssBaseData
  let flash : Flash := ⟨some (lastPosBytes b), w.flash.navData, w.flash.navDataLen⟩
  have h₁ : Run (Step m10) w _ ⟨.notified, w.parser, e, w.flash, w.pvts, [], w.exports, w.lastPosFrom⟩ :=
    .single (.notify w hpc)
  have h₂ : Run (Step m10) w _ ⟨.gotBaseData b, w.parser, e, w.flash, w.pvts, [], w.exports, w.lastPosFrom⟩ :=
    h₁.snoc (.getBaseData _ rfl)
  have h₃ : Run (Step m10) w _ ⟨.exporting, w.parser, e, flash, w.pvts, [], w.exports, some b⟩ :=
    h₂.snoc (.writeLastPos _ b rfl)
  have h₄ : Run (Step m10) w _
      ⟨.exporting, w.parser, (e.handleChunk c).2, flash, w.pvts, c.data, w.exports, some b⟩ :=
    h₃.snoc (.chunk _ c rfl)
  have h₅ : Run (Step m10) w _
      ⟨.exported, w.parser, (e.handleChunk c).2, flash, w.pvts, c.data, w.exports ++ [c.data], some b⟩ :=
    h₄.snoc (.exportNavData _ rfl)
  have h₆ : Run (Step m10) w _
      ⟨.navDataWritten, w.parser, (e.handleChunk c).2, { flash with navData := some (e.handleChunk c).2.content },
        w.pvts, c.data, w.exports ++ [c.data], some b⟩ :=
    h₅.snoc (.writeNavData _ rfl)
  refine ⟨_, _, h₆, ?_, rfl, hcontent, by rw [hcontent], rfl, rfl, rfl⟩
  intro p hp hl
  simp only [List.cons_append, List.nil_append, List.mem_cons, List.not_mem_nil, or_false] at hp
  rcases hp with rfl | rfl | rfl | rfl | rfl | rfl
  · cases hl
  · cases hl
  · cases hl
  · cases hl
  · rfl
  · cases hl

end TrackIt.Persist
