import TrackIt.Framer.Buffer

/-!
# The frame parser of `gnss_uart_task`

The functions of `gnss.c` between a UART event and the message handlers, on the receive buffer itself:
`parse_uart_nmea_message`, `parse_uart_ubx_message`, the body and the loop of `while (processed && curr_data_len > 0)`,
and `drain_uart_rx_buf`.

`UBX_ParseMessage` is part of the UBX driver. It enters as the predicate `accept` on the bytes of a whole frame: whether
it returns `UBX_ERROR_OK`, which is when `handle_ubx_msg` returns 0.
-/

namespace TrackIt.Framer

def dollar : UInt8 := 0x24
def cr : UInt8 := 0x0D
def lf : UInt8 := 0x0A
/-- `UBX_SYNC_CHAR_ONE` -/
def ubxSyncCharOne : UInt8 := 0xB5
/-- `UBX_SYNC_CHAR_TWO` -/
def ubxSyncCharTwo : UInt8 := 0x62

theorem dollar_ne_cr : dollar ≠ cr := by decide

theorem dollar_ne_lf : dollar ≠ lf := by decide

theorem dollar_ne_sync : dollar ≠ ubxSyncCharOne := by decide

theorem lf_ne_cr : lf ≠ cr := by decide

/-- A message handed on: the string passed to `handle_nmea_msg`, or a frame for which `handle_ubx_msg` returned 0. -/
inductive Msg
  | nmea (bytes : List UInt8)
  | ubx (bytes : List UInt8)
  deriving DecidableEq, Repr

def Msg.bytes : Msg → List UInt8
  | .nmea b => b
  | .ubx b => b

/-- The result of a parser: 0, 1 and 2 in the source. -/
inductive ParseResult
  | parsed
  | incomplete
  | corrupt
  deriving DecidableEq, Repr

/-- What a parser leaves: its result, the buffer, and the message it handed on, if any. -/
structure Parsed where
  result : ParseResult
  buf : RxBuf
  dispatch : Option Msg

/-- `handle_nmea_msg`: 0 - OK; 1 - Invalid message -/
def handleNmeaMsg (data : List UInt8) : Nat :=
  if data[data.length - 2]? ≠ some cr ∨ data[data.length - 1]? ≠ some lf then 1 else 0

/-- The result of `handle_ubx_msg`: 0 - OK; 1 - Invalid message -/
def handleUbxMsg (accept : List UInt8 → Bool) (frame : List UInt8) : Nat := if accept frame then 0 else 1

theorem handleUbxMsg_ne_zero {accept : List UInt8 → Bool} {frame : List UInt8} :
    handleUbxMsg accept frame ≠ 0 ↔ ¬ accept frame := by
  simp [handleUbxMsg]

namespace RxBuf

/-- Move the start of the message to the start of the buffer. -/
def moveToStart (s : RxBuf) (start : Fin s.currDataLen) : RxBuf :=
  if start.1 = 0 then s else s.advance start.1 start.2.le

@[simp] theorem live_moveToStart (s : RxBuf) (start : Fin s.currDataLen) :
    (s.moveToStart start).live = s.live.drop start.1 := by
  unfold moveToStart
  split
  · rename_i h; simp [h]
  · exact live_advance _ _ _

@[simp] theorem currDataLen_moveToStart (s : RxBuf) (start : Fin s.currDataLen) :
    (s.moveToStart start).currDataLen = s.currDataLen - start.1 := by
  rw [← length_live, live_moveToStart, List.length_drop, length_live]

theorem moveToStart_pos (s : RxBuf) (start : Fin s.currDataLen) : 1 ≤ (s.moveToStart start).currDataLen := by
  have := start.2
  rw [currDataLen_moveToStart]
  omega

def parseUartNmeaMessage (s : RxBuf) (start : Fin s.currDataLen) : Parsed :=
  let s₁ := s.moveToStart start
  match s₁.memmem cr lf with
  | none =>
    let nextStart := (s₁.live.drop 1).idxOf? dollar
    if s₁.currDataLen > 100 ∨ nextStart ≠ none then
      -- discard the current '$'
      ⟨.corrupt, s₁.advance 1 (s.moveToStart_pos start), none⟩
    else
      ⟨.incomplete, s₁, none⟩
  | some e =>
    let nmeaLen := e.1 + 2
    ⟨.parsed, s₁.advance nmeaLen e.2, some (.nmea (s₁.live.take nmeaLen))⟩

/-- `8 + payload_len`. The length field is read from the array, also when fewer than 6 bytes of it are live. -/
def fullMsgLen (s : RxBuf) : Nat := 8 + ((s.data.getD 4 0).toNat ||| ((s.data.getD 5 0).toNat <<< 8))

def parseUartUbxMessage (accept : List UInt8 → Bool) (s : RxBuf) (start : Fin s.currDataLen) : Parsed :=
  let s₁ := s.moveToStart start
  if h : s₁.currDataLen < s₁.fullMsgLen then
    ⟨.incomplete, s₁, none⟩
  else if handleUbxMsg accept (s₁.live.take s₁.fullMsgLen) ≠ 0 then
    if s₁.currDataLen > (uartRxBufSize * 75) / 100 then
      ⟨.corrupt, s₁.advance 1 (s.moveToStart_pos start), none⟩
    else
      ⟨.incomplete, s₁, none⟩
  else
    ⟨.parsed, s₁.advance s₁.fullMsgLen (Nat.not_lt.1 h), some (.ubx (s₁.live.take s₁.fullMsgLen))⟩

end RxBuf

/-! ## The inner loop -/

/-- What one iteration of the inner loop leaves in `processed`, the buffer, and the message it handed on. -/
structure Iteration where
  processed : Bool
  buf : RxBuf
  dispatch : Option Msg

/-- If the message is finished or corrupted, try with the next stored data. If only partial, read more data. -/
def Parsed.toIteration (p : Parsed) : Iteration :=
  ⟨p.result = .parsed ∨ p.result = .corrupt, p.buf, p.dispatch⟩

namespace RxBuf

def iterate (accept : List UInt8 → Bool) (s : RxBuf) : Iteration :=
  match s.memchr dollar, s.memmem ubxSyncCharOne ubxSyncCharTwo with
  | some n, none => Parsed.toIteration (s.parseUartNmeaMessage n)
  | some n, some u =>
    if n.1 < u.1 then Parsed.toIteration (s.parseUartNmeaMessage n)
    else Parsed.toIteration (s.parseUartUbxMessage accept ⟨u.1, by have := u.2; omega⟩)
  | none, some u => Parsed.toIteration (s.parseUartUbxMessage accept ⟨u.1, by have := u.2; omega⟩)
  | none, none => ⟨false, s.clear, none⟩

/-- At most `fuel` iterations of `while (processed && curr_data_len > 0)`, with `processed` set. -/
def loopN (accept : List UInt8 → Bool) : Nat → RxBuf → List Msg × RxBuf
  | 0, s => ([], s)
  | fuel + 1, s =>
    if s.currDataLen = 0 then ([], s)
    else
      let it := s.iterate accept
      if it.processed then
        let rest := loopN accept fuel it.buf
        (it.dispatch.toList ++ rest.1, rest.2)
      else (it.dispatch.toList, it.buf)

/-- The inner loop. One iteration for each byte and one more are enough for it to end by itself (`innerLoop_eq_tokens`,
`tokens_eq`). -/
def innerLoop (accept : List UInt8 → Bool) (s : RxBuf) : List Msg × RxBuf := loopN accept (s.currDataLen + 1) s

end RxBuf

/-! ## Draining the UART driver -/

/-- What the driver answers in one iteration of the drain loop: the length it reports, and the bytes it has for the
read that follows, of which it returns at most as many as asked for. -/
structure DriverRead where
  bufferedLen : Nat
  bytes : List UInt8

namespace RxBuf

def spaceLeft (s : RxBuf) : Nat := uartRxBufSize - s.currDataLen

def toRead (s : RxBuf) (r : DriverRead) : Nat := if r.bufferedLen < s.spaceLeft then r.bufferedLen else s.spaceLeft

/-- The bytes `uart_read_bytes` returns. -/
def readBytes (s : RxBuf) (r : DriverRead) : List UInt8 := r.bytes.take (s.toRead r)

theorem toRead_le (s : RxBuf) (r : DriverRead) : s.currDataLen + s.toRead r ≤ uartRxBufSize := by
  have := s.len_le
  unfold toRead spaceLeft
  split <;> omega

theorem readBytes_le (s : RxBuf) (r : DriverRead) : s.currDataLen + (s.readBytes r).length ≤ uartRxBufSize := by
  have := s.toRead_le r
  rw [readBytes, List.length_take]
  omega

/-- The body of the loop in `drain_uart_rx_buf`; `none` is a `break`. -/
def drainBody (s : RxBuf) (r : DriverRead) : Option RxBuf :=
  if r.bufferedLen = 0 then none
  else if s.toRead r = 0 then
    -- the read of 0 bytes that follows the wipe adds nothing
    if s.spaceLeft = 0 then some s.clear else none
  else some (s.receive (s.readBytes r) (s.readBytes_le r))

/-- `drain_uart_rx_buf` against the driver's answers; after the last of them it reports nothing more. -/
def drainUartRxBuf : RxBuf → List DriverRead → RxBuf
  | s, [] => s
  | s, r :: rs =>
    match s.drainBody r with
    | none => s
    | some s' => drainUartRxBuf s' rs

/-- One `UART_DATA` event: drain the driver, then run the inner loop to its end. -/
def uartData (accept : List UInt8 → Bool) (s : RxBuf) (rs : List DriverRead) : List Msg × RxBuf :=
  (s.drainUartRxBuf rs).innerLoop accept

/-- A sequence of `UART_DATA` events. -/
def uartDataEvents (accept : List UInt8 → Bool) : RxBuf → List (List DriverRead) → List Msg × RxBuf
  | s, [] => ([], s)
  | s, rs :: evs =>
    let here := s.uartData accept rs
    let rest := uartDataEvents accept here.2 evs
    (here.1 ++ rest.1, rest.2)

end RxBuf

end TrackIt.Framer
