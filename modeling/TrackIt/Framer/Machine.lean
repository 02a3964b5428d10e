import TrackIt.Lib.Loop
import TrackIt.Framer.Task

/-!
# The inner loop on bare memory

The parsers and the inner loop once more, on the array and `curr_data_len` as they are, with nothing known of them and
every subtraction checked: it fails where the source's would wrap around. On a receive buffer no subtraction fails, and
the loop is that of `RxBuf` (`innerLoop_while`).

- `innerLoop_ends`: the loop ends, soon, in a state in which there is nothing to do, and stays there.
-/

namespace TrackIt.Framer

open TrackIt.Lib

/-- `a - b`, unless it wraps around. -/
def checkedSub (a b : Nat) : Option Nat := if b ≤ a then some (a - b) else none

theorem checkedSub_of_le {a b : Nat} (h : b ≤ a) : checkedSub a b = some (a - b) := if_pos h

/-- `data` and `curr_data_len`. -/
structure Mem where
  data : List UInt8
  currDataLen : Nat

namespace Mem

def live (m : Mem) : List UInt8 := m.data.take m.currDataLen

/-- `memmove(data, data + k, *curr_data_len - k); *curr_data_len -= k;` -/
def advance (m : Mem) (k : Nat) : Option Mem := do
  let n ← checkedSub m.currDataLen k
  let currDataLen ← checkedSub m.currDataLen k
  some ⟨memmove m.data 0 k n, currDataLen⟩

def moveToStart (m : Mem) (start : Nat) : Option Mem := if start = 0 then some m else m.advance start

def parseUartNmeaMessage (m : Mem) (start : Nat) : Option (ParseResult × Mem × Option Msg) := do
  let m ← m.moveToStart start
  match findPat [cr, lf] m.live with
  | none =>
    let n ← checkedSub m.currDataLen 1
    let nextStart := ((m.data.drop 1).take n).idxOf? dollar
    if m.currDataLen > 100 ∨ nextStart ≠ none then
      let m' ← m.advance 1
      some (.corrupt, m', none)
    else
      some (.incomplete, m, none)
  | some e =>
    let nmeaLen := e + 2
    let m' ← m.advance nmeaLen
    some (.parsed, m', some (.nmea (m.data.take nmeaLen)))

def fullMsgLen (m : Mem) : Nat := 8 + ((m.data.getD 4 0).toNat ||| ((m.data.getD 5 0).toNat <<< 8))

def parseUartUbxMessage (accept : List UInt8 → Bool) (m : Mem) (start : Nat) :
    Option (ParseResult × Mem × Option Msg) := do
  let m ← m.moveToStart start
  if m.currDataLen < m.fullMsgLen then
    some (.incomplete, m, none)
  else if handleUbxMsg accept (m.data.take m.fullMsgLen) ≠ 0 then
    if m.currDataLen > (uartRxBufSize * 75) / 100 then
      let m' ← m.advance 1
      some (.corrupt, m', none)
    else
      some (.incomplete, m, none)
  else
    let m' ← m.advance m.fullMsgLen
    some (.parsed, m', some (.ubx (m.data.take m.fullMsgLen)))

end Mem

/-- `processed`, and the memory. -/
structure LoopState where
  processed : Bool
  mem : Mem

namespace LoopState

/-- `processed && curr_data_len > 0` -/
def test (st : LoopState) : Bool := st.processed && 0 < st.mem.currDataLen

/-- What a parser returned makes of `processed`. -/
def after : ParseResult × Mem × Option Msg → LoopState × List Msg
  | (result, m, dispatch) => (⟨result = .parsed ∨ result = .corrupt, m⟩, dispatch.toList)

/-- The body of the loop. -/
def body (accept : List UInt8 → Bool) (st : LoopState) : Option (LoopState × List Msg) :=
  match st.mem.live.idxOf? dollar, findPat [ubxSyncCharOne, ubxSyncCharTwo] st.mem.live with
  | some n, none => (st.mem.parseUartNmeaMessage n).map after
  | some n, some u =>
    if n < u then (st.mem.parseUartNmeaMessage n).map after else (st.mem.parseUartUbxMessage accept u).map after
  | none, some u => (st.mem.parseUartUbxMessage accept u).map after
  | none, none => some (⟨false, ⟨st.mem.data, 0⟩⟩, [])

end LoopState

/-! ## On a receive buffer -/

def RxBuf.mem (s : RxBuf) : Mem := ⟨s.data, s.currDataLen⟩

theorem live_mem (s : RxBuf) : s.mem.live = s.live := rfl

theorem advance_mem (s : RxBuf) {k : Nat} (h : k ≤ s.currDataLen) : s.mem.advance k = some (s.advance k h).mem := by
  have hsub : checkedSub s.mem.currDataLen k = some (s.currDataLen - k) := checkedSub_of_le h
  rw [Mem.advance, hsub]
  rfl

theorem moveToStart_mem (s : RxBuf) (start : Fin s.currDataLen) :
    s.mem.moveToStart start.1 = some (s.moveToStart start).mem := by
  unfold Mem.moveToStart RxBuf.moveToStart
  split
  · rfl
  · exact advance_mem s start.2.le

/-- What the parser of `RxBuf` left. -/
def Parsed.mem (p : Parsed) : ParseResult × Mem × Option Msg := (p.result, p.buf.mem, p.dispatch)

/-- The bytes that a parser hands on lie before `curr_data_len`. -/
theorem take_live {s : RxBuf} {k : Nat} (h : k ≤ s.currDataLen) : s.mem.data.take k = s.live.take k := by
  rw [RxBuf.live, List.take_take, Nat.min_eq_left h]
  rfl

theorem parseUartNmeaMessage_mem (s : RxBuf) (start : Fin s.currDataLen) :
    s.mem.parseUartNmeaMessage start.1 = some (s.parseUartNmeaMessage start).mem := by
  have hpos := s.moveToStart_pos start
  have hfind := (s.moveToStart start).memmem_val cr lf
  have hsub : checkedSub (s.moveToStart start).mem.currDataLen 1 = some ((s.moveToStart start).currDataLen - 1) :=
    checkedSub_of_le hpos
  have htail : ((s.moveToStart start).mem.data.drop 1).take ((s.moveToStart start).currDataLen - 1) =
      (s.moveToStart start).live.drop 1 := by
    rw [RxBuf.live, List.drop_take]
    rfl
  unfold Mem.parseUartNmeaMessage RxBuf.parseUartNmeaMessage
  dsimp only
  rw [moveToStart_mem, Option.bind_eq_bind, Option.bind_some, live_mem, ← hfind]
  cases (s.moveToStart start).memmem cr lf with
  | none =>
    simp only [Option.map_none, hsub, Option.bind_eq_bind, Option.bind_some, htail, advance_mem _ hpos]
    by_cases hc : (s.moveToStart start).currDataLen > 100 ∨
        ((s.moveToStart start).live.drop 1).idxOf? dollar ≠ none
    · rw [if_pos hc]
      exact if_pos hc
    · rw [if_neg hc]
      exact if_neg hc
  | some e =>
    simp only [Option.map_some, advance_mem _ e.2, Option.bind_some, take_live e.2]
    rfl

theorem parseUartUbxMessage_mem (accept : List UInt8 → Bool) (s : RxBuf) (start : Fin s.currDataLen) :
    s.mem.parseUartUbxMessage accept start.1 = some (s.parseUartUbxMessage accept start).mem := by
  have hpos := s.moveToStart_pos start
  unfold Mem.parseUartUbxMessage RxBuf.parseUartUbxMessage
  rw [moveToStart_mem, Option.bind_eq_bind, Option.bind_some]
  by_cases hlt : (s.moveToStart start).currDataLen < (s.moveToStart start).fullMsgLen
  · rw [dif_pos hlt]
    exact if_pos hlt
  · have hle := Nat.not_lt.1 hlt
    rw [dif_neg hlt]
    refine (if_neg hlt).trans ?_
    rw [← take_live hle]
    by_cases ha : handleUbxMsg accept
        ((s.moveToStart start).mem.data.take (s.moveToStart start).fullMsgLen) ≠ 0
    · rw [if_pos ha]
      refine (if_pos ha).trans ?_
      by_cases hfill : (s.moveToStart start).currDataLen > uartRxBufSize * 75 / 100
      · rw [if_pos hfill]
        refine (if_pos hfill).trans ?_
        rw [advance_mem _ hpos]
        rfl
      · rw [if_neg hfill]
        exact if_neg hfill
    · rw [if_neg ha]
      refine (if_neg ha).trans ?_
      have hadv : (s.moveToStart start).mem.advance (s.moveToStart start).mem.fullMsgLen =
          some ((s.moveToStart start).advance _ hle).mem := advance_mem _ hle
      rw [hadv]
      rfl

/-- **An iteration does not fail**, and is that of `RxBuf`. -/
theorem body_mem (accept : List UInt8 → Bool) (processed : Bool) (s : RxBuf) :
    LoopState.body accept ⟨processed, s.mem⟩ =
      some (⟨(s.iterate accept).processed, (s.iterate accept).buf.mem⟩, (s.iterate accept).dispatch.toList) := by
  have hbody : LoopState.body accept ⟨processed, s.mem⟩ = _ := match_chooseStart _ _ _ _ _
  rw [hbody, live_mem]
  rcases iterate_cases accept s with ⟨hchosen, hi⟩ | ⟨start, hchosen, hi⟩ | ⟨start, hchosen, hi⟩ <;> rw [hchosen, hi]
  · rfl
  · exact congrArg (Option.map LoopState.after) (parseUartNmeaMessage_mem s start)
  · exact congrArg (Option.map LoopState.after) (parseUartUbxMessage_mem accept s start)

theorem loopN_while (accept : List UInt8 → Bool) : ∀ (fuel : Nat) (s : RxBuf), s.currDataLen < fuel →
    ∃ n processed, n ≤ s.currDataLen + 1 ∧
      While LoopState.test (LoopState.body accept) ⟨true, s.mem⟩ n (s.loopN accept fuel).1
        ⟨processed, (s.loopN accept fuel).2.mem⟩
  | 0, _, h => by omega
  | fuel + 1, s, hfuel => by
    rw [RxBuf.loopN]
    by_cases h0 : s.currDataLen = 0
    · rw [if_pos h0]
      exact ⟨0, true, Nat.zero_le _, .exit (by simp [LoopState.test, RxBuf.mem, h0])⟩
    · rw [if_neg h0]
      have htest : LoopState.test ⟨true, s.mem⟩ = true := by
        simp [LoopState.test, RxBuf.mem, Nat.pos_of_ne_zero h0]
      have hbody := body_mem accept true s
      cases hp : (s.iterate accept).processed with
      | false =>
        simp only [hp, Bool.false_eq_true, if_false]
        rw [hp] at hbody
        exact ⟨1, false, by omega, .once htest hbody rfl⟩
      | true =>
        have hlt := iterate_lt hp
        obtain ⟨n, processed, hn, hw⟩ := loopN_while accept fuel (s.iterate accept).buf (by omega)
        simp only [hp, if_true]
        rw [hp] at hbody
        exact ⟨n + 1, processed, by omega, .turn htest hbody hw⟩

/-- **The loop is that of `RxBuf`**, and has at most one turn for each live byte and one more. -/
theorem innerLoop_while (accept : List UInt8 → Bool) (s : RxBuf) : ∃ n processed, n ≤ s.currDataLen + 1 ∧
    While LoopState.test (LoopState.body accept) ⟨true, s.mem⟩ n (s.innerLoop accept).1
      ⟨processed, (s.innerLoop accept).2.mem⟩ :=
  loopN_while accept (s.currDataLen + 1) s (Nat.lt_succ_self _)

/-! ## Where the loop ends -/

/-- A sentence that has begun and may still end. -/
def AwaitsNmea (b : List UInt8) : Prop :=
  (∃ d, b = dollar :: d ∧ dollar ∉ d) ∧ ¬ [cr, lf] <:+: b ∧ b.length ≤ 100

/-- A frame that has begun, or one that is complete but rejected, in a buffer that is not full enough to give it up. -/
def AwaitsUbx (accept : List UInt8 → Bool) (b : List UInt8) : Prop :=
  (∃ d, b = ubxSyncCharOne :: ubxSyncCharTwo :: d) ∧
    ((b.length < 8 ∨ b.length < declaredLen b) ∨
      declaredLen b ≤ b.length ∧ accept (b.take (declaredLen b)) = false ∧ b.length ≤ 4608)

/-- There is nothing to do. -/
def Quiescent (accept : List UInt8 → Bool) (b : List UInt8) : Prop := b = [] ∨ AwaitsNmea b ∨ AwaitsUbx accept b

/-- What a step leaves when it waits is quiescent. -/
theorem quiescent_of_wait {accept : List UInt8 → Bool} {b c : List UInt8} (h : next accept b = .wait c) :
    Quiescent accept c := by
  rcases next_wait h with ⟨-, rfl⟩ | ⟨hs, hno, hlen, hmem⟩ | ⟨hs, hwhy⟩
  · exact .inl rfl
  · obtain ⟨-, -, hn, -⟩ := findStart_spec hs
    obtain ⟨d, rfl⟩ := hn rfl
    exact .inr (.inl ⟨⟨d, rfl, hmem⟩, hno, hlen⟩)
  · obtain ⟨-, -, -, hu⟩ := findStart_spec hs
    refine .inr (.inr ⟨hu rfl, ?_⟩)
    rcases hwhy with hlt | ⟨hle, ha, hfill⟩
    · exact .inl (.inr hlt)
    · exact .inr ⟨hle, Bool.eq_false_iff.2 ha, hfill⟩

/-- In a quiescent state a step waits for more. -/
theorem next_quiescent {accept : List UInt8 → Bool} {b : List UInt8} (h : Quiescent accept b) :
    next accept b = .wait b := by
  rcases h with rfl | ⟨⟨d, rfl, hmem⟩, hno, hlen⟩ | ⟨⟨d, rfl⟩, hwhy⟩
  · rfl
  · rw [next_of_nmea (findStart_dollar d)]
    exact nextNmea_wait hno (by rw [List.length_cons] at hlen; omega) hmem
  · rw [next_of_ubx (findStart_sync d), nextUbx]
    rcases hwhy with hlt | ⟨hle, ha, hfill⟩
    · have hge := declaredLen_ge (ubxSyncCharOne :: ubxSyncCharTwo :: d)
      rw [if_pos (by omega)]
    · rw [if_neg (by omega), if_neg (by rw [ha]; exact Bool.false_ne_true), if_neg (by omega)]

theorem tokens_quiescent (accept : List UInt8 → Bool) (b : List UInt8) : Quiescent accept (tokens accept b).2 := by
  induction hn : b.length using Nat.strongRecOn generalizing b with
  | _ n ih =>
    subst hn
    by_cases hb : b = []
    · rw [hb]
      exact .inl rfl
    rw [tokens_eq accept hb]
    cases hnext : next accept b with
    | dispatch m rest => exact ih rest.length (next_dispatch_lt hnext) rest rfl
    | retry rest => exact ih rest.length (next_retry_lt hnext) rest rfl
    | wait rest => exact quiescent_of_wait hnext

/-- Moving a start drops bytes, unless it is at the front already. -/
theorem moveToStart_self {s : RxBuf} {start : Fin s.currDataLen}
    (h : (s.moveToStart start).currDataLen = s.currDataLen) : s.moveToStart start = s := by
  have := start.2
  rw [RxBuf.currDataLen_moveToStart] at h
  exact if_pos (by omega)

/-- A parser that waits has only moved the start to the front. -/
theorem buf_nmea {s : RxBuf} {start : Fin s.currDataLen} (h : (s.parseUartNmeaMessage start).result = .incomplete) :
    (s.parseUartNmeaMessage start).buf = s.moveToStart start := by
  revert h
  unfold RxBuf.parseUartNmeaMessage
  dsimp only
  cases (s.moveToStart start).memmem cr lf with
  | none =>
    dsimp only
    split
    · rintro ⟨⟩
    · exact fun _ => rfl
  | some e => rintro ⟨⟩

theorem buf_ubx {accept : List UInt8 → Bool} {s : RxBuf} {start : Fin s.currDataLen}
    (h : (s.parseUartUbxMessage accept start).result = .incomplete) :
    (s.parseUartUbxMessage accept start).buf = s.moveToStart start := by
  revert h
  unfold RxBuf.parseUartUbxMessage
  dsimp only
  split
  · exact fun _ => rfl
  · split
    · split
      · rintro ⟨⟩
      · exact fun _ => rfl
    · rintro ⟨⟩

theorem incomplete_of_not_processed {p : Parsed} (h : p.toIteration.processed = false) : p.result = .incomplete := by
  obtain ⟨result, buf, dispatch⟩ := p
  cases result with
  | parsed => cases h
  | incomplete => rfl
  | corrupt => cases h

/-- **An iteration that waits and drops no byte leaves the whole buffer as it is.** -/
theorem iterate_buf {accept : List UInt8 → Bool} {s : RxBuf} (hp : (s.iterate accept).processed = false)
    (hlen : (s.iterate accept).buf.currDataLen = s.currDataLen) : (s.iterate accept).buf = s := by
  rcases iterate_cases accept s with ⟨-, hi⟩ | ⟨start, -, hi⟩ | ⟨start, -, hi⟩ <;> rw [hi] at hp hlen ⊢
  · obtain ⟨data, currDataLen, length_data, len_le⟩ := s
    obtain rfl : 0 = currDataLen := hlen
    rfl
  · have hbuf := buf_nmea (incomplete_of_not_processed hp)
    exact hbuf.trans (moveToStart_self (hbuf ▸ hlen))
  · have hbuf := buf_ubx (incomplete_of_not_processed hp)
    exact hbuf.trans (moveToStart_self (hbuf ▸ hlen))

/-- The loop does nothing in a quiescent state. -/
theorem innerLoop_quiescent {accept : List UInt8 → Bool} {s : RxBuf} (h : Quiescent accept s.live) :
    s.innerLoop accept = ([], s) := by
  rw [RxBuf.innerLoop, RxBuf.loopN]
  by_cases h0 : s.currDataLen = 0
  · exact if_pos h0
  · rw [if_neg h0]
    have his := iterate_is accept s
    rw [next_quiescent h] at his
    obtain ⟨hp, hd, hl⟩ := his
    have hlen : (s.iterate accept).buf.currDataLen = s.currDataLen := by
      rw [← RxBuf.length_live, hl, RxBuf.length_live]
    have hbuf := iterate_buf hp hlen
    simp [hp, hd, hbuf]

/-- **The inner loop ends in a quiescent state, and is idempotent.** Whatever the buffer holds and the parser accepts,
the loop ends after at most one turn for each live byte and one more, and no subtraction wraps around on the way; then
the buffer is empty, or awaits the rest of a sentence or of a frame, exactly one of the three; and the loop run again
hands on nothing and leaves the memory as it is. -/
theorem innerLoop_ends (accept : List UInt8 → Bool) (s : RxBuf) : ∃ n ms processed m,
    While LoopState.test (LoopState.body accept) ⟨true, s.mem⟩ n ms ⟨processed, m⟩ ∧ n ≤ s.currDataLen + 1 ∧
    (m.currDataLen = 0 ∧ ¬ AwaitsNmea m.live ∧ ¬ AwaitsUbx accept m.live ∨
      m.currDataLen ≠ 0 ∧ AwaitsNmea m.live ∧ ¬ AwaitsUbx accept m.live ∨
      m.currDataLen ≠ 0 ∧ ¬ AwaitsNmea m.live ∧ AwaitsUbx accept m.live) ∧
    (∃ n' processed', While LoopState.test (LoopState.body accept) ⟨true, m⟩ n' [] ⟨processed', m⟩) ∧
    ∀ n' ms' st, While LoopState.test (LoopState.body accept) ⟨true, m⟩ n' ms' st → ms' = [] ∧ st.mem = m := by
  obtain ⟨n, processed, hn, hw⟩ := innerLoop_while accept s
  have hq : Quiescent accept (s.innerLoop accept).2.live := by
    rw [(innerLoop_eq_tokens accept s).2]
    exact tokens_quiescent accept s.live
  obtain ⟨n', processed', -, hw'⟩ := innerLoop_while accept (s.innerLoop accept).2
  rw [innerLoop_quiescent hq] at hw'
  refine ⟨n, _, processed, (s.innerLoop accept).2.mem, hw, hn, ?_, ⟨n', processed', hw'⟩, fun n'' ms' st h => ?_⟩
  · have hlen : (s.innerLoop accept).2.mem.currDataLen = (s.innerLoop accept).2.live.length :=
      (RxBuf.length_live _).symm
    rw [hlen, live_mem]
    rcases hq with hnil | hnmea | hubx
    · refine .inl ⟨by rw [hnil]; rfl, ?_, ?_⟩
      · rintro ⟨⟨d, hd, -⟩, -⟩
        rw [hnil] at hd
        cases hd
      · rintro ⟨⟨d, hd⟩, -⟩
        rw [hnil] at hd
        cases hd
    · obtain ⟨d, hd, -⟩ := hnmea.1
      refine .inr (.inl ⟨by rw [hd]; simp, hnmea, ?_⟩)
      rintro ⟨⟨d', hd'⟩, -⟩
      rw [hd] at hd'
      exact dollar_ne_sync (List.cons.inj hd').1
    · obtain ⟨d, hd⟩ := hubx.1
      refine .inr (.inr ⟨by rw [hd]; simp, ?_, hubx⟩)
      rintro ⟨⟨d', hd', -⟩, -⟩
      rw [hd] at hd'
      exact dollar_ne_sync (List.cons.inj hd').1.symm
  · obtain ⟨-, rfl, rfl⟩ := h.unique hw'
    exact ⟨rfl, rfl⟩

end TrackIt.Framer
