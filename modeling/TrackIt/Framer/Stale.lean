import TrackIt.Framer.Machine

/-!
# Stale bytes

What stands behind `curr_data_len` in the array, from malloc or from earlier messages, is read when the length field of
a frame has not been received. The loop on bare memory is run once more, and each turn of it leaves a record of the
parser that it called: what that parser passed to its handler, accepted or not, and what it returned.

- `tracedBody_mem`: the record is that of the live bytes (`calls`);
- `stale_irrelevant`: on two arrays with the same live bytes the loops run in lock-step.
-/

namespace TrackIt.Framer

open TrackIt.Lib

/-- A call of `parse_uart_nmea_message` or `parse_uart_ubx_message`. -/
structure ParserCall where
  kind : Kind
  /-- What it passed to `handle_nmea_msg` or `handle_ubx_msg`. -/
  handed : Option (List UInt8)
  result : ParseResult
  deriving DecidableEq

/-- The frame that `parse_uart_ubx_message` passes to `handle_ubx_msg`. -/
def Mem.handedUbx (m : Mem) (start : Nat) : Option (List UInt8) := do
  let m ← m.moveToStart start
  if m.currDataLen < m.fullMsgLen then none else some (m.data.take m.fullMsgLen)

namespace LoopState

def nmeaTurn (m : Mem) (n : Nat) : Option (LoopState × List ParserCall) :=
  (m.parseUartNmeaMessage n).map fun r => ((after r).1, [⟨.nmea, r.2.2.map Msg.bytes, r.1⟩])

def ubxTurn (accept : List UInt8 → Bool) (m : Mem) (u : Nat) : Option (LoopState × List ParserCall) :=
  (m.parseUartUbxMessage accept u).map fun r => ((after r).1, [⟨.ubx, m.handedUbx u, r.1⟩])

/-- The body of the loop, with a record of the call. -/
def tracedBody (accept : List UInt8 → Bool) (st : LoopState) : Option (LoopState × List ParserCall) :=
  match st.mem.live.idxOf? dollar, findPat [ubxSyncCharOne, ubxSyncCharTwo] st.mem.live with
  | some n, none => nmeaTurn st.mem n
  | some n, some u => if n < u then nmeaTurn st.mem n else ubxTurn accept st.mem u
  | none, some u => ubxTurn accept st.mem u
  | none, none => some (⟨false, ⟨st.mem.data, 0⟩⟩, [])

end LoopState

/-! ## The calls, from the live bytes -/

def Next.result : Next → ParseResult
  | .dispatch _ _ => .parsed
  | .retry _ => .corrupt
  | .wait _ => .incomplete

def Next.message : Next → Option Msg
  | .dispatch m _ => some m
  | .retry _ => none
  | .wait _ => none

/-- The call of a step. -/
def calls (accept : List UInt8 → Bool) (b : List UInt8) : List ParserCall :=
  match findStart b with
  | none => []
  | some (.nmea, c) => [⟨.nmea, (nextNmea c).message.map Msg.bytes, (nextNmea c).result⟩]
  | some (.ubx, c) =>
    [⟨.ubx, if c.length < declaredLen c then none else some (c.take (declaredLen c)), (nextUbx accept c).result⟩]

theorem Parsed.Is.result {p : Parsed} {n : Next} (h : p.Is n) : p.result = n.result := by
  cases n <;> exact h.1

theorem Parsed.Is.message {p : Parsed} {n : Next} (h : p.Is n) : p.dispatch = n.message := by
  cases n <;> exact h.2.1

theorem nmeaTurn_mem (s : RxBuf) (start : Fin s.currDataLen) :
    LoopState.nmeaTurn s.mem start.1 =
      some (⟨(s.parseUartNmeaMessage start).toIteration.processed, (s.parseUartNmeaMessage start).buf.mem⟩,
        [⟨.nmea, (nextNmea (s.live.drop start.1)).message.map Msg.bytes,
          (nextNmea (s.live.drop start.1)).result⟩]) := by
  have his := parseUartNmeaMessage_is s start
  rw [LoopState.nmeaTurn, parseUartNmeaMessage_mem, ← his.message, ← his.result]
  rfl

/-- The frame that is passed on is made of live bytes. -/
theorem handedUbx_mem (s : RxBuf) (start : Fin s.currDataLen) :
    s.mem.handedUbx start.1 = if (s.live.drop start.1).length < declaredLen (s.live.drop start.1) then none
      else some ((s.live.drop start.1).take (declaredLen (s.live.drop start.1))) := by
  rw [Mem.handedUbx, moveToStart_mem, Option.bind_eq_bind, Option.bind_some, ← s.live_moveToStart start]
  by_cases hlt : (s.moveToStart start).currDataLen < (s.moveToStart start).fullMsgLen
  · rw [if_pos ((lt_fullMsgLen_iff _).1 hlt)]
    exact if_pos hlt
  · rw [if_neg (mt (lt_fullMsgLen_iff _).2 hlt), ← fullMsgLen_of_le hlt, ← take_live (Nat.not_lt.1 hlt)]
    exact if_neg hlt

theorem ubxTurn_mem (accept : List UInt8 → Bool) (s : RxBuf) (start : Fin s.currDataLen) :
    LoopState.ubxTurn accept s.mem start.1 =
      some (⟨(s.parseUartUbxMessage accept start).toIteration.processed,
        (s.parseUartUbxMessage accept start).buf.mem⟩,
        [⟨.ubx, s.mem.handedUbx start.1, (nextUbx accept (s.live.drop start.1)).result⟩]) := by
  have his := parseUartUbxMessage_is accept s start
  rw [LoopState.ubxTurn, parseUartUbxMessage_mem, ← his.result]
  rfl

/-- **A turn is determined by the live bytes**, with the record of its call. -/
theorem tracedBody_mem (accept : List UInt8 → Bool) (processed : Bool) (s : RxBuf) :
    LoopState.tracedBody accept ⟨processed, s.mem⟩ =
      some (⟨(s.iterate accept).processed, (s.iterate accept).buf.mem⟩, calls accept s.live) := by
  have hbody : LoopState.tracedBody accept ⟨processed, s.mem⟩ = _ := match_chooseStart _ _ _ _ _
  rw [hbody, live_mem, calls, findStart_eq_choose]
  rcases iterate_cases accept s with ⟨hchosen, hi⟩ | ⟨start, hchosen, hi⟩ | ⟨start, hchosen, hi⟩ <;> rw [hchosen, hi]
  · rfl
  · exact nmeaTurn_mem s start
  · have hturn := ubxTurn_mem accept s start
    rw [handedUbx_mem] at hturn
    exact hturn

/-! ## The traced loop is the loop -/

/-- The message that a call handed on. -/
def ParserCall.dispatched (c : ParserCall) : List Msg :=
  match c.kind, c.handed, c.result with
  | .nmea, some b, .parsed => [.nmea b]
  | .ubx, some b, .parsed => [.ubx b]
  | _, _, _ => []

theorem dispatched_nmea (c : List UInt8) :
    ParserCall.dispatched ⟨.nmea, (nextNmea c).message.map Msg.bytes, (nextNmea c).result⟩ =
      (nextNmea c).message.toList := by
  unfold nextNmea
  cases findPat [cr, lf] c with
  | none =>
    dsimp only
    split <;> rfl
  | some e => rfl

theorem dispatched_ubx (accept : List UInt8 → Bool) (c : List UInt8) :
    ParserCall.dispatched ⟨.ubx, if c.length < declaredLen c then none else some (c.take (declaredLen c)),
      (nextUbx accept c).result⟩ = (nextUbx accept c).message.toList := by
  unfold nextUbx
  by_cases hlt : c.length < declaredLen c
  · rw [if_pos hlt, if_pos hlt]
    rfl
  · rw [if_neg hlt, if_neg hlt]
    by_cases ha : accept (c.take (declaredLen c)) = true
    · rw [if_pos ha]
      rfl
    · rw [if_neg ha]
      split <;> rfl

/-- The calls of an iteration hand on what it hands on. -/
theorem dispatched_calls (accept : List UInt8 → Bool) (s : RxBuf) :
    (calls accept s.live).flatMap ParserCall.dispatched = (s.iterate accept).dispatch.toList := by
  have his : (s.iterate accept).dispatch = (next accept s.live).message := by
    have his := iterate_is accept s
    revert his
    cases next accept s.live <;> exact fun his => his.2.1
  rw [his, calls, next]
  cases findStart s.live with
  | none => rfl
  | some kc =>
    obtain ⟨k, c⟩ := kc
    cases k with
    | nmea =>
      rw [List.flatMap_singleton]
      exact dispatched_nmea c
    | ubx =>
      rw [List.flatMap_singleton]
      exact dispatched_ubx accept c

/-- **The traced loop ends where the loop does**, and the messages that its calls handed on are those of the loop. -/
theorem innerLoop_traced (accept : List UInt8 → Bool) (s : RxBuf) : ∃ n record processed,
    While LoopState.test (LoopState.tracedBody accept) ⟨true, s.mem⟩ n record
      ⟨processed, (s.innerLoop accept).2.mem⟩ ∧
    (s.innerLoop accept).1 = record.flatMap ParserCall.dispatched := by
  obtain ⟨n, processed, -, hw⟩ := innerLoop_while accept s
  -- both loops are in the same state, that of a receive buffer
  have hbody {st st' next : LoopState} {ms : List Msg} (hr : st = st' ∧ ∃ x : RxBuf, st.mem = x.mem)
      (hb : LoopState.body accept st = some (next, ms)) : ∃ next' record,
      LoopState.tracedBody accept st' = some (next', record) ∧ (next = next' ∧ ∃ x : RxBuf, next.mem = x.mem) ∧
        ms = record.flatMap ParserCall.dispatched := by
    obtain ⟨processed, m⟩ := st
    obtain ⟨rfl, x, hx⟩ := hr
    obtain rfl : m = x.mem := hx
    rw [body_mem] at hb
    cases hb
    exact ⟨_, _, tracedBody_mem accept processed x, ⟨rfl, _, rfl⟩, (dispatched_calls accept x).symm⟩
  have happend {ms ms' : List Msg} {record record' : List ParserCall}
      (h : ms = record.flatMap ParserCall.dispatched) (h' : ms' = record'.flatMap ParserCall.dispatched) :
      ms ++ ms' = (record ++ record').flatMap ParserCall.dispatched := by
    rw [h, h', List.flatMap_append]
  obtain ⟨st, record, htraced, ⟨rfl, -⟩, hms⟩ := hw.simulation LoopState.test (LoopState.tracedBody accept)
    (fun st st' => st = st' ∧ ∃ x : RxBuf, st.mem = x.mem) (fun ms record => ms = record.flatMap ParserCall.dispatched)
    rfl happend (fun hr => congrArg LoopState.test hr.1.symm) hbody ⟨rfl, s, rfl⟩
  exact ⟨n, record, processed, htraced, hms⟩

/-! ## Two arrays -/

/-- Two states with the same live bytes. -/
def SameLive (st st' : LoopState) : Prop :=
  st.processed = st'.processed ∧ ∃ s t : RxBuf, st.mem = s.mem ∧ st'.mem = t.mem ∧ s.live = t.live

theorem SameLive.live {st st' : LoopState} (h : SameLive st st') :
    st.mem.currDataLen = st'.mem.currDataLen ∧ st.mem.live = st'.mem.live := by
  obtain ⟨-, s, t, hs, ht, hl⟩ := h
  have hlen : s.currDataLen = t.currDataLen := by rw [← RxBuf.length_live, hl, RxBuf.length_live]
  rw [hs, ht]
  exact ⟨hlen, hl⟩

theorem SameLive.test {st st' : LoopState} (h : SameLive st st') : st'.test = st.test := by
  rw [LoopState.test, LoopState.test, h.1, h.live.1]

/-- An iteration leaves the same, whatever stands behind the live bytes. -/
theorem iterate_congr (accept : List UInt8 → Bool) {s t : RxBuf} (h : s.live = t.live) :
    (s.iterate accept).processed = (t.iterate accept).processed ∧
      (s.iterate accept).buf.live = (t.iterate accept).buf.live := by
  have hs := iterate_is accept s
  have ht := iterate_is accept t
  rw [h] at hs
  revert hs ht
  cases next accept t.live <;> exact fun hs ht => ⟨hs.1.trans ht.1.symm, hs.2.2.trans ht.2.2.symm⟩

/-- **The step of the simulation.** -/
theorem SameLive.step {accept : List UInt8 → Bool} {st st' next : LoopState} {record : List ParserCall}
    (h : SameLive st st') (hb : LoopState.tracedBody accept st = some (next, record)) :
    ∃ next' record', LoopState.tracedBody accept st' = some (next', record') ∧ SameLive next next' ∧
      record = record' := by
  obtain ⟨processed, m⟩ := st
  obtain ⟨processed', m'⟩ := st'
  obtain ⟨-, s, t, hs, ht, hl⟩ := h
  obtain rfl : m = s.mem := hs
  obtain rfl : m' = t.mem := ht
  obtain ⟨hp, hlive⟩ := iterate_congr accept hl
  rw [tracedBody_mem] at hb
  cases hb
  exact ⟨_, _, tracedBody_mem accept processed' t, ⟨hp, _, _, rfl, rfl, hlive⟩, by rw [hl]⟩

/-- **Framing never depends on stale bytes.** On two arrays that agree on their first `curr_data_len` bytes, the loop
takes as many turns, calls the same parsers with the same results, passes the same bytes to the handlers, and ends with
the same `curr_data_len` and the same live bytes. -/
theorem stale_irrelevant (accept : List UInt8 → Bool) {data data' : List UInt8} {currDataLen : Nat}
    (hdata : data.length = 6144) (hdata' : data'.length = 6144) (hle : currDataLen ≤ 6144)
    (hlive : data.take currDataLen = data'.take currDataLen) : ∃ n record processed m m',
    While LoopState.test (LoopState.tracedBody accept) ⟨true, ⟨data, currDataLen⟩⟩ n record ⟨processed, m⟩ ∧
    While LoopState.test (LoopState.tracedBody accept) ⟨true, ⟨data', currDataLen⟩⟩ n record ⟨processed, m'⟩ ∧
    m.currDataLen = m'.currDataLen ∧ m.live = m'.live := by
  let s : RxBuf := ⟨data, currDataLen, hdata, hle⟩
  let t : RxBuf := ⟨data', currDataLen, hdata', hle⟩
  obtain ⟨n, record, processed, hs, -⟩ := innerLoop_traced accept s
  obtain ⟨⟨processed', m'⟩, record', ht, hsame, rfl⟩ := hs.simulation LoopState.test (LoopState.tracedBody accept)
    SameLive Eq rfl (fun h h' => by rw [h, h']) SameLive.test SameLive.step (t := ⟨true, t.mem⟩)
    ⟨rfl, s, t, rfl, rfl, hlive⟩
  obtain rfl : processed = processed' := hsame.1
  exact ⟨n, record, processed, _, m', hs, ht, hsame.live⟩

/-- A sync pair, and behind it what was there before. -/
def syncBuf (stale : UInt8) : RxBuf where
  data := [ubxSyncCharOne, ubxSyncCharTwo] ++ List.replicate 6142 stale
  currDataLen := 2
  length_data := by rw [List.length_append, List.length_replicate]; rfl
  len_le := by decide

/-- Whether a length of 0 or of 65535 stands in the array behind a sync pair, the parser waits. -/
theorem stale_irrelevant_sync : ∃ m m',
    While LoopState.test (LoopState.tracedBody fun _ => true) ⟨true, (syncBuf 0x00).mem⟩ 1
      [⟨.ubx, none, .incomplete⟩] ⟨false, m⟩ ∧
    While LoopState.test (LoopState.tracedBody fun _ => true) ⟨true, (syncBuf 0xFF).mem⟩ 1
      [⟨.ubx, none, .incomplete⟩] ⟨false, m'⟩ ∧ m.live = m'.live := by
  have hlive (stale : UInt8) : (syncBuf stale).live = [ubxSyncCharOne, ubxSyncCharTwo] := rfl
  have hbody := tracedBody_mem (fun _ => true) true (syncBuf 0x00)
  have hwait : ((syncBuf 0x00).iterate fun _ => true).processed = false := (iterate_is (fun _ => true) (syncBuf 0x00)).1
  rw [hwait, hlive] at hbody
  have honce : While LoopState.test (LoopState.tracedBody fun _ => true) ⟨true, (syncBuf 0x00).mem⟩ 1 _ _ :=
    .once rfl hbody rfl
  obtain ⟨n, record, processed, m, m', h, h', -, hl⟩ := stale_irrelevant (fun _ => true)
    (syncBuf 0x00).length_data (syncBuf 0xFF).length_data (syncBuf 0x00).len_le ((hlive 0x00).trans (hlive 0xFF).symm)
  obtain ⟨rfl, rfl, hst⟩ := h.unique honce
  cases hst
  exact ⟨_, m', h, h', hl⟩

end TrackIt.Framer
