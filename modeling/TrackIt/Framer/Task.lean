import TrackIt.Lib.Run
import TrackIt.Lib.Layout
import TrackIt.Framer.Messages

/-!
# The UART task as a transition system

`gnss_uart_task` waits on the UART event queue, drains the driver, runs the inner loop, and waits again. A step is one
event taken from the queue, one iteration of the drain loop, or one iteration of the inner loop; what the driver
returns, and whether `UBX_ParseMessage` accepts, is free at every step. `World` adds to the task's own variables what
it has received and handed on so far.

- `Inv`, `inv_run`: the received bytes are what was handed on, in order and disjoint, with gaps, and then the buffer;
- `uartDataEvents_run`: handling a sequence of `UART_DATA` events (`RxBuf.uartDataEvents`) is a run;
- `dispatch_sound`: what the invariant says of every run.
-/

namespace TrackIt.Framer

open TrackIt.Lib

/-- The UART events the task tells apart. -/
inductive UartEvent
  | data
  | bufferFull
  | other (type : Nat)

/-- Where the task stands: at `xQueueReceive`, in the drain loop, or before the test of the inner loop. -/
inductive Pc
  | waiting
  | draining
  | framing (processed : Bool)
  deriving DecidableEq, Repr

structure World where
  pc : Pc
  buf : RxBuf
  /-- All bytes returned by `uart_read_bytes` so far. -/
  received : List UInt8
  /-- All messages handed on so far. -/
  dispatched : List Msg

inductive Label
  | event (e : UartEvent)
  | read (r : DriverRead)
  | drained (r : DriverRead)
  | iterate (accept : List UInt8 → Bool)
  | framed

/-- The malloc'd buffer, with nothing received. -/
def World.boot (s : RxBuf) : World := ⟨.waiting, s.clear, [], []⟩

def World.afterIteration (w : World) (it : Iteration) : World :=
  ⟨.framing it.processed, it.buf, w.received, w.dispatched ++ it.dispatch.toList⟩

inductive Step : World → Label → World → Prop
  /-- `UART_BUFFER_FULL` falls through to `UART_DATA`. -/
  | data (w : World) (e : UartEvent) (hpc : w.pc = .waiting) (he : e = .data ∨ e = .bufferFull) :
      Step w (.event e) { w with pc := .draining }
  /-- Any other event clears the UART buffers. -/
  | other (w : World) (type : Nat) (hpc : w.pc = .waiting) :
      Step w (.event (.other type)) { w with buf := w.buf.clear }
  | read (w : World) (r : DriverRead) (s : RxBuf) (hpc : w.pc = .draining) (hs : w.buf.drainBody r = some s) :
      Step w (.read r) { w with buf := s, received := w.received ++ w.buf.readBytes r }
  | drained (w : World) (r : DriverRead) (hpc : w.pc = .draining) (hs : w.buf.drainBody r = none) :
      Step w (.drained r) { w with pc := .framing true }
  | iterate (w : World) (accept : List UInt8 → Bool) (hpc : w.pc = .framing true) (hlen : 0 < w.buf.currDataLen) :
      Step w (.iterate accept) (w.afterIteration (w.buf.iterate accept))
  | framed (w : World) (processed : Bool) (hpc : w.pc = .framing processed)
      (hend : ¬ (processed = true ∧ 0 < w.buf.currDataLen)) : Step w .framed { w with pc := .waiting }

/-! ## The invariant -/

structure Inv (w : World) : Prop where
  layout : ∃ consumed, w.received = consumed ++ w.buf.live ∧ Laid consumed (w.dispatched.map Msg.bytes)
  framed : ∀ m ∈ w.dispatched, m.Framed

theorem inv_boot (s : RxBuf) : Inv (World.boot s) :=
  ⟨⟨[], by simp [World.boot], .nil []⟩, fun m hm => by simp [World.boot] at hm⟩

theorem drainBody_live {s s' : RxBuf} {r : DriverRead} (h : s.drainBody r = some s') :
    s'.live = s.live ++ s.readBytes r ∨ s'.live = [] ∧ s.readBytes r = [] := by
  unfold RxBuf.drainBody at h
  split at h
  · cases h
  · split at h
    · rename_i hto
      split at h
      · cases h
        exact .inr ⟨by simp, by simp [RxBuf.readBytes, hto]⟩
      · cases h
    · cases h
      exact .inl (by simp)

/-- An iteration that only drops bytes from the front keeps the invariant. -/
theorem inv_drop {w : World} {it : Iteration} (h : Inv w) (hd : it.dispatch = none)
    (hlive : ∃ skip, w.buf.live = skip ++ it.buf.live) : Inv (w.afterIteration it) := by
  obtain ⟨⟨consumed, hrec, hlaid⟩, hframed⟩ := h
  obtain ⟨skip, hlive⟩ := hlive
  refine ⟨⟨consumed ++ skip, ?_, ?_⟩, ?_⟩
  · rw [World.afterIteration, hrec, hlive, List.append_assoc]
  · simpa [World.afterIteration, hd] using hlaid.gap skip
  · simpa [World.afterIteration, hd] using hframed

/-- An iteration keeps the invariant: it drops bytes, and hands on bytes that stood in front of the ones it keeps. -/
theorem inv_iterate {w : World} (accept : List UInt8 → Bool) (h : Inv w) :
    Inv (w.afterIteration (w.buf.iterate accept)) := by
  have his := iterate_is accept w.buf
  have hspec := next_spec accept w.buf.live
  cases hnext : next accept w.buf.live with
  | dispatch m rest =>
    rw [hnext] at his hspec
    obtain ⟨-, hd, hl⟩ := his
    obtain ⟨hm, skip, hlive⟩ := hspec
    obtain ⟨⟨consumed, hrec, hlaid⟩, hframed⟩ := h
    refine ⟨⟨consumed ++ skip ++ m.bytes, ?_, ?_⟩, ?_⟩
    · simp only [World.afterIteration, hl, hrec, hlive, List.append_assoc]
    · simp only [World.afterIteration, hd, Option.toList_some, List.map_append, List.map_singleton]
      exact (hlaid.gap skip).block m.bytes
    · intro m' hm'
      simp only [World.afterIteration, hd, Option.toList_some, List.mem_append, List.mem_singleton] at hm'
      rcases hm' with hm' | rfl
      · exact hframed m' hm'
      · exact hm
  | retry rest =>
    rw [hnext] at his hspec
    obtain ⟨-, hd, hl⟩ := his
    obtain ⟨skip, -, hlive⟩ := hspec
    exact inv_drop h hd ⟨skip, hl ▸ hlive⟩
  | wait rest =>
    rw [hnext] at his hspec
    obtain ⟨-, hd, hl⟩ := his
    obtain ⟨skip, hlive⟩ := hspec
    exact inv_drop h hd ⟨skip, hl ▸ hlive⟩

theorem inv_step {w w' : World} {l : Label} (h : Inv w) (hs : Step w l w') : Inv w' := by
  cases hs with
  | data e hpc he => exact ⟨h.layout, h.framed⟩
  | other type hpc =>
    obtain ⟨consumed, hrec, hlaid⟩ := h.layout
    exact ⟨⟨w.received, by simp, hrec ▸ hlaid.gap w.buf.live⟩, h.framed⟩
  | read r s hpc hs =>
    obtain ⟨consumed, hrec, hlaid⟩ := h.layout
    refine ⟨?_, h.framed⟩
    rcases drainBody_live hs with hl | ⟨hl, hr⟩
    · exact ⟨consumed, by simp [hl, hrec], hlaid⟩
    · -- the wipe of a full buffer
      exact ⟨w.received, by simp [hl, hr], hrec ▸ hlaid.gap w.buf.live⟩
  | drained r hpc hs => exact ⟨h.layout, h.framed⟩
  | iterate accept hpc hlen => exact inv_iterate accept h
  | framed processed hpc hend => exact ⟨h.layout, h.framed⟩

theorem inv_run {s : RxBuf} {tr : List (World × Label)} {w : World} (h : Run Step (World.boot s) tr w) : Inv w :=
  h.invariant (inv_boot s) fun _ _ _ => inv_step

/-! ## Handling an event is a run -/

/-- An iteration after which the loop goes on has made the live bytes fewer. -/
theorem iterate_lt {accept : List UInt8 → Bool} {s : RxBuf} (h : (s.iterate accept).processed = true) :
    (s.iterate accept).buf.currDataLen < s.currDataLen := by
  have his := iterate_is accept s
  rw [← RxBuf.length_live, ← RxBuf.length_live s]
  cases hnext : next accept s.live with
  | dispatch m rest => rw [hnext] at his; rw [his.2.2]; exact next_dispatch_lt hnext
  | retry rest => rw [hnext] at his; rw [his.2.2]; exact next_retry_lt hnext
  | wait rest => rw [hnext] at his; rw [his.1] at h; cases h

theorem drain_run : ∀ (rs : List DriverRead) (w : World), w.pc = .draining → ∃ tr w', Run Step w tr w' ∧
    w'.pc = .framing true ∧ w'.buf = w.buf.drainUartRxBuf rs ∧ w'.dispatched = w.dispatched
  | [], w, hpc => ⟨_, _, .single (.drained w ⟨0, []⟩ hpc (by simp [RxBuf.drainBody])), rfl, rfl, rfl⟩
  | r :: rs, w, hpc => by
    rw [RxBuf.drainUartRxBuf]
    cases hb : w.buf.drainBody r with
    | none => exact ⟨_, _, .single (.drained w r hpc hb), rfl, rfl, rfl⟩
    | some s =>
      obtain ⟨tr, w', hr, hpc', hbuf, hdis⟩ := drain_run rs
        { w with buf := s, received := w.received ++ w.buf.readBytes r } hpc
      exact ⟨_, w', .cons (.read w r s hpc hb) hr, hpc', hbuf, hdis⟩

theorem loopN_run (accept : List UInt8 → Bool) : ∀ (fuel : Nat) (w : World), w.pc = .framing true →
    w.buf.currDataLen < fuel → ∃ tr w', Run Step w tr w' ∧ w'.pc = .waiting ∧
      w'.buf = (w.buf.loopN accept fuel).2 ∧ w'.dispatched = w.dispatched ++ (w.buf.loopN accept fuel).1
  | 0, _, _, h => by omega
  | fuel + 1, w, hpc, hfuel => by
    rw [RxBuf.loopN]
    by_cases h0 : w.buf.currDataLen = 0
    · rw [if_pos h0]
      exact ⟨_, _, .single (.framed w true hpc (by omega)), rfl, rfl, by simp⟩
    · rw [if_neg h0]
      have hstep := Step.iterate w accept hpc (by omega)
      cases hp : (w.buf.iterate accept).processed with
      | false =>
        have hend := Step.framed (w.afterIteration (w.buf.iterate accept)) false (by rw [World.afterIteration, hp])
          (by simp)
        simp only [hp, Bool.false_eq_true, if_false]
        exact ⟨_, _, .cons hstep (.single hend), rfl, rfl, rfl⟩
      | true =>
        have hlt := iterate_lt hp
        obtain ⟨tr, w', hr, hpc', hbuf, hdis⟩ := loopN_run accept fuel (w.afterIteration (w.buf.iterate accept))
          (by rw [World.afterIteration, hp]) (by simp only [World.afterIteration]; omega)
        simp only [hp, if_true]
        refine ⟨_, w', .cons hstep hr, hpc', hbuf, ?_⟩
        rw [hdis]
        simp only [World.afterIteration, List.append_assoc]

theorem uartData_run (accept : List UInt8 → Bool) (rs : List DriverRead) (w : World) (hpc : w.pc = .waiting) :
    ∃ tr w', Run Step w tr w' ∧ w'.pc = .waiting ∧ w'.buf = (w.buf.uartData accept rs).2 ∧
      w'.dispatched = w.dispatched ++ (w.buf.uartData accept rs).1 := by
  obtain ⟨tr₁, w₁, hr₁, hpc₁, hbuf₁, hdis₁⟩ := drain_run rs { w with pc := .draining } rfl
  obtain ⟨tr₂, w₂, hr₂, hpc₂, hbuf₂, hdis₂⟩ := loopN_run accept (w₁.buf.currDataLen + 1) w₁ hpc₁ (Nat.lt_succ_self _)
  refine ⟨_, w₂, .cons (.data w .data hpc (.inl rfl)) (hr₁.trans hr₂), hpc₂, ?_, ?_⟩
  · rw [hbuf₂, hbuf₁]; rfl
  · rw [hdis₂, hdis₁, hbuf₁]; rfl

/-- **A sequence of `UART_DATA` events is handled by a run of the task.** -/
theorem uartDataEvents_run (accept : List UInt8 → Bool) : ∀ (evs : List (List DriverRead)) (w : World),
    w.pc = .waiting → ∃ tr w', Run Step w tr w' ∧ w'.pc = .waiting ∧
      w'.buf = (w.buf.uartDataEvents accept evs).2 ∧
      w'.dispatched = w.dispatched ++ (w.buf.uartDataEvents accept evs).1
  | [], w, hpc => ⟨_, w, .nil, hpc, rfl, by simp [RxBuf.uartDataEvents]⟩
  | rs :: evs, w, hpc => by
    obtain ⟨tr₁, w₁, hr₁, hpc₁, hbuf₁, hdis₁⟩ := uartData_run accept rs w hpc
    obtain ⟨tr₂, w₂, hr₂, hpc₂, hbuf₂, hdis₂⟩ := uartDataEvents_run accept evs w₁ hpc₁
    refine ⟨_, w₂, hr₁.trans hr₂, hpc₂, ?_, ?_⟩
    · rw [hbuf₂, hbuf₁]; rfl
    · rw [hdis₂, hdis₁, hbuf₁, List.append_assoc]; rfl

/-! ## What is handed on -/

theorem Msg.Framed.findPat_eq {b : List UInt8} (h : (Msg.nmea b).Framed) :
    findPat [cr, lf] b = some (b.length - 2) := by
  obtain ⟨body, rfl, hfirst⟩ := h
  have := findPat_crlf [] hfirst
  simpa using this

theorem Msg.Framed.handleNmeaMsg {b : List UInt8} (h : (Msg.nmea b).Framed) : handleNmeaMsg b = 0 := by
  obtain ⟨body, rfl, -⟩ := h
  have hlen : (dollar :: body ++ [cr, lf]).length = body.length + 3 := by simp
  have hcr : (dollar :: body ++ [cr, lf])[body.length + 1]? = some cr := by simp
  have hlf : (dollar :: body ++ [cr, lf])[body.length + 2]? = some lf := by simp
  simp only [Framer.handleNmeaMsg, hlen, show body.length + 3 - 2 = body.length + 1 by omega,
    show body.length + 3 - 1 = body.length + 2 by omega, hcr, hlf, ne_eq, not_true_eq_false, or_self, if_false]

/-- **No fabrication, duplication or reordering.** In every run, whatever the events and the bytes: the buffer holds
the end of the received stream or nothing; the messages handed on lie in the stream before it, disjoint and in order;
a string handed on starts with `$`, has its first CR LF pair at its end and is not rejected; a frame handed on starts
with the sync pair and is as long as it declares. -/
theorem dispatch_sound {s : RxBuf} {tr : List (World × Label)} {w : World} (h : Run Step (World.boot s) tr w) :
    w.buf.currDataLen ≤ 6144 ∧
    (∃ consumed, w.received = consumed ++ w.buf.live ∧ Laid consumed (w.dispatched.map Msg.bytes)) ∧
    (∀ b, Msg.nmea b ∈ w.dispatched → 3 ≤ b.length ∧ b.head? = some dollar ∧
      findPat [cr, lf] b = some (b.length - 2) ∧ handleNmeaMsg b = 0) ∧
    (∀ b, Msg.ubx b ∈ w.dispatched → (∃ d, b = ubxSyncCharOne :: ubxSyncCharTwo :: d) ∧
      b.length = 8 + ((b.getD 4 0).toNat + 256 * (b.getD 5 0).toNat)) := by
  have hinv := inv_run h
  refine ⟨w.buf.len_le, hinv.layout, fun b hb => ?_, fun b hb => ?_⟩
  · have hf := hinv.framed _ hb
    refine ⟨?_, ?_, hf.findPat_eq, hf.handleNmeaMsg⟩ <;> obtain ⟨body, rfl, -⟩ := hf <;> simp
  · obtain ⟨hd, hlen⟩ := hinv.framed _ hb
    exact ⟨hd, by rw [← declaredLen_eq]; exact hlen⟩

/-- One event with one sentence. -/
theorem dispatch_sound_run : ∃ tr w, Run Step (World.boot emptyBuf) tr w ∧
    w.dispatched = [.nmea [dollar, 0x41, cr, lf]] ∧ w.buf.currDataLen ≤ 6144 ∧
    (∃ consumed, w.received = consumed ++ w.buf.live ∧ Laid consumed (w.dispatched.map Msg.bytes)) ∧
    (∀ b, Msg.nmea b ∈ w.dispatched → 3 ≤ b.length ∧ b.head? = some dollar ∧
      findPat [cr, lf] b = some (b.length - 2) ∧ handleNmeaMsg b = 0) ∧
    (∀ b, Msg.ubx b ∈ w.dispatched → (∃ d, b = ubxSyncCharOne :: ubxSyncCharTwo :: d) ∧
      b.length = 8 + ((b.getD 4 0).toNat + 256 * (b.getD 5 0).toNat)) := by
  let evs : List (List DriverRead) := [[⟨4, [dollar, 0x41, cr, lf]⟩]]
  have hfit : EventsFit (fun _ => false) emptyBuf.clear evs := by
    simp [EventsFit, DrainFits, evs, uartRxBufSize]
  obtain ⟨tr, w, hr, -, -, hdis⟩ := uartDataEvents_run (fun _ => false) evs (World.boot emptyBuf) rfl
  refine ⟨tr, w, hr, ?_, dispatch_sound hr⟩
  rw [hdis]
  change [] ++ (emptyBuf.clear.uartDataEvents (fun _ => false) evs).1 = _
  rw [(uartDataEvents_eq_feed _ hfit).1, RxBuf.live_clear]
  decide

end TrackIt.Framer
