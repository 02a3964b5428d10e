import TrackIt.Lib.Run
import TrackIt.Framer.Resync

/-!
# Draining the UART driver

One call of `drain_uart_rx_buf` against the driver's ring: a turn of its loop asks how many bytes are pending and reads
some of them, and more may arrive at any time. The loop ends only when nothing is pending, and wipes the buffer when it
is full before that.

- `drain_iff`: the buffer holds the old bytes and all that were read iff they fit.
-/

namespace TrackIt.Framer.Drain

open TrackIt.Lib

/-- Before `uart_get_buffered_data_len`, before `uart_read_bytes` with the length reported, or returned. -/
inductive Pc
  | polling
  | reading (bufferedLen : Nat)
  | returned

structure World where
  pc : Pc
  buf : RxBuf
  /-- The bytes in the driver's ring. -/
  pending : List UInt8
  /-- All bytes that have arrived in the ring during the call. -/
  arrived : List UInt8
  /-- All bytes returned by `uart_read_bytes` in the call. -/
  read : List UInt8

inductive Label
  | arrive (bytes : List UInt8)
  | poll
  /-- `uart_read_bytes` returns at most `count` bytes. -/
  | read (count : Nat)

/-- The call begins. -/
def World.call (s : RxBuf) (pending : List UInt8) : World := ⟨.polling, s, pending, [], []⟩

/-- The driver's answers of a turn, when it returns at most `count` bytes. -/
def World.answer (w : World) (bufferedLen count : Nat) : DriverRead := ⟨bufferedLen, w.pending.take count⟩

inductive Step : World → Label → World → Prop
  | arrive (w : World) (bytes : List UInt8) (hpc : w.pc ≠ .returned) :
      Step w (.arrive bytes) { w with pending := w.pending ++ bytes, arrived := w.arrived ++ bytes }
  | poll (w : World) (hpc : w.pc = .polling) (h : w.pending ≠ []) :
      Step w .poll { w with pc := .reading w.pending.length }
  /-- `buffered_len == 0` -/
  | empty (w : World) (hpc : w.pc = .polling) (h : w.pending = []) : Step w .poll { w with pc := .returned }
  | read (w : World) (n count : Nat) (s : RxBuf) (hpc : w.pc = .reading n)
      (hs : w.buf.drainBody (w.answer n count) = some s) :
      Step w (.read count)
        { w with pc := .polling, buf := s,
                 pending := w.pending.drop (w.buf.readBytes (w.answer n count)).length,
                 read := w.read ++ w.buf.readBytes (w.answer n count) }
  /-- `break` -/
  | stop (w : World) (n count : Nat) (hpc : w.pc = .reading n) (hs : w.buf.drainBody (w.answer n count) = none) :
      Step w (.read count) { w with pc := .returned }

variable {s : RxBuf} {pending : List UInt8} {w w' : World} {l : Label} {tr : List (World × Label)}

/-- What the call is for: the buffer holds the bytes that it held and those that were read, and the driver the rest. -/
def World.Kept (s : RxBuf) (pending : List UInt8) (w : World) : Prop :=
  w.buf.live = s.live ++ w.read ∧ w.buf.currDataLen ≤ 6144 ∧ pending ++ w.arrived = w.read ++ w.pending

/-- The buffer is as it should be, or more bytes have come than fit into it. -/
structure Inv (s : RxBuf) (pending : List UInt8) (w : World) : Prop where
  driver : pending ++ w.arrived = w.read ++ w.pending
  reading : ∀ n, w.pc = .reading n → 0 < n ∧ n ≤ w.pending.length
  returned : w.pc = .returned → w.pending = []
  buffer : w.buf.live = s.live ++ w.read ∨ 6144 < s.currDataLen + pending.length + w.arrived.length

theorem inv_call (s : RxBuf) (pending : List UInt8) : Inv s pending (.call s pending) := by
  refine ⟨?_, nofun, nofun, .inl ?_⟩
  · simp [World.call]
  · simp [World.call]

/-- What the driver returns is the front of its ring. -/
theorem readBytes_answer (w : World) (n count : Nat) :
    w.pending = w.buf.readBytes (w.answer n count) ++
      w.pending.drop (w.buf.readBytes (w.answer n count)).length := by
  have hprefix : w.buf.readBytes (w.answer n count) <+: w.pending :=
    (List.take_prefix _ _).trans (List.take_prefix _ _)
  exact (List.prefix_iff_eq_append.1 hprefix).symm

/-- A turn with something pending appends what it reads, or wipes a full buffer. -/
theorem drainBody_pending {s : RxBuf} {r : DriverRead} (h : 0 < r.bufferedLen) :
    (0 < s.toRead r ∧ ∃ s', s.drainBody r = some s' ∧ s'.live = s.live ++ s.readBytes r) ∨
    (s.currDataLen = 6144 ∧ s.drainBody r = some s.clear ∧ s.readBytes r = []) := by
  have hle := s.len_le
  unfold RxBuf.drainBody
  rw [if_neg (by omega)]
  by_cases hfull : s.currDataLen = 6144
  · have hspace : s.spaceLeft = 0 := by rw [RxBuf.spaceLeft, hfull]; rfl
    have hto : s.toRead r = 0 := by rw [RxBuf.toRead, hspace, if_neg (Nat.not_lt_zero _)]
    rw [if_pos hto, if_pos hspace, RxBuf.readBytes, hto]
    exact .inr ⟨hfull, rfl, rfl⟩
  · have hlt : s.currDataLen < 6144 := Nat.lt_of_le_of_ne hle hfull
    have hto : s.toRead r ≠ 0 := by
      unfold RxBuf.toRead RxBuf.spaceLeft uartRxBufSize
      split <;> omega
    rw [if_neg hto]
    exact .inl ⟨Nat.pos_of_ne_zero hto, _, rfl, RxBuf.live_receive _ _ _⟩

theorem inv_step (h : Inv s pending w) (hs : Step w l w') : Inv s pending w' := by
  cases hs with
  | arrive bytes hpc =>
    refine ⟨?_, fun n hn => ?_, fun hr => absurd hr hpc, h.buffer.imp_right fun hlt => ?_⟩
    · dsimp only
      rw [← List.append_assoc, h.driver, List.append_assoc]
    · obtain ⟨hpos, hle⟩ := h.reading n hn
      refine ⟨hpos, ?_⟩
      rw [List.length_append]
      omega
    · rw [List.length_append]
      omega
  | poll hpc hne =>
    refine ⟨h.driver, fun n hn => ?_, nofun, h.buffer⟩
    obtain rfl := Pc.reading.inj hn
    exact ⟨List.length_pos_iff.2 hne, Nat.le_refl _⟩
  | empty hpc hnil => exact ⟨h.driver, nofun, fun _ => hnil, h.buffer⟩
  | read n count s' hpc hbody =>
    obtain ⟨hpos, hle⟩ := h.reading n hpc
    have hpending := readBytes_answer w n count
    refine ⟨?_, nofun, nofun, ?_⟩
    · dsimp only
      rw [h.driver, List.append_assoc, ← hpending]
    · rcases h.buffer with hlive | hlt
      · rcases drainBody_pending (s := w.buf) (r := w.answer n count) hpos with
          ⟨-, s'', hs'', hl⟩ | ⟨hfull, -, -⟩
        · obtain rfl := Option.some.inj (hbody.symm.trans hs'')
          left
          dsimp only
          rw [hl, hlive, List.append_assoc]
        · -- the wipe: the buffer was full, and there was more
          right
          have hlen := congrArg List.length h.driver
          have hfill := congrArg List.length hlive
          rw [RxBuf.length_live, List.length_append, RxBuf.length_live] at hfill
          rw [List.length_append, List.length_append] at hlen
          dsimp only
          omega
      · exact .inr hlt
  | stop n count hpc hbody =>
    -- a reported length is positive, so that the loop does not break here
    obtain ⟨hpos, -⟩ := h.reading n hpc
    rcases drainBody_pending (s := w.buf) (r := w.answer n count) hpos with ⟨-, s'', hs'', -⟩ | ⟨-, hs'', -⟩
    · rw [hs''] at hbody
      cases hbody
    · rw [hs''] at hbody
      cases hbody

theorem inv_run (h : Run Step (.call s pending) tr w) : Inv s pending w :=
  h.invariant (inv_call s pending) fun _ _ _ => inv_step

/-! ## When the call returns -/

/-- The call returns only when everything has been read. -/
theorem read_of_returned (h : Inv s pending w) (hret : w.pc = .returned) : w.read = pending ++ w.arrived := by
  rw [h.driver, h.returned hret, List.append_nil]

theorem not_kept_of_lt (h : Inv s pending w) (hret : w.pc = .returned)
    (hlt : 6144 < s.currDataLen + pending.length + w.arrived.length) : w.buf.live ≠ s.live ++ w.read := by
  intro hlive
  have hlen := congrArg List.length hlive
  have hle : w.buf.currDataLen ≤ 6144 := w.buf.len_le
  rw [read_of_returned h hret, RxBuf.length_live, List.length_append, List.length_append, RxBuf.length_live] at hlen
  omega

/-- **Draining discards nothing iff it all fits.** When the call has returned, the buffer holds the old bytes and those
that were read, in order, and the driver the rest, iff the old bytes, those pending at first and those that arrived
during the call are together at most 6144. -/
theorem drain_iff (h : Run Step (.call s pending) tr w) (hret : w.pc = .returned) :
    w.Kept s pending ↔ s.currDataLen + pending.length + w.arrived.length ≤ 6144 := by
  have hinv := inv_run h
  constructor
  · rintro ⟨hlive, -, -⟩
    by_contra hlt
    exact not_kept_of_lt hinv hret (Nat.lt_of_not_le hlt) hlive
  · intro hle
    rcases hinv.buffer with hlive | hlt
    · exact ⟨hlive, w.buf.len_le, hinv.driver⟩
    · omega

/-! ## Calls return -/

/-- When nothing more arrives and the driver returns what it is asked for, the call returns: a turn makes the pending
bytes fewer, or wipes a full buffer. -/
theorem returns_run (w : World) (hpc : w.pc = .polling) :
    ∃ tr w', Run Step w tr w' ∧ w'.pc = .returned ∧ w'.arrived = w.arrived := by
  induction hn : 2 * w.pending.length + (if w.buf.currDataLen = 6144 then 1 else 0) using Nat.strongRecOn
    generalizing w with
  | _ n ih =>
    by_cases hnil : w.pending = []
    · exact ⟨_, _, .single (.empty w hpc hnil), rfl, rfl⟩
    · have hpos := List.length_pos_iff.2 hnil
      let count := w.pending.length
      let w₁ : World := { w with pc := .reading count }
      have hpoll : Step w .poll w₁ := .poll w hpc hnil
      obtain ⟨s', hs', hless⟩ : ∃ s', w₁.buf.drainBody (w₁.answer count count) = some s' ∧
          2 * (w.pending.length - (w.buf.readBytes (w₁.answer count count)).length) +
            (if s'.currDataLen = 6144 then 1 else 0) < n := by
        rcases drainBody_pending (s := w₁.buf) (r := w₁.answer count count) hpos with
          ⟨hto, s', hs', -⟩ | ⟨hfull, hs', hread⟩
        · refine ⟨s', hs', ?_⟩
          have hread : 0 < (w.buf.readBytes (w₁.answer count count)).length := by
            rw [RxBuf.readBytes, World.answer, List.length_take, List.length_take]
            have : 0 < min count w.pending.length := by omega
            exact Nat.lt_min.2 ⟨hto, this⟩
          split <;> omega
        · have hfull : w.buf.currDataLen = 6144 := hfull
          have hread : w.buf.readBytes (w₁.answer count count) = [] := hread
          refine ⟨_, hs', ?_⟩
          rw [hread, ← hn, if_pos hfull, RxBuf.currDataLen_clear]
          simp
      let w₂ : World := ⟨.polling, s', w.pending.drop (w.buf.readBytes (w₁.answer count count)).length, w.arrived,
        w.read ++ w.buf.readBytes (w₁.answer count count)⟩
      have hreads : Step w₁ (.read count) w₂ := .read w₁ count count s' rfl hs'
      have hlen : w₂.pending.length = w.pending.length - (w.buf.readBytes (w₁.answer count count)).length :=
        List.length_drop
      obtain ⟨tr, w', hr, hret, harr⟩ := ih _ hless w₂ rfl (by rw [hlen])
      exact ⟨_, w', .cons hpoll (.cons hreads hr), hret, harr⟩

/-- A buffer with the start of a sentence, and a full ring. -/
theorem full_ring_lost : ∃ tr w, Run Step (.call (bufOf [dollar] (by decide)) (List.replicate 6144 lf)) tr w ∧
    w.pc = .returned ∧ w.arrived = [] ∧ w.read = List.replicate 6144 lf ∧
    w.buf.live ≠ [dollar] ++ w.read := by
  obtain ⟨tr, w, hr, hret, harr⟩ := returns_run (.call (bufOf [dollar] (by decide)) (List.replicate 6144 lf)) rfl
  have hinv := inv_run hr
  have hread := read_of_returned hinv hret
  rw [harr, World.call, List.append_nil] at hread
  refine ⟨tr, w, hr, hret, harr, hread, ?_⟩
  have hlt : 6144 < (bufOf [dollar] (by decide)).currDataLen + (List.replicate 6144 lf).length + w.arrived.length := by
    rw [List.length_replicate, ← RxBuf.length_live, live_bufOf, List.length_singleton]
    omega
  have hlost := not_kept_of_lt hinv hret hlt
  rwa [live_bufOf] at hlost

/-- A call that fits. -/
theorem drain_iff_fits : ∃ tr w, Run Step (.call (bufOf [dollar] (by decide)) [cr, lf]) tr w ∧
    w.buf.live = [dollar, cr, lf] := by
  obtain ⟨tr, w, hr, hret, harr⟩ := returns_run (.call (bufOf [dollar] (by decide)) [cr, lf]) rfl
  have hread := read_of_returned (inv_run hr) hret
  have harr : w.arrived = [] := harr
  rw [harr, List.append_nil] at hread
  have hkept := (drain_iff hr hret).2 (by
    rw [harr, ← RxBuf.length_live, live_bufOf]
    decide)
  refine ⟨tr, w, hr, ?_⟩
  rw [hkept.1, live_bufOf, hread]
  rfl

end TrackIt.Framer.Drain
