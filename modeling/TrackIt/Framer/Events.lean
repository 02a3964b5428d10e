import TrackIt.Framer.Tokenizer

/-!
# UART events whose bytes fit

When what the driver holds always fits in the free space of the buffer (`DrainFits`), draining appends the event's
bytes to the live ones however the driver splits them over reads (`live_drainUartRxBuf`). A sequence of such events
(`EventsFit`) is then `feed`: one `tokens` for each event, on what the one before left and the event's bytes.
-/

namespace TrackIt.Framer

/-- The bytes of an event, over all reads. -/
def eventBytes (rs : List DriverRead) : List UInt8 := (rs.map DriverRead.bytes).flatten

/-- In every iteration of the drain loop the driver reports something, which fits behind the `fill` live bytes, and
returns no more than that. -/
def DrainFits : Nat → List DriverRead → Prop
  | _, [] => True
  | fill, r :: rs => 0 < r.bufferedLen ∧ r.bytes.length ≤ r.bufferedLen ∧ fill + r.bufferedLen ≤ uartRxBufSize ∧
      DrainFits (fill + r.bytes.length) rs

/-- Every event of the sequence fits when it comes. -/
def EventsFit (accept : List UInt8 → Bool) : RxBuf → List (List DriverRead) → Prop
  | _, [] => True
  | s, rs :: evs => DrainFits s.currDataLen rs ∧ EventsFit accept (s.uartData accept rs).2 evs

/-- The inner loop after each of the chunks, from the leftover `b`. -/
def feed (accept : List UInt8 → Bool) : List UInt8 → List (List UInt8) → List Msg × List UInt8
  | b, [] => ([], b)
  | b, c :: cs =>
    let here := tokens accept (b ++ c)
    let rest := feed accept here.2 cs
    (here.1 ++ rest.1, rest.2)

theorem drainBody_fits {s : RxBuf} {r : DriverRead} (h₀ : 0 < r.bufferedLen) (h₁ : r.bytes.length ≤ r.bufferedLen)
    (h₂ : s.currDataLen + r.bufferedLen ≤ uartRxBufSize) :
    ∃ s', s.drainBody r = some s' ∧ s'.live = s.live ++ r.bytes := by
  have hto : s.toRead r = r.bufferedLen := by
    unfold RxBuf.toRead RxBuf.spaceLeft
    split <;> omega
  have hread : s.readBytes r = r.bytes := by
    rw [RxBuf.readBytes, hto]
    exact List.take_of_length_le h₁
  refine ⟨s.receive (s.readBytes r) (s.readBytes_le r), ?_, ?_⟩
  · rw [RxBuf.drainBody, if_neg (by omega), if_neg (by omega)]
  · rw [RxBuf.live_receive, hread]

theorem live_drainUartRxBuf : ∀ {rs : List DriverRead} {s : RxBuf}, DrainFits s.currDataLen rs →
    (s.drainUartRxBuf rs).live = s.live ++ eventBytes rs
  | [], s, _ => by simp [RxBuf.drainUartRxBuf, eventBytes]
  | r :: rs, s, h => by
    obtain ⟨h₀, h₁, h₂, h₃⟩ := h
    obtain ⟨s', hs', hl⟩ := drainBody_fits h₀ h₁ h₂
    have hlen : s'.currDataLen = s.currDataLen + r.bytes.length := by
      rw [← RxBuf.length_live, hl, List.length_append, RxBuf.length_live]
    have ih : (s'.drainUartRxBuf rs).live = s'.live ++ eventBytes rs := live_drainUartRxBuf (by rw [hlen]; exact h₃)
    rw [RxBuf.drainUartRxBuf, hs']
    simp only [ih, hl, eventBytes, List.map_cons, List.flatten_cons, List.append_assoc]

/-- An event that fits is one `tokens`. -/
theorem uartData_eq_tokens (accept : List UInt8 → Bool) {s : RxBuf} {rs : List DriverRead}
    (h : DrainFits s.currDataLen rs) :
    (s.uartData accept rs).1 = (tokens accept (s.live ++ eventBytes rs)).1 ∧
      (s.uartData accept rs).2.live = (tokens accept (s.live ++ eventBytes rs)).2 := by
  rw [← live_drainUartRxBuf h]
  exact innerLoop_eq_tokens accept _

/-- A sequence of events that fit is `feed`. -/
theorem uartDataEvents_eq_feed (accept : List UInt8 → Bool) : ∀ {evs : List (List DriverRead)} {s : RxBuf},
    EventsFit accept s evs →
    (s.uartDataEvents accept evs).1 = (feed accept s.live (evs.map eventBytes)).1 ∧
      (s.uartDataEvents accept evs).2.live = (feed accept s.live (evs.map eventBytes)).2
  | [], _, _ => ⟨rfl, rfl⟩
  | rs :: evs, s, h => by
    obtain ⟨h₁, h₂⟩ := uartData_eq_tokens accept h.1
    obtain ⟨ih₁, ih₂⟩ := uartDataEvents_eq_feed accept h.2
    rw [h₂] at ih₁ ih₂
    simp only [RxBuf.uartDataEvents, List.map_cons, feed]
    exact ⟨by rw [h₁, ih₁], ih₂⟩

/-- A buffer with nothing in it. -/
def emptyBuf : RxBuf := ⟨List.replicate uartRxBufSize 0, 0, List.length_replicate, Nat.zero_le _⟩

@[simp] theorem live_emptyBuf : emptyBuf.live = [] := by simp [RxBuf.live, emptyBuf]

/-! ## Where chunks end -/

/-- A condition on what the first chunks make of a leftover: the first chunk is part of the leftover from then on. -/
theorem exists_cut_cons (P : List UInt8 → Prop) (b c : List UInt8) (cs : List (List UInt8)) :
    (∃ pre, pre <+: c :: cs ∧ P (b ++ pre.flatten)) ↔ P b ∨ ∃ pre, pre <+: cs ∧ P ((b ++ c) ++ pre.flatten) := by
  constructor
  · rintro ⟨pre, hpre, h⟩
    cases pre with
    | nil =>
      rw [List.flatten_nil, List.append_nil] at h
      exact .inl h
    | cons c' pre =>
      obtain ⟨rfl, hpre'⟩ := List.cons_prefix_cons.1 hpre
      rw [List.flatten_cons, ← List.append_assoc] at h
      exact .inr ⟨pre, hpre', h⟩
  · rintro (h | ⟨pre, hpre, h⟩)
    · refine ⟨[], List.nil_prefix, ?_⟩
      rwa [List.flatten_nil, List.append_nil]
    · refine ⟨c :: pre, List.cons_prefix_cons.2 ⟨rfl, hpre⟩, ?_⟩
      rwa [List.flatten_cons, ← List.append_assoc]

theorem forall_cut_cons (P : List UInt8 → Prop) (b c : List UInt8) (cs : List (List UInt8)) :
    (∀ pre, pre <+: c :: cs → P (b ++ pre.flatten)) ↔ P b ∧ ∀ pre, pre <+: cs → P ((b ++ c) ++ pre.flatten) := by
  have h := not_congr (exists_cut_cons (fun s => ¬ P s) b c cs)
  simpa only [not_exists, not_and, not_or, not_not] using h

end TrackIt.Framer
