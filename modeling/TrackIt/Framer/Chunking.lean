import TrackIt.Framer.Messages

/-!
# Framing and the cuts between events

A stream of well-formed messages arrives cut into `UART_DATA` events. After each event the buffer holds the part of
the first message that is not complete yet (`unfinished`), unless that part is a lone `0xB5`: neither search finds
anything in it, the buffer is cleared, and the frame that starts there is lost.

`framing_iff` says that this is the only way in which the cuts matter: exactly the messages that were sent are handed
on, and nothing is left, iff no event ends between the two sync bytes of a frame. When one does, the bytes handed on
are too few to be the messages (`streamOf_feed_le`).
-/

namespace TrackIt.Framer

open TrackIt.Lib

variable {accept : List UInt8 → Bool}

/-- What is left of `b` behind the messages of `ms` that are complete in it. -/
def unfinished : List Msg → List UInt8 → List UInt8
  | [], b => b
  | m :: ms, b => if m.bytes.length ≤ b.length then unfinished ms (b.drop m.bytes.length) else b

theorem unfinished_append (rest : List Msg) (b : List UInt8) : ∀ done : List Msg,
    unfinished (done ++ rest) (streamOf done ++ b) = unfinished rest b
  | [] => rfl
  | m :: done => by
    have hle : m.bytes.length ≤ (streamOf (m :: done) ++ b).length := by simp
    rw [List.cons_append, unfinished, if_pos hle, streamOf_cons, List.append_assoc, List.drop_left]
    exact unfinished_append rest b done

/-- `p` is a beginning of what `ms` sends, and the first message is not complete in it. -/
def PartOf (p : List UInt8) (ms : List Msg) : Prop := p <+: streamOf ms ∧ ∀ m ∈ ms.head?, p.length < m.bytes.length

theorem PartOf.unfinished {p : List UInt8} {ms : List Msg} (h : PartOf p ms) : unfinished ms p = p := by
  cases ms with
  | nil => rfl
  | cons m ms => rw [Framer.unfinished, if_neg (Nat.not_le.2 (h.2 m rfl))]

/-- A part that is all that is sent is empty. -/
theorem PartOf.eq_nil {ms : List Msg} (h : PartOf (streamOf ms) ms) : ms = [] := by
  cases ms with
  | nil => rfl
  | cons m ms =>
    have hlt := h.2 m rfl
    rw [streamOf_cons, List.length_append] at hlt
    omega

/-- A beginning of the stream is some whole messages and a part of the next. -/
theorem exists_partOf : ∀ {ms : List Msg} {b : List UInt8}, b <+: streamOf ms →
    ∃ done rest p, ms = done ++ rest ∧ b = streamOf done ++ p ∧ PartOf p rest
  | [], b, h => ⟨[], [], b, rfl, rfl, h, by simp⟩
  | m :: ms, b, h => by
    by_cases hlt : b.length < m.bytes.length
    · exact ⟨[], m :: ms, b, rfl, rfl, h, by simpa using hlt⟩
    · have hm : m.bytes <+: b :=
        List.prefix_of_prefix_length_le ⟨streamOf ms, rfl⟩ (by simpa using h) (Nat.not_lt.1 hlt)
      obtain ⟨b', rfl⟩ := hm
      have hb' : b' <+: streamOf ms := (List.prefix_append_right_inj m.bytes).1 (by simpa using h)
      obtain ⟨done, rest, p, rfl, rfl, hp⟩ := exists_partOf hb'
      exact ⟨m :: done, rest, p, rfl, by simp, hp⟩

/-- What the inner loop makes of a part of the next message. -/
theorem tokens_partOf {ms : List Msg} (hms : ∀ m ∈ ms, m.WellFormed accept) {p : List UInt8} (hp : PartOf p ms) :
    tokens accept p = ([], if p = [ubxSyncCharOne] then [] else p) := by
  cases ms with
  | nil =>
    obtain rfl := List.prefix_nil.1 hp.1
    rfl
  | cons m ms =>
    by_cases hne : p = []
    · rw [hne]; rfl
    have hlt := hp.2 m rfl
    have hpre : p <+: m.bytes := List.prefix_of_prefix_length_le hp.1 ⟨streamOf ms, rfl⟩ (by omega)
    rw [tokens_eq accept hne, next_partial (hms m List.mem_cons_self) hpre hlt hne]

/-! ## What is handed on is no more than what came -/

theorem streamOf_tokens_le (accept : List UInt8 → Bool) (b : List UInt8) :
    (streamOf (tokens accept b).1).length + (tokens accept b).2.length ≤ b.length := by
  obtain ⟨consumed, hb, hlaid⟩ := tokens_laid accept b
  have hlen := congrArg List.length hb
  have hle : (streamOf (tokens accept b).1).length ≤ consumed.length := hlaid.length_le
  rw [List.length_append] at hlen
  omega

theorem streamOf_feed_le (accept : List UInt8 → Bool) : ∀ (cs : List (List UInt8)) (b : List UInt8),
    (streamOf (feed accept b cs).1).length ≤ b.length + cs.flatten.length
  | [], _ => by simp [feed]
  | c :: cs, b => by
    have h₁ := streamOf_tokens_le accept (b ++ c)
    have h₂ := streamOf_feed_le accept cs (tokens accept (b ++ c)).2
    rw [List.length_append] at h₁
    simp only [feed, streamOf_append, List.length_append, List.flatten_cons]
    omega

/-! ## Events that fit whatever the framer does -/

/-- All that the driver reports over some reads. -/
def reported : List DriverRead → Nat
  | [] => 0
  | r :: rs => r.bufferedLen + reported rs

theorem reported_append (rs : List DriverRead) : ∀ rs' : List DriverRead,
    reported (rs' ++ rs) = reported rs' + reported rs
  | [] => (Nat.zero_add _).symm
  | r :: rs' => by rw [List.cons_append, reported, reported, reported_append rs rs', Nat.add_assoc]

theorem drainFits_of_total : ∀ {rs : List DriverRead} {fill : Nat},
    (∀ r ∈ rs, 0 < r.bufferedLen) → (∀ r ∈ rs, r.bytes.length ≤ r.bufferedLen) →
    fill + reported rs ≤ uartRxBufSize → DrainFits fill rs
  | [], _, _, _, _ => trivial
  | r :: rs, fill, h₀, h₁, h => by
    rw [reported] at h
    have hr := h₁ r List.mem_cons_self
    refine ⟨h₀ r List.mem_cons_self, hr, by omega, drainFits_of_total ?_ ?_ (by omega)⟩
    · exact fun r' hr' => h₀ r' (List.mem_cons_of_mem _ hr')
    · exact fun r' hr' => h₁ r' (List.mem_cons_of_mem _ hr')

theorem eventBytes_le : ∀ {rs : List DriverRead}, (∀ r ∈ rs, r.bytes.length ≤ r.bufferedLen) →
    (eventBytes rs).length ≤ reported rs
  | [], _ => Nat.le_refl 0
  | r :: rs, h => by
    have hr := h r List.mem_cons_self
    have ih := eventBytes_le fun r' hr' => h r' (List.mem_cons_of_mem _ hr')
    simp only [eventBytes, reported, List.map_cons, List.flatten_cons, List.length_append] at ih ⊢
    omega

/-- Events whose bytes would all fit together fit one by one, for no event leaves more than it found. -/
theorem eventsFit_of_total (accept : List UInt8 → Bool) : ∀ {evs : List (List DriverRead)} {s : RxBuf},
    (∀ r ∈ evs.flatten, 0 < r.bufferedLen) → (∀ r ∈ evs.flatten, r.bytes.length ≤ r.bufferedLen) →
    s.currDataLen + reported evs.flatten ≤ uartRxBufSize → EventsFit accept s evs
  | [], _, _, _, _ => trivial
  | rs :: evs, s, h₀, h₁, h => by
    rw [List.flatten_cons, reported_append] at h
    simp only [List.flatten_cons, List.mem_append] at h₀ h₁
    have hfit : DrainFits s.currDataLen rs :=
      drainFits_of_total (fun r hr => h₀ r (.inl hr)) (fun r hr => h₁ r (.inl hr)) (by omega)
    have hbytes := eventBytes_le fun r hr => h₁ r (.inl hr)
    have hleft : (s.uartData accept rs).2.currDataLen ≤ s.currDataLen + (eventBytes rs).length := by
      rw [← RxBuf.length_live, (uartData_eq_tokens accept hfit).2, ← s.length_live, ← List.length_append]
      have := streamOf_tokens_le accept (s.live ++ eventBytes rs)
      omega
    refine ⟨hfit, eventsFit_of_total accept (fun r hr => h₀ r (.inr hr)) (fun r hr => h₁ r (.inr hr)) ?_⟩
    omega

/-! ## The cuts -/

/-- From a part of the next message on, with the rest of the stream still to come. -/
theorem feed_iff : ∀ (cs : List (List UInt8)) {ms : List Msg} {p : List UInt8},
    (∀ m ∈ ms, m.WellFormed accept) → PartOf p ms → p ≠ [ubxSyncCharOne] → p ++ cs.flatten = streamOf ms →
    (feed accept p cs = (ms, []) ↔ ∀ pre, pre <+: cs → unfinished ms (p ++ pre.flatten) ≠ [ubxSyncCharOne])
  | [], ms, p, _, hp, hlone, hall => by
    rw [List.flatten_nil, List.append_nil] at hall
    subst hall
    obtain rfl := hp.eq_nil
    simp [feed, unfinished]
  | c :: cs, ms, p, hms, hp, hlone, hall => by
    rw [List.flatten_cons, ← List.append_assoc] at hall
    obtain ⟨done, rest, q, rfl, hpc, hq⟩ := exists_partOf (b := p ++ c) ⟨cs.flatten, hall⟩
    have hrest : ∀ m ∈ rest, m.WellFormed accept := fun m hm => hms m (List.mem_append_right _ hm)
    have hdone : ∀ m ∈ done, m.Complete accept := fun m hm => (hms m (List.mem_append_left _ hm)).complete
    have hsend : q ++ cs.flatten = streamOf rest := by
      rw [hpc, streamOf_append, List.append_assoc] at hall
      exact List.append_cancel_left hall
    have htok : tokens accept (p ++ c) = (done, if q = [ubxSyncCharOne] then [] else q) := by
      rw [hpc, tokens_flatten q hdone, tokens_partOf hrest hq]
      simp
    by_cases hq1 : q = [ubxSyncCharOne]
    · -- the event ends between the sync bytes: the first of them is gone, and no later event can make up for it
      have hshort := streamOf_feed_le accept cs []
      have hlen := congrArg List.length hsend
      rw [if_pos hq1] at htok
      constructor
      · intro hfeed
        simp only [feed, htok, Prod.mk.injEq, List.append_cancel_left_eq] at hfeed
        rw [hfeed.1, List.length_nil] at hshort
        rw [List.length_append, hq1, List.length_singleton] at hlen
        omega
      · intro hcut
        refine absurd ?_ (hcut [c] ⟨cs, rfl⟩)
        rw [List.flatten_singleton, hpc, unfinished_append, hq.unfinished, hq1]
    · rw [if_neg hq1] at htok
      have ih := feed_iff cs hrest hq hq1 hsend
      have hfeed : feed accept p (c :: cs) = (done ++ rest, []) ↔ feed accept q cs = (rest, []) := by
        simp only [feed, htok, List.append_cancel_left_eq, Prod.ext_iff]
      have hstep (s : List UInt8) : unfinished (done ++ rest) ((p ++ c) ++ s) = unfinished rest (q ++ s) := by
        rw [hpc, List.append_assoc, unfinished_append]
      have hfirst : unfinished (done ++ rest) p ≠ [ubxSyncCharOne] := by
        rw [hp.unfinished]
        exact hlone
      have hcuts := forall_cut_cons (fun s => unfinished (done ++ rest) s ≠ [ubxSyncCharOne]) p c cs
      rw [hfeed, ih, hcuts]
      simp only [hstep, hfirst, ne_eq, not_false_eq_true, true_and]

/-- **Framing and chunking.** A stream of well-formed messages, cut into `UART_DATA` events that fit, is handed on as
exactly those messages, with nothing left, iff no event ends between the two sync bytes of a frame: at no event's end
is a lone `0xB5` all there is behind the messages complete so far. -/
theorem framing_iff {ms : List Msg} (hms : ∀ m ∈ ms, m.WellFormed accept) {s : RxBuf} (hs : s.currDataLen = 0)
    {evs : List (List DriverRead)} (hfit : EventsFit accept s evs)
    (hbytes : (evs.map eventBytes).flatten = streamOf ms) :
    ((s.uartDataEvents accept evs).1 = ms ∧ (s.uartDataEvents accept evs).2.currDataLen = 0) ↔
      ∀ pre, pre <+: evs → unfinished ms (pre.map eventBytes).flatten ≠ [ubxSyncCharOne] := by
  have hlive : s.live = [] := List.length_eq_zero_iff.1 (by rw [s.length_live, hs])
  obtain ⟨h₁, h₂⟩ := uartDataEvents_eq_feed accept hfit
  rw [hlive] at h₁ h₂
  have hiff := feed_iff (evs.map eventBytes) (p := []) hms
    ⟨List.nil_prefix, fun m hm => List.length_pos_iff.2 (hms m (List.mem_of_mem_head? hm)).complete.bytes_ne⟩
    (by simp) (by simpa using hbytes)
  have hend : (s.uartDataEvents accept evs).2.currDataLen = 0 ↔ (feed accept [] (evs.map eventBytes)).2 = [] := by
    rw [← h₂, ← List.length_eq_zero_iff, RxBuf.length_live]
  rw [h₁, hend, ← Prod.mk.injEq, hiff]
  constructor
  · intro h pre hpre
    exact h (pre.map eventBytes) (hpre.map eventBytes)
  · intro h pre hpre
    obtain ⟨pre', hpre', rfl⟩ := List.prefix_map_iff.1 hpre
    exact h pre' hpre'

/-- A poll request for NAV-PVT, as sent to a receiver. -/
def pollFrame : List UInt8 := [ubxSyncCharOne, ubxSyncCharTwo, 0x01, 0x07, 0x00, 0x00, 0x08, 0x19]

theorem wellFormed_poll : ∀ m ∈ [Msg.ubx pollFrame], m.WellFormed (· == pollFrame) := by
  intro m hm
  rw [List.mem_singleton.1 hm]
  exact ⟨⟨0x01, 0x07, 0x00, 0x00, [], 0x08, 0x19, rfl, rfl⟩, by decide, by decide⟩

/-- The frame arrives in two events of `n` and `8 - n` bytes. -/
def pollEvents (n : Nat) : List (List DriverRead) := [[⟨n, pollFrame.take n⟩], [⟨8 - n, pollFrame.drop n⟩]]

/-- Cut between its sync bytes, the frame is lost. -/
theorem framing_cut_in_sync :
    (∀ m ∈ [Msg.ubx pollFrame], m.WellFormed (· == pollFrame)) ∧ EventsFit (· == pollFrame) emptyBuf (pollEvents 1) ∧
    ((pollEvents 1).map eventBytes).flatten = streamOf [.ubx pollFrame] ∧
    (emptyBuf.uartDataEvents (· == pollFrame) (pollEvents 1)).1 = [] := by
  have hfit : EventsFit (· == pollFrame) emptyBuf (pollEvents 1) :=
    eventsFit_of_total _ (by decide) (by decide) (by decide)
  refine ⟨wellFormed_poll, hfit, by decide, ?_⟩
  rw [(uartDataEvents_eq_feed _ hfit).1, live_emptyBuf]
  decide

/-- The frame cut behind its sync bytes. -/
theorem framing_iff_poll :
    ((emptyBuf.uartDataEvents (· == pollFrame) (pollEvents 2)).1 = [.ubx pollFrame] ∧
        (emptyBuf.uartDataEvents (· == pollFrame) (pollEvents 2)).2.currDataLen = 0) ↔
      ∀ pre, pre <+: pollEvents 2 → unfinished [.ubx pollFrame] (pre.map eventBytes).flatten ≠ [ubxSyncCharOne] :=
  framing_iff wellFormed_poll rfl (eventsFit_of_total _ (by decide) (by decide) (by decide)) (by decide)

end TrackIt.Framer
