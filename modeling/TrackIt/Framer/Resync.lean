import TrackIt.Framer.Chunking
import TrackIt.Framer.Task

/-!
# Resynchronising after damage

What stands in front of a damaged message's end must not take the messages behind it along. The framer has three
guards for that, and each of them covers less than it is meant to:

- `rejected_frame_iff`: a complete frame that is rejected is dropped at once iff it and what follows it are more than
  75 % of the buffer; otherwise it is taken for an incomplete one, and everything behind it waits;
- `abandoned_iff`: a candidate that declares more than the buffer holds is given up iff the loop never meets it with
  more than 75 % of the buffer, for the length is compared first;
- `resync_iff`: a truncated sentence is dropped at a second `$` or past 100 bytes iff the framer looks at it before the
  CR LF of the next one has arrived.
-/

namespace TrackIt.Framer

open TrackIt.Lib

variable {accept : List UInt8 → Bool}

/-- A buffer that holds `b` and nothing else. -/
def bufOf (b : List UInt8) (h : b.length ≤ uartRxBufSize) : RxBuf := emptyBuf.receive b (by simpa [emptyBuf] using h)

@[simp] theorem live_bufOf (b : List UInt8) (h : b.length ≤ uartRxBufSize) : (bufOf b h).live = b := by
  rw [bufOf, RxBuf.live_receive, live_emptyBuf, List.nil_append]

/-! ## Rejected frames -/

theorem nextUbx_rejected {c : List UInt8} (hc : Frame c) (ha : ¬ accept c) (rest : List UInt8) :
    nextUbx accept (c ++ rest) =
      if 4608 < c.length + rest.length then .retry (c ++ rest).tail else .wait (c ++ rest) := by
  have hge := declaredLen_ge c
  have hself := hc.declaredLen_self
  have hlen : declaredLen (c ++ rest) = c.length := by rw [declaredLen_append rest (by omega), hself]
  unfold nextUbx
  rw [hlen, List.take_left, if_neg (by rw [List.length_append]; omega), if_neg ha, List.length_append]

theorem tokens_rejected {c : List UInt8} (hc : Frame c) (ha : ¬ accept c) (hd : dollar ∉ c.tail)
    (hs : ubxSyncCharOne ∉ c.tail) {ms : List Msg} (hms : ∀ m ∈ ms, m.Complete accept) (hne : ms ≠ []) :
    tokens accept (c ++ streamOf ms) =
      if 4608 < c.length + (streamOf ms).length then (ms, []) else ([], c ++ streamOf ms) := by
  obtain ⟨d, rfl⟩ := hc.sync
  have hstart : next accept (ubxSyncCharOne :: ubxSyncCharTwo :: d ++ streamOf ms) =
      nextUbx accept (ubxSyncCharOne :: ubxSyncCharTwo :: d ++ streamOf ms) := by
    unfold next
    rw [List.cons_append, List.cons_append, findStart_sync]
  rw [tokens_eq accept (by simp), hstart, nextUbx_rejected hc ha]
  by_cases hfill : 4608 < (ubxSyncCharOne :: ubxSyncCharTwo :: d).length + (streamOf ms).length
  · -- the rest of the frame starts nothing
    have hnoise : next accept (ubxSyncCharTwo :: d ++ streamOf ms) = next accept (streamOf ms) :=
      next_noise (streamOf ms) hd hs
    have hall := tokens_flatten [] hms
    have hstream : streamOf ms ≠ [] := by
      obtain ⟨m, ms', rfl⟩ := List.exists_cons_of_ne_nil hne
      simp [(hms m List.mem_cons_self).bytes_ne]
    rw [if_pos hfill, if_pos hfill]
    simp only [List.cons_append, List.tail_cons] at hnoise ⊢
    rw [tokens_eq accept (by simp), hnoise, ← tokens_eq accept hstream]
    simpa using hall
  · rw [if_neg hfill, if_neg hfill]

/-- **A rejected frame holds up what follows it** exactly while it and what follows are at most 75 % of the buffer. -/
theorem rejected_frame_iff {c : List UInt8} (hc : Frame c) (ha : ¬ accept c) (hd : dollar ∉ c.tail)
    (hs : ubxSyncCharOne ∉ c.tail) {ms : List Msg} (hms : ∀ m ∈ ms, m.Complete accept) (hne : ms ≠ []) {s : RxBuf}
    (hlive : s.live = c ++ streamOf ms) (hpos : 0 < s.currDataLen) :
    ((s.parseUartUbxMessage accept ⟨0, hpos⟩).result = .corrupt ∧ (s.innerLoop accept).1 = ms ∧
        (s.innerLoop accept).2.currDataLen = 0) ↔
      4608 < c.length + (streamOf ms).length := by
  have hparse := parseUartUbxMessage_is accept s ⟨0, hpos⟩
  obtain ⟨h₁, h₂⟩ := innerLoop_eq_tokens accept s
  rw [List.drop_zero, hlive, nextUbx_rejected hc ha] at hparse
  rw [hlive, tokens_rejected hc ha hd hs hms hne] at h₁ h₂
  by_cases hfill : 4608 < c.length + (streamOf ms).length
  · rw [if_pos hfill] at hparse h₁ h₂
    exact ⟨fun _ => hfill, fun _ => ⟨hparse.1, h₁, by rw [← RxBuf.length_live, h₂]; rfl⟩⟩
  · rw [if_neg hfill] at hparse
    refine ⟨fun h => ?_, fun h => absurd h hfill⟩
    rw [hparse.1] at h
    exact absurd h.1 (by decide)

/-- The poll request with a wrong checksum. -/
def badPoll : List UInt8 := [ubxSyncCharOne, ubxSyncCharTwo, 0x01, 0x07, 0x00, 0x00, 0x00, 0x00]

theorem frame_badPoll : Frame badPoll := ⟨0x01, 0x07, 0x00, 0x00, [], 0x00, 0x00, rfl, rfl⟩

/-- A rejected frame and an accepted one behind it: nothing is handed on. -/
theorem rejected_frame_waits :
    Frame badPoll ∧ ¬ (badPoll == pollFrame) ∧ dollar ∉ badPoll.tail ∧ ubxSyncCharOne ∉ badPoll.tail ∧
    (∀ m ∈ [Msg.ubx pollFrame], m.Complete (· == pollFrame)) ∧
    ((bufOf (badPoll ++ streamOf [.ubx pollFrame]) (by decide)).innerLoop (· == pollFrame)).1 = [] := by
  refine ⟨frame_badPoll, by decide, by decide, by decide, fun m hm => (wellFormed_poll m hm).complete, ?_⟩
  rw [(innerLoop_eq_tokens _ _).1, live_bufOf]
  decide

theorem length_streamOf_replicate (n : Nat) (m : Msg) :
    (streamOf (List.replicate n m)).length = n * m.bytes.length := by
  induction n with
  | zero => simp
  | succ n ih => rw [List.replicate_succ, streamOf_cons, List.length_append, ih, Nat.succ_mul]; omega

theorem rejected_frame_polls :
    let ms := List.replicate 600 (Msg.ubx pollFrame)
    ∃ s : RxBuf, s.live = badPoll ++ streamOf ms ∧ ∃ hpos : 0 < s.currDataLen,
      (((s.parseUartUbxMessage (· == pollFrame) ⟨0, hpos⟩).result = .corrupt ∧
          (s.innerLoop (· == pollFrame)).1 = ms ∧ (s.innerLoop (· == pollFrame)).2.currDataLen = 0) ↔
        4608 < badPoll.length + (streamOf ms).length) ∧ 4608 < badPoll.length + (streamOf ms).length := by
  intro ms
  have hlen : (streamOf ms).length = 4800 := length_streamOf_replicate 600 _
  have hsize : (badPoll ++ streamOf ms).length ≤ uartRxBufSize := by
    rw [List.length_append, hlen]; decide
  have hpos : 0 < (bufOf _ hsize).currDataLen := by
    rw [← RxBuf.length_live, live_bufOf, List.length_append, hlen]; decide
  have hms : ∀ m ∈ ms, m.Complete (· == pollFrame) := fun m hm => by
    rw [List.eq_of_mem_replicate hm]
    exact (wellFormed_poll _ List.mem_cons_self).complete
  have hne : ms ≠ [] := List.ne_nil_of_length_pos (by rw [List.length_replicate]; decide)
  refine ⟨_, live_bufOf _ hsize, hpos, ?_, by rw [hlen]; decide⟩
  exact rejected_frame_iff frame_badPoll (by decide) (by decide) (by decide) hms hne (live_bufOf _ hsize) hpos

/-! ## Candidates that declare too much -/

/-- The inner loop has just ended: its condition is false. -/
def World.LoopEnded (w : World) : Prop :=
  ∃ processed, w.pc = .framing processed ∧ ¬ (processed = true ∧ 0 < w.buf.currDataLen)

/-- With the loop ended, a candidate in front of more than 75 % of the buffer can still become complete in it. -/
def World.CanComplete (w : World) : Prop :=
  w.LoopEnded → [ubxSyncCharOne, ubxSyncCharTwo] <+: w.buf.live → 4608 < w.buf.currDataLen →
    declaredLen w.buf.live ≤ uartRxBufSize

/-- The iteration looks at a candidate that, with what follows it, is more than 75 % of the buffer, and declares more
than the buffer holds. -/
def MeetsOverlong (w : World) : Label → Prop
  | .iterate _ => ∃ c, findStart w.buf.live = some (.ubx, c) ∧ 4608 < c.length ∧ uartRxBufSize < declaredLen c
  | _ => False

/-- An iteration ends the loop in front of such a candidate iff it looks at one. -/
theorem canComplete_iterate (w : World) :
    (w.afterIteration (w.buf.iterate accept)).CanComplete ↔ ¬ MeetsOverlong w (.iterate accept) := by
  have his := iterate_is accept w.buf
  constructor
  · rintro hcan ⟨c, hs, hfill, hover⟩
    have hlen : c.length ≤ uartRxBufSize := by
      obtain ⟨skip, hskip, -⟩ := findStart_spec hs
      have := w.buf.len_le
      rw [← RxBuf.length_live, hskip, List.length_append] at this
      omega
    have hwait : next accept w.buf.live = .wait c := by
      rw [next_of_ubx hs, nextUbx, if_pos (by omega)]
    rw [hwait] at his
    obtain ⟨hp, -, hl⟩ := his
    obtain ⟨-, -, -, hu⟩ := findStart_spec hs
    obtain ⟨d, rfl⟩ := hu rfl
    refine absurd (hcan ⟨false, by rw [World.afterIteration, hp], by simp⟩ ?_ ?_) ?_
    · exact ⟨d, hl.symm⟩
    · rw [← RxBuf.length_live]; simpa only [World.afterIteration, hl] using hfill
    · simpa only [World.afterIteration, hl] using Nat.not_le.2 hover
  · intro hmeet hended hsync hfill
    obtain ⟨processed, hpc, hend⟩ := hended
    obtain rfl : (w.buf.iterate accept).processed = processed := Pc.framing.inj hpc
    cases hnext : next accept w.buf.live with
    | dispatch m rest => rw [hnext] at his; exact absurd ⟨his.1, by omega⟩ hend
    | retry rest => rw [hnext] at his; exact absurd ⟨his.1, by omega⟩ hend
    | wait c =>
      rw [hnext] at his
      obtain ⟨-, -, hl⟩ := his
      rw [← RxBuf.length_live] at hfill
      simp only [World.afterIteration, hl] at hsync hfill ⊢
      obtain ⟨d, rfl⟩ := hsync
      rcases next_wait hnext with ⟨-, hc⟩ | ⟨hs, -⟩ | ⟨hs, -⟩
      · cases hc
      · obtain ⟨-, -, hn, -⟩ := findStart_spec hs
        obtain ⟨d', hd'⟩ := hn rfl
        exact absurd (List.cons.inj hd').1.symm dollar_ne_sync
      · exact Nat.not_lt.1 fun hover => hmeet ⟨_, hs, hfill, hover⟩

/-- From boot, the bytes of one event that fit are what the inner loop starts with. -/
theorem boot_run (s : RxBuf) {rs : List DriverRead} (h : DrainFits 0 rs) : ∃ tr w, Run Step (World.boot s) tr w ∧
    w.pc = .framing true ∧ w.buf.live = eventBytes rs ∧ w.dispatched = [] := by
  obtain ⟨tr, w, hr, hpc, hbuf, hdis⟩ := drain_run rs { World.boot s with pc := .draining } rfl
  refine ⟨_, w, .cons (.data _ .data rfl (.inl rfl)) hr, hpc, ?_, hdis⟩
  have hfit : DrainFits (World.boot s).buf.currDataLen rs := h
  rw [hbuf, live_drainUartRxBuf hfit]
  simp [World.boot]

/-- **A candidate that declares more than the buffer holds is given up at 75 %** in exactly the runs whose iterations
never meet one with more than that behind it. -/
theorem abandoned_iff {s : RxBuf} {tr : List (World × Label)} {w : World} (h : Run Step (World.boot s) tr w) :
    (∀ x ∈ Run.states tr w, x.CanComplete) ↔ ∀ p ∈ tr, ¬ MeetsOverlong p.1 p.2 := by
  refine Run.exact_states (C := fun w l => ¬ MeetsOverlong w l) ?_ ?_ (fun _ hcan => hcan) ?_ h
  · rintro ⟨processed, hpc, -⟩
    cases hpc
  · intro w l w' _ hC hs
    cases hs with
    | data e hpc he => rintro ⟨processed, hpc', -⟩; cases hpc'
    | other type hpc => rintro ⟨processed, hpc', -⟩; simp [hpc] at hpc'
    | read r s hpc hs => rintro ⟨processed, hpc', -⟩; simp [hpc] at hpc'
    | drained r hpc hs =>
      rintro ⟨processed, hpc', hend⟩ - hfill
      cases hpc'
      exact absurd ⟨rfl, by omega⟩ hend
    | iterate accept hpc hlen => exact (canComplete_iterate w).2 hC
    | framed processed hpc hend => rintro ⟨processed, hpc', -⟩; cases hpc'
  · intro w l w' _ hC hs
    cases hs with
    | iterate accept hpc hlen => exact fun hcan => hC ((canComplete_iterate w).1 hcan)
    | _ => exact absurd id hC

/-- A header that declares 65535 bytes of payload. -/
def overlongHeader : List UInt8 := [ubxSyncCharOne, ubxSyncCharTwo, 0x01, 0x07, 0xFF, 0xFF]

/-- The header and 4603 more bytes in one event: the loop ends with all of them in the buffer. -/
theorem overlong_kept : ∃ tr w, Run Step (World.boot emptyBuf) tr w ∧ w.LoopEnded ∧
    [ubxSyncCharOne, ubxSyncCharTwo] <+: w.buf.live ∧ 4608 < w.buf.currDataLen ∧
    uartRxBufSize < declaredLen w.buf.live := by
  have hlen : (overlongHeader ++ List.replicate 4603 0).length = 4609 := by
    rw [List.length_append, List.length_replicate]; rfl
  have hdecl : declaredLen (overlongHeader ++ List.replicate 4603 0) = 65543 :=
    declaredLen_append _ (Nat.le_refl 6)
  have hstart : findStart (overlongHeader ++ List.replicate 4603 0) =
      some (.ubx, overlongHeader ++ List.replicate 4603 0) := findStart_sync _
  have hfit : DrainFits 0 [⟨4609, overlongHeader ++ List.replicate 4603 0⟩] :=
    ⟨by decide, hlen.le, by decide, trivial⟩
  obtain ⟨tr, w, hr, hpc, hlive, -⟩ := boot_run emptyBuf hfit
  simp only [eventBytes, List.map_singleton, List.flatten_singleton] at hlive
  have hcurr : 0 < w.buf.currDataLen := by rw [← RxBuf.length_live, hlive, hlen]; decide
  have hwait : next (fun _ => false) w.buf.live = .wait w.buf.live := by
    rw [hlive, next_of_ubx hstart, nextUbx, if_pos (by omega)]
  have his := iterate_is (fun _ => false) w.buf
  rw [hwait] at his
  obtain ⟨hp, -, hl⟩ := his
  refine ⟨_, _, hr.snoc (.iterate w (fun _ => false) hpc hcurr), ⟨false, ?_, by simp⟩, ?_⟩
  · rw [World.afterIteration, hp]
  rw [← RxBuf.length_live]
  simp only [World.afterIteration, hl, hlive, hlen, hdecl]
  exact ⟨⟨_, rfl⟩, by decide, by decide⟩

/-- A run that receives the header alone. -/
theorem abandoned_iff_header : ∃ tr w, Run Step (World.boot emptyBuf) tr w ∧ w.buf.live = overlongHeader ∧
    ((∀ x ∈ Run.states tr w, x.CanComplete) ↔ ∀ p ∈ tr, ¬ MeetsOverlong p.1 p.2) := by
  have hfit : DrainFits 0 [⟨6, overlongHeader⟩] := ⟨by decide, by decide, by decide, trivial⟩
  obtain ⟨tr, w, hr, -, hlive, -⟩ := boot_run emptyBuf hfit
  exact ⟨tr, w, hr, hlive, abandoned_iff hr⟩

/-! ## Truncated sentences -/

/-- The iteration looks at a `$` whose first CR LF pair is in the buffer, behind a second `$` or more than 100 bytes. -/
def MeetsSwallowed (w : World) : Label → Prop
  | .iterate _ => ∃ c e, findStart w.buf.live = some (.nmea, c) ∧ findPat [cr, lf] c = some e ∧
      (dollar ∈ (c.take e).tail ∨ 100 < e)
  | _ => False

/-- Every string handed on has `$` only in front and at most 100 bytes before its CR LF. -/
def World.StringsWhole (w : World) : Prop := ∀ b, Msg.nmea b ∈ w.dispatched → dollar ∉ b.tail ∧ b.length ≤ 102

theorem whole_take_iff {c : List UInt8} {e : Nat} (hc : ∃ d, c = dollar :: d) (h : findPat [cr, lf] c = some e) :
    (dollar ∉ (c.take (e + 2)).tail ∧ (c.take (e + 2)).length ≤ 102) ↔ ¬ (dollar ∈ (c.take e).tail ∨ 100 < e) := by
  obtain ⟨d, rfl⟩ := hc
  obtain ⟨u, v, huv, rfl, -⟩ := findPat_spec (by simp) h
  have htake : (dollar :: d).take (u.length + 2) = u ++ [cr, lf] := by rw [huv]; exact List.take_left' (by simp)
  have htake' : (dollar :: d).take u.length = u := by rw [huv, List.append_assoc]; exact List.take_left' rfl
  have hne : u ≠ [] := by
    rintro rfl
    exact dollar_ne_cr (List.cons.inj huv).1
  have hcr : dollar ∉ [cr, lf] := by decide
  have hlen : (u ++ [cr, lf]).length ≤ 102 ↔ ¬ 100 < u.length := by
    rw [List.length_append, List.length_cons, List.length_singleton]
    omega
  rw [htake, htake', List.tail_append_of_ne_nil hne, List.mem_append, hlen, not_or, not_or]
  exact and_congr_left fun _ => and_iff_left hcr

/-- An iteration hands on a string that is too much iff it looks at such a `$`. -/
theorem stringsWhole_iterate {w : World} (hw : w.StringsWhole) :
    (w.afterIteration (w.buf.iterate accept)).StringsWhole ↔ ¬ MeetsSwallowed w (.iterate accept) := by
  have his := iterate_is accept w.buf
  constructor
  · rintro hafter ⟨c, e, hs, hf, hbad⟩
    obtain ⟨-, -, hn, -⟩ := findStart_spec hs
    rw [next_nmea_iff.2 ⟨c, e, hs, hf, rfl, rfl⟩] at his
    have hmem : Msg.nmea (c.take (e + 2)) ∈ (w.afterIteration (w.buf.iterate accept)).dispatched := by
      simp [World.afterIteration, his.2.1]
    exact (whole_take_iff (hn rfl) hf).1 (hafter _ hmem) hbad
  · intro hmeet b hb
    rcases List.mem_append.1 hb with hb | hb
    · exact hw b hb
    cases hnext : next accept w.buf.live with
    | dispatch m rest =>
      rw [hnext] at his
      rw [his.2.1, Option.toList_some, List.mem_singleton] at hb
      subst hb
      obtain ⟨c, e, hs, hf, rfl, -⟩ := next_nmea_iff.1 hnext
      obtain ⟨-, -, hn, -⟩ := findStart_spec hs
      exact (whole_take_iff (hn rfl) hf).2 fun hbad => hmeet ⟨c, e, hs, hf, hbad⟩
    | retry rest => rw [hnext] at his; rw [his.2.1] at hb; cases hb
    | wait rest => rw [hnext] at his; rw [his.2.1] at hb; cases hb

theorem stringsWhole_run {s : RxBuf} {tr : List (World × Label)} {w : World} (h : Run Step (World.boot s) tr w) :
    (∀ x ∈ Run.states tr w, x.StringsWhole) ↔ ∀ p ∈ tr, ¬ MeetsSwallowed p.1 p.2 := by
  refine Run.exact_states (C := fun w l => ¬ MeetsSwallowed w l) ?_ ?_ (fun _ hw => hw) ?_ h
  · intro b hb
    simp [World.boot] at hb
  · intro w l w' hw hC hs
    cases hs with
    | iterate accept hpc hlen => exact (stringsWhole_iterate hw).2 hC
    | _ => exact hw
  · intro w l w' hw hC hs
    cases hs with
    | iterate accept hpc hlen => exact fun hafter => hC ((stringsWhole_iterate hw).1 hafter)
    | _ => exact absurd id hC

/-- `$` and fewer than 100 bytes that start nothing, without a CR LF pair. -/
def Truncated (x : List UInt8) : Prop :=
  ∃ body, x = dollar :: body ∧ body.length < 100 ∧ dollar ∉ body ∧ ubxSyncCharOne ∉ body ∧ ¬ [cr, lf] <:+: x

/-- What is passed to `handle_nmea_msg`. -/
def strings (ms : List Msg) : List (List UInt8) := ms.filterMap fun
  | .nmea b => some b
  | .ubx _ => none

/-- A truncated sentence, or a part of it, is waited for. -/
theorem tokens_truncated {x q : List UInt8} (hx : Truncated x) (hq : q <+: x) : tokens accept q = ([], q) := by
  obtain ⟨body, rfl, hlen, hd, -, hno⟩ := hx
  cases q with
  | nil => rfl
  | cons y q =>
    obtain ⟨rfl, hq'⟩ := List.cons_prefix_cons.1 hq
    have hle := hq'.length_le
    rw [tokens_eq accept (by simp), next_of_nmea (findStart_dollar q),
      nextNmea_wait (fun hi => hno (hi.trans hq.isInfix)) (by omega) fun hm => hd (hq'.subset hm)]

/-- With a part of the next sentence behind it, it is dropped. -/
theorem tokens_truncated_part {x b p : List UInt8} (hx : Truncated x) (hb : (Msg.nmea b).WellFormed accept)
    (hp : p <+: b) (hlt : p.length < b.length) (hne : p ≠ []) : tokens accept (x ++ p) = ([], p) := by
  obtain ⟨body, rfl, -, hd, hs, hno⟩ := hx
  have hpart := next_partial hb (p := p) hp hlt hne
  obtain ⟨⟨sbody, rfl, hsno, -⟩, -⟩ := hb
  obtain ⟨y, q, rfl⟩ := List.exists_cons_of_ne_nil hne
  obtain ⟨rfl, -⟩ := List.cons_prefix_cons.1 hp
  obtain ⟨-, hpno⟩ := part_of_sentence hsno hp hlt
  have hall : ¬ [cr, lf] <:+: dollar :: (body ++ dollar :: q) := not_infix_append_cons dollar_ne_lf.symm hpno hno
  rw [if_neg (dollar_cons_ne_lone q)] at hpart
  rw [List.cons_append, tokens_eq accept (by simp), next_of_nmea (findStart_dollar _),
    nextNmea_retry hall (.inr (by simp))]
  dsimp only
  rw [tokens_eq accept (by simp), next_noise _ hd hs, hpart]

/-- With the whole of the next sentence behind it, both are taken for one. -/
theorem tokens_truncated_whole {x b : List UInt8} (hx : Truncated x) (hb : (Msg.nmea b).WellFormed accept) :
    tokens accept (x ++ b) = ([.nmea (x ++ b)], []) := by
  obtain ⟨body, rfl, -, -, -, hno⟩ := hx
  obtain ⟨⟨sbody, rfl, hsno, -⟩, -⟩ := hb
  have hall : ¬ [cr, lf] <:+: dollar :: body ++ dollar :: (sbody ++ [cr]) :=
    not_infix_append_cons dollar_ne_lf.symm (crlf_first hsno) hno
  have hone : Msg.Complete accept (.nmea (dollar :: body ++ (dollar :: sbody ++ [cr, lf]))) :=
    ⟨body ++ dollar :: sbody, by simp, fun hi => hall (hi.trans ⟨[dollar], [cr], by simp⟩)⟩
  simpa [Msg.bytes] using tokens_flatten [] (List.forall_mem_singleton.2 hone)

/-- A proper part of a sentence, and then the rest of it however it is cut. -/
theorem feed_rest {b p : List UInt8} (hb : (Msg.nmea b).WellFormed accept) (hp : p <+: b) (hlt : p.length < b.length)
    {cs : List (List UInt8)} (hall : p ++ cs.flatten = b) : feed accept p cs = ([.nmea b], []) := by
  obtain ⟨body, hbody, -⟩ := hb.1
  have hlone : ∀ q, q <+: b → q ≠ [ubxSyncCharOne] := by
    rintro q ⟨r, hr⟩ rfl
    rw [hbody] at hr
    exact dollar_ne_sync (List.cons.inj hr).1.symm
  have hpart : PartOf p [.nmea b] := ⟨by simpa [Msg.bytes] using hp, by simpa [Msg.bytes] using hlt⟩
  refine (feed_iff cs (List.forall_mem_singleton.2 hb) hpart (hlone p hp) (by simpa [Msg.bytes] using hall)).2 ?_
  intro pre hpre
  have hpre' : p ++ pre.flatten <+: b := by
    obtain ⟨suf, rfl⟩ := hpre
    exact ⟨suf.flatten, by simpa using hall⟩
  rw [unfinished]
  split
  · rw [unfinished, List.drop_eq_nil_of_le (by simpa [Msg.bytes] using hpre'.length_le)]
    simp
  · exact hlone _ hpre'

theorem feed_flatten_nil : ∀ {cs : List (List UInt8)}, cs.flatten = [] → feed accept [] cs = ([], [])
  | [], _ => rfl
  | c :: cs, h => by
    rw [List.flatten_cons, List.append_eq_nil_iff] at h
    rw [h.1]
    simp [feed, feed_flatten_nil h.2]

/-- The rest of a truncated sentence and the next sentence: either an event ends inside the next one, which is then
handed on, or the two are handed on as one string. -/
theorem feed_truncated {x b : List UInt8} (hx : Truncated x) (hb : (Msg.nmea b).WellFormed accept) :
    ∀ (cs : List (List UInt8)) {q : List UInt8}, q <+: x → q ++ cs.flatten = x ++ b →
    let cut := ∃ pre, pre <+: cs ∧ x.length < (q ++ pre.flatten).length ∧
      (q ++ pre.flatten).length < x.length + b.length
    (feed accept q cs).1 = [.nmea b] ∧ cut ∨ (feed accept q cs).1 = [.nmea (x ++ b)] ∧ ¬ cut
  | [], q, hq, hall => by
    have hle := hq.length_le
    have hlen := congrArg List.length hall
    have hpos := List.length_pos_iff.2 hb.complete.bytes_ne
    simp only [Msg.bytes, List.flatten_nil, List.length_append, List.length_nil] at hlen hpos
    omega
  | c :: cs, q, hq, hall => by
    intro cut
    rw [List.flatten_cons, ← List.append_assoc] at hall
    have hlen := congrArg List.length hall
    have hle := hq.length_le
    simp only [List.length_append] at hlen
    -- the leftover itself is no cut
    have hcut : cut ↔ ∃ pre, pre <+: cs ∧ x.length < ((q ++ c) ++ pre.flatten).length ∧
        ((q ++ c) ++ pre.flatten).length < x.length + b.length := by
      refine (exists_cut_cons (fun s => x.length < s.length ∧ s.length < x.length + b.length) q c cs).trans
        (or_iff_right ?_)
      rintro ⟨hlt, -⟩
      omega
    rw [hcut]
    by_cases hshort : (q ++ c).length ≤ x.length
    · -- still inside the truncated sentence
      have hqc : q ++ c <+: x := List.prefix_of_prefix_length_le ⟨cs.flatten, hall⟩ ⟨b, rfl⟩ hshort
      have ih := feed_truncated hx hb cs hqc hall
      simpa only [feed, tokens_truncated hx hqc, List.nil_append] using ih
    · by_cases hwhole : (q ++ c).length < x.length + b.length
      · -- the event ends inside the next sentence
        obtain ⟨p, hp⟩ : x <+: q ++ c := List.prefix_of_prefix_length_le ⟨b, rfl⟩ ⟨cs.flatten, hall⟩ (by omega)
        have hrest : p ++ cs.flatten = b := by
          rw [← hp, List.append_assoc] at hall
          exact List.append_cancel_left hall
        have hplen : x.length + p.length = (q ++ c).length := by rw [← hp, List.length_append]
        have hpb : p <+: b := ⟨cs.flatten, hrest⟩
        have htok := tokens_truncated_part hx hb hpb (by omega) (List.length_pos_iff.1 (by omega))
        left
        refine ⟨?_, [], List.nil_prefix, by simpa using hshort, by simpa using hwhole⟩
        simp only [feed, ← hp, htok, feed_rest hb hpb (by omega) hrest, List.nil_append]
      · -- both are complete in the buffer
        have hqc : q ++ c = x ++ b := by
          refine List.IsPrefix.eq_of_length ⟨cs.flatten, hall⟩ ?_
          simp only [List.length_append] at hwhole ⊢
          omega
        have hnil : cs.flatten = [] := List.append_cancel_left (hall.trans (by rw [hqc, List.append_nil]))
        right
        constructor
        · simp only [feed, hqc, tokens_truncated_whole hx hb, feed_flatten_nil hnil, List.append_nil]
        · rintro ⟨pre, -, -, hlt⟩
          rw [List.length_append] at hlt
          omega

/-- **A truncated sentence takes the next one with it** exactly when the framer first looks at it after the CR LF of
the next one has arrived. In a run, every string handed on has one `$` and at most 102 bytes iff no iteration looks at
a `$` whose first CR LF is in the buffer behind a second `$` or more than 100 bytes. For one truncated sentence, the
next sentence alone is handed on iff an event ends inside it. -/
theorem resync_iff (s : RxBuf) (accept : List UInt8 → Bool) :
    (∀ tr w, Run Step (World.boot s) tr w →
      ((∀ y ∈ Run.states tr w, ∀ b, Msg.nmea b ∈ y.dispatched → dollar ∉ b.tail ∧ b.length ≤ 102) ↔
        ∀ p ∈ tr, ¬ MeetsSwallowed p.1 p.2)) ∧
    (∀ x b evs, Truncated x → (Msg.nmea b).WellFormed accept → EventsFit accept s.clear evs →
      (evs.map eventBytes).flatten = x ++ b →
      (strings (s.clear.uartDataEvents accept evs).1 = [b] ↔
        ∃ pre, pre <+: evs ∧ x.length < (pre.map eventBytes).flatten.length ∧
          (pre.map eventBytes).flatten.length < x.length + b.length)) := by
  refine ⟨fun tr w h => stringsWhole_run h, fun x b evs hx hb hfit hall => ?_⟩
  have hfeed := (uartDataEvents_eq_feed accept hfit).1
  rw [RxBuf.live_clear] at hfeed
  have hcut : (∃ pre, pre <+: evs.map eventBytes ∧ x.length < ([] ++ pre.flatten).length ∧
      ([] ++ pre.flatten).length < x.length + b.length) ↔ ∃ pre, pre <+: evs ∧
      x.length < (pre.map eventBytes).flatten.length ∧ (pre.map eventBytes).flatten.length < x.length + b.length := by
    constructor
    · rintro ⟨pre, hpre, h₁, h₂⟩
      obtain ⟨pre', hpre', rfl⟩ := List.prefix_map_iff.1 hpre
      exact ⟨pre', hpre', h₁, h₂⟩
    · rintro ⟨pre, hpre, h₁, h₂⟩
      exact ⟨_, hpre.map eventBytes, h₁, h₂⟩
  have htwo : x ++ b ≠ b := by
    obtain ⟨body, rfl, -⟩ := hx
    intro he
    have := congrArg List.length he
    rw [List.length_append, List.length_cons] at this
    omega
  rw [hfeed, ← hcut]
  rcases feed_truncated hx hb (evs.map eventBytes) List.nil_prefix hall with ⟨h, hc⟩ | ⟨h, hc⟩
  · exact ⟨fun _ => hc, fun _ => by rw [h]; rfl⟩
  · refine ⟨fun hs => ?_, fun hc' => absurd hc' hc⟩
    rw [h] at hs
    exact absurd (List.cons.inj hs).1 htwo

def truncatedSentence : List UInt8 := [dollar, 0x47, 0x50]

def wholeSentence : List UInt8 := [dollar, 0x47, 0x4E, cr, lf]

/-- The truncated sentence and the whole one in `n` bytes and the rest. -/
def sentenceEvents (n : Nat) : List (List DriverRead) :=
  [[⟨n, (truncatedSentence ++ wholeSentence).take n⟩], [⟨8 - n, (truncatedSentence ++ wholeSentence).drop n⟩]]

theorem truncated_truncatedSentence : Truncated truncatedSentence :=
  ⟨[0x47, 0x50], rfl, by decide, by decide, by decide, by decide⟩

theorem wellFormed_wholeSentence : (Msg.nmea wholeSentence).WellFormed accept :=
  ⟨⟨[0x47, 0x4E], rfl, by decide, by decide, by simp⟩, by decide⟩

/-- Cut between the two sentences, or not cut, they are handed on as one string with two `$`. -/
theorem truncated_swallows :
    Truncated truncatedSentence ∧ (Msg.nmea wholeSentence).WellFormed (fun _ => false) ∧
    EventsFit (fun _ => false) emptyBuf.clear (sentenceEvents 3) ∧
    ((sentenceEvents 3).map eventBytes).flatten = truncatedSentence ++ wholeSentence ∧
    strings (emptyBuf.clear.uartDataEvents (fun _ => false) (sentenceEvents 3)).1 =
      [truncatedSentence ++ wholeSentence] := by
  have hfit : EventsFit (fun _ => false) emptyBuf.clear (sentenceEvents 3) :=
    eventsFit_of_total _ (by decide) (by decide) (by decide)
  refine ⟨truncated_truncatedSentence, wellFormed_wholeSentence, hfit, by decide, ?_⟩
  rw [(uartDataEvents_eq_feed _ hfit).1, RxBuf.live_clear]
  decide

/-- Cut inside the whole sentence. -/
theorem resync_iff_cut :
    (∃ tr w, Run Step (World.boot emptyBuf) tr w ∧ w.buf.live = truncatedSentence ∧
      ((∀ y ∈ Run.states tr w, ∀ b, Msg.nmea b ∈ y.dispatched → dollar ∉ b.tail ∧ b.length ≤ 102) ↔
        ∀ p ∈ tr, ¬ MeetsSwallowed p.1 p.2)) ∧
    (strings (emptyBuf.clear.uartDataEvents (fun _ => false) (sentenceEvents 5)).1 = [wholeSentence] ↔
      ∃ pre, pre <+: sentenceEvents 5 ∧ truncatedSentence.length < (pre.map eventBytes).flatten.length ∧
        (pre.map eventBytes).flatten.length < truncatedSentence.length + wholeSentence.length) := by
  have hfit : DrainFits 0 [⟨3, truncatedSentence⟩] := ⟨by decide, by decide, by decide, trivial⟩
  obtain ⟨tr, w, hr, -, hlive, -⟩ := boot_run emptyBuf hfit
  refine ⟨⟨tr, w, hr, hlive, (resync_iff emptyBuf fun _ => false).1 tr w hr⟩, ?_⟩
  exact (resync_iff emptyBuf fun _ => false).2 _ _ _ truncated_truncatedSentence wellFormed_wholeSentence
    (eventsFit_of_total _ (by decide) (by decide) (by decide)) (by decide)

end TrackIt.Framer
