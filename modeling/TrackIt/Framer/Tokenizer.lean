import TrackIt.Framer.Parser

/-!
# The framer on byte strings

What the inner loop is for, without its buffer: `next` looks for the first place in a byte string at which a message
may start, and either hands on a message, or gives up the first byte of a start that is not one, or waits for more
bytes; `tokens` repeats it. `RxBuf.iterate` and `RxBuf.innerLoop` are these functions on the live bytes
(`iterate_is`, `innerLoop_eq_tokens`): the two searches of the source agree on the first start, and no byte behind
`curr_data_len` has a say, although `parse_uart_ubx_message` reads the length field before it has been received.
-/

namespace TrackIt.Framer

open TrackIt.Lib

inductive Kind
  | nmea
  | ubx
  deriving DecidableEq, Repr

/-- The first place at which a message may start: a `$` or a sync pair. -/
def findStart : List UInt8 → Option (Kind × List UInt8)
  | [] => none
  | x :: xs =>
    if x = dollar then some (.nmea, x :: xs)
    else if [ubxSyncCharOne, ubxSyncCharTwo] <+: x :: xs then some (.ubx, x :: xs)
    else findStart xs

/-- What is done with a byte string: hand on a message, drop bytes and look again, or wait with what is left. -/
inductive Next
  | dispatch (m : Msg) (rest : List UInt8)
  | retry (rest : List UInt8)
  | wait (rest : List UInt8)
  deriving DecidableEq, Repr

/-- A string that starts with `$`. -/
def nextNmea (b : List UInt8) : Next :=
  match findPat [cr, lf] b with
  | some e => .dispatch (.nmea (b.take (e + 2))) (b.drop (e + 2))
  | none => if 100 < b.length ∨ dollar ∈ b.tail then .retry b.tail else .wait b

/-- The length of the frame that a sync pair announces: 8 bytes and the payload length at offset 4. -/
def declaredLen (b : List UInt8) : Nat := 8 + ((b.getD 4 0).toNat ||| ((b.getD 5 0).toNat <<< 8))

/-- A string that starts with a sync pair. -/
def nextUbx (accept : List UInt8 → Bool) (b : List UInt8) : Next :=
  if b.length < declaredLen b then .wait b
  else if accept (b.take (declaredLen b)) then .dispatch (.ubx (b.take (declaredLen b))) (b.drop (declaredLen b))
  else if 4608 < b.length then .retry b.tail
  else .wait b

def next (accept : List UInt8 → Bool) (b : List UInt8) : Next :=
  match findStart b with
  | none => .wait []
  | some (.nmea, c) => nextNmea c
  | some (.ubx, c) => nextUbx accept c

def tokensN (accept : List UInt8 → Bool) : Nat → List UInt8 → List Msg × List UInt8
  | 0, b => ([], b)
  | _ + 1, [] => ([], [])
  | fuel + 1, x :: xs =>
    match next accept (x :: xs) with
    | .dispatch m rest => (m :: (tokensN accept fuel rest).1, (tokensN accept fuel rest).2)
    | .retry rest => tokensN accept fuel rest
    | .wait rest => ([], rest)

/-- The messages of a byte string, and what is left of it. -/
def tokens (accept : List UInt8 → Bool) (b : List UInt8) : List Msg × List UInt8 := tokensN accept (b.length + 1) b

/-! ## Starts -/

theorem findStart_spec : ∀ {b c : List UInt8} {k : Kind}, findStart b = some (k, c) →
    ∃ skip, b = skip ++ c ∧ (k = .nmea → ∃ d, c = dollar :: d) ∧
      (k = .ubx → ∃ d, c = ubxSyncCharOne :: ubxSyncCharTwo :: d)
  | [], _, _, h => by simp [findStart] at h
  | x :: xs, c, k, h => by
    rw [findStart] at h
    split at h
    · rename_i hx
      cases h
      exact ⟨[], rfl, fun _ => ⟨xs, by rw [hx]⟩, fun hk => by cases hk⟩
    · split at h
      · rename_i hu
        cases h
        obtain ⟨d, hd⟩ := hu
        exact ⟨[], rfl, fun hk => (by cases hk), fun _ => ⟨d, hd.symm⟩⟩
      · obtain ⟨skip, rfl, h₁, h₂⟩ := findStart_spec h
        exact ⟨x :: skip, rfl, h₁, h₂⟩

/-- Bytes that start nothing are skipped. -/
theorem findStart_noise : ∀ {noise : List UInt8} (b : List UInt8), dollar ∉ noise → ubxSyncCharOne ∉ noise →
    findStart (noise ++ b) = findStart b
  | [], _, _, _ => rfl
  | x :: noise, b, hd, hs => by
    simp only [List.mem_cons, not_or] at hd hs
    have hpre : ¬ [ubxSyncCharOne, ubxSyncCharTwo] <+: x :: (noise ++ b) := fun h =>
      hs.1 (List.cons_prefix_cons.1 h).1
    rw [List.cons_append, findStart, if_neg (Ne.symm hd.1), if_neg hpre]
    exact findStart_noise b hd.2 hs.2

@[simp] theorem findStart_dollar (b : List UInt8) : findStart (dollar :: b) = some (.nmea, dollar :: b) := by
  simp [findStart]

@[simp] theorem findStart_sync (b : List UInt8) :
    findStart (ubxSyncCharOne :: ubxSyncCharTwo :: b) = some (.ubx, ubxSyncCharOne :: ubxSyncCharTwo :: b) := by
  simp [findStart, dollar_ne_sync.symm]

/-- The choice between the results of the two searches. -/
def chooseStart : Option Nat → Option Nat → Option (Kind × Nat)
  | some n, none => some (.nmea, n)
  | some n, some u => if n < u then some (.nmea, n) else some (.ubx, u)
  | none, some u => some (.ubx, u)
  | none, none => none

/-- The source's choice between two parsers. -/
theorem match_chooseStart {α : Type} (n u : Option Nat) (nmea ubx : Nat → α) (clear : α) :
    (match n, u with
      | some n, none => nmea n
      | some n, some u => if n < u then nmea n else ubx u
      | none, some u => ubx u
      | none, none => clear) =
    match chooseStart n u with
      | none => clear
      | some (.nmea, n) => nmea n
      | some (.ubx, u) => ubx u := by
  cases n with
  | none => cases u <;> rfl
  | some n =>
    cases u with
    | none => rfl
    | some u =>
      by_cases hlt : n < u
      · simp only [chooseStart, if_pos hlt]
      · simp only [chooseStart, if_neg hlt]

theorem chooseStart_succ (n u : Option Nat) : chooseStart (n.map (· + 1)) (u.map (· + 1)) =
    (chooseStart n u).map (fun p => (p.1, p.2 + 1)) := by
  cases n <;> cases u <;> simp [chooseStart, apply_ite]

/-- Whichever search finds its pattern first finds the first start. -/
theorem findStart_eq_choose : ∀ b : List UInt8, findStart b =
    (chooseStart (b.idxOf? dollar) (findPat [ubxSyncCharOne, ubxSyncCharTwo] b)).map fun p => (p.1, b.drop p.2)
  | [] => by simp [findStart, findPat, chooseStart]
  | x :: xs => by
    have ih := findStart_eq_choose xs
    by_cases hd : x = dollar
    · have hpre : ¬ [ubxSyncCharOne, ubxSyncCharTwo] <+: x :: xs := by
        intro h
        have hsync := (List.cons_prefix_cons.1 h).1
        exact dollar_ne_sync (hd.symm.trans hsync.symm)
      rw [findStart, if_pos hd, List.idxOf?_cons, if_pos (by simpa using hd), findPat_cons hpre]
      cases findPat [ubxSyncCharOne, ubxSyncCharTwo] xs <;> simp [chooseStart]
    · have hd' : ¬ (x == dollar) = true := by simpa using hd
      rw [findStart, if_neg hd, List.idxOf?_cons, if_neg hd']
      by_cases hu : [ubxSyncCharOne, ubxSyncCharTwo] <+: x :: xs
      · rw [if_pos hu, findPat_zero hu]
        cases xs.idxOf? dollar <;> simp [chooseStart]
      · rw [if_neg hu, findPat_cons hu, chooseStart_succ, ih, Option.map_map]
        rfl

/-! ## What a step does -/

/-- What the framer hands on: a string from `$` to its first CR LF pair, or a frame as long as it declares. -/
def Msg.Framed : Msg → Prop
  | .nmea b => ∃ body, b = dollar :: body ++ [cr, lf] ∧ ¬ [cr, lf] <:+: dollar :: body ++ [cr]
  | .ubx b => (∃ d, b = ubxSyncCharOne :: ubxSyncCharTwo :: d) ∧ b.length = declaredLen b

theorem declaredLen_ge (b : List UInt8) : 8 ≤ declaredLen b := Nat.le_add_right _ _

/-- The declared length is read from the first 6 bytes. -/
theorem declaredLen_take {b : List UInt8} {n : Nat} (h : 6 ≤ n) : declaredLen (b.take n) = declaredLen b := by
  have h4 : (b.take n)[4]? = b[4]? := by rw [List.getElem?_take, if_pos (by omega)]
  have h5 : (b.take n)[5]? = b[5]? := by rw [List.getElem?_take, if_pos (by omega)]
  simp only [declaredLen, List.getD_eq_getElem?_getD, h4, h5]

theorem nextNmea_spec (d : List UInt8) :
    (∃ m rest, nextNmea (dollar :: d) = .dispatch m rest ∧ m.Framed ∧ dollar :: d = m.bytes ++ rest) ∨
    (nextNmea (dollar :: d) = .retry d ∧ ¬ [cr, lf] <:+: dollar :: d ∧ (99 < d.length ∨ dollar ∈ d)) ∨
    (nextNmea (dollar :: d) = .wait (dollar :: d) ∧ ¬ [cr, lf] <:+: dollar :: d ∧ d.length ≤ 99 ∧ dollar ∉ d) := by
  unfold nextNmea
  cases hf : findPat [cr, lf] (dollar :: d) with
  | none =>
    have hno := findPat_eq_none_iff.1 hf
    dsimp only
    by_cases hc : 100 < (dollar :: d).length ∨ dollar ∈ (dollar :: d).tail
    · rw [if_pos hc]
      refine .inr (.inl ⟨rfl, hno, hc.imp (fun h => ?_) id⟩)
      rw [List.length_cons] at h
      omega
    · rw [if_neg hc]
      obtain ⟨hlen, hmem⟩ := not_or.1 hc
      rw [List.length_cons] at hlen
      exact .inr (.inr ⟨rfl, hno, by omega, hmem⟩)
  | some e =>
    left
    obtain ⟨u, v, huv, rfl, hfirst⟩ := findPat_spec (by simp) hf
    have htake : (dollar :: d).take (u.length + 2) = u ++ [cr, lf] := by
      rw [huv]
      exact List.take_left' (by simp)
    refine ⟨_, _, rfl, ?_, (List.take_append_drop _ _).symm⟩
    rw [htake]
    cases u with
    | nil =>
      simp only [List.nil_append, List.cons_append, List.cons.injEq] at huv
      exact absurd huv.1 dollar_ne_cr
    | cons x body =>
      simp only [List.cons_append, List.cons.injEq] at huv
      obtain ⟨rfl, -⟩ := huv
      exact ⟨body, rfl, hfirst⟩

theorem nextUbx_spec (accept : List UInt8 → Bool) (d : List UInt8) :
    let b := ubxSyncCharOne :: ubxSyncCharTwo :: d
    (∃ f rest, nextUbx accept b = .dispatch (.ubx f) rest ∧ (Msg.ubx f).Framed ∧ accept f ∧ b = f ++ rest) ∨
    (nextUbx accept b = .retry b.tail ∧ declaredLen b ≤ b.length ∧ ¬ accept (b.take (declaredLen b)) ∧
      4608 < b.length) ∨
    (nextUbx accept b = .wait b ∧ (b.length < declaredLen b ∨
      declaredLen b ≤ b.length ∧ ¬ accept (b.take (declaredLen b)) ∧ b.length ≤ 4608)) := by
  intro b
  have hge := declaredLen_ge b
  unfold nextUbx
  by_cases hlt : b.length < declaredLen b
  · rw [if_pos hlt]
    exact .inr (.inr ⟨rfl, .inl hlt⟩)
  · rw [if_neg hlt]
    by_cases ha : accept (b.take (declaredLen b))
    · rw [if_pos ha]
      left
      refine ⟨_, _, rfl, ⟨⟨d.take (declaredLen b - 2), ?_⟩, ?_⟩, ha, (List.take_append_drop _ _).symm⟩
      · have h2 : declaredLen b = (declaredLen b - 2) + 1 + 1 := by omega
        rw [h2, List.take_succ_cons, List.take_succ_cons]
        rfl
      · rw [declaredLen_take (by omega), List.length_take]
        omega
    · rw [if_neg ha]
      by_cases hfill : 4608 < b.length
      · rw [if_pos hfill]
        exact .inr (.inl ⟨rfl, by omega, ha, hfill⟩)
      · rw [if_neg hfill]
        exact .inr (.inr ⟨rfl, .inr ⟨by omega, ha, by omega⟩⟩)

theorem Msg.Framed.bytes_pos {m : Msg} (h : m.Framed) : 0 < m.bytes.length := by
  cases m with
  | nmea b => obtain ⟨body, rfl, _⟩ := h; simp [Msg.bytes]
  | ubx b => obtain ⟨⟨d, rfl⟩, _⟩ := h; simp [Msg.bytes]

/-- What a step hands on or keeps is where it was in the byte string, and nothing before it is kept. -/
theorem next_spec (accept : List UInt8 → Bool) (b : List UInt8) :
    match next accept b with
    | .dispatch m rest => m.Framed ∧ ∃ skip, b = skip ++ m.bytes ++ rest
    | .retry rest => ∃ skip, skip ≠ [] ∧ b = skip ++ rest
    | .wait rest => ∃ skip, b = skip ++ rest := by
  unfold next
  cases hs : findStart b with
  | none => exact ⟨b, by simp⟩
  | some kc =>
    obtain ⟨k, c⟩ := kc
    obtain ⟨skip, rfl, hn, hu⟩ := findStart_spec hs
    cases k with
    | nmea =>
      obtain ⟨d, rfl⟩ := hn rfl
      rcases nextNmea_spec d with ⟨m, rest, hd, hm, he⟩ | ⟨hd, -⟩ | ⟨hd, -⟩
      · simp only [hd]
        exact ⟨hm, skip, by rw [he, List.append_assoc]⟩
      · simp only [hd]
        exact ⟨skip ++ [dollar], by simp, by simp⟩
      · simp only [hd]
        exact ⟨skip, rfl⟩
    | ubx =>
      obtain ⟨d, rfl⟩ := hu rfl
      rcases nextUbx_spec accept d with ⟨f, rest, hd, hf, -, he⟩ | ⟨hd, -⟩ | ⟨hd, -⟩
      · simp only [hd]
        exact ⟨hf, skip, by rw [he, List.append_assoc]; rfl⟩
      · simp only [hd]
        exact ⟨skip ++ [ubxSyncCharOne], by simp, by simp⟩
      · simp only [hd]
        exact ⟨skip, rfl⟩

theorem next_of_none {accept : List UInt8 → Bool} {b : List UInt8} (h : findStart b = none) :
    next accept b = .wait [] := by
  rw [next, h]

theorem next_of_nmea {accept : List UInt8 → Bool} {b c : List UInt8} (h : findStart b = some (.nmea, c)) :
    next accept b = nextNmea c := by
  rw [next, h]

theorem next_of_ubx {accept : List UInt8 → Bool} {b c : List UInt8} (h : findStart b = some (.ubx, c)) :
    next accept b = nextUbx accept c := by
  rw [next, h]

/-- **Why the loop waits**: nothing starts a message, or a sentence or a frame is not complete, or a complete frame is
rejected and the buffer not full enough. -/
theorem next_wait {accept : List UInt8 → Bool} {b c : List UInt8} (h : next accept b = .wait c) :
    (findStart b = none ∧ c = []) ∨
    (findStart b = some (.nmea, c) ∧ ¬ [cr, lf] <:+: c ∧ c.length ≤ 100 ∧ dollar ∉ c.tail) ∨
    (findStart b = some (.ubx, c) ∧ (c.length < declaredLen c ∨
      declaredLen c ≤ c.length ∧ ¬ accept (c.take (declaredLen c)) ∧ c.length ≤ 4608)) := by
  cases hs : findStart b with
  | none =>
    rw [next_of_none hs] at h
    exact .inl ⟨rfl, (Next.wait.inj h).symm⟩
  | some kc =>
    obtain ⟨k, c'⟩ := kc
    obtain ⟨-, -, hn, hu⟩ := findStart_spec hs
    cases k with
    | nmea =>
      obtain ⟨d, rfl⟩ := hn rfl
      rw [next_of_nmea hs] at h
      rcases nextNmea_spec d with ⟨m, rest, hd, -⟩ | ⟨hd, -⟩ | ⟨hd, hno, hlen, hmem⟩ <;> rw [hd] at h
      · cases h
      · cases h
      · obtain rfl := Next.wait.inj h
        exact .inr (.inl ⟨rfl, hno, by rw [List.length_cons]; omega, hmem⟩)
    | ubx =>
      obtain ⟨d, rfl⟩ := hu rfl
      rw [next_of_ubx hs] at h
      rcases nextUbx_spec accept d with ⟨f, rest, hd, -⟩ | ⟨hd, -⟩ | ⟨hd, hwhy⟩ <;> rw [hd] at h
      · cases h
      · cases h
      · obtain rfl := Next.wait.inj h
        exact .inr (.inr ⟨rfl, hwhy⟩)

/-- When a string is handed on, and which. -/
theorem next_nmea_iff {accept : List UInt8 → Bool} {b m rest : List UInt8} :
    next accept b = .dispatch (.nmea m) rest ↔
      ∃ c e, findStart b = some (.nmea, c) ∧ findPat [cr, lf] c = some e ∧ m = c.take (e + 2) ∧
        rest = c.drop (e + 2) := by
  constructor
  · intro h
    cases hs : findStart b with
    | none => rw [next_of_none hs] at h; cases h
    | some kc =>
      obtain ⟨k, c⟩ := kc
      obtain ⟨-, -, -, hu⟩ := findStart_spec hs
      cases k with
      | nmea =>
        rw [next_of_nmea hs, nextNmea] at h
        cases hf : findPat [cr, lf] c with
        | none =>
          rw [hf] at h
          dsimp only at h
          split at h <;> cases h
        | some e =>
          rw [hf] at h
          obtain ⟨hm, hr⟩ := Next.dispatch.inj h
          exact ⟨c, e, rfl, hf, (Msg.nmea.inj hm).symm, hr.symm⟩
      | ubx =>
        obtain ⟨d, rfl⟩ := hu rfl
        rw [next_of_ubx hs] at h
        rcases nextUbx_spec accept d with ⟨f, rest', hd, -⟩ | ⟨hd, -⟩ | ⟨hd, -⟩ <;> rw [hd] at h <;> cases h
  · rintro ⟨c, e, hs, hf, rfl, rfl⟩
    rw [next_of_nmea hs, nextNmea, hf]

/-! ## The loop unrolled -/

theorem next_dispatch_lt {accept : List UInt8 → Bool} {b rest : List UInt8} {m : Msg}
    (h : next accept b = .dispatch m rest) : rest.length < b.length := by
  have hs := next_spec accept b
  rw [h] at hs
  obtain ⟨hm, skip, he⟩ := hs
  have := hm.bytes_pos
  rw [he]
  simp only [List.length_append]
  omega

theorem next_retry_lt {accept : List UInt8 → Bool} {b rest : List UInt8} (h : next accept b = .retry rest) :
    rest.length < b.length := by
  have hs := next_spec accept b
  rw [h] at hs
  obtain ⟨skip, hne, he⟩ := hs
  have := List.length_pos_iff.2 hne
  rw [he, List.length_append]
  omega

/-- Any fuel above the number of bytes gives the same. -/
theorem tokensN_fuel (accept : List UInt8 → Bool) : ∀ (n : Nat) (b : List UInt8), b.length < n →
    tokensN accept n b = tokens accept b
  | 0, _, h => by omega
  | _ + 1, [], _ => rfl
  | n + 1, x :: xs, h => by
    have hn : xs.length < n := by rw [List.length_cons] at h; omega
    rw [tokens, List.length_cons, tokensN, tokensN]
    cases hnext : next accept (x :: xs) with
    | dispatch m rest =>
      have hlt := next_dispatch_lt hnext
      rw [List.length_cons] at hlt
      simp only [tokensN_fuel accept n rest (by omega), tokensN_fuel accept (xs.length + 1) rest hlt]
    | retry rest =>
      have hlt := next_retry_lt hnext
      rw [List.length_cons] at hlt
      simp only [tokensN_fuel accept n rest (by omega), tokensN_fuel accept (xs.length + 1) rest hlt]
    | wait rest => rfl

@[simp] theorem tokens_nil (accept : List UInt8 → Bool) : tokens accept [] = ([], []) := rfl

/-- **The loop unrolled once.** -/
theorem tokens_eq (accept : List UInt8 → Bool) {b : List UInt8} (hb : b ≠ []) :
    tokens accept b = match next accept b with
      | .dispatch m rest => (m :: (tokens accept rest).1, (tokens accept rest).2)
      | .retry rest => tokens accept rest
      | .wait rest => ([], rest) := by
  cases b with
  | nil => exact absurd rfl hb
  | cons x xs =>
    rw [tokens, List.length_cons, tokensN]
    cases hnext : next accept (x :: xs) with
    | dispatch m rest =>
      have hfuel := tokensN_fuel accept (xs.length + 1) rest (next_dispatch_lt hnext)
      simp only [hfuel]
    | retry rest =>
      have hfuel := tokensN_fuel accept (xs.length + 1) rest (next_retry_lt hnext)
      simp only [hfuel]
    | wait rest => rfl

/-! ## The parsers on the buffer are these functions -/

/-- What a parser left is what `n` says. -/
def Parsed.Is (p : Parsed) : Next → Prop
  | .dispatch m rest => p.result = .parsed ∧ p.dispatch = some m ∧ p.buf.live = rest
  | .retry rest => p.result = .corrupt ∧ p.dispatch = none ∧ p.buf.live = rest
  | .wait rest => p.result = .incomplete ∧ p.dispatch = none ∧ p.buf.live = rest

/-- What an iteration left is what `n` says. -/
def Iteration.Is (it : Iteration) : Next → Prop
  | .dispatch m rest => it.processed = true ∧ it.dispatch = some m ∧ it.buf.live = rest
  | .retry rest => it.processed = true ∧ it.dispatch = none ∧ it.buf.live = rest
  | .wait rest => it.processed = false ∧ it.dispatch = none ∧ it.buf.live = rest

theorem Parsed.Is.toIteration {p : Parsed} {n : Next} (h : p.Is n) : p.toIteration.Is n := by
  cases n <;> exact ⟨by simp [Parsed.toIteration, h.1], h.2⟩

theorem parseUartNmeaMessage_is (s : RxBuf) (start : Fin s.currDataLen) :
    (s.parseUartNmeaMessage start).Is (nextNmea (s.live.drop start.1)) := by
  have hlive := s.live_moveToStart start
  have hfind := (s.moveToStart start).memmem_val cr lf
  have hlen := (s.moveToStart start).length_live
  unfold RxBuf.parseUartNmeaMessage nextNmea
  dsimp only
  rw [← hlive, ← hfind]
  cases (s.moveToStart start).memmem cr lf with
  | none =>
    simp only [Option.map_none, hlen, ne_eq, List.idxOf?_eq_none_iff, not_not, List.drop_one, gt_iff_lt]
    by_cases hc : 100 < (s.moveToStart start).currDataLen ∨ dollar ∈ (s.moveToStart start).live.tail
    · rw [if_pos hc, if_pos hc]
      exact ⟨rfl, rfl, by simp⟩
    · rw [if_neg hc, if_neg hc]
      exact ⟨rfl, rfl, rfl⟩
  | some e => exact ⟨rfl, rfl, by simp⟩

/-- The declared length of the live bytes is the one the parser computes, once they include the length field. -/
theorem declaredLen_live {s : RxBuf} (h : 6 ≤ s.currDataLen) : declaredLen s.live = s.fullMsgLen := by
  have h4 : s.live[4]? = s.data[4]? := by rw [RxBuf.live, List.getElem?_take, if_pos (by omega)]
  have h5 : s.live[5]? = s.data[5]? := by rw [RxBuf.live, List.getElem?_take, if_pos (by omega)]
  simp only [declaredLen, RxBuf.fullMsgLen, List.getD_eq_getElem?_getD, h4, h5]

/-- **A length field that is not all there decides nothing**: whatever stands in its place, 8 bytes are not there. -/
theorem lt_fullMsgLen_iff (s : RxBuf) : s.currDataLen < s.fullMsgLen ↔ s.live.length < declaredLen s.live := by
  rw [s.length_live]
  by_cases h6 : 6 ≤ s.currDataLen
  · rw [declaredLen_live h6]
  · have hge : 8 ≤ s.fullMsgLen := Nat.le_add_right _ _
    have hge' := declaredLen_ge s.live
    exact iff_of_true (by omega) (by omega)

theorem fullMsgLen_of_le {s : RxBuf} (h : ¬ s.currDataLen < s.fullMsgLen) : s.fullMsgLen = declaredLen s.live := by
  have hge : 8 ≤ s.fullMsgLen := Nat.le_add_right _ _
  exact (declaredLen_live (by omega)).symm

theorem parseUartUbxMessage_is (accept : List UInt8 → Bool) (s : RxBuf) (start : Fin s.currDataLen) :
    (s.parseUartUbxMessage accept start).Is (nextUbx accept (s.live.drop start.1)) := by
  have hlive := s.live_moveToStart start
  have hlen := (s.moveToStart start).length_live
  have h4608 : uartRxBufSize * 75 / 100 = 4608 := rfl
  unfold RxBuf.parseUartUbxMessage nextUbx
  dsimp only
  rw [← hlive]
  by_cases hlt : (s.moveToStart start).currDataLen < (s.moveToStart start).fullMsgLen
  · rw [dif_pos hlt, if_pos ((lt_fullMsgLen_iff _).1 hlt)]
    exact ⟨rfl, rfl, rfl⟩
  · rw [dif_neg hlt, if_neg (mt (lt_fullMsgLen_iff _).2 hlt), ← fullMsgLen_of_le hlt, hlen]
    by_cases ha : accept ((s.moveToStart start).live.take (s.moveToStart start).fullMsgLen)
    · rw [if_pos ha, if_neg (fun h => handleUbxMsg_ne_zero.1 h ha)]
      exact ⟨rfl, rfl, by simp⟩
    · rw [if_neg ha, if_pos (handleUbxMsg_ne_zero.2 ha), h4608]
      by_cases hfill : 4608 < (s.moveToStart start).currDataLen
      · rw [if_pos hfill, if_pos hfill]
        exact ⟨rfl, rfl, by simp⟩
      · rw [if_neg hfill, if_neg hfill]
        exact ⟨rfl, rfl, rfl⟩

/-- **What an iteration does**: it clears the buffer, or calls one of the parsers at the start that was chosen. -/
theorem iterate_cases (accept : List UInt8 → Bool) (s : RxBuf) :
    let chosen := chooseStart (s.live.idxOf? dollar) (findPat [ubxSyncCharOne, ubxSyncCharTwo] s.live)
    (chosen = none ∧ s.iterate accept = ⟨false, s.clear, none⟩) ∨
    (∃ start, chosen = some (.nmea, start.1) ∧ s.iterate accept = (s.parseUartNmeaMessage start).toIteration) ∨
    ∃ start, chosen = some (.ubx, start.1) ∧ s.iterate accept = (s.parseUartUbxMessage accept start).toIteration := by
  unfold RxBuf.iterate
  rw [← s.memchr_val dollar, ← s.memmem_val ubxSyncCharOne ubxSyncCharTwo]
  cases s.memchr dollar with
  | none =>
    cases s.memmem ubxSyncCharOne ubxSyncCharTwo with
    | none => exact .inl ⟨rfl, rfl⟩
    | some u => exact .inr (.inr ⟨_, rfl, rfl⟩)
  | some n =>
    cases s.memmem ubxSyncCharOne ubxSyncCharTwo with
    | none => exact .inr (.inl ⟨n, rfl, rfl⟩)
    | some u =>
      by_cases hlt : n.1 < u.1
      · exact .inr (.inl ⟨n, if_pos hlt, if_pos hlt⟩)
      · exact .inr (.inr ⟨⟨u.1, by have := u.2; omega⟩, if_neg hlt, if_neg hlt⟩)

/-- **An iteration of the inner loop is `next` on the live bytes.** -/
theorem iterate_is (accept : List UInt8 → Bool) (s : RxBuf) : (s.iterate accept).Is (next accept s.live) := by
  rw [next, findStart_eq_choose]
  rcases iterate_cases accept s with ⟨hchosen, hi⟩ | ⟨start, hchosen, hi⟩ | ⟨start, hchosen, hi⟩ <;> rw [hchosen, hi]
  · exact ⟨rfl, rfl, s.live_clear⟩
  · exact (parseUartNmeaMessage_is s start).toIteration
  · exact (parseUartUbxMessage_is accept s start).toIteration

theorem loopN_eq_tokensN (accept : List UInt8 → Bool) : ∀ (fuel : Nat) (s : RxBuf),
    (s.loopN accept fuel).1 = (tokensN accept fuel s.live).1 ∧
      (s.loopN accept fuel).2.live = (tokensN accept fuel s.live).2
  | 0, _ => ⟨rfl, rfl⟩
  | fuel + 1, s => by
    have his := iterate_is accept s
    rw [RxBuf.loopN]
    cases hb : s.live with
    | nil =>
      rw [if_pos (by rw [← s.length_live, hb]; rfl)]
      exact ⟨rfl, hb⟩
    | cons x xs =>
      rw [if_neg (by rw [← s.length_live, hb]; simp), tokensN, ← hb]
      cases hnext : next accept s.live with
      | dispatch m rest =>
        rw [hnext] at his
        obtain ⟨hp, hd, hl⟩ := his
        have ih := loopN_eq_tokensN accept fuel (s.iterate accept).buf
        rw [hl] at ih
        simp only [hp, hd, if_true, Option.toList_some]
        exact ⟨by rw [ih.1]; rfl, ih.2⟩
      | retry rest =>
        rw [hnext] at his
        obtain ⟨hp, hd, hl⟩ := his
        have ih := loopN_eq_tokensN accept fuel (s.iterate accept).buf
        rw [hl] at ih
        simp only [hp, hd, if_true, Option.toList_none]
        exact ⟨by rw [ih.1]; rfl, ih.2⟩
      | wait rest =>
        rw [hnext] at his
        obtain ⟨hp, hd, hl⟩ := his
        simp only [hp, hd, Bool.false_eq_true, if_false, Option.toList_none]
        exact ⟨trivial, hl⟩

/-- **The inner loop is `tokens` on the live bytes.** -/
theorem innerLoop_eq_tokens (accept : List UInt8 → Bool) (s : RxBuf) :
    (s.innerLoop accept).1 = (tokens accept s.live).1 ∧ (s.innerLoop accept).2.live = (tokens accept s.live).2 := by
  have h := loopN_eq_tokensN accept (s.currDataLen + 1) s
  rw [tokens, s.length_live]
  exact h

end TrackIt.Framer
