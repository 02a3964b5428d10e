import TrackIt.Lib.Layout
import TrackIt.Lib.LittleEndian
import TrackIt.Framer.Events

/-!
# Messages as the receiver sends them

- `Sentence`, `Frame`: what an NMEA sentence and a UBX frame look like; `Complete`: a sentence, or a frame that
  `UBX_ParseMessage` accepts; `WellFormed`: the bounds under which the framer can also wait for one in parts;
- `tokens_flatten`: complete messages one behind the other are handed on in order;
- `next_partial`: a proper part of a well-formed message is waited for, except a lone first sync byte, which is
  cleared away;
- `tokens_laid`: what is handed on lies in the bytes, disjoint and in order, before what is kept.
-/

namespace TrackIt.Framer

open TrackIt.Lib

/-- `$`, a body without a CR LF pair, CR LF. -/
def Sentence (b : List UInt8) : Prop := ∃ body, b = dollar :: body ++ [cr, lf] ∧ ¬ [cr, lf] <:+: body

/-- `0xB5 0x62 class id lenLo lenHi payload ckA ckB`. -/
def Frame (b : List UInt8) : Prop :=
  ∃ cls id lenLo lenHi payload ckA ckB,
    b = ubxSyncCharOne :: ubxSyncCharTwo :: cls :: id :: lenLo :: lenHi :: (payload ++ [ckA, ckB]) ∧
    payload.length = lenLo.toNat + 256 * lenHi.toNat

/-- A whole message. -/
def Msg.Complete (accept : List UInt8 → Bool) : Msg → Prop
  | .nmea b => Sentence b
  | .ubx b => Frame b ∧ accept b

/-- A sentence of at most 100 ASCII bytes with one `$`, or an accepted frame that fits in the buffer. -/
def Msg.WellFormed (accept : List UInt8 → Bool) : Msg → Prop
  | .nmea b => (∃ body, b = dollar :: body ++ [cr, lf] ∧ ¬ [cr, lf] <:+: body ∧ dollar ∉ body ∧ ∀ x ∈ body, x < 128) ∧
      b.length ≤ 100
  | .ubx b => Frame b ∧ b.length ≤ 6144 ∧ accept b

/-- The bytes of messages sent one behind the other. -/
def streamOf (ms : List Msg) : List UInt8 := (ms.map Msg.bytes).flatten

@[simp] theorem streamOf_nil : streamOf [] = [] := rfl

@[simp] theorem streamOf_cons (m : Msg) (ms : List Msg) : streamOf (m :: ms) = m.bytes ++ streamOf ms := rfl

@[simp] theorem streamOf_append (ms ms' : List Msg) : streamOf (ms ++ ms') = streamOf ms ++ streamOf ms' := by
  simp [streamOf]

variable {accept : List UInt8 → Bool}

theorem Msg.WellFormed.complete {m : Msg} (h : m.WellFormed accept) : m.Complete accept := by
  cases m with
  | nmea b => obtain ⟨⟨body, hb, hno, -⟩, -⟩ := h; exact ⟨body, hb, hno⟩
  | ubx b => exact ⟨h.1, h.2.2⟩

/-! ## Sentences -/

theorem findPat_crlf {u : List UInt8} (v : List UInt8) (h : ¬ [cr, lf] <:+: u ++ [cr]) :
    findPat [cr, lf] (u ++ [cr, lf] ++ v) = some u.length :=
  findPat_append (by simp) v h

/-- The pair that ends a sentence is the first one in it. -/
theorem crlf_first {body : List UInt8} (h : ¬ [cr, lf] <:+: body) : ¬ [cr, lf] <:+: dollar :: body ++ [cr] := by
  rw [List.infix_concat_iff]
  rintro (hsuf | hin)
  · -- a pair at the very end would make the final CR an LF
    obtain ⟨t, ht⟩ := hsuf
    have hlast := congrArg List.getLast? ht
    rw [List.getLast?_append_of_ne_nil _ (by simp), List.getLast?_concat] at hlast
    exact lf_ne_cr (by simpa using hlast)
  · rcases List.infix_cons_iff.1 hin with hpre | hin
    · exact dollar_ne_cr (List.cons_prefix_cons.1 hpre).1.symm
    · exact h hin

/-- A proper part of a sentence ends before the LF, and so has no pair in it. -/
theorem part_of_sentence {body p : List UInt8} (hno : ¬ [cr, lf] <:+: body) (hp : p <+: dollar :: body ++ [cr, lf])
    (hlt : p.length < (dollar :: body ++ [cr, lf]).length) : p <+: dollar :: body ++ [cr] ∧ ¬ [cr, lf] <:+: p := by
  have hp' : p <+: dollar :: body ++ [cr] := by
    refine List.prefix_of_prefix_length_le hp ⟨[lf], by simp⟩ ?_
    simp only [List.length_append, List.length_cons, List.length_nil] at hlt ⊢
    omega
  exact ⟨hp', fun hi => crlf_first hno (hi.trans hp'.isInfix)⟩

theorem Sentence.framed {b : List UInt8} (h : Sentence b) : (Msg.nmea b).Framed := by
  obtain ⟨body, rfl, hno⟩ := h
  exact ⟨body, rfl, crlf_first hno⟩

theorem nextNmea_sentence {b : List UInt8} (h : (Msg.nmea b).Framed) (rest : List UInt8) :
    nextNmea (b ++ rest) = .dispatch (.nmea b) rest := by
  obtain ⟨body, rfl, hfirst⟩ := h
  have hf : findPat [cr, lf] (dollar :: body ++ [cr, lf] ++ rest) = some (dollar :: body).length :=
    findPat_crlf rest hfirst
  have hlen : (dollar :: body ++ [cr, lf]).length = (dollar :: body).length + 2 := by simp
  unfold nextNmea
  rw [hf]
  dsimp only
  rw [← hlen, List.take_left, List.drop_left]

theorem nextNmea_wait {d : List UInt8} (hno : ¬ [cr, lf] <:+: dollar :: d) (hlen : d.length ≤ 99) (hd : dollar ∉ d) :
    nextNmea (dollar :: d) = .wait (dollar :: d) := by
  have hc : ¬ (100 < (dollar :: d).length ∨ dollar ∈ (dollar :: d).tail) := by
    rintro (h | h)
    · rw [List.length_cons] at h; omega
    · exact hd h
  unfold nextNmea
  rw [findPat_eq_none_iff.2 hno]
  exact if_neg hc

theorem nextNmea_retry {d : List UInt8} (hno : ¬ [cr, lf] <:+: dollar :: d) (h : 99 < d.length ∨ dollar ∈ d) :
    nextNmea (dollar :: d) = .retry d := by
  have hc : 100 < (dollar :: d).length ∨ dollar ∈ (dollar :: d).tail :=
    h.imp (fun h => by rw [List.length_cons]; omega) id
  unfold nextNmea
  rw [findPat_eq_none_iff.2 hno]
  exact if_pos hc

/-! ## Frames -/

theorem Frame.sync {b : List UInt8} (h : Frame b) : ∃ d, b = ubxSyncCharOne :: ubxSyncCharTwo :: d := by
  obtain ⟨cls, id, lenLo, lenHi, payload, ckA, ckB, rfl, -⟩ := h
  exact ⟨_, rfl⟩

/-- The length field, as a number. -/
theorem declaredLen_eq (b : List UInt8) :
    declaredLen b = 8 + ((b.getD 4 0).toNat + 256 * (b.getD 5 0).toNat) := by
  rewrite [declaredLen, or_shiftLeft_of_lt _ (UInt8.toNat_lt _)]
  rfl

/-- A frame is as long as it declares. -/
theorem Frame.declaredLen_self {b : List UInt8} (h : Frame b) : declaredLen b = b.length := by
  obtain ⟨cls, id, lenLo, lenHi, payload, ckA, ckB, rfl, hlen⟩ := h
  rw [declaredLen_eq]
  simp only [List.getD_cons_succ, List.getD_cons_zero, List.length_cons, List.length_append, List.length_nil, hlen]
  omega

theorem declaredLen_append {b : List UInt8} (rest : List UInt8) (h : 6 ≤ b.length) :
    declaredLen (b ++ rest) = declaredLen b := by
  rw [← declaredLen_take (b := b ++ rest) h, List.take_left]

theorem nextUbx_frame {b : List UInt8} (h : Frame b) (ha : accept b) (rest : List UInt8) :
    nextUbx accept (b ++ rest) = .dispatch (.ubx b) rest := by
  have hge := declaredLen_ge b
  have hself := h.declaredLen_self
  have hlen : declaredLen (b ++ rest) = b.length := by rw [declaredLen_append rest (by omega), hself]
  unfold nextUbx
  rw [hlen, List.take_left, List.drop_left, if_neg (by rw [List.length_append]; omega), if_pos ha]

/-- A proper part of a frame declares more than is there. -/
theorem Frame.part_lt {b p : List UInt8} (h : Frame b) (hp : p <+: b) (hlt : p.length < b.length) :
    p.length < declaredLen p := by
  have hge := declaredLen_ge p
  by_cases h6 : 6 ≤ p.length
  · obtain ⟨q, rfl⟩ := hp
    rw [← declaredLen_append q h6, h.declaredLen_self]
    exact hlt
  · omega

/-! ## Messages one behind the other -/

/-- **A whole message at the front is handed on.** -/
theorem next_complete {m : Msg} (h : m.Complete accept) (rest : List UInt8) :
    next accept (m.bytes ++ rest) = .dispatch m rest := by
  unfold next
  cases m with
  | nmea b =>
    obtain ⟨body, hb, -⟩ := id h
    have hs : findStart (b ++ rest) = some (.nmea, b ++ rest) := by rw [hb]; exact findStart_dollar _
    simp only [Msg.bytes, hs]
    exact nextNmea_sentence (Sentence.framed h) rest
  | ubx b =>
    obtain ⟨d, hd⟩ := h.1.sync
    have hs : findStart (b ++ rest) = some (.ubx, b ++ rest) := by rw [hd]; exact findStart_sync _
    simp only [Msg.bytes, hs]
    exact nextUbx_frame h.1 h.2 rest

theorem Msg.Complete.bytes_ne {m : Msg} (h : m.Complete accept) : m.bytes ≠ [] := by
  cases m with
  | nmea b => obtain ⟨body, rfl, -⟩ := h; simp [Msg.bytes]
  | ubx b => obtain ⟨d, rfl⟩ := h.1.sync; simp [Msg.bytes]

/-- **Whole messages one behind the other are handed on in order.** -/
theorem tokens_flatten : ∀ {ms : List Msg} (b : List UInt8), (∀ m ∈ ms, m.Complete accept) →
    tokens accept (streamOf ms ++ b) = (ms ++ (tokens accept b).1, (tokens accept b).2)
  | [], b, _ => by simp
  | m :: ms, b, h => by
    have hm := h m List.mem_cons_self
    have ih := tokens_flatten b fun x hx => h x (List.mem_cons_of_mem _ hx)
    have hne : m.bytes ++ (streamOf ms ++ b) ≠ [] := by simp [hm.bytes_ne]
    rw [streamOf_cons, List.append_assoc, tokens_eq accept hne, next_complete hm]
    simp only [ih, List.cons_append]

/-- Bytes that start nothing do not change what is done next. -/
theorem next_noise {noise : List UInt8} (b : List UInt8) (hd : dollar ∉ noise) (hs : ubxSyncCharOne ∉ noise) :
    next accept (noise ++ b) = next accept b := by
  rw [next, findStart_noise b hd hs, next]

/-! ## Parts of messages -/

theorem findStart_lone_sync : findStart [ubxSyncCharOne] = none := by decide

theorem dollar_cons_ne_lone (d : List UInt8) : dollar :: d ≠ [ubxSyncCharOne] := by
  intro h
  exact dollar_ne_sync (List.cons.inj h).1

/-- **A proper part of a well-formed message is waited for.** Only a lone first sync byte is taken for noise. -/
theorem next_partial {m : Msg} (h : m.WellFormed accept) {p : List UInt8} (hp : p <+: m.bytes)
    (hlt : p.length < m.bytes.length) (hne : p ≠ []) :
    next accept p = .wait (if p = [ubxSyncCharOne] then [] else p) := by
  cases m with
  | nmea b =>
    obtain ⟨⟨body, rfl, hno, hd, -⟩, hlen⟩ := h
    simp only [Msg.bytes] at hp hlt
    obtain ⟨hp', hpno⟩ := part_of_sentence hno hp hlt
    cases p with
    | nil => exact absurd rfl hne
    | cons x q =>
      obtain ⟨rfl, hq⟩ := List.cons_prefix_cons.1 hp'
      have hqd : dollar ∉ q := fun hmem => by
        rcases List.mem_append.1 (hq.subset hmem) with hm | hm
        · exact hd hm
        · exact dollar_ne_cr (List.mem_singleton.1 hm)
      have hqlen : q.length ≤ 99 := by
        simp only [List.length_append, List.length_cons, List.length_nil] at hlen hlt
        omega
      simp only [next, findStart_dollar, if_neg (dollar_cons_ne_lone q)]
      exact nextNmea_wait hpno hqlen hqd
  | ubx b =>
    obtain ⟨d, hb⟩ := h.1.sync
    simp only [Msg.bytes] at hp hlt
    have hpart := h.1.part_lt hp hlt
    cases p with
    | nil => exact absurd rfl hne
    | cons x q =>
      rw [hb] at hp
      obtain ⟨rfl, hq⟩ := List.cons_prefix_cons.1 hp
      cases q with
      | nil => simp [next, findStart_lone_sync]
      | cons y q =>
        obtain ⟨rfl, -⟩ := List.cons_prefix_cons.1 hq
        simp only [next, findStart_sync, nextUbx, if_pos hpart]
        simp

/-! ## Nothing is handed on twice -/

theorem tokens_laid (accept : List UInt8 → Bool) (b : List UInt8) :
    ∃ consumed, b = consumed ++ (tokens accept b).2 ∧ Laid consumed ((tokens accept b).1.map Msg.bytes) := by
  induction hn : b.length using Nat.strongRecOn generalizing b with
  | _ n ih =>
    subst hn
    by_cases hb : b = []
    · subst hb
      exact ⟨[], rfl, .nil []⟩
    have hspec := next_spec accept b
    rw [tokens_eq accept hb]
    cases hnext : next accept b with
    | dispatch m rest =>
      rw [hnext] at hspec
      obtain ⟨-, skip, hskip⟩ := hspec
      obtain ⟨consumed, hrest, hlaid⟩ := ih rest.length (next_dispatch_lt hnext) rest rfl
      refine ⟨skip ++ m.bytes ++ consumed, ?_, ?_⟩
      · rw [hskip]
        simp only [List.append_assoc]
        rw [← hrest]
      · simpa [List.append_assoc] using (Laid.nil skip).block m.bytes |>.append hlaid
    | retry rest =>
      rw [hnext] at hspec
      obtain ⟨skip, -, hskip⟩ := hspec
      obtain ⟨consumed, hrest, hlaid⟩ := ih rest.length (next_retry_lt hnext) rest rfl
      refine ⟨skip ++ consumed, ?_, ?_⟩
      · rw [hskip, List.append_assoc, ← hrest]
      · simpa using (Laid.nil skip).append hlaid
    | wait rest =>
      rw [hnext] at hspec
      obtain ⟨skip, hskip⟩ := hspec
      exact ⟨skip, hskip, .nil skip⟩

end TrackIt.Framer
