import TrackIt.Framer.Machine
import TrackIt.Framer.Resync

/-!
# One pass of the inner loop

When the buffer holds whole messages with noise between them and at most the start of one more behind, one pass hands on
the messages in order and keeps the start.

- `tokens_noisy`: the pass on byte strings;
- `innerLoop_noisy`: the pass of the inner loop.
-/

namespace TrackIt.Framer

open TrackIt.Lib

variable {accept : List UInt8 → Bool}

/-- Neither a `$` nor a first sync byte. -/
def Noise (n : List UInt8) : Prop := dollar ∉ n ∧ ubxSyncCharOne ∉ n

/-- Nothing, or a sentence that has begun and may still end, or a frame of which some bytes are missing. -/
inductive Unfinished : List UInt8 → Prop
  | nil : Unfinished []
  | nmea (d : List UInt8) (hd : dollar ∉ d) (hno : ¬ [cr, lf] <:+: dollar :: d) (hlen : (dollar :: d).length ≤ 100) :
      Unfinished (dollar :: d)
  | ubx (d : List UInt8)
      (hlen : (ubxSyncCharOne :: ubxSyncCharTwo :: d).length < 8 ∨
        (ubxSyncCharOne :: ubxSyncCharTwo :: d).length < declaredLen (ubxSyncCharOne :: ubxSyncCharTwo :: d)) :
      Unfinished (ubxSyncCharOne :: ubxSyncCharTwo :: d)

/-- Messages, each with the noise in front of it. -/
def noisyBytes (parts : List (List UInt8 × Msg)) : List UInt8 := (parts.map fun p => p.1 ++ p.2.bytes).flatten

@[simp] theorem noisyBytes_cons (p : List UInt8 × Msg) (parts : List (List UInt8 × Msg)) :
    noisyBytes (p :: parts) = p.1 ++ p.2.bytes ++ noisyBytes parts := rfl

theorem Unfinished.quiescent {t : List UInt8} (h : Unfinished t) : Quiescent accept t := by
  cases h with
  | nil => exact .inl rfl
  | nmea d hd hno hlen => exact .inr (.inl ⟨⟨d, rfl, hd⟩, hno, hlen⟩)
  | ubx d hlen => exact .inr (.inr ⟨⟨d, rfl⟩, .inl hlen⟩)

/-- Noise in front of a string is dropped with the first message, or for good. -/
theorem tokens_noise {n b : List UInt8} (hn : Noise n) (hb : b ≠ []) : tokens accept (n ++ b) = tokens accept b := by
  have hne : n ++ b ≠ [] := fun h => hb (List.append_eq_nil_iff.1 h).2
  rw [tokens_eq accept hne, next_noise b hn.1 hn.2, tokens_eq accept hb]

theorem tokens_noise_only {n : List UInt8} (hn : Noise n) : tokens accept n = ([], []) := by
  by_cases h : n = []
  · rw [h, tokens_nil]
  · have hnext : next accept n = .wait [] := by
      have hnil : next accept (n ++ []) = next accept [] := next_noise [] hn.1 hn.2
      rwa [List.append_nil] at hnil
    rw [tokens_eq accept h, hnext]

/-- Noise, and the start of a message. -/
theorem tokens_unfinished {n t : List UInt8} (hn : Noise n) (ht : Unfinished t) : tokens accept (n ++ t) = ([], t) := by
  by_cases h : t = []
  · rw [h, List.append_nil]
    exact tokens_noise_only hn
  · rw [tokens_noise hn h, tokens_eq accept h, next_quiescent ht.quiescent]

/-- **Messages in noise are handed on in order**, whatever their payloads hold, and the start behind them is kept. -/
theorem tokens_noisy {n t : List UInt8} (hn : Noise n) (ht : Unfinished t) :
    ∀ {parts : List (List UInt8 × Msg)}, (∀ p ∈ parts, Noise p.1 ∧ p.2.Complete accept) →
      tokens accept (noisyBytes parts ++ (n ++ t)) = (parts.map Prod.snd, t)
  | [], _ => tokens_unfinished hn ht
  | p :: parts, h => by
    obtain ⟨hnoise, hmsg⟩ := h p List.mem_cons_self
    have ih := tokens_noisy hn ht fun q hq => h q (List.mem_cons_of_mem _ hq)
    have hne : p.2.bytes ++ (noisyBytes parts ++ (n ++ t)) ≠ [] := fun he =>
      hmsg.bytes_ne (List.append_eq_nil_iff.1 he).1
    have hbytes : noisyBytes (p :: parts) ++ (n ++ t) = p.1 ++ (p.2.bytes ++ (noisyBytes parts ++ (n ++ t))) := by
      simp only [noisyBytes_cons, List.append_assoc]
    rw [hbytes, tokens_noise hnoise hne, tokens_eq accept hne, next_complete hmsg]
    simp only [ih, List.map_cons]

/-- **One pass of the inner loop is a correct tokenizer**: of messages in noise and an unfinished start, it hands on
exactly the messages, in order, and the start is left at the front of the buffer, with nothing behind it. -/
theorem innerLoop_noisy (accept : List UInt8 → Bool) (s : RxBuf) (parts : List (List UInt8 × Msg)) (n t : List UInt8)
    (hparts : ∀ p ∈ parts, Noise p.1 ∧ p.2.Complete accept) (hn : Noise n) (ht : Unfinished t)
    (hlive : s.live = noisyBytes parts ++ (n ++ t)) :
    (s.innerLoop accept).1 = parts.map Prod.snd ∧ (s.innerLoop accept).2.currDataLen = t.length ∧
      (s.innerLoop accept).2.data.take t.length = t := by
  obtain ⟨hms, hrest⟩ := innerLoop_eq_tokens accept s
  rw [hlive, tokens_noisy hn ht hparts] at hms hrest
  have hlen : (s.innerLoop accept).2.currDataLen = t.length := by rw [← RxBuf.length_live, hrest]
  refine ⟨hms, hlen, ?_⟩
  rw [← hlen]
  exact hrest

/-- Noise, a sentence with a sync pair in it, a frame with a `$` and a CR LF pair in it, noise, and the start of a
frame. -/
theorem innerLoop_noisy_mixed : ∃ s : RxBuf,
    (s.innerLoop fun _ => true).1 = [.nmea [dollar, ubxSyncCharOne, ubxSyncCharTwo, cr, lf],
      .ubx [ubxSyncCharOne, ubxSyncCharTwo, 0x01, 0x07, 0x03, 0x00, dollar, cr, lf, 0x00, 0x00]] ∧
    (s.innerLoop fun _ => true).2.data.take 2 = [ubxSyncCharOne, ubxSyncCharTwo] := by
  let sentence : List UInt8 := [dollar, ubxSyncCharOne, ubxSyncCharTwo, cr, lf]
  let frame : List UInt8 := [ubxSyncCharOne, ubxSyncCharTwo, 0x01, 0x07, 0x03, 0x00, dollar, cr, lf, 0x00, 0x00]
  have hs : Sentence sentence := ⟨[ubxSyncCharOne, ubxSyncCharTwo], rfl, by decide⟩
  have hf : Frame frame := ⟨0x01, 0x07, 0x03, 0x00, [dollar, cr, lf], 0x00, 0x00, rfl, rfl⟩
  have hnoise : Noise [0x00, lf] := ⟨by decide, by decide⟩
  have hnil : Noise [] := ⟨List.not_mem_nil, List.not_mem_nil⟩
  have h := innerLoop_noisy (fun _ => true)
    (bufOf (noisyBytes [([0x00, lf], .nmea sentence), ([], .ubx frame)] ++ ([0x00, lf] ++
      [ubxSyncCharOne, ubxSyncCharTwo])) (by decide))
    [([0x00, lf], .nmea sentence), ([], .ubx frame)] [0x00, lf] [ubxSyncCharOne, ubxSyncCharTwo]
    (by simp [hnoise, hnil, Msg.Complete, hs, hf]) hnoise (.ubx [] (.inl (by decide))) (live_bufOf _ _)
  exact ⟨_, h.1, h.2.2⟩

end TrackIt.Framer
