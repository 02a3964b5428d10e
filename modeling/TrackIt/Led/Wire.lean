import TrackIt.Lib.Double
import TrackIt.Lib.Encoder
import TrackIt.Led.Strip

/-!
# Pixels on the wire

A refresh sends the bytes of the pixels as pulses, a symbol for each bit and one for the pause behind them. The symbols
are written by `rmt_encode_led_strip`, which the RMT driver calls again and again, for as much memory as is free: an
encoder for the bytes first and then one that copies the reset code. The LEDs at the other end tell the bits by how long
the line is high, take their own bits and pass the others on, and show them in the pause.

- `encodes_encodeLedStrip`: in whatever portions, the pixels and the reset code are written once and in order;
- `tells_of_resolution`: above 10/3 MHz, a LED of each model can tell the bits;
- `transmit_shows`: **each LED shows its pixel** after a refresh that went through, in whatever portions it was sent.
-/

namespace TrackIt.Led

open TrackIt.Lib

/-- `rmt_symbol_word_t`: two levels, for so many ticks each. -/
structure RmtSymbol where
  level0 : Bool
  duration0 : Nat
  level1 : Bool
  duration1 : Nat
  deriving DecidableEq

/-- `rmt_bytes_encoder_config_t` -/
structure BytesEncoderConfig where
  bit0 : RmtSymbol
  bit1 : RmtSymbol
  msbFirst : Bool

/-- `us * config->resolution / 1000000` in `double`, for a duration in microseconds. -/
def ticksDouble (us : ℚ) (resolution : Nat) : ℚ := toDouble (toDouble (toDouble us * resolution) / 1000000)

/-- The duration in whole ticks, of 15 bits. -/
def ticks (us : ℚ) (resolution : Nat) : Nat := ⌊ticksDouble us resolution⌋₊ % 2 ^ 15

/-- `rmt_led_strip_encoder_t`, without the states of the encoders. -/
structure LedEncoderConfig where
  bytes : BytesEncoderConfig
  resetCode : RmtSymbol

/-- The configuration of one model: how long the line is high and low for each bit, and the pause, in microseconds. -/
def ledTiming (resolution : Nat) (t0h t0l t1h t1l : ℚ) (reset : Nat) : LedEncoderConfig :=
  let resetTicks := resolution / 1000000 * reset / 2 % 2 ^ 15
  { bytes := {
      bit0 := ⟨true, ticks t0h resolution, false, ticks t0l resolution⟩
      bit1 := ⟨true, ticks t1h resolution, false, ticks t1l resolution⟩
      msbFirst := true }
    resetCode := ⟨false, resetTicks, false, resetTicks⟩ }

/-- `rmt_new_led_strip_encoder` -/
def rmtNewLedStripEncoder (resolution : UInt32) (model : LedModel) (resources : Except EspErr Unit) :
    Except EspErr LedEncoderConfig :=
  let timing := match model with
    | .sk6812 => some (ledTiming resolution.toNat 0.3 0.9 0.6 0.6 280)
    | .ws2812 => some (ledTiming resolution.toNat 0.3 0.9 0.9 0.3 280)
    | .ws2811 => some (ledTiming resolution.toNat 0.5 2.0 1.2 1.3 50)
    | .ws2816 => some (ledTiming resolution.toNat 0.3 0.95 0.75 0.5 280)
    | .invalid => none
  match timing, resources with
  | none, _ => .error .invalidArg
  | some _, .error e => .error e
  | some c, .ok () => .ok c

/-! ## The encoder -/

/-- `rmt_led_strip_encoder_t`: its state, and those of the two encoders. -/
structure LedEncoder (σ τ : Type*) where
  state : Nat
  bytes : σ
  copy : τ

section Encode

variable {σ τ : Type*} (bytesEncoder : Encoder (List UInt8) σ RmtSymbol) (copyEncoder : Encoder RmtSymbol τ RmtSymbol)

/-- `case 1` of `rmt_encode_led_strip`; `encoded` are the symbols that this call has written. -/
def encodeResetCode (resetCode : RmtSymbol) (e : LedEncoder σ τ) (free : Nat) (encoded : List RmtSymbol) :
    Encoded RmtSymbol × LedEncoder σ τ :=
  let session := copyEncoder resetCode e.copy (free - encoded.length)
  let e := { e with copy := session.2 }
  (⟨encoded ++ session.1.symbols, session.1.complete, session.1.memFull⟩,
    if session.1.complete then { e with state := 0 } else e)

def rmtEncodeLedStrip (resetCode : RmtSymbol) (data : List UInt8) (e : LedEncoder σ τ) (free : Nat) :
    Encoded RmtSymbol × LedEncoder σ τ :=
  match e.state with
  | 0 =>
    let session := bytesEncoder data e.bytes free
    let e := { e with bytes := session.2 }
    let e := if session.1.complete then { e with state := 1 } else e
    if session.1.memFull then (⟨session.1.symbols, false, true⟩, e)
    else encodeResetCode copyEncoder resetCode e free session.1.symbols
  | 1 => encodeResetCode copyEncoder resetCode e free []
  | _ => (⟨[], false, false⟩, e)

end Encode

/-- The symbols of a byte. -/
def BytesEncoderConfig.symbols (c : BytesEncoderConfig) (byte : UInt8) : List RmtSymbol :=
  let bits := digitsBe 2 8 byte.toNat
  (if c.msbFirst then bits else bits.reverse).map fun bit => if bit = 1 then c.bit1 else c.bit0

/-- What is sent for the pixels. -/
def LedEncoderConfig.symbols (c : LedEncoderConfig) (data : List UInt8) : List RmtSymbol :=
  data.flatMap c.bytes.symbols ++ [c.resetCode]

section Encodes

variable {σ τ : Type*} {bytesEncoder : Encoder (List UInt8) σ RmtSymbol} {copyEncoder : Encoder RmtSymbol τ RmtSymbol}
variable {idle₁ : σ} {idle₂ : τ} {c : LedEncoderConfig}
variable {Todo₁ : List UInt8 → σ → List RmtSymbol → Prop} {Todo₂ : RmtSymbol → τ → List RmtSymbol → Prop}

/-- The state of the encoder says which of the two is running. -/
def LedEncoder.inTurn (e : LedEncoder σ τ) : InTurn σ τ := ⟨e.state = 1, e.bytes, e.copy⟩

theorem encodeLedStrip_andThen (data : List UInt8) {e : LedEncoder σ τ} (free : Nat) (he : e.state ≤ 1) :
    let call := rmtEncodeLedStrip bytesEncoder copyEncoder c.resetCode data e free
    let call' := bytesEncoder.andThen (fun _ s free => copyEncoder c.resetCode s free) data e.inTurn free
    call.1 = call'.1 ∧ call.2.inTurn = call'.2 ∧ call.2.state ≤ 1 := by
  have hreset : ∀ {e : LedEncoder σ τ} {e' : InTurn σ τ} (encoded : List RmtSymbol), e.state ≤ 1 → e.inTurn = e' →
      let call := encodeResetCode copyEncoder c.resetCode e free encoded
      let call' := Encoder.runSecond (fun _ s free => copyEncoder c.resetCode s free) data e' free encoded
      call.1 = call'.1 ∧ call.2.inTurn = call'.2 ∧ call.2.state ≤ 1 := by
    rintro e _ encoded he rfl
    dsimp only [encodeResetCode, Encoder.runSecond]
    refine ⟨rfl, ?_, ?_⟩
    · cases h : (copyEncoder c.resetCode e.copy (free - encoded.length)).1.complete <;>
        simp [LedEncoder.inTurn, h]
    · split
      · exact Nat.zero_le 1
      · exact he
  obtain ⟨state, bytes, copy⟩ := e
  obtain rfl | rfl : state = 0 ∨ state = 1 := by
    have he : state ≤ 1 := he
    omega
  · dsimp only [rmtEncodeLedStrip, LedEncoder.inTurn, Encoder.andThen]
    by_cases hfull : (bytesEncoder data bytes free).1.memFull = true
    · simp only [hfull]
      cases (bytesEncoder data bytes free).1.complete <;> simp
    · simp only [hfull]
      refine hreset _ ?_ ?_
      · split <;> simp
      · cases (bytesEncoder data bytes free).1.complete <;> simp [LedEncoder.inTurn]
  · exact hreset [] he rfl

/-- **The encoder writes the pixels and then the reset code**, if the two encoders of the RMT driver write theirs. -/
theorem encodes_encodeLedStrip (h₁ : Encodes bytesEncoder idle₁ (List.flatMap c.bytes.symbols) Todo₁)
    (h₂ : Encodes copyEncoder idle₂ (fun symbol => [symbol]) Todo₂) :
    ∃ Todo, Encodes (rmtEncodeLedStrip bytesEncoder copyEncoder c.resetCode) ⟨0, idle₁, idle₂⟩ c.symbols Todo := by
  have h := h₁.andThen (h₂.fixed c.resetCode) fun _ => List.cons_ne_nil _ _
  refine ⟨_, h.transfer LedEncoder.inTurn (·.state ≤ 1) ⟨Nat.zero_le 1, rfl⟩ ?_ fun free he =>
    encodeLedStrip_andThen _ free he⟩
  rintro ⟨state, bytes, copy⟩ he hidle
  obtain ⟨hstate, rfl, rfl⟩ := InTurn.mk.inj hidle
  have he : state ≤ 1 := he
  have hstate : state ≠ 1 := of_decide_eq_false hstate
  obtain rfl : state = 0 := by omega
  rfl

end Encodes

/-! ## The LEDs -/

/-- What a LED goes by, in ticks: from when on a high line is a 1, and from when on a low one is the pause. -/
structure Chip where
  threshold : Nat
  pause : Nat

/-- The bits in front of the first pause in a row of symbols, if there is one in it. How the line idles behind the
symbols is left out. -/
def Chip.latch (chip : Chip) : List RmtSymbol → Option (List Nat)
  | [] => none
  | s :: rest =>
    if s.level0 then (chip.latch rest).map ((if chip.threshold ≤ s.duration0 then 1 else 0) :: ·)
    else if chip.pause ≤ s.duration0 + s.duration1 then some [] else none

/-- The bounds within which a LED understands the symbols. -/
structure Chip.Tells (chip : Chip) (c : LedEncoderConfig) : Prop where
  high : c.bytes.bit0.level0 = true ∧ c.bytes.bit1.level0 = true
  bits : c.bytes.bit0.duration0 < chip.threshold ∧ chip.threshold ≤ c.bytes.bit1.duration0
  low : c.resetCode.level0 = false
  pause : chip.pause ≤ c.resetCode.duration0 + c.resetCode.duration1
  msbFirst : c.bytes.msbFirst = true

/-- LED `n` takes the bits behind those that the LEDs in front of it have kept, and a number off each position. -/
def shownValue (f : FormatLayout) (bits : List Nat) (n pos : Nat) : Nat :=
  let size := 8 * f.bytesPerColor.val
  let own := (bits.drop (n * (f.numComponents * size))).take (f.numComponents * size)
  ofDigitsBe 2 ((own.drop (pos * size)).take size)

def shown (f : FormatLayout) (bits : List Nat) (n : Nat) : Color := f.colorOf (shownValue f bits n)

theorem ticksDouble_nonneg {us : ℚ} (h₀ : 0 ≤ us) (resolution : Nat) : 0 ≤ ticksDouble us resolution :=
  toDouble_nonneg (div_nonneg (toDouble_nonneg (mul_nonneg (toDouble_nonneg h₀) (Nat.cast_nonneg _))) (by norm_num))

/-- The roundings matter little. -/
theorem ticksDouble_close {us : ℚ} (h₀ : 0 ≤ us) (h₂ : us ≤ 2) (resolution : UInt32) :
    |ticksDouble us resolution.toNat - us * resolution.toNat / 1000000| ≤ 1 / 10 ^ 8 := by
  have hres₀ : (0 : ℚ) ≤ resolution.toNat := Nat.cast_nonneg _
  have hres : (resolution.toNat : ℚ) ≤ 2 ^ 32 := by exact_mod_cast resolution.toNat_lt.le
  rw [ticksDouble]
  generalize (resolution.toNat : ℚ) = r at *
  have hus : |toDouble us - us| ≤ 2 / 2 ^ 53 := by
    have herr := abs_toDouble_sub_le us
    rw [abs_of_nonneg h₀] at herr
    linarith
  have hmul : |toDouble us * r - us * r| ≤ 2 / 2 ^ 53 * 2 ^ 32 := by
    rw [← sub_mul, abs_mul, abs_of_nonneg hres₀]
    exact mul_le_mul hus hres hres₀ (by norm_num)
  have hmax : |us * r| ≤ 2 * 2 ^ 32 := by
    rw [abs_of_nonneg (mul_nonneg h₀ hres₀)]
    exact mul_le_mul h₂ hres hres₀ (by norm_num)
  have hprod := toDouble_close hmul hmax
  generalize toDouble (toDouble us * r) = p at *
  have hdiv : |p / 1000000 - us * r / 1000000| ≤ (2 / 2 ^ 53 * 2 ^ 32 + (2 * 2 ^ 32 + 2 / 2 ^ 53 * 2 ^ 32) / 2 ^ 53) /
      1000000 := by
    rw [← sub_div, abs_div, abs_of_pos (show (0 : ℚ) < 1000000 by norm_num)]
    gcongr
  have hmax' : |us * r / 1000000| ≤ 2 * 2 ^ 32 / 1000000 := by
    rw [abs_div, abs_of_pos (show (0 : ℚ) < 1000000 by norm_num)]
    gcongr
  refine (toDouble_close hdiv hmax').trans ?_
  norm_num

/-- Durations that differ by more than a tick differ in ticks. -/
theorem ticks_lt {t t' : ℚ} (resolution : UInt32) (h₀ : 0 ≤ t) (ht : t + 0.3 ≤ t') (h₂ : t' ≤ 2)
    (hres : 10000000 < 3 * resolution.toNat) : ticks t resolution.toNat < ticks t' resolution.toNat := by
  have hd₀ := ticksDouble_nonneg h₀ resolution.toNat
  have hclose := abs_le.1 (ticksDouble_close h₀ (by linarith) resolution)
  have hclose' := abs_le.1 (ticksDouble_close (by linarith) h₂ resolution)
  have hmax : (resolution.toNat : ℚ) ≤ 2 ^ 32 := by exact_mod_cast resolution.toNat_lt.le
  have hmin : (10000001 : ℚ) ≤ 3 * resolution.toNat := by exact_mod_cast hres
  have hr₀ : (0 : ℚ) ≤ resolution.toNat := Nat.cast_nonneg _
  rw [ticks, ticks]
  generalize ticksDouble t resolution.toNat = d at *
  generalize ticksDouble t' resolution.toNat = d' at *
  generalize (resolution.toNat : ℚ) = r at *
  have hgap : t * r + 0.3 * r ≤ t' * r := by
    rw [← add_mul]
    exact mul_le_mul_of_nonneg_right ht hr₀
  have htop : t' * r ≤ 2 * 2 ^ 32 := mul_le_mul h₂ hmax hr₀ (by norm_num)
  have hd : d + 1 ≤ d' := by linarith [hclose.2, hclose'.1]
  have hd' : d' < 2 ^ 15 := by linarith [hclose'.2]
  have hlt : ⌊d⌋₊ + 1 ≤ ⌊d'⌋₊ := by
    rw [← Nat.floor_add_one hd₀]
    exact Nat.floor_le_floor hd
  have hmod : ⌊d'⌋₊ < 2 ^ 15 := (Nat.floor_lt (by linarith)).2 (by exact_mod_cast hd')
  omega

/-- Above 10/3 MHz, a LED of each model can tell the bits. -/
theorem tells_of_resolution {resolution : UInt32} {model : LedModel} {resources : Except EspErr Unit}
    {c : LedEncoderConfig} (h : rmtNewLedStripEncoder resolution model resources = .ok c)
    (hres : 10000000 < 3 * resolution.toNat) :
    (⟨c.bytes.bit1.duration0, 2 * c.resetCode.duration0⟩ : Chip).Tells c := by
  have htells : ∀ {t0h t0l t1h t1l : ℚ} {reset : Nat}, 0 ≤ t0h → t0h + 0.3 ≤ t1h → t1h ≤ 2 →
      c = ledTiming resolution.toNat t0h t0l t1h t1l reset →
      (⟨c.bytes.bit1.duration0, 2 * c.resetCode.duration0⟩ : Chip).Tells c := by
    rintro t0h t0l t1h t1l reset h₀ ht h₂ rfl
    exact ⟨⟨rfl, rfl⟩, ⟨ticks_lt resolution h₀ ht h₂ hres, Nat.le_refl _⟩, rfl, by rw [Nat.two_mul]; rfl, rfl⟩
  cases resources with
  | error e => cases model <;> cases h
  | ok u =>
    cases model with
    | ws2812 => exact htells (by norm_num) (by norm_num) (by norm_num) (Except.ok.inj h).symm
    | sk6812 => exact htells (by norm_num) (by norm_num) (by norm_num) (Except.ok.inj h).symm
    | ws2811 => exact htells (by norm_num) (by norm_num) (by norm_num) (Except.ok.inj h).symm
    | ws2816 => exact htells (by norm_num) (by norm_num) (by norm_num) (Except.ok.inj h).symm
    | invalid => cases h

def bitsOf (data : List UInt8) : List Nat := data.flatMap fun byte => digitsBe 2 8 byte.toNat

theorem digitsBe_two_lt {n x d : Nat} (h : d ∈ digitsBe 2 n x) : d < 2 := by
  obtain ⟨i, -, rfl⟩ := List.mem_map.1 h
  exact Nat.mod_lt _ Nat.two_pos

theorem Chip.Tells.symbols_eq {chip : Chip} {c : LedEncoderConfig} (h : chip.Tells c) (data : List UInt8) :
    c.symbols data =
      (bitsOf data).map (fun bit => if bit = 1 then c.bytes.bit1 else c.bytes.bit0) ++ [c.resetCode] := by
  rw [LedEncoderConfig.symbols, bitsOf, List.map_flatMap]
  refine congrArg (· ++ _) (List.flatMap_congr fun byte _ => ?_)
  rw [BytesEncoderConfig.symbols, if_pos h.msbFirst]

theorem Chip.Tells.latch_bits {chip : Chip} {c : LedEncoderConfig} (h : chip.Tells c) {bits : List Nat}
    (hbits : ∀ bit ∈ bits, bit < 2) (rest : List RmtSymbol) :
    chip.latch (bits.map (fun bit => if bit = 1 then c.bytes.bit1 else c.bytes.bit0) ++ rest) =
      (chip.latch rest).map (bits ++ ·) := by
  induction bits with
  | nil => simp
  | cons bit bits ih =>
    have hbit : bit < 2 := hbits bit List.mem_cons_self
    have hrest := ih fun bit hb => hbits bit (List.mem_cons_of_mem _ hb)
    have h0 : ¬ chip.threshold ≤ c.bytes.bit0.duration0 := Nat.not_le.2 h.bits.1
    obtain rfl | rfl : bit = 0 ∨ bit = 1 := by omega
    · rw [List.map_cons, List.cons_append, Chip.latch, hrest, Option.map_map]
      simp [h.high.1, h0, Function.comp_def]
    · rw [List.map_cons, List.cons_append, Chip.latch, hrest, Option.map_map]
      simp [h.high.2, h.bits.2, Function.comp_def]

/-- The bits that arrive are those of the bytes. -/
theorem Chip.Tells.latch_symbols {chip : Chip} {c : LedEncoderConfig} (h : chip.Tells c) (data : List UInt8) :
    chip.latch (c.symbols data) = some (bitsOf data) := by
  have hbits : ∀ bit ∈ bitsOf data, bit < 2 := by
    intro bit hb
    obtain ⟨byte, -, hb⟩ := List.mem_flatMap.1 hb
    exact digitsBe_two_lt hb
  have hreset : chip.latch [c.resetCode] = some [] := by
    rw [Chip.latch, h.low, if_neg Bool.false_ne_true, if_pos h.pause]
  rw [h.symbols_eq, h.latch_bits hbits, hreset, Option.map_some, List.append_nil]

/-- There is no pause in a part. -/
theorem Chip.Tells.latch_part {chip : Chip} {c : LedEncoderConfig} (h : chip.Tells c) (data : List UInt8) {k : Nat}
    (hk : k < (c.symbols data).length) : chip.latch ((c.symbols data).take k) = none := by
  have hbits : ∀ bit ∈ (bitsOf data).take k, bit < 2 := by
    intro bit hb
    obtain ⟨byte, -, hb⟩ := List.mem_flatMap.1 (List.mem_of_mem_take hb)
    exact digitsBe_two_lt hb
  rw [h.symbols_eq] at hk ⊢
  rw [List.length_append, List.length_map, List.length_singleton] at hk
  rw [List.take_append_of_le_length (by rw [List.length_map]; omega), ← List.map_take]
  have hlatch := h.latch_bits hbits []
  rw [List.append_nil] at hlatch
  rw [hlatch]
  rfl

/-- The bits of one component. -/
theorem shownValue_bitsOf (s : Strip) (n : Nat) {pos : Nat} (hpos : pos < s.componentFmt.numComponents.val) :
    shownValue s.componentFmt (bitsOf s.pixelBuf) n pos = s.value n pos := by
  have hlength : ∀ byte : UInt8, (digitsBe 2 8 byte.toNat).length = 8 := fun byte => length_digitsBe 2 8 _
  have hroom : s.componentFmt.bytesPerColor.val * 8 ≤
      s.componentFmt.numComponents * (s.componentFmt.bytesPerColor.val * 8) -
        pos * (s.componentFmt.bytesPerColor.val * 8) := by
    rw [← Nat.sub_mul]
    exact Nat.le_mul_of_pos_left _ (by omega)
  have hstart : n * (s.componentFmt.numComponents * (s.componentFmt.bytesPerColor.val * 8)) +
      pos * (s.componentFmt.bytesPerColor.val * 8) =
      (n * s.componentFmt.numComponents + pos) * s.componentFmt.bytesPerColor * 8 := by ring
  have hbyte : ∀ d ∈ (s.component n pos).map UInt8.toNat, d < 2 ^ 8 := by
    intro d hd
    obtain ⟨byte, -, rfl⟩ := List.mem_map.1 hd
    exact byte.toNat_lt
  rw [shownValue, Nat.mul_comm 8]
  rw [List.drop_take, List.take_take, Nat.min_eq_left hroom, List.drop_drop, hstart, bitsOf,
    drop_flatMap hlength, take_flatMap hlength]
  have hdigits := ofDigitsBe_flatMap 2 8 hbyte
  rwa [List.flatMap_map] at hdigits

/-- **A LED reads its pixel off the bits.** -/
theorem shown_bitsOf (s : Strip) (n : Nat) : shown s.componentFmt (bitsOf s.pixelBuf) n = s.color n :=
  FormatLayout.colorOf_congr fun _ hpos => shownValue_bitsOf s n (s.valid.lt _ hpos)

/-! ## A refresh -/

section Refresh

variable {σ τ : Type*} {bytesEncoder : Encoder (List UInt8) σ RmtSymbol} {copyEncoder : Encoder RmtSymbol τ RmtSymbol}
variable {idle₁ : σ} {idle₂ : τ} {c : LedEncoderConfig}
variable {Todo₁ : List UInt8 → σ → List RmtSymbol → Prop} {Todo₂ : RmtSymbol → τ → List RmtSymbol → Prop}

/-- `rmt_transmit` calls the encoder with as much memory as is free each time. -/
def transmit (bytesEncoder : Encoder (List UInt8) σ RmtSymbol) (copyEncoder : Encoder RmtSymbol τ RmtSymbol)
    (c : LedEncoderConfig) (s : Strip) (e : LedEncoder σ τ) (frees : List Nat) :
    List RmtSymbol × LedEncoder σ τ × Bool :=
  session (rmtEncodeLedStrip bytesEncoder copyEncoder c.resetCode) s.pixelBuf e frees

/-- **Each LED shows its pixel** after a transmission, whatever memory was free in it, and the encoder is ready for the
next one. With too little memory for all symbols, those that are written have no pause among them. -/
theorem transmit_shows (h₁ : Encodes bytesEncoder idle₁ (List.flatMap c.bytes.symbols) Todo₁)
    (h₂ : Encodes copyEncoder idle₂ (fun symbol => [symbol]) Todo₂) {chip : Chip} (hchip : chip.Tells c) (s : Strip)
    {frees : List Nat} (hne : frees ≠ []) :
    let sent := transmit bytesEncoder copyEncoder c s ⟨0, idle₁, idle₂⟩ frees
    if 8 * s.pixelBuf.length < frees.sum then
      sent.2 = (⟨0, idle₁, idle₂⟩, true) ∧
        ∃ bits, chip.latch sent.1 = some bits ∧ ∀ n, shown s.componentFmt bits n = s.color n
    else chip.latch sent.1 = none := by
  obtain ⟨Todo, henc⟩ := encodes_encodeLedStrip h₁ h₂
  have hlength : (c.symbols s.pixelBuf).length = 8 * s.pixelBuf.length + 1 := by
    have hbits : (bitsOf s.pixelBuf).length = 8 * s.pixelBuf.length := by
      rw [bitsOf, List.length_flatMap]
      simp [Nat.mul_comm]
    rw [hchip.symbols_eq, List.length_append, List.length_map, hbits, List.length_singleton]
  dsimp only [transmit]
  split
  · rename_i hroom
    rw [henc.session_out s.pixelBuf hne (by omega)]
    exact ⟨rfl, _, hchip.latch_symbols s.pixelBuf, shown_bitsOf s⟩
  · rename_i hroom
    obtain ⟨e, hsession, -⟩ := henc.session_part frees (henc.start s.pixelBuf) (by omega)
    rw [hsession]
    exact hchip.latch_part s.pixelBuf (by omega)

end Refresh

/-! ## Three pixels -/

def rgbwEncoder : LedEncoderConfig := ledTiming (10000000 : UInt32).toNat 0.3 0.9 0.6 0.6 280

theorem rgbw_tells :
    (⟨rgbwEncoder.bytes.bit1.duration0, 2 * rgbwEncoder.resetCode.duration0⟩ : Chip).Tells rgbwEncoder :=
  tells_of_resolution (show rmtNewLedStripEncoder 10000000 .sk6812 (.ok ()) = .ok rgbwEncoder from rfl) (by decide)

theorem transmit_shows_rgbw : ∃ s, ledStripNewRmtDevice rgbwConfig (.ok ()) = .ok (.strip s) ∧
    let s' := s.apply (.setPixelRgbw 1 0x1234 2 3 4)
    let sent := transmit (Lib.copyEncoder (List.flatMap rgbwEncoder.bytes.symbols))
      (Lib.copyEncoder fun symbol => [symbol]) rgbwEncoder s' ⟨0, 0, 0⟩ [64, 64, 65]
    ∃ bits, (⟨rgbwEncoder.bytes.bit1.duration0, 2 * rgbwEncoder.resetCode.duration0⟩ : Chip).latch sent.1 = some bits ∧
      ∀ n, shown s'.componentFmt bits n = s'.color n := by
  obtain ⟨s, hs⟩ : ∃ s, ledStripNewRmtDevice rgbwConfig (.ok ()) = .ok (.strip s) := ⟨_, rfl⟩
  refine ⟨s, hs, ?_⟩
  have hshows := transmit_shows (encodes_copy _) (encodes_copy _) rgbw_tells (s.apply (.setPixelRgbw 1 0x1234 2 3 4))
    (show [64, 64, 65] ≠ [] by simp)
  have hroom : 8 * (s.apply (.setPixelRgbw 1 0x1234 2 3 4)).pixelBuf.length < [64, 64, 65].sum := by
    obtain ⟨hfmt, hlen⟩ := s.apply_frame (.setPixelRgbw 1 0x1234 2 3 4)
    obtain ⟨hchecked, hleds, -⟩ := newRmtDevice_spec hs
    have hrgbw : checkedFormat rgbwConfig = .ok rgbwConfig.colorComponentFormat := by decide
    rw [hrgbw] at hchecked
    rw [Strip.length_pixelBuf, Strip.bytesPerPixel_eq, hlen, hfmt, hleds, ← Except.ok.inj hchecked]
    decide
  dsimp only at hshows
  rw [if_pos hroom] at hshows
  exact hshows.2

end TrackIt.Led
