import TrackIt.Lib.Digits
import TrackIt.Lib.Double
import TrackIt.Lib.Reader

/-!
# Numbers in text

`formatF k d` is `d` as `%.kf` prints it: rounded to `k` places, a tie to the even digit.

- `reads_number`: a reader gets back what was printed, in units of the last place;
- `printed_quotient`: **a quotient by a power of ten is printed exactly**, although it is no double.
-/

namespace TrackIt.Lib

/-! ## Digits -/

/-- The digits of `n`, the highest one first. -/
def decimal (n : Nat) : List Nat := if n = 0 then [0] else (Nat.digits 10 n).reverse

theorem ofDigitsBe_eq_ofDigits (b : Nat) (digits : List Nat) : ofDigitsBe b digits = Nat.ofDigits b digits.reverse := by
  induction digits using List.reverseRecOn with
  | nil => rfl
  | append_singleton digits d ih =>
    rw [ofDigitsBe_append, ih, List.reverse_append, List.reverse_singleton, List.singleton_append, Nat.ofDigits_cons]
    exact Nat.add_comm _ _

theorem ofDigitsBe_decimal (n : Nat) : ofDigitsBe 10 (decimal n) = n := by
  rw [ofDigitsBe_eq_ofDigits, decimal]
  split
  · rename_i hn
    rw [hn]
    rfl
  · rw [List.reverse_reverse, Nat.ofDigits_digits]

theorem decimal_lt {n d : Nat} (h : d ∈ decimal n) : d < 10 := by
  rw [decimal] at h
  split at h
  · rw [List.mem_singleton.1 h]
    decide
  · exact Nat.digits_lt_base (by decide) (List.mem_reverse.1 h)

def digitByte (d : Nat) : UInt8 := .ofNat (48 + d)

def isDigit (c : UInt8) : Bool := 48 ≤ c && c ≤ 57

/-- The number of a row of digits. -/
def ofDigitBytes (bytes : List UInt8) : Nat := ofDigitsBe 10 (bytes.map fun c => c.toNat - 48)

theorem isDigit_digitByte {d : Nat} (h : d < 10) : isDigit (digitByte d) = true := by
  obtain rfl | rfl | rfl | rfl | rfl | rfl | rfl | rfl | rfl | rfl :
    d = 0 ∨ d = 1 ∨ d = 2 ∨ d = 3 ∨ d = 4 ∨ d = 5 ∨ d = 6 ∨ d = 7 ∨ d = 8 ∨ d = 9 := by omega
  all_goals rfl

theorem ofDigitBytes_map {digits : List Nat} (h : ∀ d ∈ digits, d < 10) :
    ofDigitBytes (digits.map digitByte) = ofDigitsBe 10 digits := by
  rw [ofDigitBytes, List.map_map]
  have hmap : digits.map ((fun c : UInt8 => c.toNat - 48) ∘ digitByte) = digits.map id := by
    refine List.map_congr_left fun d hd => ?_
    have hd := h d hd
    have hmod : (48 + d) % 2 ^ 8 = 48 + d := Nat.mod_eq_of_lt (by omega)
    rw [Function.comp_apply, digitByte, UInt8.toNat_ofNat', hmod]
    exact Nat.add_sub_cancel_left 48 d
  rw [hmap, List.map_id]

/-! ## Printing and reading -/

/-- `-` and `.` -/
def minusByte : UInt8 := 45

def pointByte : UInt8 := 46

/-- What `%.kf` prints for `d`. -/
def formatF (k : Nat) (d : ℚ) : List UInt8 :=
  let n := (roundEven (|d| * 10 ^ k)).toNat
  (if d < 0 then [minusByte] else []) ++ (decimal (n / 10 ^ k)).map digitByte ++ [pointByte]
    ++ (digitsBe 10 k n).map digitByte

/-- A number with `k` places, in units of the last one. -/
def number (k : Nat) : Reader Int := fun s =>
  let negative := s.head? = some minusByte
  let s := if negative then s.tail else s
  let whole := s.takeWhile isDigit
  let places := (s.drop (whole.length + 1)).take k
  let n : Int := ofDigitBytes whole * 10 ^ k + ofDigitBytes places
  if (s.drop whole.length).head? = some pointByte ∧ places.length = k then
    some (if negative then -n else n, s.drop (whole.length + 1 + k))
  else none

theorem number_read {k : Nat} {whole places : List UInt8} (hwhole : ∀ c ∈ whole, isDigit c = true)
    (hne : whole ≠ []) (hplaces : places.length = k) (negative : Bool) (rest : List UInt8) :
    (number k).run ((if negative then [minusByte] else []) ++ whole ++ [pointByte] ++ places ++ rest) =
      some (if negative then -(ofDigitBytes whole * 10 ^ k + ofDigitBytes places : Int)
        else ofDigitBytes whole * 10 ^ k + ofDigitBytes places, rest) := by
  have htake : (whole ++ pointByte :: (places ++ rest)).takeWhile isDigit = whole := by
    rw [List.takeWhile_append_of_pos hwhole, List.takeWhile_cons_of_neg (by decide), List.append_nil]
  have hdrop : (whole ++ pointByte :: (places ++ rest)).drop whole.length = pointByte :: (places ++ rest) :=
    List.drop_left
  have hdrop' : (whole ++ pointByte :: (places ++ rest)).drop (whole.length + 1) = places ++ rest := by
    rw [← List.drop_drop, hdrop, List.drop_one, List.tail_cons]
  have hrest : (whole ++ pointByte :: (places ++ rest)).drop (whole.length + 1 + k) = rest := by
    rw [← List.drop_drop, hdrop', List.drop_left' hplaces]
  cases negative with
  | true =>
    simp only [number, StateT.run, if_true, List.append_assoc, List.cons_append,
      List.nil_append, List.head?_cons, List.tail_cons, htake, hdrop, hdrop', hrest, List.take_left' hplaces, hplaces,
      and_self]
  | false =>
    have hhead : whole.head? ≠ some minusByte := by
      intro h
      have hminus := hwhole _ (List.mem_of_mem_head? h)
      cases hminus
    have hfirst : (whole ++ pointByte :: (places ++ rest)).head? ≠ some minusByte := by
      rwa [List.head?_append_of_ne_nil _ hne]
    simp only [number, StateT.run, Bool.false_eq_true, if_false, List.append_assoc, List.cons_append,
      List.nil_append, hfirst, htake, hdrop, hdrop', hrest, List.take_left' hplaces, hplaces, List.head?_cons,
      and_self, if_true]

theorem isDigit_map {digits : List Nat} (h : ∀ d ∈ digits, d < 10) : ∀ c ∈ digits.map digitByte, isDigit c = true := by
  intro c hc
  obtain ⟨d, hd, rfl⟩ := List.mem_map.1 hc
  exact isDigit_digitByte (h d hd)

theorem decimal_ne_nil (n : Nat) : decimal n ≠ [] := by
  rw [decimal]
  split
  · exact List.cons_ne_nil _ _
  · rename_i hn
    simpa [Nat.digits_ne_nil_iff_ne_zero] using hn

/-- **What is printed is read back.** -/
theorem reads_number (k : Nat) (d : ℚ) : Reader.Reads (number k) (formatF k d)
    (if d < 0 then -((roundEven (|d| * 10 ^ k)).toNat : Int) else (roundEven (|d| * 10 ^ k)).toNat) := by
  intro rest
  have hlt : ∀ e ∈ decimal ((roundEven (|d| * 10 ^ k)).toNat / 10 ^ k), e < 10 := fun e he => decimal_lt he
  have hplaces : ∀ e ∈ digitsBe 10 k (roundEven (|d| * 10 ^ k)).toNat, e < 10 := by
    intro e he
    obtain ⟨i, -, rfl⟩ := List.mem_map.1 he
    exact Nat.mod_lt _ (by decide)
  have hread := number_read (k := k) (isDigit_map hlt)
    (List.map_eq_nil_iff.not.2 (decimal_ne_nil _))
    (show ((digitsBe 10 k (roundEven (|d| * 10 ^ k)).toNat).map digitByte).length = k by
      rw [List.length_map, length_digitsBe]) (decide (d < 0)) rest
  rw [ofDigitBytes_map hlt, ofDigitBytes_map hplaces, ofDigitsBe_decimal, ofDigitsBe_digitsBe] at hread
  have hsplit : (((roundEven (|d| * 10 ^ k)).toNat / 10 ^ k : Nat) : Int) * 10 ^ k +
      ((roundEven (|d| * 10 ^ k)).toNat % 10 ^ k : Nat) = (roundEven (|d| * 10 ^ k)).toNat := by
    exact_mod_cast Nat.div_add_mod' _ _
  rw [hsplit] at hread
  simpa only [formatF, decide_eq_true_eq] using hread

/-- The double of a quotient by a power of ten is next to it, as long as it has digits to spare. -/
theorem roundEven_quotient (k : Nat) {x : Int} (hx : |x| < 2 ^ 52) :
    roundEven (|toDouble (x / 10 ^ k)| * 10 ^ k) = |x| := by
  have hpow : (0 : ℚ) < 10 ^ k := pow_pos (by norm_num) k
  have hx' : |(x : ℚ)| < 2 ^ 52 := by exact_mod_cast hx
  have hq : |(x : ℚ) / 10 ^ k| * 10 ^ k = |(x : ℚ)| := by
    rw [abs_div, abs_of_pos hpow, div_mul_cancel₀ _ hpow.ne']
  have herr : abs (|toDouble (x / 10 ^ k)| * 10 ^ k - |(x : ℚ)|) < 1 / 2 :=
    calc abs (|toDouble (x / 10 ^ k)| * 10 ^ k - |(x : ℚ)|)
        = abs (|toDouble (x / 10 ^ k)| - |(x : ℚ) / 10 ^ k|) * 10 ^ k := by
          rw [← hq, ← sub_mul, abs_mul, abs_of_pos hpow]
      _ ≤ |toDouble (x / 10 ^ k) - x / 10 ^ k| * 10 ^ k :=
          mul_le_mul_of_nonneg_right (abs_abs_sub_abs_le _ _) hpow.le
      _ ≤ |(x : ℚ) / 10 ^ k| / 2 ^ 53 * 10 ^ k := mul_le_mul_of_nonneg_right (abs_toDouble_sub_le _) hpow.le
      _ = |(x : ℚ)| / 2 ^ 53 := by rw [← hq]; ring
      _ < 1 / 2 := by linarith
  exact roundEven_eq (by push_cast; exact herr)

/-- **A quotient by a power of ten is printed exactly.** -/
theorem printed_quotient (k : Nat) {x : Int} (hx : |x| < 2 ^ 52) :
    Reader.Reads (number k) (formatF k (toDouble (x / 10 ^ k))) x := by
  have hpow : (0 : ℚ) < 10 ^ k := pow_pos (by norm_num) k
  have hsign : toDouble (x / 10 ^ k) < 0 ↔ x < 0 := by
    rw [toDouble_neg_iff, div_lt_iff₀ hpow, zero_mul]
    exact Int.cast_lt_zero
  have hread := reads_number k (toDouble (x / 10 ^ k))
  have hnat : ((|x|).toNat : Int) = |x| := Int.toNat_of_nonneg (abs_nonneg x)
  rw [roundEven_quotient k hx, hnat] at hread
  by_cases hneg : x < 0
  · rwa [if_pos (hsign.2 hneg), abs_of_neg hneg, neg_neg] at hread
  · rwa [if_neg (mt hsign.1 hneg), abs_of_nonneg (not_lt.1 hneg)] at hread

/-- How much room a number takes: a sign, `m` digits, the point and the places. -/
theorem length_formatF_le {k m : Nat} {d : ℚ} (hm : 0 < m) (h : roundEven (|d| * 10 ^ k) < 10 ^ (m + k)) :
    (formatF k d).length ≤ m + k + 2 := by
  have hn : (roundEven (|d| * 10 ^ k)).toNat / 10 ^ k < 10 ^ m := by
    rw [Nat.div_lt_iff_lt_mul (Nat.pow_pos (by decide)), ← pow_add]
    exact (Int.toNat_lt' (by positivity)).2 (by exact_mod_cast h)
  have hdigits : (decimal ((roundEven (|d| * 10 ^ k)).toNat / 10 ^ k)).length ≤ m := by
    rw [decimal]
    split
    · exact hm
    · rw [List.length_reverse]
      exact (Nat.digits_length_le_iff (by decide) _).2 hn
  have hsign : (if d < 0 then [minusByte] else []).length ≤ 1 := by
    split <;> simp
  simp only [formatF, List.length_append, List.length_map, length_digitsBe, List.length_singleton]
  omega

end TrackIt.Lib
