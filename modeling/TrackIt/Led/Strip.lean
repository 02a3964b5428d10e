import TrackIt.Lib.Digits
import TrackIt.Lib.LittleEndian
import TrackIt.Lib.Overwrite

/-!
# Pixels of a LED strip

The driver keeps the bytes of all pixels in one array, `pixel_buf`, laid out as the colour format says: a pixel behind
the other, in each of them the components at their positions, and each component with its highest byte first. A colour
is written byte by byte, one byte of each component in a turn of the loop.

- `valid_checkedFormat`: the checks of `led_strip_new_rmt_device` let through the formats whose positions make sense;
- `color_writeColors`: writing a colour changes the colour of one pixel, and nothing else;
- `color_runOps`: **the array is a map from pixels to colours**, for any operations in any order, iff the size of the
  object does not wrap at 32 bits. If it does, some pixel below `max_leds` is written outside the array.
-/

namespace TrackIt.Led

open TrackIt.Lib

inductive EspErr
  | invalidArg
  | noMem
  | driver (code : Nat)
  deriving DecidableEq

inductive LedModel
  | ws2812
  | sk6812
  | ws2811
  | ws2816
  | invalid
  deriving DecidableEq

/-- `struct format_layout`, a word of bit fields. -/
structure FormatLayout where
  rPos : Fin 4
  gPos : Fin 4
  bPos : Fin 4
  wPos : Fin 4
  reserved : Fin (2 ^ 19)
  bytesPerColor : Fin 4
  numComponents : Fin 8
  deriving DecidableEq

namespace FormatLayout

/-- The word itself. -/
def formatId (f : FormatLayout) : Nat :=
  f.rPos + 2 ^ 2 * f.gPos + 2 ^ 4 * f.bPos + 2 ^ 6 * f.wPos + 2 ^ 8 * f.reserved + 2 ^ 27 * f.bytesPerColor
    + 2 ^ 29 * f.numComponents

/-- `LED_STRIP_COLOR_COMPONENT_FMT_GRB` -/
def grb : FormatLayout := ⟨1, 0, 2, 3, 0, 1, 3⟩

/-- A format that is left out of a configuration. -/
def unset : FormatLayout := ⟨0, 0, 0, 0, 0, 0, 0⟩

/-- The positions in use. -/
def positions (f : FormatLayout) : List Nat :=
  [f.rPos.val, f.gPos.val, f.bPos.val] ++ if 3 < f.numComponents.val then [f.wPos.val] else []

/-- `bytes_per_pixel`, once there is one byte at least. -/
def bytesPerPixel (f : FormatLayout) : Nat := f.numComponents * f.bytesPerColor

/-- One byte where none are given. -/
def orOneByte (f : FormatLayout) : FormatLayout := if f.bytesPerColor = 0 then { f with bytesPerColor := 1 } else f

theorem bytesPerColor_orOneByte (f : FormatLayout) : 0 < f.orOneByte.bytesPerColor.val := by
  rw [orOneByte]
  split
  · exact Nat.one_pos
  · rename_i h
    exact Nat.pos_of_ne_zero fun h0 => h (Fin.ext h0)

structure Valid (f : FormatLayout) : Prop where
  bytesPerColor : 0 < f.bytesPerColor.val
  numComponents : f.numComponents.val = 3 ∨ f.numComponents.val = 4
  lt : ∀ pos ∈ f.positions, pos < f.numComponents.val
  nodup : f.positions.Nodup

end FormatLayout

/-- `led_strip_config_t` -/
structure LedConfig where
  maxLeds : UInt32
  ledModel : LedModel
  colorComponentFormat : FormatLayout

/-- The defaults of `led_strip_new_rmt_device` for the format. -/
def LedConfig.componentFmt (c : LedConfig) : FormatLayout :=
  let fmt := if c.colorComponentFormat.formatId = 0 then FormatLayout.grb else c.colorComponentFormat
  let fmt := if c.ledModel = .ws2816 then { fmt with bytesPerColor := 2 } else fmt
  fmt.orOneByte

/-- Its checks. -/
def checkedFormat (c : LedConfig) : Except EspErr FormatLayout :=
  let fmt := c.componentFmt
  if fmt.numComponents = 3 then
    let mask := 2 ^ fmt.rPos.val ||| 2 ^ fmt.gPos.val ||| 2 ^ fmt.bPos.val
    if mask = 0x07 then .ok fmt else .error .invalidArg
  else if fmt.numComponents = 4 then
    let mask := 2 ^ fmt.rPos.val ||| 2 ^ fmt.gPos.val ||| 2 ^ fmt.bPos.val ||| 2 ^ fmt.wPos.val
    if mask = 0x0F then .ok fmt else .error .invalidArg
  else .error .invalidArg

theorem positions_three : ∀ r g b : Fin 4, 2 ^ r.val ||| 2 ^ g.val ||| 2 ^ b.val = 0x07 →
    (∀ pos ∈ [r.val, g.val, b.val], pos < 3) ∧ [r.val, g.val, b.val].Nodup := by decide

theorem positions_four : ∀ r g b w : Fin 4, 2 ^ r.val ||| 2 ^ g.val ||| 2 ^ b.val ||| 2 ^ w.val = 0x0F →
    [r.val, g.val, b.val, w.val].Nodup := by decide

/-- **What the checks let through** has its positions in range, and apart. -/
theorem valid_checkedFormat {c : LedConfig} {fmt : FormatLayout} (h : checkedFormat c = .ok fmt) : fmt.Valid := by
  have hbytes : 0 < c.componentFmt.bytesPerColor.val := FormatLayout.bytesPerColor_orOneByte _
  dsimp only [checkedFormat] at h
  by_cases h3 : c.componentFmt.numComponents = 3
  · rw [if_pos h3] at h
    split at h
    · rename_i hmask
      cases h
      obtain ⟨hlt, hnodup⟩ := positions_three _ _ _ hmask
      have hpositions : c.componentFmt.positions = [c.componentFmt.rPos.val, c.componentFmt.gPos.val,
          c.componentFmt.bPos.val] := by simp [FormatLayout.positions, h3]
      have h3 : c.componentFmt.numComponents.val = 3 := congrArg Fin.val h3
      exact ⟨hbytes, .inl h3, by rwa [hpositions, h3], by rwa [hpositions]⟩
    · cases h
  · rw [if_neg h3] at h
    by_cases h4 : c.componentFmt.numComponents = 4
    · rw [if_pos h4] at h
      split at h
      · rename_i hmask
        cases h
        have hpositions : c.componentFmt.positions = [c.componentFmt.rPos.val, c.componentFmt.gPos.val,
            c.componentFmt.bPos.val, c.componentFmt.wPos.val] := by simp [FormatLayout.positions, h4]
        have h4 : c.componentFmt.numComponents.val = 4 := congrArg Fin.val h4
        refine ⟨hbytes, .inr h4, ?_, by rw [hpositions]; exact positions_four _ _ _ _ hmask⟩
        rw [hpositions, h4]
        simp
      · cases h
    · rw [if_neg h4] at h
      cases h

/-! ## The driver -/

/-- `led_strip_rmt_obj` -/
structure Strip where
  stripLen : Nat
  bytesPerPixel : Nat
  componentFmt : FormatLayout
  pixelBuf : List UInt8
  valid : componentFmt.Valid
  bytesPerPixel_eq : bytesPerPixel = componentFmt.numComponents * componentFmt.bytesPerColor
  length_pixelBuf : pixelBuf.length = stripLen * bytesPerPixel
  fits : stripLen * bytesPerPixel < 2 ^ 32

theorem FormatLayout.Valid.size_le {f : FormatLayout} (h : f.Valid) : f.bytesPerPixel ≤ 12 := by
  have hbytes : f.bytesPerColor.val ≤ 3 := Nat.le_of_lt_succ f.bytesPerColor.isLt
  have hnum : f.numComponents.val ≤ 4 := by
    rcases h.numComponents with h | h <;> omega
  exact Nat.mul_le_mul hnum hbytes

theorem FormatLayout.Valid.size_pos {f : FormatLayout} (h : f.Valid) : 0 < f.bytesPerPixel := by
  have hnum : 0 < f.numComponents.val := by
    rcases h.numComponents with h | h <;> omega
  exact Nat.mul_pos hnum h.bytesPerColor

/-- `sizeof(led_strip_rmt_obj)`: the five functions of the interface, two handles, the number of LEDs, the size of a
pixel with three bytes behind it and the format, with addresses of four bytes. The pixels begin behind that. -/
def sizeofRmtObj : Nat := 5 * 4 + 2 * 4 + 4 + (1 + 3) + 4

/-- The size that `calloc` gets, in 32-bit arithmetic. -/
def allocSize (maxLeds : UInt32) (bytesPerPixel : Nat) : Nat :=
  (sizeofRmtObj + maxLeds.toNat * bytesPerPixel % 2 ^ 32) % 2 ^ 32

/-- The object of a new device. The source makes it in the same way whether or not its size wraps; one whose pixels are
not all inside it is told apart here. -/
inductive RmtDevice
  | strip (s : Strip)
  | overrun (stripLen : UInt32) (componentFmt : FormatLayout)

def RmtDevice.strip? : RmtDevice → Option Strip
  | .strip s => some s
  | .overrun _ _ => none

/-- `led_strip_new_rmt_device`; `resources` is how `calloc`, `rmt_new_tx_channel` and `rmt_new_led_strip_encoder`
end. -/
def ledStripNewRmtDevice (c : LedConfig) (resources : Except EspErr Unit) : Except EspErr RmtDevice :=
  match hfmt : checkedFormat c with
  | .error e => .error e
  | .ok fmt =>
    match resources with
    | .error e => .error e
    | .ok () =>
      if hsize : sizeofRmtObj + c.maxLeds.toNat * fmt.bytesPerPixel < 2 ^ 32 then
        .ok (.strip {
          stripLen := c.maxLeds.toNat
          bytesPerPixel := fmt.bytesPerPixel
          componentFmt := fmt
          pixelBuf := List.replicate (c.maxLeds.toNat * fmt.bytesPerPixel) 0
          valid := valid_checkedFormat hfmt
          bytesPerPixel_eq := rfl
          length_pixelBuf := List.length_replicate
          fits := Nat.lt_of_le_of_lt (Nat.le_add_left _ _) hsize })
      else .ok (.overrun c.maxLeds fmt)

/-- The writes of the loop of a `set_pixel`, in 32-bit arithmetic: `colors` are the positions that are written, with
the component of each. -/
def FormatLayout.writes (f : FormatLayout) (start : Nat) (colors : List (Nat × UInt32)) : List (Nat × UInt8) :=
  (List.range f.bytesPerColor).flatMap fun i =>
    let colorShift := 8 * (f.bytesPerColor.val - 1 - i)
    colors.map fun c => ((start + c.1 * f.bytesPerColor + i) % 2 ^ 32, byteAt c.2 (.ofNat colorShift))

namespace Strip

def writeColors (s : Strip) (index : Nat) (colors : List (Nat × UInt32)) : Strip :=
  { s with
    pixelBuf := setAll s.pixelBuf (s.componentFmt.writes (index * s.bytesPerPixel % 2 ^ 32) colors)
    length_pixelBuf := (length_setAll _ _).trans s.length_pixelBuf }

/-- `led_strip_rmt_set_pixel`: a white component goes off. -/
def setPixel (s : Strip) (index red green blue : UInt32) : Except EspErr Strip :=
  let f := s.componentFmt
  if index.toNat < s.stripLen then
    .ok (s.writeColors index.toNat ([(f.rPos.val, red), (f.gPos.val, green), (f.bPos.val, blue)]
      ++ if 3 < f.numComponents.val then [(f.wPos.val, 0)] else []))
  else .error .invalidArg

/-- `led_strip_rmt_set_pixel_rgbw` -/
def setPixelRgbw (s : Strip) (index red green blue white : UInt32) : Except EspErr Strip :=
  let f := s.componentFmt
  if index.toNat < s.stripLen then
    if f.numComponents.val = 4 then
      .ok (s.writeColors index.toNat
        [(f.rPos.val, red), (f.gPos.val, green), (f.bPos.val, blue), (f.wPos.val, white)])
    else .error .invalidArg
  else .error .invalidArg

/-- `led_strip_rmt_clear`, without the refresh at its end. -/
def clear (s : Strip) : Strip :=
  { s with
    pixelBuf := List.replicate (s.stripLen * s.bytesPerPixel) 0
    length_pixelBuf := List.length_replicate }

/-! ## Colours -/

/-- The bytes of the component at `pos` of pixel `n`. -/
def component (s : Strip) (n pos : Nat) : List UInt8 :=
  (s.pixelBuf.drop ((n * s.componentFmt.numComponents + pos) * s.componentFmt.bytesPerColor)).take
    s.componentFmt.bytesPerColor

end Strip

/-- The bytes of a component, the highest one first. -/
def FormatLayout.bytesOf (f : FormatLayout) (color : UInt32) : List UInt8 :=
  (List.range f.bytesPerColor).map fun i => byteAt color (.ofNat (8 * (f.bytesPerColor.val - 1 - i)))

/-- An index has one row and one column. -/
theorem index_unique {m a b i j : Nat} (hi : i < m) (hj : j < m) (h : a * m + i = b * m + j) : a = b ∧ i = j := by
  have hpos : 0 < m := by omega
  have hdiv := congrArg (· / m) h
  have hmod := congrArg (· % m) h
  simp only [Nat.mul_add_mod', Nat.mod_eq_of_lt hi, Nat.mod_eq_of_lt hj] at hmod
  rw [Nat.mul_comm a, Nat.mul_comm b] at hdiv
  simp only [Nat.mul_add_div hpos, Nat.div_eq_of_lt hi, Nat.div_eq_of_lt hj] at hdiv
  exact ⟨hdiv, hmod⟩

theorem index_lt {k m a j : Nat} (ha : a < k) (hj : j < m) : a * m + j < k * m :=
  calc a * m + j < a * m + m := Nat.add_lt_add_left hj _
    _ = (a + 1) * m := (Nat.succ_mul a m).symm
    _ ≤ k * m := Nat.mul_le_mul_right m ha

/-- The first multiple from `n` on. -/
theorem exists_multiple {m : Nat} (hm : 0 < m) (n : Nat) : ∃ k, n ≤ k * m ∧ k * m < n + m := by
  have hmod := Nat.mod_lt (n + m - 1) hm
  have hdiv := Nat.div_add_mod' (n + m - 1) m
  exact ⟨(n + m - 1) / m, by omega, by omega⟩

namespace Strip

variable {s : Strip} {index n pos : Nat} {colors : List (Nat × UInt32)}

theorem getElem?_component (s : Strip) (n pos : Nat) {i : Nat} (hi : i < s.componentFmt.bytesPerColor.val) :
    (s.component n pos)[i]? =
      s.pixelBuf[(n * s.componentFmt.numComponents + pos) * s.componentFmt.bytesPerColor + i]? := by
  rw [component, List.getElem?_take_of_lt hi, List.getElem?_drop]

/-- In a strip the places of the bytes do not wrap. -/
theorem place_eq {i : Nat} (hindex : index < s.stripLen) (hpos : pos < s.componentFmt.numComponents.val)
    (hi : i < s.componentFmt.bytesPerColor.val) :
    (index * s.bytesPerPixel % 2 ^ 32 + pos * s.componentFmt.bytesPerColor + i) % 2 ^ 32 =
      (index * s.componentFmt.numComponents + pos) * s.componentFmt.bytesPerColor + i := by
  have hplace : index * s.bytesPerPixel + pos * s.componentFmt.bytesPerColor + i =
      (index * s.componentFmt.numComponents + pos) * s.componentFmt.bytesPerColor + i := by
    rw [s.bytesPerPixel_eq]
    ring
  have hlt := index_lt (index_lt hindex hpos) hi
  have hfits := s.fits
  rw [s.bytesPerPixel_eq, ← Nat.mul_assoc] at hfits
  rw [Nat.mod_eq_of_lt (a := index * _) (by omega), hplace, Nat.mod_eq_of_lt (by omega)]

/-- A write to a byte of a component is one of a turn of the loop, to that component. -/
theorem mem_writes {v : UInt8} {i : Nat} (hindex : index < s.stripLen)
    (hcolors : ∀ c ∈ colors, c.1 < s.componentFmt.numComponents.val)
    (hpos : pos < s.componentFmt.numComponents.val) (hi : i < s.componentFmt.bytesPerColor.val) :
    ((n * s.componentFmt.numComponents + pos) * s.componentFmt.bytesPerColor + i, v) ∈
        s.componentFmt.writes (index * s.bytesPerPixel % 2 ^ 32) colors ↔
      n = index ∧ ∃ color, (pos, color) ∈ colors ∧
        v = byteAt color (.ofNat (8 * (s.componentFmt.bytesPerColor.val - 1 - i))) := by
  simp only [FormatLayout.writes, List.mem_flatMap, List.mem_range, List.mem_map, Prod.mk.injEq]
  constructor
  · rintro ⟨i', hi', ⟨pos', color⟩, hc, hkey, rfl⟩
    have hkey : (index * s.componentFmt.numComponents + pos') * s.componentFmt.bytesPerColor + i' =
        (n * s.componentFmt.numComponents + pos) * s.componentFmt.bytesPerColor + i :=
      (place_eq hindex (hcolors _ hc) hi').symm.trans hkey
    obtain ⟨hrow, rfl⟩ := index_unique hi' hi hkey
    obtain ⟨rfl, rfl⟩ := index_unique (hcolors _ hc) hpos hrow
    exact ⟨rfl, color, hc, rfl⟩
  · rintro ⟨rfl, color, hc, rfl⟩
    exact ⟨i, hi, (pos, color), hc, place_eq hindex hpos hi, rfl⟩

theorem component_eq {bytes : List UInt8} (hlen : bytes.length ≤ s.componentFmt.bytesPerColor.val)
    (h : ∀ i < s.componentFmt.bytesPerColor.val,
      s.pixelBuf[(n * s.componentFmt.numComponents + pos) * s.componentFmt.bytesPerColor + i]? = bytes[i]?) :
    s.component n pos = bytes := by
  refine List.ext_getElem? fun i => ?_
  by_cases hi : i < s.componentFmt.bytesPerColor.val
  · rw [getElem?_component s n pos hi, h i hi]
  · have hnone : (s.component n pos)[i]? = none :=
      List.getElem?_eq_none ((List.length_take_le _ _).trans (by omega))
    rw [hnone, List.getElem?_eq_none (by omega)]

/-- The component that is written. -/
theorem component_writeColors {color : UInt32} (hcolors : ∀ c ∈ colors, c.1 < s.componentFmt.numComponents.val)
    (hnodup : (colors.map Prod.fst).Nodup) (hindex : index < s.stripLen) (hmem : (pos, color) ∈ colors) :
    (s.writeColors index colors).component index pos = s.componentFmt.bytesOf color := by
  have hpos : pos < s.componentFmt.numComponents.val := hcolors _ hmem
  refine component_eq (by simp [FormatLayout.bytesOf, writeColors]) fun i hi => ?_
  have hi : i < s.componentFmt.bytesPerColor.val := hi
  have hbytes : (s.componentFmt.bytesOf color)[i]? =
      some (byteAt color (.ofNat (8 * (s.componentFmt.bytesPerColor.val - 1 - i)))) := by
    simp [FormatLayout.bytesOf, hi]
  refine (getElem?_setAll ?_ ?_ ?_).trans hbytes.symm
  · exact List.mem_map_of_mem ((mem_writes hindex hcolors hpos hi).2 ⟨rfl, color, hmem, rfl⟩)
  · intro v hv
    obtain ⟨-, color', hmem', rfl⟩ := (mem_writes hindex hcolors hpos hi).1 hv
    obtain ⟨-, rfl⟩ := Prod.mk.inj (List.inj_on_of_nodup_map hnodup hmem' hmem rfl)
    rfl
  · rw [s.length_pixelBuf, s.bytesPerPixel_eq, ← Nat.mul_assoc]
    exact index_lt (index_lt hindex hpos) hi

/-- The others stay. -/
theorem component_writeColors_of_ne (hindex : index < s.stripLen)
    (hcolors : ∀ c ∈ colors, c.1 < s.componentFmt.numComponents.val) (hpos : pos < s.componentFmt.numComponents.val)
    (hother : n = index → pos ∉ colors.map Prod.fst) :
    (s.writeColors index colors).component n pos = s.component n pos := by
  refine component_eq (List.length_take_le _ _) fun i hi => ?_
  have hi : i < s.componentFmt.bytesPerColor.val := hi
  refine (getElem?_setAll_of_notMem ?_).trans (getElem?_component s n pos hi).symm
  intro hkey
  obtain ⟨⟨k, v⟩, hw, rfl⟩ := List.mem_map.1 hkey
  obtain ⟨hn, color, hc, -⟩ := (mem_writes hindex hcolors hpos hi).1 hw
  exact hother hn (List.mem_map_of_mem hc)

end Strip

/-- What a pixel shows. -/
structure Color where
  red : Nat
  green : Nat
  blue : Nat
  white : Option Nat
  deriving DecidableEq

/-- As many bytes of each component as the format has. -/
def FormatLayout.color (f : FormatLayout) (red green blue white : UInt32) : Color :=
  let cut (x : UInt32) := x.toNat % 256 ^ f.bytesPerColor.val
  ⟨cut red, cut green, cut blue, if 3 < f.numComponents.val then some (cut white) else none⟩

/-- The colour of the numbers at the positions. -/
def FormatLayout.colorOf (f : FormatLayout) (value : Nat → Nat) : Color :=
  ⟨value f.rPos, value f.gPos, value f.bPos, if 3 < f.numComponents.val then some (value f.wPos) else none⟩

theorem FormatLayout.colorOf_congr {f : FormatLayout} {value value' : Nat → Nat}
    (h : ∀ pos ∈ f.positions, value pos = value' pos) : f.colorOf value = f.colorOf value' := by
  have hr := h f.rPos (by simp [positions])
  have hg := h f.gPos (by simp [positions])
  have hb := h f.bPos (by simp [positions])
  rw [colorOf, colorOf, hr, hg, hb]
  by_cases h3 : 3 < f.numComponents.val
  · rw [if_pos h3, if_pos h3, h f.wPos (by simp [positions, h3])]
  · rw [if_neg h3, if_neg h3]

def FormatLayout.assign (f : FormatLayout) (red green blue white : UInt32) : List (Nat × UInt32) :=
  [(f.rPos.val, red), (f.gPos.val, green), (f.bPos.val, blue)]
    ++ if 3 < f.numComponents.val then [(f.wPos.val, white)] else []

theorem FormatLayout.map_assign (f : FormatLayout) (red green blue white : UInt32) :
    (f.assign red green blue white).map Prod.fst = f.positions := by
  rw [assign, positions, List.map_append]
  split <;> rfl

theorem FormatLayout.value_bytesOf (f : FormatLayout) (color : UInt32) :
    ofDigitsBe 256 ((f.bytesOf color).map UInt8.toNat) = color.toNat % 256 ^ f.bytesPerColor.val := by
  rw [← ofDigitsBe_digitsBe, bytesOf, digitsBe, List.map_map]
  refine congrArg _ (List.map_congr_left fun i _ => ?_)
  have hf : f.bytesPerColor.val ≤ 3 := Nat.le_of_lt_succ f.bytesPerColor.isLt
  have hshift : (UInt32.ofNat (8 * (f.bytesPerColor.val - 1 - i))).toNat = 8 * (f.bytesPerColor.val - 1 - i) :=
    Nat.mod_eq_of_lt (by omega)
  have hlt : UInt32.ofNat (8 * (f.bytesPerColor.val - 1 - i)) < 32 := by
    rw [UInt32.lt_iff_toNat_lt, hshift]
    show _ < 32
    omega
  rw [Function.comp_apply, toNat_byteAt color hlt, hshift, Nat.pow_mul]

namespace Strip

/-- The number at `pos` of pixel `n`. -/
def value (s : Strip) (n pos : Nat) : Nat := ofDigitsBe 256 ((s.component n pos).map UInt8.toNat)

/-- The colour of pixel `n`. -/
def color (s : Strip) (n : Nat) : Color := s.componentFmt.colorOf (s.value n)

theorem setPixel_eq (s : Strip) (index red green blue : UInt32) : s.setPixel index red green blue =
    if index.toNat < s.stripLen then
      .ok (s.writeColors index.toNat (s.componentFmt.assign red green blue 0))
    else .error .invalidArg := rfl

theorem setPixelRgbw_eq (s : Strip) (index red green blue white : UInt32) :
    s.setPixelRgbw index red green blue white =
      if index.toNat < s.stripLen ∧ s.componentFmt.numComponents.val = 4 then
        .ok (s.writeColors index.toNat (s.componentFmt.assign red green blue white))
      else .error .invalidArg := by
  rw [setPixelRgbw]
  by_cases hi : index.toNat < s.stripLen
  · by_cases h4 : s.componentFmt.numComponents.val = 4
    · simp [hi, h4, FormatLayout.assign]
    · simp [h4]
  · simp [hi]

/-- **A colour is written to one pixel**, and the others keep theirs. -/
theorem color_writeColors (s : Strip) {index : Nat} (hindex : index < s.stripLen) (red green blue white : UInt32) :
    (s.writeColors index (s.componentFmt.assign red green blue white)).color =
      Function.update s.color index (s.componentFmt.color red green blue white) := by
  have hmap := s.componentFmt.map_assign red green blue white
  have hcolors : ∀ c ∈ s.componentFmt.assign red green blue white, c.1 < s.componentFmt.numComponents.val :=
    fun c hc => s.valid.lt _ (hmap ▸ List.mem_map_of_mem hc)
  have hnodup : ((s.componentFmt.assign red green blue white).map Prod.fst).Nodup := hmap ▸ s.valid.nodup
  funext n
  by_cases hn : n = index
  · subst hn
    have hvalue : ∀ {pos color}, (pos, color) ∈ s.componentFmt.assign red green blue white →
        (s.writeColors n (s.componentFmt.assign red green blue white)).value n pos =
          color.toNat % 256 ^ s.componentFmt.bytesPerColor.val := by
      intro pos color hmem
      rw [value, component_writeColors hcolors hnodup hindex hmem, FormatLayout.value_bytesOf]
    have hr := hvalue (show (s.componentFmt.rPos.val, red) ∈ _ by simp [FormatLayout.assign])
    have hg := hvalue (show (s.componentFmt.gPos.val, green) ∈ _ by simp [FormatLayout.assign])
    have hb := hvalue (show (s.componentFmt.bPos.val, blue) ∈ _ by simp [FormatLayout.assign])
    have hfmt : (s.writeColors n (s.componentFmt.assign red green blue white)).componentFmt = s.componentFmt := rfl
    rw [Function.update_self, color, hfmt, FormatLayout.colorOf, hr, hg, hb, FormatLayout.color]
    by_cases h3 : 3 < s.componentFmt.numComponents.val
    · have hw := hvalue (show (s.componentFmt.wPos.val, white) ∈ _ by simp [FormatLayout.assign, h3])
      rw [if_pos h3, if_pos h3, hw]
    · rw [if_neg h3, if_neg h3]
  · rw [Function.update_of_ne hn]
    refine FormatLayout.colorOf_congr fun pos hpos => ?_
    rw [value, component_writeColors_of_ne hindex hcolors (s.valid.lt pos hpos) fun h => absurd h hn, value]

theorem color_zero {s : Strip} {k : Nat} (h : s.pixelBuf = List.replicate k 0) (n : Nat) :
    s.color n = s.componentFmt.color 0 0 0 0 := by
  have hcolor : s.componentFmt.color 0 0 0 0 = s.componentFmt.colorOf fun _ => 0 := by
    simp [FormatLayout.color, FormatLayout.colorOf]
  rw [hcolor]
  refine FormatLayout.colorOf_congr fun pos _ => ?_
  rw [value, component, h, List.drop_replicate, List.take_replicate, List.map_replicate]
  have hzero : ∀ m, ofDigitsBe 256 (List.replicate m 0) = 0 := by
    intro m
    induction m with
    | zero => rfl
    | succ m ih => rw [List.replicate_succ', ofDigitsBe_append, ih]
  exact hzero _

/-! ## Any operations -/

inductive Op
  | setPixel (index red green blue : UInt32)
  | setPixelRgbw (index red green blue white : UInt32)
  | clear

/-- A call that fails changes nothing. -/
def apply (s : Strip) : Op → Strip
  | .setPixel index red green blue => (s.setPixel index red green blue).toOption.getD s
  | .setPixelRgbw index red green blue white => (s.setPixelRgbw index red green blue white).toOption.getD s
  | .clear => s.clear

/-- What the operation means: `len` pixels have a colour each. -/
def Op.meaning (f : FormatLayout) (len : Nat) (colors : Nat → Color) : Op → Nat → Color
  | .setPixel index red green blue =>
    if index.toNat < len then Function.update colors index.toNat (f.color red green blue 0) else colors
  | .setPixelRgbw index red green blue white =>
    if index.toNat < len ∧ f.numComponents.val = 4 then
      Function.update colors index.toNat (f.color red green blue white)
    else colors
  | .clear => fun _ => f.color 0 0 0 0

theorem color_apply (s : Strip) (op : Op) :
    (s.apply op).color = op.meaning s.componentFmt s.stripLen s.color := by
  cases op with
  | setPixel index red green blue =>
    rw [apply, setPixel_eq, Op.meaning]
    by_cases h : index.toNat < s.stripLen
    · rw [if_pos h, if_pos h]
      exact s.color_writeColors h red green blue 0
    · rw [if_neg h, if_neg h]
      rfl
  | setPixelRgbw index red green blue white =>
    rw [apply, setPixelRgbw_eq, Op.meaning]
    by_cases h : index.toNat < s.stripLen ∧ s.componentFmt.numComponents.val = 4
    · rw [if_pos h, if_pos h]
      exact s.color_writeColors h.1 red green blue white
    · rw [if_neg h, if_neg h]
      rfl
  | clear =>
    funext n
    exact color_zero (s := s.clear) rfl n

theorem apply_frame (s : Strip) (op : Op) :
    (s.apply op).componentFmt = s.componentFmt ∧ (s.apply op).stripLen = s.stripLen := by
  cases op with
  | setPixel index red green blue =>
    rw [apply, setPixel_eq]
    split <;> exact ⟨rfl, rfl⟩
  | setPixelRgbw index red green blue white =>
    rw [apply, setPixelRgbw_eq]
    split <;> exact ⟨rfl, rfl⟩
  | clear => exact ⟨rfl, rfl⟩

theorem color_foldl (ops : List Op) (s : Strip) :
    (ops.foldl apply s).color = ops.foldl (Op.meaning s.componentFmt s.stripLen) s.color := by
  induction ops generalizing s with
  | nil => rfl
  | cons op ops ih =>
    obtain ⟨hfmt, hlen⟩ := s.apply_frame op
    rw [List.foldl_cons, List.foldl_cons, ih, color_apply, hfmt, hlen]

end Strip

/-! ## A new strip -/

/-- What `led_strip_new_rmt_device` makes. -/
theorem newRmtDevice_spec {c : LedConfig} {resources : Except EspErr Unit} {s : Strip}
    (h : ledStripNewRmtDevice c resources = .ok (.strip s)) : checkedFormat c = .ok s.componentFmt ∧
      s.stripLen = c.maxLeds.toNat ∧ s.pixelBuf = List.replicate (c.maxLeds.toNat * s.bytesPerPixel) 0 := by
  unfold ledStripNewRmtDevice at h
  split at h
  · cases h
  · rename_i fmt hfmt
    split at h
    · cases h
    · split at h
      · cases h
        exact ⟨hfmt, rfl, rfl⟩
      · cases h

theorem newRmtDevice_strip {c : LedConfig} {fmt : FormatLayout} (hfmt : checkedFormat c = .ok fmt)
    (hsize : sizeofRmtObj + c.maxLeds.toNat * fmt.bytesPerPixel < 2 ^ 32) :
    ∃ s, ledStripNewRmtDevice c (.ok ()) = .ok (.strip s) := by
  unfold ledStripNewRmtDevice
  split
  · rename_i h
    rw [hfmt] at h
    cases h
  · rename_i fmt' h
    obtain rfl : fmt = fmt' := Except.ok.inj (hfmt.symm.trans h)
    rw [dif_pos hsize]
    exact ⟨_, rfl⟩

/-- What `set_pixel` and `set_pixel_rgbw` write, as in `writeColors`, whether or not the array has these places. -/
def FormatLayout.pixelWrites (f : FormatLayout) (index red green blue white : UInt32) : List (Nat × UInt8) :=
  f.writes (index.toNat * f.bytesPerPixel % 2 ^ 32) (f.assign red green blue white)

/-- Every pixel below `max_leds` is written inside the array that is allocated. -/
def LedConfig.InBounds (c : LedConfig) (f : FormatLayout) : Prop :=
  ∀ index < c.maxLeds, ∀ red green blue white, ∀ w ∈ f.pixelWrites index red green blue white,
    w.1 < allocSize c.maxLeds f.bytesPerPixel - sizeofRmtObj

namespace FormatLayout

variable {f : FormatLayout} {index red green blue white maxLeds : UInt32}

/-- The places that a pixel is written to. -/
theorem place_of_mem_pixelWrites (hf : f.Valid) {w : Nat × UInt8} (hw : w ∈ f.pixelWrites index red green blue white) :
    ∃ offset < f.bytesPerPixel, w.1 = (index.toNat * f.bytesPerPixel % 2 ^ 32 + offset) % 2 ^ 32 := by
  simp only [pixelWrites, writes, List.mem_flatMap, List.mem_range, List.mem_map] at hw
  obtain ⟨i, hi, ⟨pos, color⟩, hc, rfl⟩ := hw
  have hpos : pos < f.numComponents.val :=
    hf.lt _ (f.map_assign red green blue white ▸ List.mem_map_of_mem (f := Prod.fst) hc)
  exact ⟨pos * f.bytesPerColor + i, index_lt hpos hi, by rw [Nat.add_assoc]⟩

theorem exists_mem_pixelWrites (hf : f.Valid) (index red green blue white : UInt32) :
    ∃ w, w ∈ f.pixelWrites index red green blue white := by
  have hred : (f.rPos.val, red) ∈ f.assign red green blue white := by simp [assign]
  exact ⟨_, List.mem_flatMap.2 ⟨0, List.mem_range.2 hf.bytesPerColor, List.mem_map_of_mem hred⟩⟩

/-- The first pixel behind the array, if the size has wrapped. -/
theorem exists_outside (hf : f.Valid) (hsize : 2 ^ 32 ≤ sizeofRmtObj + maxLeds.toNat * f.bytesPerPixel) :
    ∃ index < maxLeds, ∀ red green blue white, ∀ w ∈ f.pixelWrites index red green blue white,
      allocSize maxLeds f.bytesPerPixel - sizeofRmtObj ≤ w.1 := by
  have hle := hf.size_le
  obtain ⟨k, hlow, hhigh⟩ := exists_multiple hf.size_pos (allocSize maxLeds f.bytesPerPixel - sizeofRmtObj)
  -- the places of pixel `k` do not wrap: what is allocated is less than 2^32 by the size of the object
  have hroom : k * f.bytesPerPixel < maxLeds.toNat * f.bytesPerPixel ∧
      k * f.bytesPerPixel + f.bytesPerPixel < 2 ^ 32 := by
    rw [allocSize, sizeofRmtObj] at hhigh
    rw [sizeofRmtObj] at hsize
    omega
  have hindex : k < maxLeds.toNat := Nat.lt_of_mul_lt_mul_right hroom.1
  have htoNat : (UInt32.ofNat k).toNat = k := Nat.mod_eq_of_lt (hindex.trans maxLeds.toNat_lt)
  refine ⟨.ofNat k, UInt32.lt_iff_toNat_lt.2 (by rwa [htoNat]), fun red green blue white w hw => ?_⟩
  obtain ⟨offset, hoffset, hplace⟩ := place_of_mem_pixelWrites hf hw
  rw [hplace, htoNat]
  omega

end FormatLayout

/-- **No pixel is written outside the array iff the size of the object does not wrap.** -/
theorem inBounds_iff {c : LedConfig} {fmt : FormatLayout} (hf : fmt.Valid) :
    c.InBounds fmt ↔ sizeofRmtObj + c.maxLeds.toNat * fmt.bytesPerPixel < 2 ^ 32 := by
  constructor
  · intro h
    by_contra hsize
    obtain ⟨index, hindex, hout⟩ := FormatLayout.exists_outside hf (Nat.le_of_not_lt hsize)
    obtain ⟨w, hw⟩ := FormatLayout.exists_mem_pixelWrites hf index 0 0 0 0
    exact absurd (h index hindex 0 0 0 0 w hw) (Nat.not_lt.2 (hout 0 0 0 0 w hw))
  · intro hsize index hindex red green blue white w hw
    obtain ⟨offset, hoffset, hplace⟩ := FormatLayout.place_of_mem_pixelWrites hf hw
    have hlt := index_lt (UInt32.lt_iff_toNat_lt.1 hindex) hoffset
    rw [hplace, allocSize]
    omega

/-- **The array is a map from pixels to colours**, in every strip whose size does not wrap at 32 bits, and those are the
ones that are written inside their array: when the strip has just been made all pixels are off, and after any
operations, those that fail among them, they have the colours that the operations mean. -/
theorem color_runOps {c : LedConfig} {fmt : FormatLayout} (h : checkedFormat c = .ok fmt) :
    (c.InBounds fmt ↔ sizeofRmtObj + c.maxLeds.toNat * fmt.bytesPerPixel < 2 ^ 32) ∧
      (c.InBounds fmt → ∃ s, ledStripNewRmtDevice c (.ok ()) = .ok (.strip s) ∧ ∀ ops : List Strip.Op,
        (ops.foldl Strip.apply s).color =
          ops.foldl (Strip.Op.meaning fmt c.maxLeds.toNat) fun _ => fmt.color 0 0 0 0) := by
  have hbounds := inBounds_iff (c := c) (valid_checkedFormat h)
  refine ⟨hbounds, fun hin => ?_⟩
  obtain ⟨s, hs⟩ := newRmtDevice_strip h (hbounds.1 hin)
  obtain ⟨hfmt, hlen, hbuf⟩ := newRmtDevice_spec hs
  obtain rfl : fmt = s.componentFmt := Except.ok.inj (h.symm.trans hfmt)
  exact ⟨s, hs, fun ops => by rw [Strip.color_foldl, hlen, funext (Strip.color_zero hbuf)]⟩

/-- Three pixels of four components, of two bytes each. -/
def rgbwConfig : LedConfig := ⟨3, .sk6812, ⟨0, 1, 2, 3, 0, 2, 4⟩⟩

/-- So many pixels of three bytes that two bytes are left for them. -/
def wrappedConfig : LedConfig := ⟨0x55555556, .ws2812, .unset⟩

theorem color_runOps_rgbw :
    (∃ s, ledStripNewRmtDevice rgbwConfig (.ok ()) = .ok (.strip s) ∧
      ([.setPixelRgbw 1 0x1234 2 3 4, .setPixel 0 5 6 7, .setPixel 3 9 9 9].foldl Strip.apply s).color 1 =
        ⟨0x1234, 2, 3, some 4⟩) ∧
      allocSize wrappedConfig.maxLeds FormatLayout.grb.bytesPerPixel - sizeofRmtObj = 2 ∧
      ¬ wrappedConfig.InBounds .grb := by
  refine ⟨?_, by decide, ?_⟩
  · obtain ⟨hbounds, hcolors⟩ :=
      color_runOps (show checkedFormat rgbwConfig = .ok rgbwConfig.colorComponentFormat by decide)
    obtain ⟨s, hs, hops⟩ := hcolors (hbounds.2 (by decide))
    exact ⟨s, hs, (congrFun (hops _) 1).trans rfl⟩
  · intro hin
    have hsize := (color_runOps (show checkedFormat wrappedConfig = .ok .grb by decide)).1.1 hin
    exact absurd hsize (by decide)

end TrackIt.Led
