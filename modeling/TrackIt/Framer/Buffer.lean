import TrackIt.Lib.Search
import TrackIt.Lib.Overwrite

/-!
# The receive buffer of the UART task

`RxBuf` is the malloc'd array of `gnss_uart_task` with `curr_data_len`; its first `currDataLen` bytes are `live`, the
rest is whatever malloc or earlier messages left there. The operations are those of `gnss.c`: `memmove` to the front,
reading behind the live bytes, and setting `curr_data_len` to 0. On the live bytes they are `drop`, `++` and `[]`
(`live_advance`, `live_receive`, `live_clear`).
-/

namespace TrackIt.Framer

open TrackIt.Lib

/-- `UART_RX_BUF_SIZE` -/
def uartRxBufSize : Nat := 6144

/-- The C `memmove`, on one array. -/
def memmove (data : List UInt8) (dst src n : Nat) : List UInt8 := overwrite data dst ((data.drop src).take n)

theorem length_memmove {data : List UInt8} {dst n : Nat} (src : Nat) (h : dst + n ≤ data.length) :
    (memmove data dst src n).length = data.length := by
  apply length_overwrite
  rw [List.length_take, List.length_drop]
  omega

structure RxBuf where
  data : List UInt8
  currDataLen : Nat
  length_data : data.length = uartRxBufSize
  len_le : currDataLen ≤ uartRxBufSize

namespace RxBuf

/-- The bytes the parsers may look at: `data[0..curr_data_len)`. -/
def live (s : RxBuf) : List UInt8 := s.data.take s.currDataLen

@[simp] theorem length_live (s : RxBuf) : s.live.length = s.currDataLen := by
  have := s.length_data
  have := s.len_le
  rw [live, List.length_take]
  omega

/-- `memmove(data, data + k, *curr_data_len - k); *curr_data_len -= k;`. The bound says that neither subtraction
wraps around. -/
def advance (s : RxBuf) (k : Nat) (h : k ≤ s.currDataLen) : RxBuf where
  data := memmove s.data 0 k (s.currDataLen - k)
  currDataLen := s.currDataLen - k
  length_data := by
    have := s.length_data
    have := s.len_le
    rw [length_memmove k (by omega), s.length_data]
  len_le := by have := s.len_le; omega

@[simp] theorem live_advance (s : RxBuf) (k : Nat) (h : k ≤ s.currDataLen) : (s.advance k h).live = s.live.drop k := by
  have hl := s.length_data
  have hle := s.len_le
  have hk : ((s.data.drop k).take (s.currDataLen - k)).length = s.currDataLen - k := by
    rw [List.length_take, List.length_drop]; omega
  have htake := take_overwrite ((s.data.drop k).take (s.currDataLen - k)) (Nat.zero_le s.data.length)
  rw [hk, Nat.zero_add] at htake
  simp only [live, advance, memmove, htake, List.take_zero, List.nil_append, List.drop_take]

/-- `curr_data_len = 0` -/
def clear (s : RxBuf) : RxBuf := ⟨s.data, 0, s.length_data, Nat.zero_le _⟩

@[simp] theorem currDataLen_clear (s : RxBuf) : s.clear.currDataLen = 0 := rfl

@[simp] theorem live_clear (s : RxBuf) : s.clear.live = [] := by simp [live, clear]

/-- `uart_read_bytes` into `data + *curr_data_len`, and `*curr_data_len += read`. -/
def receive (s : RxBuf) (bytes : List UInt8) (h : s.currDataLen + bytes.length ≤ uartRxBufSize) : RxBuf where
  data := overwrite s.data s.currDataLen bytes
  currDataLen := s.currDataLen + bytes.length
  length_data := by
    have := s.length_data
    rw [length_overwrite (by omega), this]
  len_le := h

@[simp] theorem live_receive (s : RxBuf) (bytes : List UInt8) (h : s.currDataLen + bytes.length ≤ uartRxBufSize) :
    (s.receive bytes h).live = s.live ++ bytes :=
  take_overwrite bytes (by rw [s.length_data]; exact s.len_le)

/-- `memchr(data, c, *curr_data_len)` -/
def memchr (s : RxBuf) (c : UInt8) : Option (Fin s.currDataLen) :=
  (s.live.idxOf? c).attach.map fun i => ⟨i.1, by
    obtain ⟨h, _⟩ := List.idxOf?_eq_some_iff.1 i.2
    rwa [s.length_live] at h⟩

theorem memchr_val (s : RxBuf) (c : UInt8) : (s.memchr c).map (·.1) = s.live.idxOf? c := by
  simp [memchr, Function.comp_def]

/-- `memmem(data, *curr_data_len, pat, 2)` for the two-byte pattern `a`, `b`. -/
def memmem (s : RxBuf) (a b : UInt8) : Option { i : Nat // i + 2 ≤ s.currDataLen } :=
  (findPat [a, b] s.live).attach.map fun i => ⟨i.1, by
    have h := findPat_le (by simp) i.2
    simpa using h⟩

theorem memmem_val (s : RxBuf) (a b : UInt8) : (s.memmem a b).map (·.1) = findPat [a, b] s.live := by
  simp [memmem, Function.comp_def]

end RxBuf

end TrackIt.Framer
