import Mathlib.Algebra.Ring.Nat
import Mathlib.Data.List.Basic
import Mathlib.Tactic.Common

/-!
# Encoders that are interrupted

An encoder writes symbols into a memory that may be too small. It is called with the data, its own state and the free
places, until it says that it is complete; between two calls the memory is emptied by as much as it happens to be.

- `Encodes`: a call writes as much of what is left as there is room for;
- `Encodes.session`: and so, whatever room it gets, the calls of a session write all of it once, and leave the encoder
  as it was before;
- `encodes_copy`, `Encodes.andThen`: an encoder that counts, and one that runs two others in turn, the second one in
  what room the first one has left.
-/

namespace TrackIt.Lib

variable {δ σ τ ω : Type*}

/-- What a call returns: what it wrote, whether that was all, and whether the memory is full. -/
structure Encoded (ω : Type*) where
  symbols : List ω
  complete : Bool
  memFull : Bool

/-- The data, the state and the free places. -/
abbrev Encoder (δ σ ω : Type*) := δ → σ → Nat → Encoded ω × σ

/-- A call with `rest` left to write and `free` places writes as much of it as there is room for. `Todo s rest` says
what is left in the state `s`. -/
structure Writes (idle : σ) (Todo : σ → List ω → Prop) (rest : List ω) (free : Nat) (call : Encoded ω × σ) : Prop where
  symbols : call.1.symbols = rest.take free
  complete : call.1.complete = true ↔ rest.length ≤ free
  memFull : call.1.memFull = true ↔ free ≤ rest.length
  done : rest.length ≤ free → call.2 = idle
  left : free < rest.length → Todo call.2 (rest.drop free)

/-- `enc`, begun in the state `idle`, encodes `d` as `out d`. -/
structure Encodes (enc : Encoder δ σ ω) (idle : σ) (out : δ → List ω) (Todo : δ → σ → List ω → Prop) : Prop where
  start : ∀ d, Todo d idle (out d)
  call : ∀ {d s rest} (free : Nat), Todo d s rest → Writes idle (Todo d) rest free (enc d s free)

/-- The calls of a session with the free places of each, up to the one that completes it: what they write, the state,
and whether it is complete. -/
def session (enc : Encoder δ σ ω) (d : δ) : σ → List Nat → List ω × σ × Bool
  | s, [] => ([], s, false)
  | s, free :: frees =>
    let call := enc d s free
    if call.1.complete then (call.1.symbols, call.2, true)
    else
      let rest := session enc d call.2 frees
      (call.1.symbols ++ rest.1, rest.2)

namespace Encodes

variable {enc : Encoder δ σ ω} {idle : σ} {out : δ → List ω} {Todo : δ → σ → List ω → Prop}
variable {d : δ} {s : σ} {rest : List ω}

/-- Calls with too little room write a part, and the rest is left. -/
theorem session_part (h : Encodes enc idle out Todo) (frees : List Nat) (hs : Todo d s rest)
    (hlt : frees.sum < rest.length) :
    ∃ s', session enc d s frees = (rest.take frees.sum, s', false) ∧ Todo d s' (rest.drop frees.sum) := by
  induction frees generalizing s rest with
  | nil => exact ⟨s, by simp [session], by simpa using hs⟩
  | cons free frees ih =>
    rw [List.sum_cons] at hlt
    have hcall := h.call free hs
    have hnot : ¬ (enc d s free).1.complete = true := by
      rw [hcall.complete]
      omega
    obtain ⟨s', hsession, hs'⟩ := ih (hcall.left (by omega)) (by rw [List.length_drop]; omega)
    refine ⟨s', ?_, ?_⟩
    · rw [session, if_neg hnot, hsession, hcall.symbols, List.sum_cons, List.take_add]
    · rw [List.drop_drop] at hs'
      rwa [List.sum_cons]

/-- **A session writes all that is left, once**, in whatever portions, and ends with the encoder idle. -/
theorem session_rest (h : Encodes enc idle out Todo) (frees : List Nat) (hs : Todo d s rest) (hne : frees ≠ [])
    (hle : rest.length ≤ frees.sum) : session enc d s frees = (rest, idle, true) := by
  induction frees generalizing s rest with
  | nil => exact absurd rfl hne
  | cons free frees ih =>
    rw [List.sum_cons] at hle
    have hcall := h.call free hs
    by_cases hc : rest.length ≤ free
    · rw [session, if_pos (hcall.complete.2 hc), hcall.symbols, hcall.done hc, List.take_of_length_le hc]
    · have hnot : ¬ (enc d s free).1.complete = true := by rwa [hcall.complete]
      have hne : frees ≠ [] := by
        rintro rfl
        rw [List.sum_nil] at hle
        omega
      have hsession := ih (hcall.left (by omega)) hne (by rw [List.length_drop]; omega)
      rw [session, if_neg hnot, hsession, hcall.symbols]
      exact congrArg (·, idle, true) (List.take_append_drop free rest)

theorem session_out (h : Encodes enc idle out Todo) (d : δ) {frees : List Nat} (hne : frees ≠ [])
    (hle : (out d).length ≤ frees.sum) : session enc d idle frees = (out d, idle, true) :=
  h.session_rest frees (h.start d) hne hle

/-- An encoder of one datum. -/
theorem fixed (h : Encodes enc idle out Todo) (d : δ) {ε : Type*} :
    Encodes (fun _ : ε => enc d) idle (fun _ => out d) fun _ => Todo d where
  start _ := h.start d
  call free ht := h.call free ht

/-- An encoder that does the same on states that stand for those of another one. -/
theorem transfer {enc' : Encoder δ τ ω} {idle' : τ} (h : Encodes enc idle out Todo) (f : τ → σ) (Ok : τ → Prop)
    (hstart : Ok idle' ∧ f idle' = idle) (hidle : ∀ {t}, Ok t → f t = idle → t = idle')
    (hcall : ∀ {d t} (free : Nat), Ok t →
      (enc' d t free).1 = (enc d (f t) free).1 ∧ f (enc' d t free).2 = (enc d (f t) free).2 ∧ Ok (enc' d t free).2) :
    Encodes enc' idle' out fun d t rest => Ok t ∧ Todo d (f t) rest where
  start d := ⟨hstart.1, hstart.2 ▸ h.start d⟩
  call {d t rest} free ht := by
    obtain ⟨hOk, ht⟩ := ht
    obtain ⟨hencoded, hstate, hOk'⟩ := hcall (d := d) free hOk
    have hw := h.call free ht
    constructor
    · rw [hencoded, hw.symbols]
    · rw [hencoded, hw.complete]
    · rw [hencoded, hw.memFull]
    · intro hle
      exact hidle hOk' (hstate.trans (hw.done hle))
    · intro hlt
      exact ⟨hOk', hstate ▸ hw.left hlt⟩

end Encodes

/-! ## An encoder that counts -/

/-- It counts the symbols that it has written. -/
def copyEncoder (out : δ → List ω) : Encoder δ Nat ω := fun d n free =>
  let rest := (out d).drop n
  (⟨rest.take free, rest.length ≤ free, free ≤ rest.length⟩, if rest.length ≤ free then 0 else n + free)

theorem encodes_copy (out : δ → List ω) :
    Encodes (copyEncoder out) 0 out fun d n rest => rest = (out d).drop n where
  start d := List.drop_zero.symm
  call {d n rest} free h := by
    subst h
    exact ⟨rfl, decide_eq_true_iff, decide_eq_true_iff, fun hle => if_pos hle, fun hlt => by
      rw [copyEncoder, if_neg (Nat.not_le.2 hlt), List.drop_drop]⟩

/-! ## One after the other -/

/-- Which of the two is running, and the states of both. -/
structure InTurn (σ τ : Type*) where
  second : Bool
  fst : σ
  snd : τ

/-- The second encoder, in what room is left; `written` is what the first one has written in this call. -/
def Encoder.runSecond (enc₂ : Encoder δ τ ω) (d : δ) (s : InTurn σ τ) (free : Nat) (written : List ω) :
    Encoded ω × InTurn σ τ :=
  let call := enc₂ d s.snd (free - written.length)
  (⟨written ++ call.1.symbols, call.1.complete, call.1.memFull⟩,
    ⟨if call.1.complete then false else s.second, s.fst, call.2⟩)

/-- The first encoder until it is complete, and then the second. A call in which the memory fills up ends there. -/
def Encoder.andThen (enc₁ : Encoder δ σ ω) (enc₂ : Encoder δ τ ω) : Encoder δ (InTurn σ τ) ω := fun d s free =>
  if s.second then enc₂.runSecond d s free []
  else
    let call := enc₁ d s.fst free
    let s' : InTurn σ τ := ⟨call.1.complete, call.2, s.snd⟩
    if call.1.memFull then (⟨call.1.symbols, false, true⟩, s') else enc₂.runSecond d s' free call.1.symbols

/-- What is left of the first, and all of the second; or what is left of the second. -/
def InTurn.Todo (out₂ : δ → List ω) (idle₁ : σ) (idle₂ : τ) (Todo₁ : δ → σ → List ω → Prop)
    (Todo₂ : δ → τ → List ω → Prop) (d : δ) (s : InTurn σ τ) (rest : List ω) : Prop :=
  if s.second then s.fst = idle₁ ∧ Todo₂ d s.snd rest
  else s.snd = idle₂ ∧ ∃ rest₁, Todo₁ d s.fst rest₁ ∧ rest = rest₁ ++ out₂ d

section AndThen

variable {enc₁ : Encoder δ σ ω} {enc₂ : Encoder δ τ ω} {idle₁ : σ} {idle₂ : τ} {out₁ out₂ : δ → List ω}
variable {Todo₁ : δ → σ → List ω → Prop} {Todo₂ : δ → τ → List ω → Prop}

/-- The second encoder, behind what the first one has written. -/
theorem writes_runSecond (h₂ : Encodes enc₂ idle₂ out₂ Todo₂) {d : δ} {t : τ} {written rest : List ω} {free : Nat}
    (ht : Todo₂ d t rest) (hfree : written.length ≤ free) :
    Writes ⟨false, idle₁, idle₂⟩ (InTurn.Todo out₂ idle₁ idle₂ Todo₁ Todo₂ d) (written ++ rest) free
      (enc₂.runSecond d ⟨true, idle₁, t⟩ free written) := by
  have hcall := h₂.call (free - written.length) ht
  constructor
  · rw [Encoder.runSecond, hcall.symbols, List.take_append, List.take_of_length_le hfree]
  · rw [Encoder.runSecond, hcall.complete, List.length_append]
    omega
  · rw [Encoder.runSecond, hcall.memFull, List.length_append]
    omega
  · intro hle
    rw [List.length_append] at hle
    have hle : rest.length ≤ free - written.length := by omega
    rw [Encoder.runSecond, if_pos (hcall.complete.2 hle), hcall.done hle]
  · intro hlt
    rw [List.length_append] at hlt
    have hlt : free - written.length < rest.length := by omega
    have hnot : ¬ (enc₂ d t (free - written.length)).1.complete = true := by
      rw [hcall.complete]
      omega
    rw [Encoder.runSecond, if_neg hnot, List.drop_append, List.drop_of_length_le hfree, List.nil_append]
    exact ⟨rfl, hcall.left hlt⟩

/-- **Two encoders in turn** encode as the first and then the second. The second must write something: a call in which
the first one fills the memory exactly is not taken for the last. -/
theorem Encodes.andThen (h₁ : Encodes enc₁ idle₁ out₁ Todo₁) (h₂ : Encodes enc₂ idle₂ out₂ Todo₂)
    (hne : ∀ d, out₂ d ≠ []) : Encodes (enc₁.andThen enc₂) ⟨false, idle₁, idle₂⟩ (fun d => out₁ d ++ out₂ d)
      (InTurn.Todo out₂ idle₁ idle₂ Todo₁ Todo₂) where
  start d := ⟨rfl, out₁ d, h₁.start d, rfl⟩
  call {d s rest} free hs := by
    obtain ⟨second, fst, snd⟩ := s
    cases second with
    | true =>
      obtain ⟨rfl, hs⟩ := hs
      have hnil : ([] : List ω).length ≤ free := Nat.zero_le free
      exact writes_runSecond h₂ hs hnil
    | false =>
      obtain ⟨rfl, rest₁, hs, rfl⟩ := hs
      have hcall := h₁.call free hs
      have hpos := List.length_pos_iff.2 (hne d)
      have hlength : (rest₁ ++ out₂ d).length = rest₁.length + (out₂ d).length := List.length_append
      by_cases hfull : free ≤ rest₁.length
      · -- the call ends with the first encoder
        have hand : (enc₁.andThen enc₂) d ⟨false, fst, snd⟩ free =
            (⟨(enc₁ d fst free).1.symbols, false, true⟩,
              ⟨(enc₁ d fst free).1.complete, (enc₁ d fst free).2, snd⟩) := by
          simp only [Encoder.andThen, Bool.false_eq_true, if_false]
          exact if_pos (hcall.memFull.2 hfull)
        rw [hand]
        constructor
        · rw [hcall.symbols, List.take_append_of_le_length hfull]
        · exact iff_of_false Bool.false_ne_true (by omega)
        · exact iff_of_true rfl (by omega)
        · intro hle
          omega
        · intro _
          rw [List.drop_append_of_le_length hfull]
          by_cases hc : rest₁.length ≤ free
          · rw [hcall.complete.2 hc, hcall.done hc, List.drop_of_length_le hc]
            exact ⟨rfl, h₂.start d⟩
          · rw [Bool.eq_false_iff.2 (mt hcall.complete.1 hc)]
            exact ⟨rfl, _, hcall.left (by omega), rfl⟩
      · -- it goes on with the second
        have hle : rest₁.length ≤ free := by omega
        have hand : (enc₁.andThen enc₂) d ⟨false, fst, snd⟩ free =
            enc₂.runSecond d ⟨true, idle₁, snd⟩ free rest₁ := by
          simp only [Encoder.andThen, Bool.false_eq_true, if_false]
          rw [if_neg (mt hcall.memFull.1 hfull), hcall.complete.2 hle, hcall.done hle, hcall.symbols,
            List.take_of_length_le hle]
        rw [hand]
        exact writes_runSecond h₂ (h₂.start d) hle

end AndThen

end TrackIt.Lib
