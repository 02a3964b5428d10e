import Mathlib.Tactic.Common

/-!
# Blocks laid out in a stream

`Laid stream blocks`: the blocks lie in the stream one behind the other, disjoint and in order, with anything between
them. Unread bytes at the end of the stream extend the last gap (`Laid.gap`), a block read next is laid behind it
(`Laid.block`), streams append (`Laid.append`), some of the blocks are laid out as well (`Laid.sublist`), and the blocks
take up no more room than the stream has (`Laid.length_le`).
-/

namespace TrackIt.Lib

variable {α : Type*}

inductive Laid : List α → List (List α) → Prop
  | nil (gap : List α) : Laid gap []
  | snoc {stream : List α} {blocks : List (List α)} (block gap : List α) :
      Laid stream blocks → Laid (stream ++ block ++ gap) (blocks ++ [block])

namespace Laid

variable {stream : List α} {blocks : List (List α)}

theorem gap (h : Laid stream blocks) (g : List α) : Laid (stream ++ g) blocks := by
  cases h with
  | nil gap => exact .nil _
  | snoc block gap h => rw [List.append_assoc]; exact .snoc block (gap ++ g) h

theorem block (h : Laid stream blocks) (b : List α) : Laid (stream ++ b) (blocks ++ [b]) := by
  simpa using Laid.snoc b [] h

/-- Two streams one behind the other. -/
theorem append {stream' : List α} {blocks' : List (List α)} (h : Laid stream blocks) (h' : Laid stream' blocks') :
    Laid (stream ++ stream') (blocks ++ blocks') := by
  induction h' with
  | nil g => simpa using h.gap g
  | snoc b g _ ih => simpa [List.append_assoc] using Laid.snoc b g ih

/-- Some of the blocks. -/
theorem sublist (h : Laid stream blocks) {some : List (List α)} (hs : some.Sublist blocks) : Laid stream some := by
  induction h generalizing some with
  | nil g => rw [List.sublist_nil.1 hs]; exact .nil g
  | snoc block g _ ih =>
    obtain ⟨before, last, rfl, hbefore, hlast⟩ := List.sublist_append_iff.1 hs
    have hlaid := ih hbefore
    rcases List.sublist_cons_iff.1 hlast with hnil | ⟨rest, rfl, hnil⟩
    · rw [List.sublist_nil.1 hnil, List.append_nil, List.append_assoc]
      exact hlaid.gap _
    · rw [List.sublist_nil.1 hnil]
      exact hlaid.snoc block g

theorem isInfix (h : Laid stream blocks) {block : List α} (hb : block ∈ blocks) : block <:+: stream := by
  induction h with
  | nil g => cases hb
  | @snoc stream blocks last g _ ih =>
    rcases List.mem_append.1 hb with hb | hb
    · rw [List.append_assoc]
      exact (ih hb).trans (List.prefix_append _ _).isInfix
    · rw [List.mem_singleton.1 hb]
      exact ⟨stream, g, rfl⟩

theorem length_le (h : Laid stream blocks) : blocks.flatten.length ≤ stream.length := by
  induction h with
  | nil => simp
  | snoc block gap _ ih => simp only [List.flatten_append, List.flatten_singleton, List.length_append]; omega

end Laid

end TrackIt.Lib
