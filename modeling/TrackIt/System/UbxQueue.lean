import TrackIt.Lib.Run
import TrackIt.Telemetry.Pipeline

/-!
# Replies of the receiver

The driver of the receiver sends a command and waits for the reply. The UART task passes the messages that come in to
`add_msg`, any task that talks to the receiver takes them out with `wait_for_msg`, and `flush_ubx_queue` throws away
what is left of earlier commands. All of them may overtake one another.

- `Inv`, `inv_run`: messages come out in order, each once, and those that are thrown away are released;
- `flush_run`: a flush that nobody overtakes;
- `no_stale_reply`: **after a flush that succeeded, no reply is older than the flush.**
-/

namespace TrackIt.System.UbxQueue

open TrackIt.Lib TrackIt.Telemetry

/-- `GNSS_UBX_QUEUE_SIZE` -/
def gnssUbxQueueSize : Nat := 5

/-- Where a task stands in `flush_ubx_queue`: outside, before `xQueueReceive`, or before `UBX_ReleaseMessage`. -/
inductive Pc
  | idle
  | receiving
  | releasing (message : UbxMessage)

/-- The message that a task has thrown away and not released. -/
def Pc.unreleased : Pc → Option UbxMessage
  | .idle => none
  | .receiving => none
  | .releasing m => some m

/-- A message that was taken out of the queue, by which task, and whether by a flush. -/
structure Taken (T : Type*) where
  message : UbxMessage
  task : T
  flushed : Bool

structure World (T : Type*) where
  /-- `gGnssUBXQueue` -/
  queue : List UbxMessage
  pc : T → Pc
  /-- The messages that were put into the queue. -/
  added : List UbxMessage
  taken : List (Taken T)
  /-- The messages that a task has released, each with whether that succeeded. -/
  released : T → List (UbxMessage × Bool)

variable {T : Type*}

def World.boot : World T := ⟨[], fun _ => .idle, [], [], fun _ => []⟩

/-- What `wait_for_msg` has returned so far. -/
def World.replies (w : World T) : List UbxMessage := (w.taken.filter fun x => !x.flushed).map Taken.message

/-- `add_msg`; the queue is still full at the end of the timeout, or there is room. -/
def addMsg (queue : List UbxMessage) (m : UbxMessage) : List UbxMessage × UInt8 :=
  if queue.length < gnssUbxQueueSize then (queue ++ [m], 0) else (queue, 1)

/-- `wait_for_msg`; the queue is still empty at the end of the timeout, or there is a message. -/
def waitForMsg : List UbxMessage → List UbxMessage × Option UbxMessage × UInt8
  | [] => ([], none, 1)
  | m :: rest => (rest, some m, 0)

/-- `flush_ubx_queue`, as it goes when nobody overtakes it: what is left in the queue, and whether it returns
`UBX_ERROR_OK`. -/
def flushUbxQueue (release : UbxMessage → Bool) : List UbxMessage → List UbxMessage × Bool
  | [] => ([], true)
  | m :: rest => if release m then flushUbxQueue release rest else (rest, false)

inductive Label (T : Type*)
  | add (m : UbxMessage)
  | wait (t : T)
  /-- `flush_ubx_queue` is called. -/
  | flush (t : T)
  | receive (t : T)
  /-- `xQueueReceive` finds nothing, and `flush_ubx_queue` returns `UBX_ERROR_OK`. -/
  | flushed (t : T)
  /-- On an error `flush_ubx_queue` returns it. -/
  | release (t : T) (ok : Bool)

variable [DecidableEq T]

inductive Step : World T → Label T → World T → Prop
  | add (w : World T) (m : UbxMessage) :
      Step w (.add m)
        { w with queue := (addMsg w.queue m).1
                 added := if (addMsg w.queue m).2 = 0 then w.added ++ [m] else w.added }
  | wait (w : World T) (t : T) (hpc : w.pc t = .idle) :
      Step w (.wait t)
        { w with queue := (waitForMsg w.queue).1
                 taken := w.taken ++ ((waitForMsg w.queue).2.1.map (⟨·, t, false⟩)).toList }
  | flush (w : World T) (t : T) (hpc : w.pc t = .idle) :
      Step w (.flush t) { w with pc := Function.update w.pc t .receiving }
  | receive (w : World T) (t : T) (m : UbxMessage) (rest : List UbxMessage) (hpc : w.pc t = .receiving)
      (hq : w.queue = m :: rest) :
      Step w (.receive t)
        { w with queue := rest, pc := Function.update w.pc t (.releasing m), taken := w.taken ++ [⟨m, t, true⟩] }
  | flushed (w : World T) (t : T) (hpc : w.pc t = .receiving) (hq : w.queue = []) :
      Step w (.flushed t) { w with pc := Function.update w.pc t .idle }
  | release (w : World T) (t : T) (m : UbxMessage) (ok : Bool) (hpc : w.pc t = .releasing m) :
      Step w (.release t ok)
        { w with pc := Function.update w.pc t (if ok then .receiving else .idle)
                 released := Function.update w.released t (w.released t ++ [(m, ok)]) }

/-- The messages that a task has thrown away. -/
def World.flushedBy (w : World T) (t : T) : List UbxMessage :=
  (w.taken.filter fun x => x.flushed && decide (x.task = t)).map Taken.message

/-- **The invariant.** -/
structure Inv (w : World T) : Prop where
  /-- Messages come out in order, and each once. -/
  fifo : w.taken.map Taken.message ++ w.queue = w.added
  room : w.queue.length ≤ gnssUbxQueueSize
  /-- What a flush throws away is released. -/
  released : ∀ t, w.flushedBy t = (w.released t).map Prod.fst ++ (w.pc t).unreleased.toList

variable {w w' : World T} {l : Label T}

theorem inv_boot : Inv (World.boot : World T) where
  fifo := rfl
  room := Nat.zero_le _
  released _ := rfl

/-! ## One step -/

theorem inv_add (h : Inv w) (m : UbxMessage) :
    Inv { w with queue := (addMsg w.queue m).1
                 added := if (addMsg w.queue m).2 = 0 then w.added ++ [m] else w.added } := by
  rw [addMsg]
  split
  · rename_i hroom
    exact { h with
      fifo := by rw [if_pos rfl, ← List.append_assoc, h.fifo]
      room := by rw [List.length_append]; exact hroom }
  · exact { h with }

theorem inv_wait (h : Inv w) (t : T) :
    Inv { w with queue := (waitForMsg w.queue).1
                 taken := w.taken ++ ((waitForMsg w.queue).2.1.map (⟨·, t, false⟩)).toList } := by
  obtain ⟨hfifo, hroom, hreleased⟩ := h
  cases hq : w.queue with
  | nil =>
    rw [hq] at hfifo
    refine ⟨?_, Nat.zero_le _, ?_⟩
    · simpa [waitForMsg] using hfifo
    · simpa [waitForMsg, World.flushedBy] using hreleased
  | cons m rest =>
    rw [hq] at hfifo hroom
    refine ⟨?_, ?_, ?_⟩
    · simpa [waitForMsg] using hfifo
    · simp only [waitForMsg, List.length_cons] at hroom ⊢
      omega
    · intro t'
      simpa [waitForMsg, World.flushedBy] using hreleased t'

theorem inv_receive (h : Inv w) {t : T} {m : UbxMessage} {rest : List UbxMessage} (hpc : w.pc t = .receiving)
    (hq : w.queue = m :: rest) :
    Inv { w with queue := rest, pc := Function.update w.pc t (.releasing m)
                 taken := w.taken ++ [⟨m, t, true⟩] } := by
  obtain ⟨hfifo, hroom, hreleased⟩ := h
  rw [hq] at hfifo hroom
  refine ⟨by simpa using hfifo, ?_, fun t' => ?_⟩
  · rw [List.length_cons] at hroom
    dsimp only
    omega
  · have ht' := hreleased t'
    simp only [World.flushedBy, List.filter_append, List.map_append] at ht' ⊢
    by_cases ht : t = t'
    · subst ht
      simp [ht', hpc, Pc.unreleased]
    · simp [ht', ht, Ne.symm ht]

theorem inv_release (h : Inv w) {t : T} {m : UbxMessage} (ok : Bool) (hpc : w.pc t = .releasing m) :
    Inv { w with pc := Function.update w.pc t (if ok then .receiving else .idle)
                 released := Function.update w.released t (w.released t ++ [(m, ok)]) } := by
  refine { h with released := fun t' => ?_ }
  have ht' : w.flushedBy t' = _ := h.released t'
  refine ht'.trans ?_
  by_cases ht : t' = t
  · subst ht
    cases ok <;> simp [hpc, Pc.unreleased]
  · simp [ht]

/-- The control of a task moves where there is nothing to release. -/
theorem inv_pc (h : Inv w) {t : T} {pc : Pc} (hpc : (w.pc t).unreleased = none) (hpc' : pc.unreleased = none) :
    Inv { w with pc := Function.update w.pc t pc } := by
  refine { h with released := fun t' => ?_ }
  refine (h.released t').trans ?_
  by_cases ht : t' = t
  · subst ht
    simp [hpc, hpc']
  · simp [ht]

theorem inv_step (h : Inv w) (hs : Step w l w') : Inv w' := by
  cases hs with
  | add m => exact inv_add h m
  | wait t hpc => exact inv_wait h t
  | flush t hpc => exact inv_pc h (by rw [hpc]; rfl) rfl
  | receive t m rest hpc hq => exact inv_receive h hpc hq
  | flushed t hpc hq => exact inv_pc h (by rw [hpc]; rfl) rfl
  | release t m ok hpc => exact inv_release h ok hpc

theorem inv_run {tr : List (World T × Label T)} (h : Run Step .boot tr w) : Inv w :=
  h.invariant inv_boot fun _ _ _ => inv_step

/-! ## A flush that nobody overtakes -/

/-- One turn of its loop. -/
theorem turn_run {t : T} {m : UbxMessage} {rest : List UbxMessage} (hpc : w.pc t = .receiving)
    (hq : w.queue = m :: rest) (ok : Bool) : ∃ tr w', Run Step w tr w' ∧ w'.queue = rest ∧
      w'.pc t = (if ok then .receiving else .idle) ∧ w'.added = w.added ∧ w'.replies = w.replies := by
  have hreceive := Step.receive w t m rest hpc hq
  generalize hw : ({ w with queue := rest, pc := Function.update w.pc t (.releasing m)
                            taken := w.taken ++ [⟨m, t, true⟩] } : World T) = w₁ at hreceive
  have hpc₁ : w₁.pc t = .releasing m := by rw [← hw]; exact Function.update_self _ _ _
  refine ⟨_, _, (Run.single hreceive).snoc (.release w₁ t m ok hpc₁), ?_, Function.update_self _ _ _, ?_, ?_⟩
  · rw [← hw]
  · rw [← hw]
  · simp [World.replies, ← hw]

/-- The steps of such a flush, up to the `xQueueReceive` that finds nothing, or to the error. -/
theorem flush_run (release : UbxMessage → Bool) {t : T} (hpc : w.pc t = .receiving) :
    ∃ tr w', Run Step w tr w' ∧ w'.queue = (flushUbxQueue release w.queue).1 ∧
      w'.pc t = (if (flushUbxQueue release w.queue).2 then .receiving else .idle) ∧
      w'.added = w.added ∧ w'.replies = w.replies := by
  generalize hq : w.queue = queue
  induction queue generalizing w with
  | nil => exact ⟨[], w, .nil, hq, hpc, rfl, rfl⟩
  | cons m rest ih =>
    obtain ⟨tr₁, w₁, h₁, hq₁, hpc₁, hadded₁, hreplies₁⟩ := turn_run hpc hq (release m)
    rw [flushUbxQueue]
    cases hm : release m with
    | false =>
      rw [hm] at hpc₁
      exact ⟨tr₁, w₁, h₁, hq₁, hpc₁, hadded₁, hreplies₁⟩
    | true =>
      rw [hm] at hpc₁
      obtain ⟨tr₂, w₂, h₂, hq₂, hpc₂, hadded₂, hreplies₂⟩ := ih hpc₁ hq₁
      exact ⟨tr₁ ++ tr₂, w₂, h₁.trans h₂, hq₂, hpc₂, hadded₂.trans hadded₁, hreplies₂.trans hreplies₁⟩

/-! ## Replies after a flush -/

/-- What was added and taken stays on record. -/
theorem grows_step (hs : Step w l w') : w.added <+: w'.added ∧ w.taken <+: w'.taken := by
  cases hs with
  | add m =>
    refine ⟨?_, List.prefix_rfl⟩
    dsimp only
    split
    · exact List.prefix_append _ _
    · exact List.prefix_rfl
  | wait t hpc => exact ⟨List.prefix_rfl, List.prefix_append _ _⟩
  | flush t hpc => exact ⟨List.prefix_rfl, List.prefix_rfl⟩
  | receive t m rest hpc hq => exact ⟨List.prefix_rfl, List.prefix_append _ _⟩
  | flushed t hpc hq => exact ⟨List.prefix_rfl, List.prefix_rfl⟩
  | release t m ok hpc => exact ⟨List.prefix_rfl, List.prefix_rfl⟩

theorem grows_run {tr : List (World T × Label T)} (h : Run Step w tr w') :
    w.added <+: w'.added ∧ w.taken <+: w'.taken := by
  refine h.invariant (I := fun x => w.added <+: x.added ∧ w.taken <+: x.taken)
    ⟨List.prefix_rfl, List.prefix_rfl⟩ fun x l x' hx hs => ?_
  obtain ⟨hadded, htaken⟩ := grows_step hs
  exact ⟨hx.1.trans hadded, hx.2.trans htaken⟩

/-- A flush succeeds when the queue is empty. -/
theorem flushed_spec {t : T} (h : Step w (.flushed t) w') :
    w'.pc t = .idle ∧ w'.queue = [] ∧ w'.added = w.added ∧ w'.replies = w.replies := by
  cases h with
  | flushed t hpc hq => exact ⟨Function.update_self _ _ _, hq, rfl, rfl⟩

/-- **No stale reply.** When a flush has returned `UBX_ERROR_OK`, all that it has thrown away has been released, and
every message that some task gets from `wait_for_msg` later was added after that; these messages come in the order in
which they were added, and each to one task only. -/
theorem no_stale_reply {tr tr' : List (World T × Label T)} {w₁ w₂ w₃ : World T} {t : T}
    (h : Run Step .boot tr w₁) (hflush : Step w₁ (.flushed t) w₂) (h' : Run Step w₂ tr' w₃) :
    w₂.flushedBy t = (w₂.released t).map Prod.fst ∧
    ∃ added replies, w₃.added = w₂.added ++ added ∧ w₃.replies = w₂.replies ++ replies ∧ replies.Sublist added := by
  have hinv₂ := inv_run (h.snoc hflush)
  have hinv₃ := inv_run ((h.snoc hflush).trans h')
  obtain ⟨⟨added, ha⟩, taken, ht⟩ := grows_run h'
  rw [eq_comm] at ha ht
  obtain ⟨hidle, hempty, -⟩ := flushed_spec hflush
  have htaken₂ : w₂.taken.map Taken.message = w₂.added := by
    have hfifo := hinv₂.fifo
    rwa [hempty, List.append_nil] at hfifo
  have hnew : taken.map Taken.message ++ w₃.queue = added := by
    have hfifo := hinv₃.fifo
    rw [ht, ha, List.map_append, htaken₂, List.append_assoc] at hfifo
    exact List.append_cancel_left hfifo
  have hreleased := hinv₂.released t
  rw [hidle, Pc.unreleased, Option.toList_none, List.append_nil] at hreleased
  refine ⟨hreleased, added, (taken.filter fun x => !x.flushed).map Taken.message, ha, ?_, ?_⟩
  · rw [World.replies, World.replies, ht, List.filter_append, List.map_append]
  · rw [← hnew]
    exact (List.filter_sublist.map _).trans (List.sublist_append_left _ _)

/-- The reply to an earlier command. -/
def staleAck : UbxMessage := ⟨0x05, 0x01, 2, some (Vector.replicate 1024 0)⟩

def freshAck : UbxMessage := ⟨0x05, 0x01, 2, some (Vector.replicate 1024 1)⟩

/-- A task begins a flush when the reply to an earlier command has come. -/
theorem stale_run (t : T) : ∃ tr w, Run Step (.boot : World T) tr w ∧ w.queue = [staleAck] ∧ w.pc t = .receiving ∧
    w.added = [staleAck] ∧ w.replies = [] :=
  ⟨_, _, (Run.single (.add _ staleAck)).snoc (.flush _ t rfl), rfl, Function.update_self _ _ _, rfl, rfl⟩

/-- A reply comes, and a task gets it. -/
theorem reply_run {t : T} (m : UbxMessage) (hpc : w.pc t = .idle) (hq : w.queue = []) :
    ∃ tr w', Run Step w tr w' ∧ w'.replies = w.replies ++ [m] := by
  refine ⟨_, _, (Run.single (Step.add w m)).snoc (Step.wait _ t (by exact hpc)), ?_⟩
  simp [World.replies, hq, addMsg, waitForMsg, gnssUbxQueueSize]

theorem no_stale_reply_ack : ∃ (tr tr' : List (World Unit × Label Unit)) (w₁ w₂ w₃ : World Unit),
    Run Step .boot tr w₁ ∧ Step w₁ (.flushed ()) w₂ ∧ Run Step w₂ tr' w₃ ∧
    w₂.added = [staleAck] ∧ w₃.replies = [freshAck] ∧ w₂.flushedBy () = (w₂.released ()).map Prod.fst ∧
    ∃ added replies, w₃.added = w₂.added ++ added ∧ w₃.replies = w₂.replies ++ replies ∧ replies.Sublist added := by
  obtain ⟨tr₀, w₀, h₀, hq₀, hpc₀, hadded₀, hreplies₀⟩ := stale_run ()
  obtain ⟨tr₁, w₁, h₁, hq₁, hpc₁, hadded₁, hreplies₁⟩ := flush_run (fun _ => true) hpc₀
  rw [hq₀] at hq₁ hpc₁
  obtain ⟨w₂, hflush⟩ : ∃ w₂, Step w₁ (.flushed ()) w₂ := ⟨_, .flushed w₁ () hpc₁ hq₁⟩
  obtain ⟨hpc₂, hq₂, hadded₂, hreplies₂⟩ := flushed_spec hflush
  obtain ⟨tr₃, w₃, h₃, hreplies₃⟩ := reply_run freshAck hpc₂ hq₂
  refine ⟨_, _, w₁, w₂, w₃, h₀.trans h₁, hflush, h₃, ?_, ?_, no_stale_reply (h₀.trans h₁) hflush h₃⟩
  · rw [hadded₂, hadded₁, hadded₀]
  · rw [hreplies₃, hreplies₂, hreplies₁, hreplies₀, List.nil_append]

end TrackIt.System.UbxQueue
