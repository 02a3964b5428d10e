import TrackIt.Lib.Subscriber
import TrackIt.Framer.Task
import TrackIt.Telemetry.Pipeline
import TrackIt.Telemetry.Latest
import TrackIt.Gatt.Client
import TrackIt.Gatt.Link

/-!
# From the UART to the client

The tasks together: `gnss_uart_task` cuts the stream of the receiver into messages, `handle_ubx_msg` queues the accepted
frames, `tel_parser_task` takes them out and sets the shared values, from which the access callbacks answer and of which
the notification tasks send copies. Every task may be overtaken by the others between any two of its steps.

`SHVAL_PointerSetValue` replaces a value and then sets the event bits of its tasks, one after the other;
`SHVAL_PointerWaitForValue` clears the bit of a task and then copies the value, or fails at any point (`Subscriber`).

- `Step`: the steps of all tasks;
- `Inv`, `inv_run`: what the tasks have made of the frames so far.
-/

namespace TrackIt.System

open TrackIt.Lib TrackIt.Framer TrackIt.Telemetry TrackIt.Gatt

/-! ## Frames and messages -/

/-- `m` is the message of the frame `f`: class, id and length are those of its header, and the payload slot, when the
pool had one, begins with its payload. -/
structure Carries (f : List UInt8) (m : UbxMessage) : Prop where
  cls : m.cls = f.getD 2 0
  messageId : m.messageId = f.getD 3 0
  length : m.length = le16 (f.getD 4 0) (f.getD 5 0)
  payload : ∀ item, m.payloadPoolItem = some item → ∀ i : Fin 1024, i.1 < m.length.toNat →
    item.get i = f.getD (6 + i.1) 0

/-- `UBX_ParseMessage`, as far as `handle_ubx_msg` relies on it: the messages of the frames that it accepts. -/
structure ParseMessage where
  run : List UInt8 → Option UbxMessage
  carries : ∀ f m, run f = some m → Carries f m

def ParseMessage.accept (parse : ParseMessage) (f : List UInt8) : Bool := (parse.run f).isSome

/-- The frames among the messages handed on. -/
def ubxFrames (ms : List Msg) : List (List UInt8) :=
  ms.filterMap fun
    | .ubx f => some f
    | .nmea _ => none

theorem ubxFrames_append (ms ms' : List Msg) : ubxFrames (ms ++ ms') = ubxFrames ms ++ ubxFrames ms' :=
  List.filterMap_append

theorem mem_ubxFrames {ms : List Msg} {f : List UInt8} : f ∈ ubxFrames ms ↔ Msg.ubx f ∈ ms := by
  simp only [ubxFrames, List.mem_filterMap]
  constructor
  · rintro ⟨m, hm, hf⟩
    cases m with
    | nmea b => cases hf
    | ubx b => cases hf; exact hm
  · exact fun h => ⟨_, h, rfl⟩

/-- The message of an iteration of the framer that hands on a frame. -/
def ubxMessage (parse : ParseMessage) : Option Msg → Option UbxMessage
  | some (.ubx f) => parse.run f
  | some (.nmea _) => none
  | none => none

/-! ## The tasks -/

/-- A message that `tel_parser_task` has taken out of the queue, and whether the shared values could be set. -/
structure Handled where
  message : UbxMessage
  setBase : Bool
  setPrecision : Bool

def Handled.item (h : Handled) : Item := ⟨telparserInput h.message, h.setBase, h.setPrecision⟩

/-- `loc_and_spd_nfty_task`, `elevation_nfty_task` and `gnss_fix_qlt_task` -/
inductive Notifier
  | locAndSpd
  | elevation
  | gnssFixQlt
  deriving DecidableEq

/-- What a task makes of its copy of the shared value. -/
def Notifier.format (m10 : M10Codes) : Notifier → GnssBaseData → GnssPrecisionData → List UInt8
  | .locAndSpd, base, _ => formatLocAndSpdBuffer m10 base
  | .elevation, base, _ => [byteAtInt base.altitudeCm 0, byteAtInt base.altitudeCm 8, byteAtInt base.altitudeCm 16]
  | .gnssFixQlt, _, precision => formatGnssFixQltBuffer m10 precision

/-- Whether handling a message replaces the value that the task waits for. -/
def Notifier.signalled (m10 : M10Codes) (input : TelparserInput) (setBase setPrecision : Bool) : Notifier → Bool
  | .locAndSpd => decide (input.IsPvt m10) && setBase
  | .elevation => decide (input.IsPvt m10) && setBase
  | .gnssFixQlt => decide (input.IsDop m10) && setPrecision

/-- A buffer that a task has formatted, and how many messages had been handled when it got its copy. -/
structure Notification where
  bytes : List UInt8
  version : Nat

structure World where
  uart : Framer.World
  telemetry : Telemetry.World
  link : Gatt.World
  /-- `BT_BASE_DATA_LOC_AND_SPD_EVT_BIT`, `BT_BASE_DATA_ELEVATION_EVT_BIT` and `BT_PRECISION_DATA_GNSS_FIX_EVT_BIT`, and
  how far the calls that set them and wait for them have got. -/
  subs : Notifier → Subscriber
  /-- The buffers that are about to be sent. -/
  pending : Notifier → Option Notification
  /-- The message that `tel_parser_task` has taken out of the queue and not handled yet. -/
  taken : Option UbxMessage
  /-- The messages handled so far. -/
  handled : List Handled
  /-- The buffers that were given to `BLE_SendNotification`, each with whether it succeeded. -/
  done : Notifier → List (Notification × Bool)

inductive Label
  | uart (l : Framer.Label)
  | iterate (parse : ParseMessage)
  | receive
  | handle (setBase setPrecision : Bool)
  | link (l : Gatt.Label)
  /-- `SHVAL_PointerSetValue` sets the event bit of a task. -/
  | signal (task : Notifier)
  /-- `SHVAL_PointerWaitForValue` finds the bit set, and clears it. -/
  | wake (task : Notifier)
  /-- It copies the value, and returns `SHVAL_ERROR_OK`. -/
  | copy (task : Notifier)
  /-- It returns another error. -/
  | waitFails (task : Notifier)
  /-- `BLE_SendNotification`, and whether it succeeds. -/
  | send (task : Notifier) (ok : Bool)

/-- The notifications sent so far. -/
def World.sent (w : World) (task : Notifier) : List Notification := ((w.done task).filter fun d => d.2).map Prod.fst

/-- `xQueueSend` to the telemetry queue, if there is a message. -/
def enqueue (t : Telemetry.World) : Option UbxMessage → Telemetry.World
  | none => t
  | some m => if t.queue.length < telparserQueueSize then { t with queue := t.queue ++ [m] } else t

/-- The shared values that the parser has set. -/
def publish (link : Gatt.World) (parser : TelParser) : Gatt.World :=
  { link with values :=
      { link.values with gnssBaseData := parser.gnssBaseData, gnssPrecisionData := parser.gnssPrecisionData } }

variable (m10 : M10Codes) (snprintf : GnssBaseData → List UInt8) (gBleAttributes : Attr → UInt16)

/-- The shared values before the first message. -/
def sharedValues₀ (aux : Option (List UInt8)) : SharedValues := ⟨gnssBaseData₀, gnssPrecisionData₀, aux⟩

def World.boot (buf : RxBuf) (aux : Option (List UInt8)) : World where
  uart := .boot buf
  telemetry := .boot m10
  link := .boot (sharedValues₀ aux)
  subs := fun _ => .init
  pending := fun _ => none
  taken := none
  handled := []
  done := fun _ => []

inductive Step : World → Label → World → Prop
  /-- A step of the UART task other than an iteration of its inner loop. -/
  | uart (w : World) (l : Framer.Label) (u : Framer.World) (hl : ∀ accept, l ≠ .iterate accept)
      (h : Framer.Step w.uart l u) : Step w (.uart l) { w with uart := u }
  | iterate (w : World) (parse : ParseMessage) (hpc : w.uart.pc = .framing true) (hlen : 0 < w.uart.buf.currDataLen) :
      Step w (.iterate parse)
        { w with uart := w.uart.afterIteration (w.uart.buf.iterate parse.accept)
                 telemetry := enqueue w.telemetry (ubxMessage parse (w.uart.buf.iterate parse.accept).dispatch) }
  /-- The task is not in `SHVAL_PointerSetValue` any more. -/
  | receive (w : World) (m : UbxMessage) (rest : List UbxMessage) (hidle : w.taken = none)
      (hset : ∀ task, (w.subs task).signalling = 0) (h : w.telemetry.queue = m :: rest) :
      Step w .receive { w with telemetry := ⟨rest, w.telemetry.parser⟩, taken := some m }
  | handle (w : World) (m : UbxMessage) (setBase setPrecision : Bool) (h : w.taken = some m) :
      Step w (.handle setBase setPrecision)
        { w with telemetry :=
                   ⟨w.telemetry.queue, w.telemetry.parser.handle m10 (telparserInput m) setBase setPrecision⟩
                 link := publish w.link (w.telemetry.parser.handle m10 (telparserInput m) setBase setPrecision)
                 subs := fun task =>
                   if task.signalled m10 (telparserInput m) setBase setPrecision then (w.subs task).put else w.subs task
                 taken := none
                 handled := w.handled ++ [⟨m, setBase, setPrecision⟩] }
  /-- A step of a peer. -/
  | link (w : World) (l : Gatt.Label) (link : Gatt.World) (hl : ∀ values, l ≠ .publish values)
      (h : Gatt.Step m10 snprintf gBleAttributes w.link l link) : Step w (.link l) { w with link := link }
  | signal (w : World) (task : Notifier) (hset : 0 < (w.subs task).signalling) :
      Step w (.signal task) { w with subs := Function.update w.subs task (w.subs task).signal }
  | wake (w : World) (task : Notifier) (h : w.pending task = none) (hbit : (w.subs task).evtBit = true)
      (hwoken : (w.subs task).woken = false) :
      Step w (.wake task) { w with subs := Function.update w.subs task (w.subs task).wake }
  | copy (w : World) (task : Notifier) (h : w.pending task = none) (hwoken : (w.subs task).woken = true) :
      Step w (.copy task)
        { w with subs := Function.update w.subs task (w.subs task).copy
                 pending := Function.update w.pending task (some
                   ⟨task.format m10 w.link.values.gnssBaseData w.link.values.gnssPrecisionData, w.handled.length⟩) }
  /-- A failure is logged. -/
  | waitFails (w : World) (task : Notifier) (h : w.pending task = none) :
      Step w (.waitFails task) { w with subs := Function.update w.subs task (w.subs task).fail }
  | send (w : World) (task : Notifier) (n : Notification) (ok : Bool) (h : w.pending task = some n) :
      Step w (.send task ok)
        { w with pending := Function.update w.pending task none
                 done := Function.update w.done task (w.done task ++ [(n, ok)]) }

/-! ## What the tasks have made of the frames -/

/-- The messages that have been queued, in order. -/
def World.queued (w : World) : List UbxMessage :=
  w.handled.map Handled.message ++ (w.taken.toList ++ w.telemetry.queue)

/-- The task's variables after some messages. -/
def parserAfter (hs : List Handled) : TelParser := TelParser.handleAll m10 (.init m10) (hs.map Handled.item)

/-- The copies that a task has taken so far. -/
def World.copies (w : World) (task : Notifier) : List Notification :=
  (w.done task).map Prod.fst ++ (w.pending task).toList

/-- What the task makes of the values that are shared. -/
def World.current (w : World) (task : Notifier) : List UInt8 :=
  task.format m10 w.link.values.gnssBaseData w.link.values.gnssPrecisionData

/-- `n` is what the task sends of the values that were published after its version. -/
def Notification.IsOf (task : Notifier) (hs : List Handled) (n : Notification) : Prop :=
  n.version ≤ hs.length ∧ n.bytes = task.format m10 (parserAfter m10 (hs.take n.version)).gnssBaseData
    (parserAfter m10 (hs.take n.version)).gnssPrecisionData

/-- **The invariant.** -/
structure Inv (w : World) : Prop where
  uart : Framer.Inv w.uart
  /-- The messages are those of some of the frames, in order. -/
  frames : ∃ frames, frames.Sublist (ubxFrames w.uart.dispatched) ∧
    List.Forall₂ Carries frames w.queued
  parser : w.telemetry.parser = parserAfter m10 w.handled
  base : w.link.values.gnssBaseData = w.telemetry.parser.gnssBaseData
  precision : w.link.values.gnssPrecisionData = w.telemetry.parser.gnssPrecisionData
  copies : ∀ task, ∀ n ∈ w.copies task, n.IsOf m10 task w.handled
  /-- The versions of the copies only grow. -/
  ordered : ∀ task, ((w.copies task).map Notification.version).Pairwise (· ≤ ·)
  /-- A task that is up to date has taken a copy of the value that is shared. -/
  fresh : ∀ task, (w.subs task).UpToDate → ((w.copies task).getLast?.map Notification.bytes).getD
    (task.format m10 gnssBaseData₀ gnssPrecisionData₀) = w.current m10 task

variable {m10} {snprintf} {gBleAttributes}

theorem parserAfter_snoc (hs : List Handled) (h : Handled) : parserAfter m10 (hs ++ [h]) =
    (parserAfter m10 hs).handle m10 (telparserInput h.message) h.setBase h.setPrecision := by
  simp [parserAfter, TelParser.handleAll, Handled.item]

theorem Notification.IsOf.snoc {task : Notifier} {hs : List Handled} {n : Notification} (h : n.IsOf m10 task hs)
    (i : Handled) : n.IsOf m10 task (hs ++ [i]) := by
  obtain ⟨hle, hbytes⟩ := h
  refine ⟨by rw [List.length_append]; omega, ?_⟩
  rwa [List.take_append_of_le_length hle]

theorem inv_boot (buf : RxBuf) (aux : Option (List UInt8)) : Inv m10 (.boot m10 buf aux) where
  uart := Framer.inv_boot buf
  frames := ⟨[], List.nil_sublist _, .nil⟩
  parser := rfl
  base := rfl
  precision := rfl
  copies := by simp [World.boot, World.copies]
  ordered := by simp [World.boot, World.copies]
  fresh _ _ := rfl

/-- A step hands on a frame only if it is accepted. -/
theorem next_accepted {accept : List UInt8 → Bool} {b f rest : List UInt8}
    (h : next accept b = .dispatch (.ubx f) rest) : accept f = true := by
  cases hs : findStart b with
  | none => rw [next_of_none hs] at h; cases h
  | some kc =>
    obtain ⟨k, c⟩ := kc
    obtain ⟨-, -, -, hu⟩ := findStart_spec hs
    cases k with
    | nmea =>
      rw [next_of_nmea hs, nextNmea] at h
      split at h
      · cases h
      · split at h <;> cases h
    | ubx =>
      obtain ⟨d, rfl⟩ := hu rfl
      rw [next_of_ubx hs] at h
      rcases nextUbx_spec accept d with ⟨f', rest', hd, -, ha, -⟩ | ⟨hd, -⟩ | ⟨hd, -⟩ <;> rw [hd] at h
      · cases h
        exact ha
      · cases h
      · cases h

/-- An iteration hands on a frame only if `UBX_ParseMessage` accepts it. -/
theorem iterate_accepted {accept : List UInt8 → Bool} {s : RxBuf} {f : List UInt8}
    (h : (s.iterate accept).dispatch = some (.ubx f)) : accept f = true := by
  have his := iterate_is accept s
  cases hnext : next accept s.live with
  | dispatch m rest =>
    rw [hnext] at his
    obtain rfl := Option.some.inj (h.symm.trans his.2.1)
    exact next_accepted hnext
  | retry rest => rw [hnext] at his; rw [his.2.1] at h; cases h
  | wait rest => rw [hnext] at his; rw [his.2.1] at h; cases h

/-- **What an iteration hands on to the telemetry**: nothing, or the message of one more frame. -/
theorem iterate_frames (parse : ParseMessage) (s : RxBuf) :
    let d := (s.iterate parse.accept).dispatch
    (ubxFrames d.toList = [] ∧ ubxMessage parse d = none) ∨
    ∃ f m, ubxFrames d.toList = [f] ∧ ubxMessage parse d = some m ∧ Carries f m := by
  intro d
  cases hd : d with
  | none => exact .inl ⟨rfl, rfl⟩
  | some msg =>
    cases msg with
    | nmea b => exact .inl ⟨rfl, rfl⟩
    | ubx f =>
      obtain ⟨m, hm⟩ := Option.isSome_iff_exists.1 (iterate_accepted hd)
      exact .inr ⟨f, m, rfl, hm, parse.carries f m hm⟩

theorem enqueue_keeps (t : Telemetry.World) (m : Option UbxMessage) : (enqueue t m).parser = t.parser := by
  cases m with
  | none => rfl
  | some m => simp only [enqueue]; split <;> rfl

/-! ## One step -/

variable {w w' : World} {l : Label}

/-- What an iteration hands on is queued, if there is room. -/
theorem queued_iterate (parse : ParseMessage) (buf : RxBuf) {frames : List (List UInt8)}
    (hc : List.Forall₂ Carries frames w.queued) : ∃ new, List.Sublist new
      (ubxFrames (buf.iterate parse.accept).dispatch.toList) ∧
      List.Forall₂ Carries (frames ++ new) (w.handled.map Handled.message ++ (w.taken.toList ++
        (enqueue w.telemetry (ubxMessage parse (buf.iterate parse.accept).dispatch)).queue)) := by
  rcases iterate_frames parse buf with ⟨hf, hm⟩ | ⟨f, m, hf, hm, hcarries⟩
  · rw [hm]
    exact ⟨[], List.nil_sublist _, by rwa [List.append_nil]⟩
  · rw [hf, hm]
    by_cases hroom : w.telemetry.queue.length < telparserQueueSize
    · refine ⟨[f], List.Sublist.refl _, ?_⟩
      rw [enqueue, if_pos hroom, ← List.append_assoc w.taken.toList, ← List.append_assoc]
      exact List.rel_append hc (.cons hcarries .nil)
    · rw [enqueue, if_neg hroom]
      exact ⟨[], List.nil_sublist _, by rwa [List.append_nil]⟩

theorem inv_uart (h : Inv m10 w) {u : Framer.World} (hu : Framer.Inv u) (hd : u.dispatched = w.uart.dispatched) :
    Inv m10 { w with uart := u } :=
  { h with uart := hu, frames := hd ▸ h.frames }

/-- A step of the UART task that is not an iteration hands nothing on. -/
theorem dispatched_step {u u' : Framer.World} {l : Framer.Label} (hl : ∀ accept, l ≠ .iterate accept)
    (hs : Framer.Step u l u') : u'.dispatched = u.dispatched := by
  cases hs with
  | data e hpc he => rfl
  | other type hpc => rfl
  | read r s hpc hs => rfl
  | drained r hpc hs => rfl
  | iterate accept hpc hlen => exact absurd rfl (hl accept)
  | framed processed hpc hend => rfl

theorem inv_iterate (h : Inv m10 w) (parse : ParseMessage) :
    Inv m10 { w with uart := w.uart.afterIteration (w.uart.buf.iterate parse.accept)
                     telemetry := enqueue w.telemetry
                       (ubxMessage parse (w.uart.buf.iterate parse.accept).dispatch) } where
  uart := Framer.inv_iterate parse.accept h.uart
  frames := by
    obtain ⟨frames, hsub, hc⟩ := h.frames
    obtain ⟨new, hnew, hc⟩ := queued_iterate parse w.uart.buf hc
    exact ⟨frames ++ new, by rw [Framer.World.afterIteration, ubxFrames_append]; exact hsub.append hnew, hc⟩
  parser := (enqueue_keeps _ _).trans h.parser
  base := h.base.trans (congrArg _ (enqueue_keeps _ _).symm)
  precision := h.precision.trans (congrArg _ (enqueue_keeps _ _).symm)
  copies := h.copies
  ordered := h.ordered
  fresh := h.fresh

theorem inv_receive (h : Inv m10 w) {m : UbxMessage} {rest : List UbxMessage} (hidle : w.taken = none)
    (hq : w.telemetry.queue = m :: rest) :
    Inv m10 { w with telemetry := ⟨rest, w.telemetry.parser⟩, taken := some m } :=
  { h with frames := by simpa [World.queued, hidle, hq] using h.frames }

/-- A value for which no task is signalled stays. -/
theorem format_handle (t : TelParser) (input : TelparserInput) {setBase setPrecision : Bool} {task : Notifier}
    (h : task.signalled m10 input setBase setPrecision = false) :
    let t' := t.handle m10 input setBase setPrecision
    task.format m10 t'.gnssBaseData t'.gnssPrecisionData = task.format m10 t.gnssBaseData t.gnssPrecisionData := by
  intro t'
  rcases TelParser.handle_cases m10 t input setBase setPrecision with ⟨hpvt, he⟩ | ⟨hdop, he⟩ | ⟨-, -, he⟩
  · cases task with
    | locAndSpd =>
      have hset : setBase = false := by simpa [Notifier.signalled, hpvt] using h
      simp only [t', he, hset]
      rfl
    | elevation =>
      have hset : setBase = false := by simpa [Notifier.signalled, hpvt] using h
      simp only [t', he, hset]
      rfl
    | gnssFixQlt =>
      simp only [t', he]
      rfl
  · cases task with
    | locAndSpd =>
      simp only [t', he]
      rfl
    | elevation =>
      simp only [t', he]
      rfl
    | gnssFixQlt =>
      have hset : setPrecision = false := by simpa [Notifier.signalled, hdop] using h
      simp only [t', he, hset]
      rfl
  · simp only [t', he]

theorem inv_handle (h : Inv m10 w) {m : UbxMessage} (setBase setPrecision : Bool) (ht : w.taken = some m) :
    Inv m10 { w with telemetry :=
                       ⟨w.telemetry.queue, w.telemetry.parser.handle m10 (telparserInput m) setBase setPrecision⟩
                     link := publish w.link (w.telemetry.parser.handle m10 (telparserInput m) setBase setPrecision)
                     subs := fun task =>
                       if task.signalled m10 (telparserInput m) setBase setPrecision then (w.subs task).put
                       else w.subs task
                     taken := none
                     handled := w.handled ++ [⟨m, setBase, setPrecision⟩] } where
  uart := h.uart
  frames := by simpa [World.queued, ht] using h.frames
  parser := by rw [parserAfter_snoc, ← h.parser]
  base := rfl
  precision := rfl
  copies task n hn := (h.copies task n hn).snoc _
  ordered := h.ordered
  fresh task hsub := by
    dsimp only at hsub
    split at hsub
    · exact absurd hsub (Subscriber.not_upToDate_put _)
    · rename_i hquiet
      refine (h.fresh task hsub).trans ?_
      rw [World.current, h.base, h.precision]
      exact (format_handle w.telemetry.parser (telparserInput m) (Bool.eq_false_iff.2 hquiet)).symm

theorem inv_link (h : Inv m10 w) {l : Gatt.Label} {link : Gatt.World} (hl : ∀ values, l ≠ .publish values)
    (hs : Gatt.Step m10 snprintf gBleAttributes w.link l link) : Inv m10 { w with link := link } := by
  have hv : link.values = w.link.values := by
    cases hs with
    | connect conn h => rfl
    | encrypt conn h => rfl
    | disconnect conn h => rfl
    | read conn chr calls h hchr => rfl
    | subscribe conn chr check h hchr hnotify hcheck => split <;> rfl
    | publish values => exact absurd rfl (hl values)
  exact { h with
    base := (congrArg _ hv).trans h.base
    precision := (congrArg _ hv).trans h.precision
    fresh := fun task hsub => (h.fresh task hsub).trans (by rw [World.current, World.current, hv]) }

/-- A step of one of the calls that brings no task up to date. -/
theorem inv_sub (h : Inv m10 w) (task : Notifier) {s : Subscriber} (hs : s.UpToDate → (w.subs task).UpToDate) :
    Inv m10 { w with subs := Function.update w.subs task s } := by
  refine { h with fresh := fun task' hsub => h.fresh task' ?_ }
  by_cases ht : task' = task
  · subst ht
    exact hs (by simpa using hsub)
  · simpa [ht] using hsub

theorem inv_copy (h : Inv m10 w) (task : Notifier) (hidle : w.pending task = none) :
    Inv m10 { w with subs := Function.update w.subs task (w.subs task).copy
                     pending := Function.update w.pending task (some
                       ⟨w.current m10 task, w.handled.length⟩) } := by
  have hcopies : ∀ task', ({ w with
      subs := Function.update w.subs task (w.subs task).copy
      pending := Function.update w.pending task (some ⟨w.current m10 task, w.handled.length⟩) } : World).copies task' =
        if task' = task then w.copies task ++ [⟨w.current m10 task, w.handled.length⟩] else w.copies task' := by
    intro task'
    by_cases ht : task' = task
    · subst ht
      simp [World.copies, hidle]
    · simp [World.copies, ht]
  refine { h with copies := ?_, ordered := ?_, fresh := ?_ }
  · intro task' n hn
    rw [hcopies] at hn
    split at hn
    · rename_i ht
      subst ht
      rcases List.mem_append.1 hn with hn | hn
      · exact h.copies task' n hn
      · rw [List.mem_singleton.1 hn]
        refine ⟨Nat.le_refl _, ?_⟩
        rw [List.take_length, ← h.parser, ← h.base, ← h.precision]
        rfl
    · exact h.copies task' n hn
  · intro task'
    rw [hcopies]
    split
    · rename_i ht
      subst ht
      rw [List.map_append, List.pairwise_append]
      refine ⟨h.ordered task', List.pairwise_singleton _ _, fun v hv v' hv' => ?_⟩
      obtain ⟨n, hn, rfl⟩ := List.mem_map.1 hv
      rw [List.mem_singleton.1 hv']
      exact (h.copies task' n hn).1
    · exact h.ordered task'
  · intro task' hsub
    rw [hcopies]
    split
    · rename_i ht
      subst ht
      simp [World.current]
    · rename_i ht
      dsimp only at hsub
      rw [Function.update_of_ne ht] at hsub
      exact h.fresh task' hsub

theorem inv_send (h : Inv m10 w) {task : Notifier} {n : Notification} (ok : Bool) (hn : w.pending task = some n) :
    Inv m10 { w with pending := Function.update w.pending task none
                     done := Function.update w.done task (w.done task ++ [(n, ok)]) } := by
  have hcopies : ∀ task', ({ w with
      pending := Function.update w.pending task none
      done := Function.update w.done task (w.done task ++ [(n, ok)]) } : World).copies task' = w.copies task' := by
    intro task'
    by_cases ht : task' = task
    · subst ht
      simp [World.copies, hn]
    · simp [World.copies, ht]
  exact { h with
    copies := fun task' => hcopies task' ▸ h.copies task'
    ordered := fun task' => hcopies task' ▸ h.ordered task'
    fresh := fun task' hsub => by rw [hcopies]; exact h.fresh task' hsub }

/-- Every step of every task keeps the invariant. -/
theorem inv_step (h : Inv m10 w) (hs : Step m10 snprintf gBleAttributes w l w') : Inv m10 w' := by
  cases hs with
  | uart l u hl hs => exact inv_uart h (Framer.inv_step h.uart hs) (dispatched_step hl hs)
  | iterate parse hpc hlen => exact inv_iterate h parse
  | receive m rest hidle hset hq => exact inv_receive h hidle hq
  | handle m setBase setPrecision ht => exact inv_handle h setBase setPrecision ht
  | link l link hl hs => exact inv_link h hl hs
  | signal task hset => exact inv_sub h task fun hu => absurd hu (Subscriber.not_upToDate_signal _)
  | wake task hidle hbit hwoken => exact inv_sub h task fun hu => absurd hu (Subscriber.not_upToDate_wake _)
  | copy task hidle hwoken => exact inv_copy h task hidle
  | waitFails task hidle => exact inv_sub h task Subscriber.UpToDate.of_fail
  | send task n ok hn => exact inv_send h ok hn

/-- **Whatever the tasks do, and in which order.** -/
theorem inv_run {buf : RxBuf} {aux : Option (List UInt8)} {tr : List (World × Label)}
    (h : Run (Step m10 snprintf gBleAttributes) (.boot m10 buf aux) tr w) : Inv m10 w :=
  h.invariant (inv_boot buf aux) fun _ _ _ => inv_step

end TrackIt.System
