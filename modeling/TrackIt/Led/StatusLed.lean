import TrackIt.Lib.Mailbox
import TrackIt.Lib.Run
import TrackIt.Led.Wire

/-!
# The status LED

Any task may set the state that the LED is to show. `STATUSLED_SetState` puts it into a queue of one place, over a state
that is still there, and `status_led_task` takes it out, writes its colour into the strip of one pixel and refreshes it.
The driver may fail at each step, and then the LED keeps what it shows.

- `shade_injective`: the states can be told apart, dimmed as they are;
- `led_shows`: at any time the LED shows the last state whose refresh went through, and such states are some of those
  that were set, in order;
- `led_shows_last`: **when nothing is left to do, it shows the last state that was set**, unless its refresh failed.
-/

namespace TrackIt.Led

open TrackIt.Lib

/-- `STATUSLED_StateTypeDef` -/
inductive StatusledState
  | configuring
  | errorGnssCfg
  | errorBtCfg
  | readyToConnect
  | connected
  deriving DecidableEq

def getColorForState : StatusledState → UInt8 × UInt8 × UInt8
  | .configuring => (255, 159, 1)
  | .errorGnssCfg => (255, 0, 0)
  | .errorBtCfg => (97, 120, 255)
  | .readyToConnect => (255, 255, 255)
  | .connected => (0, 255, 0)

/-- `STATUS_LED_BRIGHTNESS`, in percent. -/
def statusLedBrightness : Nat := 10

/-- `(color * STATUS_LED_BRIGHTNESS) / 100` -/
def dimmed (color : UInt8) : UInt32 := .ofNat (color.toNat * statusLedBrightness / 100)

/-- The configuration of `STATUSLED_Init`, with what it leaves out zero. -/
def statusLedConfig : LedConfig := ⟨1, .ws2812, .unset⟩

/-- `resolution_hz` -/
def statusLedResolution : UInt32 := 1000 * 1000 * 10

/-- The colour of a state, as the task writes it. -/
def writeState (s : Strip) (state : StatusledState) : Except EspErr Strip :=
  let (red, green, blue) := getColorForState state
  s.setPixel 0 (dimmed red) (dimmed green) (dimmed blue)

/-- What the LED is to show. -/
def shade (state : StatusledState) : Color :=
  let (red, green, blue) := getColorForState state
  FormatLayout.grb.color (dimmed red) (dimmed green) (dimmed blue) 0

def off : Color := ⟨0, 0, 0, none⟩

theorem shade_injective : ∀ state state', shade state = shade state' → state = state' := by
  intro state state'
  cases state <;> cases state' <;> decide

/-! ## The task and its callers -/

/-- The events that `on_gap_event` sets a state for. -/
inductive GapEvent
  | connSuccess
  | connDisconnect
  | other

/-- `on_gap_event`; `available` is the answer of `BLE_CheckConnectionsAvailable`. -/
def onGapEvent (available : Bool) : GapEvent → Option StatusledState
  | .connSuccess => some .connected
  | .connDisconnect => if !available then some .readyToConnect else none
  | .other => none

/-- What is left of `STATUSLED_Init`. -/
inductive InitPc
  | newDevice
  | createQueue
  | clear
  | createTask
  | done

/-- Where `status_led_task` stands. -/
inductive TaskPc
  | notCreated
  | waiting
  | setPixel (state : StatusledState)
  | refresh (state : StatusledState)

/-- The state that the task is about to show. -/
def TaskPc.busy : TaskPc → Option StatusledState
  | .notCreated => none
  | .waiting => none
  | .setPixel state => some state
  | .refresh state => some state

structure World (σ τ : Type*) where
  init : InitPc
  task : TaskPc
  /-- `*gAppState.hstatusled` -/
  strip : Option Strip
  encoder : LedEncoder σ τ
  /-- `gStateQueue`, once it is there. -/
  queue : Option (Option StatusledState)
  /-- What the LED shows. -/
  light : Color
  /-- What it showed before the first state. -/
  before : Color
  /-- The states that were put into the queue. -/
  set : List StatusledState
  /-- The states that the task is done with, each with whether its refresh went through. -/
  done : List (StatusledState × Bool)

variable {σ τ : Type*}

/-- The LED has its own supply, and may show anything. -/
def World.boot (idle₁ : σ) (idle₂ : τ) (light : Color) : World σ τ where
  init := .newDevice
  task := .notCreated
  strip := none
  encoder := ⟨0, idle₁, idle₂⟩
  queue := none
  light := light
  before := light
  set := []
  done := []

/-- The states that the LED has shown. -/
def World.shownStates (w : World σ τ) : List StatusledState := (w.done.filter fun d => d.2).map Prod.fst

/-- `STATUSLED_SetState` -/
def World.setState (w : World σ τ) (state : StatusledState) : World σ τ :=
  match w.queue with
  | none => w
  | some _ => { w with queue := some (some state), set := w.set ++ [state] }

/-- How a refresh ends: `rmt_enable` or `rmt_transmit` fails, or the pixels are sent and memory becomes free in the
given portions until they are. What `rmt_disable` answers does not matter any more. -/
inductive Refresh
  | failed
  | sent (frees : List Nat)

inductive Label
  | newDevice (resources : Except EspErr Unit)
  | createQueue
  | clear (r : Refresh)
  | createTask
  | setState (state : StatusledState)
  | gapEvent (e : GapEvent) (available : Bool)
  | receive
  | setPixel
  | refresh (r : Refresh)

section Steps

variable (bytesEncoder : Encoder (List UInt8) σ RmtSymbol) (copyEncoder : Encoder RmtSymbol τ RmtSymbol)
variable (c : LedEncoderConfig) (chip : Chip)

/-- `led_strip_refresh`; an API call without a strip fails. -/
def ledStripRefresh (w : World σ τ) : Refresh → World σ τ × Bool
  | .failed => (w, false)
  | .sent frees =>
    match w.strip with
    | none => (w, false)
    | some s =>
      let out := transmit bytesEncoder copyEncoder c s w.encoder frees
      ({ w with
        light := ((chip.latch out.1).map (shown s.componentFmt · 0)).getD w.light
        encoder := out.2.1 }, true)

/-- `led_strip_clear` -/
def ledStripClear (w : World σ τ) (r : Refresh) : World σ τ × Bool :=
  ledStripRefresh bytesEncoder copyEncoder c chip { w with strip := w.strip.map Strip.clear } r

/-- The call waits until everything is sent. -/
def Refresh.Ends (r : Refresh) (w : World σ τ) : Prop :=
  match r, w.strip with
  | .sent frees, some s => frees ≠ [] ∧ 8 * s.pixelBuf.length < frees.sum
  | _, _ => True

inductive Step : World σ τ → Label → World σ τ → Prop
  | newDevice (w : World σ τ) (resources : Except EspErr Unit) (hpc : w.init = .newDevice) :
      Step w (.newDevice resources)
        { w with
          init := .createQueue
          strip := (ledStripNewRmtDevice statusLedConfig resources).toOption.bind RmtDevice.strip? }
  | createQueue (w : World σ τ) (hpc : w.init = .createQueue) :
      Step w .createQueue { w with init := .clear, queue := some none }
  | clear (w w' : World σ τ) (r : Refresh) (sent : Bool) (hpc : w.init = .clear)
      (hr : r.Ends { w with strip := w.strip.map Strip.clear })
      (h : ledStripClear bytesEncoder copyEncoder c chip w r = (w', sent)) :
      Step w (.clear r) { w' with init := .createTask, before := w'.light }
  | createTask (w : World σ τ) (hpc : w.init = .createTask) :
      Step w .createTask { w with init := .done, task := .waiting }
  | setState (w : World σ τ) (state : StatusledState) : Step w (.setState state) (w.setState state)
  | gapEvent (w : World σ τ) (e : GapEvent) (available : Bool) :
      Step w (.gapEvent e available) ((onGapEvent available e).elim w w.setState)
  | receive (w : World σ τ) (state : StatusledState) (hpc : w.task = .waiting) (hq : w.queue = some (some state)) :
      Step w .receive { w with task := .setPixel state, queue := some none }
  | setPixel (w : World σ τ) (state : StatusledState) (s : Strip) (hpc : w.task = .setPixel state)
      (h : w.strip.map (writeState · state) = some (.ok s)) :
      Step w .setPixel { w with task := .refresh state, strip := some s }
  /-- The error is logged, and the task goes on. -/
  | setPixelFailed (w : World σ τ) (state : StatusledState) (hpc : w.task = .setPixel state)
      (h : ∀ s, w.strip.map (writeState · state) ≠ some (.ok s)) :
      Step w .setPixel { w with task := .waiting, done := w.done ++ [(state, false)] }
  | refresh (w w' : World σ τ) (state : StatusledState) (r : Refresh) (sent : Bool) (hpc : w.task = .refresh state)
      (hr : r.Ends w) (h : ledStripRefresh bytesEncoder copyEncoder c chip w r = (w', sent)) :
      Step w (.refresh r) { w' with task := .waiting, done := w.done ++ [(state, sent)] }

end Steps

/-! ## The invariant -/

/-- The states that the task has taken. -/
def World.taken (w : World σ τ) : List StatusledState := w.done.map Prod.fst ++ w.task.busy.toList

/-- The strip of one pixel. -/
structure OnePixel (s : Strip) : Prop where
  stripLen : s.stripLen = 1
  componentFmt : s.componentFmt = .grb

structure Inv (idle₁ : σ) (idle₂ : τ) (light₀ : Color) (w : World σ τ) : Prop where
  served : Served w.set w.taken (w.queue.getD none)
  encoder : w.encoder = ⟨0, idle₁, idle₂⟩
  strip : ∀ s ∈ w.strip, OnePixel s
  written : ∀ state, w.task = .refresh state → ∃ s ∈ w.strip, s.color 0 = shade state
  light : w.light = (w.shownStates.getLast?.map shade).getD w.before
  before : w.before = light₀ ∨ w.before = off
  start : w.init ≠ .done → w.task = .notCreated ∧ w.done = []
  noQueue : w.init = .newDevice ∨ w.init = .createQueue → w.queue = none

section Invariant

variable {bytesEncoder : Encoder (List UInt8) σ RmtSymbol} {copyEncoder : Encoder RmtSymbol τ RmtSymbol}
variable {idle₁ : σ} {idle₂ : τ} {light₀ : Color} {c : LedEncoderConfig} {chip : Chip} {w w' : World σ τ} {l : Label}
variable {Todo₁ : List UInt8 → σ → List RmtSymbol → Prop} {Todo₂ : RmtSymbol → τ → List RmtSymbol → Prop}

theorem inv_boot (light₀ : Color) : Inv idle₁ idle₂ light₀ (.boot idle₁ idle₂ light₀) where
  served := Served.nil
  encoder := rfl
  strip s hs := by cases hs
  written state h := by cases h
  light := rfl
  before := .inl rfl
  start _ := ⟨rfl, rfl⟩
  noQueue _ := rfl

/-- One pixel has room in its device. -/
theorem statusLed_newDevice {resources : Except EspErr Unit} {d : RmtDevice}
    (h : ledStripNewRmtDevice statusLedConfig resources = .ok d) : ∃ s, d = .strip s ∧ OnePixel s := by
  cases d with
  | strip s =>
    obtain ⟨hfmt, hlen, -⟩ := newRmtDevice_spec h
    have hgrb : checkedFormat statusLedConfig = .ok .grb := by decide
    rw [hgrb] at hfmt
    exact ⟨s, rfl, hlen, (Except.ok.inj hfmt).symm⟩
  | overrun => cases resources <;> cases h

/-- Writing a state into the strip. -/
theorem writeState_spec {s : Strip} (hs : OnePixel s) (state : StatusledState) :
    ∃ s', writeState s state = .ok s' ∧ OnePixel s' ∧ s'.color 0 = shade state := by
  have hlt : (0 : UInt32).toNat < s.stripLen := by
    rw [hs.stripLen]
    exact Nat.one_pos
  refine ⟨_, (s.setPixel_eq _ _ _ _).trans (if_pos hlt), ⟨hs.stripLen, hs.componentFmt⟩, ?_⟩
  have hcolor := s.color_writeColors hlt
  exact (congrFun (hcolor _ _ _ _) 0).trans ((Function.update_self _ _ _).trans (by rw [hs.componentFmt]; rfl))

/-- A refresh shows the pixel, or changes nothing. -/
theorem refresh_spec (h₁ : Encodes bytesEncoder idle₁ (List.flatMap c.bytes.symbols) Todo₁)
    (h₂ : Encodes copyEncoder idle₂ (fun symbol => [symbol]) Todo₂) (hchip : chip.Tells c)
    (hidle : w.encoder = ⟨0, idle₁, idle₂⟩) {r : Refresh} (hr : r.Ends w) {sent : Bool}
    (h : ledStripRefresh bytesEncoder copyEncoder c chip w r = (w', sent)) :
    (sent = false ∧ w' = w) ∨ (sent = true ∧ ∃ s ∈ w.strip, w' = { w with light := s.color 0 }) := by
  cases r with
  | failed =>
    cases h
    exact .inl ⟨rfl, rfl⟩
  | sent frees =>
    obtain ⟨init, task, strip, encoder, queue, light, before, set, done⟩ := w
    cases strip with
    | none =>
      cases h
      exact .inl ⟨rfl, rfl⟩
    | some s =>
      obtain ⟨hne, hroom⟩ := hr
      dsimp only at hidle
      subst hidle
      have hsent := transmit_shows h₁ h₂ hchip s hne
      dsimp only at hsent
      rw [if_pos hroom] at hsent
      obtain ⟨hdone, bits, hbits, hshown⟩ := hsent
      dsimp only [ledStripRefresh] at h
      rw [hdone, hbits] at h
      cases h
      exact .inr ⟨rfl, s, rfl, by rw [Option.map_some, Option.getD_some, hshown]⟩

/-- The task runs once the initialization is done. -/
theorem Inv.running (h : Inv idle₁ idle₂ light₀ w) (htask : w.task ≠ .notCreated) : w.init = .done := by
  by_contra hinit
  exact htask (h.start hinit).1

theorem inv_setState (h : Inv idle₁ idle₂ light₀ w) (state : StatusledState) :
    Inv idle₁ idle₂ light₀ (w.setState state) := by
  rw [World.setState]
  cases hq : w.queue with
  | none => exact h
  | some slot =>
    refine ⟨h.served.put_value state, h.encoder, h.strip, h.written, h.light, h.before, h.start, fun hinit => ?_⟩
    rw [h.noQueue hinit] at hq
    cases hq

theorem inv_clear (h₁ : Encodes bytesEncoder idle₁ (List.flatMap c.bytes.symbols) Todo₁)
    (h₂ : Encodes copyEncoder idle₂ (fun symbol => [symbol]) Todo₂) (hchip : chip.Tells c)
    (h : Inv idle₁ idle₂ light₀ w) {r : Refresh} {sent : Bool} (hpc : w.init = .clear)
    (hr : r.Ends { w with strip := w.strip.map Strip.clear })
    (hs : ledStripClear bytesEncoder copyEncoder c chip w r = (w', sent)) :
    Inv idle₁ idle₂ light₀ { w' with init := .createTask, before := w'.light } := by
  obtain ⟨htask, hdone⟩ := h.start (by rw [hpc]; simp)
  have hstrip : ∀ s ∈ w.strip.map Strip.clear, OnePixel s := by
    intro s hs
    obtain ⟨s', hs', rfl⟩ := Option.mem_map.1 hs
    exact ⟨(h.strip s' hs').stripLen, (h.strip s' hs').componentFmt⟩
  have hinv : ∀ light, (light = light₀ ∨ light = off) → Inv idle₁ idle₂ light₀
      { w with strip := w.strip.map Strip.clear, light := light, init := .createTask, before := light } := by
    intro light hlight
    refine ⟨h.served, h.encoder, hstrip, ?_, ?_, hlight, fun _ => ⟨htask, hdone⟩, ?_⟩
    · intro state hstate
      rw [show w.task = .refresh state from hstate] at htask
      cases htask
    · simp [World.shownStates, hdone]
    · intro hinit
      rcases hinit with hinit | hinit <;> cases hinit
  have hidle : { w with strip := w.strip.map Strip.clear }.encoder = ⟨0, idle₁, idle₂⟩ := h.encoder
  rcases refresh_spec h₁ h₂ hchip hidle hr hs with ⟨-, rfl⟩ | ⟨-, s, hmem, rfl⟩
  · have hlight := h.light
    rw [World.shownStates, hdone] at hlight
    exact hinv w.light (hlight ▸ h.before)
  · obtain ⟨s', hs', rfl⟩ := Option.mem_map.1 hmem
    refine hinv _ (.inr ?_)
    rw [Strip.color_zero (s := s'.clear) rfl, (hstrip _ hmem).componentFmt]
    rfl

theorem inv_refresh (h₁ : Encodes bytesEncoder idle₁ (List.flatMap c.bytes.symbols) Todo₁)
    (h₂ : Encodes copyEncoder idle₂ (fun symbol => [symbol]) Todo₂) (hchip : chip.Tells c)
    (h : Inv idle₁ idle₂ light₀ w) {state : StatusledState} {r : Refresh} {sent : Bool} (hpc : w.task = .refresh state)
    (hr : r.Ends w) (hs : ledStripRefresh bytesEncoder copyEncoder c chip w r = (w', sent)) :
    Inv idle₁ idle₂ light₀ { w' with task := .waiting, done := w.done ++ [(state, sent)] } := by
  have hserved := h.served
  rw [World.taken, hpc] at hserved
  have hdone := h.running (by rw [hpc]; simp)
  have hinv : ∀ light,
      light = (({ w with done := w.done ++ [(state, sent)] }).shownStates.getLast?.map shade).getD w.before →
      Inv idle₁ idle₂ light₀ { w with light := light, task := .waiting, done := w.done ++ [(state, sent)] } := by
    intro light hlight
    refine ⟨?_, h.encoder, h.strip, ?_, hlight, h.before, fun hinit => absurd hdone hinit, ?_⟩
    · simpa [World.taken, TaskPc.busy] using hserved
    · intro state' hstate'
      cases hstate'
    · exact fun hinit => absurd hinit (by simp [hdone])
  rcases refresh_spec h₁ h₂ hchip h.encoder hr hs with ⟨rfl, rfl⟩ | ⟨rfl, s, hmem, rfl⟩
  · exact hinv w'.light (by simpa [World.shownStates] using h.light)
  · obtain ⟨s', hs', hcolor⟩ := h.written state hpc
    obtain rfl : s = s' := Option.mem_unique hmem hs'
    exact hinv (s.color 0) (by simp [World.shownStates, hcolor])

theorem inv_step (h₁ : Encodes bytesEncoder idle₁ (List.flatMap c.bytes.symbols) Todo₁)
    (h₂ : Encodes copyEncoder idle₂ (fun symbol => [symbol]) Todo₂) (hchip : chip.Tells c)
    (h : Inv idle₁ idle₂ light₀ w) (hs : Step bytesEncoder copyEncoder c chip w l w') : Inv idle₁ idle₂ light₀ w' := by
  cases hs with
  | newDevice resources hpc =>
    obtain ⟨htask, hdone⟩ := h.start (by rw [hpc]; simp)
    refine ⟨h.served, h.encoder, ?_, ?_, h.light, h.before, fun _ => ⟨htask, hdone⟩, fun _ => h.noQueue (.inl hpc)⟩
    · intro s hs
      cases hnew : ledStripNewRmtDevice statusLedConfig resources with
      | error e => rw [hnew] at hs; cases hs
      | ok d =>
        obtain ⟨s', rfl, hone⟩ := statusLed_newDevice hnew
        rw [hnew] at hs
        cases hs
        exact hone
    · intro state hstate
      rw [show w.task = .refresh state from hstate] at htask
      cases htask
  | createQueue hpc =>
    obtain ⟨htask, hdone⟩ := h.start (by rw [hpc]; simp)
    have hserved := h.served
    rw [h.noQueue (.inr hpc)] at hserved
    refine ⟨hserved, h.encoder, h.strip, h.written, h.light, h.before, fun _ => ⟨htask, hdone⟩, ?_⟩
    intro hinit
    rcases hinit with hinit | hinit <;> cases hinit
  | clear w' r sent hpc hr hs => exact inv_clear h₁ h₂ hchip h hpc hr hs
  | createTask hpc =>
    obtain ⟨htask, hdone⟩ := h.start (by rw [hpc]; simp)
    have hserved := h.served
    rw [World.taken, htask] at hserved
    refine ⟨hserved, h.encoder, h.strip, ?_, h.light, h.before, fun hinit => absurd rfl hinit, ?_⟩
    · intro state hstate
      cases hstate
    · intro hinit
      rcases hinit with hinit | hinit <;> cases hinit
  | setState state => exact inv_setState h state
  | gapEvent e available =>
    cases onGapEvent available e with
    | none => exact h
    | some state => exact inv_setState h state
  | receive state hpc hq =>
    have hserved := h.served
    rw [World.taken, hpc, hq] at hserved
    have hdone := h.running (by rw [hpc]; simp)
    refine ⟨?_, h.encoder, h.strip, ?_, h.light, h.before, fun hinit => absurd hdone hinit, ?_⟩
    · have htake := hserved.take
      simpa [World.taken, TaskPc.busy] using htake
    · intro state' hstate'
      cases hstate'
    · exact fun hinit => absurd hinit (by simp [hdone])
  | setPixel state s hpc hs =>
    have hserved := h.served
    rw [World.taken, hpc] at hserved
    have hdone := h.running (by rw [hpc]; simp)
    obtain ⟨s₀, hs₀, hwrite⟩ := Option.map_eq_some_iff.1 hs
    obtain ⟨s', hs', hone, hcolor⟩ := writeState_spec (h.strip s₀ hs₀) state
    obtain rfl : s = s' := Except.ok.inj (hwrite.symm.trans hs')
    refine ⟨hserved, h.encoder, ?_, ?_, h.light, h.before, fun hinit => absurd hdone hinit, ?_⟩
    · intro s₁ hs₁
      rwa [← Option.some.inj hs₁]
    · intro state' hstate'
      cases hstate'
      exact ⟨s, rfl, hcolor⟩
    · exact fun hinit => absurd hinit (by simp [hdone])
  | setPixelFailed state hpc hs =>
    have hserved := h.served
    rw [World.taken, hpc] at hserved
    have hdone := h.running (by rw [hpc]; simp)
    refine ⟨?_, h.encoder, h.strip, ?_, ?_, h.before, fun hinit => absurd hdone hinit, ?_⟩
    · simpa [World.taken, TaskPc.busy] using hserved
    · intro state' hstate'
      cases hstate'
    · simpa [World.shownStates] using h.light
    · exact fun hinit => absurd hinit (by simp [hdone])
  | refresh w' state r sent hpc hr hs => exact inv_refresh h₁ h₂ hchip h hpc hr hs

/-! ## Runs -/

variable {tr : List (World σ τ × Label)}

theorem inv_run (h₁ : Encodes bytesEncoder idle₁ (List.flatMap c.bytes.symbols) Todo₁)
    (h₂ : Encodes copyEncoder idle₂ (fun symbol => [symbol]) Todo₂) (hchip : chip.Tells c)
    (h : Run (Step bytesEncoder copyEncoder c chip) (.boot idle₁ idle₂ light₀) tr w) : Inv idle₁ idle₂ light₀ w :=
  h.invariant (inv_boot light₀) fun _ _ _ => inv_step h₁ h₂ hchip

/-- **What the LED shows** is the last state whose refresh went through, and before any it is off or as it was at boot.
The states that it shows are some of those that were set, each at most once and in the order in which they were set. -/
theorem led_shows (h₁ : Encodes bytesEncoder idle₁ (List.flatMap c.bytes.symbols) Todo₁)
    (h₂ : Encodes copyEncoder idle₂ (fun symbol => [symbol]) Todo₂) (hchip : chip.Tells c)
    (h : Run (Step bytesEncoder copyEncoder c chip) (.boot idle₁ idle₂ light₀) tr w) :
    w.light = (w.shownStates.getLast?.map shade).getD w.before ∧ (w.before = light₀ ∨ w.before = off) ∧
      w.shownStates.Sublist w.set := by
  have hinv := inv_run h₁ h₂ hchip h
  refine ⟨hinv.light, hinv.before, ?_⟩
  have hdone : (w.done.map Prod.fst).Sublist w.set :=
    (List.sublist_append_left _ _).trans hinv.served.taken_sublist
  exact (List.filter_sublist.map Prod.fst).trans hdone

/-- **The last state that was set is the one to be seen** when the queue is empty and the task waits, unless its refresh
failed; no other state looks the same. -/
theorem led_shows_last (h₁ : Encodes bytesEncoder idle₁ (List.flatMap c.bytes.symbols) Todo₁)
    (h₂ : Encodes copyEncoder idle₂ (fun symbol => [symbol]) Todo₂) (hchip : chip.Tells c)
    (h : Run (Step bytesEncoder copyEncoder c chip) (.boot idle₁ idle₂ light₀) tr w) (hpc : w.task = .waiting)
    (hq : w.queue = some none) {state : StatusledState} (hset : w.set.getLast? = some state)
    (hsent : ∀ d ∈ w.done.getLast?, d.2 = true) :
    w.light = shade state ∧ ∀ state', w.light = shade state' → state' = state := by
  have hinv := inv_run h₁ h₂ hchip h
  have hserved := hinv.served
  rw [hq, World.taken, hpc] at hserved
  have hlast : (w.done.map Prod.fst).getLast? = some state := by
    simpa [TaskPc.busy, hset] using hserved.getLast?_eq
  have hshown : w.shownStates.getLast? = some state := by
    rcases List.eq_nil_or_concat w.done with hnil | ⟨done, d, hd⟩
    · rw [hnil] at hlast
      cases hlast
    · have hd2 : d.2 = true := hsent d (by simp [hd])
      simpa [World.shownStates, hd, hd2] using hlast
  have hlight : w.light = shade state := by
    rw [hinv.light, hshown]
    rfl
  exact ⟨hlight, fun state' h' => (shade_injective _ _ (hlight.symm.trans h')).symm⟩

end Invariant

/-! ## Two states -/

/-- The encoder of `STATUSLED_Init`. -/
def statusLedEncoder : LedEncoderConfig := ledTiming statusLedResolution.toNat 0.3 0.9 0.9 0.3 280

def statusLedChip : Chip := ⟨statusLedEncoder.bytes.bit1.duration0, 2 * statusLedEncoder.resetCode.duration0⟩

theorem statusLed_tells : statusLedChip.Tells statusLedEncoder :=
  tells_of_resolution (show rmtNewLedStripEncoder statusLedResolution .ws2812 (.ok ()) = .ok statusLedEncoder from rfl)
    (by decide)

/-- Encoders that count what they have written. -/
abbrev StatusStep : World Nat Nat → Label → World Nat Nat → Prop :=
  Step (Lib.copyEncoder (List.flatMap statusLedEncoder.bytes.symbols)) (Lib.copyEncoder fun symbol => [symbol])
    statusLedEncoder statusLedChip

theorem statusLed_room {s : Strip} (hs : OnePixel s) : 8 * s.pixelBuf.length < 25 := by
  rw [s.length_pixelBuf, s.bytesPerPixel_eq, hs.stripLen, hs.componentFmt]
  decide

/-- A state is set over another one, which the task has not got yet. -/
theorem status_run (light₀ : Color) : ∃ tr w, Run StatusStep (.boot 0 0 light₀) tr w ∧
    w.set = [.configuring, .connected] ∧ w.task = .waiting ∧ w.queue = some none ∧ w.done = [(.connected, true)] := by
  obtain ⟨d, hs⟩ : ∃ d, ledStripNewRmtDevice statusLedConfig (.ok ()) = .ok d := ⟨_, rfl⟩
  obtain ⟨s, rfl, hnew⟩ := statusLed_newDevice hs
  have hone : OnePixel s.clear := ⟨hnew.stripLen, hnew.componentFmt⟩
  obtain ⟨s', hs', hone', -⟩ := writeState_spec hone .connected
  have h₁ : StatusStep (.boot 0 0 light₀) (.newDevice (.ok ())) { World.boot 0 0 light₀ with
      init := .createQueue
      strip := (ledStripNewRmtDevice statusLedConfig (.ok ())).toOption.bind RmtDevice.strip? } := .newDevice _ _ rfl
  rw [hs] at h₁
  have h₂ := (Run.single h₁).snoc (.createQueue _ rfl)
  have h₃ := h₂.snoc (.clear _ _ (.sent [25]) true rfl ⟨by simp, statusLed_room hone⟩ rfl)
  have h₄ := h₃.snoc (.createTask _ rfl)
  have h₅ := h₄.snoc (.setState _ .configuring)
  have h₆ := h₅.snoc (.gapEvent _ .connSuccess true)
  have h₇ := h₆.snoc (.receive _ .connected rfl rfl)
  have h₈ := h₇.snoc (.setPixel _ .connected s' rfl (congrArg some hs'))
  have h₉ := h₈.snoc (.refresh _ _ .connected (.sent [7, 7, 11]) true rfl ⟨by simp, statusLed_room hone'⟩ rfl)
  exact ⟨_, _, h₉, rfl, rfl, rfl, rfl⟩

theorem led_shows_connected : ∃ tr w, Run StatusStep (.boot 0 0 off) tr w ∧
    w.light = (w.shownStates.getLast?.map shade).getD w.before ∧ w.shownStates.Sublist [.configuring, .connected] := by
  obtain ⟨tr, w, hr, hset, -⟩ := status_run off
  obtain ⟨hlight, -, hsub⟩ := led_shows (encodes_copy _) (encodes_copy _) statusLed_tells hr
  exact ⟨tr, w, hr, hlight, hset ▸ hsub⟩

theorem led_shows_last_connected : ∃ tr w, Run StatusStep (.boot 0 0 off) tr w ∧ w.light = shade .connected := by
  obtain ⟨tr, w, hr, hset, htask, hq, hdone⟩ := status_run off
  have hlast := led_shows_last (encodes_copy _) (encodes_copy _) statusLed_tells hr htask hq
    (show w.set.getLast? = some .connected by rw [hset]; rfl) (by simp [hdone])
  exact ⟨tr, w, hr, hlast.1⟩

end TrackIt.Led
