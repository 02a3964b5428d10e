import TrackIt.Lib.Run

/-!
# The order of start-up

`app_main` starts the telemetry parser, the GNSS configuration and the BLE configuration; the GNSS configuration
starts the UART task and waits for it, the BLE configuration waits until the GNSS is configured, and `app_main` waits
for all of them before it allows light sleep. They wait on the fields of task descriptors: `Active` is set when a task
is created, and `Name` becomes `NULL` when `SCHEDULER_Remove` is called on it.

`bt_config_task` waits while `Name == NULL`, which is while the configuration is complete.

- `startup_iff`: a run keeps the order and never waits for a state that is past iff the condition is never evaluated;
- `blocked_run`: once the configuration is complete and BLE has not started, it never does, short of a restart.
-/

namespace TrackIt.Startup

open TrackIt.Lib

/-- The fields of `SCHEDULER_TaskTypeDef` that are waited on: `Active`, and whether `Name` is not `NULL`. -/
structure Task where
  active : Bool
  named : Bool

/-- A descriptor filled in, before `SCHEDULER_Create`. -/
def Task.described : Task := ⟨false, true⟩

def Task.create (t : Task) : Task := { t with active := true }

def Task.remove (t : Task) : Task := { t with named := false }

/-- The descriptors of `APP_TasksTypeDef` that are waited on. -/
structure Tasks where
  gnssUartTask : Task
  gnssConfigTask : Task
  bleTask : Task
  telemetryParserTask : Task

/-- `app_main`: before `TELPARSER_Init`, `GNSS_Init` and `BT_Init`, in its wait loop, and after it. -/
inductive AppPc
  | start
  | telparserInited
  | gnssInited
  | waiting
  | done
  deriving DecidableEq

/-- `gnss_config_task`: not created, and then what it has done last. -/
inductive CfgPc
  | absent
  | started
  | uartInited
  | uartCreated
  | uartReady
  | m10Inited
  | baudRateSet
  | removed
  deriving DecidableEq

/-- `gnss_uart_task` -/
inductive UartPc
  | absent
  | started
  | running
  deriving DecidableEq

/-- `bt_config_task`: not created, in its wait loop, and then what it has done last. -/
inductive BtPc
  | absent
  | waiting
  | left
  | configured
  | bleInited
  | removed
  deriving DecidableEq

structure World where
  tasks : Tasks
  app : AppPc
  cfg : CfgPc
  uart : UartPc
  bt : BtPc
  /-- `gUartTaskReady` has been given. -/
  uartTaskReady : Bool
  /-- `POWER_LightSleepControl(pdTRUE)` has been called. -/
  lightSleep : Bool

/-- The state descriptors are zero. -/
def World.boot : World :=
  ⟨⟨⟨false, false⟩, ⟨false, false⟩, ⟨false, false⟩, ⟨false, false⟩⟩, .start, .absent, .absent, .absent, false, false⟩

/-- The condition of the wait loop of `bt_config_task`. Its two fields are read in one step: `Active` stays set once it
is, so that reading it earlier makes no difference. -/
def World.btWaits (w : World) : Bool :=
  !w.tasks.telemetryParserTask.active || !w.tasks.gnssConfigTask.named

/-- The condition of the wait loop of `app_main`. -/
def World.appWaits (w : World) : Bool :=
  !w.tasks.gnssUartTask.active || !w.tasks.telemetryParserTask.active || !w.tasks.bleTask.active

inductive Label
  | telparserInit
  | gnssInit
  | btInit
  | appPoll
  | initUart
  | createUart
  | takeUartReady
  | m10Init
  | setBaudRate
  | removeConfig
  | uartStart
  | uartRun
  | telRun
  | btPoll
  | btConfigure
  | bleInit
  | removeBt
  | restart
  deriving DecidableEq

inductive Step : World → Label → World → Prop
  -- `app_main`
  | telparserInit (w : World) (h : w.app = .start) :
      Step w .telparserInit
        { w with app := .telparserInited,
                 tasks := { w.tasks with telemetryParserTask := Task.described.create } }
  | gnssInit (w : World) (h : w.app = .telparserInited) :
      Step w .gnssInit
        { w with app := .gnssInited, cfg := .started, uartTaskReady := false,
                 tasks := { w.tasks with gnssConfigTask := Task.described.create } }
  | btInit (w : World) (h : w.app = .gnssInited) : Step w .btInit { w with app := .waiting, bt := .waiting }
  | appPoll (w : World) (h : w.app = .waiting) :
      Step w .appPoll (if w.appWaits then w else { w with app := .done, lightSleep := true })
  -- `gnss_config_task`
  | initUart (w : World) (h : w.cfg = .started) :
      Step w .initUart
        { w with cfg := .uartInited, tasks := { w.tasks with gnssUartTask := .described } }
  | createUart (w : World) (h : w.cfg = .uartInited) :
      Step w .createUart
        { w with cfg := .uartCreated, uart := .started,
                 tasks := { w.tasks with gnssUartTask := w.tasks.gnssUartTask.create } }
  | takeUartReady (w : World) (h : w.cfg = .uartCreated) (hready : w.uartTaskReady = true) :
      Step w .takeUartReady { w with cfg := .uartReady, uartTaskReady := false }
  | m10Init (w : World) (h : w.cfg = .uartReady) : Step w .m10Init { w with cfg := .m10Inited }
  | setBaudRate (w : World) (h : w.cfg = .m10Inited) : Step w .setBaudRate { w with cfg := .baudRateSet }
  | removeConfig (w : World) (h : w.cfg = .baudRateSet) :
      Step w .removeConfig
        { w with cfg := .removed, tasks := { w.tasks with gnssConfigTask := w.tasks.gnssConfigTask.remove } }
  -- `gnss_uart_task` and `tel_parser_task`
  | uartStart (w : World) (h : w.uart = .started) : Step w .uartStart { w with uart := .running, uartTaskReady := true }
  | uartRun (w : World) (h : w.uart = .running) : Step w .uartRun w
  | telRun (w : World) (h : w.tasks.telemetryParserTask.active = true) : Step w .telRun w
  -- `bt_config_task`
  | btPoll (w : World) (h : w.bt = .waiting) : Step w .btPoll (if w.btWaits then w else { w with bt := .left })
  | btConfigure (w : World) (h : w.bt = .left) :
      Step w .btConfigure { w with bt := .configured, tasks := { w.tasks with bleTask := .described } }
  | bleInit (w : World) (h : w.bt = .configured) :
      Step w .bleInit
        { w with bt := .bleInited, tasks := { w.tasks with bleTask := w.tasks.bleTask.create } }
  | removeBt (w : World) (h : w.bt = .bleInited) : Step w .removeBt { w with bt := .removed }
  /-- A failure of any task is logged as fatal, which restarts the chip. -/
  | restart (w : World) : Step w .restart World.boot

/-! ## The order -/

/-- `bt_config_task` has left its wait loop. -/
def World.BtLeft (w : World) : Prop := w.bt ≠ .absent ∧ w.bt ≠ .waiting

/-- BLE and light sleep come after the GNSS configuration. -/
def World.Ordered (w : World) : Prop := w.BtLeft ∨ w.lightSleep = true → w.cfg = .removed

/-- An evaluation of the wait condition with the GNSS configured and the telemetry parser active lets the task go on. -/
def Proceeds (w : World) (l : Label) : Prop :=
  l = .btPoll → w.cfg = .removed → w.tasks.telemetryParserTask.active = true → w.btWaits = false

/-- Before the first evaluation of the wait condition. -/
structure Unpolled (w : World) : Prop where
  bt : w.bt = .absent ∨ w.bt = .waiting
  lightSleep : w.lightSleep = false
  ble : w.tasks.bleTask.active = false
  telemetry : w.app ≠ .start → w.tasks.telemetryParserTask.active = true
  config : w.app ≠ .start → w.app ≠ .telparserInited → w.cfg ≠ .absent
  named : w.cfg ≠ .absent → (w.tasks.gnssConfigTask.named = true ↔ w.cfg ≠ .removed)
  waiting : w.bt = .waiting → w.app = .waiting

theorem unpolled_boot : Unpolled World.boot := by
  constructor <;> simp [World.boot]

theorem Unpolled.bt_ne_waiting {w : World} (h : Unpolled w) (ha : w.app ≠ .waiting) : w.bt ≠ .waiting :=
  fun hb => ha (h.waiting hb)

/-- `app_main` waits for BLE. -/
theorem Unpolled.appWaits {w : World} (h : Unpolled w) : w.appWaits = true := by
  simp [World.appWaits, h.ble]

/-- The configuration, once started and up to its last step, changes nothing that is waited on but the UART task. -/
theorem Unpolled.configure {w : World} (h : Unpolled w) {cfg : CfgPc} (hold : w.cfg ≠ .absent ∧ w.cfg ≠ .removed)
    (hnew : cfg ≠ .absent ∧ cfg ≠ .removed) (uartTask : Task) (uart : UartPc) (ready : Bool) :
    Unpolled { w with cfg := cfg, tasks := { w.tasks with gnssUartTask := uartTask }, uart := uart,
                      uartTaskReady := ready } := by
  have hnamed := (h.named hold.1).2 hold.2
  exact ⟨h.bt, h.lightSleep, h.ble, h.telemetry, fun _ _ => hnew.1, fun _ => iff_of_true hnamed hnew.2, h.waiting⟩

theorem unpolled_step {w w' : World} {l : Label} (h : Unpolled w) (hl : l ≠ .btPoll) (hs : Step w l w') :
    Unpolled w' := by
  cases hs with
  | telparserInit ha =>
    have hbt := h.bt_ne_waiting (by simp [ha])
    exact ⟨h.bt, h.lightSleep, h.ble, fun _ => rfl, by simp, h.named, fun hb => absurd hb hbt⟩
  | gnssInit ha =>
    have hbt := h.bt_ne_waiting (by simp [ha])
    have htel := h.telemetry (by simp [ha])
    exact ⟨h.bt, h.lightSleep, h.ble, fun _ => htel, by simp, by simp [Task.described, Task.create],
      fun hb => absurd hb hbt⟩
  | btInit ha =>
    have htel := h.telemetry (by simp [ha])
    have hcfg := h.config (by simp [ha]) (by simp [ha])
    exact ⟨.inr rfl, h.lightSleep, h.ble, fun _ => htel, fun _ _ => hcfg, h.named, fun _ => rfl⟩
  | appPoll ha =>
    rw [if_pos h.appWaits]
    exact h
  | initUart hc | createUart hc | takeUartReady hc hready | m10Init hc | setBaudRate hc =>
    exact h.configure (by simp [hc]) (by simp) _ _ _
  | removeConfig hc =>
    exact ⟨h.bt, h.lightSleep, h.ble, h.telemetry, by simp, by simp [Task.remove], h.waiting⟩
  | uartStart hu => exact ⟨h.bt, h.lightSleep, h.ble, h.telemetry, h.config, h.named, h.waiting⟩
  | uartRun hu => exact h
  | telRun ht => exact h
  | btPoll hb => exact absurd rfl hl
  | btConfigure hb | bleInit hb | removeBt hb => rcases h.bt with hb' | hb' <;> rw [hb] at hb' <;> cases hb'
  | restart => exact unpolled_boot

/-- Nothing has gone wrong before the first evaluation. -/
theorem Unpolled.ordered {w : World} (h : Unpolled w) : w.Ordered := by
  rintro (⟨hb, hb'⟩ | hl)
  · rcases h.bt with hbt | hbt
    · exact absurd hbt hb
    · exact absurd hbt hb'
  · rw [h.lightSleep] at hl
    cases hl

/-- The first evaluation goes wrong: with the configuration complete it does not let the task go on, and otherwise it
does. -/
theorem btPoll_wrong {w w' : World} (h : Unpolled w) (hs : Step w .btPoll w') :
    ¬ (w'.Ordered ∧ Proceeds w .btPoll) := by
  rintro ⟨hordered, hproceeds⟩
  cases hs with
  | btPoll hb =>
    have happ := h.waiting hb
    have htel := h.telemetry (by simp [happ])
    have hnamed := h.named (h.config (by simp [happ]) (by simp [happ]))
    by_cases hcfg : w.cfg = .removed
    · have hname : w.tasks.gnssConfigTask.named = false := by
        by_contra hne
        exact hnamed.1 (by simpa using hne) hcfg
      have hwaits := hproceeds rfl hcfg htel
      simp [World.btWaits, htel, hname] at hwaits
    · have hwaits : w.btWaits = false := by simp [World.btWaits, htel, hnamed.2 hcfg]
      rw [hwaits] at hordered
      exact hcfg (hordered (.inl ⟨by simp, by simp⟩))

/-- **The order of start-up** is kept, and no evaluation waits for a state that is past, in exactly the runs in which
`bt_config_task` never evaluates its wait condition. -/
theorem startup_iff {tr : List (World × Label)} {w : World} (h : Run Step World.boot tr w) :
    Run.Throughout World.Ordered Proceeds tr w ↔ ∀ p ∈ tr, p.2 ≠ .btPoll := by
  refine Run.exact (J := Unpolled) (C := fun _ l => l ≠ .btPoll) unpolled_boot ?_ (fun _ hu => hu.ordered) ?_ h
  · intro w l w' hu hl hs
    exact ⟨unpolled_step hu hl hs, fun he => absurd he hl⟩
  · intro w l w' hu hl hs
    obtain rfl : l = .btPoll := Classical.byContradiction hl
    exact btPoll_wrong hu hs

/-- Up to the creation of `bt_config_task`. -/
theorem created_run : ∃ tr w, Run Step World.boot tr w ∧ w.bt = .waiting ∧ w.cfg = .started ∧ w.btWaits = false := by
  have h₁ := Run.single (Step.telparserInit World.boot rfl)
  have h₂ := h₁.snoc (Step.gnssInit _ rfl)
  have h₃ := h₂.snoc (Step.btInit _ rfl)
  exact ⟨_, _, h₃, rfl, rfl, rfl⟩

/-- The first evaluation, with the configuration just started. -/
theorem ble_before_config : ∃ tr w, Run Step World.boot tr w ∧ w.BtLeft ∧ w.cfg = .started := by
  obtain ⟨tr, w, hr, hbt, hcfg, hwaits⟩ := created_run
  have hs := Step.btPoll w hbt
  rw [hwaits] at hs
  exact ⟨_, _, hr.snoc hs, ⟨by simp, by simp⟩, hcfg⟩

/-- A run that creates all tasks. -/
theorem startup_iff_created : ∃ tr w, Run Step World.boot tr w ∧ w.bt = .waiting ∧
    (Run.Throughout World.Ordered Proceeds tr w ↔ ∀ p ∈ tr, p.2 ≠ .btPoll) := by
  obtain ⟨tr, w, hr, hbt, -⟩ := created_run
  exact ⟨tr, w, hr, hbt, startup_iff hr⟩

/-! ## BLE blocked -/

/-- The configuration is complete, and `bt_config_task` has not left its loop. -/
structure Blocked (w : World) : Prop where
  bt : w.bt = .waiting
  cfg : w.cfg = .removed
  named : w.tasks.gnssConfigTask.named = false
  app : w.app = .waiting ∨ w.app = .done

theorem Blocked.btWaits {w : World} (h : Blocked w) : w.btWaits = true := by
  simp [World.btWaits, h.named]

theorem blocked_step {w w' : World} {l : Label} (h : Blocked w) (hl : l ≠ .restart) (hs : Step w l w') :
    Blocked w' := by
  have hbt := h.bt
  have hcfg := h.cfg
  cases hs with
  | telparserInit ha | gnssInit ha | btInit ha => rcases h.app with ha' | ha' <;> rw [ha] at ha' <;> cases ha'
  | appPoll ha =>
    split
    · exact h
    · exact ⟨hbt, hcfg, h.named, .inr rfl⟩
  | initUart hc | createUart hc | takeUartReady hc hready | m10Init hc | setBaudRate hc | removeConfig hc =>
    rw [hc] at hcfg
    cases hcfg
  | uartStart hu => exact ⟨hbt, hcfg, h.named, h.app⟩
  | uartRun hu => exact h
  | telRun ht => exact h
  | btPoll hb =>
    rw [if_pos h.btWaits]
    exact h
  | btConfigure hb | bleInit hb | removeBt hb =>
    rw [hb] at hbt
    cases hbt
  | restart => exact absurd rfl hl

/-- **When the configuration is complete before the first evaluation, BLE never starts**, short of a restart. -/
theorem blocked_run {w w' : World} {tr : List (World × Label)} (h : Run Step w tr w') (hb : Blocked w)
    (hr : ∀ p ∈ tr, p.2 ≠ .restart) : Blocked w' :=
  h.guarded (C := fun _ l => l ≠ .restart) hb (fun _ _ _ hb hl hs => blocked_step hb hl hs) hr

end TrackIt.Startup
