import Ether2Ser.System.EventLoop.Transmit
import Ether2Ser.System.Firmware.Commands

open ether2ser.cli_commands ether2ser.cli_usb_cdc ether2ser.event_loop ether2ser.event_queue ether2ser.gpio_driver
open ether2ser.persistent_config ether2ser.pio_tx_rx_driver ether2ser.v24_config

namespace ether2ser.control_plane

variable {σ : Type} {hw : TxHardware σ}

/-- The pins that the state machines and the Ethernet chip work on. -/
def claimedPins : List Nat := [V24_TXC_DCE, V24_RXC, V24_TXC_DTE, V24_CTS, V24_RXD, V24_TXD, V24_STATUS_LED]

/-- The outputs of the bridge that the processor drives. -/
def drivenPins : List Nat := [V24_RTS, V24_DTR]

def bridgePins : List Nat := claimedPins ++ drivenPins

/-- The action drives a pin of the bridge, or takes one over to sample it. -/
def disturbsPins : CliAction → Bool
  | .gpio_put gpio_num _ => gpio_num ∈ bridgePins
  | .gpio_get gpio_num => gpio_num ∈ claimedPins
  | .push _ | .set_loglevel _ => false

/-- A line with a command that disturbs a pin of the bridge. -/
def DisturbsPins (line : List Char) : Prop := ∃ action ∈ handle_cli_line line, disturbsPins action = true

instance (line : List Char) : Decidable (DisturbsPins line) := inferInstanceAs (Decidable (∃ _ ∈ _, _))

/-- Two settings of the pins agree on the bridge. -/
def SameOnBridge (pins others : Pins) : Prop := ∀ gpio ∈ bridgePins, pins gpio = others gpio

theorem SameOnBridge.trans {first second third : Pins} (h : SameOnBridge first second)
    (h' : SameOnBridge second third) : SameOnBridge first third :=
  fun gpio hmem => (h gpio hmem).trans (h' gpio hmem)

/-- The processor has the outputs that it drives. -/
def ProcessorDrives (pins : Pins) : Prop := ∀ gpio ∈ drivenPins, (pins gpio).function = .gpio_func_sio

theorem ProcessorDrives.congr {pins others : Pins} (h : ProcessorDrives pins) (hsame : SameOnBridge others pins) :
    ProcessorDrives others := by
  intro gpio hmem
  rw [hsame gpio (List.mem_append_right _ hmem)]
  exact h gpio hmem

theorem ProcessorDrives.driveEvents {pins : Pins} (h : ProcessorDrives pins) (events : List TxEvent) :
    ProcessorDrives (driveEvents events pins) := by
  intro gpio hmem
  exact (congrArg Prod.fst (routing_driveEvents events pins gpio)).trans (h gpio hmem)

/-- What an action does to the pins. -/
def performPins (pins : Pins) : CliAction → Pins
  | .gpio_put gpio_num value => drivePin gpio_num value pins
  | .gpio_get gpio_num => samplePin gpio_num pins
  | .push _ | .set_loglevel _ => pins

theorem pins_foldl_perform (actions : List CliAction) (ctx : ControlCtx σ) :
    (actions.foldl perform ctx).pins = actions.foldl performPins ctx.pins := by
  induction actions generalizing ctx with
  | nil => rfl
  | cons action actions ih =>
    rw [List.foldl_cons, List.foldl_cons, ih]
    cases action with
    | push event | set_loglevel level | gpio_put gpio_num value | gpio_get gpio_num => rfl

theorem performPins_same {pins : Pins} (hdrives : ProcessorDrives pins) {action : CliAction}
    (hquiet : disturbsPins action = false) : SameOnBridge (performPins pins action) pins := by
  intro gpio hmem
  cases action with
  | push event | set_loglevel level => rfl
  | gpio_put gpio_num value =>
    have houtside : gpio_num ∉ bridgePins := of_decide_eq_false hquiet
    exact drivePin_of_ne pins value fun heq => houtside (heq ▸ hmem)
  | gpio_get gpio_num =>
    have houtside : gpio_num ∉ claimedPins := of_decide_eq_false hquiet
    by_cases hdriven : gpio_num ∈ drivenPins
    · rw [performPins, samplePin_of_sio (hdrives gpio_num hdriven)]
    · refine samplePin_of_ne pins fun heq => ?_
      rcases List.mem_append.mp hmem with hclaimed | hdrives
      · exact houtside (heq ▸ hclaimed)
      · exact hdriven (heq ▸ hdrives)

theorem foldl_performPins_same {actions : List CliAction} (hquiet : ∀ action ∈ actions, disturbsPins action = false)
    {pins : Pins} (hdrives : ProcessorDrives pins) : SameOnBridge (actions.foldl performPins pins) pins := by
  induction actions generalizing pins with
  | nil => exact fun _ _ => rfl
  | cons action actions ih =>
    obtain ⟨hfirst, hrest⟩ := List.forall_mem_cons.mp hquiet
    have hstep := performPins_same hdrives hfirst
    exact (ih hrest (hdrives.congr hstep)).trans hstep

/-- No line of the dispatch disturbs a pin of the bridge. -/
def QuietDispatch (dispatched : Dispatched σ) : Prop :=
  ∀ line ∈ dispatchedLine dispatched.before.console.cli dispatched.event, ¬ DisturbsPins line

theorem pins_dispatch_line {line_slot data_len : Nat} {ctx : ControlCtx σ}
    (hquiet : ∀ line ∈ dispatchedLine ctx.console.cli (.EV_CLI_LINE line_slot data_len), ¬ DisturbsPins line)
    (hdrives : ProcessorDrives ctx.pins) :
    SameOnBridge ((lineActions ctx.console.cli line_slot data_len).foldl perform ctx).pins ctx.pins := by
  rw [pins_foldl_perform]
  apply foldl_performPins_same _ hdrives
  intro action hmem
  unfold lineActions at hmem
  split at hmem
  · cases hmem
  · rename_i hsome
    have hline : dispatchedLine ctx.console.cli (.EV_CLI_LINE line_slot data_len) =
        some (ctx.console.cli.line line_slot) := if_neg hsome
    by_contra hdisturbs
    exact hquiet _ hline ⟨action, hmem, by simpa using hdisturbs⟩

/-- A property of the firmware that the console, the data path and quiet dispatches
keep. -/
structure FirmwareInvariant (hw : TxHardware σ) (quiet : Dispatched σ → Prop) (invariant : ControlCtx σ → Prop) :
    Prop where
  console : ∀ {ctx} console, invariant ctx → invariant { ctx with console }
  serve : ∀ {ctx input}, KeepsSettings input.events → invariant ctx →
    invariant (ctx.setLoop (event_loop_iteration hw ctx.loop input))
  dispatch : ∀ {event ctx after socket_opens}, event_dispatch hw event ctx socket_opens = some after →
    quiet { event, before := ctx, after } → invariant ctx → invariant after

section

variable {quiet : Dispatched σ → Prop} {invariant : ControlCtx σ → Prop}

theorem FirmwareInvariant.dispatches (h : FirmwareInvariant hw quiet invariant) {indices : List Nat}
    {sockets : Nat → Bool} {run next : ControlRun σ}
    (hsteps : run.steps hw (indices.map fun i => .dispatch (sockets i)) = some next)
    (hquiet : ∀ dispatched ∈ next.history, quiet dispatched) (hrun : invariant run.ctx) : invariant next.ctx := by
  induction indices generalizing run with
  | nil =>
    cases hsteps
    exact hrun
  | cons i indices ih =>
    rw [ControlRun.steps, List.map_cons, List.foldlM_cons] at hsteps
    obtain ⟨served, hserved, hrest⟩ := Option.bind_eq_some_iff.mp hsteps
    refine ih hrest ?_
    unfold ControlRun.step at hserved
    simp only at hserved
    split at hserved
    · cases hserved
      exact hrun
    · obtain ⟨after, hafter, rfl⟩ := Option.map_eq_some_iff.mp hserved
      have hlast := hquiet _ ((history_steps hrest).subset List.mem_cons_self)
      exact h.dispatch hafter hlast (h.console _ hrun)

/-- It holds behind a run of the firmware whose dispatches are all quiet. -/
theorem FirmwareInvariant.run (h : FirmwareInvariant hw quiet invariant) {run last : ControlRun σ}
    {inputs : List FirmwareInput} (hrun : firmware_run hw run inputs = some last)
    (hquiet : ∀ dispatched ∈ last.history, quiet dispatched) (hinit : invariant run.ctx) : invariant last.ctx := by
  refine @Loop.foldlM_induction _ _ _
    (fun next => (∀ dispatched ∈ next.history, quiet dispatched) → invariant next.ctx) _ _ _ hrun (fun _ => hinit) ?_
    hquiet
  intro before input next hbefore hstep hnext
  obtain ⟨served, hserved, hrest⟩ := Option.bind_eq_some_iff.mp hstep
  have hkept := hbefore fun dispatched hmem =>
    hnext dispatched (((history_steps hserved).trans (history_steps hrest)).subset hmem)
  refine h.dispatches hrest hnext ?_
  cases hserved
  exact h.serve (fun _ hmem => absurd hmem List.not_mem_nil) (h.console _ (h.console _ hkept))

end

/-- Every dispatch of a run is quiet, if no line that has been typed disturbs a pin
of the bridge. -/
theorem quietDispatch_of_typed {flash : Flash} {pio : σ} {inputs : List FirmwareInput} {last : ControlRun σ}
    (h : firmware_run hw (.boot flash pio) inputs = some last)
    (hpins : ∀ line ∈ (editKeys (inputs.flatMap (·.keys))).lines, ¬ DisturbsPins line) :
    ∀ dispatched ∈ last.history, QuietDispatch dispatched := by
  intro dispatched hmem line hline
  apply hpins line
  apply typed_of_dispatchedLines h
  exact List.mem_filterMap.mpr ⟨dispatched, List.mem_reverse.mpr hmem, hline⟩

/-- The calls of an iteration are recorded behind those before it. -/
theorem pins_setLoop (ctx : ControlCtx σ) {input : LoopInput} (hkeeps : KeepsSettings input.events) :
    ∃ events, (event_loop_iteration hw ctx.loop input).app.driver.trace = ctx.app.driver.trace ++ events ∧
      (ctx.setLoop (event_loop_iteration hw ctx.loop input)).pins = driveEvents events ctx.pins := by
  obtain ⟨events, htrace⟩ := @trace_event_loop_iteration σ hw ctx.loop input hkeeps
  refine ⟨events, htrace.symm, ?_⟩
  rw [ControlCtx.setLoop, ← htrace, ControlCtx.app, List.drop_left]

/-- The pins of the bridge as the calls of the driver alone leave them from some
setting on. -/
def PinsDriven (boot : Pins) (ctx : ControlCtx σ) : Prop :=
  SameOnBridge ctx.pins (driveEvents ctx.app.driver.trace boot)

theorem pinsDriven_invariant {boot : Pins} (hdrives : ProcessorDrives boot) :
    FirmwareInvariant hw (fun dispatched => QuietDispatch dispatched ∧ setsV24 dispatched.event = false)
      (PinsDriven boot) where
  console := fun _ h => h
  serve := by
    intro ctx input hkeeps h gpio hmem
    obtain ⟨events, htrace, hpins⟩ := @pins_setLoop σ hw ctx input hkeeps
    rw [hpins, ControlCtx.app, ControlCtx.setLoop, htrace, driveEvents_append]
    exact driveEvents_congr (h gpio hmem)
  dispatch := by
    rintro event ctx after socket_opens hdispatch ⟨hquiet, hkeeps⟩ h
    have hloop := loop_event_dispatch hdispatch hkeeps
    have hsame : SameOnBridge after.pins ctx.pins := by
      cases event_dispatch_cases hdispatch with
      | line line_slot data_len => exact pins_dispatch_line hquiet ((hdrives.driveEvents _).congr h)
      | net payload changed set hset =>
        obtain ⟨-, -, -, -, -, hpins, -⟩ := ev_set_net_settings_frame hset
        split <;> exact fun gpio _ => congrFun hpins gpio
      | v24 payload set_result set saved hset hsaved => cases hkeeps
      | save | wipe | query => exact fun _ _ => rfl
    rw [PinsDriven, ControlCtx.app, hloop]
    exact hsame.trans h

/-- A pin that a state machine works on. -/
def routedPin (out in_inverted out_inverted : Bool) : Pin where
  function := .gpio_func_pio0
  dir_out := out
  level := false
  pio_dir_out := out
  in_inverted := in_inverted
  out_inverted := out_inverted

/-- An output that the processor drives. -/
def drivenPin (level out_inverted : Bool) : Pin where
  function := .gpio_func_sio
  dir_out := true
  level := level
  pio_dir_out := false
  in_inverted := false
  out_inverted := out_inverted

/-- The lines of the bridge for its polarities and a level of RTS. -/
def linePins (polarities : V24Polarities) (rts : Bool) : List (Nat × Pin) :=
  [(V24_TXD, routedPin true false polarities.tx_polarities.txd_inverted),
    (V24_CTS, routedPin false polarities.tx_polarities.cts_inverted false),
    (V24_RXD, routedPin false polarities.rx_polarities.rxd_inverted false),
    (V24_RXC, routedPin false polarities.rx_polarities.rxc_inverted false),
    (V24_RTS, drivenPin rts polarities.tx_polarities.rts_inverted),
    (V24_DTR, drivenPin true polarities.tx_polarities.dtr_inverted)]

/-- The clock of a transmit program, and whether the program drives it. -/
def clockPin : TxProgram → Nat × Bool
  | .tck_txd => (V24_TXC_DTE, true)
  | .xck_txd => (V24_TXC_DCE, false)

def LinesFollow (pins : Pins) (polarities : V24Polarities) (rts : Bool) : Prop :=
  ∀ line ∈ linePins polarities rts, pins line.1 = line.2

/-- The pins of the bridge follow its state: the state machines have their lines and
the clock of the loaded program, every line has its polarity, and RTS has the level
that the driver has given it last. -/
structure PinsFollow (ctx : ControlCtx σ) : Prop where
  lines : LinesFollow ctx.pins ctx.polarities (rtsLevel ctx.app.driver.trace)
  clock : (ctx.pins (clockPin ctx.tx_program).1).routing = (.gpio_func_pio0, (clockPin ctx.tx_program).2)

theorem linesFollow_iff {pins : Pins} {polarities : V24Polarities} {rts : Bool} :
    LinesFollow pins polarities rts ↔
      pins V24_TXD = routedPin true false polarities.tx_polarities.txd_inverted ∧
      pins V24_CTS = routedPin false polarities.tx_polarities.cts_inverted false ∧
      pins V24_RXD = routedPin false polarities.rx_polarities.rxd_inverted false ∧
      pins V24_RXC = routedPin false polarities.rx_polarities.rxc_inverted false ∧
      pins V24_RTS = drivenPin rts polarities.tx_polarities.rts_inverted ∧
      pins V24_DTR = drivenPin true polarities.tx_polarities.dtr_inverted := by
  simp [LinesFollow, linePins]

theorem LinesFollow.processorDrives {pins : Pins} {polarities : V24Polarities} {rts : Bool}
    (h : LinesFollow pins polarities rts) : ProcessorDrives pins := by
  obtain ⟨-, -, -, -, hrts, hdtr⟩ := linesFollow_iff.mp h
  intro gpio hmem
  rcases List.mem_pair.mp hmem with rfl | rfl
  · rw [hrts]
    rfl
  · rw [hdtr]
    rfl

/-- The start of the clocks routes the lines, with RTS low. -/
theorem linesFollow_clockPins (v24_config : V24Config) (polarities : V24Polarities) :
    LinesFollow (clockPins v24_config polarities (init_pins pinsAtReset)) polarities false := by
  rw [linesFollow_iff]
  obtain ⟨baudrate, external_clock⟩ := v24_config
  cases external_clock <;> exact ⟨rfl, rfl, rfl, rfl, rfl, rfl⟩

theorem routing_clockPins (v24_config : V24Config) (polarities : V24Polarities) :
    (clockPins v24_config polarities (init_pins pinsAtReset) (clockPin (tx_clock_init v24_config)).1).routing =
      (.gpio_func_pio0, (clockPin (tx_clock_init v24_config)).2) := by
  obtain ⟨baudrate, external_clock⟩ := v24_config
  cases external_clock <;> rfl

theorem pinsFollow_boot (flash : Flash) (pio : σ) : PinsFollow (boot flash pio) := by
  unfold boot init_app
  simp only
  split
  · exact ⟨linesFollow_clockPins _ _, routing_clockPins _ _⟩
  · exact ⟨linesFollow_clockPins _ _, routing_clockPins _ _⟩

theorem LinesFollow.update_tx {pins : Pins} {polarities : V24Polarities} {rts : Bool}
    (h : LinesFollow pins polarities rts) (v24_config : V24Config) (tx_polarities : V24TxPolarities) :
    LinesFollow (tx_clock_update_overrides v24_config tx_polarities pins) { polarities with tx_polarities } rts := by
  rw [linesFollow_iff] at h ⊢
  obtain ⟨htxd, hcts, hrxd, hrxc, hrts, hdtr⟩ := h
  obtain ⟨baudrate, external_clock⟩ := v24_config
  cases external_clock
  all_goals
    refine ⟨?_, ?_, hrxd, hrxc, ?_, ?_⟩
    · exact congrArg (fun pin : Pin => { pin with out_inverted := tx_polarities.txd_inverted }) htxd
    · exact congrArg (fun pin : Pin => { pin with in_inverted := tx_polarities.cts_inverted }) hcts
    · exact congrArg (fun pin : Pin => { pin with out_inverted := tx_polarities.rts_inverted }) hrts
    · exact congrArg (fun pin : Pin => { pin with out_inverted := tx_polarities.dtr_inverted }) hdtr

theorem LinesFollow.update_rx {pins : Pins} {polarities : V24Polarities} {rts : Bool}
    (h : LinesFollow pins polarities rts) (rx_polarities : V24RxPolarities) :
    LinesFollow (rx_clock_update_overrides rx_polarities pins) { polarities with rx_polarities } rts := by
  rw [linesFollow_iff] at h ⊢
  obtain ⟨htxd, hcts, hrxd, hrxc, hrts, hdtr⟩ := h
  refine ⟨htxd, hcts, ?_, ?_, hrts, hdtr⟩
  · exact congrArg (fun pin : Pin => { pin with in_inverted := rx_polarities.rxd_inverted }) hrxd
  · exact congrArg (fun pin : Pin => { pin with in_inverted := rx_polarities.rxc_inverted }) hrxc

/-- The calls of the driver set RTS to the level that they give it last. -/
theorem driveEvents_rts {events : List TxEvent} {pins : Pins} {level out_inverted : Bool}
    (h : pins V24_RTS = drivenPin level out_inverted) :
    driveEvents events pins V24_RTS = drivenPin (events.foldl rtsAfter level) out_inverted := by
  unfold driveEvents
  induction events generalizing pins level with
  | nil => exact h
  | cons event events ih =>
    apply ih
    cases event with
    | rts driven at_us =>
      cases driven <;> simp only [driveRts, gpio_put, gpio_set_dir, Pins.modify_self, h] <;> rfl
    | cts | put byte at_us | reset | holdoff at_us => exact h

theorem LinesFollow.drive {pins : Pins} {polarities : V24Polarities} {rts : Bool} (h : LinesFollow pins polarities rts)
    (events : List TxEvent) : LinesFollow (driveEvents events pins) polarities (events.foldl rtsAfter rts) := by
  rw [linesFollow_iff] at h ⊢
  obtain ⟨htxd, hcts, hrxd, hrxc, hrts, hdtr⟩ := h
  refine ⟨?_, ?_, ?_, ?_, driveEvents_rts hrts, ?_⟩
  all_goals
    rw [driveEvents_of_ne events pins (by decide)]
    assumption

theorem LinesFollow.congr {pins others : Pins} {polarities : V24Polarities} {rts : Bool}
    (h : LinesFollow pins polarities rts) (hsame : SameOnBridge others pins) : LinesFollow others polarities rts := by
  rw [linesFollow_iff] at h ⊢
  obtain ⟨htxd, hcts, hrxd, hrxc, hrts, hdtr⟩ := h
  refine ⟨?_, ?_, ?_, ?_, ?_, ?_⟩
  all_goals
    rw [hsame _ (by decide)]
    assumption

theorem clockPin_mem_bridgePins (tx_program : TxProgram) : (clockPin tx_program).1 ∈ bridgePins := by
  cases tx_program <;> decide

/-- What agrees with the context on the bridge follows it too. -/
theorem PinsFollow.congr {ctx after : ControlCtx σ} (h : PinsFollow ctx) (hloop : after.loop = ctx.loop)
    (hpolarities : after.polarities = ctx.polarities) (hprogram : after.tx_program = ctx.tx_program)
    (hsame : SameOnBridge after.pins ctx.pins) : PinsFollow after where
  lines := by
    rw [hpolarities, ControlCtx.app, hloop]
    exact h.lines.congr hsame
  clock := by
    rw [hprogram, hsame _ (clockPin_mem_bridgePins _)]
    exact h.clock

theorem PinsFollow.set_v24 {ctx set : ControlCtx σ} (h : PinsFollow ctx) {payload : EventQueueData}
    {set_result : ApplyResult} (hset : ev_set_v24_settings hw payload ctx = (set_result, set)) : PinsFollow set := by
  unfold ev_set_v24_settings at hset
  cases payload with
  | V24_BAUDRATE baudrate =>
    simp only at hset
    split at hset
    · cases hset
      refine ⟨h.lines.update_tx _ ctx.polarities.tx_polarities, ?_⟩
      exact (routing_tx_clock_update_overrides _ _ _ _).trans h.clock
    · cases hset
      exact h
  | V24_POLARITIES polarities =>
    simp only at hset
    split at hset
    · cases hset
      refine ⟨(h.lines.update_tx _ polarities.tx_polarities).update_rx polarities.rx_polarities, ?_⟩
      exact (routing_rx_clock_update_overrides _ _ _).trans
        ((routing_tx_clock_update_overrides _ _ _ _).trans h.clock)
    · cases hset
      exact h
  | V24_CLOCK_MODE external_clock =>
    simp only at hset
    split at hset
    · split at hset
      · cases hset
        exact h
      · cases hset
        exact ⟨h.lines, h.clock⟩
    · cases hset
      exact h
  | NET_IP_REMOTE ip | NET_IP_LOCAL ip | NET_IP_MASK ip | NET_IP_GATEWAY ip | NET_PORT_LOCAL port
    | NET_PORT_REMOTE port | SYS_REBOOT =>
    cases hset
    exact h

theorem PinsFollow.serve {ctx : ControlCtx σ} (h : PinsFollow ctx) {input : LoopInput}
    (hkeeps : KeepsSettings input.events) :
    PinsFollow (ctx.setLoop (event_loop_iteration hw ctx.loop input)) := by
  obtain ⟨events, htrace, hpins⟩ := @pins_setLoop σ hw ctx input hkeeps
  constructor
  · have hlevel : rtsLevel (ctx.app.driver.trace ++ events) = events.foldl rtsAfter (rtsLevel ctx.app.driver.trace) :=
      List.foldl_append
    rw [hpins]
    change LinesFollow _ ctx.polarities (rtsLevel (event_loop_iteration hw ctx.loop input).app.driver.trace)
    rw [htrace, hlevel]
    exact h.lines.drive events
  · rw [hpins]
    exact (routing_driveEvents _ _ _).trans h.clock

theorem PinsFollow.dispatch_line {line_slot data_len : Nat} {ctx : ControlCtx σ} (h : PinsFollow ctx)
    (hquiet : ∀ line ∈ dispatchedLine ctx.console.cli (.EV_CLI_LINE line_slot data_len), ¬ DisturbsPins line) :
    PinsFollow ((lineActions ctx.console.cli line_slot data_len).foldl perform ctx) := by
  have hsame := pins_dispatch_line hquiet h.lines.processorDrives
  obtain ⟨log_level, pins, queue, pushed, hctx, -⟩ :=
    perform_actions (lineActions ctx.console.cli line_slot data_len) ctx
  rw [hctx] at hsame ⊢
  exact h.congr rfl rfl rfl hsame

theorem pinsFollow_invariant : FirmwareInvariant hw QuietDispatch PinsFollow where
  console := fun _ h => ⟨h.lines, h.clock⟩
  serve := fun hkeeps h => h.serve hkeeps
  dispatch := by
    intro event ctx after socket_opens hdispatch hquiet h
    cases event_dispatch_cases hdispatch with
    | line line_slot data_len => exact h.dispatch_line hquiet
    | net payload changed set hset =>
      obtain ⟨-, -, hloop, hpolarities, hprogram, hpins, -⟩ := ev_set_net_settings_frame hset
      have hfollow := h.congr hloop hpolarities hprogram fun gpio _ => congrFun hpins gpio
      split
      · exact ⟨hfollow.lines, hfollow.clock⟩
      · exact hfollow
    | v24 payload set_result set saved hset hsaved =>
      have hfollow := h.set_v24 hset
      have hkept : PinsFollow saved := by
        rw [hsaved]
        split
        · exact ⟨hfollow.lines, hfollow.clock⟩
        · exact hfollow
      split
      · exact ⟨hkept.lines, hkept.clock⟩
      · exact hkept
    | save | wipe => exact ⟨h.lines, h.clock⟩
    | query => exact h

theorem typedAddress_quiet : ∀ line ∈ (editKeys (typedAddress.flatMap (·.keys))).lines, ¬ DisturbsPins line := by
  decide +kernel

end ether2ser.control_plane
