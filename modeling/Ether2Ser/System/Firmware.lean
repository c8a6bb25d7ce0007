import Ether2Ser.System.CliCommands.Actions
import Ether2Ser.System.CliUsbCdc.Lines
import Ether2Ser.System.ControlPlane
import Ether2Ser.System.EventLoop.Ledger
import Ether2Ser.System.EventLoop.Receive
import Ether2Ser.System.EventLoop.Rts
import Ether2Ser.System.EventLoop.Throttle

open ether2ser.cli_commands ether2ser.cli_usb_cdc ether2ser.event_loop ether2ser.event_queue
open ether2ser.persistent_config ether2ser.pio_tx_rx_driver ether2ser.tx_queue

namespace ether2ser.control_plane

variable {σ : Type} {hw : TxHardware σ}

/-- An iteration without events leaves `v24_config` alone. -/
theorem v24_config_event_loop_iteration (state : LoopState σ) (input : LoopInput) :
    (event_loop_iteration hw state { input with events := [] }).app.v24_config = state.app.v24_config := by
  have htimeout : ∀ (state : LoopState σ) (now_us : Nat),
      (poll_hdlc_idle_timeout state now_us).app.v24_config = state.app.v24_config := by
    intro state now_us
    unfold poll_hdlc_idle_timeout
    simp only
    split <;> rfl
  have hprogress : ∀ state : LoopState σ, (poll_hdlc_no_progress state).app.v24_config = state.app.v24_config := by
    intro state
    unfold poll_hdlc_no_progress
    simp only
    split_ifs <;> rfl
  have hstall : ∀ (state : LoopState σ) (rx_stall : Bool),
      (countRxStall state rx_stall).app.v24_config = state.app.v24_config := by
    intro state rx_stall
    unfold countRxStall
    split <;> rfl
  have hfinish : ∀ state : LoopState σ,
      (finishIteration hw state { input with events := [] }).app.v24_config = state.app.v24_config := by
    intro state
    have hdispatch : (finishIteration hw state { input with events := [] }).app =
        (countRxStall (update_statistics state) input.rx_stall).app := by
      simp only [finishIteration, poll_and_dispatch_events, List.take_nil, List.foldl_nil]
    rw [hdispatch, hstall]
    rfl
  calc (event_loop_iteration hw state { input with events := [] }).app.v24_config
    _ = (poll_hdlc_no_progress (drain_hdlc_frames_to_udp (beforeFrames hw state input))).app.v24_config := hfinish _
    _ = (drain_hdlc_frames_to_udp (beforeFrames hw state input)).app.v24_config := hprogress _
    _ = (beforeFrames hw state input).app.v24_config := (drain_hdlc_frames_to_udp_keeps _).1
    _ = (drain_rx_until_empty (beforeDrain hw state input) input.rx).app.v24_config := htimeout _ _
    _ = (beforeDrain hw state input).app.v24_config := (drain_rx_until_empty_eq _ _).2.1
    _ = (drain_rx_until_empty state input.rx_early).app.v24_config := (serveTransmit_keeps _ _).1
    _ = state.app.v24_config := (drain_rx_until_empty_eq _ _).2.1

/-- An iteration of the data path, up to its events. -/
def iterationWork (hw : TxHardware σ) (input : LoopInput) : DataPathWork σ where
  run := fun loop => event_loop_iteration hw loop { input with events := [] }
  keeps_v24_config := fun loop => v24_config_event_loop_iteration loop input

/-- The events that an iteration dispatches at most. -/
def maxEvents (app : AppCtx σ) : Nat :=
  if !tx_queue_is_empty app.tx_queue then EVENT_LOOP_MAX_EVENTS_WHILE_TX_ACTIVE else EVENT_LOOP_MAX_EVENTS_AT_ONCE

/-- What an iteration of the firmware meets: the keys that arrive, the input of
the data path and the outcome of `socket` at each event. -/
structure FirmwareInput where
  keys : List Char
  data : LoopInput
  sockets : Nat → Bool

/-- The body of `event_loop` as steps of the control plane. -/
def firmware_iteration (hw : TxHardware σ) (run : ControlRun σ) (input : FirmwareInput) : Option (ControlRun σ) :=
  (run.steps hw [.type input.keys, .cli_poll, .data_path (iterationWork hw input.data)]).bind fun served =>
    served.steps hw ((List.range (maxEvents served.ctx.app)).map fun i => .dispatch (input.sockets i))

/-- On the data path, a V.24 setting is an event of the data path. -/
theorem app_ev_set_v24_settings {payload : EventQueueData} {ctx set : ControlCtx σ} {set_result : ApplyResult}
    (h : ev_set_v24_settings hw payload ctx = (set_result, set)) :
    ∃ data_event, set.loop = { ctx.loop with app := event_loop.event_dispatch hw ctx.app data_event } := by
  unfold ev_set_v24_settings at h
  cases payload with
  | V24_BAUDRATE baudrate =>
    simp only at h
    split at h
    · rename_i hdiffer
      cases h
      have happ : event_loop.event_dispatch hw ctx.app (.set_v24_baudrate baudrate) = _ := if_pos hdiffer
      refine ⟨.set_v24_baudrate baudrate, ?_⟩
      rw [happ]
      rfl
    · cases h
      exact ⟨.other, rfl⟩
  | V24_POLARITIES polarities =>
    simp only at h
    split at h
    · cases h
      exact ⟨.set_v24_polarities, rfl⟩
    · cases h
      exact ⟨.other, rfl⟩
  | V24_CLOCK_MODE external_clock =>
    simp only at h
    split at h
    · rename_i hdiffer
      split at h
      · cases h
        exact ⟨.other, rfl⟩
      · rename_i hidle
        cases h
        have hempty : tx_queue_is_empty ctx.app.tx_queue := by simpa using hidle
        have happ : event_loop.event_dispatch hw ctx.app (.set_v24_clock_mode external_clock) = _ :=
          if_pos ⟨hdiffer, hempty⟩
        refine ⟨.set_v24_clock_mode external_clock, ?_⟩
        rw [happ]
        rfl
    · cases h
      exact ⟨.other, rfl⟩
  | NET_IP_REMOTE ip | NET_IP_LOCAL ip | NET_IP_MASK ip | NET_IP_GATEWAY ip | NET_PORT_LOCAL port
    | NET_PORT_REMOTE port | SYS_REBOOT =>
    cases h
    exact ⟨.other, rfl⟩

/-- On the data path, an event of the control plane is an event of the data
path. -/
theorem app_event_dispatch {event : Event} {ctx after : ControlCtx σ} {socket_opens : Bool}
    (h : event_dispatch hw event ctx socket_opens = some after) :
    ∃ data_event, after.loop = { ctx.loop with app := event_loop.event_dispatch hw ctx.app data_event } := by
  cases event_dispatch_cases h with
  | line line_slot data_len =>
    obtain ⟨log_level, pins, queue, pushed, hctx, -⟩ :=
      perform_actions (lineActions ctx.console.cli line_slot data_len) ctx
    rw [hctx]
    exact ⟨.other, rfl⟩
  | net payload changed set hset =>
    obtain ⟨-, -, hloop, -⟩ := ev_set_net_settings_frame hset
    refine ⟨.other, ?_⟩
    split <;> exact hloop
  | v24 payload set_result set saved hset hsaved =>
    obtain ⟨data_event, hloop⟩ := app_ev_set_v24_settings hset
    refine ⟨data_event, ?_⟩
    rw [hsaved]
    split <;> split <;> exact hloop
  | save | wipe | query => exact ⟨.other, rfl⟩

/-- A dispatch step is one event of the data path. -/
theorem loop_step_dispatch {run next : ControlRun σ} {socket_opens : Bool}
    (h : run.step hw (.dispatch socket_opens) = some next) :
    ∃ data_event, next.ctx.loop =
      { run.ctx.loop with app := event_loop.event_dispatch hw run.ctx.app data_event } := by
  unfold ControlRun.step at h
  simp only at h
  split at h
  · cases h
    exact ⟨.other, rfl⟩
  · obtain ⟨after, hafter, rfl⟩ := Option.map_eq_some_iff.mp h
    obtain ⟨data_event, happ⟩ := app_event_dispatch hafter
    exact ⟨data_event, happ⟩

theorem loop_steps_dispatch {run next : ControlRun σ} {sockets : List Bool}
    (h : run.steps hw (sockets.map .dispatch) = some next) :
    ∃ events : List DataPathEvent, events.length = sockets.length ∧
      next.ctx.loop = { run.ctx.loop with app := events.foldl (event_loop.event_dispatch hw) run.ctx.app } := by
  unfold ControlRun.steps at h
  induction sockets generalizing run with
  | nil =>
    cases h
    exact ⟨[], rfl, rfl⟩
  | cons socket_opens sockets ih =>
    rw [List.map_cons, List.foldlM_cons] at h
    cases hstep : run.step hw (.dispatch socket_opens) with
    | none =>
      rw [hstep] at h
      cases h
    | some served =>
      rw [hstep] at h
      obtain ⟨data_event, hserved⟩ := loop_step_dispatch hstep
      obtain ⟨events, hlength, hnext⟩ := ih h
      refine ⟨data_event :: events, congrArg (· + 1) hlength, ?_⟩
      rw [hnext, ControlCtx.app, hserved]
      rfl

/-- The events come last in an iteration of the loop. -/
theorem event_loop_iteration_events (state : LoopState σ) (input : LoopInput) (events : List DataPathEvent) :
    let served := event_loop_iteration hw state { input with events := [] }
    event_loop_iteration hw state { input with events } =
      { served with app := (events.take (maxEvents served.app)).foldl (event_loop.event_dispatch hw) served.app } := by
  simp only [event_loop_iteration_eq, finishIteration, poll_and_dispatch_events, List.take_nil, List.foldl_nil]
  rfl

/-- On the data path, an iteration of the firmware is an iteration of its loop
with the events that it dispatches. -/
theorem loop_firmware_iteration {run next : ControlRun σ} {input : FirmwareInput}
    (h : firmware_iteration hw run input = some next) :
    ∃ events, next.ctx.loop = event_loop_iteration hw run.ctx.loop { input.data with events } := by
  unfold firmware_iteration at h
  obtain ⟨served, hserved, hdispatch⟩ := Option.bind_eq_some_iff.mp h
  have hloop : served.ctx.loop = event_loop_iteration hw run.ctx.loop { input.data with events := [] } := by
    cases hserved
    rfl
  have hsockets : ((List.range (maxEvents served.ctx.app)).map fun i => ControlInput.dispatch (input.sockets i)) =
      ((List.range (maxEvents served.ctx.app)).map input.sockets).map (ControlInput.dispatch (σ := σ)) :=
    (List.map_map ..).symm
  rw [hsockets] at hdispatch
  obtain ⟨events, hlength, hnext⟩ := loop_steps_dispatch hdispatch
  rw [List.length_map, List.length_range] at hlength
  refine ⟨events, ?_⟩
  rw [ControlCtx.app, hloop] at hlength hnext
  rw [event_loop_iteration_events, List.take_of_length_le hlength.le, hnext]

/-- The iterations of the firmware, unless one of them does not return. -/
def firmware_run (hw : TxHardware σ) (run : ControlRun σ) (inputs : List FirmwareInput) : Option (ControlRun σ) :=
  inputs.foldlM (firmware_iteration hw) run

theorem steps_append {run middle last : ControlRun σ} {inputs inputs' : List (ControlInput σ)}
    (h : run.steps hw inputs = some middle) (h' : middle.steps hw inputs' = some last) :
    run.steps hw (inputs ++ inputs') = some last := by
  unfold ControlRun.steps at *
  rw [List.foldlM_append, h]
  exact h'

/-- The keys that arrive in a step. -/
def ControlInput.keys : ControlInput σ → List Char
  | .type keys => keys
  | .cli_poll | .dispatch _ | .data_path _ => []

theorem keys_dispatch (indices : List Nat) (sockets : Nat → Bool) :
    (indices.map fun i => ControlInput.dispatch (σ := σ) (sockets i)).flatMap ControlInput.keys = [] := by
  rw [List.flatMap_eq_nil_iff]
  intro input hmem
  obtain ⟨i, -, rfl⟩ := List.mem_map.mp hmem
  rfl

/-- What an iteration meets but for its events. -/
def withoutEvents (input : LoopInput) : LoopInput := { input with events := [] }

/-- A run of the firmware is a run of both planes, which meet the same keys and
the same data. -/
theorem firmware_run_planes {run last : ControlRun σ} {inputs : List FirmwareInput}
    (h : firmware_run hw run inputs = some last) :
    (∃ steps, run.steps hw steps = some last ∧ steps.flatMap ControlInput.keys = inputs.flatMap (·.keys)) ∧
      ∃ iterations, last.ctx.loop = event_loop_run hw run.ctx.loop iterations ∧
        iterations.map withoutEvents = inputs.map fun input => withoutEvents input.data := by
  apply Loop.foldlM_induction_inputs h
  · exact ⟨⟨[], rfl, rfl⟩, [], rfl, rfl⟩
  · rintro past served input next ⟨⟨steps, hsteps, hkeys⟩, iterations, hloop, hdata⟩ hnext
    obtain ⟨events, hevents⟩ := loop_firmware_iteration hnext
    obtain ⟨polled, hpolled, hdispatch⟩ := Option.bind_eq_some_iff.mp hnext
    refine ⟨⟨_, steps_append hsteps (steps_append hpolled hdispatch), ?_⟩, iterations ++ [{ input.data with events }],
      ?_, ?_⟩
    · simp only [List.flatMap_append, List.flatMap_cons, List.flatMap_nil, hkeys, keys_dispatch, ControlInput.keys,
        List.append_nil]
    · rw [hevents, hloop, event_loop_run, event_loop_run, List.foldl_append]
      rfl
    · rw [List.map_append, List.map_append, hdata]
      rfl

/-- A new address for the other end while a datagram comes in, then a look at RTS. -/
def typedAddress : List FirmwareInput :=
  [ { keys := "set net ip.remote 10.0.0.9\r".toList
      data := { LoopInput.idle with datagram := some [2] }
      sockets := fun _ => true },
    { keys := "get gpio rts\r".toList, data := .idle, sockets := fun _ => true },
    { keys := [], data := .idle, sockets := fun _ => true } ]

theorem typedAddress_returns : (firmware_run idleTx (.boot Config.zero ()) typedAddress).isSome = true := by
  decide +kernel

/-- The run of `typedAddress`. -/
def typedAddressRun : ControlRun Unit := Option.get _ typedAddress_returns

/-- The console after pushes whose results are not looked at. -/
def pushAll (console : Console) (events : List Event) : Console :=
  events.foldl (fun console event => { console with queue := (event_queue_push console.queue event).2 }) console

theorem console_foldl_perform (actions : List CliAction) (ctx : ControlCtx σ) :
    (actions.foldl perform ctx).console = pushAll ctx.console (actions.filterMap CliAction.event?) := by
  induction actions generalizing ctx with
  | nil => rfl
  | cons action actions ih =>
    rw [List.foldl_cons, ih]
    cases action with
    | push event | set_loglevel level | gpio_put gpio_num value | gpio_get gpio_num => rfl

/-- No command pushes a line. -/
theorem lineEvent_of_lineActions {actions : List CliAction} (h : LineActions actions) :
    ∀ event ∈ actions.filterMap CliAction.event?, lineEvent event = none := by
  intro event hmem
  obtain ⟨action, haction, hevent⟩ := List.mem_filterMap.mp hmem
  cases h with
  | nothing => cases haction
  | push pushed hplain =>
    rw [List.mem_singleton] at haction
    subst haction
    cases hevent
    cases event with
    | EV_CLI_LINE line_slot data_len => cases hplain
    | _ => rfl
  | other other hother =>
    rw [List.mem_singleton] at haction
    subst haction
    cases action with
    | push pushed => exact absurd rfl (hother pushed)
    | set_loglevel level | gpio_put gpio_num value | gpio_get gpio_num => cases hevent
  | address ip_addr mask =>
    simp only [addressEvents, List.map_cons, List.map_nil, List.mem_cons, List.not_mem_nil, or_false] at haction
    rcases haction with rfl | rfl <;> cases hevent <;> rfl

/-- A dispatch reaches the console only through its queue, to which it pushes no
line. -/
theorem console_event_dispatch {event : Event} {ctx after : ControlCtx σ} {socket_opens : Bool}
    (h : event_dispatch hw event ctx socket_opens = some after) :
    ∃ pushed, (∀ event ∈ pushed, lineEvent event = none) ∧ after.console = pushAll ctx.console pushed := by
  cases event_dispatch_cases h with
  | line line_slot data_len =>
    refine ⟨_, ?_, console_foldl_perform _ ctx⟩
    unfold lineActions
    split
    · exact List.forall_mem_nil _
    · exact lineEvent_of_lineActions (lineActions_handle_cli_line _)
  | net payload changed set hset =>
    obtain ⟨hconsole, -⟩ := ev_set_net_settings_frame hset
    rw [← hconsole]
    split
    · exact ⟨[.EV_SAVE_CONFIG], by simp [lineEvent], rfl⟩
    · exact ⟨[], List.forall_mem_nil _, rfl⟩
  | v24 payload set_result set saved hset hsaved =>
    obtain ⟨⟨loop, polarities, pins, hctx⟩, -, -⟩ := ev_set_v24_settings_frame hset
    have hconsole : set.console = ctx.console := by rw [hctx]
    rw [hsaved, ← hconsole]
    split <;> split
    · exact ⟨[.EV_SAVE_CONFIG, .EV_REBOOT], by simp [lineEvent], rfl⟩
    · exact ⟨[.EV_REBOOT], by simp [lineEvent], rfl⟩
    · exact ⟨[.EV_SAVE_CONFIG], by simp [lineEvent], rfl⟩
    · exact ⟨[], List.forall_mem_nil _, rfl⟩
  | save | wipe | query => exact ⟨[], List.forall_mem_nil _, rfl⟩

theorem steps_pushAll (run : ConsoleRun) {pushed : List Event} (h : ∀ event ∈ pushed, lineEvent event = none) :
    ∃ steps, typedKeys steps = [] ∧ run.steps steps = { run with console := pushAll run.console pushed } := by
  induction pushed generalizing run with
  | nil => exact ⟨[], rfl, rfl⟩
  | cons event pushed ih =>
    obtain ⟨hother, hrest⟩ := List.forall_mem_cons.mp h
    obtain ⟨steps, hkeys, hsteps⟩ := ih (run.step (.push event hother)) hrest
    exact ⟨.push event hother :: steps, hkeys, hsteps⟩

/-- The lines that have been dispatched since boot. -/
def dispatchedLines (history : List (Dispatched σ)) : List (List Char) :=
  history.reverse.filterMap fun dispatched => dispatchedLine dispatched.before.console.cli dispatched.event

/-- A run of the console that the control plane has gone through. -/
structure ConsoleAgrees (run : ControlRun σ) (console : ConsoleRun) : Prop where
  console_eq : console.console = run.ctx.console
  dispatched_eq : console.dispatched = dispatchedLines run.history

/-- A step of the control plane is a run of the console, to which the same keys
arrive. -/
theorem ConsoleAgrees.step {run next : ControlRun σ} {console : ConsoleRun} {input : ControlInput σ}
    (h : ConsoleAgrees run console) (hstep : run.step hw input = some next) :
    ∃ steps, typedKeys steps = input.keys ∧ ConsoleAgrees next (console.steps steps) := by
  cases input with
  | type keys =>
    cases hstep
    refine ⟨[.type keys], List.append_nil keys, ?_, h.dispatched_eq⟩
    rw [← h.console_eq]
    rfl
  | cli_poll =>
    cases hstep
    refine ⟨[.cli_poll], rfl, ?_, ?_⟩
    · exact (console_step_cli_poll console).trans (congrArg cli_poll h.console_eq)
    · exact (dispatched_step_cli_poll console).trans h.dispatched_eq
  | dispatch socket_opens =>
    unfold ControlRun.step at hstep
    cases hpop : event_queue_pop run.ctx.queue with
    | none =>
      rw [hpop] at hstep
      cases hstep
      exact ⟨[], rfl, h⟩
    | some popped =>
      obtain ⟨event, queue⟩ := popped
      rw [hpop] at hstep
      obtain ⟨after, hafter, rfl⟩ := Option.map_eq_some_iff.mp hstep
      obtain ⟨pushed, hlines, hconsole⟩ := console_event_dispatch hafter
      have hpopped : console.step .pop =
          { console with
            console := (run.ctx.withQueue queue).console
            dispatched := console.dispatched ++ (dispatchedLine run.ctx.console.cli event).toList } := by
        unfold ConsoleRun.step
        rw [h.console_eq, show event_queue_pop run.ctx.console.queue = _ from hpop]
        rfl
      obtain ⟨steps, hkeys, hsteps⟩ := steps_pushAll (console.step .pop) hlines
      refine ⟨.pop :: steps, hkeys, ?_, ?_⟩
      · rw [ConsoleRun.steps, List.foldl_cons, ← ConsoleRun.steps, hsteps, hpopped]
        exact hconsole.symm
      · rw [ConsoleRun.steps, List.foldl_cons, ← ConsoleRun.steps, hsteps, hpopped]
        simp only [dispatchedLines, List.reverse_cons, List.filterMap_append, h.dispatched_eq]
        rfl
  | data_path work =>
    cases hstep
    exact ⟨[], rfl, h.console_eq, h.dispatched_eq⟩

/-- A run of the control plane is a run of its console, to which the same keys
arrive and which dispatches the same lines. -/
theorem consoleAgrees_of_steps {flash : Flash} {pio : σ} {inputs : List (ControlInput σ)} {last : ControlRun σ}
    (h : (ControlRun.boot flash pio).steps hw inputs = some last) :
    ∃ steps, typedKeys steps = inputs.flatMap ControlInput.keys ∧ ConsoleAgrees last (ConsoleRun.boot.steps steps) := by
  apply Loop.foldlM_induction_inputs h
  · obtain ⟨-, hconsole, -⟩ := boot_starts flash pio
    exact ⟨[], rfl, hconsole.symm, rfl⟩
  · rintro past run input next ⟨steps, hkeys, hagrees⟩ hstep
    obtain ⟨steps', hkeys', hnext⟩ := hagrees.step hstep
    refine ⟨steps ++ steps', ?_, ?_⟩
    · rw [typedKeys, List.flatMap_append, List.flatMap_append, ← typedKeys, ← typedKeys, hkeys, hkeys',
        List.flatMap_singleton]
    · rw [ConsoleRun.steps, List.foldl_append]
      exact hnext

end ether2ser.control_plane
