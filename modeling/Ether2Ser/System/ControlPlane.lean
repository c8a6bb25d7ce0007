import Ether2Ser.System.AppInit

open ether2ser.cli_commands ether2ser.cli_usb_cdc ether2ser.event_loop ether2ser.event_queue ether2ser.log
open ether2ser.persistent_config ether2ser.pio_tx_rx_driver ether2ser.v24_config ether2ser.w5500_driver

namespace ether2ser.control_plane

variable {σ : Type}

/-- Work of the data path between two events, which never writes `v24_config`. -/
structure DataPathWork (σ : Type) where
  run : LoopState σ → LoopState σ
  keeps_v24_config : ∀ loop, (run loop).app.v24_config = loop.app.v24_config

/-- A step of the control plane: keys arrive, the loop polls the console, takes
an event from the queue and dispatches it, or serves the data path. -/
inductive ControlInput (σ : Type) where
  | type (keys : List Char)
  | cli_poll
  | dispatch (socket_opens : Bool)
  | data_path (work : DataPathWork σ)

/-- A dispatched event, with the contexts around its dispatch. -/
structure Dispatched (σ : Type) where
  event : Event
  before : ControlCtx σ
  after : ControlCtx σ

/-- A run of the control plane, with the events dispatched since boot, the last
one first. -/
structure ControlRun (σ : Type) where
  ctx : ControlCtx σ
  history : List (Dispatched σ)

def ControlRun.boot (flash : Flash) (pio : σ) : ControlRun σ where
  ctx := control_plane.boot flash pio
  history := []

def ControlCtx.withQueue (ctx : ControlCtx σ) (queue : EventQueue Event) : ControlCtx σ :=
  { ctx with console := { ctx.console with queue } }

/-- The run after a step, unless the step does not return. -/
def ControlRun.step (hw : TxHardware σ) (run : ControlRun σ) : ControlInput σ → Option (ControlRun σ)
  | .type keys =>
    some { run with ctx := { run.ctx with
      console := { run.ctx.console with stdin := run.ctx.console.stdin ++ keys } } }
  | .cli_poll => some { run with ctx := { run.ctx with console := cli_poll run.ctx.console } }
  | .dispatch socket_opens =>
    match event_queue_pop run.ctx.queue with
    | none => some run
    | some (event, queue) =>
      (event_dispatch hw event (run.ctx.withQueue queue) socket_opens).map fun after =>
        { ctx := after, history := { event, before := run.ctx.withQueue queue, after } :: run.history }
  | .data_path work => some { run with ctx := run.ctx.setLoop (work.run run.ctx.loop) }

def ControlRun.steps (hw : TxHardware σ) (run : ControlRun σ) (inputs : List (ControlInput σ)) :
    Option (ControlRun σ) :=
  inputs.foldlM (ControlRun.step hw) run

variable {hw : TxHardware σ}

/-- Only lines are appended to the queue. -/
def AppendsLines (before after : List Event) : Prop :=
  ∃ slots : List (Nat × Nat), after = before ++ slots.map fun slot => .EV_CLI_LINE slot.1 slot.2

theorem AppendsLines.refl (events : List Event) : AppendsLines events events := ⟨[], (List.append_nil _).symm⟩

theorem AppendsLines.trans {first second third : List Event} (h : AppendsLines first second)
    (h' : AppendsLines second third) : AppendsLines first third := by
  obtain ⟨slots, rfl⟩ := h
  obtain ⟨slots', rfl⟩ := h'
  exact ⟨slots ++ slots', by rw [List.map_append, List.append_assoc]⟩

theorem appendsLines_processChar (console : Console) (key : Char) :
    AppendsLines console.queue.events (processChar console key).queue.events := by
  have hpush : ∀ line_slot data_len,
      AppendsLines console.queue.events
        (event_queue_push console.queue (.EV_CLI_LINE line_slot data_len)).2.events := by
    intro line_slot data_len
    rcases events_push console.queue (.EV_CLI_LINE line_slot data_len) with hevents | hevents
    · exact ⟨[(line_slot, data_len)], hevents⟩
    · rw [hevents]
      exact .refl _
  unfold processChar completeLine
  simp only
  split_ifs
  · exact .refl _
  · split
    · rename_i queue heq
      rw [show queue = (event_queue_push console.queue _).2 from (congrArg Prod.snd heq).symm]
      exact hpush _ _
    · rename_i queue heq
      rw [show queue = (event_queue_push console.queue _).2 from (congrArg Prod.snd heq).symm]
      exact hpush _ _
  all_goals exact .refl _

theorem appendsLines_cli_poll (console : Console) :
    AppendsLines console.queue.events (cli_poll console).queue.events := by
  have hkeys : ∀ (keys : List Char) (console : Console),
      AppendsLines console.queue.events (keys.foldl processChar console).queue.events := by
    intro keys
    induction keys with
    | nil => exact fun console => .refl _
    | cons key keys ih => exact fun console => (appendsLines_processChar console key).trans (ih _)
  exact hkeys _ _

/-- What a step can do: the console moves on and appends lines, the data path
moves on, nothing happens, or the oldest event is dispatched. -/
theorem ControlRun.step_cases {run next : ControlRun σ} {input : ControlInput σ}
    (hstep : run.step hw input = some next) :
    (∃ console, AppendsLines run.ctx.queue.events console.queue.events ∧
      next = { run with ctx := { run.ctx with console } }) ∨
    (∃ loop : LoopState σ, loop.app.v24_config = run.ctx.v24_config ∧
      next = { run with ctx := run.ctx.setLoop loop }) ∨
    ∃ event queue socket_opens after, event_queue_pop run.ctx.queue = some (event, queue) ∧
      event_dispatch hw event (run.ctx.withQueue queue) socket_opens = some after ∧
      next = { ctx := after, history := { event, before := run.ctx.withQueue queue, after } :: run.history } := by
  cases input with
  | type keys =>
    cases hstep
    exact .inl ⟨{ run.ctx.console with stdin := run.ctx.console.stdin ++ keys }, .refl _, rfl⟩
  | cli_poll =>
    cases hstep
    exact .inl ⟨_, appendsLines_cli_poll _, rfl⟩
  | dispatch socket_opens =>
    unfold ControlRun.step at hstep
    cases hpop : event_queue_pop run.ctx.queue with
    | none =>
      rw [hpop] at hstep
      cases hstep
      exact .inl ⟨_, .refl _, rfl⟩
    | some popped =>
      obtain ⟨event, queue⟩ := popped
      rw [hpop] at hstep
      obtain ⟨after, hafter, rfl⟩ := Option.map_eq_some_iff.mp hstep
      exact .inr (.inr ⟨event, queue, socket_opens, after, rfl, hafter, rfl⟩)
  | data_path work =>
    cases hstep
    exact .inr (.inl ⟨_, work.keeps_v24_config _, rfl⟩)

/-- The event that an action pushes. -/
def CliAction.event? : CliAction → Option Event
  | .push event => some event
  | _ => none

/-- Commands change only the log level, the pins and the queue, to which they
append the events they push, less those that find it full. -/
theorem perform_actions (actions : List CliAction) (ctx : ControlCtx σ) :
    ∃ log_level pins queue pushed, actions.foldl perform ctx = { ctx.withQueue queue with log_level, pins } ∧
      queue.events = ctx.queue.events ++ pushed ∧ pushed.Sublist (actions.filterMap CliAction.event?) := by
  induction actions generalizing ctx with
  | nil => exact ⟨ctx.log_level, ctx.pins, ctx.queue, [], rfl, (List.append_nil _).symm, List.Sublist.slnil⟩
  | cons action actions ih =>
    obtain ⟨log_level, pins, queue, pushed, hctx, hqueue, hpushed⟩ := ih (perform ctx action)
    rw [List.foldl_cons, hctx]
    cases action with
    | push event =>
      rcases events_push ctx.queue event with hevents | hevents
      · refine ⟨log_level, pins, queue, event :: pushed, rfl, ?_, hpushed.cons_cons event⟩
        rw [hqueue]
        change (event_queue_push ctx.queue event).2.events ++ pushed = _
        rw [hevents, List.append_assoc, List.singleton_append]
      · refine ⟨log_level, pins, queue, pushed, rfl, ?_, hpushed.cons event⟩
        rw [hqueue]
        change (event_queue_push ctx.queue event).2.events ++ pushed = _
        rw [hevents]
    | set_loglevel level => exact ⟨log_level, pins, queue, pushed, rfl, hqueue, hpushed⟩
    | gpio_put gpio_num value => exact ⟨log_level, pins, queue, pushed, rfl, hqueue, hpushed⟩
    | gpio_get gpio_num => exact ⟨log_level, pins, queue, pushed, rfl, hqueue, hpushed⟩

/-- A network setting leaves the console, the flash, the data path and the pins
alone, and everything else too unless it is a change. -/
theorem ev_set_net_settings_frame {payload : EventQueueData} {ctx set : ControlCtx σ} {socket_opens changed : Bool}
    (h : ev_set_net_settings payload ctx socket_opens = some (changed, set)) :
    set.console = ctx.console ∧ set.flash = ctx.flash ∧ set.loop = ctx.loop ∧ set.polarities = ctx.polarities ∧
      set.tx_program = ctx.tx_program ∧ set.pins = ctx.pins ∧ (changed = false → set = ctx) := by
  have hsocket : ∀ {ctx set : ControlCtx σ} {config : UdpConfig},
      reconfigureSocket ctx config socket_opens = some set →
        ∃ chip, set = { ctx with chip } := by
    intro ctx set config hset
    unfold reconfigureSocket at hset
    split at hset
    · cases hset
      exact ⟨_, rfl⟩
    · cases hset
  unfold ev_set_net_settings at h
  cases payload with
  | NET_PORT_LOCAL port =>
    simp only at h
    split at h
    · obtain ⟨set', hset', heq⟩ := Option.map_eq_some_iff.mp h
      obtain ⟨chip, rfl⟩ := hsocket hset'
      cases heq
      exact ⟨rfl, rfl, rfl, rfl, rfl, rfl, nofun⟩
    · cases h
      exact ⟨rfl, rfl, rfl, rfl, rfl, rfl, fun _ => rfl⟩
  | NET_PORT_REMOTE port =>
    simp only at h
    split at h
    · obtain ⟨set', hset', heq⟩ := Option.map_eq_some_iff.mp h
      obtain ⟨chip, rfl⟩ := hsocket hset'
      cases heq
      exact ⟨rfl, rfl, rfl, rfl, rfl, rfl, nofun⟩
    · cases h
      exact ⟨rfl, rfl, rfl, rfl, rfl, rfl, fun _ => rfl⟩
  | NET_IP_REMOTE ip | NET_IP_LOCAL ip | NET_IP_MASK ip | NET_IP_GATEWAY ip =>
    simp only at h
    split at h
    · cases h
      exact ⟨rfl, rfl, rfl, rfl, rfl, rfl, nofun⟩
    · cases h
      exact ⟨rfl, rfl, rfl, rfl, rfl, rfl, fun _ => rfl⟩
  | V24_BAUDRATE baudrate | V24_POLARITIES polarities | V24_CLOCK_MODE v24_clock_mode | SYS_REBOOT =>
    cases h
    exact ⟨rfl, rfl, rfl, rfl, rfl, rfl, fun _ => rfl⟩

/-- A V.24 setting leaves the network alone, and everything else too unless it is
a change. Only a change of the clock mode needs a reboot. -/
theorem ev_set_v24_settings_frame {payload : EventQueueData} {ctx set : ControlCtx σ} {set_result : ApplyResult}
    (h : ev_set_v24_settings hw payload ctx = (set_result, set)) :
    (∃ loop polarities pins, set = { ctx with loop, polarities, pins }) ∧ (set_result.changed = false → set = ctx) ∧
      (set_result.reboot_required = true → set_result.changed = true) ∧
      (set_result.reboot_required = false → set.v24_config.external_clock = ctx.v24_config.external_clock) := by
  unfold ev_set_v24_settings at h
  cases payload with
  | V24_BAUDRATE baudrate =>
    simp only at h
    split at h
    · cases h
      exact ⟨⟨_, ctx.polarities, _, rfl⟩, nofun, nofun, fun _ => rfl⟩
    · cases h
      exact ⟨⟨ctx.loop, ctx.polarities, ctx.pins, rfl⟩, fun _ => rfl, nofun, fun _ => rfl⟩
  | V24_POLARITIES polarities =>
    simp only at h
    split at h
    · cases h
      exact ⟨⟨_, polarities, _, rfl⟩, nofun, nofun, fun _ => rfl⟩
    · cases h
      exact ⟨⟨ctx.loop, ctx.polarities, ctx.pins, rfl⟩, fun _ => rfl, nofun, fun _ => rfl⟩
  | V24_CLOCK_MODE external_clock =>
    simp only at h
    split at h
    · split at h
      · cases h
        exact ⟨⟨ctx.loop, ctx.polarities, ctx.pins, rfl⟩, fun _ => rfl, nofun, fun _ => rfl⟩
      · cases h
        exact ⟨⟨_, ctx.polarities, _, rfl⟩, nofun, fun _ => rfl, nofun⟩
    · cases h
      exact ⟨⟨ctx.loop, ctx.polarities, ctx.pins, rfl⟩, fun _ => rfl, nofun, fun _ => rfl⟩
  | NET_IP_REMOTE ip | NET_IP_LOCAL ip | NET_IP_MASK ip | NET_IP_GATEWAY ip | NET_PORT_LOCAL port
    | NET_PORT_REMOTE port | SYS_REBOOT =>
    cases h
    exact ⟨⟨ctx.loop, ctx.polarities, ctx.pins, rfl⟩, fun _ => rfl, nofun, fun _ => rfl⟩

/-- An event that changes nothing. -/
def isQuery : Event → Bool
  | .EV_NONE | .EV_STATUS | .EV_MEM | .EV_GET_NET_SETTINGS _ | .EV_GET_V24_SETTINGS _ => true
  | _ => false

/-- What a dispatch that returns can have done. -/
inductive DispatchCase (hw : TxHardware σ) (ctx : ControlCtx σ) (socket_opens : Bool) :
    Event → ControlCtx σ → Prop where
  | line (line_slot data_len : Nat) :
      DispatchCase hw ctx socket_opens (.EV_CLI_LINE line_slot data_len)
        ((lineActions ctx.console.cli line_slot data_len).foldl perform ctx)
  | save : DispatchCase hw ctx socket_opens .EV_SAVE_CONFIG (saveConfig ctx)
  | wipe : DispatchCase hw ctx socket_opens .EV_WIPE_CONFIG { ctx with flash := config_wipe }
  | net (payload : EventQueueData) (changed : Bool) (set : ControlCtx σ)
      (hset : ev_set_net_settings payload ctx socket_opens = some (changed, set)) :
      DispatchCase hw ctx socket_opens (.EV_SET_NET_SETTINGS payload)
        (if changed then request_save_config set else set)
  | v24 (payload : EventQueueData) (set_result : ApplyResult) (set saved : ControlCtx σ)
      (hset : ev_set_v24_settings hw payload ctx = (set_result, set))
      (hsaved : saved = if set_result.changed then request_save_config set else set) :
      DispatchCase hw ctx socket_opens (.EV_SET_V24_SETTINGS payload)
        (if set_result.reboot_required then saved.push .EV_REBOOT else saved)
  | query (event : Event) (hquery : isQuery event = true) : DispatchCase hw ctx socket_opens event ctx

theorem event_dispatch_cases {event : Event} {ctx after : ControlCtx σ} {socket_opens : Bool}
    (h : event_dispatch hw event ctx socket_opens = some after) : DispatchCase hw ctx socket_opens event after := by
  unfold event_dispatch at h
  cases event with
  | EV_REBOOT => cases h
  | EV_CLI_LINE line_slot data_len =>
    cases h
    exact .line line_slot data_len
  | EV_SAVE_CONFIG =>
    cases h
    exact .save
  | EV_WIPE_CONFIG =>
    cases h
    exact .wipe
  | EV_SET_NET_SETTINGS payload =>
    simp only at h
    split at h
    · cases h
    · rename_i changed set hset
      cases h
      exact .net payload changed set hset
  | EV_SET_V24_SETTINGS payload =>
    cases h
    exact .v24 payload _ _ _ rfl rfl
  | EV_NONE | EV_STATUS | EV_MEM | EV_GET_NET_SETTINGS setting | EV_GET_V24_SETTINGS setting =>
    cases h
    exact .query _ rfl

end ether2ser.control_plane
