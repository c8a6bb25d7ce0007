import Ether2Ser.System.CliCommands.Actions
import Ether2Ser.System.CliUsbCdc.Lines
import Ether2Ser.System.ControlPlane.Persistence

open ether2ser.cli_commands ether2ser.cli_parser ether2ser.cli_usb_cdc ether2ser.event_loop ether2ser.event_queue
open ether2ser.persistent_config ether2ser.pio_tx_rx_driver

namespace ether2ser.control_plane

variable {σ : Type} {hw : TxHardware σ}

/-- Either all the events are appended to the queue, or none. -/
def AllOrNothing (before events after : List Event) : Prop := after = before ++ events ∨ after = before

/-- Of two pushes in a row both succeed if there is room for both, and else the
first one, if there is room for one. -/
theorem events_push_push {ctx : ControlCtx σ} (first second : Event)
    (hroom : ctx.queue.events.length + 1 < EVENT_QUEUE_CAPACITY) :
    ((ctx.push first).push second).queue.events =
      if ctx.queue.events.length ≤ 13 then ctx.queue.events ++ [first, second] else ctx.queue.events ++ [first] := by
  have hfirst : (ctx.push first).queue.events = ctx.queue.events ++ [first] := (event_queue_push_room first hroom).2
  have hlength : (ctx.push first).queue.events.length = ctx.queue.events.length + 1 := by
    rw [hfirst, List.length_append, List.length_singleton]
  unfold EVENT_QUEUE_CAPACITY at hroom
  split
  · have hsecond := (@event_queue_push_room _ (ctx.push first).queue second
      (by rw [hlength]; unfold EVENT_QUEUE_CAPACITY; omega)).2
    rw [hfirst, List.append_assoc] at hsecond
    exact hsecond
  · have hsecond := (@event_queue_push_full _ (ctx.push first).queue second
      (by rw [hlength]; unfold EVENT_QUEUE_CAPACITY; omega)).2
    rw [hfirst] at hsecond
    exact hsecond

/-- Both events are queued exactly if there is room for both. -/
theorem events_push_push_eq_iff {ctx : ControlCtx σ} {first second : Event}
    (hroom : ctx.queue.events.length + 1 < EVENT_QUEUE_CAPACITY) :
    ((ctx.push first).push second).queue.events = ctx.queue.events ++ [first, second] ↔
      ctx.queue.events.length ≤ 13 := by
  rw [events_push_push first second hroom]
  split
  · simp_all
  · simp_all

theorem allOrNothing_push_push_iff {ctx : ControlCtx σ} {first second : Event}
    (hroom : ctx.queue.events.length + 1 < EVENT_QUEUE_CAPACITY) :
    AllOrNothing ctx.queue.events [first, second] ((ctx.push first).push second).queue.events ↔
      ctx.queue.events.length ≤ 13 := by
  have hone : ((ctx.push first).push second).queue.events ≠ ctx.queue.events := by
    rw [events_push_push first second hroom]
    split <;> simp
  unfold AllOrNothing
  rw [events_push_push_eq_iff hroom]
  exact or_iff_left hone

/-- A line of the console is dispatched by taking its actions. -/
theorem event_dispatch_line {event : Event} {ctx after : ControlCtx σ} {socket_opens : Bool} {line : List Char}
    (hline : dispatchedLine ctx.console.cli event = some line)
    (h : event_dispatch hw event ctx socket_opens = some after) :
    after = (handle_cli_line line).foldl perform ctx := by
  cases event with
  | EV_CLI_LINE line_slot data_len =>
    simp only [dispatchedLine, lineEvent] at hline
    split at hline
    · cases hline
    · rename_i hlen
      cases hline
      cases h
      rw [lineActions, if_neg hlen]
  | EV_NONE | EV_SAVE_CONFIG | EV_STATUS | EV_MEM | EV_WIPE_CONFIG | EV_SET_NET_SETTINGS payload
    | EV_GET_NET_SETTINGS setting | EV_SET_V24_SETTINGS payload | EV_GET_V24_SETTINGS setting | EV_REBOOT => cases hline

/-- The events of a new address are queued together exactly if there is room for
both. -/
theorem event_dispatch_set_ip_local_iff {event : Event} {ctx after : ControlCtx σ} {socket_opens : Bool}
    {args : List Char} {ip_addr mask : Ipv4} (hroom : ctx.queue.events.length + 1 < EVENT_QUEUE_CAPACITY)
    (hline : dispatchedLine ctx.console.cli event = some ("set net ip.local ".toList ++ args))
    (hargs : parse_set_ip_args args = .ok (ip_addr, mask))
    (h : event_dispatch hw event ctx socket_opens = some after) :
    AllOrNothing ctx.queue.events (addressEvents ip_addr mask) after.queue.events ↔ ctx.queue.events.length ≤ 13 := by
  have hafter := event_dispatch_line hline h
  rw [handle_cli_line_set_ip_local hargs] at hafter
  rw [hafter]
  exact allOrNothing_push_push_iff hroom

/-- Only a change of the clock mode moves the flag, and it requests a save and a
reboot. -/
theorem event_dispatch_flip {event : Event} {ctx after : ControlCtx σ} {socket_opens : Bool}
    (h : event_dispatch hw event ctx socket_opens = some after)
    (hflip : after.v24_config.external_clock ≠ ctx.v24_config.external_clock) :
    ∃ set : ControlCtx σ, set.queue = ctx.queue ∧ after = (set.push .EV_SAVE_CONFIG).push .EV_REBOOT := by
  cases event_dispatch_cases h with
  | line line_slot data_len =>
    obtain ⟨log_level, pins, queue, pushed, hctx, -⟩ :=
      perform_actions (lineActions ctx.console.cli line_slot data_len) ctx
    rw [hctx] at hflip
    exact absurd rfl hflip
  | net payload changed set hset =>
    obtain ⟨-, -, hloop, -⟩ := ev_set_net_settings_frame hset
    have hkept : (if changed then request_save_config set else set).loop = ctx.loop := by
      split <;> exact hloop
    rw [ControlCtx.v24_config, ControlCtx.v24_config, ControlCtx.app, ControlCtx.app, hkept] at hflip
    exact absurd rfl hflip
  | v24 payload set_result set saved hset hsaved =>
    obtain ⟨⟨loop, polarities, pins, hctx⟩, -, hreboot, hkept⟩ := ev_set_v24_settings_frame hset
    cases hrequired : set_result.reboot_required with
    | true =>
      rw [hreboot hrequired] at hsaved
      refine ⟨set, ?_, ?_⟩
      · rw [hctx]
        rfl
      · rw [hsaved]
        rfl
    | false =>
      rw [hrequired] at hflip
      have hsame : saved.v24_config = set.v24_config := by
        rw [hsaved]
        split <;> rfl
      exact absurd ((congrArg _ hsame).trans (hkept hrequired)) hflip
  | save | wipe | query => exact absurd rfl hflip

/-- The address and the mask that the actions of a line request. -/
def requestedAddress : List CliAction → Option (Ipv4 × Ipv4)
  | [.push (.EV_SET_NET_SETTINGS (.NET_IP_LOCAL ip_addr)), .push (.EV_SET_NET_SETTINGS (.NET_IP_MASK mask))] =>
    some (ip_addr, mask)
  | _ => none

/-- The address and the mask that a dispatched line requests. -/
def Dispatched.addressRequest (dispatched : Dispatched σ) : Option (Ipv4 × Ipv4) :=
  (dispatchedLine dispatched.before.console.cli dispatched.event).bind fun line =>
    requestedAddress (handle_cli_line line)

/-- A dispatch that queues two events. -/
def Dispatched.QueuesTwo (dispatched : Dispatched σ) : Prop :=
  dispatched.addressRequest.isSome = true ∨
    dispatched.after.v24_config.external_clock ≠ dispatched.before.v24_config.external_clock

instance (dispatched : Dispatched σ) : Decidable dispatched.QueuesTwo := inferInstanceAs (Decidable (_ ∨ _))

/-- Every dispatch that queues two events finds room for both. -/
def RoomForTwo (history : List (Dispatched σ)) : Prop :=
  ∀ dispatched ∈ history, dispatched.QueuesTwo → dispatched.before.queue.events.length ≤ 13

/-- The address and the mask requested last, or those at boot. -/
def lastAddress (initial : Ipv4 × Ipv4) (history : List (Dispatched σ)) : Ipv4 × Ipv4 :=
  (history.filterMap Dispatched.addressRequest).head?.getD initial

/-- The address and the mask of the chip. -/
def ControlCtx.address (ctx : ControlCtx σ) : Ipv4 × Ipv4 := (ctx.chip.net_info.ip, ctx.chip.net_info.sn)

/-- The clock that the loaded program takes. -/
def TxProgram.external_clock : TxProgram → Bool
  | .tck_txd => false
  | .xck_txd => true

/-- The address and the mask after an event. -/
def applyAddress (address : Ipv4 × Ipv4) : Event → Ipv4 × Ipv4
  | .EV_SET_NET_SETTINGS (.NET_IP_LOCAL ip_addr) => (ip_addr, address.2)
  | .EV_SET_NET_SETTINGS (.NET_IP_MASK mask) => (address.1, mask)
  | _ => address

/-- The address and the mask of the chip once the queue has drained. -/
def ControlCtx.settledAddress (ctx : ControlCtx σ) : Ipv4 × Ipv4 := ctx.queue.events.foldl applyAddress ctx.address

theorem applyAddress_of_isPlain {event : Event} (h : isPlain event = true) (address : Ipv4 × Ipv4) :
    applyAddress address event = address := by
  unfold applyAddress
  split
  · cases h
  · cases h
  · rfl

theorem foldl_applyAddress_lines (slots : List (Nat × Nat)) (address : Ipv4 × Ipv4) :
    (slots.map fun slot => .EV_CLI_LINE slot.1 slot.2).foldl applyAddress address = address := by
  induction slots with
  | nil => rfl
  | cons slot slots ih => exact ih

theorem settledAddress_push {ctx : ControlCtx σ} {event : Event} (hplain : isPlain event = true) :
    (ctx.push event).settledAddress = ctx.settledAddress := by
  unfold ControlCtx.settledAddress
  change (event_queue_push ctx.queue event).2.events.foldl applyAddress ctx.address = _
  rcases events_push ctx.queue event with hevents | hevents
  · rw [hevents, List.foldl_append]
    exact applyAddress_of_isPlain hplain _
  · rw [hevents]

/-- A network setting takes its effect on the address off the queue. -/
theorem address_ev_set_net_settings {payload : EventQueueData} {ctx set : ControlCtx σ} {socket_opens changed : Bool}
    (h : ev_set_net_settings payload ctx socket_opens = some (changed, set)) :
    set.address = applyAddress ctx.address (.EV_SET_NET_SETTINGS payload) := by
  have hsocket : ∀ {ctx set : ControlCtx σ} {config : w5500_driver.UdpConfig},
      reconfigureSocket ctx config socket_opens = some set → set.chip.net_info = ctx.chip.net_info := by
    intro ctx set config hset
    unfold reconfigureSocket w5500_driver.w5500_reconfigure_udp_socket w5500_driver.w5500_open_udp_socket at hset
    cases socket_opens with
    | true =>
      cases hset
      rfl
    | false => cases hset
  unfold ev_set_net_settings at h
  cases payload with
  | NET_IP_LOCAL ip | NET_IP_MASK ip =>
    simp only at h
    split at h
    · cases h
      rfl
    · rename_i hsame
      rw [not_not] at hsame
      cases h
      rw [applyAddress, ← hsame]
      rfl
  | NET_IP_REMOTE ip | NET_IP_GATEWAY ip =>
    simp only at h
    split at h <;> cases h <;> rfl
  | NET_PORT_LOCAL port | NET_PORT_REMOTE port =>
    simp only at h
    split at h
    · obtain ⟨set', hset', heq⟩ := Option.map_eq_some_iff.mp h
      cases heq
      have hinfo := hsocket hset'
      rw [ControlCtx.address, hinfo]
      rfl
    · cases h
      rfl
  | V24_BAUDRATE baudrate | V24_POLARITIES polarities | V24_CLOCK_MODE v24_clock_mode | SYS_REBOOT =>
    cases h
    rfl

/-- With room for both events of a new address, a line settles the address that
it requests, and any other line settles nothing. -/
theorem settledAddress_actions {ctx : ControlCtx σ} {actions : List CliAction} (h : LineActions actions)
    (hroom : ctx.queue.events.length + 1 < EVENT_QUEUE_CAPACITY)
    (htwo : (requestedAddress actions).isSome = true → ctx.queue.events.length ≤ 13) :
    (actions.foldl perform ctx).settledAddress = (requestedAddress actions).getD ctx.settledAddress := by
  cases h with
  | nothing => rfl
  | push event hplain =>
    have hnone : requestedAddress [CliAction.push event] = none := by simp [requestedAddress]
    rw [hnone]
    exact settledAddress_push hplain
  | other action hother =>
    cases action with
    | push event => exact absurd rfl (hother event)
    | set_loglevel level | gpio_put gpio_num value | gpio_get gpio_num => rfl
  | address ip_addr mask =>
    have hevents : ((addressEvents ip_addr mask).map CliAction.push).foldl perform ctx =
        (ctx.push (.EV_SET_NET_SETTINGS (.NET_IP_LOCAL ip_addr))).push (.EV_SET_NET_SETTINGS (.NET_IP_MASK mask)) := rfl
    rw [hevents, ControlCtx.settledAddress, events_push_push _ _ hroom, if_pos (htwo rfl), List.foldl_append]
    rfl

/-- A dispatched line settles the address that it requests, if there is room for
both of its events. -/
theorem settledAddress_line {line_slot data_len : Nat} {ctx after : ControlCtx σ} {socket_opens : Bool}
    (hroom : ctx.queue.events.length + 1 < EVENT_QUEUE_CAPACITY)
    (h : event_dispatch hw (.EV_CLI_LINE line_slot data_len) ctx socket_opens = some after)
    (htwo : ({ event := .EV_CLI_LINE line_slot data_len, before := ctx, after } : Dispatched σ).QueuesTwo →
      ctx.queue.events.length ≤ 13) :
    after.settledAddress =
      (({ event := .EV_CLI_LINE line_slot data_len, before := ctx, after } : Dispatched σ).addressRequest).getD
        ctx.settledAddress := by
  cases hline : dispatchedLine ctx.console.cli (.EV_CLI_LINE line_slot data_len) with
  | none =>
    simp only [dispatchedLine, lineEvent, ite_eq_left_iff, reduceCtorEq, imp_false, not_not] at hline
    cases h
    simp only [lineActions, Dispatched.addressRequest, dispatchedLine, lineEvent, if_pos hline, List.foldl_nil,
      Option.bind_none, Option.getD_none]
  | some line =>
    have hrequest :
        ({ event := .EV_CLI_LINE line_slot data_len, before := ctx, after } : Dispatched σ).addressRequest =
          requestedAddress (handle_cli_line line) := by
      simp only [Dispatched.addressRequest, hline, Option.bind_some]
    rw [hrequest, event_dispatch_line hline h]
    apply settledAddress_actions (lineActions_handle_cli_line line) hroom
    exact fun hsome => htwo (.inl (by rwa [hrequest]))

/-- What dispatching an event does to the settled address. -/
theorem settledAddress_event_dispatch {event : Event} {ctx after : ControlCtx σ} {socket_opens : Bool}
    (hroom : ctx.queue.events.length + 1 < EVENT_QUEUE_CAPACITY)
    (h : event_dispatch hw event ctx socket_opens = some after)
    (htwo : ({ event, before := ctx, after } : Dispatched σ).QueuesTwo → ctx.queue.events.length ≤ 13) :
    after.settledAddress = (({ event, before := ctx, after } : Dispatched σ).addressRequest).getD
      (ctx.queue.events.foldl applyAddress (applyAddress ctx.address event)) := by
  cases event_dispatch_cases h with
  | line line_slot data_len => exact settledAddress_line hroom h htwo
  | net payload changed set hset =>
    obtain ⟨hconsole, -⟩ := ev_set_net_settings_frame hset
    have hsettled : set.settledAddress =
        ctx.queue.events.foldl applyAddress (applyAddress ctx.address (.EV_SET_NET_SETTINGS payload)) := by
      rw [ControlCtx.settledAddress, ControlCtx.queue, hconsole, address_ev_set_net_settings hset]
      rfl
    split
    · exact (settledAddress_push rfl).trans hsettled
    · exact hsettled
  | v24 payload set_result set saved hset hsaved =>
    obtain ⟨⟨loop, polarities, pins, hctx⟩, -⟩ := ev_set_v24_settings_frame hset
    have hsettled : set.settledAddress = ctx.settledAddress := by
      rw [hctx]
      rfl
    have hkept : saved.settledAddress = ctx.settledAddress := by
      rw [hsaved]
      split
      · exact (settledAddress_push rfl).trans hsettled
      · exact hsettled
    split
    · exact (settledAddress_push rfl).trans hkept
    · exact hkept
  | save | wipe => rfl
  | query _ hquery =>
    cases event with
    | EV_NONE | EV_STATUS | EV_MEM | EV_GET_NET_SETTINGS setting | EV_GET_V24_SETTINGS setting => rfl
    | _ => cases hquery

theorem tx_program_event_dispatch {event : Event} {ctx after : ControlCtx σ} {socket_opens : Bool}
    (h : event_dispatch hw event ctx socket_opens = some after) : after.tx_program = ctx.tx_program := by
  cases event_dispatch_cases h with
  | line line_slot data_len =>
    obtain ⟨log_level, pins, queue, pushed, hctx, -⟩ :=
      perform_actions (lineActions ctx.console.cli line_slot data_len) ctx
    rw [hctx]
    rfl
  | net payload changed set hset =>
    obtain ⟨-, -, -, -, hprogram, -⟩ := ev_set_net_settings_frame hset
    split <;> exact hprogram
  | v24 payload set_result set saved hset hsaved =>
    obtain ⟨⟨loop, polarities, pins, rfl⟩, -⟩ := ev_set_v24_settings_frame hset
    rw [hsaved]
    split <;> split <;> rfl
  | save | wipe | query => rfl

/-- The chip settles on the address requested last, and the clock mode differs
from the loaded program only until a queued reboot. -/
structure Paired (initial : Ipv4 × Ipv4) (run : ControlRun σ) : Prop where
  settled : run.ctx.settledAddress = lastAddress initial run.history
  reboot : run.ctx.v24_config.external_clock ≠ run.ctx.tx_program.external_clock →
    .EV_REBOOT ∈ run.ctx.queue.events

theorem paired_boot (flash : Flash) (pio : σ) :
    Paired (boot flash pio).address (ControlRun.boot flash pio) where
  settled := by
    obtain ⟨-, hconsole, -⟩ := boot_starts flash pio
    rw [ControlRun.boot, ControlCtx.settledAddress, ControlCtx.queue, hconsole]
    rfl
  reboot := by
    intro hdiffer
    obtain ⟨-, -, hprogram, -⟩ := boot_starts flash pio
    have hclock : ∀ v24_config, v24_config.external_clock = (tx_clock_init v24_config).external_clock := by
      intro v24_config
      unfold tx_clock_init
      cases v24_config.external_clock <;> rfl
    apply absurd _ hdiffer
    rw [ControlRun.boot, hprogram]
    exact hclock _

theorem Paired.dispatch {initial : Ipv4 × Ipv4} {run : ControlRun σ} (h : Paired initial run) {event : Event}
    {queue : EventQueue Event} {socket_opens : Bool} {after : ControlCtx σ}
    (hpop : event_queue_pop run.ctx.queue = some (event, queue))
    (hdispatch : event_dispatch hw event (run.ctx.withQueue queue) socket_opens = some after)
    (htwo : ({ event, before := run.ctx.withQueue queue, after } : Dispatched σ).QueuesTwo → queue.events.length ≤ 13) :
    Paired initial { ctx := after, history := { event, before := run.ctx.withQueue queue, after } :: run.history } := by
  have hevents := events_of_pop hpop
  have hroom : (run.ctx.withQueue queue).queue.events.length + 1 < EVENT_QUEUE_CAPACITY := room_of_pop hpop
  constructor
  · have hbefore := h.settled
    rw [ControlCtx.settledAddress, hevents, List.foldl_cons] at hbefore
    simp only
    rw [settledAddress_event_dispatch hroom hdispatch htwo, lastAddress, List.filterMap_cons]
    cases Dispatched.addressRequest { event, before := run.ctx.withQueue queue, after } with
    | none => exact hbefore
    | some request => rfl
  · intro hdiffer
    rw [tx_program_event_dispatch hdispatch] at hdiffer
    by_cases hflip : after.v24_config.external_clock ≠ (run.ctx.withQueue queue).v24_config.external_clock
    · obtain ⟨set, hset, hafter⟩ := event_dispatch_flip hdispatch hflip
      have hlength : set.queue.events.length = queue.events.length := congrArg (fun q => q.events.length) hset
      have hboth := @events_push_push σ set .EV_SAVE_CONFIG .EV_REBOOT (by rw [hlength]; exact hroom)
      rw [hlength, if_pos (htwo (.inr hflip))] at hboth
      rw [hafter, hboth]
      simp
    · rw [not_not] at hflip
      rw [hflip] at hdiffer
      have hmem := h.reboot hdiffer
      rw [hevents, List.mem_cons] at hmem
      rcases hmem with rfl | hmem
      · cases hdispatch
      · exact (event_dispatch_effect hroom hdispatch).queue.subset hmem

theorem Paired.step {initial : Ipv4 × Ipv4} {run next : ControlRun σ} {input : ControlInput σ}
    (h : RoomForTwo run.history → Paired initial run) (hstep : run.step hw input = some next)
    (htwo : RoomForTwo next.history) : Paired initial next := by
  rcases ControlRun.step_cases hstep with ⟨console, ⟨slots, hlines⟩, rfl⟩ | ⟨loop, hv24, rfl⟩ |
    ⟨event, queue, socket_opens, after, hpop, hdispatch, rfl⟩
  · obtain ⟨hsettled, hreboot⟩ := h htwo
    constructor
    · rw [← hsettled]
      change console.queue.events.foldl applyAddress run.ctx.address = _
      rw [hlines, List.foldl_append, foldl_applyAddress_lines]
      rfl
    · intro hdiffer
      change _ ∈ console.queue.events
      rw [hlines]
      exact List.mem_append_left _ (hreboot hdiffer)
  · obtain ⟨hsettled, hreboot⟩ := h htwo
    refine ⟨hsettled, ?_⟩
    change loop.app.v24_config.external_clock ≠ _ → _
    rw [hv24]
    exact hreboot
  · have hbefore : RoomForTwo run.history := fun dispatched hmem => htwo dispatched (List.mem_cons_of_mem _ hmem)
    exact (h hbefore).dispatch hpop hdispatch (htwo _ List.mem_cons_self)

/-- Two events are queued together exactly if at most thirteen events wait, at
every dispatch of every run; and as long as this holds of the dispatches so far,
a drained queue leaves the chip with the address and the mask of one request, and
a clock mode that differs from the loaded program has a reboot queued. -/
theorem two_event_operations_iff (hw : TxHardware σ) (flash : Flash) (pio : σ) (inputs : List (ControlInput σ))
    (run : ControlRun σ) (hrun : (ControlRun.boot flash pio).steps hw inputs = some run) :
    (∀ event queue socket_opens after, event_queue_pop run.ctx.queue = some (event, queue) →
      event_dispatch hw event (run.ctx.withQueue queue) socket_opens = some after →
      (∀ args ip_addr mask,
        dispatchedLine run.ctx.console.cli event = some ("set net ip.local ".toList ++ args) →
        parse_set_ip_args args = .ok (ip_addr, mask) →
        (AllOrNothing queue.events (addressEvents ip_addr mask) after.queue.events ↔ queue.events.length ≤ 13)) ∧
      (after.v24_config.external_clock ≠ run.ctx.v24_config.external_clock →
        (after.queue.events = queue.events ++ [.EV_SAVE_CONFIG, .EV_REBOOT] ↔ queue.events.length ≤ 13))) ∧
    (RoomForTwo run.history →
      (run.ctx.queue.events = [] → run.ctx.address = lastAddress (boot flash pio).address run.history) ∧
      (run.ctx.v24_config.external_clock ≠ run.ctx.tx_program.external_clock →
        .EV_REBOOT ∈ run.ctx.queue.events)) := by
  constructor
  · intro event queue socket_opens after hpop hdispatch
    have hroom : (run.ctx.withQueue queue).queue.events.length + 1 < EVENT_QUEUE_CAPACITY := room_of_pop hpop
    refine ⟨fun args ip_addr mask hline hargs => ?_, fun hflip => ?_⟩
    · exact @event_dispatch_set_ip_local_iff σ hw _ _ _ _ _ _ _ hroom hline hargs hdispatch
    · obtain ⟨set, hset, rfl⟩ := event_dispatch_flip hdispatch hflip
      have hqueue : set.queue = queue := hset
      have hiff := @events_push_push_eq_iff σ set .EV_SAVE_CONFIG .EV_REBOOT (by rw [hset]; exact hroom)
      rwa [hqueue] at hiff
  · intro htwo
    have hpaired : RoomForTwo run.history → Paired (boot flash pio).address run :=
      @Loop.foldlM_induction _ _ _ (fun run => RoomForTwo run.history → Paired (boot flash pio).address run) _ _ _ hrun
        (fun _ => paired_boot flash pio) fun _ _ _ h hstep => Paired.step h hstep
    obtain ⟨hsettled, hreboot⟩ := hpaired htwo
    refine ⟨fun hempty => ?_, hreboot⟩
    rw [← hsettled, ControlCtx.settledAddress, hempty]
    rfl

/-- A new local address on an empty queue, until the queue has drained. -/
def localAddressInputs : List (ControlInput Unit) :=
  [.type "set net ip.local 10.0.0.1/8\r".toList, .cli_poll, .cli_poll] ++ List.replicate 5 (.dispatch true)

theorem localAddressInputs_return :
    ((ControlRun.boot Config.zero ()).steps idleTx localAddressInputs).isSome = true := by
  decide +kernel

/-- The run of `localAddressInputs`. -/
def localAddressRun : ControlRun Unit := Option.get _ localAddressInputs_return

theorem two_event_operations_local_address :
    localAddressRun.ctx.address = lastAddress (boot Config.zero ()).address localAddressRun.history ∧
      localAddressRun.ctx.address = (⟨10, 0, 0, 1⟩, ⟨255, 0, 0, 0⟩) := by
  refine ⟨?_, by decide +kernel⟩
  refine ((two_event_operations_iff idleTx Config.zero () localAddressInputs localAddressRun
    (Option.some_get localAddressInputs_return).symm).2 ?_).1 ?_
  · unfold RoomForTwo
    decide +kernel
  · decide +kernel

/-- A new local address in front of fourteen lines that wait. -/
def crowdedAddressInputs : List (ControlInput Unit) :=
  [.type ("set net ip.local 10.0.0.1/8\r".toList ++ List.replicate 14 '\r'), .cli_poll, .cli_poll, .cli_poll,
    .dispatch true]

/-- A change of the clock mode in front of fourteen lines that wait. -/
def crowdedClockInputs : List (ControlInput Unit) :=
  [.type "set v24 txclock 1\r".toList, .cli_poll, .cli_poll, .dispatch true, .type (List.replicate 14 '\r'), .cli_poll,
    .dispatch true]

/-- With fourteen events left, the mask and the reboot are lost: once the queue
has drained, the chip has the new address with the old mask, and the clock mode
differs from the loaded program. -/
theorem two_event_operations_crowded :
    ((ControlRun.boot Config.zero ()).steps idleTx crowdedAddressInputs).map
        (fun run => run.ctx.queue.events.filter fun event => lineEvent event = none) =
      some [.EV_SET_NET_SETTINGS (.NET_IP_LOCAL ⟨10, 0, 0, 1⟩)] ∧
    ((ControlRun.boot Config.zero ()).steps idleTx (crowdedAddressInputs ++ List.replicate 16 (.dispatch true))).map
        (fun run => (run.ctx.queue.events, run.ctx.address, lastAddress (boot Config.zero ()).address run.history)) =
      some ([], (⟨10, 0, 0, 1⟩, ⟨255, 255, 255, 0⟩), (⟨10, 0, 0, 1⟩, ⟨255, 0, 0, 0⟩)) ∧
    ((ControlRun.boot Config.zero ()).steps idleTx (crowdedClockInputs ++ List.replicate 15 (.dispatch true))).map
        (fun run =>
          (run.ctx.queue.events, run.ctx.v24_config.external_clock, run.ctx.tx_program.external_clock)) =
      some ([], true, false) := by
  decide +kernel

end ether2ser.control_plane
