import Ether2Ser.System.ControlPlane
import Ether2Ser.System.EventLoop.Rts
import Mathlib.Data.List.Induction

open ether2ser.cli_usb_cdc ether2ser.event_loop ether2ser.event_queue ether2ser.persistent_config
open ether2ser.pio_tx_rx_driver ether2ser.w5500_driver

namespace ether2ser.control_plane

variable {σ : Type} {hw : TxHardware σ}

/-- Dispatch events one after the other, where `socket` always opens. -/
def dispatchAll (hw : TxHardware σ) (ctx : ControlCtx σ) (events : List Event) : Option (ControlCtx σ) :=
  events.foldlM (fun ctx event => event_dispatch hw event ctx true) ctx

/-- The UDP socket is open on the local port. -/
def SocketBound (ctx : ControlCtx σ) : Prop := ctx.chip.udp_socket = some ctx.local_config.port

/-- The local endpoint and the chip have the same address. -/
def AddressAgrees (ctx : ControlCtx σ) : Prop := ctx.local_config.ip_address = ctx.chip.net_info.ip

/-- In a valid configuration the local endpoint and the chip have the same
address. -/
def FlashAgrees (flash : Flash) : Prop :=
  config_is_valid flash = true → flash.local_config.ip_address = flash.net_config.net_info.ip

/-- What the flash can hold: anything that is not marked as a configuration, or
what the firmware has left there, booted from such a flash. -/
inductive FirmwareFlash (hw : TxHardware σ) : Flash → Prop where
  | blank {flash : Flash} (hinvalid : config_is_valid flash = false) : FirmwareFlash hw flash
  | left {flash : Flash} {pio : σ} {events : List Event} {ctx : ControlCtx σ} (hflash : FirmwareFlash hw flash)
      (hctx : dispatchAll hw (boot flash pio) events = some ctx) : FirmwareFlash hw ctx.flash

theorem socketBound_boot (flash : Flash) (pio : σ) : SocketBound (boot flash pio) := rfl

theorem addressAgrees_boot {flash : Flash} (h : FlashAgrees flash) (pio : σ) : AddressAgrees (boot flash pio) := by
  unfold boot
  cases hvalid : config_is_valid flash with
  | false => rfl
  | true =>
    have hread : config_read flash = some flash := if_neg (not_not.mpr (eq_of_beq hvalid))
    rw [if_pos rfl, hread]
    exact h hvalid

/-- A change of the remote port reopens the socket on it. -/
theorem ev_set_net_settings_port_remote {ctx set : ControlCtx σ} {port : UInt16} {changed : Bool}
    (h : ev_set_net_settings (.NET_PORT_REMOTE port) ctx true = some (changed, set))
    (hport : ctx.destination_config.port ≠ port) :
    set.chip.udp_socket = some port ∧ set.local_config = ctx.local_config := by
  unfold ev_set_net_settings at h
  simp only at h
  rw [if_pos hport] at h
  cases h
  exact ⟨rfl, rfl⟩

/-- Every network setting keeps the addresses equal, and the socket bound unless
it changes the remote port. -/
theorem ev_set_net_settings_endpoint {payload : EventQueueData} {ctx set : ControlCtx σ} {changed : Bool}
    (h : ev_set_net_settings payload ctx true = some (changed, set)) :
    (AddressAgrees ctx → AddressAgrees set) ∧
      ((∀ port, payload = .NET_PORT_REMOTE port → ctx.destination_config.port = port) → SocketBound ctx →
        SocketBound set) := by
  unfold ev_set_net_settings at h
  cases payload with
  | NET_IP_REMOTE ip | NET_IP_MASK ip | NET_IP_GATEWAY ip =>
    simp only at h
    split at h <;> cases h <;> exact ⟨id, fun _ => id⟩
  | NET_IP_LOCAL ip =>
    simp only at h
    split at h
    · cases h
      exact ⟨fun _ => rfl, fun _ => id⟩
    · cases h
      exact ⟨id, fun _ => id⟩
  | NET_PORT_LOCAL port =>
    simp only at h
    split at h
    · cases h
      exact ⟨id, fun _ _ => rfl⟩
    · cases h
      exact ⟨id, fun _ => id⟩
  | NET_PORT_REMOTE port =>
    simp only at h
    split at h
    · rename_i hport
      cases h
      exact ⟨id, fun hsame => absurd (hsame port rfl) hport⟩
    · cases h
      exact ⟨id, fun _ => id⟩
  | V24_BAUDRATE baudrate | V24_POLARITIES polarities | V24_CLOCK_MODE v24_clock_mode | SYS_REBOOT =>
    cases h
    exact ⟨id, fun _ => id⟩

/-- An event that changes the remote port. -/
def ChangesRemotePort (event : Event) (ctx : ControlCtx σ) (port : UInt16) : Prop :=
  event = .EV_SET_NET_SETTINGS (.NET_PORT_REMOTE port) ∧ ctx.destination_config.port ≠ port

/-- What dispatching an event does to the endpoint and the stored one. -/
structure EndpointEffect (event : Event) (before after : ControlCtx σ) : Prop where
  address : AddressAgrees before → AddressAgrees after
  socket : (∀ port, ¬ ChangesRemotePort event before port) → SocketBound before → SocketBound after
  remote : ∀ port, ChangesRemotePort event before port → (SocketBound after ↔ before.local_config.port = port)
  flash : AddressAgrees before → FlashAgrees before.flash → FlashAgrees after.flash

/-- Any event other than a network setting that leaves the endpoint alone. -/
theorem endpointEffect_keep {event : Event} {before after : ControlCtx σ}
    (hevent : ∀ payload, event ≠ .EV_SET_NET_SETTINGS payload) (hlocal : after.local_config = before.local_config)
    (hchip : after.chip = before.chip)
    (hflash : AddressAgrees before → FlashAgrees before.flash → FlashAgrees after.flash) :
    EndpointEffect event before after where
  address := by
    rw [AddressAgrees, AddressAgrees, hlocal, hchip]
    exact id
  socket := by
    intro _
    rw [SocketBound, SocketBound, hlocal, hchip]
    exact id
  remote := fun port hport => absurd hport.1 (hevent _)
  flash := hflash

theorem event_dispatch_endpoint {event : Event} {ctx after : ControlCtx σ}
    (h : event_dispatch hw event ctx true = some after) : EndpointEffect event ctx after := by
  cases event_dispatch_cases h with
  | line line_slot data_len =>
    obtain ⟨log_level, pins, queue, pushed, hctx, -⟩ :=
      perform_actions (lineActions ctx.console.cli line_slot data_len) ctx
    rw [hctx]
    exact endpointEffect_keep nofun rfl rfl fun _ => id
  | save => exact endpointEffect_keep nofun rfl rfl fun haddress _ _ => haddress
  | wipe => exact endpointEffect_keep nofun rfl rfl fun _ _ => nofun
  | net payload changed set hset =>
    obtain ⟨-, hflash, -⟩ := ev_set_net_settings_frame hset
    obtain ⟨haddress, hsocket⟩ := ev_set_net_settings_endpoint hset
    have hafter : ∃ console, (if changed then request_save_config set else set) = { set with console } := by
      split <;> exact ⟨_, rfl⟩
    obtain ⟨console, hafter⟩ := hafter
    rw [hafter]
    constructor
    · exact haddress
    · intro hsame
      refine hsocket fun port hport => ?_
      by_contra hdiffer
      exact hsame port ⟨by rw [hport], hdiffer⟩
    · rintro port ⟨hport, hdiffer⟩
      cases hport
      obtain ⟨hopened, hsame⟩ := ev_set_net_settings_port_remote hset hdiffer
      change set.chip.udp_socket = some set.local_config.port ↔ _
      rw [hopened, hsame, Option.some_inj]
      exact eq_comm
    · change _ → _ → FlashAgrees set.flash
      rw [hflash]
      exact fun _ => id
  | v24 payload set_result set saved hset hsaved =>
    obtain ⟨⟨loop, polarities, pins, rfl⟩, -⟩ := ev_set_v24_settings_frame hset
    subst hsaved
    apply endpointEffect_keep (fun _ hevent => by cases hevent)
    · split <;> split <;> rfl
    · split <;> split <;> rfl
    · split <;> split <;> exact fun _ => id
  | query _ hquery =>
    apply endpointEffect_keep _ rfl rfl fun _ => id
    rintro payload rfl
    cases hquery

theorem dispatchAll_concat (ctx : ControlCtx σ) (events : List Event) (event : Event) :
    dispatchAll hw ctx (events ++ [event]) =
      (dispatchAll hw ctx events).bind fun ctx => event_dispatch hw event ctx true := by
  rw [dispatchAll, List.foldlM_append]
  simp [dispatchAll]

/-- The addresses agree in the chip and in the flash, whatever is dispatched. -/
theorem addressAgrees_dispatchAll {ctx last : ControlCtx σ} {events : List Event}
    (h : dispatchAll hw ctx events = some last) (haddress : AddressAgrees ctx) (hflash : FlashAgrees ctx.flash) :
    AddressAgrees last ∧ FlashAgrees last.flash := by
  have hstep : ∀ (before : ControlCtx σ) (event : Event) (after : ControlCtx σ),
      AddressAgrees before ∧ FlashAgrees before.flash → event_dispatch hw event before true = some after →
        AddressAgrees after ∧ FlashAgrees after.flash := by
    rintro before event after ⟨haddress, hflash⟩ hdispatch
    have heffect := event_dispatch_endpoint hdispatch
    exact ⟨heffect.address haddress, heffect.flash haddress hflash⟩
  exact @Loop.foldlM_induction _ _ _ (fun ctx => AddressAgrees ctx ∧ FlashAgrees ctx.flash) _ _ _ h
    ⟨haddress, hflash⟩ hstep

theorem FirmwareFlash.agrees {flash : Flash} (h : FirmwareFlash hw flash) : FlashAgrees flash := by
  induction h with
  | blank hinvalid =>
    intro hvalid
    rw [hinvalid] at hvalid
    cases hvalid
  | @left flash pio events ctx hflash hctx ih =>
    have hstart : FlashAgrees (boot flash pio).flash := by
      rw [(boot_starts flash pio).1]
      exact ih
    exact (addressAgrees_dispatchAll hctx (addressAgrees_boot ih pio) hstart).2

theorem event_dispatch_port_remote (ctx : ControlCtx σ) (port : UInt16) :
    ∃ after, event_dispatch hw (.EV_SET_NET_SETTINGS (.NET_PORT_REMOTE port)) ctx true = some after := by
  unfold event_dispatch ev_set_net_settings
  by_cases hport : ctx.destination_config.port ≠ port
  · simp only [if_pos hport]
    exact ⟨_, rfl⟩
  · simp only [if_neg hport]
    exact ⟨_, rfl⟩

/-- From boot on, the UDP socket is open on the local port and the endpoint has
the chip's address after every dispatch, exactly if each change of the remote
port changes it to the local one. -/
theorem udp_socket_bound_throughout_iff (hw : TxHardware σ) (flash : Flash) (pio : σ) (events : List Event)
    (hflash : FirmwareFlash hw flash) :
    (∀ done ctx, done <+: events → dispatchAll hw (boot flash pio) done = some ctx →
      SocketBound ctx ∧ AddressAgrees ctx) ↔
    ∀ done port ctx, done ++ [.EV_SET_NET_SETTINGS (.NET_PORT_REMOTE port)] <+: events →
      dispatchAll hw (boot flash pio) done = some ctx → ctx.destination_config.port ≠ port →
      ctx.local_config.port = port := by
  constructor
  · intro hbound done port ctx hdone hctx hport
    obtain ⟨after, hdispatch⟩ := @event_dispatch_port_remote σ hw ctx port
    have hafter : dispatchAll hw (boot flash pio) (done ++ [.EV_SET_NET_SETTINGS (.NET_PORT_REMOTE port)]) =
        some after := by
      rw [dispatchAll_concat, hctx]
      exact hdispatch
    exact ((event_dispatch_endpoint hdispatch).remote port ⟨rfl, hport⟩).mp (hbound _ after hdone hafter).1
  · intro hlocal done
    have haddress := addressAgrees_boot hflash.agrees pio
    have hstart : FlashAgrees (boot flash pio).flash := by
      rw [(boot_starts flash pio).1]
      exact hflash.agrees
    induction done using List.reverseRecOn with
    | nil =>
      intro ctx _ hctx
      cases hctx
      exact ⟨socketBound_boot flash pio, haddress⟩
    | append_singleton done event ih =>
      intro ctx hdone hctx
      refine ⟨?_, (addressAgrees_dispatchAll hctx haddress hstart).1⟩
      rw [dispatchAll_concat] at hctx
      obtain ⟨before, hbefore, hdispatch⟩ := Option.bind_eq_some_iff.mp hctx
      have heffect := event_dispatch_endpoint hdispatch
      by_cases hchange : ∃ port, ChangesRemotePort event before port
      · obtain ⟨port, hport⟩ := hchange
        rw [heffect.remote port hport]
        obtain ⟨rfl, hdiffer⟩ := hport
        exact hlocal done port before hdone hbefore hdiffer
      · apply heffect.socket (not_exists.mp hchange)
        exact (ih before ((List.prefix_append done [event]).trans hdone) hbefore).1

/-- Both ports move to 7000, the local one first. -/
def samePortEvents : List Event :=
  [.EV_SET_NET_SETTINGS (.NET_PORT_LOCAL 7000), .EV_SET_NET_SETTINGS (.NET_PORT_REMOTE 7000)]

theorem udp_socket_bound_throughout_same_port :
    (dispatchAll idleTx (boot Config.zero ()) samePortEvents).isSome = true ∧
      ∀ ctx, dispatchAll idleTx (boot Config.zero ()) samePortEvents = some ctx →
        SocketBound ctx ∧ AddressAgrees ctx := by
  refine ⟨by decide +kernel, fun ctx hctx => ?_⟩
  refine (udp_socket_bound_throughout_iff idleTx Config.zero () samePortEvents (.blank rfl)).mpr ?_ samePortEvents ctx
    (List.prefix_refl _) hctx
  rintro done port before ⟨rest, hrest⟩ hbefore -
  have hlocal : (dispatchAll idleTx (boot Config.zero ()) [.EV_SET_NET_SETTINGS (.NET_PORT_LOCAL 7000)]).map
      (fun ctx => ctx.local_config.port) = some 7000 := by decide +kernel
  match done with
  | [] => cases hrest
  | [first] =>
    cases hrest
    rw [hbefore] at hlocal
    exact Option.some_inj.mp hlocal
  | first :: second :: done => simp [samePortEvents] at hrest

/-- A new remote port takes the socket away from the local one. -/
theorem udp_socket_moved_to_remote_port :
    ∃ ctx, dispatchAll idleTx (boot Config.zero ()) [.EV_SET_NET_SETTINGS (.NET_PORT_REMOTE 7000)] = some ctx ∧
      ctx.chip.udp_socket = some 7000 ∧ ctx.local_config.port = 6969 ∧ ¬ SocketBound ctx := by
  have hports : (dispatchAll idleTx (boot Config.zero ()) [.EV_SET_NET_SETTINGS (.NET_PORT_REMOTE 7000)]).map
      (fun ctx => (ctx.chip.udp_socket, ctx.local_config.port)) = some (some 7000, 6969) := by decide +kernel
  obtain ⟨ctx, hctx, hboth⟩ := Option.map_eq_some_iff.mp hports
  obtain ⟨hsocket, hlocal⟩ := Prod.mk.inj hboth
  refine ⟨ctx, hctx, hsocket, hlocal, fun hbound => ?_⟩
  rw [SocketBound, hsocket, hlocal] at hbound
  cases hbound

end ether2ser.control_plane
