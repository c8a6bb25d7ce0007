import Ether2Ser.System.ControlPlane
import Ether2Ser.System.EventLoop.Rts

open ether2ser.cli_usb_cdc ether2ser.event_loop ether2ser.event_queue ether2ser.persistent_config
open ether2ser.pio_tx_rx_driver ether2ser.v24_config ether2ser.w5500_driver

namespace ether2ser.control_plane

variable {σ : Type} {hw : TxHardware σ}

/-- The settings that survive a reboot. -/
structure Settings where
  local_config : UdpConfig
  destination_config : UdpConfig
  ip : Ipv4
  sn : Ipv4
  gw : Ipv4
  baudrate : UInt32
  polarities : V24Polarities
  external_clock : Bool
  deriving DecidableEq, Repr

/-- The settings that the firmware runs with. -/
def ControlCtx.settings (ctx : ControlCtx σ) : Settings where
  local_config := ctx.local_config
  destination_config := ctx.destination_config
  ip := ctx.chip.net_info.ip
  sn := ctx.chip.net_info.sn
  gw := ctx.chip.net_info.gw
  baudrate := ctx.v24_config.baudrate
  polarities := ctx.polarities
  external_clock := ctx.v24_config.external_clock

def isSetting : Event → Bool
  | .EV_SET_NET_SETTINGS _ => true
  | .EV_SET_V24_SETTINGS _ => true
  | _ => false

/-- A dispatched setting that has changed something. -/
def Dispatched.Changes (dispatched : Dispatched σ) : Prop :=
  isSetting dispatched.event = true ∧ dispatched.before.settings ≠ dispatched.after.settings

/-- A setting has changed since the last dispatched `EV_SAVE_CONFIG`. -/
def ChangedSinceSave (history : List (Dispatched σ)) : Prop :=
  ∃ dispatched ∈ history.takeWhile (fun dispatched => dispatched.event ≠ .EV_SAVE_CONFIG), dispatched.Changes

/-- An `EV_SAVE_CONFIG` has been dispatched and no `EV_WIPE_CONFIG` after it. -/
def SavedSinceWipe (history : List (Dispatched σ)) : Prop :=
  ∃ dispatched ∈ history.takeWhile (fun dispatched => dispatched.event ≠ .EV_WIPE_CONFIG),
    dispatched.event = .EV_SAVE_CONFIG

/-- The settings in a stored configuration. -/
def storedSettings (flash : Flash) : Settings where
  local_config := flash.local_config
  destination_config := flash.remote_config
  ip := flash.net_config.net_info.ip
  sn := flash.net_config.net_info.sn
  gw := flash.net_config.net_info.gw
  baudrate := flash.v24_config.baudrate
  polarities := flash.polarities
  external_clock := flash.v24_config.external_clock

/-- The flash holds the settings of the context. -/
def Stores (flash : Flash) (settings : Settings) : Prop :=
  config_is_valid flash = true ∧ storedSettings flash = settings

theorem baudrate_reinit_v24_config (config : V24Config) (runtime : V24Runtime) (baudrate : UInt32) :
    V24_BAUD_1200 ≤ (reinit_v24_config config runtime baudrate).1.baudrate := by
  simp only [reinit_v24_config]
  split
  · assumption
  · exact UInt32.le_refl _

/-- Booting restores the stored settings, as long as the baudrate is not below
the slowest one. -/
theorem settings_boot {flash : Flash} {settings : Settings} (h : Stores flash settings)
    (hbaud : V24_BAUD_1200 ≤ settings.baudrate) (pio : σ) : (boot flash pio).settings = settings := by
  obtain ⟨hvalid, rfl⟩ := h
  have hmagic : flash.magic = CONFIG_MAGIC := eq_of_beq hvalid
  have hread : config_read flash = some flash := if_neg (not_not.mpr hmagic)
  have hclamp : (if flash.v24_config.baudrate ≥ V24_BAUD_1200 then flash.v24_config.baudrate else V24_BAUD_1200) =
      flash.v24_config.baudrate := if_pos hbaud
  unfold boot
  rw [if_pos hvalid, hread]
  simp only [init_app, ControlCtx.settings, ControlCtx.v24_config, ControlCtx.app, LoopState.boot, reinit_v24_config,
    hclamp]
  rfl

theorem baudrate_boot (flash : Flash) (pio : σ) : V24_BAUD_1200 ≤ (boot flash pio).v24_config.baudrate := by
  unfold boot init_app
  simp only
  split
  · exact baudrate_reinit_v24_config _ runtimeAtReset _
  · exact baudrate_reinit_v24_config _ runtimeAtReset _

theorem stores_saveConfig (ctx : ControlCtx σ) : Stores (saveConfig ctx).flash (saveConfig ctx).settings := ⟨rfl, rfl⟩

/-- What dispatching an event does to the queue, the settings and the flash. -/
structure DispatchEffect (event : Event) (before after : ControlCtx σ) : Prop where
  baudrate : V24_BAUD_1200 ≤ before.v24_config.baudrate → V24_BAUD_1200 ≤ after.v24_config.baudrate
  queue : before.queue.events <+: after.queue.events
  saves : before.settings = after.settings ∨ isSetting event = true ∧ .EV_SAVE_CONFIG ∈ after.queue.events
  flash : event ≠ .EV_SAVE_CONFIG → event ≠ .EV_WIPE_CONFIG → after.flash = before.flash
  stores : event = .EV_SAVE_CONFIG → Stores after.flash after.settings

theorem dispatchEffect_refl {event : Event} (ctx : ControlCtx σ) (hevent : event ≠ .EV_SAVE_CONFIG) :
    DispatchEffect event ctx ctx where
  baudrate := id
  queue := List.prefix_refl _
  saves := .inl rfl
  flash := fun _ _ => rfl
  stores := fun heq => absurd heq hevent

theorem events_request_save_config {ctx : ControlCtx σ} (hroom : ctx.queue.events.length + 1 < EVENT_QUEUE_CAPACITY) :
    (request_save_config ctx).queue.events = ctx.queue.events ++ [.EV_SAVE_CONFIG] :=
  (event_queue_push_room Event.EV_SAVE_CONFIG hroom).2

theorem prefix_events_push (ctx : ControlCtx σ) (event : Event) :
    ctx.queue.events <+: (ctx.push event).queue.events := by
  change ctx.queue.events <+: (event_queue_push ctx.queue event).2.events
  rcases events_push ctx.queue event with hevents | hevents
  · rw [hevents]
    exact List.prefix_append _ _
  · rw [hevents]

theorem DispatchEffect.push {event : Event} {before after : ControlCtx σ} (h : DispatchEffect event before after)
    (other : Event) : DispatchEffect event before (after.push other) where
  baudrate := h.baudrate
  queue := h.queue.trans (prefix_events_push after other)
  saves := h.saves.imp id fun ⟨hsetting, hmem⟩ => ⟨hsetting, (prefix_events_push after other).subset hmem⟩
  flash := h.flash
  stores := h.stores

/-- A change that is followed by a request to save it. -/
theorem dispatchEffect_change {event : Event} {ctx set : ControlCtx σ} (hsetting : isSetting event = true)
    (hroom : ctx.queue.events.length + 1 < EVENT_QUEUE_CAPACITY) (hconsole : set.console = ctx.console)
    (hflash : set.flash = ctx.flash)
    (hbaud : V24_BAUD_1200 ≤ ctx.v24_config.baudrate → V24_BAUD_1200 ≤ set.v24_config.baudrate) :
    DispatchEffect event ctx (request_save_config set) := by
  have hqueue : set.queue = ctx.queue := congrArg Console.queue hconsole
  have hevents := @events_request_save_config σ set (by rwa [hqueue])
  constructor
  · exact hbaud
  · rw [hevents, hqueue]
    exact List.prefix_append _ _
  · rw [hevents]
    exact .inr ⟨hsetting, List.mem_append_right _ List.mem_cons_self⟩
  · exact fun _ _ => hflash
  · rintro rfl
    cases hsetting

theorem dispatchEffect_set_net {payload : EventQueueData} {ctx set : ControlCtx σ} {socket_opens changed : Bool}
    (hroom : ctx.queue.events.length + 1 < EVENT_QUEUE_CAPACITY)
    (h : ev_set_net_settings payload ctx socket_opens = some (changed, set)) :
    DispatchEffect (.EV_SET_NET_SETTINGS payload) ctx (if changed then request_save_config set else set) := by
  obtain ⟨hconsole, hflash, hloop, -, -, -, hsame⟩ := ev_set_net_settings_frame h
  cases changed with
  | false =>
    cases hsame rfl
    exact dispatchEffect_refl ctx nofun
  | true =>
    apply dispatchEffect_change rfl hroom hconsole hflash
    rw [ControlCtx.v24_config, ControlCtx.v24_config, ControlCtx.app, ControlCtx.app, hloop]
    exact id

theorem baudrate_ev_set_v24_settings {payload : EventQueueData} {ctx set : ControlCtx σ} {set_result : ApplyResult}
    (h : ev_set_v24_settings hw payload ctx = (set_result, set))
    (hbaud : V24_BAUD_1200 ≤ ctx.v24_config.baudrate) : V24_BAUD_1200 ≤ set.v24_config.baudrate := by
  unfold ev_set_v24_settings at h
  cases payload with
  | V24_BAUDRATE baudrate =>
    simp only at h
    split at h
    · cases h
      exact baudrate_reinit_v24_config ctx.v24_config ctx.app.driver.v24_runtime baudrate
    · cases h
      exact hbaud
  | V24_POLARITIES polarities =>
    simp only at h
    split at h <;> cases h <;> exact hbaud
  | V24_CLOCK_MODE external_clock =>
    simp only at h
    split_ifs at h <;> cases h <;> exact hbaud
  | NET_IP_REMOTE ip | NET_IP_LOCAL ip | NET_IP_MASK ip | NET_IP_GATEWAY ip | NET_PORT_LOCAL port
    | NET_PORT_REMOTE port | SYS_REBOOT =>
    cases h
    exact hbaud

theorem dispatchEffect_set_v24 {payload : EventQueueData} {ctx set : ControlCtx σ} {set_result : ApplyResult}
    (hroom : ctx.queue.events.length + 1 < EVENT_QUEUE_CAPACITY)
    (h : ev_set_v24_settings hw payload ctx = (set_result, set)) :
    DispatchEffect (.EV_SET_V24_SETTINGS payload) ctx
      (if set_result.changed then request_save_config set else set) := by
  obtain ⟨⟨loop, polarities, pins, hset⟩, hsame, -⟩ := ev_set_v24_settings_frame h
  have hbaud := baudrate_ev_set_v24_settings h
  split
  · subst hset
    exact dispatchEffect_change rfl hroom rfl rfl hbaud
  · rename_i hchanged
    cases hsame (Bool.eq_false_iff.mpr hchanged)
    exact dispatchEffect_refl ctx nofun

/-- Every event keeps the queued ones, and a setting that changes anything queues
a save, because the event itself has left a slot free. -/
theorem event_dispatch_effect {event : Event} {ctx after : ControlCtx σ} {socket_opens : Bool}
    (hroom : ctx.queue.events.length + 1 < EVENT_QUEUE_CAPACITY)
    (h : event_dispatch hw event ctx socket_opens = some after) : DispatchEffect event ctx after := by
  cases event_dispatch_cases h with
  | line line_slot data_len =>
    obtain ⟨log_level, pins, queue, pushed, hctx, hqueue, -⟩ :=
      perform_actions (lineActions ctx.console.cli line_slot data_len) ctx
    rw [hctx]
    refine ⟨id, ?_, .inl rfl, fun _ _ => rfl, nofun⟩
    change ctx.queue.events <+: queue.events
    rw [hqueue]
    exact List.prefix_append _ _
  | save => exact ⟨id, List.prefix_refl _, .inl rfl, fun hne => absurd rfl hne, fun _ => stores_saveConfig ctx⟩
  | wipe => exact ⟨id, List.prefix_refl _, .inl rfl, fun _ hne => absurd rfl hne, nofun⟩
  | net payload changed set hset => exact dispatchEffect_set_net hroom hset
  | v24 payload set_result set saved hset hsaved =>
    have heffect := dispatchEffect_set_v24 hroom hset
    rw [← hsaved] at heffect
    split
    · exact heffect.push .EV_REBOOT
    · exact heffect
  | query _ hquery =>
    apply dispatchEffect_refl ctx
    rintro rfl
    cases hquery

/-- Changes are queued to be saved, and the flash holds the settings otherwise. -/
structure Persisted (run : ControlRun σ) : Prop where
  baudrate : V24_BAUD_1200 ≤ run.ctx.v24_config.baudrate
  queued : ChangedSinceSave run.history → .EV_SAVE_CONFIG ∈ run.ctx.queue.events
  stored : SavedSinceWipe run.history → ¬ ChangedSinceSave run.history → Stores run.ctx.flash run.ctx.settings

theorem not_changedSinceSave_nil : ¬ ChangedSinceSave ([] : List (Dispatched σ)) := by
  rintro ⟨dispatched, hmem, -⟩
  cases hmem

theorem not_savedSinceWipe_nil : ¬ SavedSinceWipe ([] : List (Dispatched σ)) := by
  rintro ⟨dispatched, hmem, -⟩
  cases hmem

/-- A dispatch other than a save adds its own change. -/
theorem changedSinceSave_cons_iff {dispatched : Dispatched σ} {history : List (Dispatched σ)} :
    ChangedSinceSave (dispatched :: history) ↔
      dispatched.event ≠ .EV_SAVE_CONFIG ∧ (dispatched.Changes ∨ ChangedSinceSave history) := by
  unfold ChangedSinceSave
  rw [List.takeWhile_cons]
  by_cases hsave : dispatched.event = .EV_SAVE_CONFIG
  · simp [hsave]
  · simp [hsave]

theorem savedSinceWipe_cons_iff {dispatched : Dispatched σ} {history : List (Dispatched σ)} :
    SavedSinceWipe (dispatched :: history) ↔
      dispatched.event ≠ .EV_WIPE_CONFIG ∧ (dispatched.event = .EV_SAVE_CONFIG ∨ SavedSinceWipe history) := by
  unfold SavedSinceWipe
  rw [List.takeWhile_cons]
  by_cases hwipe : dispatched.event = .EV_WIPE_CONFIG
  · simp [hwipe]
  · simp [hwipe]

theorem persisted_boot (flash : Flash) (pio : σ) : Persisted (.boot flash pio) where
  baudrate := baudrate_boot flash pio
  queued := fun hchanged => absurd hchanged not_changedSinceSave_nil
  stored := fun hsaved => absurd hsaved not_savedSinceWipe_nil

/-- The invariant after a dispatch with the given effect. -/
theorem Persisted.dispatch {run : ControlRun σ} (h : Persisted run) {event : Event} {queue : EventQueue Event}
    {after : ControlCtx σ} (hpop : event_queue_pop run.ctx.queue = some (event, queue))
    (heffect : DispatchEffect event (run.ctx.withQueue queue) after) :
    Persisted { ctx := after, history := { event, before := run.ctx.withQueue queue, after } :: run.history } where
  baudrate := heffect.baudrate h.baudrate
  queued := by
    rw [changedSinceSave_cons_iff]
    rintro ⟨hsave, hchange | hchanged⟩
    · rcases heffect.saves with hsame | ⟨-, hqueued⟩
      · exact absurd hsame hchange.2
      · exact hqueued
    · have hmem := h.queued hchanged
      rw [events_of_pop hpop, List.mem_cons] at hmem
      rcases hmem with hevent | hmem
      · exact absurd hevent.symm hsave
      · exact heffect.queue.subset hmem
  stored := by
    rw [savedSinceWipe_cons_iff, changedSinceSave_cons_iff]
    rintro ⟨hwipe, hsaved⟩ hunchanged
    by_cases hsave : event = .EV_SAVE_CONFIG
    · exact heffect.stores hsave
    · have hbefore := h.stored (hsaved.resolve_left hsave) (fun hchanged => hunchanged ⟨hsave, .inr hchanged⟩)
      have hsettings : (run.ctx.withQueue queue).settings = after.settings := by
        rcases heffect.saves with hsame | ⟨hsetting, -⟩
        · exact hsame
        · by_contra hdiffer
          exact hunchanged ⟨hsave, .inl ⟨hsetting, hdiffer⟩⟩
      rw [heffect.flash hsave hwipe, ← hsettings]
      exact hbefore

theorem Persisted.step {run next : ControlRun σ} {input : ControlInput σ} (h : Persisted run)
    (hstep : run.step hw input = some next) : Persisted next := by
  rcases ControlRun.step_cases hstep with ⟨console, ⟨slots, hlines⟩, rfl⟩ | ⟨loop, hv24, rfl⟩ |
    ⟨event, queue, socket_opens, after, hpop, hdispatch, rfl⟩
  · refine ⟨h.baudrate, fun hchanged => ?_, h.stored⟩
    change _ ∈ console.queue.events
    rw [hlines]
    exact List.mem_append_left _ (h.queued hchanged)
  · have hsettings : (run.ctx.setLoop loop).settings = run.ctx.settings := by
      simp only [ControlCtx.settings, ControlCtx.v24_config, ControlCtx.app, ControlCtx.setLoop] at hv24 ⊢
      rw [hv24]
    refine ⟨?_, h.queued, ?_⟩
    · change V24_BAUD_1200 ≤ loop.app.v24_config.baudrate
      rw [hv24]
      exact h.baudrate
    · rw [hsettings]
      exact h.stored
  · exact h.dispatch hpop (event_dispatch_effect (room_of_pop hpop) hdispatch)

/-- No change of the configuration is left unpersisted: in every state that a
power cycle reaches, a setting that has changed since the last save has a save
queued; and while none is queued, booting from a flash that was saved and not
wiped restores the settings of this state. -/
theorem config_changes_persisted (hw : TxHardware σ) (flash : Flash) (pio : σ) (inputs : List (ControlInput σ))
    (run : ControlRun σ) (hrun : (ControlRun.boot flash pio).steps hw inputs = some run) :
    (ChangedSinceSave run.history → .EV_SAVE_CONFIG ∈ run.ctx.queue.events) ∧
    (.EV_SAVE_CONFIG ∉ run.ctx.queue.events → SavedSinceWipe run.history →
      config_is_valid run.ctx.flash = true ∧
        ∀ pio' : σ, (boot run.ctx.flash pio').settings = run.ctx.settings) := by
  have hpersisted : Persisted run :=
    Loop.foldlM_induction hrun (persisted_boot flash pio) fun _ _ _ h hstep => h.step hstep
  refine ⟨hpersisted.queued, fun hnone hsaved => ?_⟩
  have hstores := hpersisted.stored hsaved (fun hchanged => hnone (hpersisted.queued hchanged))
  exact ⟨hstores.1, settings_boot hstores hpersisted.baudrate⟩

/-- A new address for the other end, from the keyboard to the flash. -/
def remoteAddressInputs : List (ControlInput Unit) :=
  [.type "set net ip.remote 10.0.0.9\r".toList, .cli_poll, .cli_poll, .dispatch true, .dispatch true, .dispatch true]

theorem remoteAddressInputs_return :
    ((ControlRun.boot Config.zero ()).steps idleTx remoteAddressInputs).isSome = true := by
  decide +kernel

/-- The run of `remoteAddressInputs`. -/
def remoteAddressRun : ControlRun Unit := Option.get _ remoteAddressInputs_return

theorem config_changes_persisted_remote_address :
    remoteAddressRun.ctx.settings.destination_config = { ip_address := ⟨10, 0, 0, 9⟩, port := 6969 } ∧
      config_is_valid remoteAddressRun.ctx.flash = true ∧
      (boot remoteAddressRun.ctx.flash ()).settings = remoteAddressRun.ctx.settings := by
  have hpersisted := (config_changes_persisted idleTx Config.zero () remoteAddressInputs remoteAddressRun
    (Option.some_get remoteAddressInputs_return).symm).2 (by decide +kernel) (by unfold SavedSinceWipe; decide +kernel)
  exact ⟨by decide +kernel, hpersisted.1, hpersisted.2 ()⟩

end ether2ser.control_plane
