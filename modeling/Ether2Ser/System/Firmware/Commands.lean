import Ether2Ser.System.Firmware

open Words
open ether2ser.cli_commands ether2ser.cli_usb_cdc ether2ser.event_loop ether2ser.event_queue
open ether2ser.persistent_config ether2ser.pio_tx_rx_driver

namespace ether2ser.control_plane

variable {σ : Type} {hw : TxHardware σ}

/-- An event that only commands push. Lines are pushed by the console, saves and
reboots by the settings that need them too. -/
def isRequest : Event → Bool
  | .EV_CLI_LINE _ _ | .EV_SAVE_CONFIG | .EV_REBOOT => false
  | _ => true

theorem mem_events_push {ctx : ControlCtx σ} {event other : Event} (h : event ∈ (ctx.push other).queue.events) :
    event ∈ ctx.queue.events ∨ event = other := by
  change event ∈ (event_queue_push ctx.queue other).2.events at h
  rcases events_push ctx.queue other with hevents | hevents
  · rw [hevents, List.mem_append, List.mem_singleton] at h
    exact h
  · rw [hevents] at h
    exact .inl h

theorem request_mem_push {ctx : ControlCtx σ} {event other : Event} (hother : isRequest other = false)
    (hrequest : isRequest event = true) (h : event ∈ (ctx.push other).queue.events) : event ∈ ctx.queue.events := by
  rcases mem_events_push h with hmem | rfl
  · exact hmem
  · rw [hother] at hrequest
    cases hrequest

/-- A request that is in the queue after a dispatch was there before it, or the
dispatched line has pushed it. -/
theorem request_event_dispatch {event request : Event} {ctx after : ControlCtx σ} {socket_opens : Bool}
    (h : event_dispatch hw event ctx socket_opens = some after) (hrequest : isRequest request = true)
    (hmem : request ∈ after.queue.events) :
    request ∈ ctx.queue.events ∨
      ∃ line ∈ dispatchedLine ctx.console.cli event, .push request ∈ handle_cli_line line := by
  cases event_dispatch_cases h with
  | line line_slot data_len =>
    obtain ⟨log_level, pins, queue, pushed, hctx, hqueue, hpushed⟩ :=
      perform_actions (lineActions ctx.console.cli line_slot data_len) ctx
    rw [hctx] at hmem
    change request ∈ queue.events at hmem
    rw [hqueue, List.mem_append] at hmem
    refine hmem.imp_right fun hmem => ?_
    obtain ⟨action, haction, hevent⟩ := List.mem_filterMap.mp (hpushed.subset hmem)
    have hpush : action = .push request := by
      cases action with
      | push event =>
        rw [CliAction.event?, Option.some.injEq] at hevent
        rw [hevent]
      | set_loglevel level | gpio_put gpio_num value | gpio_get gpio_num => cases hevent
    rw [hpush, lineActions] at haction
    rw [dispatchedLine, lineEvent]
    simp only
    split at haction
    · cases haction
    · rename_i hsome
      rw [if_neg hsome]
      exact ⟨_, rfl, haction⟩
  | net payload changed set hset =>
    obtain ⟨hconsole, -⟩ := ev_set_net_settings_frame hset
    left
    rw [ControlCtx.queue, ← hconsole]
    split at hmem
    · exact request_mem_push rfl hrequest hmem
    · exact hmem
  | v24 payload set_result set saved hset hsaved =>
    obtain ⟨⟨loop, polarities, pins, hctx⟩, -⟩ := ev_set_v24_settings_frame hset
    have hconsole : set.console = ctx.console := by rw [hctx]
    left
    rw [ControlCtx.queue, ← hconsole]
    have hkept : request ∈ saved.queue.events := by
      split at hmem
      · exact request_mem_push rfl hrequest hmem
      · exact hmem
    rw [hsaved] at hkept
    split at hkept
    · exact request_mem_push rfl hrequest hkept
    · exact hkept
  | save | wipe | query => exact .inl hmem

theorem mem_dispatchedLines_cons {line : List Char} {dispatched : Dispatched σ} {history : List (Dispatched σ)} :
    line ∈ dispatchedLines (dispatched :: history) ↔
      line ∈ dispatchedLines history ∨ dispatchedLine dispatched.before.console.cli dispatched.event = some line := by
  rw [dispatchedLines, List.reverse_cons, List.filterMap_append, List.mem_append, ← dispatchedLines, List.mem_filterMap]
  simp

/-- Every request has been made by a line that was dispatched. -/
structure Requested (run : ControlRun σ) : Prop where
  queued : ∀ event ∈ run.ctx.queue.events, isRequest event = true →
    ∃ line ∈ dispatchedLines run.history, .push event ∈ handle_cli_line line
  dispatched : ∀ dispatched ∈ run.history, isRequest dispatched.event = true →
    ∃ line ∈ dispatchedLines run.history, .push dispatched.event ∈ handle_cli_line line

theorem requested_boot (flash : Flash) (pio : σ) : Requested (.boot flash pio) where
  queued := by
    obtain ⟨-, hconsole, -⟩ := boot_starts flash pio
    intro event hmem
    change event ∈ (boot flash pio).console.queue.events at hmem
    rw [hconsole] at hmem
    cases hmem
  dispatched := fun _ hmem => absurd hmem List.not_mem_nil

theorem Requested.step {run next : ControlRun σ} {input : ControlInput σ} (h : Requested run)
    (hstep : run.step hw input = some next) : Requested next := by
  rcases ControlRun.step_cases hstep with ⟨console, ⟨slots, hlines⟩, rfl⟩ | ⟨loop, -, rfl⟩ |
    ⟨event, queue, socket_opens, after, hpop, hdispatch, rfl⟩
  · refine ⟨fun event hmem hrequest => ?_, h.dispatched⟩
    change event ∈ console.queue.events at hmem
    rw [hlines, List.mem_append] at hmem
    rcases hmem with hmem | hmem
    · exact h.queued event hmem hrequest
    · obtain ⟨slot, -, rfl⟩ := List.mem_map.mp hmem
      cases hrequest
  · exact ⟨h.queued, h.dispatched⟩
  · have hqueue := events_of_pop hpop
    have holder : ∀ {request : Event},
        (∃ line ∈ dispatchedLines run.history, .push request ∈ handle_cli_line line) →
          ∃ line ∈ dispatchedLines ({ event, before := run.ctx.withQueue queue, after } :: run.history),
            .push request ∈ handle_cli_line line := by
      rintro request ⟨line, hline, hpush⟩
      exact ⟨line, mem_dispatchedLines_cons.mpr (.inl hline), hpush⟩
    refine ⟨fun request hmem hrequest => ?_, fun dispatched hmem hrequest => ?_⟩
    · rcases request_event_dispatch hdispatch hrequest hmem with hbefore | ⟨line, hline, hpush⟩
      · exact holder (h.queued request (hqueue ▸ List.mem_cons_of_mem event hbefore) hrequest)
      · exact ⟨line, mem_dispatchedLines_cons.mpr (.inr hline), hpush⟩
    · rcases List.mem_cons.mp hmem with rfl | hmem
      · exact holder (h.queued event (hqueue ▸ List.mem_cons_self) hrequest)
      · exact holder (h.dispatched dispatched hmem hrequest)

theorem requested_of_steps {flash : Flash} {pio : σ} {inputs : List (ControlInput σ)} {last : ControlRun σ}
    (h : (ControlRun.boot flash pio).steps hw inputs = some last) : Requested last :=
  Loop.foldlM_induction h (requested_boot flash pio) fun _ _ _ hrequested hstep => hrequested.step hstep

/-- More keys only add to the complete lines. -/
theorem lines_editKeys_append (keys more : List Char) : (editKeys keys).lines <+: (editKeys (keys ++ more)).lines := by
  have htype : ∀ (more : List Char) (edited : Edited), edited.lines <+: (more.foldl Edited.type edited).lines := by
    intro more
    induction more with
    | nil => exact fun _ => List.prefix_refl _
    | cons key more ih =>
      intro edited
      refine List.IsPrefix.trans ?_ (ih (edited.type key))
      unfold Edited.type
      split
      · exact List.prefix_append _ _
      · exact List.prefix_refl _
  rw [editKeys, editKeys, List.foldl_append]
  exact htype more _

/-- The lines that the firmware has dispatched are complete lines that were
typed. -/
theorem typed_of_dispatchedLines {flash : Flash} {pio : σ} {inputs : List FirmwareInput} {last : ControlRun σ}
    (h : firmware_run hw (.boot flash pio) inputs = some last) {line : List Char}
    (hline : line ∈ dispatchedLines last.history) : line ∈ (editKeys (inputs.flatMap (·.keys))).lines := by
  obtain ⟨⟨steps, hsteps, harrived⟩, -⟩ := firmware_run_planes h
  obtain ⟨console, htyped, hagrees⟩ := consoleAgrees_of_steps hsteps
  obtain ⟨pending, first, hlines, -⟩ := (intact_boot.steps console).held
  have hkeys := keys_append_stdin .boot console
  rw [htyped, harrived] at hkeys
  rw [← hagrees.dispatched_eq] at hline
  have hread : line ∈ (editKeys (ConsoleRun.boot.steps console).keys).lines := by
    apply mem_of_mem_select
    rw [hlines]
    exact List.mem_append_left _ hline
  have hmore := lines_editKeys_append (ConsoleRun.boot.steps console).keys (ConsoleRun.boot.steps console).console.stdin
  rw [hkeys] at hmore
  exact hmore.subset hread

/-- Nothing but typing changes a setting: every network or V.24 setting, every
wipe and every query that the firmware dispatches was asked for by a complete
line among the keys that have arrived. -/
theorem requests_are_typed {flash : Flash} {pio : σ} {inputs : List FirmwareInput} {last : ControlRun σ}
    (h : firmware_run hw (.boot flash pio) inputs = some last) {dispatched : Dispatched σ}
    (hmem : dispatched ∈ last.history) (hrequest : isRequest dispatched.event = true) :
    ∃ line ∈ (editKeys (inputs.flatMap (·.keys))).lines, .push dispatched.event ∈ handle_cli_line line := by
  obtain ⟨⟨steps, hsteps, -⟩, -⟩ := firmware_run_planes h
  obtain ⟨line, hline, hpush⟩ := (requested_of_steps hsteps).dispatched dispatched hmem hrequest
  exact ⟨line, typed_of_dispatchedLines h hline, hpush⟩

def setsV24 : Event → Bool
  | .EV_SET_V24_SETTINGS _ => true
  | _ => false

/-- A line that asks for a V.24 setting. -/
def AsksForV24 (line : List Char) : Prop :=
  ∃ event ∈ (handle_cli_line line).filterMap CliAction.event?, setsV24 event = true

instance (line : List Char) : Decidable (AsksForV24 line) := inferInstanceAs (Decidable (∃ _ ∈ _, _))

theorem requests_are_typed_address :
    ∃ line ∈ (editKeys (typedAddress.flatMap (·.keys))).lines,
      .push (.EV_SET_NET_SETTINGS (.NET_IP_REMOTE ⟨10, 0, 0, 9⟩)) ∈ handle_cli_line line := by
  have hevent : (typedAddressRun.history.get ⟨2, by decide +kernel⟩).event =
      .EV_SET_NET_SETTINGS (.NET_IP_REMOTE ⟨10, 0, 0, 9⟩) := by
    decide +kernel
  rw [← hevent]
  exact requests_are_typed (Option.some_get typedAddress_returns).symm (List.get_mem _ _) (by rw [hevent]; rfl)

/-- Only a V.24 setting reaches the data path. -/
theorem loop_event_dispatch {event : Event} {ctx after : ControlCtx σ} {socket_opens : Bool}
    (h : event_dispatch hw event ctx socket_opens = some after) (hother : setsV24 event = false) :
    after.loop = ctx.loop := by
  cases event_dispatch_cases h with
  | line line_slot data_len =>
    obtain ⟨log_level, pins, queue, pushed, hctx, -⟩ :=
      perform_actions (lineActions ctx.console.cli line_slot data_len) ctx
    rw [hctx]
    rfl
  | net payload changed set hset =>
    obtain ⟨-, -, hloop, -⟩ := ev_set_net_settings_frame hset
    split <;> exact hloop
  | v24 payload set_result set saved hset hsaved => cases hother
  | save | wipe | query => rfl

/-- No V.24 setting has been dispatched. -/
def KeepsV24 (history : List (Dispatched σ)) : Prop := ∀ dispatched ∈ history, setsV24 dispatched.event = false

theorem history_step {run next : ControlRun σ} {input : ControlInput σ} (h : run.step hw input = some next) :
    run.history <:+ next.history := by
  rcases ControlRun.step_cases h with ⟨console, -, rfl⟩ | ⟨loop, -, rfl⟩ |
    ⟨event, queue, socket_opens, after, -, -, rfl⟩
  · exact List.suffix_refl _
  · exact List.suffix_refl _
  · exact List.suffix_cons _ _

theorem history_steps {run next : ControlRun σ} {inputs : List (ControlInput σ)}
    (h : run.steps hw inputs = some next) : run.history <:+ next.history :=
  @Loop.foldlM_induction _ _ _ (fun later => run.history <:+ later.history) _ _ _ h (List.suffix_refl _)
    fun _ _ _ hsuffix hstep => hsuffix.trans (history_step hstep)

/-- Events that are no V.24 settings pass by the data path. -/
theorem loop_steps_keepsV24 {run next : ControlRun σ} {indices : List Nat} {sockets : Nat → Bool}
    (h : run.steps hw (indices.map fun i => .dispatch (sockets i)) = some next) (hkeeps : KeepsV24 next.history) :
    next.ctx.loop = run.ctx.loop := by
  unfold ControlRun.steps at h
  induction indices generalizing run with
  | nil =>
    cases h
    rfl
  | cons i indices ih =>
    rw [List.map_cons, List.foldlM_cons] at h
    obtain ⟨served, hserved, hrest⟩ := Option.bind_eq_some_iff.mp h
    rw [ih hrest]
    unfold ControlRun.step at hserved
    simp only at hserved
    split at hserved
    · cases hserved
      rfl
    · obtain ⟨after, hafter, rfl⟩ := Option.map_eq_some_iff.mp hserved
      have hloop := loop_event_dispatch hafter (hkeeps _ ((history_steps hrest).subset List.mem_cons_self))
      exact hloop

theorem loop_firmware_iteration_keepsV24 {run next : ControlRun σ} {input : FirmwareInput}
    (h : firmware_iteration hw run input = some next) (hkeeps : KeepsV24 next.history) :
    next.ctx.loop = event_loop_iteration hw run.ctx.loop (withoutEvents input.data) := by
  obtain ⟨served, hserved, hdispatch⟩ := Option.bind_eq_some_iff.mp h
  rw [loop_steps_keepsV24 hdispatch hkeeps]
  cases hserved
  rfl

/-- No V.24 setting is dispatched, if no line that has been typed asks for one. -/
theorem keepsV24_of_typed {flash : Flash} {pio : σ} {inputs : List FirmwareInput} {last : ControlRun σ}
    (h : firmware_run hw (.boot flash pio) inputs = some last)
    (hquiet : ∀ line ∈ (editKeys (inputs.flatMap (·.keys))).lines, ¬ AsksForV24 line) : KeepsV24 last.history := by
  intro dispatched hmem
  by_contra hsets
  rw [Bool.not_eq_false] at hsets
  have hrequest : isRequest dispatched.event = true := by
    unfold setsV24 at hsets
    split at hsets
    · rename_i hevent
      rw [hevent]
      rfl
    · cases hsets
  obtain ⟨⟨steps, hsteps, -⟩, -⟩ := firmware_run_planes h
  obtain ⟨line, hline, hpush⟩ := (requested_of_steps hsteps).dispatched dispatched hmem hrequest
  exact hquiet line (typed_of_dispatchedLines h hline)
    ⟨dispatched.event, List.mem_filterMap.mpr ⟨_, hpush, rfl⟩, hsets⟩

/-- Without V.24 settings the data path goes through the same states as without any
event. -/
theorem loop_firmware_run_keepsV24 {run last : ControlRun σ} {inputs : List FirmwareInput}
    (h : firmware_run hw run inputs = some last) (hkeeps : KeepsV24 last.history) :
    last.ctx.loop = event_loop_run hw run.ctx.loop (inputs.map fun input => withoutEvents input.data) := by
  refine @Loop.foldlM_induction_inputs _ _ _ (fun past later => KeepsV24 later.history → later.ctx.loop =
    event_loop_run hw run.ctx.loop (past.map fun input => withoutEvents input.data)) _ _ _ h (fun _ => rfl) ?_ hkeeps
  intro past before input next hbefore hstep hnext
  obtain ⟨served, hserved, hdispatch⟩ := Option.bind_eq_some_iff.mp hstep
  have hquiet : KeepsV24 before.history := fun dispatched hmem =>
    hnext dispatched (((history_steps hserved).trans (history_steps hdispatch)).subset hmem)
  rw [loop_firmware_iteration_keepsV24 hstep hnext, hbefore hquiet, List.map_append, event_loop_run, event_loop_run,
    List.foldl_append]
  rfl

end ether2ser.control_plane
