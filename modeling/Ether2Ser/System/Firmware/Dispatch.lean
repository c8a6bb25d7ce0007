import Ether2Ser.System.ControlPlane.Persistence
import Ether2Ser.System.EventLoop.Throttle
import Ether2Ser.System.Firmware

open ether2ser.event_loop ether2ser.event_queue ether2ser.persistent_config ether2ser.pio_tx_rx_driver

namespace ether2ser.control_plane

variable {σ : Type} {hw : TxHardware σ}

/-- The events that wait in the queue. -/
def ControlRun.queued (run : ControlRun σ) : List Event := run.ctx.queue.events

/-- The events that have been dispatched since boot. -/
def ControlRun.dispatched (run : ControlRun σ) : List Event := run.history.reverse.map (·.event)

/-- Between two states of a run, `tries` pops have dispatched some events. What
waited in the queue goes first, in its order, and no pop passes it by. -/
structure Served (run next : ControlRun σ) (tries : Nat) (events : List Event) : Prop where
  dispatched_eq : next.dispatched = run.dispatched ++ events
  in_order : run.queued <+: events ++ next.queued
  at_most : events.length ≤ tries
  at_least : min tries run.queued.length ≤ events.length

theorem Served.refl (run : ControlRun σ) : Served run run 0 [] where
  dispatched_eq := (List.append_nil _).symm
  in_order := List.prefix_refl _
  at_most := Nat.le_refl _
  at_least := Nat.le_of_eq (Nat.zero_min _)

theorem Served.trans {run middle last : ControlRun σ} {tries tries' : Nat} {events events' : List Event}
    (h : Served run middle tries events) (h' : Served middle last tries' events') :
    Served run last (tries + tries') (events ++ events') where
  dispatched_eq := by rw [h'.dispatched_eq, h.dispatched_eq, List.append_assoc]
  in_order := by
    rw [List.append_assoc]
    exact h.in_order.trans ((List.prefix_append_right_inj events).mpr h'.in_order)
  at_most := by
    rw [List.length_append]
    exact Nat.add_le_add h.at_most h'.at_most
  at_least := by
    have hlength := h.in_order.length_le
    have hfirst := h.at_least
    have hsecond := h'.at_least
    rw [List.length_append] at hlength ⊢
    omega

/-- The pops of a step. -/
def ControlInput.tries : ControlInput σ → Nat
  | .dispatch _ => 1
  | .type _ | .cli_poll | .data_path _ => 0

/-- A step that dispatches nothing only adds lines to the queue. -/
theorem served_idle {run next : ControlRun σ} (hhistory : next.history = run.history)
    (hqueued : run.queued <+: next.queued) : Served run next 0 [] where
  dispatched_eq := by rw [ControlRun.dispatched, hhistory, List.append_nil, ControlRun.dispatched]
  in_order := hqueued
  at_most := Nat.le_refl _
  at_least := Nat.le_of_eq (Nat.zero_min _)

theorem served_step {run next : ControlRun σ} {input : ControlInput σ} (hstep : run.step hw input = some next) :
    ∃ events, Served run next input.tries events := by
  cases input with
  | type keys =>
    cases hstep
    exact ⟨[], served_idle rfl (List.prefix_refl _)⟩
  | cli_poll =>
    cases hstep
    obtain ⟨slots, hlines⟩ := appendsLines_cli_poll run.ctx.console
    exact ⟨[], served_idle rfl ⟨_, hlines.symm⟩⟩
  | data_path work =>
    cases hstep
    exact ⟨[], served_idle rfl (List.prefix_refl _)⟩
  | dispatch socket_opens =>
    unfold ControlRun.step at hstep
    cases hpop : event_queue_pop run.ctx.queue with
    | none =>
      rw [hpop] at hstep
      cases hstep
      have hempty : run.queued = [] := (event_queue_pop_eq_none_iff _).mp hpop
      refine ⟨[], (List.append_nil _).symm, List.prefix_refl _, Nat.zero_le _, ?_⟩
      rw [hempty, List.length_nil, Nat.min_zero]
    | some popped =>
      obtain ⟨event, queue⟩ := popped
      rw [hpop] at hstep
      obtain ⟨after, hafter, rfl⟩ := Option.map_eq_some_iff.mp hstep
      have hqueue : run.queued = event :: queue.events := events_of_pop hpop
      have hkept : queue.events <+: after.queue.events := (event_dispatch_effect (room_of_pop hpop) hafter).queue
      refine ⟨[event], ?_, ?_, Nat.le_refl _, Nat.min_le_left _ _⟩
      · simp only [ControlRun.dispatched, List.reverse_cons, List.map_append, List.map_cons, List.map_nil]
      · rw [hqueue]
        exact (List.prefix_append_right_inj [event]).mpr hkept

theorem served_steps {run next : ControlRun σ} {inputs : List (ControlInput σ)}
    (h : run.steps hw inputs = some next) : ∃ events, Served run next (inputs.map ControlInput.tries).sum events := by
  refine @Loop.foldlM_induction_inputs _ _ _
    (fun past later => ∃ events, Served run later (past.map ControlInput.tries).sum events) _ _ _ h
    ⟨[], .refl run⟩ ?_
  rintro past middle input later ⟨events, hserved⟩ hstep
  obtain ⟨events', hserved'⟩ := served_step hstep
  refine ⟨events ++ events', ?_⟩
  rw [List.map_append, List.sum_append, List.map_singleton, List.sum_singleton]
  exact hserved.trans hserved'

/-- An iteration pops at least twice, and twenty times at most. -/
theorem served_firmware_iteration {run next : ControlRun σ} {input : FirmwareInput}
    (h : firmware_iteration hw run input = some next) :
    ∃ tries events, EVENT_LOOP_MAX_EVENTS_WHILE_TX_ACTIVE ≤ tries ∧ tries ≤ EVENT_LOOP_MAX_EVENTS_AT_ONCE ∧
      Served run next tries events := by
  obtain ⟨polled, hpolled, hdispatch⟩ := Option.bind_eq_some_iff.mp h
  obtain ⟨events, hserved⟩ := served_steps hpolled
  obtain ⟨events', hserved'⟩ := served_steps hdispatch
  have htries : ((List.range (maxEvents polled.ctx.app)).map fun i =>
      ControlInput.dispatch (σ := σ) (input.sockets i)).map ControlInput.tries =
        List.replicate (maxEvents polled.ctx.app) 1 := by
    rw [List.map_map, List.eq_replicate_iff, List.length_map, List.length_range]
    refine ⟨rfl, fun tries hmem => ?_⟩
    obtain ⟨i, -, rfl⟩ := List.mem_map.mp hmem
    rfl
  rw [htries, List.sum_replicate_nat, Nat.mul_one] at hserved'
  refine ⟨maxEvents polled.ctx.app, events ++ events', ?_, ?_, ?_⟩
  · unfold maxEvents
    split
    · exact Nat.le_refl _
    · decide
  · unfold maxEvents
    split
    · decide
    · exact Nat.le_refl _
  · rw [← Nat.zero_add (maxEvents _)]
    exact hserved.trans hserved'

/-- Whatever arrives at the console and on the data path, the queued events are
dispatched first and in their order: two of them in every iteration at least, no
more than twenty events at all, and all that was queued within eight iterations. -/
theorem firmware_dispatches_in_order {run last : ControlRun σ} {inputs : List FirmwareInput}
    (h : firmware_run hw run inputs = some last) :
    ∃ events, last.dispatched = run.dispatched ++ events ∧ run.queued <+: events ++ last.queued ∧
      run.queued.take (EVENT_LOOP_MAX_EVENTS_WHILE_TX_ACTIVE * inputs.length) <+: events ∧
      events.length ≤ EVENT_LOOP_MAX_EVENTS_AT_ONCE * inputs.length ∧
      (8 ≤ inputs.length → run.queued <+: events) := by
  have hrun : ∃ tries events, EVENT_LOOP_MAX_EVENTS_WHILE_TX_ACTIVE * inputs.length ≤ tries ∧
      tries ≤ EVENT_LOOP_MAX_EVENTS_AT_ONCE * inputs.length ∧ Served run last tries events := by
    refine @Loop.foldlM_induction_inputs _ _ _ (fun past later => ∃ tries events,
      EVENT_LOOP_MAX_EVENTS_WHILE_TX_ACTIVE * past.length ≤ tries ∧
        tries ≤ EVENT_LOOP_MAX_EVENTS_AT_ONCE * past.length ∧ Served run later tries events) _ _ _ h
      ⟨0, [], Nat.le_refl _, Nat.le_refl _, .refl run⟩ ?_
    rintro past middle input later ⟨tries, events, hleast, hmost, hserved⟩ hstep
    obtain ⟨tries', events', hleast', hmost', hserved'⟩ := served_firmware_iteration hstep
    refine ⟨tries + tries', events ++ events', ?_, ?_, hserved.trans hserved'⟩
    · rw [List.length_append, Nat.mul_add]
      exact Nat.add_le_add hleast hleast'
    · rw [List.length_append, Nat.mul_add]
      exact Nat.add_le_add hmost hmost'
  obtain ⟨tries, events, hleast, hmost, hserved⟩ := hrun
  have hfirst : run.queued.take (EVENT_LOOP_MAX_EVENTS_WHILE_TX_ACTIVE * inputs.length) <+: events := by
    apply List.prefix_of_prefix_length_le ((List.take_prefix _ _).trans hserved.in_order) (List.prefix_append _ _)
    have henough := hserved.at_least
    rw [List.length_take]
    omega
  refine ⟨events, hserved.dispatched_eq, hserved.in_order, hfirst, hserved.at_most.trans hmost, fun height => ?_⟩
  have hcapacity : run.queued.length < EVENT_QUEUE_CAPACITY := length_events_lt run.ctx.queue
  rwa [List.take_of_length_le] at hfirst
  simp only [EVENT_QUEUE_CAPACITY, EVENT_LOOP_MAX_EVENTS_WHILE_TX_ACTIVE] at hcapacity ⊢
  omega

/-- Three events wait while a datagram comes in. -/
def threeQueued : ControlRun Unit where
  ctx := (((boot Config.zero ()).push .EV_STATUS).push .EV_MEM).push .EV_SAVE_CONFIG
  history := []

def oneIteration : List FirmwareInput :=
  [{ keys := [], data := { LoopInput.idle with datagram := some [2] }, sockets := fun _ => true }]

theorem oneIteration_returns : (firmware_run idleTx threeQueued oneIteration).isSome = true := by
  decide +kernel

theorem firmware_dispatches_in_order_three :
    ∃ events, (Option.get _ oneIteration_returns).dispatched = events ∧ [.EV_STATUS, .EV_MEM] <+: events := by
  have hqueued : threeQueued.queued.take (EVENT_LOOP_MAX_EVENTS_WHILE_TX_ACTIVE * oneIteration.length) =
      [.EV_STATUS, .EV_MEM] := by
    decide +kernel
  obtain ⟨events, hdispatched, -, hfirst, -⟩ :=
    firmware_dispatches_in_order (Option.some_get oneIteration_returns).symm
  rw [hqueued] at hfirst
  exact ⟨events, hdispatched, hfirst⟩

end ether2ser.control_plane
