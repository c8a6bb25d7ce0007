import Ether2Ser.Drivers.TxQueue.Wire

open ether2ser.pio_tx_rx_driver ether2ser.tx_queue

namespace ether2ser.event_loop

def TX_QUEUE_DRAIN_CHUNK_SIZE : Nat := 32

variable {σ : Type} {hw : TxHardware σ}

/-- The transmit part of a loop iteration: `tx_poll` runs only while the queue has
nothing left to hand over. -/
def poll_tx_pipeline (hw : TxHardware σ) (queue : TxQueue) (driver : TxDriver σ) : Nat × TxQueue × TxDriver σ :=
  let (bytes_drained, queue, driver) := tx_queue_drain hw (poll_queue_stats queue) TX_QUEUE_DRAIN_CHUNK_SIZE driver
  if tx_queue_is_empty queue then (bytes_drained, queue, (tx_poll hw (driver.elapse hw)).2)
  else (bytes_drained, queue, driver)

/-- Steps of the transmit side: datagrams enter the queue between iterations. -/
inductive PipelineAction where
  | enqueue (payload : List UInt8)
  | iterate
  | elapse
  deriving DecidableEq, Repr

def pipelineStep (hw : TxHardware σ) (world : TxWorld σ) : PipelineAction → TxWorld σ
  | .enqueue payload => world.enqueue payload
  | .iterate =>
    let (_, queue, driver) := poll_tx_pipeline hw world.queue world.driver
    { world with queue, driver }
  | .elapse => world.elapse hw

def pipelineRun (hw : TxHardware σ) (world : TxWorld σ) (actions : List PipelineAction) : TxWorld σ :=
  actions.foldl (pipelineStep hw) world

/-- Whenever RTS is lowered, the hold-off has passed since every byte accepted
before. -/
def HoldoffKept (tx_rts_holdoff_us : Nat) (trace : List TxEvent) : Prop :=
  ∀ before lowered_us after, trace = before ++ .rts false lowered_us :: after →
    ∀ byte put_us, .put byte put_us ∈ before → put_us + tx_rts_holdoff_us ≤ lowered_us

/-- The last hold-off armed is not followed by an accepted byte. -/
def quietSinceHoldoff (trace : List TxEvent) : Bool :=
  trace.foldl (fun quiet event =>
    match event with
    | .holdoff _ => true
    | .put .. => false
    | _ => quiet) false

/-- `tx_poll` finds RTS up, a hold-off pending and the FIFO run dry only if no
byte was accepted since that hold-off was armed. -/
def PollSettled (hw : TxHardware σ) (driver : TxDriver σ) : Prop :=
  driver.v24_runtime.rts_set = true → driver.deassert_pending = true →
    (hw.pio_sm_is_tx_fifo_empty driver.pio || hw.txstall driver.pio) = true → quietSinceHoldoff driver.trace = true

/-- The poll of the next iteration, if it has one, is settled. -/
def IterationSettled (hw : TxHardware σ) (world : TxWorld σ) : Prop :=
  let drained := tx_queue_drain hw (poll_queue_stats world.queue) TX_QUEUE_DRAIN_CHUNK_SIZE world.driver
  tx_queue_is_empty drained.2.1 = true → PollSettled hw (drained.2.2.elapse hw)

instance (driver : TxDriver σ) : Decidable (PollSettled hw driver) := inferInstanceAs (Decidable (_ → _ → _ → _))

instance (world : TxWorld σ) : Decidable (IterationSettled hw world) := inferInstanceAs (Decidable (_ → _))

/-- Every iteration of the run is settled. -/
def SettledRun (hw : TxHardware σ) (world : TxWorld σ) : List PipelineAction → Prop
  | [] => True
  | action :: actions =>
    (action = .iterate → IterationSettled hw world) ∧ SettledRun hw (pipelineStep hw world action) actions

/-- What the driver remembers of the bytes it accepted: none is in the future,
RTS was never lowered too early, and a pending deadline covers them all as long
as none came after it was set. -/
structure HoldoffInvariant (driver : TxDriver σ) : Prop where
  past : ∀ byte put_us, .put byte put_us ∈ driver.trace → put_us ≤ driver.now_us
  kept : HoldoffKept driver.v24_runtime.tx_rts_holdoff_us driver.trace
  covered : driver.deassert_pending = true → quietSinceHoldoff driver.trace = true →
    ∀ byte put_us, .put byte put_us ∈ driver.trace →
      put_us + driver.v24_runtime.tx_rts_holdoff_us ≤ driver.deassert_deadline_us

/-- A stretch of the driver's run without a poll. -/
structure Passes (driver driver' : TxDriver σ) (events : List TxEvent) : Prop where
  trace_eq : driver'.trace = driver.trace ++ events
  no_lowering : ∀ lowered_us, .rts false lowered_us ∉ events
  no_arming : ∀ armed_us, .holdoff armed_us ∉ events
  puts_le : ∀ byte put_us, .put byte put_us ∈ events → put_us ≤ driver'.now_us
  now_le : driver.now_us ≤ driver'.now_us
  pending_eq : driver'.deassert_pending = driver.deassert_pending
  deadline_eq : driver'.deassert_deadline_us = driver.deassert_deadline_us
  holdoff_eq : driver'.v24_runtime.tx_rts_holdoff_us = driver.v24_runtime.tx_rts_holdoff_us

theorem Passes.refl (driver : TxDriver σ) : Passes driver driver [] where
  trace_eq := (List.append_nil _).symm
  no_lowering := by simp
  no_arming := by simp
  puts_le := by simp
  now_le := Nat.le_refl _
  pending_eq := rfl
  deadline_eq := rfl
  holdoff_eq := rfl

theorem Passes.trans {first second third : TxDriver σ} {events others : List TxEvent} (h : Passes first second events)
    (hnext : Passes second third others) : Passes first third (events ++ others) where
  trace_eq := by rw [hnext.trace_eq, h.trace_eq, List.append_assoc]
  no_lowering lowered_us := by
    rw [List.mem_append, not_or]
    exact ⟨h.no_lowering lowered_us, hnext.no_lowering lowered_us⟩
  no_arming armed_us := by
    rw [List.mem_append, not_or]
    exact ⟨h.no_arming armed_us, hnext.no_arming armed_us⟩
  puts_le byte put_us hmem := by
    rcases List.mem_append.mp hmem with hmem | hmem
    · exact (h.puts_le byte put_us hmem).trans hnext.now_le
    · exact hnext.puts_le byte put_us hmem
  now_le := h.now_le.trans hnext.now_le
  pending_eq := hnext.pending_eq.trans h.pending_eq
  deadline_eq := hnext.deadline_eq.trans h.deadline_eq
  holdoff_eq := hnext.holdoff_eq.trans h.holdoff_eq

theorem passes_elapse (hw : TxHardware σ) (driver : TxDriver σ) :
    ∃ events, Passes driver (driver.elapse hw) events := by
  refine ⟨_, rfl, ?_, ?_, ?_, Nat.le_add_right _ _, rfl, rfl, rfl⟩
  · simp
  · simp
  · simp

theorem passes_tx_put {byte : UInt8} {accepted : Bool} {driver driver' : TxDriver σ}
    (hput : tx_put hw byte driver = (accepted, driver')) : ∃ events, Passes driver driver' events := by
  have hassert : ∃ events, Passes driver (tx_assert_rts hw driver) events := by
    unfold tx_assert_rts
    split
    · exact ⟨[], .refl _⟩
    · refine ⟨_, rfl, ?_, ?_, ?_, Nat.le_refl _, rfl, rfl, rfl⟩
      · simp
      · simp
      · simp
  obtain ⟨events, hpasses⟩ := hassert
  unfold tx_put at hput
  simp only at hput
  split at hput
  · obtain ⟨-, rfl⟩ := Prod.mk.inj hput
    exact ⟨events, hpasses⟩
  · obtain ⟨-, rfl⟩ := Prod.mk.inj hput
    refine ⟨_, hpasses.trans ⟨rfl, ?_, ?_, ?_, Nat.le_refl _, rfl, rfl, rfl⟩⟩
    · simp
    · simp
    · simp

theorem passes_putBytes {bytes : List UInt8} {sent : Nat} {driver driver' : TxDriver σ}
    (hputs : putBytes hw bytes driver = (sent, driver')) : ∃ events, Passes driver driver' events := by
  have hloop := @putBytes_induction σ hw (fun _ after => ∃ events, Passes driver after events) bytes driver
    ⟨[], .refl driver⟩
  rw [hputs] at hloop
  have hturn : ∀ before after byte accepted, (∃ events, Passes driver before events) →
      tx_put hw byte (before.elapse hw) = (accepted, after) → ∃ events, Passes driver after events := by
    rintro before after byte accepted ⟨events, hpasses⟩ hput
    obtain ⟨pause, hpause⟩ := passes_elapse hw before
    obtain ⟨others, hothers⟩ := passes_tx_put hput
    exact ⟨_, (hpasses.trans hpause).trans hothers⟩
  refine (hloop ?_ ?_).2
  · exact fun _ before after byte _ hbefore hput => hturn before after byte true hbefore hput
  · exact fun _ before after byte hbefore hput => hturn before after byte false hbefore hput

/-- A drain never polls. -/
theorem passes_drainStep {queue : TxQueue} {waiting rest : List (List UInt8)} {bytes_to_drain : Nat}
    {driver : TxDriver σ} {result : Nat × TxQueue × TxDriver σ}
    (hstep : DrainStep hw queue waiting bytes_to_drain driver result rest) :
    ∃ events, Passes driver result.2.2 events := by
  obtain ⟨pause, hpause⟩ := passes_elapse hw driver
  cases hstep with
  | restart _ =>
    obtain ⟨wait, hwait⟩ := passes_elapse hw (driver.elapse hw)
    refine ⟨_, (hpause.trans hwait).trans ⟨rfl, ?_, ?_, ?_, Nat.le_refl _, rfl, rfl, rfl⟩⟩
    · simp
    · simp
    · simp
  | idle _ _ => exact ⟨pause, hpause⟩
  | @send served rest sent driver' _ _ hputs =>
    obtain ⟨events, hevents⟩ := passes_putBytes hputs
    unfold afterFirst
    split
    · obtain ⟨last, hlast⟩ := passes_elapse hw driver'
      exact ⟨_, (hpause.trans hevents).trans hlast⟩
    · exact ⟨_, hpause.trans hevents⟩

/-- Only a lowering of RTS asks something of the trace before it. -/
theorem HoldoffKept.concat {tx_rts_holdoff_us : Nat} {trace : List TxEvent} {event : TxEvent}
    (h : HoldoffKept tx_rts_holdoff_us trace)
    (hlower : ∀ lowered_us, event = .rts false lowered_us →
      ∀ byte put_us, .put byte put_us ∈ trace → put_us + tx_rts_holdoff_us ≤ lowered_us) :
    HoldoffKept tx_rts_holdoff_us (trace ++ [event]) := by
  intro before lowered_us after hsplit
  rcases List.eq_nil_or_concat after with rfl | ⟨inner, last, rfl⟩
  · obtain ⟨rfl, hevent⟩ := List.append_inj' hsplit rfl
    exact hlower lowered_us (List.cons.inj hevent).1
  · rw [List.concat_eq_append, ← List.cons_append, ← List.append_assoc] at hsplit
    obtain ⟨hinner, -⟩ := List.append_inj' hsplit rfl
    exact h before lowered_us inner hinner

theorem HoldoffKept.append {tx_rts_holdoff_us : Nat} {trace events : List TxEvent}
    (h : HoldoffKept tx_rts_holdoff_us trace) (hnone : ∀ lowered_us, .rts false lowered_us ∉ events) :
    HoldoffKept tx_rts_holdoff_us (trace ++ events) := by
  induction events generalizing trace with
  | nil =>
    rw [List.append_nil]
    exact h
  | cons event events ih =>
    rw [List.append_cons]
    refine ih (h.concat fun lowered_us hevent => ?_)
      fun lowered_us hmem => hnone lowered_us (List.mem_cons_of_mem _ hmem)
    exact absurd (hevent ▸ List.mem_cons_self) (hnone lowered_us)

/-- Without arming, the trace is only quiet if it was and no byte came. -/
theorem quiet_of_append {trace events : List TxEvent} (hnone : ∀ armed_us, .holdoff armed_us ∉ events)
    (hquiet : quietSinceHoldoff (trace ++ events) = true) :
    quietSinceHoldoff trace = true ∧ ∀ byte put_us, .put byte put_us ∉ events := by
  induction events generalizing trace with
  | nil => exact ⟨by rwa [List.append_nil] at hquiet, fun _ _ => List.not_mem_nil⟩
  | cons event events ih =>
    rw [List.append_cons] at hquiet
    obtain ⟨hbefore, hevents⟩ := ih (fun armed_us hmem => hnone armed_us (List.mem_cons_of_mem _ hmem)) hquiet
    rw [quietSinceHoldoff, List.foldl_append] at hbefore
    cases event with
    | holdoff armed_us => exact absurd List.mem_cons_self (hnone armed_us)
    | put byte put_us => exact absurd hbefore Bool.false_ne_true
    | cts => exact ⟨hbefore, fun byte put_us hmem => by simp at hmem; exact hevents byte put_us hmem⟩
    | reset => exact ⟨hbefore, fun byte put_us hmem => by simp at hmem; exact hevents byte put_us hmem⟩
    | rts level at_us => exact ⟨hbefore, fun byte put_us hmem => by simp at hmem; exact hevents byte put_us hmem⟩

theorem HoldoffInvariant.passes {driver driver' : TxDriver σ} {events : List TxEvent} (h : HoldoffInvariant driver)
    (hpasses : Passes driver driver' events) : HoldoffInvariant driver' where
  past byte put_us hmem := by
    rw [hpasses.trace_eq] at hmem
    rcases List.mem_append.mp hmem with hmem | hmem
    · exact (h.past byte put_us hmem).trans hpasses.now_le
    · exact hpasses.puts_le byte put_us hmem
  kept := by
    rw [hpasses.trace_eq, hpasses.holdoff_eq]
    exact h.kept.append hpasses.no_lowering
  covered hpending hquiet byte put_us hmem := by
    rw [hpasses.trace_eq] at hquiet hmem
    obtain ⟨hbefore, hnone⟩ := quiet_of_append hpasses.no_arming hquiet
    rw [hpasses.holdoff_eq, hpasses.deadline_eq]
    rcases List.mem_append.mp hmem with hmem | hmem
    · exact h.covered (hpasses.pending_eq ▸ hpending) hbefore byte put_us hmem
    · exact absurd hmem (hnone byte put_us)

/-- A settled poll lowers RTS only after the hold-off. -/
theorem HoldoffInvariant.tx_poll {driver : TxDriver σ} (h : HoldoffInvariant driver)
    (hsettled : PollSettled hw driver) :
    HoldoffInvariant (tx_poll hw driver).2 := by
  unfold pio_tx_rx_driver.tx_poll
  split
  · exact ⟨h.past, h.kept, fun hpending => absurd hpending Bool.false_ne_true⟩
  · rename_i hset
    simp only
    split
    · exact ⟨h.past, h.kept, fun hpending => absurd hpending Bool.false_ne_true⟩
    · rename_i hready
      split
      · refine ⟨?_, h.kept.append (by simp), ?_⟩
        · intro byte put_us hmem
          exact h.past byte put_us (by simpa using hmem)
        · intro _ _ byte put_us hmem
          exact Nat.add_le_add_right (h.past byte put_us (by simpa using hmem)) _
      · rename_i hpending
        split
        · exact h
        · rename_i hdeadline
          have hquiet := hsettled (by simpa using hset) (by simpa using hpending)
            (by simpa only [Bool.not_eq_true', Bool.not_eq_false] using hready)
          refine ⟨?_, h.kept.concat ?_, fun hpending => absurd hpending Bool.false_ne_true⟩
          · intro byte put_us hmem
            exact h.past byte put_us (by simpa using hmem)
          · intro lowered_us hevent byte put_us hmem
            have hcovered := h.covered (by simpa using hpending) hquiet byte put_us hmem
            simp only [TxEvent.rts.injEq, true_and] at hevent
            omega

theorem tx_rts_holdoff_us_tx_poll (driver : TxDriver σ) :
    (tx_poll hw driver).2.v24_runtime.tx_rts_holdoff_us = driver.v24_runtime.tx_rts_holdoff_us := by
  unfold tx_poll
  simp only
  split_ifs <;> rfl

/-- The books of the queue and of the hold-off, at a constant hold-off time. -/
structure PipelineInvariant (tx_rts_holdoff_us : Nat) (world : TxWorld σ) : Prop where
  keeps : ∃ waiting, Keeps world.queue waiting
  holdoff : HoldoffInvariant world.driver
  holdoff_eq : world.driver.v24_runtime.tx_rts_holdoff_us = tx_rts_holdoff_us

theorem pipelineInvariant_boot (tx_rts_holdoff_us : Nat) (pio : σ) :
    PipelineInvariant tx_rts_holdoff_us (.boot tx_rts_holdoff_us pio) where
  keeps := ⟨[], keeps_tx_queue_init⟩
  holdoff :=
    { past := fun _ _ hmem => absurd hmem List.not_mem_nil
      kept := fun _ _ _ hsplit => absurd hsplit (by simp [TxWorld.boot, TxDriver.boot])
      covered := fun _ _ _ _ hmem => absurd hmem List.not_mem_nil }
  holdoff_eq := rfl

theorem PipelineInvariant.iterate {tx_rts_holdoff_us : Nat} {world : TxWorld σ}
    (h : PipelineInvariant tx_rts_holdoff_us world) (hsettled : IterationSettled hw world) :
    PipelineInvariant tx_rts_holdoff_us (pipelineStep hw world .iterate) := by
  obtain ⟨waiting, hkeeps⟩ := h.keeps
  obtain ⟨rest, hstep, hrest⟩ := @Keeps.drain σ hw _ _ hkeeps.poll_queue_stats TX_QUEUE_DRAIN_CHUNK_SIZE world.driver
  obtain ⟨events, hpasses⟩ := passes_drainStep hstep
  unfold IterationSettled at hsettled
  simp only [pipelineStep, poll_tx_pipeline]
  generalize tx_queue_drain hw (poll_queue_stats world.queue) TX_QUEUE_DRAIN_CHUNK_SIZE world.driver = result
    at hrest hpasses hsettled
  obtain ⟨bytes_drained, queue, driver⟩ := result
  have hdrained := h.holdoff.passes hpasses
  split
  · rename_i hempty
    obtain ⟨pause, hpause⟩ := passes_elapse hw driver
    refine ⟨⟨rest, hrest⟩, (hdrained.passes hpause).tx_poll (hsettled hempty), ?_⟩
    simp only
    rw [tx_rts_holdoff_us_tx_poll, hpause.holdoff_eq]
    exact hpasses.holdoff_eq.trans h.holdoff_eq
  · exact ⟨⟨rest, hrest⟩, hdrained, hpasses.holdoff_eq.trans h.holdoff_eq⟩

theorem PipelineInvariant.step {tx_rts_holdoff_us : Nat} {world : TxWorld σ} {action : PipelineAction}
    (h : PipelineInvariant tx_rts_holdoff_us world) (hsettled : action = .iterate → IterationSettled hw world) :
    PipelineInvariant tx_rts_holdoff_us (pipelineStep hw world action) := by
  cases action with
  | enqueue payload =>
    obtain ⟨waiting, hkeeps⟩ := h.keeps
    obtain ⟨queue, hworld, hnext, -⟩ | hworld := hkeeps.world_enqueue payload
    · rw [pipelineStep, hworld]
      exact ⟨⟨_, hnext⟩, h.holdoff, h.holdoff_eq⟩
    · rw [pipelineStep, hworld]
      exact h
  | iterate => exact h.iterate (hsettled rfl)
  | elapse =>
    obtain ⟨pause, hpause⟩ := passes_elapse hw world.driver
    exact ⟨h.keeps, h.holdoff.passes hpause, hpause.holdoff_eq.trans h.holdoff_eq⟩

theorem PipelineInvariant.run {tx_rts_holdoff_us : Nat} {world : TxWorld σ} {actions : List PipelineAction}
    (h : PipelineInvariant tx_rts_holdoff_us world) (hsettled : SettledRun hw world actions) :
    PipelineInvariant tx_rts_holdoff_us (pipelineRun hw world actions) := by
  induction actions generalizing world with
  | nil => exact h
  | cons action actions ih => exact ih (h.step hsettled.1) hsettled.2

/-- The RTS hold-off, over every run whose polls are settled. -/
theorem rts_holdoff_kept (hw : TxHardware σ) (tx_rts_holdoff_us : Nat) (pio : σ) (actions : List PipelineAction)
    (hsettled : SettledRun hw (.boot tx_rts_holdoff_us pio) actions) :
    HoldoffKept tx_rts_holdoff_us (pipelineRun hw (.boot tx_rts_holdoff_us pio) actions).driver.trace := by
  have hrun := (pipelineInvariant_boot tx_rts_holdoff_us pio).run hsettled
  have hkept := hrun.holdoff.kept
  rwa [hrun.holdoff_eq] at hkept

def lineWait (us : Nat) : LineInterlude := { us, cts_edges := 0, shifts := 0 }

/-- The calls that hand over a frame of five bytes, after a pause. -/
def fiveBytes (us : Nat) : List LineInterlude :=
  [lineWait us, .still, .still, .still, .still, .shift 1, .still]

/-- One frame, the hold-off armed when the line stalls, and a poll after it. -/
theorem rts_holdoff_kept_one_frame :
    HoldoffKept 200 (pipelineRun txLine (.boot 200 (.boot (fiveBytes 0 ++ [.shift 5, .still, lineWait 200])))
      [.enqueue [2], .iterate, .iterate]).driver.trace := by
  apply rts_holdoff_kept
  refine ⟨nofun, fun _ => ?_, fun _ => ?_, trivial⟩
  · decide +kernel
  · decide +kernel

/-- The hold-off armed after one frame is still pending when the next frame is
handed over, and lowers RTS right behind its last byte. -/
theorem not_rts_holdoff_kept :
    ¬∀ (tx_rts_holdoff_us : Nat) (schedule : List LineInterlude) (actions : List PipelineAction),
      HoldoffKept tx_rts_holdoff_us
        (pipelineRun txLine (.boot tx_rts_holdoff_us (.boot schedule)) actions).driver.trace := by
  intro hall
  have hkept := hall 200 (fiveBytes 0 ++ [.shift 5] ++ fiveBytes 200) [.enqueue [2], .iterate, .enqueue [2], .iterate]
  have hearly := hkept ([.rts true 0] ++ [126, 2, 193, 178, 126].map (.put · 0) ++ [.holdoff 0] ++
    [126, 2, 193, 178, 126].map (.put · 200)) 200 [] (by decide +kernel) 126 200 (by decide)
  omega

end ether2ser.event_loop
