import Mathlib.Algebra.Order.BigOperators.Group.List
import Mathlib.Algebra.Order.Ring.Nat
import Ether2Ser.Drivers.TxQueue.Progress
import Ether2Ser.System.EventLoop.Transmit

open ether2ser.error ether2ser.hdlc_common ether2ser.hdlc_encoder ether2ser.pio_tx_rx_driver ether2ser.tx_queue

namespace ether2ser.event_loop

variable {σ : Type} {hw : TxHardware σ} {flows : σ → Prop} {due cycles : σ → Nat} {byteCycles : Nat}

/-- The bytes that a queue still has to hand over, at most. -/
def outstanding (queue : TxQueue) : Nat :=
  queue.current_entry.frame.length + queue.queue_buffer.count * TX_FRAME_MAX_SIZE_BYTE

/-- The queue and the driver of a transmit half with the frames of the accepted
datagrams. -/
def TxHalf.framesWorld (half : TxHalf σ) (accepted : List (List UInt8)) : TxWorld σ :=
  half.txWorld (accepted.map (encodedFrame true))

/-- The transmit half before its drain, and behind it. -/
def TxHalf.polled (half : TxHalf σ) (accepted : List (List UInt8)) : TxWorld σ :=
  { half.framesWorld accepted with queue := poll_queue_stats half.tx_queue }

def TxHalf.drained (hw : TxHardware σ) (half : TxHalf σ) (accepted : List (List UInt8)) : TxWorld σ :=
  (half.polled accepted).drain hw TX_QUEUE_DRAIN_CHUNK_SIZE

section

variable {half : TxHalf σ} {accepted : List (List UInt8)}

theorem polled_eq (half : TxHalf σ) (accepted : List (List UInt8)) :
    ∃ queue_touched, half.polled accepted =
      { half.framesWorld accepted with queue := { half.tx_queue with queue_touched } } := by
  unfold TxHalf.polled tx_queue.poll_queue_stats
  simp only
  split <;> exact ⟨_, rfl⟩

/-- The end of the transmit half changes nothing that is to be sent, and nothing
at all while the queue is busy. -/
theorem framesWorld_poll (hw : TxHardware σ) (half : TxHalf σ) (accepted : List (List UInt8)) :
    ∃ driver, (half.poll hw).framesWorld accepted = { half.drained hw accepted with driver } ∧
      (driver = (half.drained hw accepted).driver ∨
        driver = (tx_poll hw ((half.drained hw accepted).driver.elapse hw)).2 ∧
          tx_queue_is_empty (half.drained hw accepted).queue = true) := by
  unfold TxHalf.poll poll_tx_pipeline TxHalf.drained TxWorld.drain
  simp only [TxHalf.polled, TxHalf.framesWorld, TxHalf.txWorld]
  split
  · rename_i hempty
    exact ⟨_, rfl, .inr ⟨rfl, hempty⟩⟩
  · exact ⟨_, rfl, .inl rfl⟩

theorem bytesLeft_poll (hw : TxHardware σ) (half : TxHalf σ) (accepted : List (List UInt8)) (count : Nat) :
    ((half.poll hw).framesWorld accepted).bytesLeft count = (half.drained hw accepted).bytesLeft count := by
  obtain ⟨driver, hworld, -⟩ := framesWorld_poll hw half accepted
  rw [hworld]
  rfl

theorem drain_chunk_pos : 0 < TX_QUEUE_DRAIN_CHUNK_SIZE := by decide

theorem toggle_seq_tx_poll (driver : TxDriver σ) :
    tx_clock_get_cts_toggle_seq (tx_poll hw driver).2 = tx_clock_get_cts_toggle_seq driver := by
  unfold tx_poll
  simp only
  split_ifs <;> rfl

theorem uninterrupted_poll (hhw : Flows hw flows due cycles byteCycles)
    (hflows : flows (half.drained hw accepted).driver.pio) (hsteady : Uninterrupted (half.drained hw accepted)) :
    Uninterrupted ((half.poll hw).framesWorld accepted) := by
  obtain ⟨driver, hworld, hdriver⟩ := framesWorld_poll hw half accepted
  have hseq : tx_clock_get_cts_toggle_seq driver = tx_clock_get_cts_toggle_seq (half.drained hw accepted).driver := by
    rcases hdriver with rfl | ⟨rfl, -⟩
    · rfl
    · exact (toggle_seq_tx_poll _).trans (hhw.toggle_seq_elapse hflows)
  rw [hworld]
  intro hpos hlt
  exact hseq.trans (hsteady hpos hlt)

/-- An iteration up to the throttle. -/
theorem Forwards.proceeds_poll (h : Forwards (fun driver => flows driver.pio) half accepted)
    (hhw : Flows hw flows due cycles byteCycles) (hsteady : Uninterrupted (half.framesWorld accepted)) (count : Nat) :
    Uninterrupted ((half.poll hw).framesWorld accepted) ∧
      Proceeds due cycles count (half.framesWorld accepted) ((half.poll hw).framesWorld accepted) := by
  obtain ⟨completed, waiting, done, tried, segment, hhandover⟩ := h.handover
  obtain ⟨queue_touched, hpolled⟩ := polled_eq half accepted
  have haccounts : Accounts (half.polled accepted) completed waiting := hhandover.poll_queue_stats.accounts
  have hagain : Uninterrupted (half.polled accepted) := by
    rw [hpolled]
    exact hsteady
  have hleft : (half.polled accepted).bytesLeft count = (half.framesWorld accepted).bytesLeft count := by
    rw [hpolled]
    rfl
  have hpoll := bytesLeft_poll hw half accepted count
  obtain ⟨hdrained, hproceeds⟩ := haccounts.drain_proceeds hhw h.driver hagain drain_chunk_pos count
  change Proceeds due cycles count (half.polled accepted) (half.drained hw accepted) at hproceeds
  refine ⟨uninterrupted_poll hhw (hhw.invariant.drain _ _ h.driver) hdrained, ?_⟩
  cases hproceeds with
  | finishes hfinished => exact .finishes (hpoll.trans hfinished)
  | sends hsent => exact .sends (by rw [hpoll, ← hleft]; exact hsent)
  | waits hsame hbusy hcloser =>
    obtain ⟨driver, hworld, hdriver⟩ := framesWorld_poll hw half accepted
    have hkept : driver = (half.drained hw accepted).driver := by
      rcases hdriver with hkept | ⟨-, hempty⟩
      · exact hkept
      · rw [hbusy] at hempty
        cases hempty
    refine .waits (hpoll.trans (hsame.trans hleft)) ?_ ?_
    · rw [hworld]
      exact hbusy
    · rw [hworld, hkept]
      exact hcloser

/-- The waiting frames fit their entries. -/
theorem Forwards.outstanding_le {invariant : TxDriver σ → Prop} (h : Forwards invariant half accepted)
    {completed waiting : List (List UInt8)} (haccounts : Accounts (half.framesWorld accepted) completed waiting) :
    (half.tx_queue.unsent ++ waiting).flatten.length ≤ outstanding half.tx_queue := by
  have hfits : ∀ frame ∈ waiting, frame.length ≤ TX_FRAME_MAX_SIZE_BYTE := by
    intro frame hmem
    have henqueued : frame ∈ accepted.map (encodedFrame true) := by
      rw [show accepted.map (encodedFrame true) = _ from haccounts.enqueued_eq]
      exact List.mem_append_right _ (List.mem_append_right _ hmem)
    obtain ⟨payload, hpayload, rfl⟩ := List.mem_map.mp henqueued
    exact h.fits payload hpayload
  have hwaiting : waiting.flatten.length ≤ half.tx_queue.queue_buffer.count * TX_FRAME_MAX_SIZE_BYTE := by
    rw [show half.tx_queue.queue_buffer.count = waiting.length from haccounts.keeps.count_eq, List.length_flatten]
    have hsum := List.sum_le_card_nsmul (waiting.map List.length) TX_FRAME_MAX_SIZE_BYTE (by
      intro length hmem
      obtain ⟨frame, hframe, rfl⟩ := List.mem_map.mp hmem
      exact hfits frame hframe)
    rw [List.length_map] at hsum
    exact hsum
  have hcurrent : half.tx_queue.unsent.flatten.length ≤ half.tx_queue.current_entry.frame.length := by
    unfold TxQueue.unsent
    split
    · rw [List.flatten_singleton]
      exact Nat.le_refl _
    · exact Nat.zero_le _
  rw [List.flatten_append, List.length_append, outstanding]
  omega

/-- Whatever has happened before, an iteration up to the throttle leaves the
transmit half in step with CTS, with no more to send than before. -/
theorem Forwards.settles_poll (h : Forwards (fun driver => flows driver.pio) half accepted)
    (hhw : Flows hw flows due cycles byteCycles) (count : Nat) :
    Uninterrupted ((half.poll hw).framesWorld accepted) ∧
      ((half.poll hw).framesWorld accepted).bytesLeft count ≤ outstanding half.tx_queue := by
  obtain ⟨completed, waiting, done, tried, segment, hhandover⟩ := h.handover
  obtain ⟨queue_touched, hpolled⟩ := polled_eq half accepted
  have haccounts : Accounts (half.polled accepted) completed waiting := hhandover.poll_queue_stats.accounts
  have hunsent : (half.polled accepted).queue.unsent = half.tx_queue.unsent := by
    rw [hpolled]
    rfl
  obtain ⟨hdrained, hleft⟩ := haccounts.drain_settles hhw h.driver drain_chunk_pos count
  refine ⟨uninterrupted_poll hhw (hhw.invariant.drain _ _ h.driver) hdrained, ?_⟩
  rw [hunsent] at hleft
  rw [bytesLeft_poll]
  exact hleft.trans (h.outstanding_le hhandover.accounts)

theorem framesWorld_enqueue {waiting : List (List UInt8)} (hkeeps : Keeps half.tx_queue waiting)
    (payload : List UInt8) :
    (half.enqueue payload).framesWorld (accepted ++
        if (half.enqueue payload).enqueue_results = half.enqueue_results ++ [.E2S_OK] then [payload] else []) =
      (half.framesWorld accepted).enqueue payload := by
  unfold TxHalf.enqueue TxWorld.enqueue TxHalf.framesWorld TxHalf.txWorld
  obtain ⟨queue, hok, hencode, -⟩ | ⟨error, hne, herror, -⟩ := hkeeps.enqueue payload
  · simp only [hok, hencode, if_true, List.map_append, List.map_singleton]
    rfl
  · simp only [herror]
    rw [if_neg (by simpa using hne), List.append_nil]

/-- An accepted datagram waits behind everything accepted before it. -/
theorem Forwards.keeps_enqueue {invariant : TxDriver σ → Prop} (h : Forwards invariant half accepted)
    (payload : List UInt8) {count : Nat} (hcount : count ≤ accepted.length) :
    let next := (half.framesWorld accepted).enqueue payload
    next.driver = half.driver ∧ (Uninterrupted (half.framesWorld accepted) → Uninterrupted next) ∧
      next.bytesLeft count = (half.framesWorld accepted).bytesLeft count := by
  obtain ⟨completed, waiting, done, tried, segment, hhandover⟩ := h.handover
  have haccounts : Accounts (half.framesWorld accepted) completed waiting := hhandover.accounts
  obtain ⟨⟨waiting', hnext⟩, hdriver, hentry, -, hstart⟩ := haccounts.enqueue payload
  have hprefix : ((half.framesWorld accepted).enqueue payload).enqueued.take count =
      (half.framesWorld accepted).enqueued.take count := by
    have hlength : count ≤ (half.framesWorld accepted).enqueued.length := by
      simpa [TxHalf.framesWorld, TxHalf.txWorld] using hcount
    obtain ⟨queue, hworld, -⟩ | hworld := haccounts.keeps.world_enqueue payload
    · rw [hworld]
      exact List.take_append_of_le_length hlength
    · rw [hworld]
  refine ⟨hdriver, ?_, ?_⟩
  · intro hsteady hpos hlt
    rw [hentry] at hpos hlt
    rw [hdriver, hstart]
    exact hsteady hpos hlt
  · rw [TxWorld.bytesLeft, TxWorld.bytesLeft, hnext.completedCount_eq, haccounts.completedCount_eq, hprefix, hentry]

/-- The datagram of an iteration changes nothing for the frames before it. -/
theorem Forwards.keeps_serve (h : Forwards (fun driver => flows driver.pio) half accepted)
    (hhw : Flows hw flows due cycles byteCycles) (datagram : Option (List UInt8)) {count : Nat}
    (hcount : count ≤ accepted.length) :
    let next := (half.serve hw datagram).framesWorld (accepted ++
      if (half.serve hw datagram).enqueue_results = half.enqueue_results ++ [.E2S_OK] then datagram.toList else [])
    next.driver = (half.poll hw).driver ∧
      (Uninterrupted ((half.poll hw).framesWorld accepted) → Uninterrupted next) ∧
      next.bytesLeft count = ((half.poll hw).framesWorld accepted).bytesLeft count := by
  have hpoll := h.poll hhw.invariant
  have hresults : (half.poll hw).enqueue_results = half.enqueue_results := rfl
  have hleft : ¬ half.enqueue_results = half.enqueue_results ++ [.E2S_OK] := by simp
  unfold TxHalf.serve
  rw [← hresults] at hleft ⊢
  generalize half.poll hw = polled at hpoll hleft
  by_cases hthrottled : polled.udp_rx_throttled = true
  · simp only [hthrottled, if_true]
    rw [if_neg hleft, List.append_nil]
    exact ⟨rfl, id, rfl⟩
  · simp only [hthrottled, Bool.false_eq_true, if_false]
    cases datagram with
    | none =>
      rw [Option.elim_none, if_neg hleft, List.append_nil]
      exact ⟨rfl, id, rfl⟩
    | some payload =>
      obtain ⟨completed, waiting, done, tried, segment, hhandover⟩ := hpoll.handover
      rw [Option.elim_some, Option.toList_some, framesWorld_enqueue hhandover.accounts.keeps payload]
      exact hpoll.keeps_enqueue payload hcount

end

/-- In every iteration, the state machine runs for so many cycles at least. -/
def KeepsRunning (hw : TxHardware σ) (cycles : σ → Nat) (pace : Nat) (state : LoopState σ) : List LoopInput → Prop
  | [] => True
  | input :: inputs =>
    let next := event_loop_iteration hw state input
    cycles state.app.driver.pio + pace ≤ cycles next.app.driver.pio ∧ KeepsRunning hw cycles pace next inputs

instance decidableKeepsRunning (hw : TxHardware σ) (cycles : σ → Nat) (pace : Nat) :
    (state : LoopState σ) → (inputs : List LoopInput) → Decidable (KeepsRunning hw cycles pace state inputs)
  | _, [] => isTrue trivial
  | state, input :: inputs =>
    have := decidableKeepsRunning hw cycles pace (event_loop_iteration hw state input) inputs
    inferInstanceAs (Decidable (_ ∧ _))

/-- The iterations in which the FIFO has room for a byte at the latest. -/
def byteIterations (byteCycles pace : Nat) : Nat := (byteCycles - 1) / pace + 1

/-- The first frames are handed over within so many iterations. -/
def CompletesWithin (due : σ → Nat) (byteCycles pace count iterations : Nat) (world : TxWorld σ) : Prop :=
  world.bytesLeft count = 0 ∨
    byteIterations byteCycles pace * world.bytesLeft count + (due world.driver.pio - 1) / pace < iterations

theorem CompletesWithin.next {pace count iterations : Nat} {world next : TxWorld σ}
    (h : CompletesWithin due byteCycles pace count (iterations + 1) world)
    (hhw : Flows hw flows due cycles byteCycles) (hflows : flows next.driver.pio) (hpace : 0 < pace)
    (hruns : cycles world.driver.pio + pace ≤ cycles next.driver.pio)
    (hproceeds : Proceeds due cycles count world next) :
    CompletesWithin due byteCycles pace count iterations next := by
  cases hproceeds with
  | finishes hleft => exact .inl hleft
  | sends hleft =>
    have hsome := h.resolve_left (Nat.ne_zero_of_lt hleft)
    have hround := Nat.mul_le_mul_left (byteIterations byteCycles pace) (Nat.succ_le_of_lt hleft)
    have hdue := Nat.div_le_div_right (c := pace) (Nat.sub_le_sub_right (hhw.due_le hflows) 1)
    rw [Nat.mul_succ] at hround
    right
    generalize (due world.driver.pio - 1) / pace = before at hsome
    unfold byteIterations at *
    omega
  | waits hleft hbusy hcloser =>
    rcases h with hnone | hsome
    · exact .inl (hleft.trans hnone)
    · have hpos := hhw.due_pos next.driver.pio
      have hdue : (due next.driver.pio - 1) / pace + 1 ≤ (due world.driver.pio - 1) / pace := by
        rw [← Nat.add_div_right _ hpace]
        exact Nat.div_le_div_right (by omega)
      right
      rw [hleft]
      omega

/-- The first frames are on their way. -/
structure OnTheWay (flows : σ → Prop) (due : σ → Nat) (byteCycles pace count iterations : Nat) (half : TxHalf σ)
    (accepted : List (List UInt8)) : Prop where
  forwards : Forwards (fun driver => flows driver.pio) half accepted
  steady : Uninterrupted (half.framesWorld accepted)
  within : CompletesWithin due byteCycles pace count iterations (half.framesWorld accepted)
  count_le : count ≤ accepted.length

theorem OnTheWay.serve {pace count iterations : Nat} {half : TxHalf σ} {accepted : List (List UInt8)}
    (h : OnTheWay flows due byteCycles pace count (iterations + 1) half accepted)
    (hhw : Flows hw flows due cycles byteCycles) (hpace : 0 < pace) (datagram : Option (List UInt8))
    (hruns : cycles half.driver.pio + pace ≤ cycles (half.serve hw datagram).driver.pio) :
    OnTheWay flows due byteCycles pace count iterations (half.serve hw datagram)
      (accepted ++
        if (half.serve hw datagram).enqueue_results = half.enqueue_results ++ [.E2S_OK] then datagram.toList
        else []) := by
  have hserved := h.forwards.serve hhw.invariant datagram
  obtain ⟨hsteady, hproceeds⟩ := h.forwards.proceeds_poll hhw h.steady count
  obtain ⟨hdriver, hkeeps, hleft⟩ := h.forwards.keeps_serve hhw datagram h.count_le
  have hdriver' : (half.serve hw datagram).driver = (half.poll hw).driver := hdriver
  have hflows : flows (half.poll hw).driver.pio := (h.forwards.poll hhw.invariant).driver
  rw [hdriver'] at hruns
  have hnext : CompletesWithin due byteCycles pace count iterations ((half.poll hw).framesWorld accepted) :=
    h.within.next hhw hflows hpace hruns hproceeds
  refine ⟨hserved, hkeeps hsteady, ?_, ?_⟩
  · unfold CompletesWithin at hnext ⊢
    rw [hleft, hdriver]
    exact hnext
  · rw [List.length_append]
    exact h.count_le.trans (Nat.le_add_right _ _)

/-- The first iteration puts everything accepted before it on its way. -/
theorem Forwards.onTheWay {pace : Nat} {half : TxHalf σ} {accepted : List (List UInt8)}
    (h : Forwards (fun driver => flows driver.pio) half accepted) (hhw : Flows hw flows due cycles byteCycles)
    (datagram : Option (List UInt8)) :
    OnTheWay flows due byteCycles pace accepted.length
      (byteIterations byteCycles pace * (outstanding half.tx_queue + 1)) (half.serve hw datagram)
      (accepted ++
        if (half.serve hw datagram).enqueue_results = half.enqueue_results ++ [.E2S_OK] then datagram.toList
        else []) := by
  have hserved := h.serve hhw.invariant datagram
  obtain ⟨hsteady, hbound⟩ := h.settles_poll hhw accepted.length
  obtain ⟨hdriver, hkeeps, hleft⟩ := h.keeps_serve hhw datagram (Nat.le_refl accepted.length)
  have hdue := Nat.div_le_div_right (c := pace) (Nat.sub_le_sub_right (hhw.due_le hserved.driver) 1)
  have hrounds := Nat.mul_le_mul_left (byteIterations byteCycles pace) hbound
  refine ⟨hserved, hkeeps hsteady, .inr ?_, ?_⟩
  · rw [hleft, Nat.mul_succ]
    unfold byteIterations at *
    change _ + (due (half.serve hw datagram).driver.pio - 1) / pace < _
    omega
  · rw [List.length_append]
    exact Nat.le_add_right _ _

/-- What the transmit half does along a run of the loop. -/
theorem OnTheWay.run {pace count iterations : Nat} {state : LoopState σ} {accepted : List (List UInt8)}
    (h : OnTheWay flows due byteCycles pace count iterations state.txHalf accepted)
    (hhw : Flows hw flows due cycles byteCycles) (hpace : 0 < pace) {inputs : List LoopInput}
    (hkeeps : ∀ input ∈ inputs, KeepsSettings input.events) (hruns : KeepsRunning hw cycles pace state inputs)
    (henough : iterations ≤ inputs.length + 1) :
    Forwards (fun driver => flows driver.pio) (event_loop_run hw state inputs).txHalf
        (accepted ++ acceptedDatagrams hw state inputs) ∧
      count ≤ (accepted ++ acceptedDatagrams hw state inputs).length ∧
      ((event_loop_run hw state inputs).txHalf.framesWorld (accepted ++ acceptedDatagrams hw state inputs)).bytesLeft
        count = 0 := by
  induction inputs generalizing state accepted iterations with
  | nil =>
    rw [acceptedDatagrams, List.append_nil]
    refine ⟨h.forwards, h.count_le, ?_⟩
    rcases h.within with hnone | hsome
    · exact hnone
    · rw [List.length_nil] at henough
      generalize (due (state.txHalf.framesWorld accepted).driver.pio - 1) / pace = waited at hsome
      have hzero : byteIterations byteCycles pace * (state.txHalf.framesWorld accepted).bytesLeft count = 0 := by omega
      exact (Nat.mul_eq_zero.mp hzero).resolve_left (Nat.succ_ne_zero _)
  | cons input inputs ih =>
    have hiteration := @txHalf_event_loop_iteration σ hw state input (hkeeps input List.mem_cons_self)
    have hrun : cycles state.txHalf.driver.pio + pace ≤ cycles (state.txHalf.serve hw input.datagram).driver.pio := by
      rw [← hiteration]
      exact hruns.1
    have hmore : OnTheWay flows due byteCycles pace count (iterations - 1 + 1) state.txHalf accepted :=
      { h with within := h.within.imp id fun hsome => hsome.trans_le (by omega) }
    have hserved := hmore.serve hhw hpace input.datagram hrun
    rw [← hiteration] at hserved
    rw [acceptedDatagrams, ← List.append_assoc]
    rw [List.length_cons] at henough
    exact ih hserved (fun later hmem => hkeeps later (List.mem_cons_of_mem _ hmem)) hruns.2 (by omega)

/-- Enough iterations hand over everything accepted before them. -/
theorem Forwards.completes {pace : Nat} {state : LoopState σ} {accepted : List (List UInt8)}
    (h : Forwards (fun driver => flows driver.pio) state.txHalf accepted)
    (hhw : Flows hw flows due cycles byteCycles) (hpace : 0 < pace) {inputs : List LoopInput}
    (hkeeps : ∀ input ∈ inputs, KeepsSettings input.events) (hruns : KeepsRunning hw cycles pace state inputs)
    (henough : byteIterations byteCycles pace * (outstanding state.app.tx_queue + 1) ≤ inputs.length) :
    ∃ log rest, (event_loop_run hw state inputs).app.driver.trace = log ++ rest ∧
      HandedOver (accepted.map (encodedFrame true)) log := by
  cases inputs with
  | nil =>
    have hpos : 0 < byteIterations byteCycles pace * (outstanding state.app.tx_queue + 1) :=
      Nat.mul_pos (Nat.succ_pos _) (Nat.succ_pos _)
    exact absurd henough (Nat.not_le_of_lt hpos)
  | cons input inputs =>
    have hiteration := @txHalf_event_loop_iteration σ hw state input (hkeeps input List.mem_cons_self)
    have hserved := @Forwards.onTheWay σ hw flows due cycles byteCycles pace _ _ h hhw input.datagram
    rw [← hiteration] at hserved
    obtain ⟨hforwards, hcount, hleft⟩ :=
      hserved.run hhw hpace (fun later hmem => hkeeps later (List.mem_cons_of_mem _ hmem)) hruns.2 henough
    obtain ⟨completed, waiting, done, tried, segment, hhandover⟩ := hforwards.handover
    obtain ⟨log, rest, htrace, hfirst⟩ := hhandover.handed_of_bytesLeft
      (show accepted.length ≤ _ from hcount.trans (List.length_map _).ge) hleft
    refine ⟨log, rest, htrace, ?_⟩
    change HandedOver (((accepted ++ _ ++ _).map (encodedFrame true)).take accepted.length) log at hfirst
    rwa [List.append_assoc, List.map_append, List.take_left' (List.length_map _)] at hfirst

/-- No accepted datagram waits forever: from any point of a run of the loop at which
CTS stays high, with a state machine that runs in every iteration and no change of a
setting of the serial port, everything accepted so far is handed over in a number of
iterations bounded by what is outstanding, whatever else is accepted meanwhile. -/
theorem accepted_datagrams_complete (v24_config : V24Config) (tx_rts_holdoff_us : Nat) (cts : Bool)
    (schedule : List (Nat × List Bool)) {past later : List LoopInput}
    (hpast : ∀ input ∈ past, KeepsSettings input.events)
    (hlater : ∀ input ∈ later, KeepsSettings input.events) {pace : Nat} (hpace : 0 < pace)
    (hcts : (event_loop_run tckHardware (.boot v24_config tx_rts_holdoff_us (.boot cts schedule))
      past).app.driver.pio.CtsStays)
    (hruns : KeepsRunning tckHardware TckLine.cycles pace
      (event_loop_run tckHardware (.boot v24_config tx_rts_holdoff_us (.boot cts schedule)) past) later)
    (henough : byteIterations tckByteCycles pace *
        (outstanding (event_loop_run tckHardware (.boot v24_config tx_rts_holdoff_us (.boot cts schedule))
          past).app.tx_queue + 1) ≤ later.length) :
    ∃ log rest,
      (event_loop_run tckHardware (.boot v24_config tx_rts_holdoff_us (.boot cts schedule))
        (past ++ later)).app.driver.trace = log ++ rest ∧
      HandedOver ((acceptedDatagrams tckHardware (.boot v24_config tx_rts_holdoff_us (.boot cts schedule)) past).map
        (encodedFrame true)) log := by
  have hboot : TckRuns (TckLine.boot cts schedule).tx := ⟨Nat.zero_le 4, Nat.zero_le 1, Nat.zero_le 4⟩
  have hforwards := (@forwards_boot TckLine (fun driver => TckRuns driver.pio.tx) v24_config tx_rts_holdoff_us
    (.boot cts schedule) hboot).run tckRuns_invariant hpast
  rw [List.nil_append] at hforwards
  rw [event_loop_run, List.foldl_append]
  exact Forwards.completes { hforwards with driver := ⟨hforwards.driver, hcts⟩ } flows_tckHardware hpace hlater hruns
    henough

/-- A datagram of which two bytes are left, and seven iterations of 64 cycles. -/
def twoBytesLeft : List LoopInput := [{ LoopInput.idle with datagram := some [2, 3] }, .idle]

def slowIterations : List (Nat × List Bool) := List.replicate 9 (0, []) ++ List.replicate 20 (0, List.replicate 32 true)

theorem accepted_datagrams_complete_two_bytes :
    ∃ log rest,
      (event_loop_run tckHardware (.boot { baudrate := 9600, external_clock := false } 4305 (.boot true slowIterations))
        (twoBytesLeft ++ List.replicate 7 .idle)).app.driver.trace = log ++ rest ∧
      HandedOver ((acceptedDatagrams tckHardware
        (.boot { baudrate := 9600, external_clock := false } 4305 (.boot true slowIterations)) twoBytesLeft).map
          (encodedFrame true)) log :=
  @accepted_datagrams_complete { baudrate := 9600, external_clock := false } 4305 true slowIterations twoBytesLeft
    (List.replicate 7 .idle) (by decide) (by decide) 64 (by decide) (by decide +kernel) (by decide +kernel)
    (by decide +kernel)

end ether2ser.event_loop
