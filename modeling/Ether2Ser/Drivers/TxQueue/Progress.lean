import Ether2Ser.Drivers.TxQueue.Handover

open ether2ser.error ether2ser.hdlc ether2ser.hdlc_common ether2ser.pio_tx_rx_driver

namespace ether2ser.tx_queue

variable {σ : Type} {hw : TxHardware σ}

/-- Hardware that nothing holds up: CTS stays as it is, and as long as the FIFO is
full, every cycle brings the time closer at which it has room. -/
structure Flows (hw : TxHardware σ) (flows : σ → Prop) (due cycles : σ → Nat) (byteCycles : Nat) : Prop where
  due_pos : ∀ pio, 0 < due pio
  due_le : ∀ {pio}, flows pio → due pio ≤ byteCycles
  steady : ∀ {pio}, flows pio → (hw.elapse pio).1.cts_edges = 0
  elapse : ∀ {pio}, flows pio → flows (hw.elapse pio).2
  closer : ∀ {pio}, flows pio → hw.pio_sm_is_tx_fifo_full (hw.elapse pio).2 = true →
    hw.pio_sm_is_tx_fifo_full pio = true ∧
      due (hw.elapse pio).2 + cycles (hw.elapse pio).2 ≤ due pio + cycles pio
  put : ∀ {pio} (byte : UInt8), flows pio → hw.pio_sm_is_tx_fifo_full pio = false → flows (hw.pio_sm_put byte pio)
  reset : ∀ {driver : TxDriver σ}, flows driver.pio → flows (tx_clock_hard_reset hw driver).pio
  raise : ∀ {pio}, flows pio → flows (hw.gpio_put_rts true (hw.clear_txstall pio))
  raised : ∀ pio, hw.pio_sm_is_tx_fifo_full (hw.gpio_put_rts true (hw.clear_txstall pio)) =
      hw.pio_sm_is_tx_fifo_full pio ∧
    due (hw.gpio_put_rts true (hw.clear_txstall pio)) = due pio ∧
    cycles (hw.gpio_put_rts true (hw.clear_txstall pio)) = cycles pio
  lower : ∀ {pio}, flows pio → flows (hw.gpio_put_rts false pio)

section

variable {flows : σ → Prop} {due cycles : σ → Nat} {byteCycles : Nat} {driver : TxDriver σ}

theorem Flows.tx_put (h : Flows hw flows due cycles byteCycles) {byte : UInt8} {accepted : Bool} {driver' : TxDriver σ}
    (hflows : flows driver.pio) (hput : tx_put hw byte driver = (accepted, driver')) :
    flows driver'.pio ∧ tx_clock_get_cts_toggle_seq driver' = tx_clock_get_cts_toggle_seq driver ∧
      (accepted = false → hw.pio_sm_is_tx_fifo_full driver.pio = true ∧ due driver'.pio = due driver.pio ∧
        cycles driver'.pio = cycles driver.pio) := by
  have hassert : flows (tx_assert_rts hw driver).pio ∧
      tx_clock_get_cts_toggle_seq (tx_assert_rts hw driver) = tx_clock_get_cts_toggle_seq driver ∧
      hw.pio_sm_is_tx_fifo_full (tx_assert_rts hw driver).pio = hw.pio_sm_is_tx_fifo_full driver.pio ∧
      due (tx_assert_rts hw driver).pio = due driver.pio ∧
      cycles (tx_assert_rts hw driver).pio = cycles driver.pio := by
    unfold tx_assert_rts
    split
    · exact ⟨hflows, rfl, rfl, rfl, rfl⟩
    · exact ⟨h.raise hflows, rfl, h.raised driver.pio⟩
  obtain ⟨hraised, hseq, hfull, hdue⟩ := hassert
  unfold pio_tx_rx_driver.tx_put at hput
  simp only at hput
  split at hput
  · rename_i hstop
    obtain ⟨rfl, rfl⟩ := Prod.mk.inj hput
    exact ⟨hraised, hseq, fun _ => ⟨hfull.symm.trans hstop, hdue⟩⟩
  · rename_i hroom
    obtain ⟨rfl, rfl⟩ := Prod.mk.inj hput
    exact ⟨h.put byte hraised (Bool.not_eq_true _ ▸ hroom), hseq, Bool.noConfusion⟩

theorem Flows.elapse_driver (h : Flows hw flows due cycles byteCycles) (hflows : flows driver.pio) :
    flows (driver.elapse hw).pio := h.elapse hflows

theorem Flows.toggle_seq_elapse (h : Flows hw flows due cycles byteCycles) (hflows : flows driver.pio) :
    tx_clock_get_cts_toggle_seq (driver.elapse hw) = tx_clock_get_cts_toggle_seq driver := by
  have hsteady := h.steady hflows
  simp [tx_clock_get_cts_toggle_seq, TxDriver.elapse, hsteady]

theorem Flows.invariant (h : Flows hw flows due cycles byteCycles) :
    DriverInvariant hw fun driver => flows driver.pio where
  elapse := fun hflows => h.elapse hflows
  put := fun hflows hput => (h.tx_put hflows hput).1
  reset := fun hflows => h.reset hflows
  poll := by
    intro driver hflows
    unfold tx_poll
    simp only
    split
    · exact hflows
    · split
      · exact hflows
      · split
        · exact hflows
        · split
          · exact hflows
          · exact h.lower hflows

/-- No CTS edge is counted while bytes are handed over. -/
theorem Flows.toggle_seq_putBytes (h : Flows hw flows due cycles byteCycles) (bytes : List UInt8)
    (hflows : flows driver.pio) :
    tx_clock_get_cts_toggle_seq (putBytes hw bytes driver).2 = tx_clock_get_cts_toggle_seq driver := by
  have hkept := @putBytes_induction σ hw
    (fun _ after => flows after.pio ∧ tx_clock_get_cts_toggle_seq after = tx_clock_get_cts_toggle_seq driver) bytes
    driver ⟨hflows, rfl⟩
  have hstep : ∀ {before after : TxDriver σ} {byte : UInt8} {accepted : Bool},
      flows before.pio ∧ tx_clock_get_cts_toggle_seq before = tx_clock_get_cts_toggle_seq driver →
      pio_tx_rx_driver.tx_put hw byte (before.elapse hw) = (accepted, after) →
      flows after.pio ∧ tx_clock_get_cts_toggle_seq after = tx_clock_get_cts_toggle_seq driver := by
    rintro before after byte accepted ⟨hbefore, hseq⟩ hput
    obtain ⟨hafter, hsame, -⟩ := h.tx_put (h.elapse_driver hbefore) hput
    exact ⟨hafter, hsame.trans ((h.toggle_seq_elapse hbefore).trans hseq)⟩
  exact (hkept (fun _ _ _ _ _ => hstep) (fun _ _ _ _ => hstep)).2.2

/-- Where the first byte is refused, the cycles until then have brought room
closer. -/
theorem Flows.refused (h : Flows hw flows due cycles byteCycles) {bytes : List UInt8} (hsome : bytes ≠ [])
    (hflows : flows driver.pio) (hnone : (putBytes hw bytes driver).1 = 0) :
    hw.pio_sm_is_tx_fifo_full driver.pio = true ∧
      due (putBytes hw bytes driver).2.pio + cycles (putBytes hw bytes driver).2.pio ≤
        due driver.pio + cycles driver.pio := by
  cases bytes with
  | nil => exact absurd rfl hsome
  | cons byte bytes =>
    unfold putBytes at hnone ⊢
    split at hnone
    · exact absurd hnone (Nat.succ_ne_zero _)
    · rename_i after hput
      obtain ⟨-, -, hstop⟩ := h.tx_put (h.elapse_driver hflows) hput
      obtain ⟨hfull, hdue, hcycles⟩ := hstop rfl
      obtain ⟨hbefore, hle⟩ := h.closer hflows hfull
      refine ⟨hbefore, ?_⟩
      simp only
      rw [hdue, hcycles]
      exact hle

end

/-- How many frames are handed over. -/
def TxWorld.completedCount (world : TxWorld σ) : Nat :=
  world.enqueued.length - (world.queue.unsent.length + world.queue.queue_buffer.count)

/-- The bytes that are still to be handed over of the first frames. -/
def TxWorld.bytesLeft (world : TxWorld σ) (count : Nat) : Nat :=
  ((world.enqueued.take count).drop world.completedCount).flatten.length - world.queue.current_entry.partlySent.length

/-- No CTS edge has been counted since the first bytes of the frame in
transmission. -/
def Uninterrupted (world : TxWorld σ) : Prop :=
  0 < world.queue.current_entry.offset → world.queue.current_entry.offset < world.queue.current_entry.frame.length →
    tx_clock_get_cts_toggle_seq world.driver = world.queue.current_frame_cts_seq_start

theorem TxQueueEntry.length_partlySent {entry : TxQueueEntry} (hlt : entry.offset < entry.frame.length) :
    entry.partlySent.length = entry.offset := by
  rw [entry.partlySent_of_lt hlt, List.length_take]
  simp only [HdlcFrame.length] at hlt
  omega

section

variable {world : TxWorld σ} {completed waiting : List (List UInt8)}

theorem Accounts.completedCount_eq (h : Accounts world completed waiting) :
    world.completedCount = completed.length := by
  rw [TxWorld.completedCount, h.enqueued_eq, h.keeps.count_eq, List.length_append, List.length_append]
  omega

/-- The frames that are still to be handed over. -/
theorem Accounts.drop_completed (h : Accounts world completed waiting) (count : Nat) :
    (world.enqueued.take count).drop world.completedCount =
      (world.queue.unsent ++ waiting).take (count - completed.length) := by
  rw [h.completedCount_eq, List.drop_take, h.enqueued_eq, List.drop_left]

theorem Accounts.bytesLeft_le (h : Accounts world completed waiting) (count : Nat) :
    world.bytesLeft count ≤ (world.queue.unsent ++ waiting).flatten.length := by
  have hsplit := congrArg (fun frames => frames.flatten.length)
    (List.take_append_drop (count - completed.length) (world.queue.unsent ++ waiting))
  simp only [List.flatten_append, List.length_append] at hsplit ⊢
  rw [TxWorld.bytesLeft, h.drop_completed]
  omega

/-- Where no byte is left, the frames are completed. -/
theorem Accounts.completed_of_bytesLeft (h : Accounts world completed waiting) {count : Nat}
    (hcount : count ≤ world.enqueued.length) (hleft : world.bytesLeft count = 0) : count ≤ completed.length := by
  by_contra hmore
  rw [Nat.not_le] at hmore
  rw [h.enqueued_eq, List.length_append, List.length_append] at hcount
  obtain ⟨rest, hrest⟩ := Nat.exists_eq_succ_of_ne_zero (Nat.sub_ne_zero_of_lt hmore)
  rw [TxWorld.bytesLeft, h.drop_completed, hrest] at hleft
  by_cases hlt : world.queue.current_entry.offset < world.queue.current_entry.frame.length
  · rw [TxQueue.unsent_of_lt hlt, TxQueueEntry.length_partlySent hlt, List.singleton_append, List.take_succ_cons,
      List.flatten_cons, List.length_append] at hleft
    simp only [HdlcFrame.length] at hlt
    omega
  · rw [Nat.not_lt] at hlt
    rw [TxQueue.unsent_of_le hlt, List.length_nil, Nat.zero_add] at hcount
    rw [TxQueue.unsent_of_le hlt, TxQueueEntry.partlySent_of_le hlt, List.nil_append] at hleft
    cases hwaiting : waiting with
    | nil =>
      rw [hwaiting, List.length_nil] at hcount
      omega
    | cons frame frames =>
      have hframe := h.keeps.nonempty frame (hwaiting ▸ List.mem_cons_self)
      rw [hwaiting, List.take_succ_cons, List.flatten_cons, List.length_append, List.length_nil] at hleft
      omega

/-- Sending lowers the bytes left by what was sent. -/
theorem Accounts.bytesLeft_advance (h : Accounts world completed waiting) {served : TxQueue}
    {rest : List (List UInt8)} {sent : Nat} {cts_seq_start : UInt32} (hserves : Serves world.queue waiting served rest)
    (hlt : served.current_entry.offset < served.current_entry.frame.length)
    (hle : served.current_entry.offset + sent ≤ served.current_entry.frame.length)
    (hkeeps : Keeps (served.advance sent cts_seq_start) rest) (driver : TxDriver σ) (count : Nat) :
    ({ world with queue := served.advance sent cts_seq_start, driver } : TxWorld σ).bytesLeft count =
      world.bytesLeft count - sent := by
  have hnext := h.advance hserves hkeeps driver
  have hpartly : world.queue.current_entry.partlySent.length = served.current_entry.offset := by
    cases hserves with
    | current hcurrent => exact TxQueueEntry.length_partlySent hcurrent
    | next hdone _ hentry =>
      rw [TxQueueEntry.partlySent_of_le hdone, hentry]
      rfl
  rw [TxWorld.bytesLeft, TxWorld.bytesLeft, hnext.drop_completed, h.drop_completed, hserves.unsent_append, hpartly]
  simp only
  have hframe : served.current_entry.frame.payload.length = served.current_entry.frame.length := rfl
  by_cases hmore : served.current_entry.offset + sent < served.current_entry.frame.length
  · have hagain : (served.advance sent cts_seq_start).current_entry.offset <
        (served.advance sent cts_seq_start).current_entry.frame.length := hmore
    rw [TxQueue.unsent_of_lt hagain, TxQueueEntry.length_partlySent hagain, finished, if_pos hmore, List.append_nil,
      List.singleton_append]
    simp only [TxQueue.advance]
    omega
  · have hdone : (served.advance sent cts_seq_start).current_entry.frame.length ≤
        (served.advance sent cts_seq_start).current_entry.offset := Nat.le_of_not_lt hmore
    rw [TxQueue.unsent_of_le hdone, TxQueueEntry.partlySent_of_le hdone, finished, if_neg hmore, List.nil_append,
      List.length_append, List.length_singleton]
    cases hmany : count - completed.length with
    | zero =>
      rw [show count - (completed.length + 1) = 0 by omega]
      simp
    | succ many =>
      rw [show count - (completed.length + 1) = many by omega, List.take_succ_cons, List.flatten_cons,
        List.length_append, List.length_nil]
      omega

end

/-- The first of some frames were handed over first. -/
theorem HandedOver.take {frames : List (List UInt8)} {log : List TxEvent} (h : HandedOver frames log) (count : Nat) :
    ∃ first rest, log = first ++ rest ∧ HandedOver (frames.take count) first := by
  induction h with
  | none => exact ⟨[], [], rfl, by rw [List.take_nil]; exact .none⟩
  | @frame frames frame log tried last hlog htried hlast ih =>
    by_cases hall : frames.length < count
    · refine ⟨log ++ tried ++ last, [], (List.append_nil _).symm, ?_⟩
      rw [List.take_of_length_le (by rw [List.length_append, List.length_singleton]; exact hall)]
      exact .frame hlog htried hlast
    · obtain ⟨first, rest, rfl, hfirst⟩ := ih
      refine ⟨first, rest ++ tried ++ last, by simp, ?_⟩
      rw [List.take_append_of_le_length (Nat.le_of_not_lt hall)]
      exact hfirst

/-- Frames of which nothing is left to be handed over. -/
theorem Handover.handed_of_bytesLeft {world : TxWorld σ} {completed waiting : List (List UInt8)}
    {done tried segment : List TxEvent} (h : Handover world completed waiting done tried segment) {count : Nat}
    (hcount : count ≤ world.enqueued.length) (hleft : world.bytesLeft count = 0) :
    ∃ first rest, world.driver.trace = first ++ rest ∧ HandedOver (world.enqueued.take count) first := by
  have hcompleted := h.accounts.completed_of_bytesLeft hcount hleft
  obtain ⟨first, rest, hdone, hfirst⟩ := h.delivery.handed.take count
  refine ⟨first, rest ++ tried ++ segment, by rw [h.delivery.trace_eq, hdone]; simp, ?_⟩
  rw [h.accounts.enqueued_eq, List.take_append_of_le_length hcompleted]
  exact hfirst

/-- What a stretch does for the first frames: it leaves nothing of them, hands over
some of their bytes, or brings room in the FIFO closer while the queue waits. -/
inductive Proceeds (due cycles : σ → Nat) (count : Nat) (world next : TxWorld σ) : Prop where
  | finishes (hleft : next.bytesLeft count = 0)
  | sends (hleft : next.bytesLeft count < world.bytesLeft count)
  | waits (hleft : next.bytesLeft count = world.bytesLeft count) (hbusy : tx_queue_is_empty next.queue = false)
    (hcloser : due next.driver.pio + cycles next.driver.pio ≤ due world.driver.pio + cycles world.driver.pio)

section

variable {flows : σ → Prop} {due cycles : σ → Nat} {byteCycles : Nat} {world : TxWorld σ}
  {completed waiting : List (List UInt8)}

/-- A frame is found interrupted exactly when an edge has been counted. -/
theorem Accounts.frameInterrupted_eq (h : Accounts world completed waiting) :
    frameInterrupted world.queue (tx_clock_get_cts_toggle_seq world.driver) = false ↔ Uninterrupted world := by
  have hvalid := h.keeps.valid_iff
  unfold Uninterrupted
  simp only [frameInterrupted, decide_eq_false_iff_not]
  tauto

theorem drain_interrupted (h : Flows hw flows due cycles byteCycles) (hflows : flows world.driver.pio)
    (hinterrupted : frameInterrupted world.queue (tx_clock_get_cts_toggle_seq world.driver) = true)
    (bytes_to_drain : Nat) :
    world.drain hw bytes_to_drain =
      { world with
        queue := world.queue.rewind
        driver := tx_clock_hard_reset hw ((world.driver.elapse hw).elapse hw) } := by
  unfold TxWorld.drain tx_queue_drain
  simp only [h.toggle_seq_elapse hflows, hinterrupted, if_true]
  rfl

/-- A drain that finds the frame as it left it. -/
theorem Accounts.drain_proceeds (h : Accounts world completed waiting) (hhw : Flows hw flows due cycles byteCycles)
    (hflows : flows world.driver.pio) (hsteady : Uninterrupted world) {bytes_to_drain : Nat}
    (hpos : 0 < bytes_to_drain) (count : Nat) :
    Uninterrupted (world.drain hw bytes_to_drain) ∧
      Proceeds due cycles count world (world.drain hw bytes_to_drain) := by
  obtain ⟨rest, hstep, hkeeps⟩ := @Keeps.drain σ hw _ _ h.keeps bytes_to_drain world.driver
  have helapsed : flows (world.driver.elapse hw).pio := hhw.elapse_driver hflows
  unfold TxWorld.drain
  generalize tx_queue_drain hw world.queue bytes_to_drain world.driver = result at hstep hkeeps
  cases hstep with
  | restart hinterrupted =>
    rw [hhw.toggle_seq_elapse hflows, h.frameInterrupted_eq.mpr hsteady] at hinterrupted
    cases hinterrupted
  | idle hdone hwaiting =>
    refine ⟨fun _ hlt => absurd hlt (Nat.not_lt.mpr hdone), .finishes ?_⟩
    have hall := h.bytesLeft_le count
    rw [TxQueue.unsent_of_le hdone, hwaiting] at hall
    exact Nat.le_zero.mp hall
  | @send served rest sent driver' hserves hlt hputs =>
    have hle := offset_add_le_of_putBytes hlt hputs
    have hseq := hhw.toggle_seq_putBytes
      ((served.current_entry.frame.payload.drop served.current_entry.offset).take bytes_to_drain) helapsed
    rw [hputs, hhw.toggle_seq_elapse hflows] at hseq
    have hsent : flows driver'.pio := by
      have hputs' := hhw.invariant.putBytes
        ((served.current_entry.frame.payload.drop served.current_entry.offset).take bytes_to_drain) helapsed
      rwa [hputs] at hputs'
    have hfirst : tx_clock_get_cts_toggle_seq (afterFirst hw served.current_entry sent driver') =
        tx_clock_get_cts_toggle_seq world.driver := by
      unfold afterFirst
      split
      · exact (hhw.toggle_seq_elapse hsent).trans hseq
      · exact hseq
    have hleft := h.bytesLeft_advance hserves hlt hle hkeeps (afterFirst hw served.current_entry sent driver') count
    refine ⟨?_, ?_⟩
    · intro hpartly hmid
      simp only [TxQueue.advance] at hpartly hmid ⊢
      unfold baseline
      split
      · rfl
      · rename_i hlater
        rw [hfirst]
        cases hserves with
        | current _ => exact hsteady (by omega) hlt
        | next _ _ hentry =>
          rw [hentry] at hpartly hlater
          exact absurd ⟨rfl, (Nat.zero_add sent) ▸ hpartly⟩ hlater
    · cases sent with
      | zero =>
        have hsome :
            (served.current_entry.frame.payload.drop served.current_entry.offset).take bytes_to_drain ≠ [] := by
          rw [← List.length_pos_iff, List.length_take, List.length_drop]
          simp only [HdlcFrame.length] at hlt
          omega
        obtain ⟨hfull, hwait⟩ := hhw.refused hsome helapsed (by rw [hputs])
        obtain ⟨-, hpause⟩ := hhw.closer hflows hfull
        rw [hputs] at hwait
        refine .waits hleft ?_ ?_
        · simp [tx_queue_is_empty, TxQueue.advance, hlt]
        · rw [afterFirst, if_neg (by simp)]
          exact hwait.trans hpause
      | succ sent =>
        cases hbefore : world.bytesLeft count with
        | zero => exact .finishes (by rw [hleft, hbefore, Nat.zero_sub])
        | succ bytes => exact .sends (by rw [hleft, hbefore]; omega)

/-- Any drain finds the frame as it left it or starts it over. -/
theorem Accounts.drain_settles (h : Accounts world completed waiting) (hhw : Flows hw flows due cycles byteCycles)
    (hflows : flows world.driver.pio) {bytes_to_drain : Nat} (hpos : 0 < bytes_to_drain) (count : Nat) :
    Uninterrupted (world.drain hw bytes_to_drain) ∧
      (world.drain hw bytes_to_drain).bytesLeft count ≤ (world.queue.unsent ++ waiting).flatten.length := by
  by_cases hsteady : Uninterrupted world
  · obtain ⟨hdrained, hproceeds⟩ := h.drain_proceeds hhw hflows hsteady hpos count
    refine ⟨hdrained, ?_⟩
    cases hproceeds with
    | finishes hleft => exact hleft.trans_le (Nat.zero_le _)
    | sends hleft => exact hleft.le.trans (h.bytesLeft_le count)
    | waits hleft _ _ => exact hleft.trans_le (h.bytesLeft_le count)
  · have hinterrupted : frameInterrupted world.queue (tx_clock_get_cts_toggle_seq world.driver) = true := by
      rw [← Bool.not_eq_false, h.frameInterrupted_eq]
      exact hsteady
    obtain ⟨-, hlt, -⟩ := of_frameInterrupted hinterrupted
    rw [drain_interrupted hhw hflows hinterrupted]
    refine ⟨fun hagain => absurd hagain (Nat.lt_irrefl 0), ?_⟩
    have hunsent : world.queue.rewind.unsent = world.queue.unsent := by
      rw [TxQueue.unsent_of_lt hlt]
      exact TxQueue.unsent_of_lt (Nat.zero_lt_of_lt hlt)
    rw [← hunsent]
    exact (h.rewind hlt _).bytesLeft_le count

end

end ether2ser.tx_queue
