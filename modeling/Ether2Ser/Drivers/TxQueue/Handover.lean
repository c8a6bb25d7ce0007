import Ether2Ser.Drivers.TxQueue.Run

open ether2ser.error ether2ser.hdlc ether2ser.hdlc_common ether2ser.pio_tx_rx_driver

namespace ether2ser.tx_queue

variable {σ : Type} {hw : TxHardware σ}

/-- The byte of an accepted `tx_put`. -/
def handedByte : TxEvent → Option UInt8
  | .put byte _ => some byte
  | _ => none

/-- The events hand over exactly these bytes, with no reset between them. -/
structure Puts (bytes : List UInt8) (events : List TxEvent) : Prop where
  bytes_eq : events.filterMap handedByte = bytes
  no_reset : .reset ∉ events

/-- A CTS edge follows the first byte handed over. -/
def EdgeAfterFirst (events : List TxEvent) : Prop :=
  ∃ before first after, events = before ++ first :: after ∧ before.filterMap handedByte = [] ∧
    handedByte first ≠ none ∧ .cts ∈ after

/-- Attempts at a frame that CTS edges cut short: each hands over a nonempty
strict prefix of it, sees an edge after the first byte and ends in a reset. -/
inductive Attempts (frame : List UInt8) : List TxEvent → Prop where
  | none : Attempts frame []
  | again {tried segment : List TxEvent} {sent : Nat} (htried : Attempts frame tried) (hpos : 0 < sent)
    (hlt : sent < frame.length) (hputs : Puts (frame.take sent) segment) (hedge : EdgeAfterFirst segment) :
    Attempts frame (tried ++ segment ++ [.reset])

/-- The frames were handed over in this order, each one whole after its
attempts. -/
inductive HandedOver : List (List UInt8) → List TxEvent → Prop where
  | none : HandedOver [] []
  | frame {frames : List (List UInt8)} {frame : List UInt8} {log tried last : List TxEvent}
    (hlog : HandedOver frames log) (htried : Attempts frame tried) (hlast : Puts frame last) :
    HandedOver (frames ++ [frame]) (log ++ tried ++ last)

theorem puts_nil : Puts [] [] := ⟨rfl, List.not_mem_nil⟩

theorem Puts.append {bytes more : List UInt8} {events others : List TxEvent} (h : Puts bytes events)
    (hmore : Puts more others) : Puts (bytes ++ more) (events ++ others) where
  bytes_eq := by rw [List.filterMap_append, h.bytes_eq, hmore.bytes_eq]
  no_reset := by
    rw [List.mem_append, not_or]
    exact ⟨h.no_reset, hmore.no_reset⟩

theorem Puts.quiet {bytes : List UInt8} {events others : List TxEvent} (h : Puts bytes events)
    (hquiet : Puts [] others) :
    Puts bytes (events ++ others) := by
  have happend := h.append hquiet
  rwa [List.append_nil] at happend

theorem EdgeAfterFirst.append {events : List TxEvent} (h : EdgeAfterFirst events) (others : List TxEvent) :
    EdgeAfterFirst (events ++ others) := by
  obtain ⟨before, first, after, rfl, hquiet, hfirst, hedge⟩ := h
  exact ⟨before, first, after ++ others, by simp, hquiet, hfirst, List.mem_append_left _ hedge⟩

/-- An edge that follows any handed byte follows the first one. -/
theorem edgeAfterFirst_append {events others : List TxEvent} (hbyte : events.filterMap handedByte ≠ [])
    (hedge : .cts ∈ others) : EdgeAfterFirst (events ++ others) := by
  induction events with
  | nil => exact absurd rfl hbyte
  | cons event events ih =>
    cases hhead : handedByte event with
    | some byte => exact ⟨[], event, events ++ others, rfl, rfl, by simp [hhead], List.mem_append_right _ hedge⟩
    | none =>
      rw [List.filterMap_cons_none hhead] at hbyte
      obtain ⟨before, first, after, hsplit, hquiet, hfirst, hafter⟩ := ih hbyte
      refine ⟨event :: before, first, after, ?_, ?_, hfirst, hafter⟩
      · rw [List.cons_append, hsplit, List.cons_append]
      · rw [List.filterMap_cons_none hhead, hquiet]

/-- A stretch of the driver's run that recorded these events. The CTS counter
only moves at an edge. -/
structure Records (driver : TxDriver σ) (events : List TxEvent) (driver' : TxDriver σ) : Prop where
  trace_eq : driver'.trace = driver.trace ++ events
  counts : driver'.v24_runtime.cts_toggle_seq = driver.v24_runtime.cts_toggle_seq ∨ .cts ∈ events

theorem Records.refl (driver : TxDriver σ) : Records driver [] driver := ⟨(List.append_nil _).symm, .inl rfl⟩

theorem Records.trans {first second third : TxDriver σ} {events others : List TxEvent} (h : Records first events second)
    (hnext : Records second others third) : Records first (events ++ others) third where
  trace_eq := by rw [hnext.trace_eq, h.trace_eq, List.append_assoc]
  counts := by
    rw [List.mem_append]
    rcases h.counts with heq | hedge
    · rcases hnext.counts with hsame | hlater
      · exact .inl (hsame.trans heq)
      · exact .inr (.inr hlater)
    · exact .inr (.inl hedge)

theorem records_elapse (hw : TxHardware σ) (driver : TxDriver σ) :
    ∃ events, Records driver events (driver.elapse hw) ∧ Puts [] events := by
  refine ⟨_, ⟨rfl, ?_⟩, ?_, ?_⟩
  · cases hedges : (hw.elapse driver.pio).1.cts_edges with
    | zero => left; simp [TxDriver.elapse, hedges]
    | succ edges => right; simp
  · simp [List.filterMap_replicate, handedByte]
  · simp

theorem records_tx_put {byte : UInt8} {accepted : Bool} {driver driver' : TxDriver σ}
    (hput : tx_put hw byte driver = (accepted, driver')) :
    ∃ events, Records driver events driver' ∧ Puts (if accepted then [byte] else []) events := by
  have hassert : ∃ events, Records driver events (tx_assert_rts hw driver) ∧ Puts [] events := by
    unfold tx_assert_rts
    split
    · exact ⟨[], .refl _, puts_nil⟩
    · exact ⟨_, ⟨rfl, .inl rfl⟩, rfl, by simp⟩
  obtain ⟨events, hrecords, hquiet⟩ := hassert
  unfold tx_put at hput
  simp only at hput
  split at hput
  · obtain ⟨rfl, rfl⟩ := Prod.mk.inj hput
    exact ⟨events, hrecords, hquiet⟩
  · obtain ⟨rfl, rfl⟩ := Prod.mk.inj hput
    exact ⟨_, hrecords.trans ⟨rfl, .inl rfl⟩, hquiet.append ⟨rfl, by simp⟩⟩

/-- The loop hands over the first bytes of its list. -/
theorem records_putBytes {bytes : List UInt8} {sent : Nat} {driver driver' : TxDriver σ}
    (hputs : putBytes hw bytes driver = (sent, driver')) :
    ∃ events, Records driver events driver' ∧ Puts (bytes.take sent) events := by
  have hloop := @putBytes_induction σ hw
    (fun sent after => ∃ events, Records driver events after ∧ Puts (bytes.take sent) events) bytes driver
    ⟨[], .refl driver, puts_nil⟩
  rw [hputs] at hloop
  refine (hloop ?_ ?_).2
  · rintro sent before after byte hbyte ⟨events, hrecords, hbytes⟩ hput
    obtain ⟨pause, hpause, hquiet⟩ := records_elapse hw before
    obtain ⟨others, hothers, hone⟩ := records_tx_put hput
    refine ⟨_, (hrecords.trans hpause).trans hothers, ?_⟩
    rw [List.take_add_one, hbyte]
    exact (hbytes.quiet hquiet).append hone
  · rintro sent before after byte ⟨events, hrecords, hbytes⟩ hput
    obtain ⟨pause, hpause, hquiet⟩ := records_elapse hw before
    obtain ⟨others, hothers, hnone⟩ := records_tx_put hput
    exact ⟨_, (hrecords.trans hpause).trans hothers, (hbytes.quiet hquiet).quiet hnone⟩

/-- The part of the frame in transmission that is handed over since its last
restart. -/
def TxQueueEntry.partlySent (entry : TxQueueEntry) : List UInt8 :=
  if entry.offset < entry.frame.length then entry.frame.payload.take entry.offset else []

/-- The driver's trace hands over the completed frames, then the attempts at the
entry in transmission and the part of it sent since. -/
structure Delivery (entry : TxQueueEntry) (cts_seq_start : UInt32) (driver : TxDriver σ)
    (completed : List (List UInt8)) (done tried segment : List TxEvent) : Prop where
  trace_eq : driver.trace = done ++ tried ++ segment
  handed : HandedOver completed done
  attempts : Attempts entry.frame.payload tried
  sent : Puts entry.partlySent segment
  fresh : entry.frame.length ≤ entry.offset → tried = []
  edge : 0 < entry.offset → entry.offset < entry.frame.length →
    tx_clock_get_cts_toggle_seq driver = cts_seq_start ∨ EdgeAfterFirst segment

theorem TxQueueEntry.partlySent_of_lt {entry : TxQueueEntry} (hlt : entry.offset < entry.frame.length) :
    entry.partlySent = entry.frame.payload.take entry.offset := if_pos hlt

theorem TxQueueEntry.partlySent_of_le {entry : TxQueueEntry} (hle : entry.frame.length ≤ entry.offset) :
    entry.partlySent = [] := if_neg (by omega)

theorem TxQueueEntry.partlySent_of_zero {entry : TxQueueEntry} (hzero : entry.offset = 0) : entry.partlySent = [] := by
  rw [TxQueueEntry.partlySent, hzero, List.take_zero, ite_self]

/-- Once part of the frame is sent, the counter moves away from the baseline
only with an edge after the first byte. -/
theorem Delivery.edge_records {entry : TxQueueEntry} {cts_seq_start : UInt32} {driver driver' : TxDriver σ}
    {completed : List (List UInt8)} {done tried segment events : List TxEvent}
    (h : Delivery entry cts_seq_start driver completed done tried segment) (hrecords : Records driver events driver')
    (hpos : 0 < entry.offset) (hlt : entry.offset < entry.frame.length) :
    tx_clock_get_cts_toggle_seq driver' = cts_seq_start ∨ EdgeAfterFirst (segment ++ events) := by
  rcases h.edge hpos hlt with hsame | hedge
  · rcases hrecords.counts with heq | hcts
    · exact .inl (heq.trans hsame)
    · refine .inr (edgeAfterFirst_append ?_ hcts)
      rw [h.sent.bytes_eq, entry.partlySent_of_lt hlt, ← List.length_pos_iff, List.length_take]
      simp only [HdlcFrame.length] at hlt
      omega
  · exact .inr (hedge.append events)

/-- A stretch that hands over nothing. -/
theorem Delivery.quiet {entry : TxQueueEntry} {cts_seq_start : UInt32} {driver driver' : TxDriver σ}
    {completed : List (List UInt8)} {done tried segment events : List TxEvent}
    (h : Delivery entry cts_seq_start driver completed done tried segment) (hrecords : Records driver events driver')
    (hquiet : Puts [] events) : Delivery entry cts_seq_start driver' completed done tried (segment ++ events) :=
  { h with
    trace_eq := by rw [hrecords.trace_eq, h.trace_eq, List.append_assoc]
    sent := h.sent.quiet hquiet
    edge := h.edge_records hrecords }

/-- The next frame takes the place of a completed one. -/
theorem Delivery.next {entry : TxQueueEntry} {cts_seq_start : UInt32} {driver : TxDriver σ}
    {completed : List (List UInt8)} {done tried segment : List TxEvent}
    (h : Delivery entry cts_seq_start driver completed done tried segment)
    (hdone : entry.frame.length ≤ entry.offset) (frame : List UInt8) :
    Delivery (entryOf frame) cts_seq_start driver completed done tried segment where
  trace_eq := h.trace_eq
  handed := h.handed
  attempts := by
    rw [h.fresh hdone]
    exact .none
  sent := by
    rw [TxQueueEntry.partlySent_of_zero rfl, ← entry.partlySent_of_le hdone]
    exact h.sent
  fresh := fun _ => h.fresh hdone
  edge := fun hpos => absurd hpos (Nat.lt_irrefl 0)

/-- An interrupted frame starts over: what was sent of it becomes an attempt. -/
theorem Delivery.restart {entry : TxQueueEntry} {cts_seq_start : UInt32} {driver driver' : TxDriver σ}
    {completed : List (List UInt8)} {done tried segment : List TxEvent}
    (h : Delivery entry cts_seq_start driver completed done tried segment) (hpos : 0 < entry.offset)
    (hlt : entry.offset < entry.frame.length) (hedge : EdgeAfterFirst segment)
    (htrace : driver'.trace = driver.trace ++ [.reset]) :
    Delivery { entry with offset := 0 } cts_seq_start driver' completed done (tried ++ segment ++ [.reset]) [] where
  trace_eq := by simp [htrace, h.trace_eq]
  handed := h.handed
  attempts := .again h.attempts hpos hlt (entry.partlySent_of_lt hlt ▸ h.sent) hedge
  sent := by
    rw [TxQueueEntry.partlySent_of_zero rfl]
    exact puts_nil
  fresh := fun hle => absurd hlt (by simp only at hle; omega)
  edge := fun hzero => absurd hzero (Nat.lt_irrefl 0)

/-- More bytes of the frame are handed over, possibly the last ones. -/
theorem Delivery.send {entry : TxQueueEntry} {cts_seq_start start' : UInt32} {driver driver' : TxDriver σ}
    {completed : List (List UInt8)} {done tried segment events : List TxEvent} {count : Nat}
    (h : Delivery entry cts_seq_start driver completed done tried segment)
    (hlt : entry.offset < entry.frame.length) (hle : entry.offset + count ≤ entry.frame.length)
    (hrecords : Records driver events driver')
    (hputs : Puts ((entry.frame.payload.drop entry.offset).take count) events)
    (hstart : start' = if entry.offset = 0 ∧ 0 < count then tx_clock_get_cts_toggle_seq driver' else cts_seq_start) :
    ∃ done' tried' segment', Delivery { entry with offset := entry.offset + count } start' driver'
      (completed ++ finished entry count) done' tried' segment' := by
  have hsent : Puts (entry.frame.payload.take (entry.offset + count)) (segment ++ events) := by
    rw [List.take_add]
    exact (entry.partlySent_of_lt hlt ▸ h.sent).append hputs
  have htrace : driver'.trace = done ++ tried ++ (segment ++ events) := by
    rw [hrecords.trace_eq, h.trace_eq, List.append_assoc]
  by_cases hmore : entry.offset + count < entry.frame.length
  · rw [finished, if_pos hmore, List.append_nil]
    refine ⟨done, tried, segment ++ events, htrace, h.handed, h.attempts, ?_,
      fun hdone => by simp only at hdone; omega, ?_⟩
    · rw [TxQueueEntry.partlySent_of_lt hmore]
      exact hsent
    · intro hpos _
      by_cases hfirst : entry.offset = 0
      · rw [if_pos ⟨hfirst, by simp only at hpos; omega⟩] at hstart
        exact .inl hstart.symm
      · rw [if_neg (fun hzero => hfirst hzero.1)] at hstart
        rw [hstart]
        exact h.edge_records hrecords (by omega) hlt
  · rw [finished, if_neg hmore]
    have hall : entry.frame.payload.take (entry.offset + count) = entry.frame.payload :=
      List.take_of_length_le (by simp only [HdlcFrame.length] at hmore; omega)
    refine ⟨done ++ tried ++ (segment ++ events), [], [], by rw [htrace]; simp, ?_, .none, ?_, fun _ => rfl, ?_⟩
    · exact .frame h.handed h.attempts (hall ▸ hsent)
    · rw [TxQueueEntry.partlySent_of_le (by simp only; omega)]
      exact puts_nil
    · intro _ hlater
      simp only at hlater
      omega

/-- The number of bytes the driver has accepted. -/
def acceptedBytes (driver : TxDriver σ) : Nat := (driver.trace.filterMap handedByte).length

/-- The log of accepted bytes and resets of a world: the frames in order of
their enqueues, the completed ones whole after their interrupted attempts and
the current one up to its offset. -/
structure Handover (world : TxWorld σ) (completed waiting : List (List UInt8)) (done tried segment : List TxEvent) :
    Prop where
  accounts : Accounts world completed waiting
  delivery : Delivery world.queue.current_entry world.queue.current_frame_cts_seq_start world.driver completed
    done tried segment
  wire_bytes : world.queue.tx_wire_bytes = UInt64.ofNat (acceptedBytes world.driver)

theorem Records.acceptedBytes_eq {driver driver' : TxDriver σ} {events : List TxEvent} {bytes : List UInt8}
    (h : Records driver events driver') (hputs : Puts bytes events) :
    acceptedBytes driver' = acceptedBytes driver + bytes.length := by
  rw [acceptedBytes, h.trace_eq, List.filterMap_append, List.length_append, hputs.bytes_eq, acceptedBytes]

theorem handover_boot (tx_rts_holdoff_us : Nat) (pio : σ) :
    Handover (TxWorld.boot tx_rts_holdoff_us pio) [] [] [] [] [] where
  accounts := accounts_boot tx_rts_holdoff_us pio
  delivery := ⟨rfl, .none, .none, puts_nil, fun _ => rfl, fun hpos => absurd hpos (Nat.lt_irrefl 0)⟩
  wire_bytes := rfl

/-- The capture of the baseline hands over nothing. -/
theorem records_afterFirst {entry : TxQueueEntry} {sent : Nat} {driver driver' : TxDriver σ} {bytes : List UInt8}
    {events : List TxEvent} (hrecords : Records driver events driver') (hputs : Puts bytes events) :
    ∃ others, Records driver others (afterFirst hw entry sent driver') ∧ Puts bytes others := by
  unfold afterFirst
  split
  · obtain ⟨pause, hpause, hquiet⟩ := records_elapse hw driver'
    exact ⟨_, hrecords.trans hpause, hputs.quiet hquiet⟩
  · exact ⟨events, hrecords, hputs⟩

theorem Handover.elapse {world : TxWorld σ} {completed waiting : List (List UInt8)} {done tried segment : List TxEvent}
    (h : Handover world completed waiting done tried segment) :
    ∃ segment', Handover (world.elapse hw) completed waiting done tried segment' := by
  obtain ⟨events, hrecords, hquiet⟩ := records_elapse hw world.driver
  refine ⟨_, ⟨h.accounts.keeps, h.accounts.enqueued_eq⟩, h.delivery.quiet hrecords hquiet, ?_⟩
  simp only [TxWorld.elapse]
  rw [h.wire_bytes, hrecords.acceptedBytes_eq hquiet]
  rfl

theorem Handover.enqueue {world : TxWorld σ} {completed waiting : List (List UInt8)} {done tried segment : List TxEvent}
    (h : Handover world completed waiting done tried segment) (payload : List UInt8) :
    ∃ waiting', Handover (world.enqueue payload) completed waiting' done tried segment := by
  obtain ⟨⟨waiting', haccounts⟩, hdriver, hentry, hbytes, hstart⟩ := h.accounts.enqueue payload
  refine ⟨waiting', haccounts, ?_, ?_⟩
  · rw [hdriver, hentry, hstart]
    exact h.delivery
  · rw [hdriver, hbytes]
    exact h.wire_bytes

/-- The served entry continues the delivery. -/
theorem Delivery.serve {queue served : TxQueue} {waiting rest : List (List UInt8)} {driver : TxDriver σ}
    {completed : List (List UInt8)} {done tried segment : List TxEvent}
    (h : Delivery queue.current_entry queue.current_frame_cts_seq_start driver completed done tried segment)
    (hserves : Serves queue waiting served rest) :
    Delivery served.current_entry served.current_frame_cts_seq_start driver completed done tried segment ∧
      served.tx_wire_bytes = queue.tx_wire_bytes := by
  cases hserves with
  | current _ => exact ⟨h, rfl⟩
  | next hdone _ hentry =>
    rw [hentry]
    exact ⟨h.next hdone _, rfl⟩

theorem of_frameInterrupted {queue : TxQueue} {cts_seq : UInt32} (h : frameInterrupted queue cts_seq = true) :
    0 < queue.current_entry.offset ∧ queue.current_entry.offset < queue.current_entry.frame.length ∧
      cts_seq ≠ queue.current_frame_cts_seq_start := by
  simp only [frameInterrupted, decide_eq_true_eq] at h
  exact ⟨h.1.1, h.1.2, h.2.2⟩

theorem Handover.drain {world : TxWorld σ} {completed waiting : List (List UInt8)} {done tried segment : List TxEvent}
    (h : Handover world completed waiting done tried segment) (bytes_to_drain : Nat) :
    ∃ completed' waiting' done' tried' segment',
      Handover (world.drain hw bytes_to_drain) completed' waiting' done' tried' segment' := by
  obtain ⟨rest, hstep, hkeeps⟩ := @Keeps.drain σ hw _ _ h.accounts.keeps bytes_to_drain world.driver
  obtain ⟨pause, hpause, hquiet⟩ := records_elapse hw world.driver
  have hdelivery := h.delivery.quiet hpause hquiet
  unfold TxWorld.drain
  generalize tx_queue_drain hw world.queue bytes_to_drain world.driver = result at hstep hkeeps
  cases hstep with
  | restart hinterrupted =>
    obtain ⟨hpos, hlt, hedge⟩ := of_frameInterrupted hinterrupted
    obtain ⟨wait, hwait, hstill⟩ := records_elapse hw (world.driver.elapse hw)
    have hreached := (hdelivery.edge hpos hlt).resolve_left hedge
    refine ⟨completed, waiting, done, _, [], h.accounts.rewind hlt _,
      (hdelivery.quiet hwait hstill).restart hpos hlt (hreached.append wait) rfl, ?_⟩
    have hsame : acceptedBytes (tx_clock_hard_reset hw ((world.driver.elapse hw).elapse hw)) =
        acceptedBytes ((world.driver.elapse hw).elapse hw) := by
      simp [acceptedBytes, tx_clock_hard_reset, handedByte]
    simp only
    rw [hsame, hwait.acceptedBytes_eq hstill, hpause.acceptedBytes_eq hquiet]
    exact h.wire_bytes
  | idle hdone hwaiting =>
    refine ⟨completed, waiting, done, tried, _, ⟨hkeeps, h.accounts.enqueued_eq⟩, hdelivery, ?_⟩
    simp only
    rw [hpause.acceptedBytes_eq hquiet]
    exact h.wire_bytes
  | @send served rest sent driver' hserves hlt hputs =>
    obtain ⟨events, hevents, hbytes⟩ := records_putBytes hputs
    obtain ⟨others, hothers, hall⟩ := @records_afterFirst σ hw served.current_entry sent _ _ _ _ hevents hbytes
    have hle := offset_add_le_of_putBytes hlt hputs
    rw [take_sent_of_putBytes hputs] at hall
    obtain ⟨hserved, hwire⟩ := hdelivery.serve hserves
    obtain ⟨done', tried', segment', hsent⟩ := hserved.send hlt hle hothers hall rfl
    refine ⟨_, rest, done', tried', segment', h.accounts.advance hserves hkeeps _, hsent, ?_⟩
    have hlength : ((served.current_entry.frame.payload.drop served.current_entry.offset).take sent).length = sent := by
      rw [List.length_take, List.length_drop]
      simp only [HdlcFrame.length] at hle
      omega
    simp only [TxQueue.advance]
    rw [hothers.acceptedBytes_eq hall, hlength, hpause.acceptedBytes_eq hquiet, UInt64.ofNat_add, hwire, h.wire_bytes]
    rfl

theorem handover_run (hw : TxHardware σ) (tx_rts_holdoff_us : Nat) (pio : σ) (actions : List TxAction) :
    ∃ completed waiting done tried segment,
      Handover ((TxWorld.boot tx_rts_holdoff_us pio).run hw actions) completed waiting done tried segment := by
  unfold TxWorld.run
  induction actions using List.reverseRecOn with
  | nil => exact ⟨[], [], [], [], [], handover_boot tx_rts_holdoff_us pio⟩
  | append_singleton actions action ih =>
    obtain ⟨completed, waiting, done, tried, segment, h⟩ := ih
    rw [List.foldl_append, List.foldl_cons, List.foldl_nil]
    cases action with
    | enqueue payload =>
      obtain ⟨waiting', hnext⟩ := h.enqueue payload
      exact ⟨completed, waiting', done, tried, segment, hnext⟩
    | drain bytes_to_drain => exact h.drain bytes_to_drain
    | elapse =>
      obtain ⟨segment', hnext⟩ := h.elapse
      exact ⟨completed, waiting, done, tried, segment', hnext⟩

/-- The queue reports empty exactly when no accepted frame is left. -/
theorem Accounts.is_empty_iff {world : TxWorld σ} {completed waiting : List (List UInt8)}
    (h : Accounts world completed waiting) : tx_queue_is_empty world.queue = true ↔ world.enqueued = completed := by
  rw [h.keeps.is_empty_iff, h.enqueued_eq, List.append_right_eq_self, List.append_eq_nil_iff, TxQueue.unsent, and_comm]
  simp

/-- Hand-over order, over every run of the queue: whatever the hardware accepts
or refuses and whenever CTS toggles, the frames are handed over in the order of
their enqueues, none skipped, repeated or cut. -/
theorem handover_order (hw : TxHardware σ) (tx_rts_holdoff_us : Nat) (pio : σ) (actions : List TxAction) :
    ∃ completed waiting done tried segment,
      Handover ((TxWorld.boot tx_rts_holdoff_us pio).run hw actions) completed waiting done tried segment ∧
      (tx_queue_is_empty ((TxWorld.boot tx_rts_holdoff_us pio).run hw actions).queue = true ↔
        ((TxWorld.boot tx_rts_holdoff_us pio).run hw actions).enqueued = completed) := by
  obtain ⟨completed, waiting, done, tried, segment, h⟩ := handover_run hw tx_rts_holdoff_us pio actions
  exact ⟨completed, waiting, done, tried, segment, h, h.accounts.is_empty_iff⟩

theorem Attempts.nil_of_no_reset {frame : List UInt8} {events : List TxEvent} (h : Attempts frame events)
    (hreset : .reset ∉ events) : events = [] := by
  cases h with
  | none => rfl
  | again _ _ _ _ _ => exact absurd (List.mem_append_right _ (List.mem_singleton_self _)) hreset

/-- Without a reset, every frame is handed over in one attempt. -/
theorem HandedOver.bytes_eq {frames : List (List UInt8)} {events : List TxEvent} (h : HandedOver frames events)
    (hreset : .reset ∉ events) : events.filterMap handedByte = frames.flatten := by
  induction h with
  | none => rfl
  | frame _ htried hlast ih =>
    simp only [List.mem_append, not_or] at hreset
    rw [htried.nil_of_no_reset hreset.1.2, List.append_nil, List.filterMap_append, ih hreset.1.1, hlast.bytes_eq,
      List.flatten_append, List.flatten_singleton]

/-- The part of the entry in transmission that is handed over, and the rest of
it. -/
theorem TxQueue.partlySent_append (queue : TxQueue) :
    ∃ rest, queue.current_entry.partlySent ++ rest = queue.unsent.flatten ∧ (queue.unsent = [] → rest = []) := by
  by_cases hlt : queue.current_entry.offset < queue.current_entry.frame.length
  · refine ⟨queue.current_entry.frame.payload.drop queue.current_entry.offset, ?_, ?_⟩
    · rw [TxQueueEntry.partlySent_of_lt hlt, TxQueue.unsent_of_lt hlt, List.take_append_drop, List.flatten_singleton]
    · rw [TxQueue.unsent_of_lt hlt]
      exact fun hnone => absurd hnone (List.cons_ne_nil _ _)
  · rw [Nat.not_lt] at hlt
    refine ⟨[], ?_, fun _ => rfl⟩
    rw [TxQueueEntry.partlySent_of_le hlt, TxQueue.unsent_of_le hlt]
    rfl

/-- Without a reset, the bytes handed over are the accepted frames up to some
point, and all of them once the queue is empty. -/
theorem Handover.handed {world : TxWorld σ} {completed waiting : List (List UInt8)} {done tried segment : List TxEvent}
    (h : Handover world completed waiting done tried segment) (hreset : .reset ∉ world.driver.trace) :
    ∃ rest, world.driver.trace.filterMap handedByte ++ rest = world.enqueued.flatten ∧
      (tx_queue_is_empty world.queue = true → rest = []) := by
  obtain ⟨hlast, hunsent, hall⟩ := world.queue.partlySent_append
  refine ⟨hlast ++ waiting.flatten, ?_, ?_⟩
  · rw [h.delivery.trace_eq] at hreset ⊢
    simp only [List.mem_append, not_or] at hreset
    rw [h.delivery.attempts.nil_of_no_reset hreset.1.2, List.append_nil, List.filterMap_append,
      h.delivery.handed.bytes_eq hreset.1.1, h.delivery.sent.bytes_eq, h.accounts.enqueued_eq, List.append_assoc,
      ← List.append_assoc _ hlast, hunsent, List.flatten_append, List.flatten_append]
  · intro hempty
    have hnone := h.accounts.enqueued_eq.symm.trans (h.accounts.is_empty_iff.mp hempty)
    rw [List.append_right_eq_self, List.append_eq_nil_iff] at hnone
    rw [hall hnone.1, hnone.2]
    rfl

theorem Puts.count_reset {bytes : List UInt8} {events : List TxEvent} (h : Puts bytes events) :
    events.count .reset = 0 := List.count_eq_zero.mpr h.no_reset

/-- Every attempt sees an edge and is cut before the last byte. -/
theorem Attempts.counts {frame : List UInt8} {events : List TxEvent} (h : Attempts frame events) :
    events.count .reset ≤ events.count .cts ∧
      (events.filterMap handedByte).length ≤ events.count .reset * (frame.length - 1) := by
  induction h with
  | none => exact ⟨Nat.le_refl 0, Nat.zero_le _⟩
  | @again tried segment sent _ hpos hlt hputs hedge ih =>
    have hcts : 0 < segment.count .cts := by
      obtain ⟨before, first, after, rfl, -, -, hafter⟩ := hedge
      exact List.count_pos_iff.mpr (List.mem_append_right _ (List.mem_cons_of_mem _ hafter))
    have hcount : (tried ++ segment ++ [TxEvent.reset]).count .reset = tried.count .reset + 1 := by
      rw [List.count_append, List.count_append, hputs.count_reset]
      rfl
    have hquiet : [TxEvent.reset].filterMap handedByte = [] := rfl
    refine ⟨?_, ?_⟩
    · rw [hcount, List.count_append, List.count_append]
      omega
    · rw [hcount, List.filterMap_append, List.filterMap_append, hquiet, hputs.bytes_eq, List.append_nil,
        List.length_append, List.length_take, Nat.succ_mul]
      omega

/-- Handing over frames costs their bytes, and less than a frame for every
reset. -/
theorem HandedOver.counts {frames : List (List UInt8)} {events : List TxEvent} (h : HandedOver frames events)
    {size : Nat} (hsize : ∀ frame ∈ frames, frame.length ≤ size) :
    events.count .reset ≤ events.count .cts ∧
      (events.filterMap handedByte).length ≤ frames.flatten.length + events.count .reset * (size - 1) := by
  induction h with
  | none => exact ⟨Nat.le_refl 0, Nat.zero_le _⟩
  | @frame frames frame log tried last _ htried hlast ih =>
    obtain ⟨hlog, hbytes⟩ := ih fun other hmem => hsize other (List.mem_append_left _ hmem)
    obtain ⟨hcts, hcost⟩ := htried.counts
    have hfits : frame.length - 1 ≤ size - 1 :=
      Nat.sub_le_sub_right (hsize frame (List.mem_append_right _ (List.mem_singleton_self _))) 1
    have hwaste := hcost.trans (Nat.mul_le_mul_left (tried.count .reset) hfits)
    simp only [List.count_append, hlast.count_reset, List.filterMap_append, hlast.bytes_eq, List.length_append,
      List.flatten_append, List.flatten_singleton, Nat.add_zero, Nat.add_mul]
    omega

/-- What the queue has handed over costs the bytes of the accepted frames, and
less than a frame for every reset, of which there is at most one for every CTS
edge. -/
theorem Handover.counts {world : TxWorld σ} {completed waiting : List (List UInt8)}
    {done tried segment : List TxEvent} (h : Handover world completed waiting done tried segment) {size : Nat}
    (hsize : ∀ frame ∈ world.enqueued, frame.length ≤ size) :
    world.driver.trace.count .reset ≤ world.driver.trace.count .cts ∧
      (world.driver.trace.filterMap handedByte).length ≤
        world.enqueued.flatten.length + world.driver.trace.count .reset * (size - 1) := by
  have henqueued := h.accounts.enqueued_eq
  obtain ⟨hlog, hbytes⟩ := h.delivery.handed.counts fun frame hmem =>
    hsize frame (henqueued ▸ List.mem_append_left _ hmem)
  obtain ⟨hcts, hcost⟩ := h.delivery.attempts.counts
  have hwaste : tried.count .reset * (world.queue.current_entry.frame.payload.length - 1) ≤
      tried.count .reset * (size - 1) := by
    by_cases hlt : world.queue.current_entry.offset < world.queue.current_entry.frame.length
    · have hmem : world.queue.current_entry.frame.payload ∈ world.enqueued := by
        rw [henqueued, TxQueue.unsent_of_lt hlt]
        simp
      exact Nat.mul_le_mul_left _ (Nat.sub_le_sub_right (hsize _ hmem) 1)
    · rw [h.delivery.fresh (Nat.le_of_not_lt hlt)]
      simp
  obtain ⟨rest, hpart, -⟩ := world.queue.partlySent_append
  have hlength := congrArg List.length hpart
  rw [List.length_append] at hlength
  rw [h.delivery.trace_eq, henqueued]
  simp only [List.count_append, h.delivery.sent.count_reset, List.filterMap_append, h.delivery.sent.bytes_eq,
    List.length_append, List.flatten_append, Nat.add_zero, Nat.add_mul]
  omega

/-- The driver goes on without a byte. -/
theorem Handover.quiet {world : TxWorld σ} {completed waiting : List (List UInt8)} {done tried segment : List TxEvent}
    (h : Handover world completed waiting done tried segment) {driver : TxDriver σ} {events : List TxEvent}
    (hrecords : Records world.driver events driver) (hquiet : Puts [] events) :
    Handover { world with driver } completed waiting done tried (segment ++ events) where
  accounts := ⟨h.accounts.keeps, h.accounts.enqueued_eq⟩
  delivery := h.delivery.quiet hrecords hquiet
  wire_bytes := by
    rw [h.wire_bytes, hrecords.acceptedBytes_eq hquiet]
    rfl

theorem Handover.poll_queue_stats {world : TxWorld σ} {completed waiting : List (List UInt8)}
    {done tried segment : List TxEvent} (h : Handover world completed waiting done tried segment) :
    Handover { world with queue := poll_queue_stats world.queue } completed waiting done tried segment := by
  have htouched : ∃ queue_touched, tx_queue.poll_queue_stats world.queue = { world.queue with queue_touched } := by
    unfold tx_queue.poll_queue_stats
    simp only
    split <;> exact ⟨_, rfl⟩
  obtain ⟨queue_touched, hpolled⟩ := htouched
  have hkeeps := h.accounts.keeps.poll_queue_stats
  rw [hpolled] at hkeeps ⊢
  exact ⟨⟨hkeeps, h.accounts.enqueued_eq⟩, h.delivery, h.wire_bytes⟩

theorem records_tx_poll (hw : TxHardware σ) (driver : TxDriver σ) :
    ∃ events, Records driver events (tx_poll hw driver).2 ∧ Puts [] events := by
  unfold tx_poll
  simp only
  split
  · exact ⟨[], ⟨(List.append_nil _).symm, .inl rfl⟩, puts_nil⟩
  · split
    · exact ⟨[], ⟨(List.append_nil _).symm, .inl rfl⟩, puts_nil⟩
    · split
      · exact ⟨_, ⟨rfl, .inl rfl⟩, rfl, by simp⟩
      · split
        · exact ⟨[], .refl driver, puts_nil⟩
        · exact ⟨_, ⟨rfl, .inl rfl⟩, rfl, by simp⟩

end ether2ser.tx_queue
