import Ether2Ser.Sync.Consume

open ether2ser.error ether2ser.hdlc_common

namespace ether2ser.hdlc_sync

/-- The counters of an accumulator that the statistics report. -/
structure SyncCounters where
  lookahead_wait_syncing : UInt32
  lookahead_wait_synced : UInt32
  consume_count : UInt32
  hardcap_drop_events : UInt32
  hardcap_drop_bytes : UInt32
  deriving DecidableEq, Repr

def HdlcSyncAccumulator.counters (accumulator : HdlcSyncAccumulator) : SyncCounters where
  lookahead_wait_syncing := accumulator.lookahead_wait_syncing
  lookahead_wait_synced := accumulator.lookahead_wait_synced
  consume_count := accumulator.consume_count
  hardcap_drop_events := accumulator.hardcap_drop_events
  hardcap_drop_bytes := accumulator.hardcap_drop_bytes

/-- How often what the counters count has happened. -/
structure SyncEvents where
  waits_syncing : Nat
  waits_synced : Nat
  consumed : Nat
  hardcaps : Nat
  hardcap_bytes : Nat
  deriving DecidableEq, Repr

def SyncEvents.none : SyncEvents where
  waits_syncing := 0
  waits_synced := 0
  consumed := 0
  hardcaps := 0
  hardcap_bytes := 0

def SyncEvents.add (first second : SyncEvents) : SyncEvents where
  waits_syncing := first.waits_syncing + second.waits_syncing
  waits_synced := first.waits_synced + second.waits_synced
  consumed := first.consumed + second.consumed
  hardcaps := first.hardcaps + second.hardcaps
  hardcap_bytes := first.hardcap_bytes + second.hardcap_bytes

/-- The counters after the given events, counted from zero. -/
def SyncEvents.counters (events : SyncEvents) : SyncCounters where
  lookahead_wait_syncing := UInt32.ofNat events.waits_syncing
  lookahead_wait_synced := UInt32.ofNat events.waits_synced
  consume_count := UInt32.ofNat events.consumed
  hardcap_drop_events := UInt32.ofNat events.hardcaps
  hardcap_drop_bytes := UInt32.ofNat events.hardcap_bytes

/-- The waits that a poll counts. -/
def pollEvents (accumulator : HdlcSyncAccumulator) (out_frame : HdlcFrame) : SyncEvents :=
  let polled := (hdlc_sync_acc_poll accumulator out_frame).accumulator
  { SyncEvents.none with
    waits_syncing := if polled.lookahead_wait_syncing = accumulator.lookahead_wait_syncing then 0 else 1
    waits_synced := if polled.lookahead_wait_synced = accumulator.lookahead_wait_synced then 0 else 1 }

/-- The events that the consumption of a candidate counts: itself, and a hard
cap with the bytes it drops. -/
def consumeEvents (accumulator : HdlcSyncAccumulator) (accept : Bool) : SyncEvents :=
  let consumed := hdlc_sync_acc_consume_candidate accumulator accept
  { SyncEvents.none with
    consumed := 1
    hardcaps := if consumed.hardcap_drop_events = accumulator.hardcap_drop_events then 0 else 1
    hardcap_bytes := accumulator.position - accumulator.consumed accept - consumed.position }

theorem counters_drop (accumulator : HdlcSyncAccumulator) (drop_count : Nat) :
    (HdlcSyncAccumulator.counters <| hdlc_sync_drop_prefix accumulator drop_count) = accumulator.counters := by
  rw [hdlc_sync_drop_prefix_eq]
  rfl

theorem counters_finalize (accumulator : HdlcSyncAccumulator) (scan_index : Nat) :
    (hdlc_sync_finalize_poll_no_frame accumulator scan_index).counters = accumulator.counters := by
  by_cases hhunting : accumulator.state = .HDLC_SYNC_STATE_HUNTING
  · rw [hdlc_sync_finalize_poll_no_frame_hunting hhunting]
    rfl
  · rw [hdlc_sync_finalize_poll_no_frame_locked hhunting]
    rfl

theorem counters_process_byte (accumulator : HdlcSyncAccumulator) (byte : UInt8) :
    (hdlc_sync_acc_process_byte accumulator byte).2.counters = accumulator.counters := by
  unfold hdlc_sync_acc_process_byte
  split <;> rfl

/-- At most one wait has been counted. -/
def Waited (before after : SyncCounters) : Prop :=
  after = before ∨
    after = { before with lookahead_wait_syncing := before.lookahead_wait_syncing + 1 } ∨
    after = { before with lookahead_wait_synced := before.lookahead_wait_synced + 1 }

theorem waited_step_locked {count_wait : HdlcSyncAccumulator → HdlcSyncAccumulator}
    {stored : UInt8 → HdlcSyncCursor → HdlcSyncPollStepResult × HdlcSyncCursor} (cursor : HdlcSyncCursor)
    (hwait : Waited cursor.accumulator.counters (count_wait cursor.accumulator).counters)
    (hstored : ∀ aligned out_frame, (stored aligned { cursor with out_frame }).2.accumulator.counters =
      cursor.accumulator.counters) :
    Waited cursor.accumulator.counters (hdlc_sync_step_locked count_wait stored cursor).2.accumulator.counters := by
  unfold hdlc_sync_step_locked
  dsimp only
  split
  · exact .inl (counters_drop _ _)
  · split
    · split
      · exact hwait
      · exact .inl rfl
    · split
      · exact .inl rfl
      · exact .inl (hstored _ _)

theorem waited_step (cursor : HdlcSyncCursor) :
    Waited cursor.accumulator.counters (hdlc_sync_step cursor).2.accumulator.counters := by
  unfold hdlc_sync_step
  split
  · unfold hdlc_sync_step_hunting
    split <;> exact .inl rfl
  · exact waited_step_locked cursor (.inr (.inl rfl)) (fun _ _ => rfl)
  · apply waited_step_locked cursor (.inr (.inr rfl))
    intro aligned out_frame
    unfold stored_synced
    split <;> rfl

theorem counters_poll_progress {cursor next : HdlcSyncCursor} (hprogress : PollProgress cursor next) :
    next.accumulator.counters = cursor.accumulator.counters := by
  cases hprogress with
  | lock opening hinside hhunting hfound => rfl
  | oversized hinside hlocked hlong => exact counters_drop _ _
  | store aligned hinside hlocked hshort hroom haligned hflag => rfl

theorem waited_poll_turn {cursor : HdlcSyncCursor} {polled : HdlcSyncPolled}
    (hturn : hdlc_sync_poll_turn cursor = .inr polled) :
    Waited cursor.accumulator.counters polled.accumulator.counters := by
  have hstep := waited_step cursor
  unfold hdlc_sync_poll_turn at hturn
  split at hturn
  · generalize hdlc_sync_step cursor = outcome at hturn hstep
    split at hturn
    · cases hturn
    · cases hturn
      exact hstep
    · cases hturn
      exact hstep
    · cases hturn
      rw [counters_finalize]
      exact hstep
  · cases hturn
    rw [counters_finalize]
    exact .inl rfl

theorem waited_poll (accumulator : HdlcSyncAccumulator) (out_frame : HdlcFrame) :
    Waited accumulator.counters (hdlc_sync_acc_poll accumulator out_frame).accumulator.counters := by
  obtain hidle | ⟨last, hlast, hexit⟩ := hdlc_sync_acc_poll_cases accumulator out_frame
    (fun cursor => cursor.accumulator.counters = accumulator.counters)
    (fun _ _ hsame hturn => (counters_poll_progress (pollProgress_of_inl hturn)).trans hsame) rfl
  · rw [hidle]
    exact .inl rfl
  · rw [← hlast]
    exact waited_poll_turn hexit

theorem counters_add (first second : SyncEvents) :
    (first.add second).counters =
      { lookahead_wait_syncing := first.counters.lookahead_wait_syncing + second.counters.lookahead_wait_syncing
        lookahead_wait_synced := first.counters.lookahead_wait_synced + second.counters.lookahead_wait_synced
        consume_count := first.counters.consume_count + second.counters.consume_count
        hardcap_drop_events := first.counters.hardcap_drop_events + second.counters.hardcap_drop_events
        hardcap_drop_bytes := first.counters.hardcap_drop_bytes + second.counters.hardcap_drop_bytes } := by
  simp only [SyncEvents.counters, SyncEvents.add, UInt32.ofNat_add]

/-- A poll adds its waits to the counters. -/
theorem counters_poll {accumulator : HdlcSyncAccumulator} {events : SyncEvents} (out_frame : HdlcFrame)
    (h : accumulator.counters = events.counters) :
    (hdlc_sync_acc_poll accumulator out_frame).accumulator.counters =
      (events.add (pollEvents accumulator out_frame)).counters := by
  rw [counters_add, ← h]
  have hwaited := waited_poll accumulator out_frame
  unfold Waited at hwaited
  simp only [HdlcSyncAccumulator.counters, SyncCounters.mk.injEq] at hwaited ⊢
  obtain ⟨hsyncing, hsynced, hrest⟩ | ⟨hsyncing, hsynced, hrest⟩ | ⟨hsyncing, hsynced, hrest⟩ := hwaited
  · simp [pollEvents, SyncEvents.counters, SyncEvents.none, hsyncing, hsynced, hrest]
  · simp [pollEvents, SyncEvents.counters, SyncEvents.none, hsyncing, hsynced, hrest]
  · simp [pollEvents, SyncEvents.counters, SyncEvents.none, hsyncing, hsynced, hrest]

/-- The consumption of a candidate adds its events to the counters. -/
theorem counters_consume {accumulator : HdlcSyncAccumulator} {events : SyncEvents} {accept : Bool}
    (hvalid : accumulator.candidate_valid = true) (hpos : 0 < min (accumulator.consumed accept) accumulator.position)
    (h : accumulator.counters = events.counters) :
    (hdlc_sync_acc_consume_candidate accumulator accept).counters =
      (events.add (consumeEvents accumulator accept)).counters := by
  rw [counters_add, ← h]
  have hconsumed := hdlc_sync_acc_consume_candidate_eq hvalid hpos
  unfold hdlc_sync_hard_cap at hconsumed
  split at hconsumed
  · rename_i hfull
    have hkeep : 16 ≤ accumulator.buffer.length - accumulator.consumed accept := by
      simp only [hdlc_sync_reset_hunting_state, HdlcSyncAccumulator.position, List.length_drop,
        RX_HDLC_SYNC_MAX_BUFFER_SIZE] at hfull
      omega
    have hbytes : accumulator.buffer.length - accumulator.consumed accept -
        (accumulator.buffer.length -
          (accumulator.consumed accept + (accumulator.buffer.length - accumulator.consumed accept - 16))) =
        accumulator.buffer.length - accumulator.consumed accept - 16 := by omega
    simp [HdlcSyncAccumulator.counters, consumeEvents, SyncEvents.counters, SyncEvents.none, hconsumed,
      hdlc_sync_drop_prefix_eq, hdlc_sync_reset_hunting_state, HdlcSyncAccumulator.position, hbytes]
  · simp [HdlcSyncAccumulator.counters, consumeEvents, SyncEvents.counters, SyncEvents.none, hconsumed,
      hdlc_sync_reset_hunting_state, HdlcSyncAccumulator.position]

theorem SyncEvents.add_assoc (first second third : SyncEvents) :
    (first.add second).add third = first.add (second.add third) := by
  simp only [SyncEvents.add, Nat.add_assoc]

/-- Componentwise order of the event counts. -/
structure SyncEvents.Le (first second : SyncEvents) : Prop where
  waits_syncing : first.waits_syncing ≤ second.waits_syncing
  waits_synced : first.waits_synced ≤ second.waits_synced
  consumed : first.consumed ≤ second.consumed
  hardcaps : first.hardcaps ≤ second.hardcaps
  hardcap_bytes : first.hardcap_bytes ≤ second.hardcap_bytes

theorem SyncEvents.Le.refl (events : SyncEvents) : SyncEvents.Le events events :=
  ⟨Nat.le_refl _, Nat.le_refl _, Nat.le_refl _, Nat.le_refl _, Nat.le_refl _⟩

theorem SyncEvents.Le.trans {first second third : SyncEvents} (h : SyncEvents.Le first second)
    (h' : SyncEvents.Le second third) : SyncEvents.Le first third :=
  ⟨Nat.le_trans h.waits_syncing h'.waits_syncing, Nat.le_trans h.waits_synced h'.waits_synced,
    Nat.le_trans h.consumed h'.consumed, Nat.le_trans h.hardcaps h'.hardcaps,
    Nat.le_trans h.hardcap_bytes h'.hardcap_bytes⟩

/-- Each kind of event has been counted fewer than `bound` times. -/
structure SyncEvents.Below (events : SyncEvents) (bound : Nat) : Prop where
  waits_syncing : events.waits_syncing < bound
  waits_synced : events.waits_synced < bound
  consumed : events.consumed < bound
  hardcaps : events.hardcaps < bound
  hardcap_bytes : events.hardcap_bytes < bound

theorem SyncEvents.Below.of_le {first second : SyncEvents} {bound : Nat} (h : SyncEvents.Below second bound)
    (hle : SyncEvents.Le first second) : SyncEvents.Below first bound :=
  ⟨Nat.lt_of_le_of_lt hle.waits_syncing h.waits_syncing, Nat.lt_of_le_of_lt hle.waits_synced h.waits_synced,
    Nat.lt_of_le_of_lt hle.consumed h.consumed, Nat.lt_of_le_of_lt hle.hardcaps h.hardcaps,
    Nat.lt_of_le_of_lt hle.hardcap_bytes h.hardcap_bytes⟩

end ether2ser.hdlc_sync
