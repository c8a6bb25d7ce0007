import Ether2Ser.Sync.Access

open Traced
open ether2ser.error ether2ser.hdlc_common

namespace ether2ser.hdlc_sync.polling

/-- All accesses stay inside the valid cells. -/
abbrev InBounds {α : Type} (polling : Polling α) : Prop := Safe Access.InBounds polling

theorem inBounds_read_raw {accumulator : HdlcSyncAccumulator} {index : Nat} (hindex : index < accumulator.position) :
    InBounds (read_raw accumulator index) :=
  Safe.bind (safe_access hindex) (safe_pure _)

theorem inBounds_drop (accumulator : HdlcSyncAccumulator) (drop_count : Nat) :
    InBounds <| drop_prefix accumulator drop_count := by
  unfold drop_prefix
  split
  · exact safe_pure _
  · split
    · exact safe_pure _
    · rename_i hdrop
      refine Safe.bind (safe_foldlM ?_ ()) (safe_pure _)
      intro _ index hindex
      rw [List.mem_range'_1] at hindex
      exact Safe.bind (inBounds_read_raw (by omega)) (safe_pure _)

theorem inBounds_reject_oversized_candidate (cursor : HdlcSyncCursor) :
    InBounds (reject_oversized_candidate cursor) :=
  Safe.bind (inBounds_drop _ _) (safe_pure _)

/-- The checks of `hdlc_sync_get_aligned_byte` cover both bytes it reads. -/
theorem inBounds_get_aligned_byte (accumulator : HdlcSyncAccumulator) (raw_index bit_offset : Nat)
    (shift_right : Bool) : InBounds (get_aligned_byte accumulator raw_index bit_offset shift_right) := by
  unfold get_aligned_byte
  split
  · exact safe_pure _
  · rename_i hguard
    rw [not_or, ge_iff_le, Nat.not_le] at hguard
    split
    · exact Safe.bind (inBounds_read_raw hguard.1) (safe_pure _)
    · split
      · exact safe_pure _
      · rename_i hnext
        refine Safe.bind (inBounds_read_raw hguard.1) (Safe.bind (inBounds_read_raw (Nat.lt_of_not_le hnext)) ?_)
        cases shift_right <;> exact safe_pure _

theorem inBounds_aligned_is_sync (accumulator : HdlcSyncAccumulator) (raw_index bit_offset : Nat)
    (shift_right : Bool) : InBounds (aligned_is_sync accumulator raw_index bit_offset shift_right) :=
  Safe.bind (inBounds_get_aligned_byte _ _ _ _) (safe_pure _)

theorem inBounds_find_shifted (accumulator : HdlcSyncAccumulator) (start : Nat) (shift_right : Bool) :
    InBounds (find_shifted accumulator start shift_right) :=
  safe_findSome? fun _ _ => Safe.bind (inBounds_aligned_is_sync _ _ _ _) (safe_pure _)

theorem inBounds_find_opening_at (accumulator : HdlcSyncAccumulator) (allow_left_shift : Bool) (start : Nat) :
    InBounds (find_opening_at accumulator allow_left_shift start) := by
  refine Safe.bind (inBounds_aligned_is_sync _ _ _ _) ?_
  split
  · exact safe_pure _
  · refine Safe.bind (inBounds_find_shifted _ _ _) ?_
    split
    · exact safe_pure _
    · split
      · exact Safe.bind (inBounds_find_shifted _ _ _) (safe_pure _)
      · exact safe_pure _

theorem inBounds_find_opening_candidate (accumulator : HdlcSyncAccumulator) (scan_index : Nat)
    (allow_left_shift : Bool) : InBounds (find_opening_candidate accumulator scan_index allow_left_shift) := by
  unfold find_opening_candidate
  split
  · exact safe_pure _
  · dsimp only
    split
    · exact safe_pure _
    · exact safe_findSome? fun _ _ => inBounds_find_opening_at _ _ _

theorem inBounds_probe_closing (accumulator : HdlcSyncAccumulator) (bit_pos : Nat) (shift_right : Bool)
    (probes : List Nat) (frame_size : Nat) :
    InBounds (probe_closing accumulator bit_pos shift_right probes frame_size) := by
  induction probes generalizing frame_size with
  | nil => exact safe_pure _
  | cons probe probes ih =>
    refine Safe.bind (inBounds_get_aligned_byte _ _ _ _) ?_
    split
    · exact safe_pure _
    · split
      · exact safe_pure _
      · exact ih _

theorem inBounds_try_candidate_short (accumulator : HdlcSyncAccumulator) (best : Option (HdlcSyncOpening × Nat))
    (opening : HdlcSyncOpening) : InBounds (try_candidate_short accumulator best opening) := by
  unfold try_candidate_short
  split
  · exact safe_pure _
  · refine Safe.bind (inBounds_aligned_is_sync _ _ _ _) ?_
    split
    · exact safe_pure _
    · refine Safe.bind (inBounds_probe_closing _ _ _ _ _) ?_
      split
      · exact safe_pure _
      · split
        · exact safe_pure _
        · split <;> exact safe_pure _

theorem inBounds_find_complete_candidate_short (accumulator : HdlcSyncAccumulator) (scan_index : Nat) :
    InBounds (find_complete_candidate_short accumulator scan_index) := by
  unfold find_complete_candidate_short
  split
  · exact safe_pure _
  · dsimp only
    split
    · exact safe_pure _
    · exact Safe.bind (safe_foldlM (fun _ _ _ => inBounds_try_candidate_short _ _ _) none) (safe_pure _)

theorem inBounds_find_opening (accumulator : HdlcSyncAccumulator) (scan_index : Nat) :
    InBounds (find_opening accumulator scan_index) := by
  refine Safe.bind (inBounds_find_complete_candidate_short _ _) ?_
  split
  · exact safe_pure _
  · exact inBounds_find_opening_candidate _ _ _

/-- The frame writes of a step are covered by the capacity check, the one that
opens a candidate by the check at the start of the poll. -/
theorem inBounds_step {cursor : HdlcSyncCursor} (hcapacity : 0 < cursor.out_frame.capacity) :
    InBounds (step cursor) := by
  have hlocked : ∀ count_wait stored, InBounds (step_locked count_wait stored cursor) := by
    intro count_wait stored
    unfold step_locked
    dsimp only
    split
    · exact Safe.bind (inBounds_reject_oversized_candidate _) (safe_pure _)
    · refine Safe.bind (inBounds_get_aligned_byte _ _ _ _) ?_
      split
      · exact safe_pure _
      · split
        · exact safe_pure _
        · rename_i hroom
          exact Safe.bind (safe_access (Nat.lt_of_not_le hroom)) (safe_pure _)
  unfold step
  split
  · refine Safe.bind (inBounds_find_opening _ _) ?_
    split
    · exact safe_pure _
    · exact Safe.bind (safe_access hcapacity) (safe_pure _)
  · exact hlocked _ _
  · exact hlocked _ _

theorem inBounds_finalize_poll_no_frame (accumulator : HdlcSyncAccumulator) (scan_index : Nat) :
    InBounds (finalize_poll_no_frame accumulator scan_index) := by
  unfold finalize_poll_no_frame
  dsimp only
  split
  · exact safe_pure _
  · exact Safe.bind (inBounds_drop _ _) (safe_pure _)

theorem inBounds_poll_turn {cursor : HdlcSyncCursor} (hcapacity : 0 < cursor.out_frame.capacity) :
    InBounds (poll_turn cursor) := by
  unfold poll_turn
  split
  · refine Safe.bind (inBounds_step hcapacity) ?_
    split
    · exact safe_pure _
    · exact safe_pure _
    · exact safe_pure _
    · exact Safe.bind (inBounds_finalize_poll_no_frame _ _) (safe_pure _)
  · exact Safe.bind (inBounds_finalize_poll_no_frame _ _) (safe_pure _)

theorem capacity_poll_turn {cursor next : HdlcSyncCursor} (hturn : hdlc_sync_poll_turn cursor = .inl next) :
    next.out_frame.capacity = cursor.out_frame.capacity := by
  cases pollProgress_of_inl hturn <;> rfl

/-- A poll reads the raw buffer only where bytes have been received and writes
the frame only inside its buffer. -/
theorem inBounds_acc_poll (accumulator : HdlcSyncAccumulator) (out_frame : HdlcFrame) :
    InBounds (acc_poll accumulator out_frame) := by
  unfold acc_poll
  split
  · exact safe_pure _
  · rename_i hcapacity
    split
    · exact safe_pure _
    · split
      · exact safe_pure _
      · refine safe_iterate (fun _ => inBounds_poll_turn) ?_ _ (Nat.pos_of_ne_zero hcapacity)
        intro cursor next hpos hnext
        rw [value_poll_turn] at hnext
        rw [capacity_poll_turn hnext]
        exact hpos

end ether2ser.hdlc_sync.polling
