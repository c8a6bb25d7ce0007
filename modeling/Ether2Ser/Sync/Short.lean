import Ether2Ser.Sync.Locked

open ether2ser.hdlc_common

namespace ether2ser.hdlc_sync

/-- The size of the complete candidate that an opening begins, if the
exhaustive search takes the opening for one. -/
def candidateSize (accumulator : HdlcSyncAccumulator) (opening : HdlcSyncOpening) : Option Nat :=
  if opening.bit_pos = 0 ∧ opening.shift_right then none
  else if !aligned_is_sync accumulator opening.start_index opening.bit_pos opening.shift_right then none
  else hdlc_sync_probe_closing accumulator opening.bit_pos opening.shift_right
    (List.range' (opening.start_index + 1) (accumulator.position - (opening.start_index + 1))) 1

section

variable {accumulator : HdlcSyncAccumulator} {opening : HdlcSyncOpening} {openings : List HdlcSyncOpening}

theorem hdlc_sync_try_candidate_short_of_none (hnone : candidateSize accumulator opening = none)
    (best : Option (HdlcSyncOpening × Nat)) : hdlc_sync_try_candidate_short accumulator best opening = best := by
  unfold candidateSize at hnone
  unfold hdlc_sync_try_candidate_short
  split
  · rfl
  · rename_i hguard
    rw [if_neg hguard] at hnone
    split
    · rfl
    · rename_i hsync
      rw [if_neg hsync] at hnone
      rw [hnone]

theorem hdlc_sync_try_candidate_short_of_some {frame_size : Nat}
    (hsome : candidateSize accumulator opening = some frame_size) (best : Option (HdlcSyncOpening × Nat)) :
    hdlc_sync_try_candidate_short accumulator best opening =
      match best with
      | none => some (opening, frame_size)
      | some (_, best_frame_size) => if frame_size > best_frame_size then some (opening, frame_size) else best := by
  unfold candidateSize at hsome
  unfold hdlc_sync_try_candidate_short
  split at hsome
  · cases hsome
  · rename_i hguard
    split at hsome
    · cases hsome
    · rename_i hsync
      cases best with
      | none => simp only [if_neg hguard, if_neg hsync, hsome]
      | some best => simp only [if_neg hguard, if_neg hsync, hsome]

theorem foldl_try_candidate_short_of_none (hnone : ∀ opening ∈ openings, candidateSize accumulator opening = none)
    (best : Option (HdlcSyncOpening × Nat)) :
    openings.foldl (hdlc_sync_try_candidate_short accumulator) best = best := by
  induction openings with
  | nil => rfl
  | cons opening openings ih =>
    rw [List.foldl_cons, hdlc_sync_try_candidate_short_of_none (hnone opening List.mem_cons_self)]
    exact ih fun opening hmem => hnone opening (List.mem_cons_of_mem _ hmem)

/-- A candidate is kept as long as no longer one follows. -/
theorem foldl_try_candidate_short_of_le {best : HdlcSyncOpening} {best_frame_size : Nat}
    (hle : ∀ opening ∈ openings, ∀ frame_size, candidateSize accumulator opening = some frame_size →
      frame_size ≤ best_frame_size) :
    openings.foldl (hdlc_sync_try_candidate_short accumulator) (some (best, best_frame_size)) =
      some (best, best_frame_size) := by
  induction openings with
  | nil => rfl
  | cons opening openings ih =>
    have hkept : hdlc_sync_try_candidate_short accumulator (some (best, best_frame_size)) opening =
        some (best, best_frame_size) := by
      cases hsize : candidateSize accumulator opening with
      | none => exact hdlc_sync_try_candidate_short_of_none hsize _
      | some frame_size =>
        have := hle opening List.mem_cons_self frame_size hsize
        rw [hdlc_sync_try_candidate_short_of_some hsize]
        exact if_neg (by omega)
    rw [List.foldl_cons, hkept]
    exact ih fun opening hmem => hle opening (List.mem_cons_of_mem _ hmem)

/-- The closing flag that ends a probe. -/
theorem hdlc_sync_probe_closing_some {bit_pos probe count frame_size found : Nat} {shift_right : Bool}
    (hfound : hdlc_sync_probe_closing accumulator bit_pos shift_right (List.range' probe count) frame_size =
      some found) :
    ∃ closing, probe ≤ closing ∧ found = frame_size + (closing - probe) + 1 ∧
      hdlc_sync_get_aligned_byte accumulator closing bit_pos shift_right = some accumulator.sync_byte := by
  induction count generalizing probe frame_size with
  | zero => cases hfound
  | succ count ih =>
    rw [List.range'_succ, hdlc_sync_probe_closing] at hfound
    split at hfound
    · cases hfound
    · rename_i probe_byte haligned
      split at hfound
      · rename_i hclosing
        cases hfound
        exact ⟨probe, Nat.le_refl _, by omega, hclosing.1 ▸ haligned⟩
      · obtain ⟨closing, hle, hsize, hclosing⟩ := ih hfound
        exact ⟨closing, by omega, by omega, hclosing⟩

/-- A probe over bytes other than the flag ends at the flag behind them. -/
theorem hdlc_sync_probe_closing_eq {bit_pos probe count frame_size closing : Nat} {shift_right : Bool}
    (hprobe : probe ≤ closing) (hcount : closing < probe + count)
    (hsize : HDLC_SYNC_MIN_FRAME_SIZE_BYTES ≤ frame_size + (closing - probe) + 1)
    (hbefore : ∀ i, probe ≤ i → i < closing → ∃ byte,
      hdlc_sync_get_aligned_byte accumulator i bit_pos shift_right = some byte ∧ byte ≠ accumulator.sync_byte)
    (hclosing : hdlc_sync_get_aligned_byte accumulator closing bit_pos shift_right = some accumulator.sync_byte) :
    hdlc_sync_probe_closing accumulator bit_pos shift_right (List.range' probe count) frame_size =
      some (frame_size + (closing - probe) + 1) := by
  induction count generalizing probe frame_size with
  | zero => omega
  | succ count ih =>
    rw [List.range'_succ, hdlc_sync_probe_closing]
    obtain rfl | hlt := Nat.eq_or_lt_of_le hprobe
    · rw [hclosing]
      dsimp only
      rw [Nat.sub_self] at hsize ⊢
      rw [if_pos ⟨rfl, hsize⟩]
    · obtain ⟨byte, haligned, hbyte⟩ := hbefore probe (Nat.le_refl _) hlt
      rw [haligned]
      dsimp only
      rw [if_neg (fun hguard => hbyte hguard.1), ih hlt (by omega) (by omega) (fun i hi => hbefore i (by omega))]
      congr 1
      omega

theorem candidateSize_eq_some {start bit_pos frame_size : Nat} {shift_right : Bool}
    (hdirection : ¬(bit_pos = 0 ∧ shift_right = true))
    (hsync : aligned_is_sync accumulator start bit_pos shift_right = true)
    (hprobe : hdlc_sync_probe_closing accumulator bit_pos shift_right
      (List.range' (start + 1) (accumulator.position - (start + 1))) 1 = some frame_size) :
    candidateSize accumulator ⟨start, bit_pos, shift_right⟩ = some frame_size := by
  rw [candidateSize, if_neg hdirection, hsync]
  exact hprobe

/-- No candidate is longer than the bytes behind its opening. -/
theorem candidateSize_le {frame_size : Nat} (hsome : candidateSize accumulator opening = some frame_size) :
    opening.start_index + frame_size ≤ accumulator.position ∧
      (opening.bit_pos ≠ 0 → opening.start_index + frame_size < accumulator.position) := by
  unfold candidateSize at hsome
  split at hsome
  · cases hsome
  · split at hsome
    · cases hsome
    · obtain ⟨closing, hle, hsize, hclosing⟩ := hdlc_sync_probe_closing_some hsome
      obtain ⟨hinside, hnext⟩ := received_of_aligned hclosing
      refine ⟨by omega, fun hshifted => ?_⟩
      have := hnext hshifted
      omega

/-- The exhaustive search selects an opening if none before it begins a
candidate and none behind it a longer one. -/
theorem hdlc_sync_find_complete_candidate_short_eq {earlier later : List HdlcSyncOpening} {frame_size : Nat}
    (hmin : HDLC_SYNC_MIN_FRAME_SIZE_BYTES ≤ accumulator.position)
    (hmax : accumulator.position ≤ HDLC_SYNC_SHORT_BUFFER_SEARCH_LIMIT)
    (hopenings : openings_from 0 (accumulator.position - 1) = earlier ++ opening :: later)
    (hearlier : ∀ opening ∈ earlier, candidateSize accumulator opening = none)
    (hsize : candidateSize accumulator opening = some frame_size)
    (hlater : ∀ opening ∈ later, ∀ size, candidateSize accumulator opening = some size → size ≤ frame_size) :
    hdlc_sync_find_complete_candidate_short accumulator 0 = some opening := by
  have hstart : search_start 0 = 0 := rfl
  rw [HDLC_SYNC_MIN_FRAME_SIZE_BYTES] at hmin
  unfold hdlc_sync_find_complete_candidate_short
  rw [if_neg (by rw [HDLC_SYNC_MIN_FRAME_SIZE_BYTES]; omega)]
  dsimp only
  rw [hstart, if_neg (by omega), Nat.sub_zero, hopenings, List.foldl_append, List.foldl_cons,
    foldl_try_candidate_short_of_none hearlier, hdlc_sync_try_candidate_short_of_some hsize,
    foldl_try_candidate_short_of_le hlater]
  rfl

end

end ether2ser.hdlc_sync
