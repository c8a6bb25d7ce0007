import Ether2Ser.System.EventLoop

open ether2ser.pio_tx_rx_driver ether2ser.tx_queue

namespace ether2ser.event_loop

variable {σ : Type}

/-- What reaches the RTS line: the transmit calls of the data path and the
dispatch of a baudrate setting, with the time between them. -/
inductive RtsCall where
  | elapse
  | tx_put (data : UInt8)
  | tx_poll
  | tx_clock_hard_reset
  | set_v24_baudrate (baudrate : UInt32)
  deriving DecidableEq, Repr

def AppCtx.callRts (hw : TxHardware σ) (app : AppCtx σ) : RtsCall → AppCtx σ
  | .elapse => { app with driver := app.driver.elapse hw }
  | .tx_put data => { app with driver := (pio_tx_rx_driver.tx_put hw data app.driver).2 }
  | .tx_poll => { app with driver := (pio_tx_rx_driver.tx_poll hw app.driver).2 }
  | .tx_clock_hard_reset => { app with driver := pio_tx_rx_driver.tx_clock_hard_reset hw app.driver }
  | .set_v24_baudrate baudrate => event_dispatch hw app (.set_v24_baudrate baudrate)

def AppCtx.callsRts (hw : TxHardware σ) (app : AppCtx σ) (calls : List RtsCall) : AppCtx σ :=
  calls.foldl (AppCtx.callRts hw) app

/-- The level of RTS after an event, given the level before. -/
def rtsAfter (level : Bool) : TxEvent → Bool
  | .rts driven _ => driven
  | _ => level

/-- The last value driven onto RTS, which is low at boot. -/
def rtsLevel (trace : List TxEvent) : Bool := trace.foldl rtsAfter false

/-- Once the FIFO has run empty and the hold-off time is over, two polls have
lowered RTS. -/
def RtsReleases (hw : TxHardware σ) (driver : TxDriver σ) : Prop :=
  ∀ pio now_us, hw.pio_sm_is_tx_fifo_empty driver.pio = true → hw.pio_sm_is_tx_fifo_empty pio = true →
    (tx_poll hw driver).2.deassert_deadline_us ≤ now_us →
    rtsLevel (tx_poll hw { (tx_poll hw driver).2 with pio, now_us }).2.trace = false

/-- The flag mirrors the output, and RTS can still be lowered. -/
def RtsMirrored (hw : TxHardware σ) (driver : TxDriver σ) : Prop :=
  driver.v24_runtime.rts_set = rtsLevel driver.trace ∧ (rtsLevel driver.trace = true → RtsReleases hw driver)

theorem rtsLevel_concat (trace : List TxEvent) (event : TxEvent) :
    rtsLevel (trace ++ [event]) = rtsAfter (rtsLevel trace) event := by
  rw [rtsLevel, List.foldl_append]
  rfl

theorem rtsLevel_append_cts (trace : List TxEvent) (edges : Nat) :
    rtsLevel (trace ++ List.replicate edges .cts) = rtsLevel trace := by
  induction edges with
  | zero => rw [List.replicate_zero, List.append_nil]
  | succ edges ih =>
    rw [List.replicate_succ', ← List.append_assoc, rtsLevel_concat, ih]
    rfl

section

variable {hw : TxHardware σ} {driver : TxDriver σ}

theorem rtsLevel_tx_assert_rts (hw : TxHardware σ) (h : driver.v24_runtime.rts_set = rtsLevel driver.trace) :
    (tx_assert_rts hw driver).v24_runtime.rts_set = rtsLevel (tx_assert_rts hw driver).trace := by
  unfold tx_assert_rts
  split
  · exact h
  · rw [rtsLevel_concat]
    rfl

theorem rtsLevel_tx_put (h : driver.v24_runtime.rts_set = rtsLevel driver.trace) (data : UInt8) :
    (tx_put hw data driver).2.v24_runtime.rts_set = rtsLevel (tx_put hw data driver).2.trace := by
  have hassert := rtsLevel_tx_assert_rts hw h
  unfold tx_put
  simp only
  split
  · exact hassert
  · rw [rtsLevel_concat]
    exact hassert

/-- Everything that a poll can do to a raised RTS. -/
theorem tx_poll_raised (hw : TxHardware σ) (hraised : driver.v24_runtime.rts_set = true) :
    ((tx_poll hw driver).2.v24_runtime.rts_set = true ∧
        rtsLevel (tx_poll hw driver).2.trace = rtsLevel driver.trace) ∨
      ((tx_poll hw driver).2.v24_runtime.rts_set = false ∧ rtsLevel (tx_poll hw driver).2.trace = false) := by
  unfold tx_poll
  simp only [hraised, Bool.not_true, Bool.false_eq_true, if_false]
  split
  · exact .inl ⟨hraised, rfl⟩
  · split
    · refine .inl ⟨hraised, ?_⟩
      rw [rtsLevel_concat]
      rfl
    · split
      · exact .inl ⟨hraised, rfl⟩
      · refine .inr ⟨rfl, ?_⟩
        rw [rtsLevel_concat]
        rfl

theorem tx_poll_lowered (hw : TxHardware σ) (hlowered : driver.v24_runtime.rts_set = false) :
    (tx_poll hw driver).2 = { driver with deassert_pending := false } := by
  simp [tx_poll, hlowered]

theorem rtsLevel_tx_poll (h : driver.v24_runtime.rts_set = rtsLevel driver.trace) :
    (tx_poll hw driver).2.v24_runtime.rts_set = rtsLevel (tx_poll hw driver).2.trace := by
  cases hset : driver.v24_runtime.rts_set with
  | false =>
    rw [tx_poll_lowered hw hset]
    exact h
  | true =>
    obtain ⟨hkept, hsame⟩ | ⟨hlow, hlevel⟩ := tx_poll_raised hw hset
    · rw [hkept, hsame, ← h, hset]
    · rw [hlow, hlevel]

/-- A poll of an empty FIFO starts the hold-off time, or goes on with it, or
lowers RTS at its end. -/
theorem tx_poll_of_empty (hraised : driver.v24_runtime.rts_set = true)
    (hempty : hw.pio_sm_is_tx_fifo_empty driver.pio = true) :
    ((tx_poll hw driver).2.v24_runtime.rts_set = true ∧ (tx_poll hw driver).2.deassert_pending = true ∧
      (driver.deassert_pending = true → driver.now_us < driver.deassert_deadline_us)) ∨
    ((tx_poll hw driver).2.v24_runtime.rts_set = false ∧ rtsLevel (tx_poll hw driver).2.trace = false) := by
  unfold tx_poll
  simp only [hraised, hempty, Bool.not_true, Bool.true_or, Bool.false_eq_true, if_false]
  split
  · rename_i hpending
    refine .inl ⟨hraised, rfl, fun hset => ?_⟩
    simp [hset] at hpending
  · rename_i hpending
    split
    · rename_i hearly
      exact .inl ⟨hraised, by simpa using hpending, fun _ => hearly⟩
    · refine .inr ⟨rfl, ?_⟩
      rw [rtsLevel_concat]
      rfl

theorem rtsReleases_of_raised (hraised : driver.v24_runtime.rts_set = true) : RtsReleases hw driver := by
  intro pio now_us hempty hlater hdeadline
  obtain ⟨hset, hpending, -⟩ | ⟨hset, hlevel⟩ := tx_poll_of_empty hraised hempty
  · obtain ⟨-, -, hearly⟩ | ⟨-, hlevel⟩ :=
      @tx_poll_of_empty σ hw { (tx_poll hw driver).2 with pio, now_us } hset hlater
    · exact absurd (hearly hpending) (Nat.not_lt_of_le hdeadline)
    · exact hlevel
  · rw [@tx_poll_lowered σ { (tx_poll hw driver).2 with pio, now_us } hw hset]
    exact hlevel

theorem rtsMirrored_iff : RtsMirrored hw driver ↔ driver.v24_runtime.rts_set = rtsLevel driver.trace := by
  constructor
  · exact fun h => h.1
  · exact fun h => ⟨h, fun hlevel => rtsReleases_of_raised (h.trans hlevel)⟩

end

section

variable {hw : TxHardware σ} {app : AppCtx σ}

/-- A baudrate that differs from the current one clears the flag and leaves the
output as it is. -/
theorem callRts_set_v24_baudrate (hw : TxHardware σ) {baudrate : UInt32} (hne : app.v24_config.baudrate ≠ baudrate) :
    (app.callRts hw (.set_v24_baudrate baudrate)).driver.v24_runtime.rts_set = false ∧
      (app.callRts hw (.set_v24_baudrate baudrate)).driver.trace = app.driver.trace := by
  simp [AppCtx.callRts, event_dispatch, hne, reinit_v24_config, tx_clock_update_settings]

/-- Every call keeps flag and output equal, a change of the baudrate only while
RTS is low. -/
theorem rtsMirrored_callRts (h : RtsMirrored hw app.driver) (call : RtsCall)
    (hquiet : ∀ baudrate, call = .set_v24_baudrate baudrate → app.v24_config.baudrate ≠ baudrate →
      rtsLevel app.driver.trace = false) :
    RtsMirrored hw (app.callRts hw call).driver := by
  rw [rtsMirrored_iff] at h ⊢
  cases call with
  | elapse =>
    simp only [AppCtx.callRts, TxDriver.elapse, rtsLevel_append_cts]
    exact h
  | tx_put data => exact rtsLevel_tx_put h data
  | tx_poll => exact rtsLevel_tx_poll h
  | tx_clock_hard_reset =>
    simp only [AppCtx.callRts, pio_tx_rx_driver.tx_clock_hard_reset]
    rw [rtsLevel_concat]
    exact h
  | set_v24_baudrate baudrate =>
    by_cases hsame : app.v24_config.baudrate = baudrate
    · simp only [AppCtx.callRts, event_dispatch, hsame, ne_eq, not_true_eq_false, if_false]
      exact h
    · obtain ⟨hset, htrace⟩ := callRts_set_v24_baudrate hw hsame
      rw [hset, htrace, hquiet baudrate rfl hsame]

end

theorem callsRts_concat (hw : TxHardware σ) (app : AppCtx σ) (calls : List RtsCall) (call : RtsCall) :
    app.callsRts hw (calls ++ [call]) = (app.callsRts hw calls).callRts hw call := by
  rw [AppCtx.callsRts, List.foldl_append]
  rfl

/-- From boot on, the flag mirrors the output after every call exactly if each
dispatched change of the baudrate finds RTS low. -/
theorem rts_mirrored_throughout_iff (hw : TxHardware σ) (v24_config : V24Config) (tx_rts_holdoff_us : Nat) (pio : σ)
    (calls : List RtsCall) :
    let boot := (LoopState.boot v24_config tx_rts_holdoff_us pio).app
    (∀ done, done <+: calls → RtsMirrored hw (boot.callsRts hw done).driver) ↔
    ∀ done baudrate, done ++ [.set_v24_baudrate baudrate] <+: calls →
      (boot.callsRts hw done).v24_config.baudrate ≠ baudrate →
      rtsLevel (boot.callsRts hw done).driver.trace = false := by
  intro boot
  constructor
  · intro hmirrored done baudrate hdone hne
    obtain ⟨hflag, -⟩ := hmirrored _ hdone
    obtain ⟨hset, htrace⟩ := callRts_set_v24_baudrate hw hne
    rw [callsRts_concat, hset, htrace] at hflag
    exact hflag.symm
  · intro hquiet done
    induction done using List.reverseRecOn with
    | nil => exact fun _ => rtsMirrored_iff.mpr rfl
    | append_singleton done call ih =>
      intro hdone
      have hbefore : done <+: calls := (List.prefix_append done [call]).trans hdone
      rw [callsRts_concat]
      apply rtsMirrored_callRts (ih hbefore) call
      rintro baudrate rfl hne
      exact hquiet done baudrate hdone hne

/-- A line whose FIFO is always empty and whose clock stands still. -/
def idleTx : TxHardware Unit where
  elapse := fun _ => ({ us := 0, cts_edges := 0 }, ())
  pio_sm_is_tx_fifo_full := fun _ => false
  pio_sm_is_tx_fifo_empty := fun _ => true
  pio_sm_put := fun _ _ => ()
  pio_sm_clear_fifos := fun _ => ()
  pio_sm_restart := fun _ => ()
  pio_sm_clkdiv_restart := fun _ => ()
  pio_sm_set_enabled := fun _ _ => ()
  txstall := fun _ => true
  clear_txstall := fun _ => ()
  gpio_put_rts := fun _ _ => ()

/-- A change of the baudrate behind the first byte of a frame leaves RTS up and
the flag down, so that no poll lowers RTS again. -/
theorem rts_left_raised :
    let boot := (LoopState.boot { baudrate := 9600, external_clock := false } 4305 ()).app
    let app := boot.callsRts idleTx [.tx_put 0x7E, .set_v24_baudrate 19200]
    app.driver.v24_runtime.rts_set = false ∧ rtsLevel app.driver.trace = true ∧ ¬ RtsMirrored idleTx app.driver := by
  have hset : ((LoopState.boot { baudrate := 9600, external_clock := false } 4305 ()).app.callsRts idleTx
      [.tx_put 0x7E, .set_v24_baudrate 19200]).driver.v24_runtime.rts_set = false := by decide +kernel
  have hlevel : rtsLevel ((LoopState.boot { baudrate := 9600, external_clock := false } 4305 ()).app.callsRts idleTx
      [.tx_put 0x7E, .set_v24_baudrate 19200]).driver.trace = true := by decide +kernel
  refine ⟨hset, hlevel, fun h => ?_⟩
  rw [rtsMirrored_iff, hset, hlevel] at h
  cases h

end ether2ser.event_loop
