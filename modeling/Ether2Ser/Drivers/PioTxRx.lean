import Mathlib.Data.UInt
import Mathlib.Data.List.Basic

namespace ether2ser.pio_tx_rx_driver

/-- What happens around the driver between two of its calls: the microseconds
that pass and the CTS edges counted by the interrupt handler. -/
structure Interlude where
  us : Nat
  cts_edges : Nat
  deriving DecidableEq, Repr

/-- The transmit state machine and the pins, over an arbitrary state that also
decides the interludes and every reading. -/
structure TxHardware (σ : Type) where
  elapse : σ → Interlude × σ
  pio_sm_is_tx_fifo_full : σ → Bool
  pio_sm_is_tx_fifo_empty : σ → Bool
  pio_sm_put : UInt8 → σ → σ
  pio_sm_clear_fifos : σ → σ
  pio_sm_restart : σ → σ
  pio_sm_clkdiv_restart : σ → σ
  pio_sm_set_enabled : Bool → σ → σ
  txstall : σ → Bool
  clear_txstall : σ → σ
  gpio_put_rts : Bool → σ → σ

/-- What an observer of the driver records. -/
inductive TxEvent where
  | cts
  | put (byte : UInt8) (at_us : Nat)
  | reset
  | rts (level : Bool) (at_us : Nat)
  | holdoff (at_us : Nat)
  deriving DecidableEq, Repr

/-- The transmit fields of `v24_runtime_t`. -/
structure V24Runtime where
  rts_set : Bool
  tx_rts_holdoff_us : Nat
  cts_toggle_seq : UInt32
  deriving DecidableEq, Repr

/-- The transmit side of the driver: its runtime, the statics of `tx_poll`, the
clock and the hardware. The trace is read by no function of the driver. -/
structure TxDriver (σ : Type) where
  v24_runtime : V24Runtime
  deassert_pending : Bool
  deassert_deadline_us : Nat
  now_us : Nat
  pio : σ
  trace : List TxEvent

/-- The fields of `V24_CONFIG_T` that the data path depends on. -/
structure V24Config where
  baudrate : UInt32
  external_clock : Bool
  deriving DecidableEq, Repr

def US_PER_SECOND : UInt32 := 1000000
def V24_BAUD_1200 : UInt32 := 1200
def V24_RTS_MIN_HOLDOFF : UInt32 := 200
def V24_RTS_HOLDOFF_MARGIN : UInt32 := 41

/-- `reinit_v24_config`, where the quotient by a zero baudrate is undefined in
the source and zero here. -/
def reinit_v24_config (config : V24Config) (runtime : V24Runtime) (baudrate : UInt32) : V24Config × V24Runtime :=
  let t_bit_us := (US_PER_SECOND + baudrate - 1) / baudrate
  let tx_rts_holdoff_us := V24_RTS_HOLDOFF_MARGIN * t_bit_us
  ({ config with baudrate := if baudrate ≥ V24_BAUD_1200 then baudrate else V24_BAUD_1200 },
    { runtime with
      tx_rts_holdoff_us :=
        (if tx_rts_holdoff_us < V24_RTS_MIN_HOLDOFF then V24_RTS_MIN_HOLDOFF else tx_rts_holdoff_us).toNat
      rts_set := false })

variable {σ : Type}

/-- The driver at boot. -/
def TxDriver.boot (tx_rts_holdoff_us : Nat) (pio : σ) : TxDriver σ where
  v24_runtime := { rts_set := false, tx_rts_holdoff_us, cts_toggle_seq := 0 }
  deassert_pending := false
  deassert_deadline_us := 0
  now_us := 0
  pio := pio
  trace := []

/-- Let the world run up to the next call, with `cts_raw_irq_handler` counting
every edge. -/
def TxDriver.elapse (hw : TxHardware σ) (driver : TxDriver σ) : TxDriver σ :=
  let (interlude, pio) := hw.elapse driver.pio
  { driver with
    v24_runtime := { driver.v24_runtime with
      cts_toggle_seq := driver.v24_runtime.cts_toggle_seq + UInt32.ofNat interlude.cts_edges }
    now_us := driver.now_us + interlude.us
    pio
    trace := driver.trace ++ List.replicate interlude.cts_edges .cts }

def tx_clock_get_cts_toggle_seq (driver : TxDriver σ) : UInt32 := driver.v24_runtime.cts_toggle_seq

/-- The first part of `tx_put`: raise RTS unless it is up. -/
def tx_assert_rts (hw : TxHardware σ) (driver : TxDriver σ) : TxDriver σ :=
  if driver.v24_runtime.rts_set then driver
  else
    { driver with
      v24_runtime := { driver.v24_runtime with rts_set := true }
      pio := hw.gpio_put_rts true (hw.clear_txstall driver.pio)
      trace := driver.trace ++ [.rts true driver.now_us] }

def tx_put (hw : TxHardware σ) (data : UInt8) (driver : TxDriver σ) : Bool × TxDriver σ :=
  let driver := tx_assert_rts hw driver
  if hw.pio_sm_is_tx_fifo_full driver.pio then (false, driver)
  else (true, { driver with
    pio := hw.pio_sm_put data driver.pio
    trace := driver.trace ++ [.put data driver.now_us] })

/-- Lower RTS once the FIFO has run dry for the hold-off time. -/
def tx_poll (hw : TxHardware σ) (driver : TxDriver σ) : Bool × TxDriver σ :=
  if !driver.v24_runtime.rts_set then (true, { driver with deassert_pending := false })
  else
    let fifo_empty := hw.pio_sm_is_tx_fifo_empty driver.pio
    let stalled := hw.txstall driver.pio
    let ready_to_deassert := fifo_empty || stalled
    if !ready_to_deassert then (false, { driver with deassert_pending := false })
    else if !driver.deassert_pending then
      (false, { driver with
        deassert_pending := true
        deassert_deadline_us := driver.now_us + driver.v24_runtime.tx_rts_holdoff_us
        trace := driver.trace ++ [.holdoff driver.now_us] })
    else if driver.now_us < driver.deassert_deadline_us then (false, driver)
    else (true, { driver with
      v24_runtime := { driver.v24_runtime with rts_set := false }
      deassert_pending := false
      pio := hw.gpio_put_rts false driver.pio
      trace := driver.trace ++ [.rts false driver.now_us] })

def tx_clock_hard_reset (hw : TxHardware σ) (driver : TxDriver σ) : TxDriver σ :=
  let pio := hw.pio_sm_set_enabled false driver.pio
  let pio := hw.pio_sm_clear_fifos pio
  let pio := hw.pio_sm_restart pio
  let pio := hw.pio_sm_clkdiv_restart pio
  let pio := hw.clear_txstall pio
  let pio := hw.pio_sm_set_enabled true pio
  { driver with pio, trace := driver.trace ++ [.reset] }

/-- `tx_clock_update_settings`, without the pin overrides and the divider. -/
def tx_clock_update_settings (hw : TxHardware σ) (driver : TxDriver σ) : TxDriver σ :=
  { driver with pio := hw.pio_sm_set_enabled true (hw.pio_sm_set_enabled false driver.pio) }

end ether2ser.pio_tx_rx_driver
