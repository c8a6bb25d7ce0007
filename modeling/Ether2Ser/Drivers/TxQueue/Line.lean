import Ether2Ser.Drivers.TxQueue.Handover
import Ether2Ser.Pio.Shift

open Pio
open ether2ser.pio_tx_rx_driver

namespace ether2ser.tx_queue

/-- The edges of CTS. -/
def ctsEdges (cts : Bool) : List Bool → Nat
  | [] => 0
  | level :: levels => (if level = cts then 0 else 1) + ctsEdges level levels

variable {σ : Type}

/-- A PIO state machine as the driver uses it, within a state that decides what
happens between two calls. -/
def pioHardware (config : Config) (tx : σ → Machine) (with_tx : σ → Machine → σ) (elapse : σ → Interlude × σ) :
    TxHardware σ where
  elapse := elapse
  pio_sm_is_tx_fifo_full pio := (tx pio).tx_fifo.length ≥ config.tx_depth
  pio_sm_is_tx_fifo_empty pio := (tx pio).tx_fifo.isEmpty
  pio_sm_put byte pio := with_tx pio ((tx pio).put (wordOfByte byte))
  pio_sm_clear_fifos pio := with_tx pio (tx pio).clear_fifos
  pio_sm_restart pio := with_tx pio (tx pio).restart
  pio_sm_clkdiv_restart pio := pio
  pio_sm_set_enabled _ pio := pio
  txstall pio := (tx pio).txstall
  clear_txstall pio := with_tx pio { tx pio with txstall := false }
  gpio_put_rts _ pio := pio

/-- What a line has taken grows by every byte put, and by nothing else. -/
structure Takes (hw : TxHardware σ) (took : σ → List UInt8 → Prop) : Prop where
  elapse : ∀ {pio bytes}, took pio bytes → took (hw.elapse pio).2 bytes
  put : ∀ {pio bytes byte}, took pio bytes → took (hw.pio_sm_put byte pio) (bytes ++ [byte])
  clear_txstall : ∀ {pio bytes}, took pio bytes → took (hw.clear_txstall pio) bytes
  gpio_put_rts : ∀ {pio bytes level}, took pio bytes → took (hw.gpio_put_rts level pio) bytes

/-- Up to its first reset, the driver has handed over what the line has taken. -/
def LineAgrees (took : σ → List UInt8 → Prop) (driver : TxDriver σ) : Prop :=
  .reset ∉ driver.trace → took driver.pio (driver.trace.filterMap handedByte)

section

variable {hw : TxHardware σ} {took : σ → List UInt8 → Prop} {driver : TxDriver σ}

theorem lineAgrees_boot {pio : σ} (htook : took pio []) (tx_rts_holdoff_us : Nat) :
    LineAgrees took (.boot tx_rts_holdoff_us pio) := fun _ => htook

/-- Events that hand over nothing. -/
theorem LineAgrees.records {driver' : TxDriver σ} {events : List TxEvent} (h : LineAgrees took driver)
    (htrace : driver'.trace = driver.trace ++ events) (hquiet : events.filterMap handedByte = [])
    (hpio : ∀ bytes, took driver.pio bytes → took driver'.pio bytes) : LineAgrees took driver' := by
  intro hreset
  rw [htrace, List.mem_append, not_or] at hreset
  rw [htrace, List.filterMap_append, hquiet, List.append_nil]
  exact hpio _ (h hreset.1)

theorem LineAgrees.elapse (h : LineAgrees took driver) (htakes : Takes hw took) :
    LineAgrees took (driver.elapse hw) := by
  refine h.records rfl ?_ fun _ => htakes.elapse
  simp [handedByte]

theorem LineAgrees.tx_put {byte : UInt8} {accepted : Bool} {driver' : TxDriver σ} (h : LineAgrees took driver)
    (htakes : Takes hw took) (hput : tx_put hw byte driver = (accepted, driver')) : LineAgrees took driver' := by
  have hassert : LineAgrees took (tx_assert_rts hw driver) := by
    unfold tx_assert_rts
    split
    · exact h
    · exact h.records rfl rfl fun _ htook => htakes.gpio_put_rts (htakes.clear_txstall htook)
  unfold pio_tx_rx_driver.tx_put at hput
  simp only at hput
  split at hput
  · obtain ⟨-, rfl⟩ := Prod.mk.inj hput
    exact hassert
  · obtain ⟨-, rfl⟩ := Prod.mk.inj hput
    intro hreset
    simp only [List.mem_append, not_or] at hreset
    rw [List.filterMap_append]
    exact htakes.put (hassert hreset.1)

theorem LineAgrees.hard_reset (driver : TxDriver σ) : LineAgrees took (tx_clock_hard_reset hw driver) :=
  fun hreset => absurd (List.mem_append_right _ (List.mem_singleton_self _)) hreset

theorem LineAgrees.tx_poll (h : LineAgrees took driver) (htakes : Takes hw took) :
    LineAgrees took (tx_poll hw driver).2 := by
  unfold pio_tx_rx_driver.tx_poll
  simp only
  split
  · exact h
  · split
    · exact h
    · split
      · exact h.records rfl rfl fun _ htook => htook
      · split
        · exact h
        · exact h.records rfl rfl fun _ => htakes.gpio_put_rts

theorem Takes.lineAgrees_invariant (h : Takes hw took) : DriverInvariant hw (LineAgrees took) where
  elapse := fun hdriver => hdriver.elapse h
  put := fun hdriver => hdriver.tx_put h
  reset := fun _ => .hard_reset _
  poll := fun hdriver => hdriver.tx_poll h

/-- As long as no frame is restarted, the line has taken the accepted frames up to
some point, and all of them once the queue is empty. -/
theorem LineAgrees.frames {world : TxWorld σ} {completed waiting : List (List UInt8)}
    {done tried segment : List TxEvent}
    (h : LineAgrees took world.driver) (hhandover : Handover world completed waiting done tried segment)
    (hreset : .reset ∉ world.driver.trace) :
    ∃ bytes rest, took world.driver.pio bytes ∧ bytes ++ rest = world.enqueued.flatten ∧
      (tx_queue_is_empty world.queue = true → rest = []) := by
  obtain ⟨rest, hbytes, hall⟩ := hhandover.handed hreset
  exact ⟨_, rest, h hreset, hbytes, hall⟩

end

end ether2ser.tx_queue
