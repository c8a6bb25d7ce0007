import Ether2Ser.Drivers.TxQueue.Handover
import Ether2Ser.Words.InOrder

open Words
open ether2ser.hdlc ether2ser.hdlc_common ether2ser.pio_tx_rx_driver

namespace ether2ser.tx_queue

def TX_FIFO_DEPTH : Nat := 4

/-- One interlude of the transmit line, with the bytes the state machine asks of
its FIFO. -/
structure LineInterlude extends Interlude where
  shifts : Nat
  deriving DecidableEq, Repr

/-- The transmit FIFO and the bytes it has put on the wire, under a schedule of
interludes. After the schedule nothing moves. -/
structure TxLine where
  fifo : List UInt8
  wire : List UInt8
  stalled : Bool
  schedule : List LineInterlude
  deriving DecidableEq, Repr

def TxLine.elapse (line : TxLine) : Interlude × TxLine :=
  match line.schedule with
  | [] => ({ us := 0, cts_edges := 0 }, line)
  | interlude :: schedule =>
    (interlude.toInterlude,
      { fifo := line.fifo.drop interlude.shifts
        wire := line.wire ++ line.fifo.take interlude.shifts
        stalled := line.stalled || line.fifo.length < interlude.shifts
        schedule })

/-- The state machine as a queue: a put appends, the line takes from the front
and clearing the FIFOs drops what is left. -/
def txLine : TxHardware TxLine where
  elapse := TxLine.elapse
  pio_sm_is_tx_fifo_full line := line.fifo.length ≥ TX_FIFO_DEPTH
  pio_sm_is_tx_fifo_empty line := line.fifo.isEmpty
  pio_sm_put byte line := { line with fifo := line.fifo ++ [byte] }
  pio_sm_clear_fifos line := { line with fifo := [] }
  pio_sm_restart line := line
  pio_sm_clkdiv_restart line := line
  pio_sm_set_enabled _ line := line
  txstall line := line.stalled
  clear_txstall line := { line with stalled := false }
  gpio_put_rts _ line := line

def TxLine.boot (schedule : List LineInterlude) : TxLine where
  fifo := []
  wire := []
  stalled := false
  schedule := schedule

/-- Everything that has reached the wire or still will. -/
def TxLine.text (line : TxLine) : List UInt8 := line.wire ++ line.fifo

theorem text_elapse (driver : TxDriver TxLine) : (driver.elapse txLine).pio.text = driver.pio.text := by
  simp only [TxDriver.elapse, txLine, TxLine.elapse, TxLine.text]
  split
  · rfl
  · rw [List.append_assoc, List.take_append_drop]

theorem text_tx_put {byte : UInt8} {accepted : Bool} {driver driver' : TxDriver TxLine}
    (hput : tx_put txLine byte driver = (accepted, driver')) :
    driver'.pio.text = driver.pio.text ++ (if accepted then [byte] else []) := by
  have hassert : (tx_assert_rts txLine driver).pio.text = driver.pio.text := by
    unfold tx_assert_rts
    split <;> rfl
  unfold tx_put at hput
  simp only at hput
  split at hput
  · obtain ⟨rfl, rfl⟩ := Prod.mk.inj hput
    rw [hassert, if_neg Bool.false_ne_true, List.append_nil]
  · obtain ⟨rfl, rfl⟩ := Prod.mk.inj hput
    rw [← hassert]
    exact (List.append_assoc ..).symm

theorem text_putBytes {bytes : List UInt8} {sent : Nat} {driver driver' : TxDriver TxLine}
    (hputs : putBytes txLine bytes driver = (sent, driver')) :
    driver'.pio.text = driver.pio.text ++ bytes.take sent := by
  have hloop := @putBytes_induction TxLine txLine
    (fun sent after => after.pio.text = driver.pio.text ++ bytes.take sent) bytes driver (List.append_nil _).symm
  rw [hputs] at hloop
  refine (hloop ?_ ?_).2
  · intro sent before after byte hbyte htext hput
    rw [text_tx_put hput, text_elapse, htext, List.take_add_one, hbyte, List.append_assoc]
    rfl
  · intro sent before after byte htext hput
    rw [text_tx_put hput, text_elapse, htext, if_neg Bool.false_ne_true, List.append_nil]

/-- The completed frames are in the text in order, with the part of the current
frame that was sent since its last restart at the end. -/
structure Transmitted (entry : TxQueueEntry) (line : TxLine) (completed : List (List UInt8)) (body : List UInt8) :
    Prop where
  text_eq : line.text = body ++ entry.partlySent
  in_order : OccurInOrder completed body

theorem Transmitted.serve {queue served : TxQueue} {waiting rest : List (List UInt8)} {line : TxLine}
    {completed : List (List UInt8)} {body : List UInt8} (h : Transmitted queue.current_entry line completed body)
    (hserves : Serves queue waiting served rest) : Transmitted served.current_entry line completed body := by
  cases hserves with
  | current _ => exact h
  | next hdone _ hentry =>
    refine ⟨?_, h.in_order⟩
    rw [h.text_eq, TxQueueEntry.partlySent_of_le hdone, hentry, TxQueueEntry.partlySent_of_zero rfl]

theorem Transmitted.send {entry : TxQueueEntry} {line line' : TxLine} {completed : List (List UInt8)}
    {body : List UInt8}
    {count : Nat} (h : Transmitted entry line completed body) (hlt : entry.offset < entry.frame.length)
    (hle : entry.offset + count ≤ entry.frame.length)
    (htext : line'.text = line.text ++ (entry.frame.payload.drop entry.offset).take count) :
    ∃ body', Transmitted { entry with offset := entry.offset + count } line' (completed ++ finished entry count)
      body' := by
  rw [h.text_eq, entry.partlySent_of_lt hlt, List.append_assoc, ← List.take_add] at htext
  by_cases hmore : entry.offset + count < entry.frame.length
  · rw [finished, if_pos hmore, List.append_nil]
    exact ⟨body, by rw [TxQueueEntry.partlySent_of_lt hmore]; exact htext, h.in_order⟩
  · rw [finished, if_neg hmore]
    have hall : entry.frame.payload.take (entry.offset + count) = entry.frame.payload :=
      List.take_of_length_le (by simp only [HdlcFrame.length] at hmore; omega)
    rw [hall] at htext
    refine ⟨_, ?_, h.in_order.snoc entry.frame.payload⟩
    rw [TxQueueEntry.partlySent_of_le (by simp only; omega), htext, List.append_nil]

/-- A reset that finds only bytes of the current frame in the FIFO takes nothing
from the completed ones. -/
theorem Transmitted.restart {entry : TxQueueEntry} {line line' : TxLine} {completed : List (List UInt8)}
    {body : List UInt8} (h : Transmitted entry line completed body) (hlt : entry.offset < entry.frame.length)
    (hfifo : line.fifo.length ≤ entry.offset) (hwire : line'.wire = line.wire) (hempty : line'.fifo = []) :
    Transmitted { entry with offset := 0 } line' completed line.wire := by
  refine ⟨?_, ?_⟩
  · rw [TxQueueEntry.partlySent_of_zero rfl, TxLine.text, hwire, hempty]
  · have hlength : line.wire.length = body.length + (entry.offset - line.fifo.length) := by
      have htotal := congrArg List.length h.text_eq
      rw [TxLine.text, entry.partlySent_of_lt hlt, List.length_append, List.length_append, List.length_take] at htotal
      simp only [HdlcFrame.length] at hlt
      omega
    have hbody : line.wire = body ++ entry.partlySent.take (entry.offset - line.fifo.length) := by
      calc line.wire = line.text.take line.wire.length := (List.take_left ..).symm
        _ = _ := by rw [h.text_eq, hlength, List.take_length_add_append]
    rw [hbody]
    exact h.in_order.append _

/-- The accepted frames are accounted for, and the completed ones are in the text
of the line. -/
structure OnWire (world : TxWorld TxLine) (completed waiting : List (List UInt8)) (body : List UInt8) : Prop where
  accounts : Accounts world completed waiting
  transmitted : Transmitted world.queue.current_entry world.driver.pio completed body

theorem onWire_boot (tx_rts_holdoff_us : Nat) (schedule : List LineInterlude) :
    OnWire (.boot tx_rts_holdoff_us (.boot schedule)) [] [] [] where
  accounts := accounts_boot tx_rts_holdoff_us _
  transmitted := ⟨rfl, .nil _⟩

theorem OnWire.enqueue {world : TxWorld TxLine} {completed waiting : List (List UInt8)} {body : List UInt8}
    (h : OnWire world completed waiting body) (payload : List UInt8) :
    ∃ waiting', OnWire (world.enqueue payload) completed waiting' body := by
  obtain ⟨⟨waiting', haccounts⟩, hdriver, hentry, -, -⟩ := h.accounts.enqueue payload
  refine ⟨waiting', haccounts, ?_⟩
  rw [hdriver, hentry]
  exact h.transmitted

theorem OnWire.elapse {world : TxWorld TxLine} {completed waiting : List (List UInt8)} {body : List UInt8}
    (h : OnWire world completed waiting body) : OnWire (world.elapse txLine) completed waiting body where
  accounts := ⟨h.accounts.keeps, h.accounts.enqueued_eq⟩
  transmitted := ⟨(text_elapse world.driver).trans h.transmitted.text_eq, h.transmitted.in_order⟩

/-- The FIFO when a drain from this state would clear it. -/
def fifoAtReset (world : TxWorld TxLine) : List UInt8 := ((world.driver.elapse txLine).elapse txLine).pio.fifo

/-- If a drain from this state restarts its frame, the FIFO holds no more bytes
than that frame has handed over. -/
def RestartsClean (world : TxWorld TxLine) : Prop :=
  frameInterrupted world.queue (tx_clock_get_cts_toggle_seq (world.driver.elapse txLine)) →
    (fifoAtReset world).length ≤ world.queue.current_entry.offset

instance (world : TxWorld TxLine) : Decidable (RestartsClean world) := inferInstanceAs (Decidable (_ → _))

theorem OnWire.drain {world : TxWorld TxLine} {completed waiting : List (List UInt8)} {body : List UInt8}
    (h : OnWire world completed waiting body) (hclean : RestartsClean world) (bytes_to_drain : Nat) :
    ∃ completed' waiting' body', OnWire (world.drain txLine bytes_to_drain) completed' waiting' body' := by
  obtain ⟨rest, hstep, hkeeps⟩ := @Keeps.drain TxLine txLine _ _ h.accounts.keeps bytes_to_drain world.driver
  have hpaused : Transmitted world.queue.current_entry (world.driver.elapse txLine).pio completed body :=
    ⟨(text_elapse world.driver).trans h.transmitted.text_eq, h.transmitted.in_order⟩
  unfold TxWorld.drain
  generalize tx_queue_drain txLine world.queue bytes_to_drain world.driver = result at hstep hkeeps
  cases hstep with
  | restart hinterrupted =>
    obtain ⟨-, hlt, -⟩ := of_frameInterrupted hinterrupted
    have hagain :
        Transmitted world.queue.current_entry ((world.driver.elapse txLine).elapse txLine).pio completed body :=
      ⟨(text_elapse _).trans hpaused.text_eq, hpaused.in_order⟩
    exact ⟨completed, waiting, _, h.accounts.rewind hlt _, hagain.restart hlt (hclean hinterrupted) rfl rfl⟩
  | idle hdone hwaiting =>
    exact ⟨completed, waiting, body, ⟨hkeeps, h.accounts.enqueued_eq⟩, hpaused⟩
  | @send served rest sent driver' hserves hlt hputs =>
    have hle := offset_add_le_of_putBytes hlt hputs
    have hafter : (afterFirst txLine served.current_entry sent driver').pio.text = driver'.pio.text := by
      unfold afterFirst
      split
      · exact text_elapse driver'
      · rfl
    have htext := hafter.trans (text_putBytes hputs)
    rw [take_sent_of_putBytes hputs] at htext
    obtain ⟨body', hsent⟩ := (hpaused.serve hserves).send hlt hle htext
    exact ⟨_, rest, body', h.accounts.advance hserves hkeeps _, hsent⟩

/-- Every drain of the run restarts clean. -/
def CleanRun (world : TxWorld TxLine) : List TxAction → Prop
  | [] => True
  | action :: actions =>
    ((∃ bytes_to_drain, action = .drain bytes_to_drain) → RestartsClean world) ∧
      CleanRun (world.step txLine action) actions

theorem OnWire.run {world : TxWorld TxLine} {completed waiting : List (List UInt8)} {body : List UInt8}
    {actions : List TxAction} (h : OnWire world completed waiting body) (hclean : CleanRun world actions) :
    ∃ completed' waiting' body', OnWire (world.run txLine actions) completed' waiting' body' := by
  induction actions generalizing world completed waiting body with
  | nil => exact ⟨completed, waiting, body, h⟩
  | cons action actions ih =>
    obtain ⟨hrestart, hrest⟩ := hclean
    cases action with
    | enqueue payload =>
      obtain ⟨waiting', hnext⟩ := h.enqueue payload
      exact ih hnext hrest
    | drain bytes_to_drain =>
      obtain ⟨completed', waiting', body', hnext⟩ := h.drain (hrestart ⟨_, rfl⟩) bytes_to_drain
      exact ih hnext hrest
    | elapse => exact ih h.elapse hrest

/-- No frame is lost on the wire in a run whose restarts find only bytes of their
own frame in the FIFO. -/
theorem frames_on_wire (tx_rts_holdoff_us : Nat) (schedule : List LineInterlude) (actions : List TxAction)
    (hclean : CleanRun (.boot tx_rts_holdoff_us (.boot schedule)) actions)
    (hempty : tx_queue_is_empty ((TxWorld.boot tx_rts_holdoff_us (.boot schedule)).run txLine actions).queue = true)
    (hfifo : ((TxWorld.boot tx_rts_holdoff_us (.boot schedule)).run txLine actions).driver.pio.fifo = []) :
    OccurInOrder ((TxWorld.boot tx_rts_holdoff_us (.boot schedule)).run txLine actions).enqueued
      ((TxWorld.boot tx_rts_holdoff_us (.boot schedule)).run txLine actions).driver.pio.wire := by
  obtain ⟨completed, waiting, body, h⟩ := (onWire_boot tx_rts_holdoff_us schedule).run hclean
  have hwire := h.transmitted.text_eq
  rw [TxLine.text, hfifo, List.append_nil] at hwire
  rw [h.accounts.is_empty_iff.mp hempty, hwire]
  exact h.transmitted.in_order.append _

def LineInterlude.still : LineInterlude := { us := 0, cts_edges := 0, shifts := 0 }
def LineInterlude.edge : LineInterlude := { us := 0, cts_edges := 1, shifts := 0 }
def LineInterlude.shift (shifts : Nat) : LineInterlude := { us := 0, cts_edges := 0, shifts }

/-- A frame interrupted after its first byte, and sent again. -/
def restartedFrame : List LineInterlude :=
  [.still, .still, .still, .edge, .still, .still, .still, .still, .still, .still, .shift 1, .still, .shift 4]

def restartedFrameActions : List TxAction := [.enqueue [2], .drain 1, .drain 32, .drain 32, .elapse]

theorem cleanRun_restartedFrame : CleanRun (.boot 200 (.boot restartedFrame)) restartedFrameActions := by
  refine ⟨by rintro ⟨_, ⟨⟩⟩, fun _ => ?_, fun _ => ?_, fun _ => ?_, by rintro ⟨_, ⟨⟩⟩, trivial⟩
  · decide +kernel
  · decide +kernel
  · decide +kernel

theorem frames_on_wire_restarted :
    OccurInOrder ((TxWorld.boot 200 (.boot restartedFrame)).run txLine restartedFrameActions).enqueued
      ((TxWorld.boot 200 (.boot restartedFrame)).run txLine restartedFrameActions).driver.pio.wire :=
  frames_on_wire 200 restartedFrame restartedFrameActions cleanRun_restartedFrame (by decide +kernel)
    (by decide +kernel)

/-- The end of one frame is still in the FIFO when a CTS edge restarts the next
one. -/
def clippedFrame : List LineInterlude :=
  [.still, .still, .still, .still, .still, .shift 1, .still, .shift 1, .still, .still, .still, .edge, .still,
    .still, .still, .still, .still, .still, .shift 1, .still, .shift 4]

def clippedFrameActions : List TxAction :=
  [.enqueue [2], .enqueue [2], .drain 32, .drain 32, .drain 32, .drain 32, .elapse]

theorem not_frames_on_wire :
    ¬∀ (tx_rts_holdoff_us : Nat) (schedule : List LineInterlude) (actions : List TxAction),
      tx_queue_is_empty ((TxWorld.boot tx_rts_holdoff_us (.boot schedule)).run txLine actions).queue = true →
      ((TxWorld.boot tx_rts_holdoff_us (.boot schedule)).run txLine actions).driver.pio.fifo = [] →
      OccurInOrder ((TxWorld.boot tx_rts_holdoff_us (.boot schedule)).run txLine actions).enqueued
        ((TxWorld.boot tx_rts_holdoff_us (.boot schedule)).run txLine actions).driver.pio.wire := by
  intro hall
  have hlost : ¬OccurInOrder ((TxWorld.boot 200 (.boot clippedFrame)).run txLine clippedFrameActions).enqueued
      ((TxWorld.boot 200 (.boot clippedFrame)).run txLine clippedFrameActions).driver.pio.wire :=
    mt OccurInOrder.length_le (by decide +kernel)
  exact hlost (hall 200 clippedFrame clippedFrameActions (by decide +kernel) (by decide +kernel))

end ether2ser.tx_queue
