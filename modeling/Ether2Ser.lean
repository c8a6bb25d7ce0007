import Ether2Ser.Hdlc.Crc.Detection
import Ether2Ser.Hdlc.Decoder.Access
import Ether2Ser.Hdlc.Decoder.Grammar
import Ether2Ser.Hdlc.Encoder.Size
import Ether2Ser.Hdlc.Escaping
import Ether2Ser.Sync.Access
import Ether2Ser.Sync.Backlog
import Ether2Ser.Sync.Chunking
import Ether2Ser.Sync.Hunting
import Ether2Ser.Sync.Invariant
import Ether2Ser.Sync.Locked.Reception
import Ether2Ser.Sync.Short.Recovery
import Ether2Ser.Sync.Stall
import Ether2Ser.System.AppInit.Baudrate
import Ether2Ser.System.Bridge
import Ether2Ser.System.CliParser.Cidr
import Ether2Ser.System.ControlPlane.Persistence
import Ether2Ser.System.ControlPlane.Socket
import Ether2Ser.System.ControlPlane.TwoEvents
import Ether2Ser.System.EventDispatch.Polarities
import Ether2Ser.System.EventLoop.ExternalClock
import Ether2Ser.System.EventLoop.IdleFilter
import Ether2Ser.System.EventLoop.Progress
import Ether2Ser.System.EventLoop.Recovery
import Ether2Ser.System.EventLoop.Rts
import Ether2Ser.System.EventLoop.SerialPort
import Ether2Ser.System.EventLoop.SyncCounters
import Ether2Ser.System.EventLoop.Termination
import Ether2Ser.System.EventLoop.Throttle
import Ether2Ser.System.EventQueue.Fifo
import Ether2Ser.System.Firmware.Commands
import Ether2Ser.System.Firmware.Dispatch
import Ether2Ser.System.Firmware.Pins
import Ether2Ser.System.Log.Interleaving
import Ether2Ser.System.ModemLink
import Ether2Ser.System.Ringbuffer.Fifo
import Ether2Ser.System.TxPipeline
