import Ether2Ser.Drivers.PioTxRx
import Ether2Ser.Drivers.W5500
import Ether2Ser.System.Log

open ether2ser.event_queue ether2ser.log ether2ser.pio_tx_rx_driver ether2ser.v24_config ether2ser.w5500_driver

namespace ether2ser.persistent_config

def CONFIG_MAGIC : UInt32 := 0xCAFEBABE

/-- `config_t`. The polarities stand beside the rest of `V24_CONFIG_T`. -/
structure Config where
  magic : UInt32
  version : UInt32
  local_config : UdpConfig
  remote_config : UdpConfig
  net_config : NetworkConfig
  v24_config : V24Config
  polarities : V24Polarities
  log_level : LogLevel
  deriving DecidableEq, Repr

/-- Zeroed memory, read as a configuration. -/
def Config.zero : Config where
  magic := 0
  version := 0
  local_config := { ip_address := ⟨0, 0, 0, 0⟩, port := 0 }
  remote_config := { ip_address := ⟨0, 0, 0, 0⟩, port := 0 }
  net_config :=
    { net_info :=
        { mac := [0, 0, 0, 0, 0, 0]
          ip := ⟨0, 0, 0, 0⟩
          sn := ⟨0, 0, 0, 0⟩
          gw := ⟨0, 0, 0, 0⟩
          dns := ⟨0, 0, 0, 0⟩
          dhcp := .NETINFO_STATIC }
      broadcast_address := ⟨0, 0, 0, 0⟩ }
  v24_config := { baudrate := 0, external_clock := false }
  polarities := .zero
  log_level := .LOG_LEVEL_PLAIN

/-- The reserved sector, read as a configuration by `nonsafe_config_read`. -/
abbrev Flash := Config

def config_is_valid (flash : Flash) : Bool := flash.magic == CONFIG_MAGIC

def config_read (flash : Flash) : Option Config := if flash.magic ≠ CONFIG_MAGIC then none else some flash

/-- The stored sector, and the source object with the marker that it gets. -/
def config_write (cfg : Config) : Config × Flash :=
  let cfg := { cfg with magic := CONFIG_MAGIC }
  (cfg, cfg)

def config_wipe : Flash := .zero

end ether2ser.persistent_config
