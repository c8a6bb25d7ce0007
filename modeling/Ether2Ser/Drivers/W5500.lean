import Ether2Ser.System.Error
import Ether2Ser.System.EventQueue

open ether2ser.error ether2ser.event_queue

namespace ether2ser.w5500_driver

/-- `dhcp_mode` of the chip's library. -/
inductive DhcpMode where
  | NETINFO_STATIC
  | NETINFO_DHCP
  deriving DecidableEq, Repr

/-- `wiz_NetInfo`. -/
structure WizNetInfo where
  mac : List UInt8
  ip : Ipv4
  sn : Ipv4
  gw : Ipv4
  dns : Ipv4
  dhcp : DhcpMode
  deriving DecidableEq, Repr

/-- `NETWORK_CONFIG_T`. -/
structure NetworkConfig where
  net_info : WizNetInfo
  broadcast_address : Ipv4
  deriving DecidableEq, Repr

/-- `UDP_CONFIG_T`. -/
structure UdpConfig where
  ip_address : Ipv4
  port : UInt16
  deriving DecidableEq, Repr

def DEFAULT_MAC_ADDR : List UInt8 := [0x00, 0x08, 0xDC, 0x12, 0x34, 0x56]
def DEFAULT_IP_ADDR : Ipv4 := ⟨192, 168, 29, 20⟩
def DEFAULT_SUBNET_MASK : Ipv4 := ⟨255, 255, 255, 0⟩
def DEFAULT_GATEWAY_ADDR : Ipv4 := ⟨192, 168, 29, 1⟩
def DEFAULT_DNS_ADDR : Ipv4 := ⟨8, 8, 8, 8⟩
def DEFAULT_UDP_PORT : UInt16 := 6969

/-- The chip: what `wizchip_getnetinfo` returns, and the port that its UDP
socket is open on. -/
structure Wizchip where
  net_info : WizNetInfo
  udp_socket : Option UInt16
  deriving DecidableEq, Repr

/-- `wizchip_setnetinfo` and `network_initialize`, as far as the settings go. -/
def wizchip_setnetinfo (chip : Wizchip) (net_info : WizNetInfo) : Wizchip := { chip with net_info }

/-- `close` of the UDP socket. -/
def Wizchip.close (chip : Wizchip) : Wizchip := { chip with udp_socket := none }

def ipv4_calc_broadcast_u8 (ip_addr mask : Ipv4) : Ipv4 where
  octet0 := (ip_addr.octet0 &&& mask.octet0) ||| ~~~mask.octet0
  octet1 := (ip_addr.octet1 &&& mask.octet1) ||| ~~~mask.octet1
  octet2 := (ip_addr.octet2 &&& mask.octet2) ||| ~~~mask.octet2
  octet3 := (ip_addr.octet3 &&& mask.octet3) ||| ~~~mask.octet3

/-- Open the UDP socket, with the outcome of `socket` as an argument. -/
def w5500_open_udp_socket (chip : Wizchip) (config : UdpConfig) (socket_opens : Bool) : E2sError × Wizchip :=
  if socket_opens then (.E2S_OK, { chip with udp_socket := some config.port })
  else (.E2S_ERR_W5500_SOCKET_OPEN_FAILED, chip)

def w5500_reconfigure_udp_socket (chip : Wizchip) (config : UdpConfig) (socket_opens : Bool) : E2sError × Wizchip :=
  w5500_open_udp_socket chip.close config socket_opens

def w5500_set_network (chip : Wizchip) (config : NetworkConfig) : NetworkConfig × Wizchip :=
  ({ config with broadcast_address := ipv4_calc_broadcast_u8 config.net_info.ip config.net_info.sn },
    wizchip_setnetinfo chip config.net_info)

def w5500_set_network_defaults (chip : Wizchip) (config : NetworkConfig) : NetworkConfig × Wizchip :=
  w5500_set_network chip
    { config with
      net_info :=
        { mac := DEFAULT_MAC_ADDR
          ip := DEFAULT_IP_ADDR
          sn := DEFAULT_SUBNET_MASK
          gw := DEFAULT_GATEWAY_ADDR
          dns := DEFAULT_DNS_ADDR
          dhcp := .NETINFO_STATIC } }

end ether2ser.w5500_driver
