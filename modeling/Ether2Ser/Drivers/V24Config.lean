import Mathlib.Init

namespace ether2ser.v24_config

/-- `V24_TX_POLARITIES_T`. -/
structure V24TxPolarities where
  txd_inverted : Bool
  txc_inverted : Bool
  cts_inverted : Bool
  rts_inverted : Bool
  dtr_inverted : Bool
  deriving DecidableEq, Repr

/-- `V24_RX_POLARITIES_T`. -/
structure V24RxPolarities where
  rxd_inverted : Bool
  rxc_inverted : Bool
  dcd_inverted : Bool
  deriving DecidableEq, Repr

/-- `V24_POLARITIES_T`. -/
structure V24Polarities where
  tx_polarities : V24TxPolarities
  rx_polarities : V24RxPolarities
  deriving DecidableEq, Repr

/-- No line is inverted. -/
def V24Polarities.zero : V24Polarities where
  tx_polarities :=
    { txd_inverted := false
      txc_inverted := false
      cts_inverted := false
      rts_inverted := false
      dtr_inverted := false }
  rx_polarities :=
    { rxd_inverted := false
      rxc_inverted := false
      dcd_inverted := false }

def init_polarities : V24Polarities where
  tx_polarities :=
    { txd_inverted := false
      txc_inverted := true
      cts_inverted := true
      rts_inverted := true
      dtr_inverted := true }
  rx_polarities :=
    { rxd_inverted := false
      rxc_inverted := true
      dcd_inverted := true }

end ether2ser.v24_config
