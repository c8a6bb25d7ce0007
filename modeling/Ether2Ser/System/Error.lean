import Mathlib.Init

namespace ether2ser.error

/-- The result codes `e2s_error_t`. -/
inductive E2sError where
  | E2S_OK
  | E2S_ERR_GENERIC_ERROR
  | E2S_ERR_CLI_EMPTY_LINE
  | E2S_ERR_CLI_UNKNOWN_COMMAND
  | E2S_ERR_CLI_USAGE_SET
  | E2S_ERR_CLI_USAGE_GET
  | E2S_ERR_CLI_USAGE_PININFO
  | E2S_ERR_CLI_UNKNOWN_PIN
  | E2S_ERR_CLI_PIN_INPUT_ONLY
  | E2S_ERR_CLI_LINE_FORMAT
  | E2S_ERR_CLI_LINE_TRUNCATED
  | E2S_ERR_EVENT_QUEUE_FULL
  | E2S_ERR_EVENT_QUEUE_EMPTY
  | E2S_ERR_PIO_UNAVAILABLE
  | E2S_ERR_PIO_RX_EMPTY
  | E2S_ERR_PIO_TX_FULL
  | E2S_V24_RUNTIME_NOT_INITIALIZED
  | E2S_ERR_HDLC_ENCODE_FAILED
  | E2S_ERR_HDLC_ENCODE_INVALID_ARGS
  | E2S_ERR_HDLC_ENCODE_FRAME_TOO_SMALL
  | E2S_ERR_HDLC_ENCODE_FRAME_NOT_EMPTY
  | E2S_ERR_HDLC_ENCODE_OVERFLOW
  | E2S_ERR_HDLC_DECODE_INVALID_ARGS
  | E2S_ERR_HDLC_DECODE_INVALID_FRAME
  | E2S_ERR_HDLC_DECODE_PAYLOAD_TOO_LONG
  | E2S_ERR_HDLC_DECODE_PAYLOAD_TOO_SHORT
  | E2S_ERR_HDLC_DECODE_CRC_MISMATCH
  | E2S_ERR_HDLC_ACC_FRAME_READY
  | E2S_ERR_W5500_INIT_FAILED
  | E2S_ERR_W5500_SOCKET_OPEN_FAILED
  | E2S_ERR_W5500_SEND_FAILED
  | E2S_ERR_W5500_RECV_FAILED
  | E2S_ERR_TX_QUEUE_FULL
  | E2S_ERR_TX_QUEUE_NOT_INITIALIZED
  deriving DecidableEq, Repr

end ether2ser.error
