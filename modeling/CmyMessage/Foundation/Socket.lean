import Mathlib.Data.List.Basic

/-!
# Results of socket calls

What the operating system may answer to `recv` and `send` on a stream socket.
-/

/-- The result of a `recv`. -/
inductive RecvResult
  /-- A positive number of bytes. -/
  | data (bytes : List UInt8)
  /-- Zero: the peer has shut the stream down in order. -/
  | closed
  /-- A negative value. -/
  | error
  deriving DecidableEq

/-- The result of a `send`. -/
inductive SendResult
  /-- The bytes were taken. -/
  | taken
  /-- A negative value. -/
  | failed
  /-- The peer is gone and the process is sent `SIGPIPE`. -/
  | brokenPipe
  deriving DecidableEq

namespace RecvResult

/-- A call for at most `count` bytes returns between one and `count` of them, if any. -/
def fits (count : Nat) : RecvResult → Bool
  | data bytes => decide (0 < bytes.length ∧ bytes.length ≤ count)
  | closed => true
  | error => true

/-- Bytes have arrived. -/
def isData : RecvResult → Bool
  | data _ => true
  | closed => false
  | error => false

/-- The bytes that have arrived. -/
def bytes : RecvResult → List UInt8
  | data bytes => bytes
  | closed => []
  | error => []

end RecvResult
