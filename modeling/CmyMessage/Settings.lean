import Mathlib.Init

/-!
# Settings shared by the services

Values of `clients.h` and `service_utils.h`, of which every program of the repository has a copy.
-/

namespace CmyMessage

/-- `BUFFER_SIZE` -/
def bufferSize : Nat := 1500

/-- `MAX_USERNAME_LENGTH` -/
def maxUsernameLength : Nat := 20

/-- The bytes of an ASCII string literal. -/
def literal (string : String) : List UInt8 := string.toList.map fun c => UInt8.ofNat c.toNat

end CmyMessage
