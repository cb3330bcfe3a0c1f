import CmyMessage.Foundation.Block
import CmyMessage.Settings

/-!
# The address of a socket

`create_socket_struct` copies the address it is given into a block of its own, and
`initialize_socket` hands that block to `inet_pton`.  The copy takes the bytes of the string without
its terminator, so the block is a string only where a zero byte was left in it.
-/

namespace CmyMessage

/-- `MAX_ADDRESS_LENGTH` -/
def maxAddressLength : Nat := 32 + 7

/-- The address families of `inet_pton`. -/
inductive AddressFamily
  | inet
  | inet6
  deriving DecidableEq

/-- `is_ipv4` -/
def isIpv4 (inetPton : AddressFamily → List UInt8 → Int) (address : List UInt8) : Bool :=
  inetPton .inet address == 1

/-- What `initialize_socket` reads of `UniSocket_t`. -/
structure UniSocket where
  /-- Whether the socket is the one of a server. -/
  isServer : Bool
  /-- Whether the socket is for IPv4 only. -/
  isIpv4 : Bool
  /-- The block of the address. -/
  ipAddress : Option (Block maxAddressLength)

/-- `strncpy(p_socket_t->ip_address, ip_address, strlen(ip_address))` into the block that `malloc`
returned. -/
def copyAddress (leftover : Block maxAddressLength) (ipAddress : List UInt8) :
    Option (Block maxAddressLength) :=
  leftover.write 0 ipAddress

/-- The settings that `create_socket_struct` stores before it initializes the socket. -/
def storeSettings (isServerArg isIpv4Arg : Bool) (leftover : Block maxAddressLength)
    (ipAddress : List UInt8) : Option UniSocket := do
  let copy ← copyAddress leftover ipAddress
  return ⟨isServerArg, isIpv4Arg, some copy⟩

/-- `initialize_socket`: the calls of `inet_pton` it makes, and what it returns. -/
def initializeSocket (inetPton : AddressFamily → List UInt8 → Int) (setsockopt : Int)
    (socket : UniSocket) : Option (List (AddressFamily × List UInt8) × Int) :=
  if socket.isIpv4 then
    match socket.ipAddress with
    | some block => do
        let address ← block.readString
        return ([(.inet, address)], if inetPton .inet address ≤ 0 then -1 else 0)
    | none => some ([], if socket.isServer then 0 else -2)
  else
    let dualStack : Int := if socket.isServer ∧ setsockopt < 0 then -1 else 0
    match socket.ipAddress with
    | some block => do
        let address ← block.readString
        return ([(.inet6, address)], if inetPton .inet6 address ≤ 0 then -1 else dualStack)
    | none => some ([], dualStack)

/-- The family that an address is classified as. -/
def addressFamily (inetPton : AddressFamily → List UInt8 → Int) (address : List UInt8) :
    AddressFamily :=
  if isIpv4 inetPton address then .inet else .inet6

/-- The copy fits its block and is the string given, and `initialize_socket` passes it to
`inet_pton` under the family that `is_ipv4` found. -/
structure PassesAddress (inetPton : AddressFamily → List UInt8 → Int) (setsockopt : Int)
    (isServerArg : Bool) (leftover : Block maxAddressLength) (ipAddress : List UInt8) : Prop where
  copied : ((copyAddress leftover ipAddress).bind Block.readString) = some ipAddress
  passed : ((storeSettings isServerArg (isIpv4 inetPton ipAddress) leftover ipAddress).bind
    (initializeSocket inetPton setsockopt)).map Prod.fst =
      some [(addressFamily inetPton ipAddress, ipAddress)]

/-- The string of the stored block is what `inet_pton` gets. -/
theorem passes_of_copied {inetPton : AddressFamily → List UInt8 → Int} {setsockopt : Int}
    {isServerArg : Bool} {leftover : Block maxAddressLength} {ipAddress : List UInt8}
    (copied : (copyAddress leftover ipAddress).bind Block.readString = some ipAddress) :
    PassesAddress inetPton setsockopt isServerArg leftover ipAddress := by
  refine ⟨copied, ?_⟩
  obtain ⟨copy, written, read⟩ := Option.bind_eq_some_iff.mp copied
  cases classified : isIpv4 inetPton ipAddress with
  | true => simp [storeSettings, written, initializeSocket, read, addressFamily, classified]
  | false => simp [storeSettings, written, initializeSocket, read, addressFamily, classified]

/-- `create_socket_struct` keeps and passes the address it is given exactly if the address is
shorter than its block and the block had a zero byte where the terminator belongs.  No address is
passed on whatever `malloc` returns. -/
theorem createSocketStruct_passes_address_iff (inetPton : AddressFamily → List UInt8 → Int)
    (setsockopt : Int) (isServerArg : Bool) (ipAddress : List UInt8) (nonzero : 0 ∉ ipAddress) :
    (∀ leftover : Block maxAddressLength,
      PassesAddress inetPton setsockopt isServerArg leftover ipAddress ↔
        ipAddress.length < maxAddressLength ∧ leftover.bytes[ipAddress.length]? = some 0) ∧
    ¬ ∀ leftover : Block maxAddressLength,
      PassesAddress inetPton setsockopt isServerArg leftover ipAddress := by
  have condition (leftover : Block maxAddressLength) :
      PassesAddress inetPton setsockopt isServerArg leftover ipAddress ↔
        ipAddress.length < maxAddressLength ∧ leftover.bytes[ipAddress.length]? = some 0 := by
    rw [← leftover.readString_write_iff nonzero]
    exact ⟨PassesAddress.copied, passes_of_copied⟩
  refine ⟨condition, fun always => ?_⟩
  let old : Block maxAddressLength :=
    ⟨List.replicate maxAddressLength 255, List.length_replicate⟩
  obtain ⟨-, zero⟩ := (condition old).mp (always old)
  have member : (0 : UInt8) ∈ List.replicate maxAddressLength (255 : UInt8) :=
    List.mem_of_getElem? zero
  have other : (0 : UInt8) = 255 := List.eq_of_mem_replicate member
  revert other
  decide

/-- The loopback address in a zeroed block. -/
theorem createSocketStruct_passes_loopback :
    PassesAddress (fun family _ => if family = .inet then 1 else 0) 0 true (.zeroed _)
      (literal "127.0.0.1") :=
  ((createSocketStruct_passes_address_iff _ _ _ _ (by decide)).1 _).mpr (by decide)

/-- The loopback address in a block that `malloc` returns with an old byte behind the nine bytes
that are copied: `inet_pton` reads "127.0.0.1x" for the "127.0.0.1" that was classified.  An
IPv4-mapped address of forty-five bytes does not even fit. -/
theorem createSocketStruct_passes_leftover :
    let loopback := literal "127.0.0.1"
    let mapped := literal "0000:0000:0000:0000:0000:ffff:255.255.255.255"
    let leftover : Block maxAddressLength :=
      ⟨List.replicate 9 0 ++ 120 :: List.replicate 29 0, by decide⟩
    let inetPton : AddressFamily → List UInt8 → Int := fun family address =>
      if family = .inet ∧ address = loopback then 1 else 0
    ((storeSettings true (isIpv4 inetPton loopback) leftover loopback).bind
        (initializeSocket inetPton 0)) = some ([(.inet, loopback ++ [120])], -1) ∧
      ¬ PassesAddress inetPton 0 true leftover loopback ∧
      mapped.length = 45 ∧ copyAddress leftover mapped = none := by
  intro loopback mapped leftover inetPton
  have passed : ((storeSettings true (isIpv4 inetPton loopback) leftover loopback).bind
      (initializeSocket inetPton 0)) = some ([(.inet, loopback ++ [120])], -1) := by
    decide
  refine ⟨passed, fun passes => ?_, by decide, by decide⟩
  have called := passes.passed
  rw [passed] at called
  revert called
  decide

end CmyMessage
