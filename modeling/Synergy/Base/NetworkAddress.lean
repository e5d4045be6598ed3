import Synergy.Base.Numerals

/-! The listen address of a server. -/
namespace Synergy

/-- A resolved host, whatever the resolver identifies it by, and a port. -/
structure ResolvedAddress where
  host : Nat
  port : Int
  deriving DecidableEq

structure NetworkAddress where
  hostname : Str
  port : Int
  address : Option ResolvedAddress
  deriving DecidableEq

inductive SocketAddressError
  | unknown | notFound | noAddress | unsupported | badPort
  deriving DecidableEq, Repr

structure SocketAddressException where
  error : SocketAddressError
  hostname : Str
  port : Int
  deriving DecidableEq

namespace SocketAddressException

def getWhat (e : SocketAddressException) : String :=
  match e.error with
  | .unknown => "unknown error for: " ++ String.ofList e.hostname ++ ":" ++ toString e.port
  | .notFound => "address not found for: " ++ String.ofList e.hostname
  | .noAddress => "no address for: " ++ String.ofList e.hostname
  | .unsupported => "unsupported address for: " ++ String.ofList e.hostname
  | .badPort => "invalid port"

end SocketAddressException

namespace NetworkAddress

/-- The default constructed address. -/
def empty : NetworkAddress := ⟨[], 0, none⟩

def isValid (a : NetworkAddress) : Bool := a.address.isSome

/-- The texts around the first bracket that a port follows. -/
def cutAtPort : Str → Option (Str × Str)
  | [] => none
  | c :: s =>
    if c = ']' ∧ s.head? = some ':' then some ([], s.drop 1)
    else (cutAtPort s).map fun (host, port) => (c :: host, port)

def checkPort (hostname : Str) (port : Int) : Except SocketAddressException NetworkAddress :=
  if port < 0 ∨ 65535 < port then .error ⟨.badPort, hostname, port⟩ else .ok ⟨hostname, port, none⟩

/-- A host, behind a number of characters, up to a position that is an `int` of 32 bits. -/
def upToInt (behind : Nat) (host : Str) : Str :=
  host.take (Int.bmod (behind + host.length : Nat) (2 ^ 32) - behind).toNat

/-- The constructor from a host name, which may bring its own port. -/
def ofHostname (hostname : Str) (port : Int) : Except SocketAddressException NetworkAddress :=
  if hostname.count ':' = 1 then
    match stoi (hostname.dropWhile (· ≠ ':')).tail with
    | none => .error ⟨.badPort, hostname, port⟩
    | some port => checkPort (upToInt 0 (hostname.takeWhile (· ≠ ':'))) port
  else if hostname.count ':' = 0 then checkPort hostname port
  else
    let linkLocal (host : Str) (port : Int) : Except SocketAddressException NetworkAddress :=
      -- a link-local address needs its scope
      if "fe80:".toList <+: host ∧ '%' ∉ host then .error ⟨.unknown, host, port⟩ else checkPort host port
    if hostname.head? = some '[' then
      match cutAtPort hostname with
      | none => .error ⟨.unknown, hostname, port⟩
      | some (host, suffix) =>
        match stoi suffix with
        | none => .error ⟨.badPort, hostname, port⟩
        | some port => linkLocal (upToInt 1 host.tail) port
    else linkLocal hostname port

/-- The first of the addresses that the host name is resolved to; `nameToAddr` gives those of a
known family. -/
def resolve (nameToAddr : Str → Except SocketAddressError (List Nat)) (a : NetworkAddress) :
    Except SocketAddressException NetworkAddress :=
  if a.hostname.isEmpty then .ok { a with address := some ⟨0, a.port⟩ }
  else
    match nameToAddr a.hostname with
    | .error error => .error ⟨error, a.hostname, a.port⟩
    | .ok [] => .error ⟨.notFound, a.hostname, a.port⟩
    | .ok (host :: _) => .ok { a with address := some ⟨host, a.port⟩ }

end NetworkAddress
end Synergy
