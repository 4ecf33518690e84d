/-
SocketAddress and AddressResolver of co_async/platform/socket.hpp and socket.cpp.

inet_ntop is a parameter, and what getaddrinfo answers is an argument of the call
that makes the request. A string that was moved from is empty, as libstdc++ leaves it.
-/

import MCoro.Utils.StringUtils

namespace MCoro

open StringUtils

def AF_INET : UInt16 := 2

def AF_INET6 : UInt16 := 10

/-- The bytes of a word in the other order. -/
def swapBytes (word : UInt16) : UInt16 :=
  UInt16.ofNat (word.toNat % 256 * 256 + word.toNat / 256)

def htons (word : UInt16) : UInt16 :=
  swapBytes word

def ntohs (word : UInt16) : UInt16 :=
  swapBytes word

theorem ntohs_htons (word : UInt16) : ntohs (htons word) = word := by
  have bound := word.toNat_lt
  apply UInt16.toNat_inj.1
  unfold ntohs htons swapBytes
  rw [UInt16.toNat_ofNat', UInt16.toNat_ofNat']
  generalize word.toNat = n at bound ⊢
  have low : (n % 256 * 256 + n / 256) % 256 = n / 256 := by omega
  have high : (n % 256 * 256 + n / 256) / 256 = n % 256 := by omega
  rw [Nat.mod_eq_of_lt (by omega : n % 256 * 256 + n / 256 < 2 ^ 16), low, high,
    Nat.div_add_mod' n 256]
  exact Nat.mod_eq_of_lt bound

/-- sin_port and sin6_port are the same two bytes, the two addresses are not. -/
structure SockaddrStorage where
  ssFamily : UInt16
  sinPort : UInt16
  sinAddr : Text
  sin6Addr : Text
  deriving DecidableEq, Repr

structure SocketAddress where
  mAddr : SockaddrStorage
  mAddrLen : UInt32
  mSockType : Int
  mProtocol : Int
  deriving DecidableEq, Repr

def colon : UInt8 := 58

namespace SocketAddress

def family (address : SocketAddress) : UInt16 :=
  address.mAddr.ssFamily

/-- `inetNtop` leaves in the buffer the text of an address of the family; none is the
exception. -/
def host (inetNtop : UInt16 → Text → Text) (address : SocketAddress) : Option Text :=
  if address.family = AF_INET then some (inetNtop AF_INET address.mAddr.sinAddr)
  else if address.family = AF_INET6 then some (inetNtop AF_INET6 address.mAddr.sin6Addr)
  else none

def port (address : SocketAddress) : Option Int :=
  if address.family = AF_INET then some (ntohs address.mAddr.sinPort).toNat
  else if address.family = AF_INET6 then some (ntohs address.mAddr.sinPort).toNat
  else none

def trySetPort (address : SocketAddress) (port : Int) : SocketAddress :=
  if address.family = AF_INET then
    { address with mAddr := { address.mAddr with sinPort := htons (UInt16.ofInt port) } }
  else if address.family = AF_INET6 then
    { address with mAddr := { address.mAddr with sinPort := htons (UInt16.ofInt port) } }
  else address

def toString (inetNtop : UInt16 → Text → Text) (address : SocketAddress) : Option Text := do
  let host ← address.host inetNtop
  let port ← address.port
  let digits ← StringUtils.toString int port
  return host ++ [colon] ++ digits

end SocketAddress

/-- The members of addrinfo that are set here. -/
structure Hints where
  aiFamily : Int := 0
  aiSocktype : Int := 0
  deriving DecidableEq, Repr

structure AddressResolver where
  mHost : Text := []
  mPort : Int := -1
  mService : Text := []
  mHints : Hints := {}
  deriving DecidableEq, Repr

def schemeEnd : Text := [58, 47, 47]

namespace AddressResolver

/-- The scheme of a host name, empty if it has none, and what is behind it. -/
def splitScheme (host : Text) : Text × Text :=
  match find schemeEnd host with
  | none => ([], host)
  | some i => (host.take i, host.drop (i + 3))

/-- The port of a host name if it has one, and what is in front of it. -/
def splitPort (host : Text) : Option Int × Text :=
  match rfind [colon] host with
  | none => (none, host)
  | some i =>
      match fromString int (host.drop (i + 1)) 10 with
      | none => (none, host)
      | some port => (some port, host.take i)

def host (resolver : AddressResolver) (host : Text) : AddressResolver :=
  let (service, host) := splitScheme host
  let (port, host) := splitPort host
  { resolver with
    mHost := host
    mPort := port.getD resolver.mPort
    mService := if service = [] then resolver.mService else service }

def port (resolver : AddressResolver) (port : Int) : AddressResolver :=
  { resolver with mPort := port }

def service (resolver : AddressResolver) (service : Text) : AddressResolver :=
  { resolver with mService := service }

def family (resolver : AddressResolver) (family : Int) : AddressResolver :=
  { resolver with mHints := { resolver.mHints with aiFamily := family } }

def socktype (resolver : AddressResolver) (socktype : Int) : AddressResolver :=
  { resolver with mHints := { resolver.mHints with aiSocktype := socktype } }

end AddressResolver

/-! ### An address and its text -/

/-- What inet_ntop prints: hexadecimal digits, '.' and ':'. -/
def Printed (c : UInt8) : Prop :=
  (48 ≤ c.toNat ∧ c.toNat ≤ 57) ∨ (65 ≤ c.toNat ∧ c.toNat ≤ 70) ∨
    (97 ≤ c.toNat ∧ c.toNat ≤ 102) ∨ c = 46 ∨ c = colon

theorem colon_not_mem_decimal (n : Nat) : colon ∉ decimal n := by
  intro member
  exact absurd (decimal_mem member).2 (by decide)

theorem AddressResolver.splitPort_text (host : Text) {n : Nat} (fits : (n : Int) ≤ int.max) :
    splitPort (host ++ [colon] ++ decimal n) = (some (n : Int), host) := by
  have last : rfind [colon] (host ++ [colon] ++ decimal n) = some host.length := by
    rw [List.append_assoc]
    exact rfind_last host (colon_not_mem_decimal n)
  have behind : (host ++ [colon] ++ decimal n).drop (host.length + 1) = decimal n := by
    have length : (host ++ [colon]).length = host.length + 1 := List.length_append
    rw [← length, List.drop_left]
  unfold splitPort
  rw [last]
  dsimp only
  rw [behind, fromString_decimal int fits, List.append_assoc, List.take_left]

theorem AddressResolver.splitScheme_text {text : Text} (absent : (47 : UInt8) ∉ text) :
    splitScheme text = ([], text) := by
  have nowhere : find schemeEnd text = none :=
    find_eq_none (List.mem_cons_of_mem 58 List.mem_cons_self) absent
  unfold splitScheme
  rw [nowhere]

theorem SocketAddress.port_of_inet {address : SocketAddress}
    (inet : address.family = AF_INET ∨ address.family = AF_INET6) :
    address.port = some ((ntohs address.mAddr.sinPort).toNat : Int) := by
  unfold SocketAddress.port
  rcases inet with four | six
  · rw [if_pos four]
  · rw [if_pos six]
    exact ite_self _

theorem SocketAddress.host_of_inet {inetNtop : UInt16 → Text → Text}
    (prints : ∀ family bytes, ∀ c ∈ inetNtop family bytes, Printed c) {address : SocketAddress}
    (inet : address.family = AF_INET ∨ address.family = AF_INET6) :
    ∃ host, address.host inetNtop = some host ∧ (47 : UInt8) ∉ host := by
  have noSlash : ∀ family bytes, (47 : UInt8) ∉ inetNtop family bytes := by
    intro family bytes member
    rcases prints family bytes 47 member with digit | upper | lower | dot | colon
    · exact absurd digit.1 (by decide)
    · exact absurd upper.1 (by decide)
    · exact absurd lower.1 (by decide)
    · exact absurd dot (by decide)
    · exact absurd colon (by decide)
  unfold SocketAddress.host
  by_cases four : address.family = AF_INET
  · rw [if_pos four]
    exact ⟨_, rfl, noSlash _ _⟩
  · rw [if_neg four, if_pos (inet.resolve_left four)]
    exact ⟨_, rfl, noSlash _ _⟩

/-- The text of an address, read back as a host name. -/
theorem AddressResolver.host_toString (inetNtop : UInt16 → Text → Text)
    (prints : ∀ family bytes, ∀ c ∈ inetNtop family bytes, Printed c) (address : SocketAddress)
    (inet : address.family = AF_INET ∨ address.family = AF_INET6) (resolver : AddressResolver) :
    ∃ text host port, address.toString inetNtop = some text ∧
      address.host inetNtop = some host ∧ address.port = some port ∧
      (resolver.host text).mHost = host ∧ (resolver.host text).mPort = port ∧
      (resolver.host text).mService = resolver.mService := by
  obtain ⟨host, printed, noSlash⟩ := SocketAddress.host_of_inet prints inet
  have portEq := SocketAddress.port_of_inet inet
  generalize ntohs address.mAddr.sinPort = word at portEq
  have fits : (word.toNat : Int) ≤ int.max := by
    have bound := word.toNat_lt
    have largest : int.max = 2147483647 := rfl
    omega
  have digits := toString_ofNat int fits
  have absent : (47 : UInt8) ∉ host ++ [colon] ++ decimal word.toNat := by
    rw [List.mem_append, List.mem_append, not_or, not_or]
    refine ⟨⟨noSlash, by decide⟩, fun member => ?_⟩
    exact absurd (decimal_mem member).1 (by decide)
  have parsed : resolver.host (host ++ [colon] ++ decimal word.toNat) =
      { resolver with
        mHost := host
        mPort := word.toNat } := by
    unfold AddressResolver.host
    rw [splitScheme_text absent]
    dsimp only
    rw [splitPort_text host fits]
    rfl
  refine ⟨host ++ [colon] ++ decimal word.toNat, host, word.toNat, ?_, printed, portEq, ?_⟩
  · unfold SocketAddress.toString
    rw [printed, portEq]
    change (StringUtils.toString int word.toNat).bind _ = _
    rw [digits]
    rfl
  · rw [parsed]
    exact ⟨rfl, rfl, rfl⟩

/-- ::1 with port 443. -/
def loopback : SocketAddress :=
  { mAddr :=
      { ssFamily := AF_INET6
        sinPort := htons 443
        sinAddr := []
        sin6Addr := [0, 0, 0, 0, 0, 0, 0, 0, 0, 0, 0, 0, 0, 0, 0, 1] }
    mAddrLen := 28
    mSockType := 1
    mProtocol := 6 }

theorem AddressResolver.host_toString_loopback :
    ∃ text, loopback.toString (fun _ _ => [58, 58, 49]) = some text ∧
      (({ mService := [104] } : AddressResolver).host text).mHost = [58, 58, 49] ∧
      (({ mService := [104] } : AddressResolver).host text).mPort = 443 ∧
      (({ mService := [104] } : AddressResolver).host text).mService = [104] := by
  have prints : ∀ c ∈ ([58, 58, 49] : Text), Printed c := by
    intro c member
    rcases List.mem_cons.1 member with rfl | member
    · exact .inr (.inr (.inr (.inr rfl)))
    · rcases List.mem_pair.1 member with rfl | rfl
      · exact .inr (.inr (.inr (.inr rfl)))
      · exact .inl ⟨by decide, by decide⟩
  obtain ⟨text, host, port, printed, hostEq, portEq, sameHost, samePort, sameService⟩ :=
    AddressResolver.host_toString (fun _ _ => [58, 58, 49]) (fun _ _ => prints) loopback (.inr rfl)
      { mService := [104] }
  have given : loopback.port = some 443 := by decide
  rw [given, Option.some.injEq] at portEq
  rw [← portEq] at samePort
  cases hostEq
  exact ⟨text, printed, sameHost, samePort, sameService⟩

/-! ### Resolving -/

/-- `struct addrinfo`, as far as it is read. -/
structure AddrInfo where
  aiAddr : SockaddrStorage
  aiAddrlen : UInt32
  aiFamily : Int
  aiSocktype : Int
  aiProtocol : Int
  deriving DecidableEq, Repr

/-- The constructor of SocketAddress, with the family narrowed to sa_family_t. -/
def SocketAddress.ofInfo (info : AddrInfo) : SocketAddress :=
  { mAddr := { info.aiAddr with ssFamily := UInt16.ofInt info.aiFamily }
    mAddrLen := info.aiAddrlen
    mSockType := info.aiSocktype
    mProtocol := info.aiProtocol }

/-- The arguments of getaddrinfo; the service may be a null pointer. -/
structure AddrInfoRequest where
  host : Text
  service : Option Text
  hints : Hints
  deriving DecidableEq, Repr

inductive ResolveError where
  | invalidArgument
  | badAddress
  /-- In the category of getaddrinfo. -/
  | addrInfo (err : Int)
  deriving DecidableEq, Repr

structure ResolveResult where
  addrs : List SocketAddress
  service : Text
  filled : addrs ≠ []

/-- What getaddrinfo returns: an error, or the list that it allocates. -/
abbrev Answer := Except Int (List AddrInfo)

/-- What a call of resolve_all or resolve_one leaves; the request is none if it made none. -/
structure Resolved (T : Type) where
  request : Option AddrInfoRequest
  result : Except ResolveError T
  resolver : AddressResolver

def Resolved.map {T U : Type} (transformer : T → U) (resolved : Resolved T) : Resolved U :=
  { request := resolved.request
    result := resolved.result.map transformer
    resolver := resolved.resolver }

namespace AddressResolver

def request (resolver : AddressResolver) : AddrInfoRequest :=
  { host := cStr resolver.mHost
    service := if resolver.mService = [] then none else some (cStr resolver.mService)
    hints := resolver.mHints }

def addresses (resolver : AddressResolver) (infos : List AddrInfo) : List SocketAddress :=
  infos.map fun info => (SocketAddress.ofInfo info).trySetPort resolver.mPort

def resolveAll (resolver : AddressResolver) (answer : Answer) : Resolved ResolveResult :=
  if resolver.mHost = [] then
    { request := none
      result := .error .invalidArgument
      resolver := resolver }
  else
    match answer with
    | .error err =>
        { request := some resolver.request
          result := .error (.addrInfo err)
          resolver := resolver }
    | .ok infos =>
        if empty : resolver.addresses infos = [] then
          { request := some resolver.request
            result := .error .badAddress
            resolver := resolver }
        else
          { request := some resolver.request
            result := .ok
              { addrs := resolver.addresses infos
                service := resolver.mService
                filled := empty }
            resolver := { resolver with mService := [] } }

def resolveOne (resolver : AddressResolver) (answer : Answer) : Resolved SocketAddress :=
  (resolver.resolveAll answer).map fun res => res.addrs.head res.filled

/-- resolve_one with the string that takes the service. -/
def resolveOneService (resolver : AddressResolver) (answer : Answer) (service : Text) :
    Resolved SocketAddress × Text :=
  match (resolver.resolveAll answer).result with
  | .error _ => (resolver.resolveOne answer, service)
  | .ok res => (resolver.resolveOne answer, res.service)

end AddressResolver

end MCoro
