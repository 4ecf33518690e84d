/-
A resolver that is configured and then used, any number of times.

Without a port the sentinel −1 is written to each address all the same, as port 65535;
and the first resolution that succeeds takes the service away from the later ones.
-/

import MCoro.Platform.AddressResolver

namespace MCoro.AddressResolver

open StringUtils

inductive Setting where
  | host (text : Text)
  | port (number : Int)
  | service (name : Text)
  | family (number : Int)
  | socktype (number : Int)
  deriving DecidableEq, Repr

def Setting.apply (resolver : AddressResolver) : Setting → AddressResolver
  | .host text => resolver.host text
  | .port number => resolver.port number
  | .service name => resolver.service name
  | .family number => resolver.family number
  | .socktype number => resolver.socktype number

def configured (settings : List Setting) : AddressResolver :=
  settings.foldl Setting.apply {}

/-- The port that a setting gives, if it gives one. -/
def Setting.given : Setting → Option Int
  | .host text => (splitPort (splitScheme text).2).1
  | .port number => some number
  | .service _ | .family _ | .socktype _ => none

def givenPort (settings : List Setting) : Option Int :=
  settings.foldl (fun given setting => setting.given.or given) none

inductive Kind where
  | all
  | one
  /-- With the string that takes the service. -/
  | oneService (service : Text)
  deriving DecidableEq, Repr

/-- A call, and what getaddrinfo answers if the call asks it. -/
structure Resolving where
  kind : Kind
  answer : Answer

/-- The entries of which the addresses returned are made. -/
def Kind.chosen : Kind → List AddrInfo → List AddrInfo
  | .all, infos => infos
  | .one, infos => infos.take 1
  | .oneService _, infos => infos.take 1

/-- Those of a call that succeeds, and none of one that does not. -/
def Resolving.infos (call : Resolving) : List AddrInfo :=
  match call.answer with
  | .error _ => []
  | .ok infos => call.kind.chosen infos

/-- The call; the addresses that it returns are its value. -/
def Resolving.run (call : Resolving) (resolver : AddressResolver) :
    Resolved (List SocketAddress) :=
  match call.kind with
  | .all => (resolver.resolveAll call.answer).map ResolveResult.addrs
  | .one => (resolver.resolveOne call.answer).map fun address => [address]
  | .oneService service =>
      (resolver.resolveOneService call.answer service).1.map fun address => [address]

def trace : AddressResolver → List Resolving → List (Resolving × Resolved (List SocketAddress))
  | _, [] => []
  | resolver, call :: calls =>
      (call, call.run resolver) :: trace (call.run resolver).resolver calls

def after (resolver : AddressResolver) (calls : List Resolving) : AddressResolver :=
  calls.foldl (fun resolver call => (call.run resolver).resolver) resolver

/-! ### One call -/

variable {resolver : AddressResolver} {call : Resolving}

theorem resolveAll_hostless (hostless : resolver.mHost = []) (answer : Answer) :
    resolver.resolveAll answer =
      { request := none
        result := .error .invalidArgument
        resolver := resolver } :=
  if_pos hostless

theorem resolveAll_error (hosted : resolver.mHost ≠ []) (err : Int) :
    resolver.resolveAll (.error err) =
      { request := some resolver.request
        result := .error (.addrInfo err)
        resolver := resolver } :=
  if_neg hosted

theorem resolveAll_nil (hosted : resolver.mHost ≠ []) :
    resolver.resolveAll (.ok []) =
      { request := some resolver.request
        result := .error .badAddress
        resolver := resolver } :=
  if_neg hosted

theorem resolveAll_filled (hosted : resolver.mHost ≠ []) {infos : List AddrInfo}
    (filled : resolver.addresses infos ≠ []) :
    resolver.resolveAll (.ok infos) =
      { request := some resolver.request
        result := .ok
          { addrs := resolver.addresses infos
            service := resolver.mService
            filled := filled }
        resolver := { resolver with mService := [] } } := by
  rw [resolveAll, if_neg hosted]
  exact dif_neg filled

theorem resolveOneService_fst (resolver : AddressResolver) (answer : Answer) (service : Text) :
    (resolver.resolveOneService answer service).1 = resolver.resolveOne answer := by
  unfold resolveOneService
  split <;> rfl

/-- What a call makes of the outcome of resolve_all. -/
def Kind.taken : Kind → ResolveResult → List SocketAddress
  | .all, res => res.addrs
  | .one, res => [res.addrs.head res.filled]
  | .oneService _, res => [res.addrs.head res.filled]

theorem resolveOne_single (resolver : AddressResolver) (answer : Answer) :
    ((resolver.resolveOne answer).map fun address => [address]) =
      (resolver.resolveAll answer).map fun res => [res.addrs.head res.filled] := by
  unfold resolveOne Resolved.map
  cases (resolver.resolveAll answer).result <;> rfl

theorem run_eq (resolver : AddressResolver) (call : Resolving) :
    call.run resolver = (resolver.resolveAll call.answer).map call.kind.taken := by
  unfold Resolving.run
  cases call.kind with
  | all => rfl
  | one => exact resolveOne_single resolver call.answer
  | oneService service =>
      dsimp only
      rw [resolveOneService_fst]
      exact resolveOne_single resolver call.answer

theorem addresses_eq_nil {infos : List AddrInfo} : resolver.addresses infos = [] ↔ infos = [] :=
  List.map_eq_nil_iff

theorem chosen_eq_nil {kind : Kind} {infos : List AddrInfo} :
    kind.chosen infos = [] ↔ infos = [] := by
  cases infos with
  | nil => cases kind <;> exact Iff.rfl
  | cons info infos =>
      have filled : kind.chosen (info :: infos) ≠ [] := by
        cases kind <;> exact List.cons_ne_nil info _
      exact iff_of_false filled (List.cons_ne_nil info infos)

theorem taken_addresses (kind : Kind) {infos : List AddrInfo} {service : Text}
    (filled : resolver.addresses infos ≠ []) :
    kind.taken
        { addrs := resolver.addresses infos
          service := service
          filled := filled } =
      resolver.addresses (kind.chosen infos) := by
  cases infos with
  | nil => exact absurd rfl filled
  | cons info infos => cases kind <;> rfl

theorem run_hostless (hostless : resolver.mHost = []) :
    call.run resolver =
      { request := none
        result := .error .invalidArgument
        resolver := resolver } := by
  rw [run_eq, resolveAll_hostless hostless]
  rfl

theorem run_failed (hosted : resolver.mHost ≠ []) (failed : call.infos = []) :
    ∃ error, call.run resolver =
      { request := some resolver.request
        result := .error error
        resolver := resolver } := by
  rw [run_eq]
  unfold Resolving.infos at failed
  cases answer : call.answer with
  | error err =>
      rw [resolveAll_error hosted]
      exact ⟨_, rfl⟩
  | ok infos =>
      rw [answer] at failed
      rw [chosen_eq_nil.1 failed, resolveAll_nil hosted]
      exact ⟨_, rfl⟩

theorem run_succeeded (hosted : resolver.mHost ≠ []) (succeeded : call.infos ≠ []) :
    call.run resolver =
      { request := some resolver.request
        result := .ok (resolver.addresses call.infos)
        resolver := { resolver with mService := [] } } := by
  rw [run_eq]
  unfold Resolving.infos at succeeded ⊢
  cases answer : call.answer with
  | error err =>
      rw [answer] at succeeded
      exact absurd rfl succeeded
  | ok infos =>
      rw [answer] at succeeded
      have filled : resolver.addresses infos ≠ [] := by
        intro empty
        exact succeeded (chosen_eq_nil.2 (addresses_eq_nil.1 empty))
      rw [resolveAll_filled hosted filled]
      unfold Resolved.map
      dsimp only [Except.map]
      rw [taken_addresses call.kind filled]

theorem run_keeps (resolver : AddressResolver) (call : Resolving) :
    ∃ service, (call.run resolver).resolver = { resolver with mService := service } := by
  by_cases hostless : resolver.mHost = []
  · rw [run_hostless hostless]
    exact ⟨resolver.mService, rfl⟩
  · by_cases failed : call.infos = []
    · obtain ⟨error, run⟩ := run_failed hostless failed
      rw [run]
      exact ⟨resolver.mService, rfl⟩
    · rw [run_succeeded hostless failed]
      exact ⟨[], rfl⟩

/-! ### Ports -/

def IsInet (address : SocketAddress) : Prop :=
  address.family = AF_INET ∨ address.family = AF_INET6

instance (address : SocketAddress) : Decidable (IsInet address) :=
  inferInstanceAs (Decidable (_ ∨ _))

theorem trySetPort_family (address : SocketAddress) (port : Int) :
    (address.trySetPort port).family = address.family := by
  unfold SocketAddress.trySetPort
  split
  · rfl
  · split <;> rfl

theorem port_of_not_inet {address : SocketAddress} (other : ¬IsInet address) :
    address.port = none := by
  obtain ⟨four, six⟩ := not_or.1 other
  unfold SocketAddress.port
  rw [if_neg four, if_neg six]

theorem trySetPort_port {address : SocketAddress} (inet : IsInet address) (port : Int) :
    (address.trySetPort port).port = some ((UInt16.ofInt port).toNat : Int) := by
  have inetAfter : IsInet (address.trySetPort port) := by
    unfold IsInet
    rw [trySetPort_family]
    exact inet
  have stored : (address.trySetPort port).mAddr.sinPort = htons (UInt16.ofInt port) := by
    unfold SocketAddress.trySetPort
    by_cases four : address.family = AF_INET
    · rw [if_pos four]
    · rw [if_neg four, if_pos (inet.resolve_left four)]
  rw [SocketAddress.port_of_inet inetAfter, stored, ntohs_htons]

theorem ofInt_toNat {port : Int} (least : 0 ≤ port) (most : port ≤ 65535) :
    ((UInt16.ofInt port).toNat : Int) = port := by
  unfold UInt16.ofInt
  rw [UInt16.toNat_ofNat']
  omega

theorem ofInt_sentinel : ((UInt16.ofInt (-1)).toNat : Int) = 65535 := by
  decide

theorem trySetPort_sentinel (address : SocketAddress) :
    (address.trySetPort (-1)).port = address.port ↔
      (IsInet address → address.port = some 65535) := by
  by_cases inet : IsInet address
  · rw [trySetPort_port inet, ofInt_sentinel]
    exact ⟨fun same _ => same.symm, fun last => (last inet).symm⟩
  · have other : ¬IsInet (address.trySetPort (-1)) := by
      unfold IsInet
      rw [trySetPort_family]
      exact inet
    rw [port_of_not_inet inet, port_of_not_inet other]
    exact ⟨fun _ isInet => absurd isInet inet, fun _ => rfl⟩

/-! ### The settings -/

theorem apply_mPort (resolver : AddressResolver) (setting : Setting) :
    (setting.apply resolver).mPort = setting.given.getD resolver.mPort := by
  cases setting <;> rfl

theorem foldl_mPort (settings : List Setting) (resolver : AddressResolver) (given : Option Int)
    (same : resolver.mPort = given.getD (-1)) :
    (settings.foldl Setting.apply resolver).mPort =
      (settings.foldl (fun given setting => setting.given.or given) given).getD (-1) := by
  induction settings generalizing resolver given with
  | nil => exact same
  | cons setting settings ih =>
      apply ih
      rw [apply_mPort, same]
      dsimp only
      cases setting.given <;> rfl

theorem configured_mPort (settings : List Setting) :
    (configured settings).mPort = (givenPort settings).getD (-1) :=
  foldl_mPort settings {} none rfl

/-! ### Many calls -/

variable {calls : List Resolving}

theorem mem_trace {step : Resolving × Resolved (List SocketAddress)}
    (member : step ∈ trace resolver calls) :
    ∃ service, step.1 ∈ calls ∧ step.2 = step.1.run { resolver with mService := service } := by
  induction calls generalizing resolver with
  | nil => cases member
  | cons call calls ih =>
      rcases List.mem_cons.1 member with rfl | later
      · exact ⟨resolver.mService, List.mem_cons_self, rfl⟩
      · obtain ⟨kept, same⟩ := run_keeps resolver call
        rw [same] at later
        obtain ⟨service, among, ran⟩ := ih later
        exact ⟨service, List.mem_cons_of_mem call among, ran⟩

theorem trace_of_mem (resolver : AddressResolver) (member : call ∈ calls) :
    ∃ service, (call, call.run { resolver with mService := service }) ∈ trace resolver calls := by
  induction calls generalizing resolver with
  | nil => cases member
  | cons first calls ih =>
      rcases List.mem_cons.1 member with rfl | later
      · exact ⟨resolver.mService, List.mem_cons_self⟩
      · obtain ⟨kept, same⟩ := run_keeps resolver first
        obtain ⟨service, among⟩ := ih (first.run resolver).resolver later
        rw [same] at among
        rw [trace, same]
        exact ⟨service, List.mem_cons_of_mem _ among⟩

theorem run_ok_iff {addrs : List SocketAddress} :
    (call.run resolver).result = .ok addrs ↔
      resolver.mHost ≠ [] ∧ call.infos ≠ [] ∧ resolver.addresses call.infos = addrs := by
  by_cases hostless : resolver.mHost = []
  · rw [run_hostless hostless]
    exact ⟨fun impossible => (by cases impossible), fun all => absurd hostless all.1⟩
  · by_cases failed : call.infos = []
    · obtain ⟨error, run⟩ := run_failed hostless failed
      rw [run]
      exact ⟨fun impossible => (by cases impossible), fun all => absurd failed all.2.1⟩
    · rw [run_succeeded hostless failed]
      exact ⟨fun same => ⟨hostless, failed, Except.ok.inj same⟩,
        fun all => congrArg Except.ok all.2.2⟩

theorem port_given {port : Int} (stored : resolver.mPort = port) (least : 0 ≤ port)
    (most : port ≤ 65535) {step : Resolving × Resolved (List SocketAddress)}
    (member : step ∈ trace resolver calls) {addrs : List SocketAddress}
    (returned : step.2.result = .ok addrs) {address : SocketAddress} (among : address ∈ addrs)
    (inet : IsInet address) : address.port = some port := by
  obtain ⟨service, _, ran⟩ := mem_trace member
  rw [ran] at returned
  obtain ⟨_, _, rfl⟩ := run_ok_iff.1 returned
  obtain ⟨info, _, rfl⟩ := List.mem_map.1 among
  change ((SocketAddress.ofInfo info).trySetPort resolver.mPort).port = _
  have inetBefore : IsInet (SocketAddress.ofInfo info) := by
    unfold IsInet at inet ⊢
    rw [trySetPort_family] at inet
    exact inet
  rw [trySetPort_port inetBefore, stored, ofInt_toNat least most]

/-- Every address returned has the port that getaddrinfo gave it. -/
def PortsKept (steps : List (Resolving × Resolved (List SocketAddress))) : Prop :=
  ∀ step ∈ steps, ∀ addrs, step.2.result = .ok addrs →
    addrs.map SocketAddress.port =
      step.1.infos.map fun info => (SocketAddress.ofInfo info).port

theorem addresses_ports (sentinel : resolver.mPort = -1) (infos : List AddrInfo) :
    ((resolver.addresses infos).map SocketAddress.port =
        infos.map fun info => (SocketAddress.ofInfo info).port) ↔
      ∀ info ∈ infos, IsInet (SocketAddress.ofInfo info) →
        (SocketAddress.ofInfo info).port = some 65535 := by
  unfold addresses
  rw [List.map_map, sentinel, List.map_inj_left]
  exact forall₂_congr fun info _ => trySetPort_sentinel (SocketAddress.ofInfo info)

theorem portsKept_iff (sentinel : resolver.mPort = -1) (calls : List Resolving) :
    PortsKept (trace resolver calls) ↔
      resolver.mHost = [] ∨ ∀ call ∈ calls, ∀ info ∈ call.infos,
        IsInet (SocketAddress.ofInfo info) → (SocketAddress.ofInfo info).port = some 65535 := by
  constructor
  · intro kept
    by_cases hostless : resolver.mHost = []
    · exact .inl hostless
    · right
      intro call member
      by_cases failed : call.infos = []
      · rw [failed]
        intro info impossible
        cases impossible
      · obtain ⟨service, among⟩ := trace_of_mem resolver member
        have returned : (call.run { resolver with mService := service }).result =
            .ok (resolver.addresses call.infos) := run_ok_iff.2 ⟨hostless, failed, rfl⟩
        exact (addresses_ports sentinel call.infos).1 (kept _ among _ returned)
  · intro allowed step member addrs returned
    obtain ⟨service, among, ran⟩ := mem_trace member
    rw [ran] at returned
    obtain ⟨hosted, _, rfl⟩ := run_ok_iff.1 returned
    exact (addresses_ports sentinel step.1.infos).2 (allowed.resolve_left hosted step.1 among)

/-! ### Requests -/

/-- All requests are for the same host and service. -/
def SameRequests (steps : List (Resolving × Resolved (List SocketAddress))) : Prop :=
  ∀ step ∈ steps, ∀ other ∈ steps, ∀ request again,
    step.2.request = some request → other.2.request = some again →
      request.host = again.host ∧ request.service = again.service

theorem run_request (hosted : resolver.mHost ≠ []) (call : Resolving) :
    (call.run resolver).request = some resolver.request := by
  by_cases failed : call.infos = []
  · obtain ⟨error, run⟩ := run_failed hosted failed
    rw [run]
  · rw [run_succeeded hosted failed]

theorem trace_hostless (hostless : resolver.mHost = [])
    {step : Resolving × Resolved (List SocketAddress)} (member : step ∈ trace resolver calls) :
    step.2.request = none := by
  obtain ⟨service, _, ran⟩ := mem_trace member
  have hostlessThen : ({ resolver with mService := service } : AddressResolver).mHost = [] :=
    hostless
  rw [ran, run_hostless hostlessThen]

/-- A call that has no service to take away, or fails, leaves the resolver as it is. -/
theorem run_steady (hosted : resolver.mHost ≠ [])
    (harmless : resolver.mService = [] ∨ call.infos = []) :
    (call.run resolver).resolver = resolver := by
  by_cases failed : call.infos = []
  · obtain ⟨error, run⟩ := run_failed hosted failed
    rw [run]
  · rw [run_succeeded hosted failed]
    change { resolver with mService := [] } = resolver
    rw [← harmless.resolve_right failed]

theorem trace_steady (hosted : resolver.mHost ≠ [])
    (harmless : resolver.mService = [] ∨ ∀ call ∈ calls.dropLast, call.infos = [])
    {step : Resolving × Resolved (List SocketAddress)} (member : step ∈ trace resolver calls) :
    step.2 = step.1.run resolver := by
  induction calls with
  | nil => cases member
  | cons call calls ih =>
      rcases List.mem_cons.1 member with rfl | later
      · rfl
      · cases calls with
        | nil => cases later
        | cons next calls =>
            rw [List.dropLast_cons_cons] at harmless
            have now : resolver.mService = [] ∨ call.infos = [] :=
              harmless.imp_right fun all => all call List.mem_cons_self
            rw [run_steady hosted now] at later
            exact ih (harmless.imp_right fun all other among =>
              all other (List.mem_cons_of_mem call among)) later

theorem after_keeps (resolver : AddressResolver) (calls : List Resolving) :
    ∃ service, after resolver calls = { resolver with mService := service } := by
  induction calls generalizing resolver with
  | nil => exact ⟨resolver.mService, rfl⟩
  | cons call calls ih =>
      obtain ⟨kept, same⟩ := run_keeps resolver call
      obtain ⟨service, last⟩ := ih (call.run resolver).resolver
      rw [same] at last
      refine ⟨service, ?_⟩
      change after (call.run resolver).resolver calls = _
      rw [same, last]

theorem mem_trace_append (resolver : AddressResolver) (front : List Resolving) (call : Resolving)
    (back : List Resolving) :
    (call, call.run (after resolver front)) ∈ trace resolver (front ++ call :: back) := by
  induction front generalizing resolver with
  | nil => exact List.mem_cons_self
  | cons first front ih => exact List.mem_cons_of_mem _ (ih (first.run resolver).resolver)

theorem request_behind (hosted : resolver.mHost ≠ []) (front : List Resolving)
    (succeeded : call.infos ≠ []) (next : Resolving) (back : List Resolving) :
    ∃ step ∈ trace resolver (front ++ call :: next :: back), ∃ request,
      step.2.request = some request ∧ request.service = none := by
  have split : front ++ call :: next :: back = (front ++ [call]) ++ next :: back := by
    rw [List.append_assoc]
    rfl
  have member := mem_trace_append resolver (front ++ [call]) next back
  obtain ⟨service, kept⟩ := after_keeps resolver front
  have hostedThen : (after resolver front).mHost ≠ [] := by
    rw [kept]
    exact hosted
  have last : after resolver (front ++ [call]) =
      { after resolver front with mService := [] } := by
    unfold after
    rw [List.foldl_append]
    change (call.run (after resolver front)).resolver = _
    rw [run_succeeded hostedThen succeeded]
    rfl
  rw [split]
  refine ⟨_, member, (after resolver (front ++ [call])).request, ?_, ?_⟩
  · apply run_request
    rw [last]
    exact hostedThen
  · rw [last]
    rfl

theorem sameRequests_iff (resolver : AddressResolver) (calls : List Resolving) :
    SameRequests (trace resolver calls) ↔
      resolver.mHost = [] ∨ resolver.mService = [] ∨
        ∀ call ∈ calls.dropLast, call.infos = [] := by
  constructor
  · intro same
    by_contra fails
    obtain ⟨hosted, fails⟩ := not_or.1 fails
    obtain ⟨serviced, fails⟩ := not_or.1 fails
    rw [not_forall] at fails
    obtain ⟨call, fails⟩ := fails
    obtain ⟨member, succeeded⟩ := Classical.not_imp.1 fails
    obtain ⟨front, back, split⟩ := List.append_of_mem member
    have nonempty : calls ≠ [] := by
      intro empty
      rw [empty] at member
      cases member
    have whole : calls = front ++ call :: (back ++ [calls.getLast nonempty]) := by
      conv_lhs => rw [← List.dropLast_append_getLast nonempty, split]
      rw [List.append_assoc]
      rfl
    obtain ⟨next, rest, follows⟩ := List.exists_cons_of_ne_nil
      (List.append_ne_nil_of_right_ne_nil back (List.cons_ne_nil (calls.getLast nonempty) []))
    rw [follows] at whole
    obtain ⟨first, others, starts⟩ := List.exists_cons_of_ne_nil nonempty
    obtain ⟨step, among, request, asked, without⟩ :=
      request_behind hosted front succeeded next rest
    rw [← whole] at among
    have head : (first, first.run resolver) ∈ trace resolver calls := by
      rw [starts]
      exact List.mem_cons_self
    have services := (same _ head _ among _ _ (run_request hosted first) asked).2
    rw [without] at services
    unfold AddressResolver.request at services
    rw [if_neg serviced] at services
    cases services
  · intro allowed step member other among request again asked askedAgain
    by_cases hostless : resolver.mHost = []
    · rw [trace_hostless hostless member] at asked
      cases asked
    · have harmless := allowed.resolve_left hostless
      rw [trace_steady hostless harmless member, run_request hostless] at asked
      rw [trace_steady hostless harmless among, run_request hostless] at askedAgain
      cases asked
      cases askedAgain
      exact ⟨rfl, rfl⟩

/-! ### The law -/

/-- A given port is that of every address, without one the ports stay, and every call asks
for the same host and service. -/
structure Lawful (settings : List Setting) (calls : List Resolving) : Prop where
  given : ∀ port, givenPort settings = some port → 0 ≤ port → port ≤ 65535 →
    ∀ step ∈ trace (configured settings) calls, ∀ addrs, step.2.result = .ok addrs →
      ∀ address ∈ addrs, IsInet address → address.port = some port
  kept : givenPort settings = none → PortsKept (trace (configured settings) calls)
  same : SameRequests (trace (configured settings) calls)

/-- Where the law holds: for the ports, and for the service. -/
theorem lawful_iff (settings : List Setting) (calls : List Resolving) :
    Lawful settings calls ↔
      ((∃ port, givenPort settings = some port) ∨ (configured settings).mHost = [] ∨
          ∀ call ∈ calls, ∀ info ∈ call.infos, IsInet (SocketAddress.ofInfo info) →
            (SocketAddress.ofInfo info).port = some 65535) ∧
        ((configured settings).mHost = [] ∨ (configured settings).mService = [] ∨
          ∀ call ∈ calls.dropLast, call.infos = []) := by
  have stored := configured_mPort settings
  constructor
  · intro lawful
    constructor
    · cases given : givenPort settings with
      | some port => exact .inl ⟨port, rfl⟩
      | none =>
          rw [given] at stored
          exact .inr ((portsKept_iff stored calls).1 (lawful.kept given))
    · exact (sameRequests_iff _ calls).1 lawful.same
  · intro allowed
    constructor
    case given =>
      intro port given least most step member addrs returned address among inet
      rw [given] at stored
      exact port_given stored least most member returned among inet
    case kept =>
      intro given
      rw [given] at stored
      apply (portsKept_iff stored calls).2
      rcases allowed.1 with ⟨port, other⟩ | kept
      · rw [given] at other
        cases other
      · exact kept
    case same => exact (sameRequests_iff _ calls).2 allowed.2

/-- resolve_all, with one IPv4 address and port 80 for an answer. -/
def answered : Resolving :=
  { kind := .all
    answer := .ok
      [{ aiAddr :=
          { ssFamily := AF_INET
            sinPort := htons 80
            sinAddr := [10, 0, 0, 1]
            sin6Addr := [] }
         aiAddrlen := 16
         aiFamily := 2
         aiSocktype := 1
         aiProtocol := 6 }] }

/-- `host("h").service("80")` once, and `host("h").service("80").port(80)` twice. -/
theorem not_lawful_sentinel_and_moved :
    ¬Lawful [.host [104], .service [56, 48]] [answered] ∧
      ¬Lawful [.host [104], .service [56, 48], .port 80] [answered, answered] := by
  constructor
  · intro lawful
    rcases (portsKept_iff rfl _).1 (lawful.kept rfl) with hostless | kept
    · cases hostless
    · have last := kept answered List.mem_cons_self _ List.mem_cons_self (.inl rfl)
      exact absurd last (by decide)
  · intro lawful
    rcases (sameRequests_iff _ _).1 lawful.same with hostless | serviceless | failed
    · cases hostless
    · cases serviceless
    · cases failed answered List.mem_cons_self

end MCoro.AddressResolver
