/-
The three overloads of socket_connect in co_async/platform/socket.cpp.

The ones with a timeout and with a token have no co_return at their end: where both
calls have succeeded they flow off it, with no result, and the handle that was a local
variable closes the descriptor.
-/

import MCoro.Platform.AddressResolver
import MCoro.Platform.Fallbacks

namespace MCoro.SocketConnect

open Fallbacks

def sockStream : Int := 1

def operationCanceled : ErrorCode :=
  .errc 125

structure SocketRequest where
  family : UInt16
  type : Int
  protocol : Int
  deriving DecidableEq, Repr

/-- A completion of the ring, and what libc returns if the fallback asks it. -/
structure Answers where
  res : Int
  libc : Int
  deriving DecidableEq, Repr

inductive Ended where
  /-- With an error, or with the handle of the descriptor. -/
  | returned (result : Expected Int)
  /-- The coroutine has reached its end without a co_return. -/
  | flowedOff

structure Task where
  request : SocketRequest
  ended : Ended
  /-- The descriptors closed by the destructor of `sock`. -/
  closed : List Int

/-- `~FileHandle`. -/
def destroy (fileNo : Int) : List Int :=
  if fileNo ≠ -1 then [fileNo] else []

/-- The lines that the overloads have in common. `canceled` is what the token says behind
the creation, and `finish` is the end of the body. -/
def connectTask (request : SocketRequest) (canceled : Bool) (finish : Int → Ended × List Int)
    (create connect : Answers) : Task :=
  match Fallbacks.createSocket.number create.res create.libc with
  | .error code =>
      { request := request
        ended := .returned (.error code)
        closed := [] }
  | .ok sock =>
      if canceled then
        { request := request
          ended := .returned (.error operationCanceled)
          closed := destroy sock }
      else
        match (Fallbacks.socketConnect sock).number connect.res connect.libc with
        | .error code =>
            { request := request
              ended := .returned (.error code)
              closed := destroy sock }
        | .ok _ =>
            { request := request
              ended := (finish sock).1
              closed := (finish sock).2 }

/-- `co_return sock`, which moves from the local variable. -/
def returnSock (sock : Int) : Ended × List Int :=
  (.returned (.ok sock), [])

def flowOff (sock : Int) : Ended × List Int :=
  (.flowedOff, destroy sock)

def socketRequest (addr : SocketAddress) : SocketRequest :=
  { family := addr.family
    type := addr.mSockType
    protocol := addr.mProtocol }

def socketConnect (addr : SocketAddress) (create connect : Answers) : Task :=
  connectTask (socketRequest addr) false returnSock create connect

/-- With a timeout, which does not fire. -/
def socketConnectTimeout (addr : SocketAddress) (create connect : Answers) : Task :=
  connectTask (socketRequest addr) false flowOff create connect

/-- With a token. -/
def socketConnectCancel (addr : SocketAddress) (canceled : Bool) (create connect : Answers) :
    Task :=
  connectTask { family := addr.family, type := sockStream, protocol := 0 } canceled flowOff
    create connect

/-! ### Agreement -/

variable {request : SocketRequest} {create connect : Answers}

/-- An error that the ring reports and the fallback is not asked about. -/
def Answers.Fails (answers : Answers) : Prop :=
  answers.res < 0 ∧ answers.res ≠ -invalidArgument

instance (answers : Answers) : Decidable answers.Fails :=
  inferInstanceAs (Decidable (_ ∧ _))

theorem number_cases (op : Retried) (trigger : op.trigger = invalidArgument)
    (raw : ∀ libc, op.fallback libc = .ok libc) (answers : Answers) :
    (answers.Fails ∧ op.number answers.res answers.libc = .error (.errc (-answers.res))) ∨
      (¬answers.Fails ∧ ∃ value, op.number answers.res answers.libc = .ok value ∧
        (0 ≤ answers.res → value = answers.res)) := by
  by_cases unsupported : answers.res = -op.trigger
  · right
    have positive : 0 < op.trigger := by
      rw [trigger]
      exact Nat.succ_pos 21
    have asked := number_unsupported op positive answers.libc
    rw [← unsupported, raw] at asked
    rw [trigger] at unsupported
    refine ⟨fun fails => fails.2 unsupported, answers.libc, asked, fun nonneg => ?_⟩
    omega
  · have known := number_known op answers.libc unsupported
    rw [trigger] at unsupported
    rw [known]
    unfold expectError
    by_cases negative : answers.res < 0
    · left
      exact ⟨⟨negative, unsupported⟩, if_pos negative⟩
    · right
      exact ⟨fun fails => negative fails.1, answers.res, if_neg negative, fun _ => rfl⟩

theorem created_cases (create : Answers) :
    (create.Fails ∧ Fallbacks.createSocket.number create.res create.libc =
        .error (.errc (-create.res))) ∨
      (¬create.Fails ∧ ∃ sock, Fallbacks.createSocket.number create.res create.libc = .ok sock ∧
        (0 ≤ create.res → sock = create.res)) :=
  number_cases Fallbacks.createSocket rfl (fun _ => rfl) create

theorem connected_cases (sock : Int) (connect : Answers) :
    (connect.Fails ∧ (Fallbacks.socketConnect sock).number connect.res connect.libc =
        .error (.errc (-connect.res))) ∨
      (¬connect.Fails ∧ ∃ status,
        (Fallbacks.socketConnect sock).number connect.res connect.libc = .ok status ∧
          (0 ≤ connect.res → status = connect.res)) :=
  number_cases (Fallbacks.socketConnect sock) rfl (fun _ => rfl) connect

theorem connectTask_request (request : SocketRequest) (canceled : Bool)
    (finish : Int → Ended × List Int) (create connect : Answers) :
    (connectTask request canceled finish create connect).request = request := by
  unfold connectTask
  split
  · rfl
  · split
    · rfl
    · split <;> rfl

theorem connectTask_failed (fails : create.Fails ∨ connect.Fails) :
    ∃ code, ∀ request finish, (connectTask request false finish create connect).ended =
      .returned (.error code) := by
  rcases created_cases create with ⟨_, failed⟩ | ⟨created, sock, value, _⟩
  · refine ⟨.errc (-create.res), fun request finish => ?_⟩
    unfold connectTask
    rw [failed]
  · rcases connected_cases sock connect with ⟨_, failed⟩ | ⟨connected, _⟩
    · refine ⟨.errc (-connect.res), fun request finish => ?_⟩
      unfold connectTask
      rw [value]
      dsimp only
      rw [if_neg Bool.false_ne_true, failed]
    · exact absurd fails (not_or.2 ⟨created, connected⟩)

theorem connectTask_succeeded (created : ¬create.Fails) (connected : ¬connect.Fails) :
    ∃ sock, (0 ≤ create.res → sock = create.res) ∧
      ∀ request finish, connectTask request false finish create connect =
        { request := request
          ended := (finish sock).1
          closed := (finish sock).2 } := by
  rcases created_cases create with ⟨fails, _⟩ | ⟨_, sock, value, same⟩
  · exact absurd fails created
  · rcases connected_cases sock connect with ⟨fails, _⟩ | ⟨_, status, done, _⟩
    · exact absurd fails connected
    · refine ⟨sock, same, fun request finish => ?_⟩
      unfold connectTask
      rw [value]
      dsimp only
      rw [if_neg Bool.false_ne_true, done]

/-- The three overloads ask for the same socket and end in the same way, with the handle
of the connected descriptor where the ring has done both. -/
structure SameConnection (addr : SocketAddress) (create connect : Answers) : Prop where
  sameRequest :
    (socketConnectTimeout addr create connect).request =
        (socketConnect addr create connect).request ∧
      (socketConnectCancel addr false create connect).request =
        (socketConnect addr create connect).request
  sameEnd :
    (socketConnectTimeout addr create connect).ended =
        (socketConnect addr create connect).ended ∧
      (socketConnectCancel addr false create connect).ended =
        (socketConnect addr create connect).ended
  owns : 0 ≤ create.res → 0 ≤ connect.res →
    (socketConnect addr create connect).ended = .returned (.ok create.res) ∧
      (socketConnect addr create connect).closed = []

/-- They agree just on the addresses that the third one assumes, and on failures. -/
theorem sameConnection_iff (addr : SocketAddress) (create connect : Answers) :
    SameConnection addr create connect ↔
      (addr.mSockType = sockStream ∧ addr.mProtocol = 0) ∧ (create.Fails ∨ connect.Fails) := by
  constructor
  · intro same
    constructor
    · have requests := same.sameRequest.2
      unfold socketConnectCancel socketConnect at requests
      rw [connectTask_request, connectTask_request] at requests
      exact ⟨(congrArg SocketRequest.type requests).symm,
        (congrArg SocketRequest.protocol requests).symm⟩
    · by_contra succeeds
      obtain ⟨created, connected⟩ := not_or.1 succeeds
      obtain ⟨sock, _, ends⟩ := connectTask_succeeded created connected
      have ended := same.sameEnd.1
      unfold socketConnectTimeout socketConnect at ended
      rw [ends, ends] at ended
      cases ended
  · intro allowed
    obtain ⟨⟨streams, protocol⟩, fails⟩ := allowed
    have sameRequest : ({ family := addr.family, type := sockStream, protocol := 0 } :
        SocketRequest) = socketRequest addr := by
      unfold socketRequest
      rw [streams, protocol]
    have sameTask : socketConnectCancel addr false create connect =
        socketConnectTimeout addr create connect := by
      unfold socketConnectCancel socketConnectTimeout
      rw [sameRequest]
    obtain ⟨code, ended⟩ := connectTask_failed fails
    have requests : (socketConnectTimeout addr create connect).request =
        (socketConnect addr create connect).request :=
      (connectTask_request _ _ _ _ _).trans (connectTask_request _ _ _ _ _).symm
    have ends : (socketConnectTimeout addr create connect).ended =
        (socketConnect addr create connect).ended := (ended _ _).trans (ended _ _).symm
    constructor
    case sameRequest => exact ⟨requests, sameTask ▸ requests⟩
    case sameEnd => exact ⟨ends, sameTask ▸ ends⟩
    case owns =>
      intro made linked
      rcases fails with created | connected
      · exact absurd created.1 (Int.not_lt.2 made)
      · exact absurd connected.1 (Int.not_lt.2 linked)

/-- A stream socket that is made and connected. -/
theorem not_sameConnection_success :
    ¬SameConnection loopback { res := 3, libc := 0 } { res := 0, libc := 0 } := by
  intro same
  have ended := same.sameEnd.1
  cases ended

end MCoro.SocketConnect
