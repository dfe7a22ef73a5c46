import LlmRuntime.Rpc

/-!
# Datagrams, the socket and `rpc_call`

`rpc_call` sends a call up to three times and takes datagrams from the socket
until one of them is the reply; everything else it takes is gone.  It moves by
one send or one receive, so that other nodes can act in between.
-/

namespace LlmRuntime

/-- A datagram as it left its sender. -/
structure Datagram where
  src : RpcAddr
  dst : RpcAddr
  msg : RpcMsg
  deriving DecidableEq, Repr

def rpcReply (xid : UInt32) (stat : AcceptStat) (payload : List UInt8) : RpcMsg where
  xid := xid
  mtype := .reply
  prog := 0
  vers := 0
  proc := 0
  replyStat := .accepted
  acceptStat := stat
  payload := payload

namespace Outgoing

/-- The datagram that `src` sends; `xid` is the one a call gets. -/
def datagram (src : RpcAddr) (xid : UInt32) : Outgoing → Datagram
  | .reply dst replyXid stat payload => ⟨src, dst, rpcReply replyXid stat payload⟩
  | .call dst proc payload => ⟨src, dst, rpcFillCall xid proc payload⟩

end Outgoing

/-- Datagrams sent one after the other; every call takes the next xid. -/
def sendAll (src : RpcAddr) : UInt32 → List Outgoing → List Datagram × UInt32
  | xid, [] => ([], xid)
  | xid, first :: rest =>
    let (sent, final) := sendAll src (if first.isReply then xid else xid + 1) rest
    (first.datagram src xid :: sent, final)

/-- What `rpc_recv` finds in the socket: a message, or bytes that
`rpc_decode_msg` rejects. -/
abbrev Received := Option RpcMsg × RpcAddr

/-- `RPC_OK` and the errors that `rpc_call` returns. -/
inductive RpcResult where
  | ok
  | timeout
  | net
  | decode
  | denied
  | prog
  | proc
  | garbage
  deriving DecidableEq, Repr

def rpcTimeoutMs : Int := 500
def rpcMaxRetries : Nat := 3

/-- The request of a call. -/
structure RpcRequest where
  dst : RpcAddr
  proc : UInt32
  payload : List UInt8
  deriving DecidableEq, Repr

/-- Where `rpc_call` stands: about to send, or in the receive loop with
`remaining_ms` left. -/
inductive RpcCallPc where
  | send (attempt : Nat)
  | receive (attempt : Nat) (remainingMs : Int)
  deriving DecidableEq, Repr

/-- A call in progress. -/
structure RpcCall where
  request : RpcRequest
  xid : UInt32
  pc : RpcCallPc
  deriving DecidableEq, Repr

namespace RpcCall

/-- The caller fills the request, which takes one xid, and `rpc_call` replaces
it by the next. -/
def start (request : RpcRequest) (nextXid : UInt32) : RpcCall where
  request := request
  xid := nextXid + 1
  pc := .send 0

def datagram (src : RpcAddr) (call : RpcCall) : Datagram :=
  ⟨src, call.request.dst, rpcFillCall call.xid call.request.proc call.request.payload⟩

end RpcCall

def replyResult (msg : RpcMsg) : RpcResult :=
  match msg.replyStat with
  | .denied => .denied
  | .accepted =>
    match msg.acceptStat with
    | .success => .ok
    | .progUnavail => .prog
    | .progMismatch => .prog
    | .procUnavail => .proc
    | .garbageArgs => .garbage
    | .systemErr => .net
    | .unlisted _ => .decode

/-- A call goes on, or has returned. -/
inductive RpcProgress where
  | pending (call : RpcCall)
  | returned (result : RpcResult)
  deriving DecidableEq, Repr

/-- One datagram taken in the receive loop of `rpc_call`: a call, or a reply to
another xid, is dropped. -/
def rpcCallTake (call : RpcCall) (attempt : Nat) (remainingMs : Int) :
    Option RpcMsg → RpcProgress
  | none => .returned .decode
  | some msg =>
    if msg.mtype = .reply ∧ msg.xid = call.xid then .returned (replyResult msg)
    else .pending { call with pc := .receive attempt (remainingMs - 10) }

/-- One step of `rpc_call` against the socket `queue`.  With nothing to receive
it goes on only when the wait has `timedOut`. -/
def rpcCallStep (src : RpcAddr) (call : RpcCall) (queue : List Received)
    (timedOut sendFails : Bool) :
    RpcProgress × List Received × List Datagram :=
  match call.pc with
  | .send attempt =>
    if rpcMaxRetries ≤ attempt then (.returned .timeout, queue, [])
    else if sendFails then (.returned .net, queue, [])
    else (.pending { call with pc := .receive attempt rpcTimeoutMs }, queue, [call.datagram src])
  | .receive attempt remainingMs =>
    if remainingMs ≤ 0 then (.pending { call with pc := .send (attempt + 1) }, queue, [])
    else
      match queue with
      | [] =>
        (.pending (if timedOut then { call with pc := .send (attempt + 1) }
          else call), [], [])
      | head :: rest => (rpcCallTake call attempt remainingMs head.1, rest, [])

/-- The datagram that the step takes out of the socket, if it takes one. -/
def rpcCallTakes (call : RpcCall) (queue : List Received) : Option Received :=
  match call.pc with
  | .send _ => none
  | .receive _ remainingMs => if remainingMs ≤ 0 then none else queue.head?

/-- A step takes at most the oldest datagram, whatever it does with it. -/
theorem rpcCallStep_queue (src : RpcAddr) (call : RpcCall)
    (queue : List Received) (timedOut sendFails : Bool) :
    queue =
      (rpcCallTakes call queue).toList ++ (rpcCallStep src call queue timedOut sendFails).2.1 := by
  unfold rpcCallTakes rpcCallStep
  cases call.pc with
  | send attempt =>
    dsimp only
    split_ifs <;> rfl
  | receive attempt remainingMs =>
    dsimp only
    by_cases exhausted : remainingMs ≤ 0
    · rw [if_pos exhausted, if_pos exhausted]
      rfl
    · rw [if_neg exhausted, if_neg exhausted]
      cases queue <;> rfl

theorem rpcCallStep_sent (src : RpcAddr) (call : RpcCall)
    (queue : List Received) (timedOut sendFails : Bool) :
    ∀ sent ∈ (rpcCallStep src call queue timedOut sendFails).2.2, sent = call.datagram src := by
  intro sent isSent
  unfold rpcCallStep at isSent
  cases pc : call.pc with
  | send attempt =>
    simp only [pc] at isSent
    split_ifs at isSent
    · cases isSent
    · cases isSent
    · exact List.mem_singleton.mp isSent
  | receive attempt remainingMs =>
    simp only [pc] at isSent
    by_cases exhausted : remainingMs ≤ 0
    · rw [if_pos exhausted] at isSent
      cases isSent
    · rw [if_neg exhausted] at isSent
      cases queue <;> cases isSent

theorem rpcCallTake_pending {call later : RpcCall} {attempt : Nat} {remainingMs : Int}
    {taken : Option RpcMsg} (goesOn : rpcCallTake call attempt remainingMs taken = .pending later) :
    later.request = call.request ∧ later.xid = call.xid := by
  cases taken with
  | none => cases goesOn
  | some msg =>
    unfold rpcCallTake at goesOn
    dsimp only at goesOn
    split_ifs at goesOn
    rw [← RpcProgress.pending.inj goesOn]
    exact ⟨rfl, rfl⟩

theorem rpcCallStep_pending {src : RpcAddr} {call later : RpcCall}
    {queue : List Received} {timedOut sendFails : Bool}
    (goesOn : (rpcCallStep src call queue timedOut sendFails).1 = .pending later) :
    later.request = call.request ∧ later.xid = call.xid := by
  unfold rpcCallStep at goesOn
  cases pc : call.pc with
  | send attempt =>
    simp only [pc] at goesOn
    split_ifs at goesOn
    rw [← RpcProgress.pending.inj goesOn]
    exact ⟨rfl, rfl⟩
  | receive attempt remainingMs =>
    simp only [pc] at goesOn
    by_cases exhausted : remainingMs ≤ 0
    · rw [if_pos exhausted] at goesOn
      rw [← RpcProgress.pending.inj goesOn]
      exact ⟨rfl, rfl⟩
    · rw [if_neg exhausted] at goesOn
      cases queue with
      | nil =>
        rw [← RpcProgress.pending.inj goesOn]
        cases timedOut <;> exact ⟨rfl, rfl⟩
      | cons head rest => exact rpcCallTake_pending goesOn

end LlmRuntime
