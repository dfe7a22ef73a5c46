import LlmRuntime.Library.Bytes

/-!
# RPC messages

Transport addresses, the decoded message, and the procedure numbers of the
inference program.  Every sender writes `AUTH_NONE` and no handler reads it.
-/

namespace LlmRuntime

/-- `rpc_addr_t`. -/
structure RpcAddr where
  ip : UInt32
  port : UInt16
  deriving DecidableEq, Repr

inductive MsgType where
  | call
  | reply
  deriving DecidableEq, Repr

inductive ReplyStat where
  | accepted
  | denied
  deriving DecidableEq, Repr

/-- `accept_stat_t`.  The decoder casts whatever word arrives, so a received
reply may carry a code outside the enumeration. -/
inductive AcceptStat where
  | success
  | progUnavail
  | progMismatch
  | procUnavail
  | garbageArgs
  | systemErr
  | unlisted (code : UInt32)
  deriving DecidableEq, Repr

/-- `rpc_msg_t`: the call fields are meaningful when `mtype` is `call`, the
reply fields when it is `reply`.  `payload_len` is the length of `payload`. -/
structure RpcMsg where
  xid : UInt32
  mtype : MsgType
  prog : UInt32
  vers : UInt32
  proc : UInt32
  replyStat : ReplyStat
  acceptStat : AcceptStat
  payload : List UInt8
  deriving DecidableEq, Repr

def inferenceProg : UInt32 := 0x20000001
def inferenceVers : UInt32 := 1

def procAuthHello : UInt32 := 1
def procCapAck : UInt32 := 2
def procInferReq : UInt32 := 4
def procHeartbeat : UInt32 := 5
def procSetNeighbor : UInt32 := 6
def procEvict : UInt32 := 7
def procAssignLayers : UInt32 := 9
def procShardReady : UInt32 := 10

/-- `rpc_fill_call`, with the payload the caller then adds. -/
def rpcFillCall (xid proc : UInt32) (payload : List UInt8) : RpcMsg where
  xid := xid
  mtype := .call
  prog := inferenceProg
  vers := inferenceVers
  proc := proc
  replyStat := .accepted
  acceptStat := .success
  payload := payload

/-- What a node puts on the wire: a reply to a received call, or a call of its
own. -/
inductive Outgoing where
  | reply
      (dst : RpcAddr) (xid : UInt32) (stat : AcceptStat)
      (payload : List UInt8)
  | call (dst : RpcAddr) (proc : UInt32) (payload : List UInt8)
  deriving DecidableEq, Repr

namespace Outgoing

def isReply : Outgoing → Bool
  | .reply .. => true
  | .call .. => false

end Outgoing

/-- The replies among the datagrams a handler sent. -/
def repliesOf (sent : List Outgoing) : List Outgoing := sent.filter Outgoing.isReply

@[simp]
theorem repliesOf_append (sent more : List Outgoing) :
    repliesOf (sent ++ more) = repliesOf sent ++ repliesOf more := List.filter_append sent more

@[simp]
theorem repliesOf_reply (dst : RpcAddr) (xid : UInt32) (stat : AcceptStat) (payload : List UInt8) :
    repliesOf [.reply dst xid stat payload] = [.reply dst xid stat payload] := rfl

end LlmRuntime
