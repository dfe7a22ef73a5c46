import LlmRuntime.Library.Xdr
import LlmRuntime.RpcCall

/-!
# The wire format of `rpc.c`

`rpc_encode_call` and `rpc_encode_reply` write a message into a buffer, and
`rpc_decode_msg` takes one apart.  Enumerated fields are the words that arrive.
A copy that is longer than its array runs into the fields behind it, which the
list of the array then has too.
-/

namespace LlmRuntime.RpcWire

open Bytes Xdr

def rpcVersion : UInt32 := 2
def opaqueAuthBodyMax : Nat := 400
def rpcPayloadMax : Nat := 4096

def msgCall : UInt32 := 0
def msgReply : UInt32 := 1
def msgAccepted : UInt32 := 0
def msgDenied : UInt32 := 1
def acceptSuccess : UInt32 := 0
def acceptProgMismatch : UInt32 := 2
def rejectRpcMismatch : UInt32 := 0
def rejectAuthError : UInt32 := 1
def authNone : UInt32 := 0

/-- `opaque_auth_t`. -/
structure OpaqueAuth where
  flavor : UInt32
  bodyLen : UInt32
  body : List UInt8
  deriving DecidableEq, Repr

/-- `call_body_t`. -/
structure CallBody where
  rpcvers : UInt32
  prog : UInt32
  vers : UInt32
  proc : UInt32
  cred : OpaqueAuth
  verf : OpaqueAuth
  deriving DecidableEq, Repr

/-- `mismatch_info_t`. -/
structure MismatchInfo where
  low : UInt32
  high : UInt32
  deriving DecidableEq, Repr

/-- `accepted_reply_t`. -/
structure AcceptedReply where
  verf : OpaqueAuth
  stat : UInt32
  mismatch : MismatchInfo
  deriving DecidableEq, Repr

/-- `rejected_reply_t`. -/
structure RejectedReply where
  stat : UInt32
  mismatch : MismatchInfo
  authStat : UInt32
  deriving DecidableEq, Repr

/-- `rpc_msg_t`. -/
structure RpcMsgT where
  xid : UInt32
  mtype : UInt32
  call : CallBody
  replyStat : UInt32
  accepted : AcceptedReply
  rejected : RejectedReply
  payload : List UInt8
  payloadLen : UInt32
  deriving DecidableEq, Repr

section Encoding

variable (buflen : Nat)

def xdrEncodeAuthNone (written : List UInt8) : Option (List UInt8) := do
  let written ← put buflen (beWord authNone) written
  put buflen (beWord 0) written

/-- `rpc_encode_call`, with the bytes written for their number. -/
def rpcEncodeCall (msg : RpcMsgT) : Option (List UInt8) :=
  if msg.call.rpcvers ≠ rpcVersion then none
  else if msg.payloadLen.toNat > rpcPayloadMax then none
  else do
    let written ← put buflen (beWord msg.xid) []
    let written ← put buflen (beWord msgCall) written
    let written ← put buflen (beWord msg.call.rpcvers) written
    let written ← put buflen (beWord msg.call.prog) written
    let written ← put buflen (beWord msg.call.vers) written
    let written ← put buflen (beWord msg.call.proc) written
    let written ← xdrEncodeAuthNone buflen written
    let written ← xdrEncodeAuthNone buflen written
    if msg.payloadLen > 0 then put buflen (msg.payload.take msg.payloadLen.toNat) written
    else some written

/-- `rpc_encode_reply`; `payload` is the argument with its length. -/
def rpcEncodeReply (xid stat : UInt32) (payload : List UInt8) : Option (List UInt8) :=
  if payload.length > rpcPayloadMax then none
  else do
    let written ← put buflen (beWord xid) []
    let written ← put buflen (beWord msgReply) written
    let written ← put buflen (beWord msgAccepted) written
    let written ← xdrEncodeAuthNone buflen written
    let written ← put buflen (beWord stat) written
    if stat = acceptSuccess ∧ payload.length > 0 then put buflen payload written
    else some written

end Encoding

/-- The arrays that bytes of a datagram are copied to. -/
inductive CopyTarget where
  | cred
  | verf
  | replyVerf
  | payload
  deriving DecidableEq, Repr

def CopyTarget.capacity : CopyTarget → Nat
  | .cred => opaqueAuthBodyMax
  | .verf => opaqueAuthBodyMax
  | .replyVerf => opaqueAuthBodyMax
  | .payload => rpcPayloadMax

def overwritten (array copied : List UInt8) : List UInt8 := copied ++ array.drop copied.length

def xdrDecodeOpaqueAuth (target : CopyTarget) (auth : OpaqueAuth) :
    Decoder CopyTarget OpaqueAuth := do
  let flavor ← .word
  let bodyLen ← .word
  if bodyLen.toNat > opaqueAuthBodyMax then .fail
  else if bodyLen > 0 then
    -- the length is read a second time, over the one that was checked
    let again ← .word
    let copied ← .block target again.toNat
    pure ⟨flavor, bodyLen, overwritten auth.body copied⟩
  else pure ⟨flavor, bodyLen, auth.body⟩

def decodeCallBody (out : RpcMsgT) : Decoder CopyTarget RpcMsgT := do
  let rpcvers ← .word
  let prog ← .word
  let vers ← .word
  let proc ← .word
  if rpcvers ≠ rpcVersion then .fail
  else
    let cred ← xdrDecodeOpaqueAuth .cred out.call.cred
    let verf ← xdrDecodeOpaqueAuth .verf out.call.verf
    pure { out with call := ⟨rpcvers, prog, vers, proc, cred, verf⟩ }

def decodeReplyBody (out : RpcMsgT) : Decoder CopyTarget RpcMsgT := do
  let replyStat ← .word
  if replyStat = msgAccepted then
    let verf ← xdrDecodeOpaqueAuth .replyVerf out.accepted.verf
    let stat ← .word
    if stat = acceptProgMismatch then
      let low ← .word
      let high ← .word
      pure
        { out with
          replyStat := replyStat
          accepted := ⟨verf, stat, ⟨low, high⟩⟩ }
    else
      pure
        { out with
          replyStat := replyStat
          accepted := ⟨verf, stat, out.accepted.mismatch⟩ }
  else
    let rejectStat ← .word
    if rejectStat = rejectRpcMismatch then
      let low ← .word
      let high ← .word
      pure
        { out with
          replyStat := replyStat
          rejected := ⟨rejectStat, ⟨low, high⟩, out.rejected.authStat⟩ }
    else
      let authStat ← .word
      pure
        { out with
          replyStat := replyStat
          rejected := ⟨rejectStat, out.rejected.mismatch, authStat⟩ }

def decodePayload (out : RpcMsgT) : Decoder CopyTarget RpcMsgT := do
  let remaining ← .remaining
  if remaining > rpcPayloadMax then .fail
  else if remaining > 0 then
    let copied ← .block .payload remaining
    pure
      { out with
        payload := overwritten out.payload copied
        payloadLen := UInt32.ofNat remaining }
  else pure { out with payloadLen := UInt32.ofNat remaining }

/-- The body of `rpc_decode_msg`, for the message `out` of its caller. -/
def decodeMsg (out : RpcMsgT) : Decoder CopyTarget RpcMsgT := do
  let xid ← .word
  let mtype ← .word
  let out := { out with xid := xid, mtype := mtype }
  if mtype = msgCall then
    let out ← decodeCallBody out
    decodePayload out
  else if mtype = msgReply then
    let out ← decodeReplyBody out
    decodePayload out
  else .fail

/-- `rpc_decode_msg`: the message after `RPC_OK`, or `RPC_ERR_DECODE`. -/
def rpcDecodeMsg (out : RpcMsgT) (buf : List UInt8) : Except RpcResult RpcMsgT :=
  match (decodeMsg out).result buf with
  | some (decoded, _) => .ok decoded
  | none => .error .decode

def rpcDecodeCopies (out : RpcMsgT) (buf : List UInt8) : List (CopyTarget × List UInt8) :=
  (decodeMsg out).copies buf

end LlmRuntime.RpcWire
