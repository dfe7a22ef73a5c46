import LlmRuntime.Library.Bytes
import LlmRuntime.Sha256

/-!
# The weight server

`server/server.py`: files are served in chunks of 512 bytes over datagrams.  A
handler sends packets itself and returns a further response or none, or raises;
what was sent before the exception stays sent.
-/

namespace LlmRuntime.Ftp

open Bytes

def msgMetaReq : UInt8 := 0x01
def msgMetaResp : UInt8 := 0x02
def msgDataRangeReq : UInt8 := 0x03
def msgRetransReq : UInt8 := 0x04
def msgDataPacket : UInt8 := 0x05
def msgError : UInt8 := 0x06

def chunkSize : Nat := 512

namespace Server

def maxRange : Nat := 16
def maxRetrans : Nat := 32

end Server

/-- The exceptions a handler can end with: a value that does not fit its field
of `struct.pack`, and a local read before it is assigned. -/
inductive PyError where
  | structError
  | unboundLocalError
  deriving DecidableEq, Repr

/-- The files by their id, and `hashlib.sha256`. -/
structure Server where
  hashlib : List UInt8 → Digest
  files : UInt8 → Option (List UInt8)

/-- What a handler sent itself, and how it ended. -/
structure Handled where
  sent : List (List UInt8)
  result : Except PyError (Option (List UInt8))

def totalChunks (file : List UInt8) : Nat := (file.length + chunkSize - 1) / chunkSize

def getChunk (file : List UInt8) (chunkIdx : Nat) : Option (List UInt8) :=
  if totalChunks file ≤ chunkIdx then none
  else
    let start := chunkIdx * chunkSize
    let stop := min (start + chunkSize) file.length
    some ((file.take stop).drop start)

/-- An `H` field of `struct.pack`. -/
def packHalf (value : Nat) : Except PyError (List UInt8) :=
  if value < 2 ^ 16 then .ok (beHalf (UInt16.ofNat value))
  else .error .structError

/-- An `I` field of `struct.pack`. -/
def packWord (value : Nat) : Except PyError (List UInt8) :=
  if value < 2 ^ 32 then .ok (beWord (UInt32.ofNat value))
  else .error .structError

def dataPacket (fileId : UInt8) (chunkIdx : Nat) (chunk : List UInt8) :
    Except PyError (List UInt8) := do
  let index ← packWord chunkIdx
  let length ← packHalf chunk.length
  return [msgDataPacket, fileId, 0, 0] ++ index ++ length ++ [0, 0] ++ chunk

def errorResponse (fileId errorCode : UInt8) : List UInt8 := [msgError, fileId, 0, 0, 0, errorCode]

def handleMetaReq (server : Server) (data : List UInt8) : Handled :=
  if data.length < 4 then ⟨[], .ok (some (errorResponse 0 2))⟩
  else
    let fileId := data.getD 1 0
    match server.files fileId with
    | none => ⟨[], .ok (some (errorResponse fileId 1))⟩
    | some file =>
      ⟨[], do
        let size ← packWord file.length
        let chunk ← packWord chunkSize
        let chunks ← packWord (totalChunks file)
        return some
          ([msgMetaResp, fileId, 0, 1] ++ size ++ chunk ++ chunks ++ (server.hashlib file).toList)⟩

/-- One packet for each of the given chunks that exists. -/
def sendChunks (file : List UInt8) (fileId : UInt8) :
    List Nat → List (List UInt8) × Except PyError Unit
  | [] => ([], .ok ())
  | chunkIdx :: rest =>
    match getChunk file chunkIdx with
    | none => sendChunks file fileId rest
    | some chunk =>
      match dataPacket fileId chunkIdx chunk with
      | .error error => ([], .error error)
      | .ok packet =>
        let (sent, result) := sendChunks file fileId rest
        (packet :: sent, result)

def handleDataRangeReq (server : Server) (data : List UInt8) : Handled :=
  if data.length < 12 then ⟨[], .ok (some (errorResponse 0 2))⟩
  else
    let fileId := data.getD 1 0
    let count := min (readBeHalf (data.drop 2)).1.toNat Server.maxRange
    let startIdx := (readBeWord (data.drop 8)).1.toNat
    match server.files fileId with
    | none => ⟨[], .ok (some (errorResponse fileId 1))⟩
    | some file =>
      if totalChunks file ≤ startIdx then ⟨[], .ok (some (errorResponse fileId 2))⟩
      else
        let stop := min (startIdx + count) (totalChunks file)
        let (sent, result) := sendChunks file fileId (List.range' startIdx (stop - startIdx))
        ⟨sent, result.map fun _ => none⟩

/-- The loop of `handle_retrans_req` over the indices of a request.  `offset`
is the local of that name, which may be unbound. -/
def retransLoop (file : List UInt8) (fileId : UInt8) (data : List UInt8) :
    Nat → Option Nat → List (List UInt8) × Except PyError Unit
  | 0, _ => ([], .ok ())
  | _ + 1, none => ([], .error .unboundLocalError)
  | count + 1, some offset =>
    if data.length < offset + 4 then ([], .ok ())
    else
      let chunkIdx := (readBeWord (data.drop offset)).1.toNat
      let (sent, failed) := sendChunks file fileId [chunkIdx]
      match failed with
      | .error error => (sent, .error error)
      | .ok () =>
        let (later, result) := retransLoop file fileId data count (some (offset + 4))
        (sent ++ later, result)

/-- `handle_retrans_req`; its local `offset` is never assigned before the
loop. -/
def handleRetransReq (server : Server) (data : List UInt8) : Handled :=
  if data.length < 4 then ⟨[], .ok (some (errorResponse 0 2))⟩
  else
    let fileId := data.getD 1 0
    let count := min (readBeHalf (data.drop 2)).1.toNat Server.maxRetrans
    match server.files fileId with
    | none => ⟨[], .ok (some (errorResponse fileId 1))⟩
    | some file =>
      let (sent, result) := retransLoop file fileId data count none
      ⟨sent, result.map fun _ => none⟩

/-- The datagrams `run` sends in answer to one: those of the handler, and the
response it returns, or an error if it raised. -/
def handleMessage (server : Server) (data : List UInt8) : List (List UInt8) :=
  match data with
  | [] => []
  | msgType :: _ =>
    let handled :=
      if msgType = msgMetaReq then handleMetaReq server data
      else if msgType = msgDataRangeReq then handleDataRangeReq server data
      else if msgType = msgRetransReq then handleRetransReq server data
      else ⟨[], .ok (some (errorResponse 0 2))⟩
    handled.sent ++
      match handled.result with
      | .ok response => response.toList
      | .error _ => [errorResponse 0 3]

end LlmRuntime.Ftp
