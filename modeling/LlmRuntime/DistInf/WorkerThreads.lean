import LlmRuntime.Discovery.Registry
import LlmRuntime.DistInf.Shard

/-!
# The two threads of a worker

The listen thread owns the socket and runs `worker_inference_hook`; the
inference thread loads shards and drains the mailbox.  Every access to a field
that the other thread may write is a step, as is a critical section and the copy
of one record.
-/

namespace LlmRuntime.DistInf

open Discovery

universe u

/-- The next step of the listen thread, with the locals it still needs. -/
inductive ListenPc where
  | idle
  | assignStore (src : RpcAddr) (xid : UInt32) (assignment : AssignLayers)
  | assignClearReady (src : RpcAddr) (xid : UInt32) (assignment : AssignLayers)
  | assignResetSeq (src : RpcAddr) (xid : UInt32) (assignment : AssignLayers)
  | assignRaise (src : RpcAddr) (xid : UInt32) (assignment : AssignLayers)
  | hopReadReady (src : RpcAddr) (payload : List UInt8)
  | hopReadDim (src : RpcAddr) (payload : List UInt8)
  | hopDecode (src : RpcAddr) (payload : List UInt8) (dim : UInt32)
  | hopTestReady (src : RpcAddr) (hop : InferHop) (staging : Activation)
  | hopTestSource (src : RpcAddr) (hop : InferHop) (staging : Activation)
  | hopTestSeq (hop : InferHop) (staging : Activation)
  | hopCommit (hop : InferHop) (staging : Activation)
  deriving DecidableEq

/-- The next step of the inference thread. -/
inductive InferPc where
  | top
  | copyAssignment
  | clearAssignment (assignment : AssignLayers)
  | clearReady (assignment : AssignLayers)
  | release (assignment : AssignLayers)
  | load (assignment : AssignLayers)
  | setSession (assignment : AssignLayers)
  | setReady (assignment : AssignLayers)
  | report (assignment : AssignLayers) (status : UInt32)
  | testHop
  | testReady
  | drain
  | forward (hop : InferHop) (compute : Activation)
  | send (hop : InferHop) (result : Activation) (fwdUs : UInt32)
  deriving DecidableEq

/-- `inference_args_t` with `g_last_seq`, the live neighbour pointers and the
two program counters.  `commits` are the hops whose `COMMIT` was printed. -/
structure Worker (Row : Type u) where
  haveAssignment : Bool
  assignment : AssignLayers
  haveHop : Bool
  hop : InferHop
  activation : Activation
  session : UInt32
  ready : Bool
  shardDim : UInt32
  shard : Option (Shard Row)
  lastSeq : UInt32
  prev : RpcAddr
  next : RpcAddr
  listen : ListenPc
  infer : InferPc
  commits : List InferHop

/-- What a worker knows and never changes. -/
structure WorkerSelf where
  workerId : UInt32
  master : RpcAddr
  deriving DecidableEq, Repr

/-- One thing that happens to a worker.  `infer` carries what the weight server
answers, should the step load a shard, and the time a pass takes. -/
inductive WorkerEvent where
  | deliver (msg : RpcMsg) (src : RpcAddr)
  | listen
  | infer (fetch : Fetch) (fwdUs : UInt32)

/-- A worker at process start, with the neighbours registration gave it. -/
def Worker.init {Row : Type u} (prev next : RpcAddr) : Worker Row where
  haveAssignment := false
  assignment := AssignLayers.ofWords []
  haveHop := false
  hop := InferHop.ofWords []
  activation := []
  session := 0
  ready := false
  shardDim := 0
  shard := none
  lastSeq := 0
  prev := prev
  next := next
  listen := .idle
  infer := .top
  commits := []

section Steps

variable {Row : Type u} (self : WorkerSelf) (kernel : Kernel Row)

/-- A call received by an idle listen thread: `PROC_SET_NEIGHBOR` and
`PROC_EVICT` are handled at once, the two inference calls enter the hook. -/
def receive (worker : Worker Row) (msg : RpcMsg) (src : RpcAddr) : Worker Row × List Outgoing :=
  if msg.proc = procSetNeighbor then
    if msg.payload.length < SetNeighbor.size then (worker, [.reply src msg.xid .garbageArgs []])
    else
      let neighbors := SetNeighbor.decode msg.payload
      ({ worker with prev := neighbors.prev, next := neighbors.next },
        [.reply src msg.xid .success []])
  else if msg.proc = procEvict then (worker, [.reply src msg.xid .success []])
  else if msg.proc = procAssignLayers then
    if msg.payload.length < AssignLayers.size then (worker, [.reply src msg.xid .garbageArgs []])
    else if src ≠ self.master then (worker, [.reply src msg.xid .systemErr []])
    else
      ({ worker with
          listen := .assignStore src msg.xid (AssignLayers.decode msg.payload) },
        [])
  else if msg.proc = procInferReq then ({ worker with listen := .hopReadReady src msg.payload }, [])
  else (worker, [.reply src msg.xid .procUnavail []])

/-- A datagram taken from the socket; only an idle thread receives, and only
calls are looked at. -/
def deliverStep (worker : Worker Row) (msg : RpcMsg) (src : RpcAddr) : Worker Row × List Outgoing :=
  if worker.listen = .idle ∧ msg.mtype = .call then receive self worker msg src
  else (worker, [])

/-- The critical section that fills the mailbox. -/
def commitHop (worker : Worker Row) (hop : InferHop) (staging : Activation) : Worker Row :=
  if worker.haveHop then
    { worker with listen := .idle }
  else
    { worker with
      activation := staging
      hop := hop
      lastSeq := hop.seq
      haveHop := true
      commits := worker.commits ++ [hop]
      listen := .idle }

def listenStep (worker : Worker Row) : Worker Row × List Outgoing :=
  match worker.listen with
  | .idle => (worker, [])
  | .assignStore src xid assignment =>
    ({ worker with
        assignment := assignment
        listen := .assignClearReady src xid assignment }, [])
  | .assignClearReady src xid assignment =>
    ({ worker with
        ready := false
        listen := .assignResetSeq src xid assignment }, [])
  | .assignResetSeq src xid assignment =>
    ({ worker with
        lastSeq := 0
        listen := .assignRaise src xid assignment }, [])
  | .assignRaise src xid _ =>
    ({ worker with haveAssignment := true, listen := .idle }, [.reply src xid .success []])
  | .hopReadReady src payload =>
    ({ worker with
        listen :=
          if worker.ready then .hopReadDim src payload
          else .hopDecode src payload 0 }, [])
  | .hopReadDim src payload =>
    ({ worker with listen := .hopDecode src payload worker.shardDim }, [])
  | .hopDecode src payload dim =>
    ({ worker with
        listen :=
          match inferDecodeHop payload dim worker.session with
          | none => .idle
          | some (hop, staging) => .hopTestReady src hop staging }, [])
  | .hopTestReady src hop staging =>
    ({ worker with
        listen :=
          if worker.ready then .hopTestSource src hop staging
          else .idle }, [])
  | .hopTestSource src hop staging =>
    ({ worker with
        listen :=
          if src = worker.prev ∨ src = self.master then .hopTestSeq hop staging
          else .idle }, [])
  | .hopTestSeq hop staging =>
    ({ worker with
        listen :=
          if hop.seq ≤ worker.lastSeq then .idle
          else .hopCommit hop staging }, [])
  | .hopCommit hop staging => (commitHop worker hop staging, [])

/-- The critical section that drains the mailbox. -/
def drainHop (worker : Worker Row) : Worker Row :=
  if worker.haveHop then
    { worker with
      haveHop := false
      infer := .forward worker.hop worker.activation }
  else
    { worker with infer := .top }

def forwardHop (worker : Worker Row) (hop : InferHop) (compute : Activation)
    (fwdUs : UInt32) : Worker Row :=
  match worker.shard.bind fun shard =>
      shardForward kernel shard compute hop.pos with
  | none => { worker with infer := .top }
  | some (result, shard) =>
    { worker with
      shard := some shard
      infer := .send hop (kernel.tamper result) fwdUs }

/-- The hop as it is passed on to `next`. -/
def passedHop (hop : InferHop) (fwdUs : UInt32) (next : RpcAddr) : InferHop :=
  { hop with
    hop := hop.hop + 1
    computeUs := hop.computeUs + fwdUs
    flags :=
      if next = self.master then hop.flags ||| inferFlagFinal
      else hop.flags }

/-- The report sent when an assignment has been handled. -/
def shardReport (assignment : AssignLayers) (status : UInt32) : ShardReady where
  sessionId := assignment.sessionId
  workerId := self.workerId
  layerStart := assignment.layerStart
  layerEnd := assignment.layerEnd
  status := status

def inferStep (worker : Worker Row) (fetch : Fetch) (fwdUs : UInt32) : Worker Row × List Outgoing :=
  match worker.infer with
  | .top =>
    ({ worker with
        infer := if worker.haveAssignment then .copyAssignment
          else .testHop }, [])
  | .copyAssignment => ({ worker with infer := .clearAssignment worker.assignment }, [])
  | .clearAssignment assignment =>
    ({ worker with
        haveAssignment := false, infer := .clearReady assignment }, [])
  | .clearReady assignment => ({ worker with ready := false, infer := .release assignment }, [])
  | .release assignment => ({ worker with shard := none, infer := .load assignment }, [])
  | .load assignment =>
    ({ worker with
        shard := loadShard kernel assignment fetch
        shardDim := loadedDim assignment fetch worker.shardDim
        infer :=
          if loadStatus assignment fetch = 0 then .setSession assignment
          else .report assignment (loadStatus assignment fetch) }, [])
  | .setSession assignment =>
    ({ worker with
        session := assignment.sessionId
        infer := .setReady assignment }, [])
  | .setReady assignment => ({ worker with ready := true, infer := .report assignment 0 }, [])
  | .report assignment status =>
    ({ worker with infer := .top },
      [.call self.master procShardReady (shardReport self assignment status).encode])
  | .testHop =>
    ({ worker with
        infer := if worker.haveHop then .testReady else .top }, [])
  | .testReady => ({ worker with infer := if worker.ready then .drain else .top }, [])
  | .drain => (drainHop worker, [])
  | .forward hop compute => (forwardHop kernel worker hop compute fwdUs, [])
  | .send hop result fwdUs =>
    ({ worker with infer := .top },
      [.call worker.next procInferReq (inferPayload (passedHop self hop fwdUs worker.next) result)])

def workerStep (worker : Worker Row) :
    WorkerEvent → Worker Row × List Outgoing
  | .deliver msg src => deliverStep self worker msg src
  | .listen => listenStep self worker
  | .infer fetch fwdUs => inferStep self kernel worker fetch fwdUs

/-- The machine without the datagrams it sends. -/
def workerNext (worker : Worker Row) (event : WorkerEvent) : Worker Row :=
  (workerStep self kernel worker event).1

end Steps

end LlmRuntime.DistInf
