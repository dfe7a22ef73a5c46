import LlmRuntime.Rpc.RoundTrip

/-!
# `rpc_call` and the traffic of others

`rpc_call` drains what is not the reply it waits for.  Datagrams that cannot be
decoded end the call, and a reply to its transaction id is taken from any
sender.
-/

namespace LlmRuntime

def AcceptStat.ofWord (word : UInt32) : AcceptStat :=
  if word = 0 then .success
  else if word = 1 then .progUnavail
  else if word = 2 then .progMismatch
  else if word = 3 then .procUnavail
  else if word = 4 then .garbageArgs
  else if word = 5 then .systemErr
  else .unlisted word

namespace RpcWire

open Bytes Xdr

/-- The fields of a decoded message that its type gives a meaning. -/
def RpcMsgT.meaning (msg : RpcMsgT) : RpcMsg :=
  let payload := msg.payload.take msg.payloadLen.toNat
  if msg.mtype = msgCall then
    ⟨msg.xid, .call, msg.call.prog, msg.call.vers, msg.call.proc, .accepted, .success, payload⟩
  else if msg.replyStat = msgAccepted then
    ⟨msg.xid, .reply, 0, 0, 0, .accepted, .ofWord msg.accepted.stat, payload⟩
  else ⟨msg.xid, .reply, 0, 0, 0, .denied, .success, payload⟩

/-- What a caller of `rpc_call` finds in `out_reply`: what its type gives a
meaning, and the verifier as long as it says. -/
structure OutReply where
  msg : RpcMsg
  verf : OpaqueAuth
  deriving DecidableEq, Repr

def RpcMsgT.outReply (reply : RpcMsgT) : OutReply :=
  let verf := reply.accepted.verf
  ⟨reply.meaning, { verf with body := verf.body.take verf.bodyLen.toNat }⟩

/-- What `rpc_recv` makes of a datagram, in a message that held `before`. -/
def rpcRecv (before : RpcMsgT) (bytes : List UInt8) : Option RpcMsgT :=
  match rpcDecodeMsg before bytes with
  | .ok decoded => some decoded
  | .error _ => none

/-- The meaning of a message is in its datagram alone. -/
def MsgLayout.meaning (layout : MsgLayout) : RpcMsg :=
  match layout.body with
  | .call body =>
    ⟨layout.xid, .call, body.prog, body.vers, body.proc, .accepted, .success, layout.payload⟩
  | .reply (.accepted _ stat _) =>
    ⟨layout.xid, .reply, 0, 0, 0, .accepted, .ofWord stat, layout.payload⟩
  | .reply (.progMismatch _ _ _) =>
    ⟨layout.xid, .reply, 0, 0, 0, .accepted, .progMismatch, layout.payload⟩
  | .reply (.rpcMismatch _ _ _ _) =>
    ⟨layout.xid, .reply, 0, 0, 0, .denied, .success, layout.payload⟩
  | .reply (.authError _ _ _ _ _) =>
    ⟨layout.xid, .reply, 0, 0, 0, .denied, .success, layout.payload⟩

theorem meaning_fill (layout : MsgLayout) (before : RpcMsgT) :
    (layout.fill before).meaning = layout.meaning := by
  have different : msgReply ≠ msgCall := by decide
  obtain ⟨xid, body, bytes, short⟩ := layout
  have small : bytes.length < 2 ^ 32 := Nat.lt_of_le_of_lt short (by decide)
  have payload (array : List UInt8) :
      (overwritten array bytes).take (UInt32.ofNat bytes.length).toNat = bytes := by
    rw [UInt32.toNat_ofNat', Nat.mod_eq_of_lt small, overwritten, List.take_left]
  cases body with
  | call body =>
    simp only [RpcMsgT.meaning, MsgLayout.meaning, MsgLayout.fill,
      BodyLayout.fill, CallLayout.fill, payload, if_true]
  | reply body =>
    cases body with
    | accepted verf stat plain =>
      simp only [RpcMsgT.meaning, MsgLayout.meaning, MsgLayout.fill,
        BodyLayout.fill, ReplyLayout.fill, payload, if_neg different, if_true]
    | progMismatch verf low high =>
      simp only [RpcMsgT.meaning, MsgLayout.meaning, MsgLayout.fill,
        BodyLayout.fill, ReplyLayout.fill, payload, if_neg different, if_true]
      rfl
    | rpcMismatch replyStat denied low high
    | authError replyStat denied rejectStat other authStat =>
      simp only [RpcMsgT.meaning, MsgLayout.meaning, MsgLayout.fill, BodyLayout.fill,
        ReplyLayout.fill, payload, if_neg different, if_neg denied]

/-- A datagram is decoded into every message, or into none. -/
theorem rpcRecv_cases (bytes : List UInt8) :
    (∃ layout : MsgLayout, ∀ before, rpcRecv before bytes = some (layout.fill before)) ∨
      ∀ before, rpcRecv before bytes = none := by
  by_cases accepted : ∃ layout : MsgLayout, layout.bytes = bytes
  · obtain ⟨layout, isBytes⟩ := accepted
    refine .inl ⟨layout, fun before => ?_⟩
    rw [rpcRecv, rpcDecodeMsg_ok_iff.mpr ⟨layout, isBytes, rfl⟩]
  · refine .inr fun before => ?_
    rw [rpcRecv, rpcDecodeMsg_error_iff.mpr accepted]

/-- The verifier has come with the datagram, if the message had none before. -/
def RpcMsgT.verfWhole (reply : RpcMsgT) : Bool :=
  reply.accepted.verf.bodyLen.toNat ≤ reply.accepted.verf.body.length

/-- A whole verifier covers what the message held before. -/
theorem outReply_fill {layout : MsgLayout} (isReply : layout.meaning.mtype = .reply)
    (success : replyResult layout.meaning = .ok)
    (whole : (layout.fill blankMsg).verfWhole = true) (before : RpcMsgT) :
    (layout.fill before).outReply = (layout.fill blankMsg).outReply := by
  rw [RpcMsgT.outReply, RpcMsgT.outReply, meaning_fill, meaning_fill]
  obtain ⟨xid, body, payload, short⟩ := layout
  cases body with
  | call body => cases isReply
  | reply body =>
    cases body with
    | accepted verf stat plain =>
      have covers : verf.bodyLen.toNat ≤ verf.copied.length := by
        simpa [RpcMsgT.verfWhole, MsgLayout.fill, BodyLayout.fill, ReplyLayout.fill,
          AuthLayout.fill, blankMsg, overwritten] using whole
      simp [MsgLayout.fill, BodyLayout.fill, ReplyLayout.fill, AuthLayout.fill, overwritten,
        List.take_append_of_le_length covers]
    | progMismatch | rpcMismatch | authError => cases success

/-- The message that `rpc_fill_call` leaves to the encoder. -/
def filledCall (xid proc : UInt32) (payload : List UInt8) : RpcMsgT :=
  { blankMsg with
    xid := xid
    mtype := msgCall
    call := ⟨rpcVersion, inferenceProg, inferenceVers, proc, ⟨authNone, 0, []⟩, ⟨authNone, 0, []⟩⟩
    payload := payload
    payloadLen := UInt32.ofNat payload.length }

/-- A datagram at the socket: its sender and its bytes. -/
abbrev Arrival := RpcAddr × List UInt8

/-- What an attempt meets: whether its send fails, and what arrives until the
reply comes or the time is over. -/
structure Attempt where
  sendFails : Bool
  arrivals : List Arrival
  deriving DecidableEq, Repr

/-- What `rpc_call` returns, with `out_reply` after `RPC_OK`. -/
def returned (result : RpcResult) (reply : RpcMsgT) : RpcResult × Option OutReply :=
  (result, if result = .ok then some reply.outReply else none)

/-- The receive loop of an attempt, which decodes into one message; `none` when
the next attempt follows. -/
def receiveLoop (call : RpcCall) (attempt : Nat) :
    RpcMsgT → Int → List Arrival → Option (RpcResult × Option OutReply)
  | _, _, [] => none
  | reply, remainingMs, arrival :: later =>
    if remainingMs ≤ 0 then none
    else
      match rpcRecv reply arrival.2 with
      | none => some (.decode, none)
      | some reply =>
        match rpcCallTake call attempt remainingMs (some reply.meaning) with
        | .returned result => some (returned result reply)
        | .pending _ => receiveLoop call attempt reply (remainingMs - 10) later

/-- `stack` is what each attempt finds in its `reply`. -/
def attemptsFrom (call : RpcCall) (stack : Nat → RpcMsgT) :
    Nat → List Attempt → RpcResult × Option OutReply
  | _, [] => (.timeout, none)
  | attempt, current :: later =>
    if current.sendFails then (.net, none)
    else
      (receiveLoop call attempt (stack attempt) rpcTimeoutMs current.arrivals).getD
        (attemptsFrom call stack (attempt + 1) later)

def rpcCall (call : RpcCall) (stack : Nat → RpcMsgT) (traffic : Nat → Attempt) :
    RpcResult × Option OutReply :=
  attemptsFrom call stack 0 ((List.range rpcMaxRetries).map traffic)

section Strays

variable (call : RpcCall)

/-- The message is a reply to the transaction id of the call. -/
def matchesCall (msg : RpcMsg) : Bool := msg.mtype = .reply ∧ msg.xid = call.xid

/-- A well-formed reply to the call, from its destination. -/
def wanted (arrival : Arrival) : Bool :=
  arrival.1 = call.request.dst ∧
    (rpcRecv blankMsg arrival.2).any fun reply =>
      matchesCall call reply.meaning && reply.verfWhole

/-- A message that is no reply to the transaction id. -/
def dropped (arrival : Arrival) : Bool :=
  (rpcRecv blankMsg arrival.2).any fun reply => !matchesCall call reply.meaning

/-- Two runs whose attempts get the same replies to the call. -/
structure SameReplies (traffic other : Nat → Attempt) : Prop where
  sendFails : ∀ k, (traffic k).sendFails = (other k).sendFails
  replies : ∀ k, (traffic k).arrivals.filter (wanted call) = (other k).arrivals.filter (wanted call)

/-- Fewer than 50 other datagrams in each attempt, all of the kind `Stray`. -/
structure FewStrays (Stray : Arrival → Prop) (traffic : Nat → Attempt) : Prop where
  kind : ∀ k, ∀ arrival ∈ (traffic k).arrivals, wanted call arrival = false → Stray arrival
  few :
    ∀ k,
      ((traffic k).arrivals.filter fun arrival =>
        !wanted call arrival).length < 50

variable {call}

/-- What a reply to the call makes `rpc_call` return. -/
def replyOutcome (arrival : Arrival) : RpcResult × Option OutReply :=
  match rpcRecv blankMsg arrival.2 with
  | some reply => returned (replyResult reply.meaning) reply
  | none => (.decode, none)

variable {attempt : Nat} {arrival : Arrival} {remainingMs : Int}

theorem rpcCallTake_of_matches {msg : RpcMsg} (isMatch : matchesCall call msg = true) :
    rpcCallTake call attempt remainingMs (some msg) = .returned (replyResult msg) := by
  rw [rpcCallTake, if_pos (of_decide_eq_true isMatch)]

theorem rpcCallTake_of_other {msg : RpcMsg} (other : matchesCall call msg = false) :
    rpcCallTake call attempt remainingMs (some msg) =
      .pending { call with pc := .receive attempt (remainingMs - 10) } := by
  rw [rpcCallTake, if_neg (of_decide_eq_false other)]

theorem received_of_any {test : RpcMsgT → Bool}
    (passes : (rpcRecv blankMsg arrival.2).any test = true) :
    ∃ layout : MsgLayout, test (layout.fill blankMsg) = true ∧
      ∀ before, rpcRecv before arrival.2 = some (layout.fill before) := by
  rcases rpcRecv_cases arrival.2 with ⟨layout, isFill⟩ | isNone
  · rw [isFill] at passes
    exact ⟨layout, passes, isFill⟩
  · rw [isNone] at passes
    cases passes

theorem receiveLoop_wanted (reply : RpcMsgT) (later : List Arrival) (inTime : 0 < remainingMs)
    (isWanted : wanted call arrival = true) :
    receiveLoop call attempt reply remainingMs (arrival :: later) =
      some (replyOutcome arrival) := by
  obtain ⟨layout, passes, isFill⟩ := received_of_any (of_decide_eq_true isWanted).2
  rw [Bool.and_eq_true, meaning_fill] at passes
  have isReply := (of_decide_eq_true passes.1).1
  rw [receiveLoop, if_neg (not_le.mpr inTime), replyOutcome, isFill, isFill]
  dsimp only
  rw [meaning_fill, meaning_fill, rpcCallTake_of_matches passes.1]
  dsimp only [returned]
  split_ifs with success
  · rw [outReply_fill isReply success passes.2]
  · rfl

theorem receiveLoop_dropped (reply : RpcMsgT) (later : List Arrival) (inTime : 0 < remainingMs)
    (isDropped : dropped call arrival = true) :
    ∃ next, receiveLoop call attempt reply remainingMs (arrival :: later) =
      receiveLoop call attempt next (remainingMs - 10) later := by
  obtain ⟨layout, other, isFill⟩ := received_of_any isDropped
  rw [meaning_fill, Bool.not_eq_true'] at other
  refine ⟨layout.fill reply, ?_⟩
  rw [receiveLoop, if_neg (not_le.mpr inTime), isFill]
  dsimp only
  rw [meaning_fill, rpcCallTake_of_other other]

theorem receiveLoop_eq {arrivals : List Arrival}
    (allDropped : ∀ arrival ∈ arrivals, wanted call arrival = false → dropped call arrival = true)
    (inTime : 10 * ((arrivals.filter fun arrival =>
        !wanted call arrival).length : Int) < remainingMs) (reply : RpcMsgT) :
    receiveLoop call attempt reply remainingMs arrivals =
      (arrivals.filter (wanted call)).head?.map replyOutcome := by
  induction arrivals generalizing remainingMs reply with
  | nil => rfl
  | cons arrival later ih =>
    have positive : 0 < remainingMs := Int.lt_of_le_of_lt (by positivity) inTime
    by_cases isWanted : wanted call arrival = true
    · rw [receiveLoop_wanted reply later positive isWanted,
        List.filter_cons_of_pos isWanted, List.head?_cons, Option.map_some]
    · have isOther : wanted call arrival = false := Bool.not_eq_true _ |>.mp isWanted
      have isDropped := allDropped arrival (List.mem_cons_self ..) isOther
      rw [List.filter_cons_of_pos (by rw [isOther]; rfl), List.length_cons] at inTime
      obtain ⟨next, goesOn⟩ := receiveLoop_dropped reply later positive isDropped
      rw [goesOn, List.filter_cons_of_neg isWanted]
      apply ih
      · intro next isNext
        exact allDropped next (List.mem_cons_of_mem _ isNext)
      · push_cast at inTime
        omega

theorem attemptsFrom_eq {stack otherStack : Nat → RpcMsgT} {attempts others : List Attempt}
    (same : List.Forall₂ (fun one other =>
          one.sendFails = other.sendFails ∧
            ∀ k, receiveLoop call k (stack k) rpcTimeoutMs one.arrivals =
              receiveLoop call k (otherStack k) rpcTimeoutMs other.arrivals)
        attempts others) :
    attemptsFrom call stack attempt attempts = attemptsFrom call otherStack attempt others := by
  induction same generalizing attempt with
  | nil => rfl
  | cons alike later ih => rw [attemptsFrom, attemptsFrom, alike.1, alike.2 attempt, ih]

theorem replyResult_ne_timeout (msg : RpcMsg) : replyResult msg ≠ .timeout := by
  unfold replyResult
  cases msg.replyStat with
  | denied => exact RpcResult.noConfusion
  | accepted => cases msg.acceptStat <;> exact RpcResult.noConfusion

def silence : Nat → Attempt :=
  fun _ => ⟨false, []⟩

def oneArrival (arrival : Arrival) : Nat → Attempt :=
  fun k => ⟨false, if k = 0 then [arrival] else []⟩

theorem rpcCall_silence (stack : Nat → RpcMsgT) : rpcCall call stack silence = (.timeout, none) :=
  rfl

theorem rpcCall_oneArrival (stack : Nat → RpcMsgT) (arrival : Arrival) :
    rpcCall call stack (oneArrival arrival) =
      (receiveLoop call 0 (stack 0) rpcTimeoutMs [arrival]).getD (.timeout, none) := rfl

theorem rpcCall_oneArrival_ne (stack : Nat → RpcMsgT) (kept : dropped call arrival = false) :
    (rpcCall call stack (oneArrival arrival)).1 ≠ .timeout := by
  rw [rpcCall_oneArrival, receiveLoop, if_neg (by decide)]
  rw [dropped] at kept
  rcases rpcRecv_cases arrival.2 with ⟨layout, isFill⟩ | isNone
  · rw [isFill, Option.any_some, meaning_fill, Bool.not_eq_false'] at kept
    rw [isFill]
    dsimp only
    rw [meaning_fill, rpcCallTake_of_matches kept]
    exact replyResult_ne_timeout layout.meaning
  · rw [isNone]
    exact RpcResult.noConfusion

theorem sameReplies_oneArrival (isOther : wanted call arrival = false) :
    SameReplies call silence (oneArrival arrival) := by
  constructor
  · intro k
    rfl
  · intro k
    rw [silence, oneArrival]
    dsimp only
    split_ifs
    · rw [List.filter_singleton, isOther]
      rfl
    · rfl

theorem fewStrays_silence (Stray : Arrival → Prop) : FewStrays call Stray silence := by
  constructor
  · intro k arrival isArrival
    cases isArrival
  · intro k
    exact Nat.zero_lt_succ 49

theorem fewStrays_oneArrival {Stray : Arrival → Prop} (isStray : Stray arrival) :
    FewStrays call Stray (oneArrival arrival) := by
  constructor
  · intro k other isArrival _
    rw [oneArrival] at isArrival
    dsimp only at isArrival
    split_ifs at isArrival
    · rw [List.mem_singleton.mp isArrival]
      exact isStray
    · cases isArrival
  · intro k
    apply Nat.lt_of_le_of_lt (List.length_filter_le _ _)
    rw [oneArrival]
    dsimp only
    split_ifs
    · exact Nat.succ_lt_succ (Nat.zero_lt_succ 48)
    · exact Nat.zero_lt_succ 49

/-- Two runs with the same replies return the same for exactly those kinds of
other datagrams that the loop drops, whatever is found on the stack. -/
theorem stray_traffic_ignored_iff (call : RpcCall) (Stray : Arrival → Prop) :
    (∀ stack otherStack traffic other, SameReplies call traffic other →
      FewStrays call Stray traffic → FewStrays call Stray other →
        rpcCall call stack traffic = rpcCall call otherStack other) ↔
      ∀ arrival, wanted call arrival = false → Stray arrival → dropped call arrival = true := by
  constructor
  · intro ignored arrival isOther isStray
    by_contra kept
    have kept : dropped call arrival = false := Bool.not_eq_true _ |>.mp kept
    apply rpcCall_oneArrival_ne (fun _ => blankMsg) kept
    have same : rpcCall call (fun _ => blankMsg) silence =
        rpcCall call (fun _ => blankMsg) (oneArrival arrival) := by
      apply ignored
      · exact sameReplies_oneArrival isOther
      · exact fewStrays_silence Stray
      · exact fewStrays_oneArrival isStray
    rw [← same, rpcCall_silence]
  · intro allDropped stack otherStack traffic other replies strays otherStrays
    have loop (run : Nat → Attempt) (few : FewStrays call Stray run)
        (attempt k : Nat) (reply : RpcMsgT) :
        receiveLoop call attempt reply rpcTimeoutMs (run k).arrivals =
          ((run k).arrivals.filter (wanted call)).head?.map replyOutcome := by
      apply receiveLoop_eq
      · intro arrival isArrival isOther
        exact allDropped arrival isOther (few.kind k arrival isArrival isOther)
      · have count := few.few k
        rw [rpcTimeoutMs]
        omega
    apply attemptsFrom_eq
    rw [List.forall₂_map_left_iff, List.forall₂_map_right_iff, List.forall₂_same]
    intro k _
    refine ⟨replies.sendFails k, ?_⟩
    intro attempt
    rw [loop traffic strays, loop other otherStrays, replies.replies k]

end Strays

def helloCall : RpcCall := .start ⟨⟨0x0A000002, 9000⟩, procAuthHello, []⟩ 4

/-- Three bytes from elsewhere, and a reply to the call from elsewhere. -/
def strayArrivals : List Arrival :=
  [(⟨0x0A000063, 7⟩, [1, 2, 3]), (⟨0x0A000063, 7⟩, encodedReply 5 acceptSuccess [])]

theorem stray_arrival_decides :
    (∀ arrival ∈ strayArrivals, wanted helloCall arrival = false) ∧
      rpcCall helloCall (fun _ => blankMsg) silence = (.timeout, none) ∧
      strayArrivals.map
          (fun arrival => (rpcCall helloCall (fun _ => blankMsg) (oneArrival arrival)).1) =
        [.decode, .ok] := by
  decide +kernel

end RpcWire

end LlmRuntime
