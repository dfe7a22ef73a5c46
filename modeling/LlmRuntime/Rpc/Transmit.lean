import LlmRuntime.Library.Execution
import LlmRuntime.Rpc.Codec

/-!
# The transmit buffer

`rpc_send_call` and `rpc_send_reply` of `user/rpc.c` as any number of threads
run them, with the lock of `user/mutex.c` around the one buffer they share.  A
step is one access of one thread to the lock or the buffer.
-/

namespace LlmRuntime.RpcWire

open Execution Function

inductive Request
  | call (msg : RpcMsgT)
  | reply (xid stat : UInt32) (payload : List UInt8)

def Request.encode : Request → Option (List UInt8)
  | .call msg => rpcEncodeCall (rpcPayloadMax + 256) msg
  | .reply xid stat payload => rpcEncodeReply (rpcPayloadMax + 256) xid stat payload

inductive SenderPc
  | outside
  | encoding (request : Request) (stored : Nat)
  | sending (request : Request) (count : Nat) (taken : List UInt8)
  | unlocking

def SenderPc.isInside : SenderPc → Bool
  | outside => false
  | encoding _ _ | sending _ _ _ | unlocking => true

structure Transmitter (ι : Type*) where
  lock : Bool
  wire : Nat → UInt8
  pc : ι → SenderPc
  sent : List (Request × List UInt8)

variable {ι : Type*} [DecidableEq ι]

/-- The next step of a thread; one that is outside tries to take the lock for a
request. -/
def transmitStep (state : Transmitter ι) : ι × Request → Transmitter ι
  | (i, request) =>
    match state.pc i with
    | .outside =>
      -- The exchange leaves a lock that is taken as it is, and the thread yields.
      if state.lock then state
      else { state with lock := true, pc := update state.pc i (.encoding request 0) }
    | .encoding request stored =>
      match request.encode with
      | none => { state with pc := update state.pc i .unlocking }
      | some bytes =>
        match bytes[stored]? with
        | some byte =>
          { state with
            wire := update state.wire stored byte
            pc := update state.pc i (.encoding request (stored + 1)) }
        | none => { state with pc := update state.pc i (.sending request stored []) }
    | .sending request count taken =>
      -- The kernel takes the datagram out of the buffer byte by byte.
      if taken.length < count then
        { state with
          pc := update state.pc i
            (.sending request count (taken ++ [state.wire taken.length])) }
      else
        { state with
          pc := update state.pc i .unlocking
          sent := state.sent ++ [(request, taken)] }
    | .unlocking => { state with lock := false, pc := update state.pc i .outside }

def SenderPc.Written (wire : Nat → UInt8) : SenderPc → Prop
  | encoding request stored =>
    ∀ bytes, request.encode = some bytes → (List.range stored).map wire = bytes.take stored
  | sending request count taken =>
    request.encode = some ((List.range count).map wire) ∧
      taken = (List.range taken.length).map wire ∧ taken.length ≤ count
  | _ => True

/-- The lock is taken just when a thread is inside, and only by that one. -/
structure Owned (state : Transmitter ι) (owner : Option ι) : Prop where
  lock : state.lock = owner.isSome
  inside : ∀ i, (state.pc i).isInside = true ↔ owner = some i
  written : ∀ i ∈ owner, (state.pc i).Written state.wire
  whole : ∀ sent ∈ state.sent, sent.1.encode = some sent.2

variable {state later : Transmitter ι} {owner : Option ι} {i : ι} {pc : SenderPc}

theorem Owned.move (owned : Owned state owner) (onlyThis : ∀ j ∈ owner, j = i)
    (moves : later.pc = update state.pc i pc) (lock : later.lock = pc.isInside)
    (written : pc.Written later.wire) (whole : ∀ sent ∈ later.sent, sent.1.encode = some sent.2) :
    Owned later (if pc.isInside then some i else none) := by
  refine ⟨by split_ifs with inside <;> simp [lock, inside], fun j => ?_, fun j isOwner => ?_, whole⟩
  · rw [moves]
    by_cases same : j = i
    · simp [same]
    · have notOwner : owner ≠ some j := fun isOwner => same (onlyThis j isOwner)
      rw [update_of_ne same, owned.inside j]
      simp [notOwner, Ne.symm same]
  · split_ifs at isOwner <;> cases isOwner
    rw [moves, update_self]
    exact written

theorem Owned.step (owned : Owned state owner) (event : ι × Request) :
    ∃ owner, Owned (transmitStep state event) owner := by
  obtain ⟨i, request⟩ := event
  have owns (isIn : (state.pc i).isInside = true) :
      owner = some i ∧ (∀ j ∈ owner, j = i) ∧ state.lock = true := by
    have isOwner := (owned.inside i).mp isIn
    exact ⟨isOwner, by simp [isOwner], by simp [owned.lock, isOwner]⟩
  have written := owned.written i
  rw [transmitStep]
  cases atPc : state.pc i with
  | outside =>
    dsimp only
    split_ifs with isTaken
    · exact ⟨owner, owned⟩
    · have free : owner = none := by simpa [owned.lock] using isTaken
      exact ⟨_, owned.move (by simp [free]) rfl rfl (fun _ _ => rfl) owned.whole⟩
  | encoding request stored =>
    obtain ⟨isOwner, onlyThis, isLocked⟩ := owns (by rw [atPc]; rfl)
    rw [atPc] at written
    dsimp only
    cases isBytes : request.encode with
    | none => exact ⟨_, owned.move onlyThis rfl isLocked trivial owned.whole⟩
    | some bytes =>
      have soFar := written isOwner bytes isBytes
      dsimp only
      cases isByte : bytes[stored]? with
      | none =>
        refine ⟨_, owned.move onlyThis rfl isLocked ?_ owned.whole⟩
        rw [List.take_of_length_le (List.getElem?_eq_none_iff.mp isByte)] at soFar
        exact ⟨isBytes.trans (congrArg some soFar.symm), rfl, Nat.zero_le _⟩
      | some byte =>
        refine ⟨_, owned.move onlyThis rfl isLocked (fun others isOthers => ?_) owned.whole⟩
        cases isBytes.symm.trans isOthers
        rw [List.take_add_one, isByte, ← soFar, List.range_succ, List.map_append]
        congr 1
        · exact List.map_congr_left fun j before =>
            update_of_ne (List.mem_range.mp before).ne _ _
        · simp
  | sending request count taken =>
    obtain ⟨isOwner, onlyThis, isLocked⟩ := owns (by rw [atPc]; rfl)
    rw [atPc] at written
    obtain ⟨isEncoded, isTaken, inside⟩ := written isOwner
    dsimp only
    split_ifs with more
    · refine ⟨_, owned.move onlyThis rfl isLocked ⟨isEncoded, ?_, ?_⟩ owned.whole⟩
      · rw [List.length_append, List.length_singleton, List.range_succ, List.map_append, ← isTaken]
        rfl
      · rw [List.length_append, List.length_singleton]
        exact more
    · refine ⟨_, owned.move onlyThis rfl isLocked trivial fun sent isSent => ?_⟩
      rcases List.mem_append.mp isSent with before | isNew
      · exact owned.whole sent before
      · cases List.mem_singleton.mp isNew
        rw [Nat.le_antisymm inside (not_lt.mp more)] at isTaken
        exact isEncoded.trans (congrArg some isTaken.symm)
  | unlocking =>
    obtain ⟨-, onlyThis, -⟩ := owns (by rw [atPc]; rfl)
    exact ⟨_, owned.move onlyThis rfl rfl trivial owned.whole⟩

/-- However the threads take turns, every datagram that goes out is the whole
encoding of one request, no two threads are inside at once, and while the lock is
taken one of them is. -/
theorem transmit_whole (wire : Nat → UInt8) (events : List (ι × Request)) :
    let state := after transmitStep ⟨false, wire, fun _ : ι => .outside, []⟩ events
    (∀ sent ∈ state.sent, sent.1.encode = some sent.2) ∧
      (∀ i j, (state.pc i).isInside = true → (state.pc j).isInside = true → i = j) ∧
      (state.lock = true → ∃ i, (state.pc i).isInside = true) := by
  intro state
  have initially : Owned (⟨false, wire, fun _ => .outside, []⟩ : Transmitter ι) none :=
    ⟨rfl, fun _ => iff_of_false Bool.false_ne_true nofun, nofun, by simp⟩
  obtain ⟨owner, owned⟩ : ∃ owner, Owned state owner :=
    invariant_after transmitStep (fun state => ∃ owner, Owned state owner) ⟨none, initially⟩
      (fun _ event ⟨_, owned⟩ => owned.step event) events
  refine ⟨owned.whole, fun i j first second => ?_, fun isTaken => ?_⟩
  · exact Option.some.inj (((owned.inside i).mp first).symm.trans ((owned.inside j).mp second))
  · rw [owned.lock, Option.isSome_iff_exists] at isTaken
    exact isTaken.imp fun i isOwner => (owned.inside i).mpr isOwner

end LlmRuntime.RpcWire
