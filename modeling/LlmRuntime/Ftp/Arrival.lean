import LlmRuntime.Ftp.Window

/-!
# Transfers whose packets arrive in time

A receive loop ends with its goal met when the packets it waits for come within
its spins and before three receives in a row give nothing.
-/

namespace LlmRuntime.Ftp

open Bytes

theorem Stable.and {holds also : Host → TransferCtx → Prop}
    (first : Stable holds) (second : Stable also) :
    Stable fun host ctx => holds host ctx ∧ also host ctx where
  attempts := fun host ctx both =>
    ⟨first.attempts host ctx both.1, second.attempts host ctx both.2⟩
  sends := fun host ctx datagram both =>
    ⟨first.sends host ctx datagram both.1, second.sends host ctx datagram both.2⟩
  takes := fun host ctx packet later both received =>
    ⟨first.takes host ctx packet later both.1 received,
      second.takes host ctx packet later both.2 received⟩
  idles := fun host ctx later both received =>
    ⟨first.idles host ctx later both.1 received, second.idles host ctx later both.2 received⟩
  spends := fun host ctx both =>
    ⟨first.spends host ctx both.1, second.spends host ctx both.2⟩

theorem stable_of_process {holds : TransferCtx → Prop}
    (keeps : ∀ ctx packet, holds ctx → holds (processDataPacket ctx packet).2) :
    Stable fun _ ctx => holds ctx where
  attempts := fun _ _ kept => kept
  sends := fun _ _ _ kept => kept
  takes := fun _ ctx packet _ kept _ => keeps ctx packet kept
  idles := fun _ _ _ kept _ => kept
  spends := fun _ _ kept => kept

theorem stable_sameWindow (ctx : TransferCtx) : Stable fun _ later => SameWindow ctx later := by
  apply stable_of_process
  intro later packet same
  exact same.trans (processDataPacket_sameWindow later packet)

theorem stable_complete (goal : List UInt32) : Stable fun _ ctx => Complete goal ctx := by
  apply stable_of_process
  intro ctx packet complete chunkIdx isGoal
  exact isMissing_processDataPacket packet (complete chunkIdx isGoal)

theorem stable_filled (file : List UInt8) (dst : Nat → UInt8) :
    Stable fun host ctx =>
      host.Supplies (OfFile file) ∧ Filled file dst ctx := by
  apply stable_of_supplies
  intro ctx datagram good filled
  exact filled.process good

theorem Host.attempt_of_noFailures {host : Host} (works : host.failures = []) :
    host.attempt = (true, host) := by
  rw [Host.attempt, works]

theorem Host.send_of_noFailures {host : Host} (works : host.failures = []) (datagram : List UInt8) :
    host.send datagram =
      (true, { host with
          sent := host.sent ++ [datagram]
          incoming := host.incoming ++ host.network datagram }) := by
  rw [Host.send, Host.attempt_of_noFailures works]

theorem stable_noFailures : Stable fun host _ => host.failures = [] where
  attempts := by
    intro host _ works
    rw [Host.attempt_of_noFailures works]
    exact works
  sends := by
    intro host _ datagram works
    rw [Host.send_of_noFailures works]
    exact works
  takes := by
    intro host _ packet later works received
    obtain ⟨datagram, rest, -, -, -, isLater⟩ := Host.recvTimed_some received
    rw [isLater]
    exact works
  idles := by
    intro host _ later works received
    rcases Host.recvTimed_none received with ⟨-, isLater⟩ | ⟨result, rest, -, -, isLater⟩ <;>
    · rw [isLater]
      exact works
  spends := fun _ _ works => works

/-- A receive that times out, or gives an empty datagram. -/
def isIdle : Option (List UInt8) → Bool
  | none => true
  | some datagram => datagram.isEmpty

/-- How often a loop that starts over each time would give up on the results,
when `idle` receives have given nothing just before. -/
def idleBreaks : Nat → List (Option (List UInt8)) → Nat
  | _, [] => 0
  | idle, result :: rest =>
    if isIdle result then
      if maxIdleRecvs ≤ idle + 1 then idleBreaks 0 rest + 1
      else idleBreaks (idle + 1) rest
    else idleBreaks 0 rest

theorem Host.recvTimed_cons {host : Host} {result : Option (List UInt8)}
    {rest : List (Option (List UInt8))} (isIncoming : host.incoming = result :: rest) :
    (isIdle result = true ∧
        host.recvTimed (12 + chunkSize) = (none, { host with incoming := rest })) ∨
      ∃ datagram, result = some datagram ∧ isIdle result = false ∧
        host.recvTimed (12 + chunkSize) =
          (some (datagram.take (12 + chunkSize)), { host with incoming := rest }) := by
  rw [Host.recvTimed, isIncoming]
  cases result with
  | none => exact .inl ⟨rfl, rfl⟩
  | some datagram =>
    by_cases empty : datagram.isEmpty = true
    · left
      refine ⟨empty, ?_⟩
      dsimp only
      rw [if_pos empty]
    · right
      refine ⟨datagram, rfl, Bool.eq_false_iff.mpr empty, ?_⟩
      dsimp only
      rw [if_neg empty]

def Arrives (file : List UInt8) (results : List (Option (List UInt8))) (chunkIdx : UInt32) : Prop :=
  ∃ fileId, some (servedPacket fileId file chunkIdx.toNat) ∈ results

section Loop

variable {file : List UInt8} {goal : List UInt32} {finished : TransferCtx → Bool}

theorem Arrives.behind {ctx : TransferCtx} {datagram : List UInt8}
    {rest : List (Option (List UInt8))} (within : WithinFile file ctx) {chunkIdx : UInt32}
    (arrives : ctx.isMissing chunkIdx = true → Arrives file (some datagram :: rest) chunkIdx)
    (missing : (processDataPacket ctx
        (datagram.take (12 + chunkSize))).2.isMissing chunkIdx = true) :
    Arrives file rest chunkIdx := by
  have missingBefore : ctx.isMissing chunkIdx = true := by
    by_contra found
    rw [isMissing_processDataPacket _ (Bool.eq_false_iff.mpr found)] at missing
    cases missing
  obtain ⟨fileId, isResult⟩ := arrives missingBefore
  rcases List.mem_cons.mp isResult with isFirst | isBehind
  · exfalso
    rw [TransferCtx.isMissing, Bool.and_eq_true, within.chunkInWindow_iff] at missingBefore
    have isChunk : chunkIdx.toNat < totalChunks file := by
      have inside := within.2
      omega
    have found := isMissing_servedPacket within.1 isChunk fileId
    rw [Option.some.inj isFirst, UInt32.ofNat_toNat, missing] at found
    cases found
  · exact ⟨fileId, isBehind⟩

theorem receiveLoop_completes (front : List (Option (List UInt8)))
    {rest : List (Option (List UInt8))} {spins idle : Nat} {host : Host} {ctx : TransferCtx}
    (isIncoming : host.incoming = front ++ rest) (inTime : front.length ≤ spins)
    (noBreak : idleBreaks idle front = 0) (within : WithinFile file ctx)
    (finishes : ∀ later, SameWindow ctx later → (finished later = true ↔ Complete goal later))
    (arrives : ∀ chunkIdx ∈ goal, ctx.isMissing chunkIdx = true → Arrives file front chunkIdx) :
    Complete goal (receiveLoop finished spins idle host ctx).2 := by
  induction front generalizing spins idle host ctx with
  | nil =>
    -- nothing of the goal is missing any more
    apply (stable_complete goal).receiveLoop
    intro chunkIdx isGoal
    by_contra missing
    obtain ⟨fileId, isResult⟩ := arrives chunkIdx isGoal (Bool.eq_true_of_not_eq_false missing)
    cases isResult
  | cons result front ih =>
    obtain ⟨spins, isSpins⟩ : ∃ less, spins = less + 1 :=
      ⟨spins - 1, by rw [List.length_cons] at inTime; omega⟩
    have inTimeLater : front.length ≤ spins := by
      rw [List.length_cons] at inTime
      omega
    rw [isSpins, receiveLoop]
    rcases Host.recvTimed_cons isIncoming with
      ⟨idles, received⟩ | ⟨datagram, isResult, awake, received⟩
    · rw [idleBreaks, if_pos idles] at noBreak
      by_cases broken : maxIdleRecvs ≤ idle + 1
      · rw [if_pos broken] at noBreak
        omega
      · rw [if_neg broken] at noBreak
        rw [received]
        dsimp only
        rw [if_neg broken]
        split_ifs with done
        · exact (finishes ctx (.refl ctx)).1 done
        · apply ih rfl inTimeLater noBreak within finishes
          intro chunkIdx isGoal missing
          obtain ⟨fileId, isResult⟩ := arrives chunkIdx isGoal missing
          rcases List.mem_cons.mp isResult with isFirst | isBehind
          · rw [← isFirst, isIdle] at idles
            cases idles
          · exact ⟨fileId, isBehind⟩
    · rw [idleBreaks, if_neg (by rw [awake]; simp)] at noBreak
      rw [received]
      dsimp only
      have same := processDataPacket_sameWindow ctx (datagram.take (12 + chunkSize))
      split_ifs with done
      · exact (finishes _ same).1 done
      · apply ih rfl inTimeLater noBreak (within.sameWindow same)
          fun later sameLater => finishes later (same.trans sameLater)
        intro chunkIdx isGoal missing
        rw [isResult] at arrives
        exact Arrives.behind within (arrives chunkIdx isGoal) missing

end Loop

end LlmRuntime.Ftp
