import LlmRuntime.Ftp.Client

/-!
# What a transfer keeps

Both passes of a transfer are made of sends and of one kind of receive loop, so
a property that survives a single receive survives the transfer.
-/

namespace LlmRuntime.Ftp

/-- A property that the calls a transfer is made of keep. -/
structure Stable (holds : Host → TransferCtx → Prop) : Prop where
  attempts : ∀ host ctx, holds host ctx → holds host.attempt.2 ctx
  sends : ∀ host ctx datagram, holds host ctx → holds (host.send datagram).2 ctx
  takes :
    ∀ host ctx packet later,
      holds host ctx →
      host.recvTimed (12 + chunkSize) = (some packet, later) →
        holds later (processDataPacket ctx packet).2
  idles :
    ∀ host ctx later,
      holds host ctx →
      host.recvTimed (12 + chunkSize) = (none, later) → holds later ctx
  spends : ∀ host ctx, holds host ctx → holds { host with spent := true } ctx

variable {holds : Host → TransferCtx → Prop} {host : Host} {ctx : TransferCtx}

theorem receiveLoop_rule (takes : ∀ host ctx packet later, holds host ctx →
        host.recvTimed (12 + chunkSize) = (some packet, later) →
          holds later (processDataPacket ctx packet).2)
    (idles : ∀ host ctx later, holds host ctx →
        host.recvTimed (12 + chunkSize) = (none, later) → holds later ctx)
    (spends : ∀ host ctx, holds host ctx → holds { host with spent := true } ctx)
    (finished : TransferCtx → Bool) (spins idle : Nat)
    (initially : holds host ctx) :
    holds (receiveLoop finished spins idle host ctx).1
      (receiveLoop finished spins idle host ctx).2 := by
  induction spins generalizing idle host ctx with
  | zero => exact spends host ctx initially
  | succ spins ih =>
    rw [receiveLoop]
    rcases received : host.recvTimed (12 + chunkSize) with ⟨packet | packet, later⟩
    · have kept := idles host ctx later initially received
      dsimp only
      split_ifs
      · exact kept
      · exact kept
      · exact ih (idle + 1) kept
    · have kept := takes host ctx packet later initially received
      dsimp only
      split_ifs
      · exact kept
      · exact ih 0 kept

namespace Stable

theorem receiveLoop (stable : Stable holds) (finished : TransferCtx → Bool)
    (spins idle : Nat) (initially : holds host ctx) :
    holds (receiveLoop finished spins idle host ctx).1
      (receiveLoop finished spins idle host ctx).2 :=
  receiveLoop_rule stable.takes stable.idles stable.spends finished spins idle initially

theorem requestChunkRange (stable : Stable holds) (fileId : UInt8)
    (startIdx : UInt32) (count : UInt16) (initially : holds host ctx) :
    holds (requestChunkRange fileId startIdx count host ctx).1
      (requestChunkRange fileId startIdx count host ctx).2 := by
  rw [Ftp.requestChunkRange]
  split_ifs
  · exact initially
  · have sent := stable.sends host ctx (dataRangeRequest fileId startIdx count) initially
    rcases outcome : host.send (dataRangeRequest fileId startIdx count) with ⟨done, later⟩
    rw [outcome] at sent
    cases done with
    | false => exact sent
    | true => exact stable.receiveLoop _ _ _ sent

theorem requestBatches (stable : Stable holds) (fileId : UInt8) (stop : UInt32)
    (starts : List UInt32) (initially : holds host ctx) :
    holds (requestBatches fileId stop starts host ctx).1
      (requestBatches fileId stop starts host ctx).2 := by
  induction starts generalizing host ctx with
  | nil => exact initially
  | cons startIdx rest ih =>
    rw [Ftp.requestBatches]
    exact ih (stable.requestChunkRange fileId startIdx _ initially)

theorem recoverGroup (stable : Stable holds) (fileId : UInt8) (start : UInt32)
    (initially : holds host ctx) :
    holds (recoverGroup fileId start host ctx).1 (recoverGroup fileId start host ctx).2 := by
  rw [Ftp.recoverGroup]
  split_ifs
  · exact initially
  · have allocated := stable.attempts host ctx initially
    rcases outcome : host.attempt with ⟨done, later⟩
    rw [outcome] at allocated
    cases done with
    | false => exact allocated
    | true =>
      dsimp only
      have sent := stable.sends later ctx
        (retransRequest fileId (ctx.getMissingInRange start (start + maxRetrans))) allocated
      rcases outcome : later.send
          (retransRequest fileId (ctx.getMissingInRange start (start + maxRetrans))) with
        ⟨done, last⟩
      rw [outcome] at sent
      cases done with
      | false => exact sent
      | true => exact stable.receiveLoop _ _ _ sent

theorem handleMissingChunks (stable : Stable holds) (fileId : UInt8)
    (starts : List UInt32) (initially : holds host ctx) :
    holds (handleMissingChunks fileId starts host ctx).1
      (handleMissingChunks fileId starts host ctx).2 := by
  induction starts generalizing host ctx with
  | nil => exact initially
  | cons start rest ih =>
    rw [Ftp.handleMissingChunks]
    exact ih (stable.recoverGroup fileId start initially)

theorem retryRounds (stable : Stable holds) (fileId : UInt8)
    (rounds stalled : Nat) (initially : holds host ctx) :
    holds (retryRounds fileId rounds stalled host ctx).1
      (retryRounds fileId rounds stalled host ctx).2 := by
  induction rounds generalizing stalled host ctx with
  | zero => exact initially
  | succ rounds ih =>
    rw [Ftp.retryRounds]
    split_ifs
    · exact initially
    · exact ih _ (stable.handleMissingChunks fileId _ initially)

theorem transferWindow (stable : Stable holds) (fileId : UInt8) (initially : holds host ctx) :
    holds (transferWindow fileId host ctx).1 (transferWindow fileId host ctx).2 := by
  rw [Ftp.transferWindow]
  exact stable.retryRounds fileId _ _ (stable.requestBatches fileId _ _ initially)

end Stable

/-- Whatever is received, now or in answer to a request, has the property. -/
structure Host.Supplies (good : List UInt8 → Prop) (host : Host) : Prop where
  arrived : ∀ datagram, some datagram ∈ host.incoming → good datagram
  answered : ∀ request datagram, some datagram ∈ host.network request → good datagram

theorem Host.attempt_incoming (host : Host) :
    host.attempt.2.incoming = host.incoming ∧ host.attempt.2.network = host.network := by
  rw [attempt]
  split <;> exact ⟨rfl, rfl⟩

theorem Host.attempt_sent (host : Host) : host.attempt.2.sent = host.sent := by
  rw [attempt]
  split
  · rfl
  · rfl

variable {host : Host} {good : List UInt8 → Prop}

theorem Host.Supplies.attempt (supplies : host.Supplies good) : host.attempt.2.Supplies good := by
  obtain ⟨sameIncoming, sameNetwork⟩ := host.attempt_incoming
  constructor
  · rw [sameIncoming]
    exact supplies.arrived
  · rw [sameNetwork]
    exact supplies.answered

theorem Host.Supplies.send (supplies : host.Supplies good)
    (datagram : List UInt8) : (host.send datagram).2.Supplies good := by
  have kept := supplies.attempt
  rw [Host.send]
  rcases outcome : host.attempt with ⟨done, later⟩
  rw [outcome] at kept
  cases done with
  | false => exact kept
  | true =>
    refine ⟨fun arrival isArrival => ?_, kept.answered⟩
    rcases List.mem_append.mp isArrival with old | new
    · exact kept.arrived arrival old
    · exact kept.answered datagram arrival new

theorem Host.recvTimed_some {later : Host} {size : Nat} {packet : List UInt8}
    (received : host.recvTimed size = (some packet, later)) :
    ∃ datagram rest,
      host.incoming = some datagram :: rest ∧ datagram ≠ [] ∧
        packet = datagram.take size ∧
        later = { host with incoming := rest } := by
  rw [recvTimed] at received
  cases isIncoming : host.incoming with
  | nil =>
    rw [isIncoming] at received
    cases received
  | cons result rest =>
    rw [isIncoming] at received
    cases result with
    | none => cases received
    | some datagram =>
      by_cases empty : datagram.isEmpty = true
      · simp only [empty, if_true] at received
        cases received
      · simp only [if_neg empty, Prod.mk.injEq, Option.some.injEq] at received
        refine ⟨datagram, rest, rfl, ?_, received.1.symm, received.2.symm⟩
        intro isNil
        rw [isNil] at empty
        exact empty rfl

theorem Host.recvTimed_none {later : Host} {size : Nat}
    (received : host.recvTimed size = (none, later)) :
    (host.incoming = [] ∧ later = host) ∨
      ∃ result rest,
        host.incoming = result :: rest ∧
          (result = none ∨ result = some []) ∧
          later = { host with incoming := rest } := by
  rw [recvTimed] at received
  cases isIncoming : host.incoming with
  | nil =>
    rw [isIncoming] at received
    exact .inl ⟨rfl, (congrArg Prod.snd received).symm⟩
  | cons result rest =>
    rw [isIncoming] at received
    right
    cases result with
    | none => exact ⟨none, rest, rfl, .inl rfl, (congrArg Prod.snd received).symm⟩
    | some datagram =>
      by_cases empty : datagram.isEmpty = true
      · simp only [empty, if_true, Prod.mk.injEq, true_and] at received
        refine ⟨_, rest, rfl, .inr ?_, received.symm⟩
        rw [List.isEmpty_iff.mp empty]
      · simp only [if_neg empty, Prod.mk.injEq] at received
        cases received.1

/-- A property of the context that every good datagram keeps is kept by the
transfer. -/
theorem stable_of_supplies {holds : TransferCtx → Prop}
    (keeps : ∀ ctx datagram, good datagram → holds ctx →
        holds (processDataPacket ctx (datagram.take (12 + chunkSize))).2) :
    Stable fun host ctx => host.Supplies good ∧ holds ctx where
  attempts := fun _ _ both => ⟨both.1.attempt, both.2⟩
  sends := fun _ _ datagram both => ⟨both.1.send datagram, both.2⟩
  takes := by
    rintro host ctx packet later ⟨supplies, kept⟩ received
    obtain ⟨datagram, rest, isIncoming, -, isPacket, isLater⟩ := Host.recvTimed_some received
    rw [isLater, isPacket]
    have isGood : good datagram := by
      apply supplies.arrived
      rw [isIncoming]
      exact List.mem_cons_self
    refine ⟨⟨fun arrival isArrival => ?_, supplies.answered⟩, keeps ctx datagram isGood kept⟩
    apply supplies.arrived
    rw [isIncoming]
    exact List.mem_cons_of_mem _ isArrival
  idles := by
    rintro host ctx later ⟨supplies, kept⟩ received
    refine ⟨?_, kept⟩
    rcases Host.recvTimed_none received with ⟨-, isLater⟩ | ⟨result, rest, isIncoming, -, isLater⟩
    · rw [isLater]
      exact supplies
    · rw [isLater]
      refine ⟨fun arrival isArrival => ?_, supplies.answered⟩
      apply supplies.arrived
      rw [isIncoming]
      exact List.mem_cons_of_mem _ isArrival
  spends := fun _ _ both => ⟨⟨both.1.arrived, both.1.answered⟩, both.2⟩

end LlmRuntime.Ftp
