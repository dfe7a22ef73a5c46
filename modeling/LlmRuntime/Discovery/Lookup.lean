import LlmRuntime.Discovery.Handlers
import LlmRuntime.Library.Slots

/-!
# The registry lookups

Each lookup returns the first slot that passes its test.
-/

namespace LlmRuntime.Discovery

open Function

theorem registryFind_eq_some_iff (registry : Registry) (workerId : UInt32) (slot : Slot) :
    registryFind registry workerId = some slot ↔
      (registry slot).info.workerId = workerId ∧
        ∀ earlier, earlier < slot → (registry earlier).info.workerId ≠ workerId := by
  simp [registryFind, Slots.find_eq_some_iff]

theorem registryFind_eq_none_iff (registry : Registry) (workerId : UInt32) :
    registryFind registry workerId = none ↔ ∀ slot, (registry slot).info.workerId ≠ workerId := by
  simp [registryFind]

theorem registryFindIpPort_eq_some_iff (registry : Registry) (addr : RpcAddr) (slot : Slot) :
    registryFindIpPort registry addr = some slot ↔
      (registry slot).info.addr = addr ∧
        ∀ earlier, earlier < slot → (registry earlier).info.addr ≠ addr := by
  cases addr
  simp [registryFindIpPort, Slots.find_eq_some_iff, WorkerInfo.addr]

variable {registry : Registry} {slot : Slot} {entry : WorkerEntry} {workerId : UInt32}

theorem registryFreeSlot_some (free : registryFreeSlot registry = some slot) :
    (registry slot).state = .expired ∨ (registry slot).info.workerId = 0 := by
  have found := (Slots.find_eq_some_iff _ slot).mp free
  simpa using found.1

theorem registryFind_congr {left right : Registry}
    (sameInfo : ∀ slot, (left slot).info = (right slot).info) (workerId : UInt32) :
    registryFind left workerId = registryFind right workerId := by
  apply Slots.find_congr
  intro slot
  rw [sameInfo slot]

theorem registryFindIpPort_congr {left right : Registry}
    (sameInfo : ∀ slot, (left slot).info = (right slot).info) (addr : RpcAddr) :
    registryFindIpPort left addr = registryFindIpPort right addr := by
  apply Slots.find_congr
  intro slot
  rw [sameInfo slot]

/-- What a rewritten entry keeps of its identity is all a lookup by id or by
address can see of it. -/
theorem update_sameInfo (sameInfo : entry.info = (registry slot).info) (other : Slot) :
    (update registry slot entry other).info = (registry other).info := by
  by_cases same : other = slot
  · subst same
    rw [update_self, sameInfo]
  · rw [update_of_ne same]

theorem helloTarget_take (target : helloTarget registry workerId = .take slot) :
    (registryFind registry workerId = some slot ∧ (registry slot).state = .expired) ∨
      (registryFind registry workerId = none ∧ registryFreeSlot registry = some slot) := by
  unfold helloTarget at target
  cases found : registryFind registry workerId with
  | some existing =>
    rw [found] at target
    by_cases expired : (registry existing).state = .expired
    · simp only [expired, ne_eq, not_true_eq_false, if_false, HelloTarget.take.injEq] at target
      subst target
      exact Or.inl ⟨rfl, expired⟩
    · simp [expired] at target
  | none =>
    rw [found] at target
    cases free : registryFreeSlot registry with
    | some freeSlot =>
      simp only [free, HelloTarget.take.injEq] at target
      subst target
      exact Or.inr ⟨rfl, rfl⟩
    | none => simp [free] at target

theorem registryFind_update_taken (target : helloTarget registry workerId = .take slot)
    (rightId : entry.info.workerId = workerId) :
    registryFind (update registry slot entry) workerId = some slot := by
  rw [registryFind_eq_some_iff, update_self]
  refine ⟨rightId, ?_⟩
  intro earlier before
  rw [update_of_ne (ne_of_lt before)]
  rcases helloTarget_take target with ⟨found, _⟩ | ⟨absent, _⟩
  · exact ((registryFind_eq_some_iff registry workerId slot).mp found).2 earlier before
  · exact (registryFind_eq_none_iff registry workerId).mp absent earlier

theorem helloTarget_update_taken (target : helloTarget registry workerId = .take slot)
    (rightId : entry.info.workerId = workerId) (isPending : entry.state = .pending) :
    helloTarget (update registry slot entry) workerId = .duplicate slot := by
  unfold helloTarget
  rw [registryFind_update_taken target rightId]
  simp [update_self, isPending]

end LlmRuntime.Discovery
