import LlmRuntime.Discovery.RingStitch
import LlmRuntime.DistInf.MasterSession

/-!
# The ring that restitching closes

`discovery_restitch_ring` computes the links by position in the slot order;
everybody else uses them as addresses.
-/

namespace LlmRuntime.DistInf

open Discovery Chain

/-- No two active workers share an address, and none has the master's. -/
structure DistinctAddresses (home : RpcAddr) (registry : Registry) : Prop where
  injective :
    ∀ i j, isActive registry i → isActive registry j →
      (registry i).info.addr = (registry j).info.addr → i = j
  notMaster : ∀ i, isActive registry i → (registry i).info.addr ≠ home

/-- The active worker that a datagram sent to this address reaches. -/
def activeAt (registry : Registry) (address : RpcAddr) : Option Slot :=
  (List.finRange maxWorkers).find? fun i =>
    isActive registry i ∧ (registry i).info.addr = address

/-- The workers met from the first slot of the ring order on, following the
`next` addresses, and the address where this ends. -/
def ringWalk (self : RpcAddr) (registry : Registry) (fuel : Nat) : List Slot × RpcAddr :=
  follow (activeAt registry) (fun i => (registry i).next) fuel
    (headOr (fun i => (registry i).info.addr) (discoveryRingOrder registry maxWorkers) self)

/-- The result of restitching `before` is one ring closed on the master. -/
structure ClosesRing (home : RpcAddr) (before : Registry) (result : Registry × Nat) : Prop where
  slotOrder : (activeSlots before).Pairwise (· < ·)
  everyActive : ∀ i, i ∈ activeSlots before ↔ isActive before i
  walk :
    ∀ fuel, (activeSlots before).length ≤ fuel →
      ringWalk home result.1 fuel = (activeSlots before, home)
  inverse :
    ∀ i j, isActive before i → isActive before j →
      ((result.1 i).next = (before j).info.addr ↔ (result.1 j).prev = (before i).info.addr)
  fromMaster :
    ∀ i, isActive before i → ((result.1 i).prev = home ↔ (activeSlots before).head? = some i)
  toMaster :
    ∀ i, isActive before i → ((result.1 i).next = home ↔ (activeSlots before).getLast? = some i)
  onlyLinks : ∀ i, result.1 i = relinked (before i) (result.1 i).prev (result.1 i).next
  onlyActive : ∀ i, ¬ isActive before i → result.1 i = before i
  count : result.2 = (activeSlots before).length
  tail : masterRingTail home result.1 = (activeSlots before).getLast?
  again : discoveryRestitchRing home result.1 = result

section Distinct

variable {self : RpcAddr} {registry : Registry}

theorem DistinctAddresses.activeAt_eq (distinct : DistinctAddresses self registry) {i : Slot}
    (active : isActive registry i) :
    activeAt registry (registry i).info.addr = some i := by
  apply Slots.find_eq_some_of_unique
  · simpa using active
  · intro j passes
    obtain ⟨otherActive, sameAddr⟩ := of_decide_eq_true passes
    exact distinct.injective j i otherActive active sameAddr

theorem DistinctAddresses.nobody_at_master (distinct : DistinctAddresses self registry) :
    activeAt registry self = none := by
  unfold activeAt
  rw [Slots.find_eq_none_iff]
  intro i
  apply decide_eq_false
  rintro ⟨active, sameAddr⟩
  exact distinct.notMaster i active sameAddr

theorem restitched_activeAt (address : RpcAddr) :
    activeAt (discoveryRestitchRing self registry).1 address = activeAt registry address := by
  apply Slots.find_congr
  intro i
  rw [decide_eq_decide, restitched_isActive, restitched_info]

theorem DistinctAddresses.ringWalk_restitched (distinct : DistinctAddresses self registry)
    {fuel : Nat} (enough : (activeSlots registry).length ≤ fuel) :
    ringWalk self (discoveryRestitchRing self registry).1 fuel = (activeSlots registry, self) := by
  unfold ringWalk
  rw [discoveryRingOrder_eq, discoveryRestitchRing_activeSlots]
  simp only [restitched_info]
  apply (restitched_linked self registry).follow_eq
  · intro i member
    rw [restitched_activeAt]
    exact distinct.activeAt_eq ((mem_activeSlots registry i).mp member)
  · rw [restitched_activeAt]
    exact distinct.nobody_at_master
  · exact enough

theorem DistinctAddresses.toMaster_restitched (distinct : DistinctAddresses self registry)
    {i : Slot} (active : isActive registry i) :
    ((discoveryRestitchRing self registry).1 i).next = self ↔
      (activeSlots registry).getLast? = some i := by
  apply (restitched_linked self registry).next_eq_exit_iff (activeSlots_nodup registry)
  · intro j member
    exact distinct.notMaster j ((mem_activeSlots registry j).mp member)
  · exact (mem_activeSlots registry i).mpr active

theorem DistinctAddresses.masterRingTail_restitched (distinct : DistinctAddresses self registry) :
    masterRingTail self (discoveryRestitchRing self registry).1 =
      (activeSlots registry).getLast? := by
  cases last : (activeSlots registry).getLast? with
  | none =>
    have empty := List.getLast?_eq_none_iff.mp last
    unfold masterRingTail
    rw [Slots.find_eq_none_iff]
    intro i
    apply decide_eq_false
    rintro ⟨active, _⟩
    rw [restitched_isActive, ← mem_activeSlots, empty] at active
    exact List.not_mem_nil active
  | some slot =>
    have active : isActive registry slot :=
      (mem_activeSlots registry slot).mp (List.mem_of_getLast? last)
    apply Slots.find_eq_some_of_unique
    · rw [decide_eq_true_iff, restitched_isActive]
      exact ⟨active, (distinct.toMaster_restitched active).mpr last⟩
    · intro j passes
      obtain ⟨otherActive, closes⟩ := of_decide_eq_true passes
      rw [restitched_isActive] at otherActive
      have alsoLast := (distinct.toMaster_restitched otherActive).mp closes
      rw [last] at alsoLast
      exact (Option.some.inj alsoLast).symm

end Distinct

/-- Restitching closes one ring over the active workers and the master. -/
theorem restitch_closes_ring (self : RpcAddr) (registry : Registry)
    (distinct : DistinctAddresses self registry) :
    ClosesRing self registry (discoveryRestitchRing self registry) := by
  have injective :
      ∀ i ∈ activeSlots registry, ∀ j ∈ activeSlots registry,
        (registry i).info.addr = (registry j).info.addr → i = j := by
    intro i leftMember j rightMember
    exact distinct.injective i j ((mem_activeSlots registry i).mp leftMember)
      ((mem_activeSlots registry j).mp rightMember)
  have notMaster : ∀ i ∈ activeSlots registry, (registry i).info.addr ≠ self := by
    intro i member
    exact distinct.notMaster i ((mem_activeSlots registry i).mp member)
  exact
    { slotOrder := activeSlots_sorted registry
      everyActive := mem_activeSlots registry
      walk := fun fuel enough => distinct.ringWalk_restitched enough
      inverse := fun i j leftActive rightActive =>
        (restitched_linked self registry).next_eq_iff_prev_eq
          (activeSlots_nodup registry) injective notMaster notMaster
          ((mem_activeSlots registry i).mpr leftActive)
          ((mem_activeSlots registry j).mpr rightActive)
      fromMaster := fun i active =>
        (restitched_linked self registry).prev_eq_entry_iff
          (activeSlots_nodup registry) notMaster
          ((mem_activeSlots registry i).mpr active)
      toMaster := fun i active => distinct.toMaster_restitched active
      onlyLinks := restitched_onlyLinks self registry
      onlyActive := fun i idle => restitched_of_inactive self registry idle
      count := restitched_count self registry
      tail := distinct.masterRingTail_restitched
      again := restitched_again self registry }

theorem restitch_closes_ring_of_three :
    DistinctAddresses ringMaster (ringRegistry 3) ∧
      ClosesRing ringMaster (ringRegistry 3) (discoveryRestitchRing ringMaster (ringRegistry 3)) ∧
      activeSlots (ringRegistry 3) = [0, 1, 2] := by
  have distinct : DistinctAddresses ringMaster (ringRegistry 3) := by
    refine ⟨?_, ?_⟩
    · decide +kernel
    · decide +kernel
  refine ⟨distinct, ?_, ?_⟩
  · exact restitch_closes_ring ringMaster (ringRegistry 3) distinct
  · decide +kernel

end LlmRuntime.DistInf
