import LlmRuntime.Discovery.RingStitch
import LlmRuntime.DistInf.MasterSession

/-!
# The split of the layers

`discovery_assign_layers` deals the layers out in one loop with a running start;
`discovery_assign_one` recomputes the range of worker `k` from `k` alone.
-/

namespace LlmRuntime.DistInf

open Discovery

/-- What `discovery_assign_one` sends, and to which slot; none when it returns
an error before its call. -/
def discoveryAssignOne (registry : Registry) (tmpl : AssignLayers) (k : Int) :
    Option (Slot × AssignLayers) :=
  let slots := discoveryRingOrder registry maxWorkers
  if k < 0 ∨ slots.length ≤ k then none
  else if asInt tmpl.nLayersTotal < slots.length then none
  else
    slots[k.toNat]?.map fun slot =>
      (slot, assignedLayers tmpl slots.length k.toNat)

/-- What `discovery_assign_layers` has done when it returns: the assignments
sent, the ids stored to `out_ring_ids`, and the result. -/
structure AssignRun where
  sent : List (Slot × AssignLayers)
  ringIds : List UInt32
  result : Int
  deriving DecidableEq

section Loop

variable (registry : Registry) (tmpl : AssignLayers) (n : Nat)
variable (answer : Nat → RpcResult) (maxIds : Int)

/-- The loop from pass `k` on, over the slots that are left.  `answer` is the
result of the call made in each pass; `max_ids` is taken as 0 when there is no
`out_ring_ids`. -/
def assignLoop : Nat → Nat → List Slot → AssignRun
  | _, _, [] => ⟨[], [], n⟩
  | k, nextLayer, slot :: rest =>
    let count := tmpl.nLayersTotal.toNat / n + (if k < tmpl.nLayersTotal.toNat % n then 1 else 0)
    let a :=
      { tmpl with
        layerStart := UInt32.ofNat nextLayer
        layerEnd := UInt32.ofNat (nextLayer + count) }
    if answer k ≠ .ok then ⟨[(slot, a)], [], -1⟩
    else
      let later := assignLoop (k + 1) a.layerEnd.toNat rest
      { later with
        sent := (slot, a) :: later.sent
        ringIds :=
          if (k : Int) < maxIds then (registry slot).info.workerId :: later.ringIds
          else later.ringIds }

end Loop

def discoveryAssignLayers (registry : Registry) (tmpl : AssignLayers) (answer : Nat → RpcResult)
    (maxIds : Int) : AssignRun :=
  let slots := discoveryRingOrder registry maxWorkers
  if slots.length = 0 then ⟨[], [], -1⟩
  else if asInt tmpl.nLayersTotal < slots.length then ⟨[], [], -1⟩
  else assignLoop registry tmpl slots.length answer maxIds 0 0 slots

def layersOf (assignment : AssignLayers) : List Nat :=
  List.range' assignment.layerStart.toNat (assignment.layerEnd.toNat - assignment.layerStart.toNat)

/-- The layers given to the workers before worker `k` of `n`. -/
def layersBefore (total n k : Nat) : Nat :=
  k * (total / n) + (if k < total % n then k else total % n)

theorem layersBefore_succ (total n k : Nat) :
    layersBefore total n (k + 1) =
      layersBefore total n k + (total / n + if k < total % n then 1 else 0) := by
  unfold layersBefore
  rw [Nat.succ_mul]
  split_ifs <;> omega

theorem layersBefore_all {total n : Nat} (positive : 0 < n) : layersBefore total n n = total := by
  have below := Nat.mod_lt total positive
  have division := Nat.div_add_mod total n
  unfold layersBefore
  rw [if_neg (by omega)]
  exact division

theorem layersBefore_le {total n k : Nat} (within : k ≤ n) : layersBefore total n k ≤ total := by
  have division := Nat.div_add_mod total n
  have fewer : k * (total / n) ≤ n * (total / n) := Nat.mul_le_mul_right _ within
  unfold layersBefore
  split_ifs <;> omega

section Ranges

variable (tmpl : AssignLayers) {n k : Nat} (within : k < n)

include within

theorem assignedLayers_layerEnd :
    (assignedLayers tmpl n k).layerEnd.toNat = layersBefore tmpl.nLayersTotal.toNat n (k + 1) := by
  have small : tmpl.nLayersTotal.toNat < UInt32.size := tmpl.nLayersTotal.toNat_lt
  have endLe : layersBefore tmpl.nLayersTotal.toNat n (k + 1) ≤ tmpl.nLayersTotal.toNat :=
    layersBefore_le within
  rw [layersBefore_succ] at endLe ⊢
  exact UInt32.toNat_ofNat_of_lt' (Nat.lt_of_le_of_lt endLe small)

theorem assignedLayers_layerStart :
    (assignedLayers tmpl n k).layerStart.toNat = layersBefore tmpl.nLayersTotal.toNat n k := by
  have small : tmpl.nLayersTotal.toNat < UInt32.size := tmpl.nLayersTotal.toNat_lt
  have startLe : layersBefore tmpl.nLayersTotal.toNat n k ≤ tmpl.nLayersTotal.toNat :=
    layersBefore_le within.le
  exact UInt32.toNat_ofNat_of_lt' (Nat.lt_of_le_of_lt startLe small)

theorem layersOf_assignedLayers :
    layersOf (assignedLayers tmpl n k) =
      List.range' (layersBefore tmpl.nLayersTotal.toNat n k)
        (tmpl.nLayersTotal.toNat / n +
          if k < tmpl.nLayersTotal.toNat % n then 1 else 0) := by
  rw [layersOf, assignedLayers_layerStart tmpl within, assignedLayers_layerEnd tmpl within,
    layersBefore_succ, Nat.add_sub_cancel_left]

end Ranges

theorem assignedLayers_tile_below (tmpl : AssignLayers) (n : Nat) :
    ∀ k, k ≤ n →
      ((List.range k).map (assignedLayers tmpl n)).flatMap layersOf =
        List.range (layersBefore tmpl.nLayersTotal.toNat n k) := by
  intro k
  induction k with
  | zero =>
    intro within
    simp [layersBefore]
  | succ k ih =>
    intro within
    have earlier := ih (by omega)
    rw [List.range_succ, List.map_append, List.flatMap_append, earlier, List.map_singleton,
      List.flatMap_singleton, layersOf_assignedLayers tmpl (by omega), layersBefore_succ,
      List.range_eq_range', List.range_eq_range']
    have joined :
        List.range' 0 (layersBefore tmpl.nLayersTotal.toNat n k) ++
            List.range' (0 + layersBefore tmpl.nLayersTotal.toNat n k)
              (tmpl.nLayersTotal.toNat / n +
                if k < tmpl.nLayersTotal.toNat % n then 1 else 0) =
          List.range' 0 (_ + _) :=
      List.range'_append_1
    rwa [Nat.zero_add] at joined

/-- Together they are all layers, each once and in order. -/
theorem assignedLayers_tile (tmpl : AssignLayers) {n : Nat} (positive : 0 < n) :
    ((List.range n).map (assignedLayers tmpl n)).flatMap layersOf =
      List.range tmpl.nLayersTotal.toNat := by
  rw [assignedLayers_tile_below tmpl n n le_rfl, layersBefore_all positive]

theorem layersBefore_pos {total n k : Nat} (enough : n ≤ total) (within : k < n) :
    layersBefore total n k < layersBefore total n (k + 1) := by
  have positive : 0 < total / n := Nat.div_pos enough (by omega)
  rw [layersBefore_succ]
  omega

theorem assignedLayers_of_start (tmpl : AssignLayers) (n k : Nat) :
    assignedLayers tmpl n k =
      { tmpl with
        layerStart := UInt32.ofNat (layersBefore tmpl.nLayersTotal.toNat n k)
        layerEnd :=
          UInt32.ofNat
            (layersBefore tmpl.nLayersTotal.toNat n k +
              (tmpl.nLayersTotal.toNat / n +
                if k < tmpl.nLayersTotal.toNat % n then 1 else 0)) } := rfl

/-- From pass `k` on, the loop sends the ranges that `discovery_assign_one`
recomputes, up to the first worker that refuses.  The running start of pass `k`
is the number of layers given out before it. -/
theorem assignLoop_sent (registry : Registry) (tmpl : AssignLayers) {n : Nat}
    (answer : Nat → RpcResult) (maxIds : Int) {slots : List Slot} {k : Nat}
    (allSlots : k + slots.length = n) :
    (assignLoop registry tmpl n answer maxIds k
        (layersBefore tmpl.nLayersTotal.toNat n k) slots).sent <+:
      slots.mapIdx fun j slot => (slot, assignedLayers tmpl n (k + j)) := by
  induction slots generalizing k with
  | nil => exact List.prefix_refl _
  | cons first rest ih =>
    rw [List.length_cons] at allSlots
    have within : k < n := by omega
    have later := ih (k := k + 1) (by omega)
    rw [← assignedLayers_layerEnd tmpl within] at later
    simp only [Nat.add_right_comm k 1, Nat.add_assoc k] at later
    rw [List.mapIdx_cons, assignLoop, ← assignedLayers_of_start]
    by_cases refused : answer k ≠ .ok
    · rw [if_pos refused]
      exact List.prefix_cons_inj _ |>.mpr List.nil_prefix
    · rw [if_neg refused]
      exact (List.prefix_cons_inj _).mpr later

theorem assignLoop_completes (registry : Registry) (tmpl : AssignLayers) (n : Nat)
    (answer : Nat → RpcResult) (maxIds : Int) {slots : List Slot} {k : Nat} (start : Nat)
    (accepted : ∀ i, i < slots.length → answer (k + i) = .ok) :
    (assignLoop registry tmpl n answer maxIds k start slots).sent.length = slots.length ∧
      (assignLoop registry tmpl n answer maxIds k start slots).result = n := by
  induction slots generalizing k start with
  | nil => exact ⟨rfl, rfl⟩
  | cons first rest ih =>
    have thisOne : answer k = .ok := accepted 0 (Nat.succ_pos _)
    rw [assignLoop, if_neg (not_not.mpr thisOne)]
    have acceptedLater : ∀ i, i < rest.length → answer (k + 1 + i) = .ok := by
      intro i inside
      rw [Nat.add_assoc, Nat.add_comm 1 i]
      exact accepted (i + 1) (Nat.succ_lt_succ inside)
    exact ⟨congrArg Nat.succ (ih _ acceptedLater).1, (ih _ acceptedLater).2⟩

/-- The ranges `0, …, n - 1` cut `total` layers into `n` pieces. -/
structure SplitsEvenly (total n : Nat) (range : Nat → AssignLayers) : Prop where
  nonempty : ∀ k, k < n → (range k).layerStart.toNat < (range k).layerEnd.toNat
  first : (range 0).layerStart.toNat = 0
  contiguous : ∀ k, k + 1 < n → (range (k + 1)).layerStart.toNat = (range k).layerEnd.toNat
  last : (range (n - 1)).layerEnd.toNat = total
  longerFirst : ∀ j k, j ≤ k → k < n → (layersOf (range k)).length ≤ (layersOf (range j)).length
  balanced : ∀ j k, j < n → k < n → (layersOf (range j)).length ≤ (layersOf (range k)).length + 1

theorem assignedLayers_size (tmpl : AssignLayers) {n k : Nat} (within : k < n) :
    (layersOf (assignedLayers tmpl n k)).length =
      tmpl.nLayersTotal.toNat / n +
        if k < tmpl.nLayersTotal.toNat % n then 1 else 0 := by
  rw [layersOf_assignedLayers tmpl within, List.length_range']

theorem assignedLayers_splitsEvenly (tmpl : AssignLayers) {n : Nat}
    (positive : 0 < n) (enough : n ≤ tmpl.nLayersTotal.toNat) :
    SplitsEvenly tmpl.nLayersTotal.toNat n (assignedLayers tmpl n) where
  nonempty := by
    intro k within
    rw [assignedLayers_layerStart tmpl within, assignedLayers_layerEnd tmpl within]
    exact layersBefore_pos enough within
  first := by
    rw [assignedLayers_layerStart tmpl positive]
    simp [layersBefore]
  contiguous := by
    intro k within
    rw [assignedLayers_layerStart tmpl within, assignedLayers_layerEnd tmpl (by omega)]
  last := by
    rw [assignedLayers_layerEnd tmpl (by omega),
      Nat.sub_add_cancel positive, layersBefore_all positive]
  longerFirst := by
    intro j k order within
    rw [assignedLayers_size tmpl within, assignedLayers_size tmpl (by omega)]
    split_ifs <;> omega
  balanced := by
    intro j k leftWithin rightWithin
    rw [assignedLayers_size tmpl leftWithin, assignedLayers_size tmpl rightWithin]
    split_ifs <;> omega

theorem asInt_of_small {word : UInt32} (small : word.toNat < 2 ^ 31) : asInt word = word.toNat := by
  unfold asInt Int.bmod
  dsimp only
  split_ifs <;> omega

/-- Both assignment paths cut the layers into the same even ranges. -/
theorem assignment_paths_agree (registry : Registry) (tmpl : AssignLayers) (n : Nat)
    (workers : (activeSlots registry).length = n) (someWorker : 1 ≤ n)
    (enough : n ≤ tmpl.nLayersTotal.toNat) (small : tmpl.nLayersTotal.toNat < 2 ^ 31) :
    ∃ range : Nat → AssignLayers,
      SplitsEvenly tmpl.nLayersTotal.toNat n range ∧
        (∀ (k : Nat) (slot : Slot), (activeSlots registry)[k]? = some slot →
          discoveryAssignOne registry tmpl k = some (slot, range k)) ∧
        ∀ (answer : Nat → RpcResult) (maxIds : Int),
          (discoveryAssignLayers registry tmpl answer maxIds).sent <+:
              (activeSlots registry).mapIdx (fun k slot => (slot, range k)) ∧
            ((∀ k, k < n → answer k = .ok) →
              (discoveryAssignLayers registry tmpl answer maxIds).sent =
                  (activeSlots registry).mapIdx (fun k slot => (slot, range k)) ∧
                (discoveryAssignLayers registry tmpl answer maxIds).result = n) := by
  have sized : asInt tmpl.nLayersTotal = tmpl.nLayersTotal.toNat := asInt_of_small small
  have startsAtZero : layersBefore tmpl.nLayersTotal.toNat n 0 = 0 := by simp [layersBefore]
  refine ⟨assignedLayers tmpl n, assignedLayers_splitsEvenly tmpl someWorker enough, ?_, ?_⟩
  · intro k slot atPosition
    have inside : k < n := workers ▸ (List.getElem?_eq_some_iff.mp atPosition).1
    unfold discoveryAssignOne
    rw [discoveryRingOrder_eq]
    dsimp only
    rw [workers, if_neg (by omega), if_neg (by omega), Int.toNat_natCast, atPosition]
    rfl
  · intro answer maxIds
    have entersLoop :
        discoveryAssignLayers registry tmpl answer maxIds =
          assignLoop registry tmpl n answer maxIds 0 0 (activeSlots registry) := by
      unfold discoveryAssignLayers
      rw [discoveryRingOrder_eq]
      dsimp only
      rw [workers, if_neg (by omega), if_neg (by omega)]
    rw [entersLoop]
    have sent := assignLoop_sent registry tmpl answer maxIds ((Nat.zero_add _).trans workers)
    rw [startsAtZero] at sent
    simp only [Nat.zero_add] at sent
    refine ⟨sent, ?_⟩
    intro accepted
    have allAccepted : ∀ i, i < (activeSlots registry).length → answer (0 + i) = .ok := by
      intro i inside
      exact accepted (0 + i) (by omega)
    have completes := assignLoop_completes registry tmpl n answer maxIds 0 allAccepted
    refine ⟨sent.eq_of_length ?_, completes.2⟩
    rw [completes.1, List.length_mapIdx]

theorem assignment_paths_agree_of_three :
    (activeSlots (ringRegistry 3)).length = 3 ∧
      (ringTemplate 7).nLayersTotal.toNat = 7 ∧
      ∃ range : Nat → AssignLayers, SplitsEvenly 7 3 range := by
  have workers : (activeSlots (ringRegistry 3)).length = 3 := by decide +kernel
  have split :=
    assignment_paths_agree (ringRegistry 3) (ringTemplate 7) 3 workers
      (by decide) (by decide) (by decide)
  obtain ⟨range, evenly, _⟩ := split
  exact ⟨workers, rfl, range, evenly⟩

end LlmRuntime.DistInf
