import LlmRuntime.Discovery.Lookup
import LlmRuntime.Discovery.Worker
import LlmRuntime.Library.Chain

/-!
# The two ways of stitching the ring

`handle_cap_ack` splices a new worker in, and `discovery_restitch_ring` rewrites
the pointers in slot order.  It changes nothing exactly when the active entries
form a chain that begins and ends at the master.
-/

namespace LlmRuntime.Discovery

open Chain Execution Function Slots

/-- The entries of `nodes` are linked in this order, entered from `entry` and
left to `exit`. -/
def SlotsLinked (registry : Registry) (entry : RpcAddr) (nodes : List Slot)
    (exit : RpcAddr) : Prop :=
  Linked (fun i => (registry i).info.addr) (fun i => (registry i).prev)
    (fun i => (registry i).next) entry nodes exit

/-- The active workers are linked in slot order and closed on the master. -/
def RingLinked (self : RpcAddr) (registry : Registry) : Prop :=
  SlotsLinked registry self (activeSlots registry) self

section Restitch

variable (self : RpcAddr) (registry : Registry) (slots : List Slot)

/-- The entry `discovery_restitch_ring` leaves at position `k` of the ring. -/
def stitchedEntry (slot : Slot) (k : Nat) : WorkerEntry :=
  { registry slot with
    prev := prevAt (fun i => (registry i).info.addr) self slots k
    next := nextAt (fun i => (registry i).info.addr) slots self k }

def restitchAfter (passes : Nat) : Registry :=
  (List.range passes).foldl (restitchPass self slots) registry

theorem restitchAfter_succ (passes : Nat) :
    restitchAfter self registry slots (passes + 1) =
      restitchPass self slots (restitchAfter self registry slots passes) passes := by
  simp [restitchAfter, List.range_succ]

theorem restitchPass_info (current : Registry) (k : Nat) (i : Slot) :
    (restitchPass self slots current k i).info = (current i).info := by
  unfold restitchPass
  cases slots[k]? with
  | none => rfl
  | some slot =>
    apply update_sameInfo
    rfl

theorem restitchAfter_info (passes : Nat) (i : Slot) :
    (restitchAfter self registry slots passes i).info = (registry i).info := by
  induction passes with
  | zero => rfl
  | succ k ih => rw [restitchAfter_succ, restitchPass_info, ih]

theorem restitchAfter_state (passes : Nat) (i : Slot) :
    (restitchAfter self registry slots passes i).state = (registry i).state := by
  induction passes with
  | zero => rfl
  | succ k ih =>
    rw [restitchAfter_succ, ← ih]
    unfold restitchPass
    cases slots[k]? with
    | none => rfl
    | some slot =>
      dsimp only
      by_cases same : i = slot
      · rw [same, update_self]
      · rw [update_of_ne same]

/-- A pass writes the entry prescribed by the original registry: the passes
before it changed no address. -/
theorem restitchAfter_pass {k : Nat} {slot : Slot} (atPosition : slots[k]? = some slot) :
    restitchAfter self registry slots (k + 1) =
      update (restitchAfter self registry slots k) slot
        { restitchAfter self registry slots k slot with
          prev := prevAt (fun i => (registry i).info.addr) self slots k
          next := nextAt (fun i => (registry i).info.addr) slots self k } := by
  rw [restitchAfter_succ]
  unfold restitchPass
  simp only [atPosition, restitchAfter_info]
  rfl

theorem restitchAfter_of_untouched {passes : Nat} {i : Slot}
    (untouched : ∀ k, k < passes → slots[k]? ≠ some i) :
    restitchAfter self registry slots passes i = registry i := by
  induction passes with
  | zero => rfl
  | succ k ih =>
    have before : restitchAfter self registry slots k i = registry i :=
      ih (fun j inside => untouched j (Nat.lt_succ_of_lt inside))
    cases atPosition : slots[k]? with
    | none =>
      rw [restitchAfter_succ, restitchPass, atPosition]
      exact before
    | some slot =>
      have different : i ≠ slot := by
        intro same
        exact untouched k (Nat.lt_succ_self k) (same ▸ atPosition)
      rw [restitchAfter_pass self registry slots atPosition, update_of_ne different]
      exact before

theorem restitchAfter_of_position (nodup : slots.Nodup) {passes k : Nat}
    {slot : Slot} (inside : k < passes) (atPosition : slots[k]? = some slot) :
    restitchAfter self registry slots passes slot = stitchedEntry self registry slots slot k := by
  have bounded : k < slots.length := (List.getElem?_eq_some_iff.mp atPosition).1
  induction passes with
  | zero => omega
  | succ j ih =>
    by_cases last : k = j
    · subst last
      have untouched : restitchAfter self registry slots k slot = registry slot := by
        apply restitchAfter_of_untouched
        intro earlier before atEarlier
        have same : k = earlier :=
          (List.getElem?_inj bounded nodup).mp (atPosition.trans atEarlier.symm)
        omega
      rw [restitchAfter_pass self registry slots atPosition, update_self, untouched]
      rfl
    · have written := ih (by omega)
      cases atLast : slots[j]? with
      | none =>
        rw [restitchAfter_succ, restitchPass, atLast]
        exact written
      | some other =>
        have different : slot ≠ other := by
          intro same
          apply last
          exact (List.getElem?_inj bounded nodup).mp (atPosition.trans (same ▸ atLast.symm))
        rw [restitchAfter_pass self registry slots atLast, update_of_ne different]
        exact written

end Restitch

theorem activeSlots_nodup (registry : Registry) : (activeSlots registry).Nodup :=
  (List.nodup_finRange maxWorkers).filter _

theorem mem_activeSlots (registry : Registry) (i : Slot) :
    i ∈ activeSlots registry ↔ isActive registry i := by
  simp [activeSlots]

theorem activeSlots_sorted (registry : Registry) : (activeSlots registry).Pairwise (· < ·) :=
  (List.pairwise_lt_finRange maxWorkers).filter _

theorem discoveryRingOrder_eq (registry : Registry) :
    discoveryRingOrder registry maxWorkers = activeSlots registry := by
  apply List.take_of_length_le
  calc
    (activeSlots registry).length ≤ (List.finRange maxWorkers).length := List.length_filter_le _ _
    _ = maxWorkers := List.length_finRange

theorem discoveryRestitchRing_registry (self : RpcAddr) (registry : Registry) :
    (discoveryRestitchRing self registry).1 =
      restitchAfter self registry (activeSlots registry) (activeSlots registry).length := by
  unfold discoveryRestitchRing
  rw [discoveryRingOrder_eq]
  rfl

theorem discoveryRestitchRing_activeSlots (self : RpcAddr) (registry : Registry) :
    activeSlots (discoveryRestitchRing self registry).1 = activeSlots registry := by
  apply List.filter_congr
  intro i isSlot
  apply decide_eq_decide.mpr
  unfold isActive
  rw [discoveryRestitchRing_registry, restitchAfter_info, restitchAfter_state]

/-- Restitching changes no entry exactly when the ring is linked already. -/
theorem discoveryRestitchRing_eq_self_iff (self : RpcAddr) (registry : Registry) :
    (discoveryRestitchRing self registry).1 = registry ↔ RingLinked self registry := by
  rw [discoveryRestitchRing_registry, RingLinked, SlotsLinked, linked_iff_positions]
  constructor
  · intro unchanged k slot atPosition
    have inside : k < (activeSlots registry).length := (List.getElem?_eq_some_iff.mp atPosition).1
    have written :=
      restitchAfter_of_position self registry (activeSlots registry)
        (activeSlots_nodup registry) inside atPosition
    rw [unchanged] at written
    exact ⟨congrArg WorkerEntry.prev written, congrArg WorkerEntry.next written⟩
  · intro linked
    funext i
    by_cases member : i ∈ activeSlots registry
    · obtain ⟨k, atPosition⟩ := List.mem_iff_getElem?.mp member
      have inside : k < (activeSlots registry).length := (List.getElem?_eq_some_iff.mp atPosition).1
      have pointers := linked k i atPosition
      rw [restitchAfter_of_position self registry (activeSlots registry)
        (activeSlots_nodup registry) inside atPosition, stitchedEntry,
        ← pointers.1, ← pointers.2]
    · apply restitchAfter_of_untouched
      intro k _ atPosition
      exact member (List.mem_iff_getElem?.mpr ⟨k, atPosition⟩)

def relinked (entry : WorkerEntry) (prev next : RpcAddr) : WorkerEntry :=
  { entry with prev := prev, next := next }

section Restitched

variable (self : RpcAddr) (registry : Registry)

theorem restitched_info (i : Slot) :
    ((discoveryRestitchRing self registry).1 i).info = (registry i).info := by
  rw [discoveryRestitchRing_registry, restitchAfter_info]

theorem restitched_isActive (i : Slot) :
    isActive (discoveryRestitchRing self registry).1 i ↔ isActive registry i := by
  rw [← mem_activeSlots, discoveryRestitchRing_activeSlots, mem_activeSlots]

theorem restitched_count :
    (discoveryRestitchRing self registry).2 = (activeSlots registry).length := by
  unfold discoveryRestitchRing
  rw [discoveryRingOrder_eq]

theorem restitched_of_inactive {i : Slot} (idle : ¬ isActive registry i) :
    (discoveryRestitchRing self registry).1 i = registry i := by
  rw [discoveryRestitchRing_registry]
  apply restitchAfter_of_untouched
  intro k inside atPosition
  exact idle ((mem_activeSlots registry i).mp (List.mem_of_getElem? atPosition))

theorem restitched_onlyLinks (i : Slot) :
    (discoveryRestitchRing self registry).1 i =
      relinked (registry i) ((discoveryRestitchRing self registry).1 i).prev
        ((discoveryRestitchRing self registry).1 i).next := by
  by_cases active : isActive registry i
  · obtain ⟨k, atPosition⟩ := List.mem_iff_getElem?.mp ((mem_activeSlots registry i).mpr active)
    have inside : k < (activeSlots registry).length := (List.getElem?_eq_some_iff.mp atPosition).1
    rw [discoveryRestitchRing_registry,
      restitchAfter_of_position self registry (activeSlots registry)
        (activeSlots_nodup registry) inside atPosition]
    rfl
  · rw [restitched_of_inactive self registry active]
    rfl

/-- The links written by position are the links of a chain through the active
slots, whatever the addresses are. -/
theorem restitched_linked :
    Linked (fun i => (registry i).info.addr)
      (fun i => ((discoveryRestitchRing self registry).1 i).prev)
      (fun i => ((discoveryRestitchRing self registry).1 i).next)
      self (activeSlots registry) self := by
  rw [linked_iff_positions]
  intro k slot atPosition
  have inside : k < (activeSlots registry).length := (List.getElem?_eq_some_iff.mp atPosition).1
  rw [discoveryRestitchRing_registry,
    restitchAfter_of_position self registry (activeSlots registry)
      (activeSlots_nodup registry) inside atPosition]
  exact ⟨rfl, rfl⟩

theorem restitched_again :
    discoveryRestitchRing self (discoveryRestitchRing self registry).1 =
      discoveryRestitchRing self registry := by
  have linked : RingLinked self (discoveryRestitchRing self registry).1 := by
    unfold RingLinked SlotsLinked
    simp only [discoveryRestitchRing_activeSlots, restitched_info]
    exact restitched_linked self registry
  apply Prod.ext
  · exact (discoveryRestitchRing_eq_self_iff self _).mpr linked
  · rw [restitched_count, restitched_count, discoveryRestitchRing_activeSlots]

end Restitched

def activeBelow (registry : Registry) (slot : Slot) : List Slot :=
  (below slot).filter fun i => isActive registry i

def activeAbove (registry : Registry) (slot : Slot) : List Slot :=
  (above slot).filter fun i => isActive registry i

theorem activeSlots_split (registry : Registry) (slot : Slot) :
    activeSlots registry =
      activeBelow registry slot ++
        ((if isActive registry slot then [slot] else []) ++ activeAbove registry slot) := by
  unfold activeSlots activeBelow activeAbove
  rw [finRange_eq_below_above slot, List.filter_append, List.filter_cons]
  by_cases active : isActive registry slot
  · simp [active]
  · simp [active]

/-- The backwards walk of `find_prev_active_worker` visits the slots below in
descending order and then, wrapping around, the slots above. -/
theorem walk_back_eq (slot : Slot) :
    (List.range' 1 (maxWorkers - 1)).map (slotBefore slot) =
      (below slot).reverse ++ (above slot).reverse := by
  revert slot
  decide

theorem findPrevActiveWorker_eq (registry : Registry) (slot : Slot) :
    findPrevActiveWorker registry slot =
      ((activeBelow registry slot).reverse ++ (activeAbove registry slot).reverse).head? := by
  unfold findPrevActiveWorker activeBelow activeAbove
  rw [walk_back_eq, ← List.filter_reverse, ← List.filter_reverse,
    ← List.filter_append, List.head?_filter]

theorem findPrevActiveWorker_none {registry : Registry} {slot : Slot}
    (alone : findPrevActiveWorker registry slot = none) :
    activeBelow registry slot = [] ∧ activeAbove registry slot = [] := by
  rw [findPrevActiveWorker_eq, List.head?_eq_none_iff, List.append_eq_nil_iff,
    List.reverse_eq_nil_iff, List.reverse_eq_nil_iff] at alone
  exact alone

/-- The predecessor is the last active worker below the slot, or the last one
above it when there is none below. -/
theorem findPrevActiveWorker_some {registry : Registry} {slot prevSlot : Slot}
    (found : findPrevActiveWorker registry slot = some prevSlot) :
    (∃ initial, activeBelow registry slot = initial ++ [prevSlot]) ∨
      (activeBelow registry slot = [] ∧
        ∃ initial, activeAbove registry slot = initial ++ [prevSlot]) := by
  rw [findPrevActiveWorker_eq, List.head?_append, List.head?_reverse, List.head?_reverse] at found
  cases lastBelow : (activeBelow registry slot).getLast? with
  | some last =>
    rw [lastBelow] at found
    have same : last = prevSlot := by simpa using found
    subst same
    exact Or.inl (List.getLast?_eq_some_iff.mp lastBelow)
  | none =>
    rw [lastBelow, Option.none_or] at found
    exact Or.inr ⟨List.getLast?_eq_none_iff.mp lastBelow, List.getLast?_eq_some_iff.mp found⟩

/-- Nothing that happens to the entry of `slot` itself moves its
neighbourhood. -/
theorem activeBelow_congr {left right : Registry} {slot : Slot}
    (same : ∀ i, i ≠ slot → (isActive left i ↔ isActive right i)) :
    activeBelow left slot = activeBelow right slot := by
  apply List.filter_congr
  intro i below
  have different : i ≠ slot := ne_of_lt (mem_below.mp below)
  simpa using same i different

theorem activeAbove_congr {left right : Registry} {slot : Slot}
    (same : ∀ i, i ≠ slot → (isActive left i ↔ isActive right i)) :
    activeAbove left slot = activeAbove right slot := by
  apply List.filter_congr
  intro i above
  have different : i ≠ slot := ne_of_gt (mem_above.mp above)
  simpa using same i different

/-! ## One splice -/

section Splice

variable {self : RpcAddr} {registry : Registry} {slot prevSlot : Slot} {now : UInt32}

theorem findPrevActiveWorker_update (registry : Registry) (slot : Slot) (entry : WorkerEntry) :
    findPrevActiveWorker (update registry slot entry) slot =
      findPrevActiveWorker registry slot := by
  have same : ∀ i, i ≠ slot → (isActive (update registry slot entry) i ↔ isActive registry i) := by
    intro i different
    simp only [isActive, update_of_ne different]
  rw [findPrevActiveWorker_eq, findPrevActiveWorker_eq,
    activeBelow_congr same, activeAbove_congr same]

theorem prevSlot_ne (found : findPrevActiveWorker registry slot = some prevSlot) :
    prevSlot ≠ slot := by
  rcases findPrevActiveWorker_some found with ⟨initial, below⟩ | ⟨_, initial, above⟩
  · have member : prevSlot ∈ activeBelow registry slot := by simp [below]
    exact ne_of_lt (mem_below.mp (List.mem_of_mem_filter member))
  · have member : prevSlot ∈ activeAbove registry slot := by simp [above]
    exact ne_of_gt (mem_above.mp (List.mem_of_mem_filter member))

theorem activate_of_none (alone : findPrevActiveWorker registry slot = none) :
    (activate self registry slot now).2.1 =
      update registry slot
        { activatedEntry (registry slot) now with
          prev := self, next := self } := by
  simp only [activate, spliceIn, findPrevActiveWorker_update, alone, update_self, update_idem]

theorem activate_of_prev (found : findPrevActiveWorker registry slot = some prevSlot) :
    (activate self registry slot now).2.1 =
      update (update registry prevSlot { registry prevSlot with next := (registry slot).info.addr })
        slot
        { activatedEntry (registry slot) now with
          prev := (registry prevSlot).info.addr
          next := (registry prevSlot).next } := by
  have different := prevSlot_ne found
  simp only [activate, spliceIn, findPrevActiveWorker_update, found,
    update_self, update_of_ne different, update_of_ne different.symm]
  rw [update_comm different, update_idem, update_comm different.symm]
  rfl

theorem activate_pointers (self : RpcAddr) (now : UInt32)
    (found : findPrevActiveWorker registry slot = some prevSlot) :
    (((activate self registry slot now).2.1 slot).prev = (registry prevSlot).info.addr ∧
      ((activate self registry slot now).2.1 slot).next = (registry prevSlot).next) ∧
    (((activate self registry slot now).2.1 prevSlot).prev = (registry prevSlot).prev ∧
      ((activate self registry slot now).2.1 prevSlot).next = (registry slot).info.addr) := by
  rw [activate_of_prev found, update_self, update_of_ne (prevSlot_ne found), update_self]
  exact ⟨⟨rfl, rfl⟩, ⟨rfl, rfl⟩⟩

theorem activate_untouched (self : RpcAddr) (now : UInt32)
    (found : findPrevActiveWorker registry slot = some prevSlot) (i : Slot)
    (notSlot : i ≠ slot) (notPrev : i ≠ prevSlot) :
    (activate self registry slot now).2.1 i = registry i := by
  rw [activate_of_prev found, update_of_ne notSlot, update_of_ne notPrev]

theorem activeSlots_activate :
    activeSlots (activate self registry slot now).2.1 =
      activeBelow registry slot ++
        ((if (registry slot).info.workerId ≠ 0 then [slot] else []) ++
          activeAbove registry slot) := by
  have frame := activate_frame self registry slot now
  have state := activate_state self registry slot now
  have same :
      ∀ i, i ≠ slot → (isActive (activate self registry slot now).2.1 i ↔ isActive registry i) := by
    intro i different
    rw [isActive, isActive, (frame i).1, state i, if_neg different]
  have joined :
      isActive (activate self registry slot now).2.1 slot ↔ (registry slot).info.workerId ≠ 0 := by
    rw [isActive, (frame slot).1, state slot, if_pos rfl]
    simp
  rw [activeSlots_split _ slot, activeBelow_congr same, activeAbove_congr same]
  by_cases used : (registry slot).info.workerId ≠ 0
  · rw [if_pos used, if_pos (joined.mpr used)]
  · rw [if_neg used, if_neg (fun active => used (joined.mp active))]

end Splice

/-- What the state before a join must look like for the splice to leave the
ring as restitching would write it.  A worker that finds a predecessor must
find it in a lower slot; the active workers below must be linked as if the
worker were not there, and those above as if it already were.  A slot without a
worker id is not part of the ring, and only redirects its predecessor. -/
def JoinKeepsRing (self : RpcAddr) (registry : Registry) (slot : Slot) : Prop :=
  ∀ prevSlot, findPrevActiveWorker registry slot = some prevSlot →
    if (registry slot).info.workerId = 0 then
      SlotsLinked
        (update registry prevSlot { registry prevSlot with next := (registry slot).info.addr })
        self (activeBelow registry slot ++ activeAbove registry slot) self
    else
      prevSlot < slot ∧
        SlotsLinked registry self (activeBelow registry slot)
          (headOr (fun i => (registry i).info.addr) (activeAbove registry slot) self) ∧
        SlotsLinked registry (registry slot).info.addr (activeAbove registry slot) self

theorem slotsLinked_append (registry : Registry) (entry : RpcAddr)
    (left right : List Slot) (exit : RpcAddr) :
    SlotsLinked registry entry (left ++ right) exit ↔
      SlotsLinked registry entry left
          (headOr (fun i => (registry i).info.addr) right exit) ∧
        SlotsLinked registry (lastOr (fun i => (registry i).info.addr) left entry)
          right exit := linked_append entry left right exit

/-- Being linked is a matter of the pointers of the listed entries, as long as
no address changes. -/
theorem slotsLinked_congr {left right : Registry}
    (sameInfo : ∀ i, (left i).info = (right i).info) {nodes : List Slot}
    (samePointers : ∀ i ∈ nodes, (left i).prev = (right i).prev ∧ (left i).next = (right i).next)
    (entry exit : RpcAddr) :
    SlotsLinked left entry nodes exit ↔ SlotsLinked right entry nodes exit := by
  unfold SlotsLinked
  simp only [sameInfo]
  exact linked_congr (fun i member => (samePointers i member).1)
    (fun i member => (samePointers i member).2) entry exit

section Join

variable {self : RpcAddr} {registry : Registry} {slot prevSlot : Slot} {now : UInt32}

theorem not_mem_activeBelow (registry : Registry) (slot : Slot) :
    slot ∉ activeBelow registry slot := by
  intro member
  exact lt_irrefl slot (mem_below.mp (List.mem_of_mem_filter member))

theorem not_mem_activeAbove (registry : Registry) (slot : Slot) :
    slot ∉ activeAbove registry slot := by
  intro member
  exact lt_irrefl slot (mem_above.mp (List.mem_of_mem_filter member))

theorem ringLinked_activate_of_unused (unused : (registry slot).info.workerId = 0)
    (found : findPrevActiveWorker registry slot = some prevSlot) :
    RingLinked self (activate self registry slot now).2.1 ↔
      SlotsLinked
        (update registry prevSlot { registry prevSlot with next := (registry slot).info.addr })
        self (activeBelow registry slot ++ activeAbove registry slot)
        self := by
  rw [RingLinked, activeSlots_activate, if_neg (not_not.mpr unused),
    List.nil_append, activate_of_prev found]
  apply slotsLinked_congr
  · intro i
    apply update_sameInfo
    rw [update_of_ne (prevSlot_ne found).symm]
    rfl
  · intro i member
    have different : i ≠ slot := by
      intro same
      subst same
      rcases List.mem_append.mp member with below | above
      · exact not_mem_activeBelow registry i below
      · exact not_mem_activeAbove registry i above
    rw [update_of_ne different]
    exact ⟨rfl, rfl⟩

theorem ringLinked_activate_of_below (used : (registry slot).info.workerId ≠ 0)
    (found : findPrevActiveWorker registry slot = some prevSlot) {initial : List Slot}
    (below : activeBelow registry slot = initial ++ [prevSlot]) :
    RingLinked self (activate self registry slot now).2.1 ↔
      SlotsLinked registry self (activeBelow registry slot)
          (headOr (fun i => (registry i).info.addr) (activeAbove registry slot) self) ∧
        SlotsLinked registry (registry slot).info.addr (activeAbove registry slot) self := by
  have sameInfo : ∀ i, ((activate self registry slot now).2.1 i).info = (registry i).info :=
    fun i => (activate_frame self registry slot now i).1
  have others := activate_untouched self now found
  have pointers := activate_pointers self now found
  rw [RingLinked, activeSlots_activate, if_pos used, List.singleton_append]
  generalize (activate self registry slot now).2.1 = joined at sameInfo others pointers ⊢
  have prevBelow : prevSlot < slot := by
    have member : prevSlot ∈ activeBelow registry slot := by simp [below]
    exact mem_below.mp (List.mem_of_mem_filter member)
  have notInitial : prevSlot ∉ initial := by
    have nodup : (initial ++ [prevSlot]).Nodup := by
      rw [← below]
      exact ((List.nodup_finRange maxWorkers).filter _).filter _
    intro member
    exact (List.nodup_append.mp nodup).2.2 prevSlot member prevSlot
      (List.mem_singleton_self prevSlot) rfl
  have sameInitial :
      SlotsLinked joined self initial (registry prevSlot).info.addr ↔
        SlotsLinked registry self initial (registry prevSlot).info.addr := by
    apply slotsLinked_congr sameInfo
    intro i member
    have notSlot : i ≠ slot := by
      intro same
      apply not_mem_activeBelow registry slot
      rw [below]
      exact List.mem_append_left _ (same ▸ member)
    have notPrev : i ≠ prevSlot := by
      intro same
      exact notInitial (same ▸ member)
    rw [others i notSlot notPrev]
    exact ⟨rfl, rfl⟩
  have sameAbove :
      SlotsLinked joined (registry slot).info.addr
          (activeAbove registry slot) self ↔
        SlotsLinked registry (registry slot).info.addr (activeAbove registry slot) self := by
    apply slotsLinked_congr sameInfo
    intro i member
    have isAbove : slot < i := mem_above.mp (List.mem_of_mem_filter member)
    rw [others i (ne_of_gt isAbove) (ne_of_gt (lt_trans prevBelow isAbove))]
    exact ⟨rfl, rfl⟩
  rw [below, slotsLinked_append, slotsLinked_append, slotsLinked_append registry]
  simp only [SlotsLinked, Linked, headOr, lastOr_append_singleton,
    sameInfo, pointers, and_true] at sameInitial sameAbove ⊢
  rw [sameInitial, sameAbove]
  tauto

/-- A worker that wraps around to a predecessor in a higher slot becomes the
first of the ring and would need the master in front of it. -/
theorem not_ringLinked_activate_of_wrap (used : (registry slot).info.workerId ≠ 0)
    (found : findPrevActiveWorker registry slot = some prevSlot)
    (noneBelow : activeBelow registry slot = []) (foreign : (registry prevSlot).info.addr ≠ self) :
    ¬ RingLinked self (activate self registry slot now).2.1 := by
  rw [RingLinked, activeSlots_activate, if_pos used, noneBelow,
    List.nil_append, List.singleton_append, activate_of_prev found]
  intro linked
  have firstPrev := linked.1
  simp only [update_self] at firstPrev
  exact foreign firstPrev

/-- The splice of `handle_cap_ack` leaves the ring as restitching would write
it exactly when the state before it is `JoinKeepsRing`. -/
theorem ringLinked_activate_iff (foreign : ∀ i, (registry i).info.workerId ≠ 0 →
        (registry i).info.addr ≠ self) :
    RingLinked self (activate self registry slot now).2.1 ↔ JoinKeepsRing self registry slot := by
  cases found : findPrevActiveWorker registry slot with
  | none =>
    have alone := findPrevActiveWorker_none found
    have keeps : JoinKeepsRing self registry slot := by
      intro prevSlot foundPrev
      rw [found] at foundPrev
      cases foundPrev
    refine iff_of_true ?_ keeps
    rw [RingLinked, activeSlots_activate, alone.1, alone.2, activate_of_none found]
    split_ifs with used
    · simp [SlotsLinked, Linked, headOr, update_self]
    · trivial
  | some prevSlot =>
    have keeps_iff :
        JoinKeepsRing self registry slot ↔
          if (registry slot).info.workerId = 0 then
            SlotsLinked
              (update registry prevSlot { registry prevSlot with
                  next := (registry slot).info.addr })
              self
              (activeBelow registry slot ++ activeAbove registry slot)
              self
          else
            prevSlot < slot ∧
              SlotsLinked registry self (activeBelow registry slot)
                (headOr (fun i => (registry i).info.addr) (activeAbove registry slot) self) ∧
              SlotsLinked registry (registry slot).info.addr (activeAbove registry slot) self := by
      unfold JoinKeepsRing
      simp [found]
    rw [keeps_iff]
    by_cases unused : (registry slot).info.workerId = 0
    · rw [if_pos unused, ringLinked_activate_of_unused unused found]
    · rw [if_neg unused]
      rcases findPrevActiveWorker_some found with ⟨initial, below⟩ | ⟨noneBelow, initial, above⟩
      · have prevBelow : prevSlot < slot := by
          have member : prevSlot ∈ activeBelow registry slot := by simp [below]
          exact mem_below.mp (List.mem_of_mem_filter member)
        rw [ringLinked_activate_of_below unused found below]
        simp [prevBelow]
      · have member : prevSlot ∈ activeAbove registry slot := by simp [above]
        have isAbove : slot < prevSlot := mem_above.mp (List.mem_of_mem_filter member)
        have prevActive : isActive registry prevSlot := by simpa using (List.mem_filter.mp member).2
        refine iff_of_false ?_ ?_
        · exact not_ringLinked_activate_of_wrap unused found noneBelow
            (foreign prevSlot prevActive.1)
        · intro keeps
          exact lt_asymm isAbove keeps.1

end Join

end LlmRuntime.Discovery
