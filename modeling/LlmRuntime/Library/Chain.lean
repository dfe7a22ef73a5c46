import Mathlib

/-!
# Doubly linked chains

Nodes that store the addresses of both neighbours form a chain when every stored
address is the one the order of the nodes prescribes.  A ring that closes on an
outside node is a chain entered from and left to that node.
-/

namespace LlmRuntime.Chain

universe u v

variable {ι : Type u} {β : Type v}

section Definitions

variable (addr prev next : ι → β)

def headOr (nodes : List ι) (exit : β) : β :=
  match nodes with
  | [] => exit
  | node :: _ => addr node

def lastOr (nodes : List ι) (entry : β) : β :=
  match nodes with
  | [] => entry
  | node :: rest => lastOr rest (addr node)

/-- Every node of the list stores the addresses of its two neighbours. -/
def Linked (entry : β) (nodes : List ι) (exit : β) : Prop :=
  match nodes with
  | [] => True
  | node :: rest =>
    prev node = entry ∧ next node = headOr addr rest exit ∧ Linked (addr node) rest exit

end Definitions

variable {addr prev next : ι → β}

theorem lastOr_append_singleton (nodes : List ι) (last : ι) (entry : β) :
    lastOr addr (nodes ++ [last]) entry = addr last := by
  induction nodes generalizing entry with
  | nil => rfl
  | cons node rest ih => exact ih (addr node)

theorem headOr_append (left right : List ι) (exit : β) :
    headOr addr (left ++ right) exit = headOr addr left (headOr addr right exit) := by
  cases left with
  | nil => rfl
  | cons node rest => rfl

/-- A chain splits anywhere: the first part leaves to where the second part
begins, and the second is entered from where the first ends. -/
theorem linked_append (entry : β) (left right : List ι) (exit : β) :
    Linked addr prev next entry (left ++ right) exit ↔
      Linked addr prev next entry left (headOr addr right exit) ∧
        Linked addr prev next (lastOr addr left entry) right exit := by
  induction left generalizing entry with
  | nil => simp [Linked, lastOr]
  | cons node rest ih => simp only [List.cons_append, Linked, lastOr, headOr_append, ih, and_assoc]

theorem linked_congr {otherPrev otherNext : ι → β} {nodes : List ι}
    (samePrev : ∀ node ∈ nodes, prev node = otherPrev node)
    (sameNext : ∀ node ∈ nodes, next node = otherNext node) (entry exit : β) :
    Linked addr prev next entry nodes exit ↔ Linked addr otherPrev otherNext entry nodes exit := by
  induction nodes generalizing entry with
  | nil => exact Iff.rfl
  | cons node rest ih =>
    have member : node ∈ node :: rest := List.mem_cons_self
    have tail :=
      ih
        (fun other inRest =>
          samePrev other (List.mem_cons_of_mem node inRest))
        (fun other inRest =>
          sameNext other (List.mem_cons_of_mem node inRest))
        (addr node)
    simp only [Linked, samePrev node member, sameNext node member, tail]

section Positions

variable (addr) in
/-- The address in front of position `k`. -/
def prevAt (entry : β) (nodes : List ι) (k : Nat) : β :=
  if k = 0 then entry else (nodes[k - 1]?.map addr).getD entry

variable (addr) in
def nextAt (nodes : List ι) (exit : β) (k : Nat) : β :=
  if k + 1 = nodes.length then exit
  else (nodes[k + 1]?.map addr).getD exit

theorem prevAt_cons_succ (entry : β) (first : ι) {rest : List ι} {k : Nat}
    (inside : k < rest.length) :
    prevAt addr entry (first :: rest) (k + 1) = prevAt addr (addr first) rest k := by
  cases k with
  | zero => simp [prevAt]
  | succ j =>
    have insideJ : j < rest.length := by omega
    simp [prevAt, insideJ]

theorem nextAt_cons_succ (first : ι) (rest : List ι) (exit : β) (k : Nat) :
    nextAt addr (first :: rest) exit (k + 1) = nextAt addr rest exit k := by
  simp [nextAt]

theorem nextAt_cons_zero (first : ι) (rest : List ι) (exit : β) :
    nextAt addr (first :: rest) exit 0 = headOr addr rest exit := by
  cases rest with
  | nil | cons => simp [nextAt, headOr]

theorem linked_iff_positions (entry : β) (nodes : List ι) (exit : β) :
    Linked addr prev next entry nodes exit ↔
      ∀ k node, nodes[k]? = some node →
        prev node = prevAt addr entry nodes k ∧
          next node = nextAt addr nodes exit k := by
  induction nodes generalizing entry with
  | nil => simp [Linked]
  | cons first rest ih =>
    rw [Linked, ih]
    constructor
    · intro linked k node atPosition
      rcases linked with ⟨firstPrev, firstNext, restLinked⟩
      cases k with
      | zero =>
        have isFirst : first = node := by simpa using atPosition
        subst isFirst
        refine ⟨?_, ?_⟩
        · rw [firstPrev]
          rfl
        · rw [firstNext, nextAt_cons_zero]
      | succ j =>
        rw [List.getElem?_cons_succ] at atPosition
        have inside : j < rest.length := (List.getElem?_eq_some_iff.mp atPosition).1
        rw [prevAt_cons_succ entry first inside, nextAt_cons_succ]
        exact restLinked j node atPosition
    · intro positions
      have atFirst := positions 0 first rfl
      rw [nextAt_cons_zero] at atFirst
      refine ⟨atFirst.1, atFirst.2, ?_⟩
      intro j node atPosition
      have inside : j < rest.length := (List.getElem?_eq_some_iff.mp atPosition).1
      have atNext := positions (j + 1) node atPosition
      rw [prevAt_cons_succ entry first inside, nextAt_cons_succ] at atNext
      exact atNext

end Positions

section Neighbours

variable {entry exit : β} {nodes : List ι}

theorem nextAt_eq_exit_iff (notExit : ∀ node ∈ nodes, addr node ≠ exit)
    {k : Nat} (inside : k < nodes.length) :
    nextAt addr nodes exit k = exit ↔ k + 1 = nodes.length := by
  unfold nextAt
  by_cases last : k + 1 = nodes.length
  · simp [last]
  · have insideNext : k + 1 < nodes.length := by omega
    have different := notExit _ (List.getElem_mem insideNext)
    simp [last, insideNext, different]

theorem prevAt_eq_entry_iff (notEntry : ∀ node ∈ nodes, addr node ≠ entry)
    {k : Nat} (inside : k < nodes.length) :
    prevAt addr entry nodes k = entry ↔ k = 0 := by
  unfold prevAt
  by_cases first : k = 0
  · simp [first]
  · have insidePrev : k - 1 < nodes.length := by omega
    have different := notEntry _ (List.getElem_mem insidePrev)
    simp [first, insidePrev, different]

theorem nextAt_eq_addr_iff
    (injective : ∀ left ∈ nodes, ∀ right ∈ nodes, addr left = addr right → left = right)
    (notExit : ∀ node ∈ nodes, addr node ≠ exit) {k : Nat}
    (inside : k < nodes.length) {node : ι} (member : node ∈ nodes) :
    nextAt addr nodes exit k = addr node ↔ nodes[k + 1]? = some node := by
  unfold nextAt
  by_cases last : k + 1 = nodes.length
  · have different := notExit node member
    simp [last, different.symm]
  · have insideNext : k + 1 < nodes.length := by omega
    have behind := List.getElem_mem insideNext
    simp only [last, if_false, List.getElem?_eq_getElem insideNext,
      Option.map_some, Option.getD_some, Option.some.injEq]
    exact ⟨injective _ behind node member, congrArg addr⟩

theorem prevAt_succ_eq_addr_iff
    (injective : ∀ left ∈ nodes, ∀ right ∈ nodes, addr left = addr right → left = right)
    {k : Nat} (inside : k + 1 < nodes.length) {node : ι} (member : node ∈ nodes) :
    prevAt addr entry nodes (k + 1) = addr node ↔ nodes[k]? = some node := by
  have insidePrev : k < nodes.length := by omega
  have before := List.getElem_mem insidePrev
  simp only [prevAt, Nat.add_eq_zero_iff, one_ne_zero, and_false, if_false, Nat.add_sub_cancel,
    List.getElem?_eq_getElem insidePrev, Option.map_some, Option.getD_some, Option.some.injEq]
  exact ⟨injective _ before node member, congrArg addr⟩

/-- A chain of distinct addresses can be read backwards: a node stores the
address of the one behind it exactly when that one stores its address. -/
theorem Linked.next_eq_iff_prev_eq (linked : Linked addr prev next entry nodes exit)
    (nodup : nodes.Nodup)
    (injective : ∀ left ∈ nodes, ∀ right ∈ nodes, addr left = addr right → left = right)
    (notEntry : ∀ node ∈ nodes, addr node ≠ entry) (notExit : ∀ node ∈ nodes, addr node ≠ exit)
    {left right : ι} (leftMember : left ∈ nodes) (rightMember : right ∈ nodes) :
    next left = addr right ↔ prev right = addr left := by
  obtain ⟨k, atLeft⟩ := List.mem_iff_getElem?.mp leftMember
  obtain ⟨l, atRight⟩ := List.mem_iff_getElem?.mp rightMember
  have insideLeft : k < nodes.length := (List.getElem?_eq_some_iff.mp atLeft).1
  have insideRight : l < nodes.length := (List.getElem?_eq_some_iff.mp atRight).1
  have positions := (linked_iff_positions entry nodes exit).mp linked
  rw [(positions k left atLeft).2, (positions l right atRight).1,
    nextAt_eq_addr_iff injective notExit insideLeft rightMember]
  cases l with
  | zero =>
    have different := (notEntry left leftMember).symm
    have notFirst : nodes[k + 1]? ≠ some right := by
      intro atNext
      have same : 0 = k + 1 := (List.getElem?_inj insideRight nodup).mp (atRight.trans atNext.symm)
      omega
    simp [prevAt, different, notFirst]
  | succ j =>
    rw [prevAt_succ_eq_addr_iff injective insideRight leftMember, ← atRight, ← atLeft]
    constructor
    · intro sameRight
      have same : j + 1 = k + 1 := (List.getElem?_inj insideRight nodup).mp sameRight.symm
      rw [Nat.add_right_cancel same]
    · intro sameLeft
      have same : k = j := (List.getElem?_inj insideLeft nodup).mp sameLeft.symm
      rw [same]

theorem Linked.next_eq_exit_iff (linked : Linked addr prev next entry nodes exit)
    (nodup : nodes.Nodup) (notExit : ∀ node ∈ nodes, addr node ≠ exit) {node : ι}
    (member : node ∈ nodes) :
    next node = exit ↔ nodes.getLast? = some node := by
  obtain ⟨k, atNode⟩ := List.mem_iff_getElem?.mp member
  have inside : k < nodes.length := (List.getElem?_eq_some_iff.mp atNode).1
  have positions := (linked_iff_positions entry nodes exit).mp linked
  rw [(positions k node atNode).2, nextAt_eq_exit_iff notExit inside,
    List.getLast?_eq_getElem?, ← atNode]
  constructor
  · intro last
    rw [← last, Nat.add_sub_cancel]
  · intro atLast
    have same : k = nodes.length - 1 := (List.getElem?_inj inside nodup).mp atLast.symm
    omega

theorem Linked.prev_eq_entry_iff (linked : Linked addr prev next entry nodes exit)
    (nodup : nodes.Nodup) (notEntry : ∀ node ∈ nodes, addr node ≠ entry) {node : ι}
    (member : node ∈ nodes) :
    prev node = entry ↔ nodes.head? = some node := by
  obtain ⟨k, atNode⟩ := List.mem_iff_getElem?.mp member
  have inside : k < nodes.length := (List.getElem?_eq_some_iff.mp atNode).1
  have positions := (linked_iff_positions entry nodes exit).mp linked
  rw [(positions k node atNode).1, prevAt_eq_entry_iff notEntry inside,
    List.head?_eq_getElem?, ← atNode]
  constructor
  · intro first
    rw [first]
  · intro atFirst
    exact (List.getElem?_inj inside nodup).mp atFirst.symm

end Neighbours

section Following

/-- The nodes met when the stored addresses are followed from `address`, at
most `fuel` of them, and the address at which this stops: nobody is found
there. -/
def follow (find : β → Option ι) (next : ι → β) :
    Nat → β → List ι × β
  | 0, address => ([], address)
  | fuel + 1, address =>
    match find address with
    | none => ([], address)
    | some node =>
      let rest := follow find next fuel (next node)
      (node :: rest.1, rest.2)

theorem follow_of_none {find : β → Option ι} {address : β}
    (nobody : find address = none) (fuel : Nat) :
    follow find next fuel address = ([], address) := by
  cases fuel with
  | zero => rfl
  | succ fuel => simp [follow, nobody]

/-- Following a chain of findable nodes meets each of them in order and stops
where the chain is left. -/
theorem Linked.follow_eq {find : β → Option ι} {entry exit : β} {nodes : List ι}
    (linked : Linked addr prev next entry nodes exit)
    (found : ∀ node ∈ nodes, find (addr node) = some node)
    (nobody : find exit = none) {fuel : Nat} (enough : nodes.length ≤ fuel) :
    follow find next fuel (headOr addr nodes exit) = (nodes, exit) := by
  induction nodes generalizing entry fuel with
  | nil => exact follow_of_none nobody fuel
  | cons node rest ih =>
    obtain ⟨_, nextNode, restLinked⟩ := linked
    cases fuel with
    | zero => simp at enough
    | succ fuel =>
      have restFollowed :=
        ih restLinked
          (fun other inRest =>
            found other (List.mem_cons_of_mem node inRest))
          (Nat.le_of_succ_le_succ enough)
      change follow find next (fuel + 1) (addr node) = _
      simp only [follow, found node List.mem_cons_self, nextNode, restFollowed]

end Following

end LlmRuntime.Chain
