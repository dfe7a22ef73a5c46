import LlmRuntime.Library.Execution

/-!
# The profiler

`user/perf.c` keeps a stack of the functions that are being timed.  A call of
`perf_start_function` for one of them is ignored, but the `perf_end_function`
that goes with it takes the top frame of the stack.
-/

namespace LlmRuntime.Perf

open Execution Function

def perfFunctionNameMax : Nat := 64

/-- A string that the field `name` of an entry holds with its terminator;
`perf_register_function` copies without a look at the length. -/
structure Name where
  bytes : List UInt8
  noTerminator : 0 ∉ bytes
  fits : bytes.length < perfFunctionNameMax
  deriving DecidableEq

structure PerfFunction where
  name : Name
  totalTimeMs : Int
  selfTimeMs : Int
  callCount : Int
  startTime : Int
  active : Bool
  hash : UInt32

/-- A frame of the stack; the entry is an index of the table. -/
structure PerfFrame where
  entry : Nat
  startTicks : Int
  childAccum : Int

/-- The globals of `perf.c`.  The frames in use are listed from the top. -/
structure Profiler where
  functions : Nat → PerfFunction
  numFunctions : Nat
  callStack : List PerfFrame

def perfMaxFunctions : Nat := 100
def perfMaxDepth : Nat := 64

/-- The hash djb2. -/
def hashString (str : Name) : UInt32 :=
  str.bytes.foldl (fun hash c => (hash <<< 5) + hash + c.toUInt32) 5381

def findFunction (perf : Profiler) (name : Name) : Option Nat :=
  (List.range perf.numFunctions).find? fun i =>
    (perf.functions i).hash == hashString name && (perf.functions i).name == name

def perfInit : Profiler :=
  ⟨fun _ => ⟨⟨[], by decide, by decide⟩, 0, 0, 0, 0, false, 0⟩, 0, []⟩

def perfRegisterFunction (perf : Profiler) (name : Name) : Profiler :=
  if perf.numFunctions ≥ perfMaxFunctions then perf
  else
    match findFunction perf name with
    | some _ => perf
    | none =>
      let slot := perf.functions perf.numFunctions
      { perf with
        functions :=
          update perf.functions perf.numFunctions
            ⟨name, 0, 0, 0, slot.startTime, false, hashString name⟩
        numFunctions := perf.numFunctions + 1 }

def perfStartFunction (perf : Profiler) (name : Name) (now : Int) : Profiler :=
  match findFunction perf name with
  | none => perf
  | some i =>
    if ¬ (perf.functions i).active then
      { perf with
        functions :=
          update perf.functions i { perf.functions i with startTime := now, active := true }
        callStack :=
          if perf.callStack.length < perfMaxDepth then ⟨i, now, 0⟩ :: perf.callStack
          else perf.callStack }
    else perf

/-- The time of a frame is added to what its parent's callees took. -/
def addToParent (inclusive : Int) : List PerfFrame → List PerfFrame
  | [] => []
  | parent :: rest => { parent with childAccum := parent.childAccum + inclusive } :: rest

def perfEndFunction (perf : Profiler) (name : Name) (now : Int) : Profiler :=
  match findFunction perf name with
  | none => perf
  | some i =>
    let function := perf.functions i
    if function.active then
      let ended :=
        { function with
          totalTimeMs := function.totalTimeMs + (now - function.startTime)
          callCount := function.callCount + 1
          active := false }
      match perf.callStack with
      | [] => { perf with functions := update perf.functions i ended }
      | frame :: rest =>
        let inclusive := now - frame.startTicks
        { perf with
          functions :=
            update perf.functions i
              { ended with
                selfTimeMs :=
                  ended.selfTimeMs + (inclusive - frame.childAccum) }
          callStack := addToParent inclusive rest }
    else perf

inductive CallKind where
  | start
  | finish
  deriving DecidableEq, Repr

/-- A call of the profiler and the time on the clock. -/
structure Call where
  kind : CallKind
  name : Name
  now : Int
  deriving DecidableEq

def perfStep (perf : Profiler) (call : Call) : Profiler :=
  match call.kind with
  | .start => perfStartFunction perf call.name call.now
  | .finish => perfEndFunction perf call.name call.now

/-- The functions that are open, from the innermost, the time of the last call,
the time that each name was innermost, and that some function was open. -/
structure Attribution where
  stack : List Name
  last : Int
  innermost : Name → Int
  openTime : Int

/-- No function is open, and none has been. -/
def Attribution.start : Attribution :=
  ⟨[], 0, fun _ => 0, 0⟩

/-- Time goes by: all of it is the innermost function's. -/
def Attribution.elapse (spent : Attribution) (now : Int) : Attribution :=
  match spent.stack with
  | [] => { spent with last := now }
  | top :: _ =>
    { spent with
      last := now
      innermost := update spent.innermost top (spent.innermost top + (now - spent.last))
      openTime := spent.openTime + (now - spent.last) }

def Attribution.step (spent : Attribution) (call : Call) : Attribution :=
  let spent := spent.elapse call.now
  match call.kind with
  | .start => { spent with stack := call.name :: spent.stack }
  | .finish => { spent with stack := spent.stack.tail }

/-- The call fits into a well-nested sequence: a registered function starts
with at most 63 open, or the innermost ends; and the clock does not go back. -/
def WellNested (isRegistered : Name → Prop) (spent : Attribution) (call : Call) : Prop :=
  (spent.stack ≠ [] → spent.last ≤ call.now) ∧
    (call.kind = .start → isRegistered call.name ∧ spent.stack.length < perfMaxDepth) ∧
    (call.kind = .finish → spent.stack.head? = some call.name)

instance (isRegistered : Name → Prop) [DecidablePred isRegistered]
    (spent : Attribution) (call : Call) :
    Decidable (WellNested isRegistered spent call) := inferInstanceAs (Decidable (_ ∧ _))

/-- The call does not start a function that is open. -/
def NotReentered (spent : Attribution) (call : Call) : Prop :=
  call.kind = .start → call.name ∉ spent.stack

instance (spent : Attribution) (call : Call) : Decidable (NotReentered spent call) :=
  inferInstanceAs (Decidable (_ → _))

/-- The entries of the table have different names, and the hashes of them. -/
structure Profiler.Registered (perf : Profiler) : Prop where
  hash : ∀ i < perf.numFunctions, (perf.functions i).hash = hashString (perf.functions i).name
  injective :
    ∀ i < perf.numFunctions, ∀ j < perf.numFunctions,
      (perf.functions i).name = (perf.functions j).name → i = j

def Profiler.IsRegistered (perf : Profiler) (name : Name) : Prop :=
  ∃ i < perf.numFunctions, (perf.functions i).name = name

instance (perf : Profiler) : DecidablePred perf.IsRegistered :=
  fun name =>
    inferInstanceAs (Decidable (∃ i < perf.numFunctions, (perf.functions i).name = name))

section Table

variable {perf : Profiler}

theorem Profiler.Registered.find
    (registered : perf.Registered) {i : Nat} (inTable : i < perf.numFunctions) :
    findFunction perf (perf.functions i).name = some i := by
  rw [findFunction, List.find?_range_eq_some]
  refine ⟨?_, List.mem_range.mpr inTable, ?_⟩
  · simp [registered.hash i inTable]
  · intro j earlier
    have different : (perf.functions j).name ≠ (perf.functions i).name := by
      intro same
      exact absurd (registered.injective j (earlier.trans inTable) i inTable
        same) (Nat.ne_of_lt earlier)
    simp [different]

theorem findFunction_none {name : Name} (absent : findFunction perf name = none)
    (registered : perf.Registered) :
    ¬ perf.IsRegistered name := by
  rintro ⟨i, inTable, isName⟩
  rw [← isName, registered.find inTable] at absent
  cases absent

theorem perfInit_registered : perfInit.Registered :=
  ⟨fun _ inTable => absurd inTable (Nat.not_lt_zero _),
    fun _ inTable => absurd inTable (Nat.not_lt_zero _)⟩

theorem Profiler.Registered.register (registered : perf.Registered) (name : Name) :
    (perfRegisterFunction perf name).Registered := by
  rw [perfRegisterFunction]
  split_ifs
  · exact registered
  cases absent : findFunction perf name with
  | some i => exact registered
  | none =>
    have isNew := findFunction_none absent registered
    dsimp only
    refine ⟨?_, ?_⟩
    · intro i inTable
      dsimp only at inTable ⊢
      by_cases isLast : i = perf.numFunctions
      · rw [isLast, update_self]
      · rw [update_of_ne isLast]
        exact registered.hash i (by omega)
    · intro i inTable j alsoInTable
      dsimp only at inTable alsoInTable ⊢
      by_cases isLast : i = perf.numFunctions
      · by_cases otherIsLast : j = perf.numFunctions
        · intro _
          rw [isLast, otherIsLast]
        · rw [isLast, update_self, update_of_ne otherIsLast]
          intro same
          exact absurd ⟨j, by omega, same.symm⟩ isNew
      · by_cases otherIsLast : j = perf.numFunctions
        · rw [otherIsLast, update_self, update_of_ne isLast]
          intro same
          exact absurd ⟨i, by omega, same⟩ isNew
        · rw [update_of_ne isLast, update_of_ne otherIsLast]
          exact registered.injective i (by omega) j (by omega)

theorem update_field {α : Type} (field : PerfFunction → α) {i : Nat} {entry : PerfFunction}
    (same : field entry = field (perf.functions i)) (j : Nat) :
    field (update perf.functions i entry j) = field (perf.functions j) := by
  by_cases isEntry : j = i
  · rw [isEntry, update_self, same]
  · rw [update_of_ne isEntry]

theorem Profiler.Registered.update (registered : perf.Registered) {i : Nat} {entry : PerfFunction}
    (sameName : entry.name = (perf.functions i).name)
    (sameHash : entry.hash = (perf.functions i).hash) (callStack : List PerfFrame) :
    Profiler.Registered ⟨update perf.functions i entry, perf.numFunctions, callStack⟩ := by
  have name := update_field PerfFunction.name sameName
  have hash := update_field PerfFunction.hash sameHash
  refine ⟨?_, ?_⟩
  · intro j inTable
    dsimp only
    rw [name, hash]
    exact registered.hash j inTable
  · intro j inTable k alsoInTable
    dsimp only
    rw [name, name]
    exact registered.injective j inTable k alsoInTable

end Table

/-! ## Flag and stack agree -/

/-- What the frames of the stack will add to the self time of entry `i`, as of
now: the time since each frame began, less that of its callees. -/
def pending (now : Int) : List PerfFrame → Nat → Int
  | [], _ => 0
  | frame :: rest, i =>
    (if frame.entry = i then now - frame.startTicks - frame.childAccum
      else 0) +
      pending frame.startTicks rest i

/-- The profiler follows what happens. -/
structure Follows (perf : Profiler) (spent : Attribution) : Prop where
  registered : perf.Registered
  entries : ∀ entry ∈ perf.callStack.map PerfFrame.entry, entry < perf.numFunctions
  stack :
    (perf.callStack.map PerfFrame.entry).map
        (fun entry => (perf.functions entry).name) =
      spent.stack
  nodup : spent.stack.Nodup
  active :
    ∀ i < perf.numFunctions,
      ((perf.functions i).active = true ↔ (perf.functions i).name ∈ spent.stack)
  selfTime :
    ∀ i < perf.numFunctions,
      (perf.functions i).selfTimeMs + pending spent.last perf.callStack i =
        spent.innermost (perf.functions i).name
  total :
    ∑ i ∈ Finset.range perf.numFunctions, spent.innermost (perf.functions i).name = spent.openTime

section Steps

variable {perf : Profiler} {spent : Attribution}

theorem elapse_top {top : Name} {rest : List Name}
    (isStack : spent.stack = top :: rest) (now : Int) :
    spent.elapse now =
      { spent with
        last := now
        innermost := update spent.innermost top (spent.innermost top + (now - spent.last))
        openTime := spent.openTime + (now - spent.last) } := by
  rw [Attribution.elapse, isStack]

theorem elapse_stack (now : Int) : (spent.elapse now).stack = spent.stack := by
  rw [Attribution.elapse]
  split
  · rfl
  · rfl

theorem elapse_last (now : Int) : (spent.elapse now).last = now := by
  rw [Attribution.elapse]
  split
  · rfl
  · rfl

theorem Follows.elapse (follows : Follows perf spent) (now : Int) :
    Follows perf (spent.elapse now) := by
  have isStack := follows.stack
  have innermost :
      (∀ i < perf.numFunctions,
          (perf.functions i).selfTimeMs + pending now perf.callStack i =
            (spent.elapse now).innermost (perf.functions i).name) ∧
        ∑ i ∈ Finset.range perf.numFunctions,
            (spent.elapse now).innermost (perf.functions i).name =
          (spent.elapse now).openTime := by
    cases isCalls : perf.callStack with
    | nil =>
      rw [isCalls, List.map_nil, List.map_nil] at isStack
      rw [Attribution.elapse, ← isStack]
      refine ⟨?_, follows.total⟩
      intro i inTable
      have before := follows.selfTime i inTable
      rw [isCalls] at before
      exact before
    | cons frame rest =>
      have inTable : frame.entry < perf.numFunctions :=
        follows.entries frame.entry (by rw [isCalls]; simp)
      rw [isCalls, List.map_cons, List.map_cons] at isStack
      rw [elapse_top isStack.symm now]
      dsimp only
      -- only the entry of the top frame has the name
      have gains :
          ∀ i < perf.numFunctions,
            update spent.innermost (perf.functions frame.entry).name
                (spent.innermost (perf.functions frame.entry).name + (now - spent.last))
                (perf.functions i).name =
              spent.innermost (perf.functions i).name +
                if frame.entry = i then now - spent.last else 0 := by
        intro i alsoInTable
        by_cases isTop : frame.entry = i
        · rw [isTop, update_self, if_pos rfl]
        · have different :
              (perf.functions i).name ≠ (perf.functions frame.entry).name := by
            intro same
            exact isTop (follows.registered.injective _ alsoInTable _ inTable same).symm
          rw [update_of_ne different, if_neg isTop, add_zero]
      refine ⟨?_, ?_⟩
      · intro i alsoInTable
        have before := follows.selfTime i alsoInTable
        rw [isCalls, pending] at before
        rw [gains i alsoInTable, ← before, pending]
        split_ifs
        · ring
        · ring
      · rw [← follows.total, Finset.sum_congr rfl fun i isIn =>
          gains i (Finset.mem_range.mp isIn), Finset.sum_add_distrib,
          Finset.sum_ite_eq, if_pos (Finset.mem_range.mpr inTable)]
  refine
    { registered := follows.registered
      entries := follows.entries
      stack := ?_
      nodup := ?_
      active := ?_
      selfTime := ?_
      total := innermost.2 }
  · rw [elapse_stack]
    exact follows.stack
  · rw [elapse_stack]
    exact follows.nodup
  · rw [elapse_stack]
    exact follows.active
  · rw [elapse_last]
    exact innermost.1

theorem Follows.start (follows : Follows perf spent) {name : Name}
    (isRegistered : perf.IsRegistered name) (shallow : spent.stack.length < perfMaxDepth)
    (notOpen : name ∉ spent.stack) :
    Follows (perfStartFunction perf name spent.last)
      { spent with stack := name :: spent.stack } := by
  obtain ⟨i, inTable, rfl⟩ := isRegistered
  have inactive : ¬ (perf.functions i).active = true := mt (follows.active i inTable).mp notOpen
  have depth : perf.callStack.length < perfMaxDepth := by
    rw [← follows.stack, List.length_map, List.length_map] at shallow
    exact shallow
  rw [perfStartFunction, follows.registered.find inTable]
  dsimp only
  rw [if_pos inactive, if_pos depth]
  have sameName :=
    @update_field perf _ PerfFunction.name i
      { perf.functions i with startTime := spent.last, active := true } rfl
  have sameSelf :=
    @update_field perf _ PerfFunction.selfTimeMs i
      { perf.functions i with startTime := spent.last, active := true } rfl
  refine
    { registered := follows.registered.update (by rfl) (by rfl) _
      entries := ?_
      stack := ?_
      nodup := List.nodup_cons.mpr ⟨notOpen, follows.nodup⟩
      active := ?_
      selfTime := ?_
      total := ?_ }
  · rw [List.map_cons, List.forall_mem_cons]
    exact ⟨inTable, follows.entries⟩
  · simp only [sameName, List.map_cons]
    rw [follows.stack]
  · intro j alsoInTable
    dsimp only
    rw [sameName, List.mem_cons]
    by_cases isEntry : j = i
    · rw [isEntry, update_self]
      exact iff_of_true rfl (.inl rfl)
    · have different :
          (perf.functions j).name ≠ (perf.functions i).name :=
        fun same =>
          isEntry (follows.registered.injective j alsoInTable i inTable same)
      rw [update_of_ne isEntry, follows.active j alsoInTable, or_iff_right different]
  · intro j alsoInTable
    dsimp only
    rw [sameName, sameSelf, ← follows.selfTime j alsoInTable, pending]
    split_ifs
    · ring
    · ring
  · simp only [sameName]
    exact follows.total

theorem addToParent_map (inclusive : Int) (frames : List PerfFrame) :
    (addToParent inclusive frames).map PerfFrame.entry = frames.map PerfFrame.entry := by
  cases frames with
  | nil => rfl
  | cons parent rest => rfl

theorem pending_addToParent (now start : Int) (rest : List PerfFrame) (i : Nat) :
    pending now (addToParent (now - start) rest) i = pending start rest i := by
  cases rest with
  | nil => rfl
  | cons parent rest =>
    rw [addToParent, pending, pending]
    split_ifs
    · ring
    · ring

theorem Follows.finish (follows : Follows perf spent) {name : Name}
    (isInnermost : spent.stack.head? = some name) :
    Follows (perfEndFunction perf name spent.last) { spent with stack := spent.stack.tail } := by
  have isStack := follows.stack
  cases isCalls : perf.callStack with
  | nil =>
    rw [isCalls, List.map_nil, List.map_nil] at isStack
    rw [← isStack] at isInnermost
    cases isInnermost
  | cons frame rest =>
    rw [isCalls, List.map_cons, List.map_cons] at isStack
    rw [← isStack, List.head?_cons] at isInnermost
    obtain rfl := Option.some.inj isInnermost
    have inTable : frame.entry < perf.numFunctions :=
      follows.entries frame.entry (by rw [isCalls]; simp)
    have isActive : (perf.functions frame.entry).active = true := by
      rw [follows.active _ inTable, ← isStack]
      exact List.mem_cons_self
    have nodup := follows.nodup
    rw [← isStack] at nodup
    obtain ⟨notBelow, restNodup⟩ := List.nodup_cons.mp nodup
    rw [perfEndFunction, follows.registered.find inTable]
    dsimp only
    rw [if_pos isActive, isCalls, ← isStack, List.tail_cons]
    dsimp only
    generalize isEnded :
      ({ perf.functions frame.entry with
        totalTimeMs :=
          (perf.functions frame.entry).totalTimeMs +
            (spent.last - (perf.functions frame.entry).startTime)
        selfTimeMs :=
          (perf.functions frame.entry).selfTimeMs +
            (spent.last - frame.startTicks - frame.childAccum)
        callCount := (perf.functions frame.entry).callCount + 1
        active := false } : PerfFunction) = ended
    have endedName : ended.name = (perf.functions frame.entry).name := by rw [← isEnded]
    have endedHash : ended.hash = (perf.functions frame.entry).hash := by rw [← isEnded]
    have sameName := @update_field perf _ PerfFunction.name _ _ endedName
    refine
      { registered := follows.registered.update endedName endedHash _
        entries := ?_
        stack := ?_
        nodup := restNodup
        active := ?_
        selfTime := ?_
        total := ?_ }
    · have allEntries := follows.entries
      rw [isCalls, List.map_cons, List.forall_mem_cons] at allEntries
      rw [addToParent_map]
      exact allEntries.2
    · rw [addToParent_map]
      simp only [sameName]
    · intro j alsoInTable
      dsimp only
      rw [sameName]
      by_cases isEntry : j = frame.entry
      · rw [isEntry, update_self, ← isEnded]
        exact iff_of_false Bool.false_ne_true notBelow
      · have different :
            (perf.functions j).name ≠ (perf.functions frame.entry).name :=
          fun same =>
            isEntry (follows.registered.injective j alsoInTable frame.entry inTable same)
        rw [update_of_ne isEntry, follows.active j alsoInTable,
          ← isStack, List.mem_cons, or_iff_right different]
    · intro j alsoInTable
      have before := follows.selfTime j alsoInTable
      rw [isCalls, pending] at before
      dsimp only
      rw [sameName, pending_addToParent, ← before]
      by_cases isEntry : j = frame.entry
      · rw [isEntry, update_self, ← isEnded, if_pos rfl]
        ring
      · rw [update_of_ne isEntry, if_neg (Ne.symm isEntry)]
        ring
    · simp only [sameName]
      exact follows.total

end Steps

theorem perfStep_names (perf : Profiler) (call : Call) :
    (perfStep perf call).numFunctions = perf.numFunctions ∧
      ∀ i, ((perfStep perf call).functions i).name = (perf.functions i).name := by
  rw [perfStep]
  cases call.kind with
  | start =>
    dsimp only
    rw [perfStartFunction]
    cases findFunction perf call.name with
    | none => exact ⟨rfl, fun _ => rfl⟩
    | some entry =>
      dsimp only
      split_ifs
      · exact ⟨rfl, fun _ => rfl⟩
      · exact ⟨rfl, update_field PerfFunction.name rfl⟩
      · exact ⟨rfl, update_field PerfFunction.name rfl⟩
  | finish =>
    dsimp only
    rw [perfEndFunction]
    cases findFunction perf call.name with
    | none => exact ⟨rfl, fun _ => rfl⟩
    | some entry =>
      dsimp only
      split_ifs
      · cases perf.callStack with
        | nil | cons => exact ⟨rfl, update_field PerfFunction.name rfl⟩
      · exact ⟨rfl, fun _ => rfl⟩

theorem perfStep_isRegistered_iff (perf : Profiler) (call : Call) (name : Name) :
    (perfStep perf call).IsRegistered name ↔ perf.IsRegistered name := by
  obtain ⟨sameNumber, sameNames⟩ := perfStep_names perf call
  rw [Profiler.IsRegistered, Profiler.IsRegistered, sameNumber]
  simp only [sameNames]

theorem isRegistered_after_iff (perf : Profiler) (calls : List Call) (name : Name) :
    (after perfStep perf calls).IsRegistered name ↔ perf.IsRegistered name := by
  induction calls generalizing perf with
  | nil => rfl
  | cons call rest ih => rw [after_cons, ih, perfStep_isRegistered_iff]

def registered (names : List Name) : Profiler := names.foldl perfRegisterFunction perfInit

/-- A table in which nothing has been timed. -/
structure Profiler.Idle (perf : Profiler) : Prop where
  registered : perf.Registered
  callStack : perf.callStack = []
  active : ∀ i < perf.numFunctions, (perf.functions i).active = false
  selfTime : ∀ i < perf.numFunctions, (perf.functions i).selfTimeMs = 0

theorem Profiler.Idle.register {perf : Profiler} (idle : perf.Idle) (name : Name) :
    (perfRegisterFunction perf name).Idle := by
  have registered := idle.registered.register name
  rw [perfRegisterFunction] at registered ⊢
  split_ifs at registered ⊢
  · exact idle
  cases absent : findFunction perf name with
  | some i => exact idle
  | none =>
    rw [absent] at registered
    refine ⟨registered, idle.callStack, ?_, ?_⟩
    · intro i inTable
      dsimp only at inTable ⊢
      by_cases isLast : i = perf.numFunctions
      · rw [isLast, update_self]
      · rw [update_of_ne isLast]
        exact idle.active i (by omega)
    · intro i inTable
      dsimp only at inTable ⊢
      by_cases isLast : i = perf.numFunctions
      · rw [isLast, update_self]
      · rw [update_of_ne isLast]
        exact idle.selfTime i (by omega)

theorem registered_idle (names : List Name) : (registered names).Idle := by
  induction names using List.reverseRecOn with
  | nil => exact ⟨perfInit_registered, rfl, fun _ _ => rfl, fun _ _ => rfl⟩
  | append_singleton names name ih =>
    rw [registered, List.foldl_append]
    exact ih.register name

theorem Profiler.Idle.follows {perf : Profiler} (idle : perf.Idle) :
    Follows perf Attribution.start := by
  refine
    { registered := idle.registered
      entries := ?_
      stack := ?_
      nodup := List.nodup_nil
      active := ?_
      selfTime := ?_
      total := ?_ }
  · rw [idle.callStack]
    simp
  · rw [idle.callStack]
    rfl
  · intro i inTable
    rw [idle.active i inTable]
    simp [Attribution.start]
  · intro i inTable
    rw [idle.selfTime i inTable, idle.callStack]
    rfl
  · simp [Attribution.start]

theorem Follows.step {perf : Profiler} {spent : Attribution} (follows : Follows perf spent)
    {call : Call} (nested : WellNested perf.IsRegistered spent call)
    (notReentered : NotReentered spent call) :
    Follows (perfStep perf call) (spent.step call) := by
  have elapsed := follows.elapse call.now
  have sameStack := @elapse_stack spent call.now
  have isNow := @elapse_last spent call.now
  obtain ⟨-, starts, finishes⟩ := nested
  rw [perfStep, Attribution.step]
  cases isKind : call.kind with
  | start =>
    have started :=
      elapsed.start (starts isKind).1
        (by rw [sameStack]; exact (starts isKind).2)
        (by rw [sameStack]; exact notReentered isKind)
    dsimp only
    rw [isNow] at started ⊢
    exact started
  | finish =>
    have finished := elapsed.finish (by rw [sameStack]; exact finishes isKind)
    dsimp only
    rw [isNow] at finished ⊢
    exact finished

theorem follows_run (names : List Name) (calls : List Call) (nested :
      Along Attribution.step (WellNested (registered names).IsRegistered) Attribution.start calls)
    (notReentered : Along Attribution.step NotReentered Attribution.start calls) :
    Follows (after perfStep (registered names) calls)
      (after Attribution.step Attribution.start calls) := by
  induction calls using List.reverseRecOn with
  | nil => exact (registered_idle names).follows
  | append_singleton calls call ih =>
    rw [along_snoc] at nested notReentered
    rw [after_snoc, after_snoc]
    have earlier := ih nested.1 notReentered.1
    have sameNames :
        (after perfStep (registered names) calls).IsRegistered = (registered names).IsRegistered :=
      funext fun name => propext (isRegistered_after_iff _ _ name)
    refine earlier.step ?_ notReentered.2
    rw [sameNames]
    exact nested.2

/-- While no function is started again before it has ended, each function's self
time is the time it was innermost, and all of them together are the time that
some function was open. -/
theorem selfTime_eq_innermost (names : List Name) (calls : List Call) (nested :
      Along Attribution.step (WellNested (registered names).IsRegistered) Attribution.start calls)
    (closed : (after Attribution.step Attribution.start calls).stack = [])
    (notReentered : Along Attribution.step NotReentered Attribution.start calls) :
    let perf := after perfStep (registered names) calls
    let spent := after Attribution.step Attribution.start calls
    (∀ i < perf.numFunctions, (perf.functions i).selfTimeMs =
          spent.innermost (perf.functions i).name) ∧
      ∑ i ∈ Finset.range perf.numFunctions, (perf.functions i).selfTimeMs = spent.openTime := by
  intro perf spent
  have follows : Follows perf spent := follows_run names calls nested notReentered
  have noFrame : perf.callStack = [] := by
    have isStack := follows.stack
    rw [closed, List.map_eq_nil_iff, List.map_eq_nil_iff] at isStack
    exact isStack
  have selfTime :
      ∀ i < perf.numFunctions,
        (perf.functions i).selfTimeMs = spent.innermost (perf.functions i).name := by
    intro i inTable
    have isSelf := follows.selfTime i inTable
    rw [noFrame, pending, add_zero] at isSelf
    exact isSelf
  refine ⟨selfTime, ?_⟩
  rw [← follows.total]
  exact Finset.sum_congr rfl fun i isIn =>
    selfTime i (Finset.mem_range.mp isIn)

def nameF : Name :=
  ⟨[102], by decide, by decide⟩

def nameG : Name :=
  ⟨[103], by decide, by decide⟩

/-- A function `f` calls `g` twice. -/
def plainCalls : List Call :=
  [⟨.start, nameF, 0⟩, ⟨.start, nameG, 1⟩, ⟨.finish, nameG, 3⟩,
    ⟨.start, nameG, 4⟩, ⟨.finish, nameG, 5⟩, ⟨.finish, nameF, 9⟩]

theorem plainCalls_selfTime :
    let perf := after perfStep (registered [nameF, nameG]) plainCalls
    let spent := after Attribution.step Attribution.start plainCalls
    (∀ i < perf.numFunctions, (perf.functions i).selfTimeMs =
          spent.innermost (perf.functions i).name) ∧
      ∑ i ∈ Finset.range perf.numFunctions, (perf.functions i).selfTimeMs = spent.openTime :=
  selfTime_eq_innermost [nameF, nameG] plainCalls (by decide) (by decide) (by decide)

/-- A function `f` that calls itself, and takes three milliseconds. -/
def recursiveCalls : List Call :=
  [⟨.start, nameF, 0⟩, ⟨.start, nameF, 1⟩, ⟨.finish, nameF, 2⟩, ⟨.finish, nameF, 3⟩]

theorem recursiveCalls_lost :
    let perf := after perfStep (registered [nameF]) recursiveCalls
    let spent := after Attribution.step Attribution.start recursiveCalls
    Along Attribution.step (WellNested (registered [nameF]).IsRegistered)
        Attribution.start recursiveCalls ∧
      spent.stack = [] ∧ (perf.functions 0).name = nameF ∧
      (perf.functions 0).selfTimeMs = 2 ∧ spent.innermost nameF = 3 ∧
      spent.openTime = 3 := by
  decide

end LlmRuntime.Perf
