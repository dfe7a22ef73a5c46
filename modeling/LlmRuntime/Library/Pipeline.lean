import Mathlib

/-!
# Pipelines of stages that store rows

A stage reads the value, the position and the rows it has stored for the earlier
positions; it hands a value on and stores one more row.  `Agrees` compares the
rows of a stage with a table that is written in place.
-/

namespace LlmRuntime.Pipeline

open Function

universe u v w x

/-- The value and the row that a stage makes of a value at a position, with the
rows of the earlier positions. -/
abbrev Stage (α : Type v) (ρ : Type w) := α → Nat → List ρ → α × ρ

/-- A pipeline and the loop that feeds it. -/
structure Loop (ι : Type u) (α : Type v) (ρ : Type w) (τ : Type x) where
  order : List ι
  distinct : order.Nodup
  stage : ι → Stage α ρ
  first : τ
  feed : τ → α
  next : Nat → α → τ

variable {ι : Type u} {α : Type v} {ρ : Type w} {τ : Type x}

section Visits

variable [DecidableEq ι]

/-- Stage `i` takes the value and stores its row. -/
def visit (stage : ι → Stage α ρ) (pos : Nat) (state : (ι → List ρ) × α) (i : ι) :
    (ι → List ρ) × α :=
  let (value, row) := stage i state.2 pos (state.1 i)
  (update state.1 i (state.1 i ++ [row]), value)

theorem foldl_visit_of_notMem (stage : ι → Stage α ρ) (pos : Nat) {i : ι}
    {visited : List ι} (notVisited : i ∉ visited) (state : (ι → List ρ) × α) :
    (visited.foldl (visit stage pos) state).1 i = state.1 i := by
  induction visited generalizing state with
  | nil => rfl
  | cons first rest ih =>
    rw [List.mem_cons, not_or] at notVisited
    rw [List.foldl_cons, ih notVisited.2]
    exact update_of_ne notVisited.1 _ _

end Visits

namespace Loop

variable [DecidableEq ι] (loop : Loop ι α ρ τ)

/-- What is fed at position `pos`, and the rows stored before. -/
def run : Nat → τ × (ι → List ρ)
  | 0 => (loop.first, fun _ => [])
  | pos + 1 =>
    let (token, rows) := run pos
    let (after, value) := loop.order.foldl (visit loop.stage pos) (rows, loop.feed token)
    (loop.next pos value, after)

def token (pos : Nat) : τ := (loop.run pos).1

/-- The rows that stage `i` has stored before position `pos`. -/
def rows (pos : Nat) (i : ι) : List ρ := (loop.run pos).2 i

/-- The pipeline at position `pos`, after its first `k` stages. -/
def stateAfter (pos k : Nat) : (ι → List ρ) × α :=
  (loop.order.take k).foldl (visit loop.stage pos) (loop.rows pos, loop.feed (loop.token pos))

/-- The value at position `pos`, after the first `k` stages. -/
def carried (pos k : Nat) : α := (loop.stateAfter pos k).2

/-- The value that comes out at position `pos`. -/
def output (pos : Nat) : α := loop.carried pos loop.order.length

variable {loop}

theorem carried_zero (pos : Nat) : loop.carried pos 0 = loop.feed (loop.token pos) := rfl

theorem token_succ (pos : Nat) : loop.token (pos + 1) = loop.next pos (loop.output pos) := by
  rw [output, carried, stateAfter, List.take_length]
  rfl

omit [DecidableEq ι] in
theorem notMem_take {k : Nat} {i : ι} (atIndex : loop.order[k]? = some i) :
    i ∉ loop.order.take k := by
  intro isEarlier
  obtain ⟨j, bound, isWorker⟩ := List.mem_take_iff_getElem.mp isEarlier
  have inside : j < loop.order.length := by omega
  have same : loop.order[j]? = loop.order[k]? := by
    rw [atIndex, List.getElem?_eq_getElem inside, isWorker]
  have equal := (List.getElem?_inj inside loop.distinct).mp same
  omega

omit [DecidableEq ι] in
theorem notMem_drop {k : Nat} {i : ι} (atIndex : loop.order[k]? = some i) :
    i ∉ loop.order.drop (k + 1) := by
  intro isLater
  obtain ⟨j, isWorker⟩ := List.mem_iff_getElem?.mp isLater
  rw [List.getElem?_drop] at isWorker
  have inside : k < loop.order.length := (List.getElem?_eq_some_iff.mp atIndex).1
  have equal := (List.getElem?_inj inside loop.distinct).mp (atIndex.trans isWorker.symm)
  omega

theorem stateAfter_succ (pos : Nat) {k : Nat} {i : ι} (atIndex : loop.order[k]? = some i) :
    loop.stateAfter pos (k + 1) = visit loop.stage pos (loop.stateAfter pos k) i := by
  unfold stateAfter
  rw [List.take_add_one, atIndex, List.foldl_append]
  rfl

theorem stateAfter_rows (pos : Nat) {k : Nat} {i : ι} (atIndex : loop.order[k]? = some i) :
    (loop.stateAfter pos k).1 i = loop.rows pos i :=
  foldl_visit_of_notMem _ _ (notMem_take atIndex) _

theorem carried_succ (pos : Nat) {k : Nat} {i : ι} (atIndex : loop.order[k]? = some i) :
    loop.carried pos (k + 1) = (loop.stage i (loop.carried pos k) pos (loop.rows pos i)).1 := by
  rw [carried, stateAfter_succ pos atIndex, visit, stateAfter_rows pos atIndex]
  rfl

theorem rows_succ (pos : Nat) {k : Nat} {i : ι} (atIndex : loop.order[k]? = some i) :
    loop.rows (pos + 1) i =
      loop.rows pos i ++ [(loop.stage i (loop.carried pos k) pos (loop.rows pos i)).2] := by
  have wholePass : loop.rows (pos + 1) i = (loop.stateAfter pos loop.order.length).1 i := by
    rw [stateAfter, List.take_length]
    rfl
  have split :
      loop.stateAfter pos loop.order.length =
        (loop.order.drop (k + 1)).foldl (visit loop.stage pos) (loop.stateAfter pos (k + 1)) := by
    rw [stateAfter, stateAfter, List.take_length, ← List.foldl_append, List.take_append_drop]
  rw [wholePass, split, foldl_visit_of_notMem _ _ (notMem_drop atIndex),
    stateAfter_succ pos atIndex, visit, stateAfter_rows pos atIndex]
  exact update_self _ _ _

theorem rows_length {i : ι} (member : i ∈ loop.order) (pos : Nat) :
    (loop.rows pos i).length = pos := by
  obtain ⟨k, atIndex⟩ := List.mem_iff_getElem?.mp member
  induction pos with
  | zero => rfl
  | succ pos ih =>
    rw [rows_succ pos atIndex, List.length_append, ih]
    rfl

theorem rows_take {i : ι} (member : i ∈ loop.order) {earlier pos : Nat} (before : earlier ≤ pos) :
    (loop.rows pos i).take earlier = loop.rows earlier i := by
  obtain ⟨k, atIndex⟩ := List.mem_iff_getElem?.mp member
  induction before with
  | refl => rw [List.take_of_length_le (Nat.le_of_eq (rows_length member _))]
  | step before ih =>
    rw [rows_succ _ atIndex, List.take_append_of_le_length, ih]
    rw [rows_length member]
    exact before

variable (loop)

/-- The first `count` rows of the table are those of stage `i`. -/
def Agrees (i : ι) (table : Nat → ρ) (count : Nat) : Prop :=
  (List.range count).map table = loop.rows count i

variable {loop}

section Tables

variable {i : ι} {table : Nat → ρ} {count pos k : Nat}

theorem Agrees.zero : loop.Agrees i table 0 := rfl

theorem Agrees.mono (agrees : loop.Agrees i table count) (member : i ∈ loop.order)
    (fewer : pos ≤ count) : loop.Agrees i table pos := by
  have cut := congrArg (List.take pos) agrees
  rw [rows_take member fewer, ← List.map_take, List.take_range, Nat.min_eq_left fewer] at cut
  exact cut

theorem Agrees.row (agrees : loop.Agrees i table (pos + 1)) (atIndex : loop.order[k]? = some i) :
    table pos = (loop.stage i (loop.carried pos k) pos (loop.rows pos i)).2 := by
  unfold Agrees at agrees
  rw [rows_succ pos atIndex, List.range_succ, List.map_append] at agrees
  have last := (List.append_inj' agrees rfl).2
  exact (List.cons.inj last).1

theorem map_range_update (row : ρ) (below : count ≤ pos) :
    (List.range count).map (update table pos row) = (List.range count).map table := by
  apply List.map_congr_left
  intro each inRange
  have different : each ≠ pos := by
    have bound := List.mem_range.mp inRange
    omega
  exact update_of_ne different _ _

theorem Agrees.store (agrees : loop.Agrees i table pos) (atIndex : loop.order[k]? = some i) :
    loop.Agrees i (update table pos (loop.stage i (loop.carried pos k) pos (loop.rows pos i)).2)
      (pos + 1) := by
  unfold Agrees at agrees ⊢
  rw [rows_succ pos atIndex, List.range_succ, List.map_append, map_range_update _ (Nat.le_refl pos),
    agrees, List.map_singleton, update_self]

/-- Writing the row of a position again loses nothing. -/
theorem Agrees.update (agrees : loop.Agrees i table count) (atIndex : loop.order[k]? = some i) :
    loop.Agrees i (update table pos (loop.stage i (loop.carried pos k) pos (loop.rows pos i)).2)
      count := by
  by_cases below : count ≤ pos
  · unfold Agrees
    rw [map_range_update _ below]
    exact agrees
  · have written : loop.Agrees i table (pos + 1) :=
      agrees.mono (List.mem_of_getElem? atIndex) (by omega)
    rw [← written.row atIndex, update_eq_self]
    exact agrees

end Tables

end Loop

end LlmRuntime.Pipeline
