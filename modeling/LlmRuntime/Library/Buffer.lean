import Mathlib

/-!
# Buffers that loops write in place

A buffer is a function of its index, and a loop over a range of cells is a fold.
Two buffers are compared on their first cells only.
-/

namespace LlmRuntime.Buffer

open Function

universe u v w

variable {α : Type u}

def Agree (n : Nat) (left right : Nat → α) : Prop := ∀ i, i < n → left i = right i

theorem Agree.refl (n : Nat) (buf : Nat → α) : Agree n buf buf :=
  fun _ _ => rfl

theorem Agree.symm {n : Nat} {left right : Nat → α} (agree : Agree n left right) :
    Agree n right left :=
  fun i inside => (agree i inside).symm

theorem Agree.trans {n : Nat} {left middle right : Nat → α} (first : Agree n left middle)
    (second : Agree n middle right) : Agree n left right :=
  fun i inside => (first i inside).trans (second i inside)

def replaceEach (indices : List Nat) (cell : Nat → α → α) (buf : Nat → α) : Nat → α :=
  indices.foldl (fun buf i => update buf i (cell i (buf i))) buf

@[simp]
theorem replaceEach_nil (cell : Nat → α → α) (buf : Nat → α) : replaceEach [] cell buf = buf := rfl

theorem replaceEach_cons (first : Nat) (rest : List Nat) (cell : Nat → α → α) (buf : Nat → α) :
    replaceEach (first :: rest) cell buf =
      replaceEach rest cell (update buf first (cell first (buf first))) := rfl

theorem replaceEach_append (initial rest : List Nat) (cell : Nat → α → α) (buf : Nat → α) :
    replaceEach (initial ++ rest) cell buf = replaceEach rest cell (replaceEach initial cell buf) :=
  List.foldl_append

theorem replaceEach_of_notMem {indices : List Nat} {i : Nat}
    (notVisited : i ∉ indices) (cell : Nat → α → α) (buf : Nat → α) :
    replaceEach indices cell buf i = buf i := by
  induction indices generalizing buf with
  | nil => rfl
  | cons first rest ih =>
    rw [List.mem_cons, not_or] at notVisited
    rw [replaceEach_cons, ih notVisited.2]
    exact update_of_ne notVisited.1 _ _

theorem replaceEach_of_mem {indices : List Nat} {i : Nat} (visited : i ∈ indices)
    (distinct : indices.Nodup) (cell : Nat → α → α) (buf : Nat → α) :
    replaceEach indices cell buf i = cell i (buf i) := by
  induction indices generalizing buf with
  | nil => cases visited
  | cons first rest ih =>
    rw [List.nodup_cons] at distinct
    rw [replaceEach_cons]
    by_cases isFirst : i = first
    · rw [isFirst, replaceEach_of_notMem distinct.1, update_self]
    · have isRest : i ∈ rest := (List.mem_cons.mp visited).resolve_left isFirst
      rw [ih isRest distinct.2, update_of_ne isFirst]

@[simp]
theorem replaceEach_range {n i : Nat} (inside : i < n) (cell : Nat → α → α) (buf : Nat → α) :
    replaceEach (List.range n) cell buf i = cell i (buf i) :=
  replaceEach_of_mem (List.mem_range.mpr inside) List.nodup_range cell buf

theorem replaceEach_range_outside
    {n i : Nat} (outside : n ≤ i) (cell : Nat → α → α) (buf : Nat → α) :
    replaceEach (List.range n) cell buf i = buf i := by
  apply replaceEach_of_notMem
  rw [List.mem_range]
  omega

/-- Tasks that share a loop between them do the whole loop. -/
theorem foldl_replaceEach {τ : Type v} (tasks : List τ) (indices : τ → List Nat)
    (cell : Nat → α → α) (buf : Nat → α) :
    tasks.foldl (fun buf task => replaceEach (indices task) cell buf) buf =
      replaceEach (tasks.flatMap indices) cell buf := by
  induction tasks generalizing buf with
  | nil => rfl
  | cons task rest ih => rw [List.foldl_cons, ih, List.flatMap_cons, replaceEach_append]

/-- Passes over the same cells, one after the other: every cell goes through
the passes on its own. -/
theorem foldl_passes {τ : Type v} (passes : List τ) {n i : Nat} (inside : i < n)
    (cell : τ → Nat → α → α) (buf : Nat → α) :
    passes.foldl (fun buf pass => replaceEach (List.range n) (cell pass) buf) buf i =
      passes.foldl (fun value pass => cell pass i value) (buf i) := by
  induction passes generalizing buf with
  | nil => rfl
  | cons pass rest ih => rw [List.foldl_cons, List.foldl_cons, ih, replaceEach_range inside]

theorem foldl_passes_outside {τ : Type v} (passes : List τ) {n i : Nat}
    (outside : n ≤ i) (cell : τ → Nat → α → α) (buf : Nat → α) :
    passes.foldl (fun buf pass => replaceEach (List.range n) (cell pass) buf) buf i = buf i := by
  induction passes generalizing buf with
  | nil => rfl
  | cons pass rest ih => rw [List.foldl_cons, ih, replaceEach_range_outside outside]

section Tasks

variable {σ : Type u} {τ : Type v} {β : Type w} {step : σ → τ → σ} {tasks : List τ}

theorem foldl_cell_of_others (read : σ → β)
    (others : ∀ s, ∀ task ∈ tasks, read (step s task) = read s) (s : σ) :
    read (tasks.foldl step s) = read s := by
  induction tasks generalizing s with
  | nil => rfl
  | cons task rest ih =>
    rw [List.foldl_cons, ih, others s task (List.mem_cons_self ..)]
    intro later again isLater
    exact others later again (List.mem_cons_of_mem task isLater)

/-- A cell that one task writes and the others leave alone, in whatever order
they are done. -/
theorem foldl_cell_of_owner [DecidableEq τ] (read : σ → β) (inv : σ → Prop) {owner : τ} {value : β}
    (kept : ∀ s task, inv s → inv (step s task)) (writes : ∀ s, inv s → read (step s owner) = value)
    (others : ∀ s, ∀ task ∈ tasks, task ≠ owner → read (step s task) = read s)
    (isTask : owner ∈ tasks) {s : σ} (starts : inv s) :
    read (tasks.foldl step s) = value := by
  induction tasks generalizing s with
  | nil => cases isTask
  | cons task rest ih =>
    rw [List.foldl_cons]
    have laterOthers (s : σ) (again : τ) (isLater : again ∈ rest) :=
      others s again (List.mem_cons_of_mem task isLater)
    by_cases isRest : owner ∈ rest
    · exact ih laterOthers isRest (kept s task starts)
    · have isFirst : owner = task := (List.mem_cons.mp isTask).resolve_right isRest
      have unchanged : ∀ s, ∀ again ∈ rest, read (step s again) = read s := by
        intro s again isLater
        apply laterOthers s again isLater
        rintro rfl
        exact isRest isLater
      rw [foldl_cell_of_others read unchanged, ← isFirst]
      exact writes s starts

end Tasks

/-- Work on a buffer through a pointer to the cell at `offset`. -/
def fromOffset (offset : Nat) (work : (Nat → α) → Nat → α) (buf : Nat → α) : Nat → α :=
  fun i =>
    if i < offset then buf i
    else work (fun j => buf (offset + j)) (i - offset)

@[simp]
theorem fromOffset_add (offset : Nat) (work : (Nat → α) → Nat → α) (buf : Nat → α) (j : Nat) :
    fromOffset offset work buf (offset + j) = work (fun j => buf (offset + j)) j := by
  rw [fromOffset, if_neg (by omega), Nat.add_sub_cancel_left]

theorem fromOffset_of_lt {offset i : Nat} (before : i < offset)
    (work : (Nat → α) → Nat → α) (buf : Nat → α) :
    fromOffset offset work buf i = buf i := by
  rw [fromOffset, if_pos before]

theorem fromOffset_fromOffset (offset : Nat) (first second : (Nat → α) → Nat → α) (buf : Nat → α) :
    fromOffset offset second (fromOffset offset first buf) =
      fromOffset offset (fun buf => second (first buf)) buf := by
  funext i
  by_cases before : i < offset
  · simp only [fromOffset_of_lt before]
  · obtain ⟨j, isIndex⟩ : ∃ j, i = offset + j := ⟨i - offset, by omega⟩
    simp only [isIndex, fromOffset_add]

theorem fromOffset_id (offset : Nat) (buf : Nat → α) :
    fromOffset offset (fun buf => buf) buf = buf := by
  funext i
  by_cases before : i < offset
  · rw [fromOffset_of_lt before]
  · obtain ⟨j, isIndex⟩ : ∃ j, i = offset + j := ⟨i - offset, by omega⟩
    rw [isIndex, fromOffset_add]

theorem fromOffset_outside {offset n i : Nat} {work : (Nat → α) → Nat → α} {buf : Nat → α}
    (keeps : ∀ j, n ≤ j → work (fun j => buf (offset + j)) j = buf (offset + j))
    (outside : i < offset ∨ offset + n ≤ i) :
    fromOffset offset work buf i = buf i := by
  rcases outside with before | behind
  · exact fromOffset_of_lt before work buf
  · obtain ⟨j, isIndex⟩ : ∃ j, i = offset + j := ⟨i - offset, by omega⟩
    rw [isIndex, fromOffset_add, keeps j (by omega)]

def block (size total t : Nat) : List Nat :=
  List.range' (t * size) (min (t * size + size) total - t * size)

theorem flatMap_block_eq_min (size total count : Nat) :
    (List.range count).flatMap (block size total) = List.range (min (count * size) total) := by
  induction count with
  | zero => simp
  | succ count ih =>
    rw [List.range_succ, List.flatMap_append, ih, List.flatMap_singleton,
      block, List.range_eq_range', List.range_eq_range', Nat.succ_mul]
    by_cases within : count * size ≤ total
    · rw [Nat.min_eq_left within]
      have joined :
          List.range' 0 (count * size) ++
              List.range' (0 + count * size) (min (count * size + size) total - count * size) =
            List.range' 0 (_ + _) :=
        List.range'_append_1
      rw [Nat.zero_add] at joined
      rw [joined]
      congr 1
      omega
    · have nothing :
          min (count * size + size) total - count * size = 0 := by
        omega
      rw [nothing, List.range'_zero, List.append_nil]
      congr 1
      omega

/-- Enough blocks cover the range, in order and without overlap. -/
theorem flatMap_block {size total count : Nat} (covered : total ≤ count * size) :
    (List.range count).flatMap (block size total) = List.range total := by
  rw [flatMap_block_eq_min, Nat.min_eq_right covered]

end LlmRuntime.Buffer
