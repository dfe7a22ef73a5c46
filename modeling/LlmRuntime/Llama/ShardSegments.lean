import LlmRuntime.Library.Execution
import LlmRuntime.Llama.Checkpoint

/-!
# The segments a worker attaches

`shard_release` detaches the segments of `shard_t` only when the load had set
`loaded`: a load that fails behind its first `shmat` leaves segments attached.
-/

namespace LlmRuntime.ShardSegments

open DistInf LlamaCore Execution Function

universe u

/-- What the kernel does while a shard is loaded: whether `shmget` finds or
makes the segment of a layer, and where `shmat` maps it if it does.  An address
is not the null pointer, and is not in use already. -/
structure ShmEnv extends LoadEnv where
  finds : Nat → Bool
  address : Nat → Finset Nat → Nat
  address_fresh : ∀ l attached, address l attached ∉ attached
  address_ne_zero : ∀ l attached, address l attached ≠ 0

/-- The fields of `shard_t` that `shard_release` reads. -/
structure Handles where
  layerStart : Int
  layerEnd : Int
  segs : Nat → Nat
  loaded : Bool

/-- The shard of a process, and the addresses at which its loads attached
segments that are not detached. -/
structure Process where
  sh : Handles
  attached : Finset Nat

def Process.start : Process :=
  ⟨⟨0, 0, fun _ => 0, false⟩, ∅⟩

def shmdt (attached : Finset Nat) (seg : Nat) : Finset Nat := attached.erase seg

def shardRelease (proc : Process) : Process :=
  let sh := proc.sh
  if ¬ sh.loaded then proc
  else
    { sh := { sh with loaded := false }
      attached :=
        (List.range (sh.layerEnd - sh.layerStart).toNat).foldl
          (fun attached i =>
            if sh.segs i ≠ 0 then shmdt attached (sh.segs i) else attached)
          proc.attached }

section Load

variable (file : List UInt8) (p : Geometry) (env : ShmEnv)

/-- All nine tensors of the layer arrive. -/
def layerFetched (l : Nat) : Bool :=
  ((List.range 9).foldlM (loadTensor file p l (env.transfers l))
    (env.segments (shardSegmentName l))).isSome

/-- One turn of the loop over the layers; `false` leaves the function. -/
def attachLayer (first : Nat) (proc : Process) (l : Nat) : Process × Bool :=
  if ¬ env.finds l then (proc, false)
  else if ¬ env.attaches l then (proc, false)
  else
    let seg := env.address l proc.attached
    ({ sh :=
        { proc.sh with segs := update proc.sh.segs (l - first) seg }
       attached := insert seg proc.attached },
      layerFetched file p env l)

def attachLayers (first : Nat) :
    List Nat → Process → Process × Bool
  | [], proc => (proc, true)
  | l :: rest, proc =>
    let (proc, goesOn) := attachLayer file p env first proc l
    if goesOn then attachLayers first rest proc else (proc, false)

end Load

def runStateFits (p : Config) (memory : Bool) : Bool :=
  memory ∧ ∀ num ∈ runStateCounts p, num.toNat ≤ (2 ^ 32 - 1) / 4

/-- `shard_load`, with what it returns; there is no result if the process ends
for want of memory. -/
def shardLoad (file : List UInt8) (cfg : Config) (l0 l1 maxSeq : Int) (env : ShmEnv)
    (proc : Process) : Option (Process × Int) :=
  if l0 < 0 ∨ l1 > cfg.nLayers ∨ l0 ≥ l1 then some (proc, -1)
  else if l1 - l0 > shardMaxLayers then some (proc, -1)
  else
    let cleared := { proc with sh := ⟨l0, l1, fun _ => 0, false⟩ }
    let maxSeq := if maxSeq ≤ 0 then shardDefaultMaxSeq else maxSeq
    let maxSeq := if maxSeq > cfg.seqLen then cfg.seqLen else maxSeq
    let own := { cfg with nLayers := l1 - l0, seqLen := maxSeq }
    let (proc, complete) :=
      attachLayers file (geometryOf cfg) env l0.toNat (List.range' l0.toNat (l1 - l0).toNat) cleared
    if ¬ complete then some (proc, -1)
    else if ¬ runStateFits own env.memory then none
    else some ({ proc with sh := { proc.sh with loaded := true } }, 0)

/-- An assignment, with what the weight server and the kernel do for it. -/
structure Assigned where
  assignment : AssignLayers
  header : Option Config
  file : List UInt8
  env : ShmEnv

/-- The header that the thread loads with, if it comes so far. -/
def Assigned.config (event : Assigned) : Option Config :=
  event.header.filter fun cfg =>
    cfg.isPlausible && geometryAgrees cfg event.assignment

/-- The thread handles an assignment; `none` is a process that has ended. -/
def assign (state : Option Process) (event : Assigned) : Option Process :=
  state.bind fun proc =>
    let released := shardRelease proc
    match event.config with
    | none => some released
    | some cfg =>
      (shardLoad event.file cfg (asInt event.assignment.layerStart)
        (asInt event.assignment.layerEnd) (asInt event.assignment.maxSeq)
        event.env released).map Prod.fst

/-- What is still attached after the release at the head of the next
assignment. -/
def stranded : Option Process → Finset Nat
  | none => ∅
  | some proc => (shardRelease proc).attached

/-- The layer is attached and filled. -/
def Resident (file : List UInt8) (p : Geometry) (env : ShmEnv) (l : Nat) : Prop :=
  env.finds l ∧ env.attaches l ∧ layerFetched file p env l

/-- A load of the range attaches no segment, or attaches and fills one for
every layer. -/
def AllOrNothing (file : List UInt8) (cfg : Config) (l0 l1 : Int) (env : ShmEnv) : Prop :=
  0 ≤ l0 ∧ l1 ≤ cfg.nLayers ∧ l0 < l1 ∧ l1 - l0 ≤ shardMaxLayers →
    env.finds l0.toNat ∧ env.attaches l0.toNat →
      ∀ l ∈ List.range' l0.toNat (l1 - l0).toNat, Resident file (geometryOf cfg) env l

/-- If the assignment is loaded at all, it is loaded so. -/
def Assigned.AllOrNothing (event : Assigned) : Prop :=
  ∀ cfg ∈ event.config,
    ShardSegments.AllOrNothing event.file cfg (asInt event.assignment.layerStart)
      (asInt event.assignment.layerEnd) event.env

/-- The handles of the shard tell where every attached segment is. -/
def Process.Tracked (proc : Process) : Prop :=
  ∀ seg ∈ proc.attached,
    proc.sh.loaded ∧
      ∃ i < (proc.sh.layerEnd - proc.sh.layerStart).toNat, proc.sh.segs i ≠ 0 ∧ proc.sh.segs i = seg

theorem mem_detached_iff (segs : Nat → Nat) (indices : List Nat)
    (attached : Finset Nat) (seg : Nat) :
    seg ∈ indices.foldl
        (fun attached i =>
          if segs i ≠ 0 then shmdt attached (segs i) else attached)
        attached ↔
      seg ∈ attached ∧ ¬ ∃ i ∈ indices, segs i ≠ 0 ∧ segs i = seg := by
  induction indices generalizing attached with
  | nil => simp
  | cons index rest ih =>
    rw [List.foldl_cons, ih]
    simp only [List.exists_mem_cons_iff, not_or]
    by_cases isNull : segs index ≠ 0
    · rw [if_pos isNull, shmdt, Finset.mem_erase]
      tauto
    · rw [if_neg isNull]
      tauto

theorem shardRelease_empty_iff (proc : Process) :
    (shardRelease proc).attached = ∅ ↔ proc.Tracked := by
  rw [shardRelease, Process.Tracked, Finset.eq_empty_iff_forall_notMem]
  refine forall_congr' fun seg => ?_
  by_cases isLoaded : proc.sh.loaded
  · rw [if_neg (not_not.mpr isLoaded), mem_detached_iff]
    simp only [isLoaded, List.mem_range, true_and]
    exact not_and_not_right
  · rw [if_pos isLoaded]
    tauto

theorem shardRelease_loaded (proc : Process) : (shardRelease proc).sh.loaded = false := by
  rw [shardRelease]
  by_cases isLoaded : proc.sh.loaded
  · rw [if_neg (not_not.mpr isLoaded)]
  · rw [if_pos isLoaded]
    exact Bool.eq_false_iff.mpr isLoaded

section Load

variable {file : List UInt8} {p : Geometry} {env : ShmEnv} {first : Nat}

theorem attachLayer_refused {l : Nat}
    (refused : ¬ (env.finds l ∧ env.attaches l)) (proc : Process) :
    attachLayer file p env first proc l = (proc, false) := by
  rw [attachLayer]
  by_cases finds : env.finds l
  · rw [if_neg (not_not.mpr finds),
      if_pos fun attaches => refused ⟨finds, attaches⟩]
  · rw [if_pos finds]

theorem attachLayer_attached {l : Nat} (attaches : env.finds l ∧ env.attaches l) (proc : Process) :
    attachLayer file p env first proc l =
      (⟨{ proc.sh with
            segs := update proc.sh.segs (l - first) (env.address l proc.attached) },
          insert (env.address l proc.attached) proc.attached⟩,
        layerFetched file p env l) := by
  rw [attachLayer, if_neg (not_not.mpr attaches.1), if_neg (not_not.mpr attaches.2)]

theorem attachLayer_subset (proc : Process) (l : Nat) :
    proc.attached ⊆ (attachLayer file p env first proc l).1.attached := by
  by_cases attaches : env.finds l ∧ env.attaches l
  · rw [attachLayer_attached attaches]
    exact Finset.subset_insert _ _
  · rw [attachLayer_refused attaches]

theorem attachLayer_goesOn_iff (proc : Process) (l : Nat) :
    (attachLayer file p env first proc l).2 = true ↔ Resident file p env l := by
  rw [Resident, ← and_assoc]
  by_cases attaches : env.finds l ∧ env.attaches l
  · rw [attachLayer_attached attaches, and_iff_right attaches]
  · rw [attachLayer_refused attaches]
    exact iff_of_false Bool.false_ne_true fun both => attaches both.1

theorem attachLayers_subset (layers : List Nat) (proc : Process) :
    proc.attached ⊆ (attachLayers file p env first layers proc).1.attached := by
  induction layers generalizing proc with
  | nil => exact Finset.Subset.refl _
  | cons l rest ih =>
    have oneLayer := @attachLayer_subset file p env first proc l
    rw [attachLayers]
    dsimp only
    split_ifs
    · exact oneLayer.trans (ih _)
    · exact oneLayer

theorem attachLayers_complete_iff (layers : List Nat) (proc : Process) :
    (attachLayers file p env first layers proc).2 = true ↔ ∀ l ∈ layers, Resident file p env l := by
  induction layers generalizing proc with
  | nil => simp [attachLayers]
  | cons l rest ih =>
    rw [attachLayers, List.forall_mem_cons, ← @attachLayer_goesOn_iff _ _ _ first proc l]
    dsimp only
    split_ifs with goesOn
    · rw [ih, and_iff_right goesOn]
    · exact iff_of_false not_false fun both => goesOn both.1

/-- Every attached segment is at one of the first `count` handles. -/
def Recorded (count : Nat) (proc : Process) : Prop :=
  ∀ seg ∈ proc.attached, ∃ i < count, proc.sh.segs i ≠ 0 ∧ proc.sh.segs i = seg

theorem attachLayer_recorded {count : Nat} {proc : Process} (recorded : Recorded count proc)
    (attaches : env.finds (first + count) ∧ env.attaches (first + count)) :
    Recorded (count + 1) (attachLayer file p env first proc (first + count)).1 := by
  rw [attachLayer_attached attaches, Nat.add_sub_cancel_left]
  intro seg isAttached
  rcases Finset.mem_insert.mp isAttached with isNew | isOld
  · refine ⟨count, Nat.lt_succ_self count, ?_⟩
    dsimp only
    rw [update_self]
    exact ⟨env.address_ne_zero _ _, isNew.symm⟩
  · obtain ⟨i, below, isHandle⟩ := recorded seg isOld
    refine ⟨i, Nat.lt_succ_of_lt below, ?_⟩
    dsimp only
    rwa [update_of_ne (Nat.ne_of_lt below)]

theorem attachLayer_range (proc : Process) (l : Nat) :
    (attachLayer file p env first proc l).1.sh.layerStart = proc.sh.layerStart ∧
      (attachLayer file p env first proc l).1.sh.layerEnd = proc.sh.layerEnd := by
  by_cases attaches : env.finds l ∧ env.attaches l
  · rw [attachLayer_attached attaches]
    exact ⟨rfl, rfl⟩
  · rw [attachLayer_refused attaches]
    exact ⟨rfl, rfl⟩

theorem attachLayers_recorded {done : Nat} {proc : Process} (recorded : Recorded done proc)
    (count : Nat) (resident : ∀ l ∈ List.range' (first + done) count, Resident file p env l) :
    let loaded := (attachLayers file p env first (List.range' (first + done) count) proc).1
    Recorded (done + count) loaded ∧
      loaded.sh.layerStart = proc.sh.layerStart ∧
      loaded.sh.layerEnd = proc.sh.layerEnd := by
  induction count generalizing done proc with
  | zero => exact ⟨recorded, rfl, rfl⟩
  | succ count ih =>
    rw [List.range'_succ] at resident ⊢
    obtain ⟨isResident, later⟩ := List.forall_mem_cons.mp resident
    have range := @attachLayer_range file p env first proc (first + done)
    have oneLayer := @attachLayer_recorded file p _ _ _ _ recorded ⟨isResident.1, isResident.2.1⟩
    have goesOn := (@attachLayer_goesOn_iff _ _ _ first proc (first + done)).mpr isResident
    have index : done + (count + 1) = done + 1 + count := by omega
    rw [attachLayers]
    dsimp only
    rw [if_pos goesOn, ← range.1, ← range.2, index]
    exact ih oneLayer later

/-- Whatever the process had, a load that fails behind its first `shmat` leaves
it with a segment that no handle will lead to. -/
theorem attachLayers_not_empty {l : Nat} (rest : List Nat) (proc : Process)
    (attaches : env.finds l ∧ env.attaches l) :
    (attachLayers file p env first (l :: rest) proc).1.attached ≠ ∅ := by
  have isAttached :
      env.address l proc.attached ∈ (attachLayer file p env first proc l).1.attached := by
    rw [attachLayer_attached attaches]
    exact Finset.mem_insert_self _ _
  rw [attachLayers]
  dsimp only
  split_ifs
  · exact Finset.ne_empty_of_mem (attachLayers_subset _ _ isAttached)
  · exact Finset.ne_empty_of_mem isAttached

theorem attachLayers_refused {l : Nat} (rest : List Nat) (proc : Process)
    (refused : ¬ (env.finds l ∧ env.attaches l)) :
    attachLayers file p env first (l :: rest) proc = (proc, false) := by
  rw [attachLayers, attachLayer_refused refused]
  rfl

theorem attachLayer_loaded (proc : Process) (l : Nat) :
    (attachLayer file p env first proc l).1.sh.loaded = proc.sh.loaded := by
  by_cases attaches : env.finds l ∧ env.attaches l
  · rw [attachLayer_attached attaches]
  · rw [attachLayer_refused attaches]

theorem attachLayers_loaded (layers : List Nat) (proc : Process) :
    (attachLayers file p env first layers proc).1.sh.loaded = proc.sh.loaded := by
  induction layers generalizing proc with
  | nil => rfl
  | cons l rest ih =>
    rw [attachLayers]
    dsimp only
    split_ifs
    · rw [ih, attachLayer_loaded]
    · exact attachLayer_loaded proc l

end Load

theorem tracked_iff_of_not_loaded {proc : Process} (notLoaded : proc.sh.loaded = false) :
    proc.Tracked ↔ proc.attached = ∅ := by
  rw [← shardRelease_empty_iff, shardRelease, notLoaded, if_pos Bool.false_ne_true]

section Assignment

variable {file : List UInt8} {cfg : Config} {l0 l1 : Int} {env : ShmEnv} {proc : Process}

theorem attachLayers_tracked (nothing : proc.attached = ∅)
    (complete : ∀ l ∈ List.range' l0.toNat (l1 - l0).toNat, Resident file (geometryOf cfg) env l) :
    let loaded :=
      (attachLayers file (geometryOf cfg) env l0.toNat
        (List.range' l0.toNat (l1 - l0).toNat)
        { proc with sh := ⟨l0, l1, fun _ => 0, false⟩ }).1
    Process.Tracked { loaded with sh := { loaded.sh with loaded := true } } := by
  have empty : Recorded 0 ⟨⟨l0, l1, fun _ => 0, false⟩, proc.attached⟩ := by
    intro seg isAttached
    rw [nothing] at isAttached
    exact absurd isAttached (Finset.notMem_empty seg)
  obtain ⟨recorded, isStart, isEnd⟩ := @attachLayers_recorded _ _ _ l0.toNat _ _ empty _ complete
  rw [Nat.add_zero, Nat.zero_add] at recorded
  rw [Nat.add_zero] at isStart isEnd
  intro loaded seg isAttached
  refine ⟨rfl, ?_⟩
  dsimp only [loaded]
  rw [isStart, isEnd]
  exact recorded seg isAttached

/-- A load by a process that has nothing attached keeps track of its segments
if and only if it attaches none or fills all. -/
theorem shardLoad_tracked_iff (maxSeq : Int) (nothing : proc.attached = ∅)
    (notLoaded : proc.sh.loaded = false) :
    (∀ result ∈ shardLoad file cfg l0 l1 maxSeq env proc, result.1.Tracked) ↔
      AllOrNothing file cfg l0 l1 env := by
  rw [shardLoad, AllOrNothing]
  by_cases badRange : l0 < 0 ∨ l1 > cfg.nLayers ∨ l0 ≥ l1
  · rw [if_pos badRange]
    refine iff_of_true ?_ fun inRange => absurd badRange (by omega)
    intro result isResult
    rw [← Option.some.inj isResult]
    exact (tracked_iff_of_not_loaded notLoaded).mpr nothing
  by_cases tooMany : l1 - l0 > shardMaxLayers
  · rw [if_neg badRange, if_pos tooMany]
    refine iff_of_true ?_ fun inRange => absurd tooMany (by omega)
    intro result isResult
    rw [← Option.some.inj isResult]
    exact (tracked_iff_of_not_loaded notLoaded).mpr nothing
  rw [if_neg badRange, if_neg tooMany, imp_iff_right (by omega)]
  dsimp only
  obtain ⟨n, isCount⟩ : ∃ n, (l1 - l0).toNat = n + 1 := Nat.exists_eq_succ_of_ne_zero (by omega)
  by_cases attaches : env.finds l0.toNat ∧ env.attaches l0.toNat
  rotate_left
  · rw [isCount, List.range'_succ, attachLayers_refused _ _ attaches, if_pos Bool.false_ne_true]
    refine iff_of_true ?_ fun both => absurd both attaches
    intro result isResult
    rw [← Option.some.inj isResult]
    exact (tracked_iff_of_not_loaded rfl).mpr nothing
  rw [imp_iff_right attaches]
  by_cases complete :
      ∀ l ∈ List.range' l0.toNat (l1 - l0).toNat, Resident file (geometryOf cfg) env l
  · refine iff_of_true ?_ complete
    rw [if_neg (not_not.mpr ((attachLayers_complete_iff _ _).mpr complete))]
    generalize runStateFits _ env.memory = fits
    intro result isResult
    cases fits with
    | false => cases isResult
    | true =>
      rw [← Option.some.inj isResult]
      exact attachLayers_tracked nothing complete
  · refine iff_of_false ?_ complete
    rw [if_pos fun goesThrough =>
      complete ((attachLayers_complete_iff _ _).mp goesThrough)]
    intro tracked
    have isTracked := tracked _ rfl
    rw [tracked_iff_of_not_loaded (attachLayers_loaded _ _), isCount, List.range'_succ] at isTracked
    exact attachLayers_not_empty _ _ attaches isTracked

end Assignment

/-- One assignment: whatever was tracked before it, afterwards everything is
again if and only if the load was all or nothing. -/
theorem assign_stranded_iff {proc : Process} (tracked : proc.Tracked) (event : Assigned) :
    stranded (assign (some proc) event) = ∅ ↔ event.AllOrNothing := by
  have nothing := (shardRelease_empty_iff proc).mpr tracked
  have notLoaded := shardRelease_loaded proc
  rw [assign, Option.bind_some, Assigned.AllOrNothing]
  dsimp only
  cases isConfig : event.config with
  | none =>
    dsimp only
    refine iff_of_true ?_ fun cfg isSome => by cases isSome
    rw [stranded, shardRelease_empty_iff, tracked_iff_of_not_loaded notLoaded]
    exact nothing
  | some cfg =>
    dsimp only
    simp only [Option.mem_some_iff, forall_eq']
    rw [← shardLoad_tracked_iff (asInt event.assignment.maxSeq) nothing notLoaded]
    cases shardLoad event.file cfg (asInt event.assignment.layerStart)
        (asInt event.assignment.layerEnd)
        (asInt event.assignment.maxSeq) event.env (shardRelease proc) with
    | none => exact iff_of_true rfl fun result isSome => by cases isSome
    | some result =>
      rw [Option.map_some, stranded, shardRelease_empty_iff]
      simp only [Option.mem_some_iff, forall_eq']

/-- No release leaves a segment attached if and only if every load that reaches
a successful `shmat` goes on to fill all layers of its range. -/
theorem release_detachesAll_iff (events : List Assigned) :
    (∀ initial, initial <+: events → stranded (after assign (some Process.start) initial) = ∅) ↔
      Along assign (fun state event => state.isSome → event.AllOrNothing)
        (some Process.start) events := by
  induction events using List.reverseRecOn with
  | nil =>
    refine iff_of_true ?_ trivial
    intro initial isInitial
    rw [List.prefix_nil.mp isInitial]
    rfl
  | append_singleton events event ih =>
    simp only [List.prefix_concat_iff, or_imp, forall_and, forall_eq]
    rw [along_snoc, ← ih, and_comm]
    refine and_congr_right fun earlier => ?_
    have before := earlier events (List.prefix_refl events)
    rw [after_snoc]
    cases isState : after assign (some Process.start) events with
    | none => exact iff_of_true rfl fun running => by cases running
    | some proc =>
      rw [isState, stranded, shardRelease_empty_iff] at before
      rw [assign_stranded_iff before event, Option.isSome_some, imp_iff_right rfl]

/-- A node whose weight server does not answer: the segment of the first layer
is attached, and its first tensor does not arrive. -/
def silentServer : ShmEnv where
  segments := fun _ _ => 0
  attaches := fun _ => true
  transfers := fun _ _ => false
  memory := true
  pool := ⟨false, 1, Nat.one_pos⟩
  finds := fun _ => true
  address := fun _ attached => attached.sup id + 1
  address_fresh := by
    intro l attached isIn
    exact absurd (Finset.le_sup (f := id) isIn) (Nat.not_succ_le_self _)
  address_ne_zero := fun _ _ => Nat.succ_ne_zero _

/-- Layers `[0, 3)` of a model with six, whose header arrives. -/
def lostAssignment : Assigned where
  assignment := ⟨1, 1, 0, 3, 6, 288, 768, 6, 6, 256, 32000, 0, 0, 0⟩
  header := some ⟨288, 768, 6, 6, 6, 32000, 256⟩
  file := []
  env := silentServer

/-- Each of the two loads leaves a segment behind for good. -/
theorem lostAssignment_strands :
    stranded (after assign (some Process.start) [lostAssignment]) = {1} ∧
      stranded (after assign (some Process.start) [lostAssignment, lostAssignment]) = {1, 2} := by
  decide +kernel

end LlmRuntime.ShardSegments
