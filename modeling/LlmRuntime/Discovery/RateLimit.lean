import LlmRuntime.Discovery.Handlers
import LlmRuntime.Library.Execution
import LlmRuntime.Library.TokenBucket

/-!
# Admission control

`disc_rl_allow` keeps a token bucket for each peer it has room for.  The rate
holds for a peer as long as its bucket is not taken from it before it is full
again.
-/

namespace LlmRuntime.Discovery

open Execution TokenBucket Function

/-- A call of `disc_rl_allow`.  Times are ticks since the start; the function
is given their low 32 bits. -/
structure RlCall where
  addr : RpcAddr
  time : Nat
  deriving DecidableEq, Repr

def RlCall.now (call : RlCall) : UInt32 := UInt32.ofNat call.time

/-- The buckets, and the calls admitted so far. -/
structure Limiter where
  buckets : DiscRl
  admitted : List RlCall

def Limiter.init : Limiter :=
  ⟨Master.init.discRl, []⟩

def limiterNext (limiter : Limiter) (call : RlCall) : Limiter :=
  let result := discRlAllow limiter.buckets call.addr call.now
  ⟨result.1,
    if result.2 then limiter.admitted ++ [call] else limiter.admitted⟩

def admittedBetween (limiter : Limiter) (peer : RpcAddr) (start stop : Nat) : Nat :=
  (limiter.admitted.filter fun call =>
    call.addr = peer ∧ start ≤ call.time ∧ call.time ≤ stop).length

/-- The clock does not go back, and the run is shorter than half its range. -/
structure ClockOrdered (calls : List RlCall) : Prop where
  ordered : calls.Pairwise fun earlier later => earlier.time ≤ later.time
  span : ∀ first ∈ calls, ∀ last ∈ calls, last.time < first.time + 2 ^ 31

def DiscBucket.addr (bucket : DiscBucket) : RpcAddr :=
  ⟨bucket.ip, bucket.port⟩

/-- Slot `i` is the bucket of this peer. -/
def Holds (buckets : DiscRl) (peer : RpcAddr) (i : Fin discoveryRlSlots) : Prop :=
  (buckets i).used = true ∧ (buckets i).addr = peer

instance (buckets : DiscRl) (peer : RpcAddr) (i : Fin discoveryRlSlots) :
    Decidable (Holds buckets peer i) := inferInstanceAs (Decidable (_ ∧ _))

/-- Slot `i` is in use with a token left, no other has more, and none before it
has as many. -/
def FirstFullest (buckets : DiscRl) (i : Fin discoveryRlSlots) : Prop :=
  (buckets i).used = true ∧ 0 < (buckets i).tokens ∧
    ∀ j, (buckets j).used = true →
      (buckets j).tokens ≤ (buckets i).tokens ∧ (j < i → (buckets j).tokens < (buckets i).tokens)

instance (buckets : DiscRl) (i : Fin discoveryRlSlots) : Decidable (FirstFullest buckets i) :=
  inferInstanceAs (Decidable (_ ∧ _))

/-- Either the caller has its bucket, or the fullest bucket has no token left or
is full again by now. -/
def ClaimHarmless (limiter : Limiter) (call : RlCall) : Prop :=
  (∃ i, Holds limiter.buckets call.addr i) ∨
    ∀ i, FirstFullest limiter.buckets i →
      discoveryRlBurst ≤
        (limiter.buckets i).tokens + ((call.now - (limiter.buckets i).last).toNat : Int)

instance (limiter : Limiter) (call : RlCall) : Decidable (ClaimHarmless limiter call) :=
  inferInstanceAs (Decidable (_ ∨ _))

section Scan

variable {buckets : DiscRl} {peer : RpcAddr}

def lruPass (buckets : DiscRl) (lru i : Fin discoveryRlSlots) : Fin discoveryRlSlots :=
  if ¬ (buckets i).used ∨ (buckets i).tokens > (buckets lru).tokens then i
  else lru

def freshBucket (peer : RpcAddr) (now : UInt32) : DiscBucket :=
  ⟨peer.ip, peer.port, discoveryRlBurst, now, true⟩

def claimedSlot (buckets : DiscRl) : Fin discoveryRlSlots :=
  (List.finRange discoveryRlSlots).foldl (lruPass buckets) 0

theorem holds_iff (i : Fin discoveryRlSlots) :
    Holds buckets peer i ↔
      (buckets i).used = true ∧ (buckets i).ip = peer.ip ∧ (buckets i).port = peer.port := by
  cases peer
  simp [Holds, DiscBucket.addr]

theorem discRlScan_of_nobody (nobody : ∀ i, ¬ Holds buckets peer i)
    (slots : List (Fin discoveryRlSlots)) (lru : Fin discoveryRlSlots) :
    discRlScan buckets peer slots lru = (none, slots.foldl (lruPass buckets) lru) := by
  induction slots generalizing lru with
  | nil => rfl
  | cons i rest ih =>
    have notHere := nobody i
    rw [holds_iff] at notHere
    rw [discRlScan, if_neg notHere, ih]
    rfl

theorem discRlScan_of_holds {i : Fin discoveryRlSlots} (holds : Holds buckets peer i)
    (unique : ∀ j, Holds buckets peer j → j = i) {slots : List (Fin discoveryRlSlots)}
    (member : i ∈ slots) (lru : Fin discoveryRlSlots) :
    (discRlScan buckets peer slots lru).1 = some i := by
  induction slots generalizing lru with
  | nil => exact absurd member List.not_mem_nil
  | cons j rest ih =>
    by_cases here : Holds buckets peer j
    · have same := unique j here
      subst same
      rw [discRlScan, if_pos ((holds_iff j).mp here)]
    · have inRest : i ∈ rest := by
        rcases List.mem_cons.mp member with same | inRest
        · exact absurd (same ▸ holds) here
        · exact inRest
      rw [holds_iff] at here
      rw [discRlScan, if_neg here]
      exact ih inRest _

/-- Among the slots seen so far, `lru` is the last that was never used and the
buckets seen are all empty, or it is the first fullest of them. -/
def Chosen (buckets : DiscRl) (seen : List (Fin discoveryRlSlots))
    (lru : Fin discoveryRlSlots) : Prop :=
  lru ∈ seen ∧
    (((buckets lru).used = false ∧
        ∀ j ∈ seen, (lru < j → (buckets j).used = true) ∧
          ((buckets j).used = true → (buckets j).tokens ≤ 0)) ∨
      ((buckets lru).used = true ∧ 0 < (buckets lru).tokens ∧
        ∀ j ∈ seen, (buckets j).used = true →
          (buckets j).tokens ≤ (buckets lru).tokens ∧
            (j < lru → (buckets j).tokens < (buckets lru).tokens)))

variable
  (usedAbove : ∀ i j, i ≤ j → (buckets i).used = true → (buckets j).used = true)
  (blank : ∀ i, (buckets i).used = false → (buckets i).tokens = 0)

include usedAbove blank

theorem Chosen.pass {seen : List (Fin discoveryRlSlots)} {lru i : Fin discoveryRlSlots}
    (chosen : Chosen buckets seen lru) (behind : ∀ j ∈ seen, j < i) :
    Chosen buckets (seen ++ [i]) (lruPass buckets lru i) := by
  obtain ⟨member, cases⟩ := chosen
  unfold lruPass
  by_cases used : (buckets i).used = true
  · by_cases fuller : (buckets i).tokens > (buckets lru).tokens
    · rw [if_pos (Or.inr fuller)]
      refine ⟨by simp, Or.inr ⟨used, ?_, ?_⟩⟩
      · rcases cases with ⟨unused, _⟩ | ⟨_, token, _⟩
        · rw [blank lru unused] at fuller
          exact fuller
        · omega
      · intro j inSeen usedJ
        rcases List.mem_append.mp inSeen with before | last
        · have fewer : (buckets j).tokens < (buckets i).tokens := by
            rcases cases with ⟨unused, others⟩ | ⟨_, _, others⟩
            · have empty := (others j before).2 usedJ
              rw [blank lru unused] at fuller
              omega
            · have atMost := (others j before usedJ).1
              omega
          exact ⟨fewer.le, fun _ => fewer⟩
        · rw [List.mem_singleton.mp last]
          exact ⟨le_rfl, fun loop => absurd loop (lt_irrefl i)⟩
    · rw [if_neg (by simp [used, fuller])]
      refine ⟨List.mem_append_left _ member, ?_⟩
      rcases cases with ⟨unused, others⟩ | ⟨usedLru, token, others⟩
      · left
        refine ⟨unused, ?_⟩
        intro j inSeen
        rcases List.mem_append.mp inSeen with before | last
        · exact others j before
        · rw [List.mem_singleton.mp last]
          rw [blank lru unused] at fuller
          exact ⟨fun _ => used, fun _ => by omega⟩
      · right
        refine ⟨usedLru, token, ?_⟩
        intro j inSeen usedJ
        rcases List.mem_append.mp inSeen with before | last
        · exact others j before usedJ
        · rw [List.mem_singleton.mp last]
          have order := behind lru member
          exact ⟨by omega, fun wrong => absurd wrong order.not_gt⟩
  · have unused : (buckets i).used = false := by simpa using used
    rw [if_pos (Or.inl used)]
    refine ⟨by simp, Or.inl ⟨unused, ?_⟩⟩
    intro j inSeen
    rcases List.mem_append.mp inSeen with before | last
    · have order := behind j before
      refine ⟨fun wrong => absurd wrong order.not_gt, ?_⟩
      intro usedJ
      exact absurd (usedAbove j i order.le usedJ) used
    · rw [List.mem_singleton.mp last]
      exact ⟨fun loop => absurd loop (lt_irrefl i), fun usedI => absurd usedI used⟩

theorem Chosen.foldl {seen : List (Fin discoveryRlSlots)} {lru : Fin discoveryRlSlots}
    (chosen : Chosen buckets seen lru) (rest : List (Fin discoveryRlSlots))
    (sorted : (seen ++ rest).Pairwise (· < ·)) :
    Chosen buckets (seen ++ rest) (rest.foldl (lruPass buckets) lru) := by
  induction rest generalizing seen lru with
  | nil => simpa using chosen
  | cons i rest ih =>
    have behind : ∀ j ∈ seen, j < i := by
      intro j inSeen
      exact (List.pairwise_append.mp sorted).2.2 j inSeen i List.mem_cons_self
    have passed := chosen.pass usedAbove blank behind
    have regrouped : seen ++ i :: rest = (seen ++ [i]) ++ rest := by simp
    rw [regrouped] at sorted ⊢
    exact ih passed sorted

/-- While there is a never-used slot, the claimed one is the last of these, or
the first fullest bucket. -/
theorem claimedSlot_cases {free : Fin discoveryRlSlots} (unused : (buckets free).used = false) :
    ((buckets (claimedSlot buckets)).used = false ∧
        ∀ j, claimedSlot buckets < j → (buckets j).used = true) ∨
      FirstFullest buckets (claimedSlot buckets) := by
  have firstUnused : (buckets 0).used = false := by
    by_contra used
    have above := usedAbove 0 free (Fin.zero_le free) (by simpa using used)
    rw [unused] at above
    exact Bool.false_ne_true above
  have start : Chosen buckets [0] 0 := by
    refine ⟨List.mem_singleton.mpr rfl, Or.inl ⟨firstUnused, ?_⟩⟩
    intro j inSeen
    rw [List.mem_singleton.mp inSeen, firstUnused]
    exact ⟨fun loop => absurd loop (lt_irrefl 0), fun wrong => absurd wrong Bool.false_ne_true⟩
  have split : List.finRange discoveryRlSlots = [0] ++ (List.finRange discoveryRlSlots).tail := by
    decide
  have firstPass : lruPass buckets 0 0 = 0 := by simp [lruPass]
  have chosen : Chosen buckets (List.finRange discoveryRlSlots) (claimedSlot buckets) := by
    have folded :=
      start.foldl usedAbove blank (List.finRange discoveryRlSlots).tail
        (split ▸ List.pairwise_lt_finRange discoveryRlSlots)
    unfold claimedSlot
    rw [split, List.foldl_append]
    rw [List.foldl_cons, List.foldl_nil, firstPass]
    exact folded
  obtain ⟨_, last | fullest⟩ := chosen
  · left
    exact ⟨last.1, fun j above => (last.2 j (List.mem_finRange j)).1 above⟩
  · right
    exact ⟨fullest.1, fullest.2.1, fun j used => fullest.2.2 j (List.mem_finRange j) used⟩

end Scan

variable {time now : Nat} {peer : RpcAddr} {bucket : DiscBucket}

theorem discRlAllow_of_nobody {buckets : DiscRl}
    (nobody : ∀ i, ¬ Holds buckets peer i) (now : UInt32) :
    discRlAllow buckets peer now =
      (update buckets (claimedSlot buckets)
          (discRlSpend (freshBucket peer now) now).1,
        (discRlSpend (freshBucket peer now) now).2) := by
  unfold discRlAllow
  rw [discRlScan_of_nobody nobody]
  rfl

theorem discRlAllow_of_holds {buckets : DiscRl} {i : Fin discoveryRlSlots}
    (holds : Holds buckets peer i) (unique : ∀ j, Holds buckets peer j → j = i) (now : UInt32) :
    discRlAllow buckets peer now =
      (update buckets i (discRlSpend (buckets i) now).1, (discRlSpend (buckets i) now).2) := by
  have found := discRlScan_of_holds holds unique (List.mem_finRange i) 0
  unfold discRlAllow
  generalize discRlScan buckets peer (List.finRange discoveryRlSlots) 0 = scanned at found ⊢
  obtain ⟨_, lru⟩ := scanned
  subst found
  rfl

theorem elapsed_toNat (ordered : time ≤ now) (near : now < time + 2 ^ 31) :
    (UInt32.ofNat now - UInt32.ofNat time).toNat = now - time := by
  rw [UInt32.toNat_sub, UInt32.toNat_ofNat', UInt32.toNat_ofNat']
  omega

theorem wrapInt_le {value : Int} (stored : -2 ^ 31 ≤ value) : wrapInt value ≤ value := by
  unfold wrapInt Int.bmod
  dsimp only
  split_ifs <;> omega

theorem wrapInt_ge (value : Int) : -2 ^ 31 ≤ wrapInt value := by
  unfold wrapInt Int.bmod
  dsimp only
  split_ifs <;> omega

theorem wrapInt_of_small {value : Nat} (small : value < 2 ^ 31) : wrapInt value = value := by
  unfold wrapInt Int.bmod
  dsimp only
  split_ifs <;> omega

/-- The tokens after the refill: no more than gained, and no more than fit. -/
theorem discRlSpend_eq (last : bucket.last = UInt32.ofNat time) (ordered : time ≤ now)
    (near : now < time + 2 ^ 31) (capped : bucket.tokens ≤ discoveryRlBurst)
    (stored : -2 ^ 31 ≤ bucket.tokens) :
    ∃ tokens : Int,
      tokens ≤ bucket.tokens + (now - time : Nat) ∧
        tokens ≤ discoveryRlBurst ∧ -2 ^ 31 ≤ tokens ∧
        discRlSpend bucket (UInt32.ofNat now) =
          if tokens ≤ 0 then ({ bucket with tokens := tokens, last := UInt32.ofNat now }, false)
          else
            ({ bucket with
                tokens := tokens - 1, last := UInt32.ofNat now },
              true) := by
  have elapsed := elapsed_toNat ordered near
  have gained : ((UInt32.ofNat now - bucket.last) / discoveryRlRefillTicks).toNat = now - time := by
    rw [UInt32.toNat_div, last, elapsed]
    exact Nat.div_one _
  by_cases idle : (UInt32.ofNat now - bucket.last) / discoveryRlRefillTicks = 0
  · have sameTime : now = time := by
      rw [idle] at gained
      have none : now - time = 0 := gained.symm
      omega
    refine ⟨bucket.tokens, by omega, capped, stored, ?_⟩
    unfold discRlSpend
    dsimp only
    rw [if_neg (not_not.mpr idle), sameTime, ← last]
  · refine ⟨if wrapInt (bucket.tokens + (now - time : Nat)) >
        discoveryRlBurst then discoveryRlBurst
      else wrapInt (bucket.tokens + (now - time : Nat)), ?_, ?_, ?_, ?_⟩
    · have below := wrapInt_le (show -2 ^ 31 ≤ bucket.tokens + (now - time : Nat) by omega)
      split_ifs <;> omega
    · split_ifs <;> omega
    · have above := wrapInt_ge (bucket.tokens + (now - time : Nat))
      split_ifs <;> omega
    · unfold discRlSpend
      dsimp only
      rw [if_pos idle, gained, wrapInt_of_small (by omega)]

/-- The bucket was brought up to date at `time`, after the admitted calls at
`times`, and has kept to the rate. -/
structure Accounts (times : List Nat) (time : Nat) (bucket : DiscBucket) : Prop where
  last : bucket.last = UInt32.ofNat time
  past : ∀ t ∈ times, t ≤ time
  covered : Covered 32 times time bucket.tokens
  capped : bucket.tokens ≤ discoveryRlBurst
  stored : -2 ^ 31 ≤ bucket.tokens
  metered : Metered 32 times

/-- A call keeps the bucket's accounts, admitted or not. -/
theorem Accounts.spend {times : List Nat} (accounts : Accounts times time bucket)
    (ordered : time ≤ now) (near : now < time + 2 ^ 31) :
    Accounts
      (if (discRlSpend bucket (UInt32.ofNat now)).2 then times ++ [now]
        else times)
      now (discRlSpend bucket (UInt32.ofNat now)).1 := by
  obtain ⟨tokens, gained, capped, stored, result⟩ :=
    discRlSpend_eq accounts.last ordered near accounts.capped accounts.stored
  have covered : Covered 32 times now tokens :=
    accounts.covered.wait accounts.past ordered gained capped
  have past : ∀ t ∈ times, t ≤ now := by
    intro t member
    exact (accounts.past t member).trans ordered
  by_cases empty : tokens ≤ 0
  · rw [if_pos empty] at result
    rw [result]
    exact ⟨rfl, past, covered, capped, stored, accounts.metered⟩
  · rw [if_neg empty] at result
    rw [result]
    have spent := covered.spend
    refine ⟨rfl, ?_, spent, ?_, ?_, ?_⟩
    · intro t member
      rcases List.mem_append.mp member with before | thisOne
      · exact past t before
      · rw [List.mem_singleton.mp thisOne]
    · change tokens - 1 ≤ discoveryRlBurst
      omega
    · change -2 ^ 31 ≤ tokens - 1
      omega
    · exact accounts.metered.snoc spent (by omega)

/-- A bucket that is full again is as good as a new one. -/
theorem Accounts.renew {times : List Nat} (accounts : Accounts times time bucket)
    (ordered : time ≤ now) (full : discoveryRlBurst ≤ bucket.tokens + (now - time : Nat))
    (peer : RpcAddr) :
    Accounts times now (freshBucket peer (UInt32.ofNat now)) where
  last := rfl
  past := fun t member => (accounts.past t member).trans ordered
  covered := accounts.covered.wait accounts.past ordered full le_rfl
  capped := le_rfl
  stored := show (-2 ^ 31 : Int) ≤ discoveryRlBurst by decide
  metered := accounts.metered

theorem accounts_fresh (peer : RpcAddr) (now : Nat) :
    Accounts [] now (freshBucket peer (UInt32.ofNat now)) where
  last := rfl
  past := by simp
  covered := covered_nil le_rfl
  capped := le_rfl
  stored := show (-2 ^ 31 : Int) ≤ discoveryRlBurst by decide
  metered := metered_nil

theorem discRlSpend_owner (bucket : DiscBucket) (now : UInt32) :
    (discRlSpend bucket now).1.used = bucket.used ∧
      (discRlSpend bucket now).1.addr = bucket.addr := by
  unfold discRlSpend DiscBucket.addr
  dsimp only
  split_ifs <;> exact ⟨rfl, rfl⟩

/-! ## Whole runs -/

def timesOf (peer : RpcAddr) (calls : List RlCall) : List Nat :=
  (calls.filter fun call => call.addr = peer).map RlCall.time

theorem timesOf_snoc_same (calls : List RlCall) (call : RlCall) :
    timesOf call.addr (calls ++ [call]) = timesOf call.addr calls ++ [call.time] := by
  simp [timesOf, List.filter_append]

theorem timesOf_snoc_other (calls : List RlCall) {call : RlCall} (other : call.addr ≠ peer) :
    timesOf peer (calls ++ [call]) = timesOf peer calls := by
  simp [timesOf, List.filter_append, other]

theorem admittedBetween_eq (limiter : Limiter) (peer : RpcAddr) (start stop : Nat) :
    admittedBetween limiter peer start stop =
      (timesOf peer limiter.admitted).countP (fun t => start ≤ t ∧ t ≤ stop) := by
  unfold admittedBetween timesOf
  rw [List.countP_map, List.countP_eq_length_filter, List.filter_filter]
  congr 2
  funext call
  simp [Bool.and_comm]

/-- What holds of the limiter after the calls `calls` of the `peers`.  A peer
without a bucket is where a new bucket would put it. -/
structure LimiterSound (peers : Finset RpcAddr) (calls : List RlCall) (limiter : Limiter) :
    Prop where
  usedAbove : ∀ i j, i ≤ j → (limiter.buckets i).used = true → (limiter.buckets j).used = true
  blank : ∀ i, (limiter.buckets i).used = false → (limiter.buckets i).tokens = 0
  unique : ∀ peer i j, Holds limiter.buckets peer i → Holds limiter.buckets peer j → i = j
  known : ∀ peer i, Holds limiter.buckets peer i → peer ∈ peers
  accounts :
    ∀ peer i, Holds limiter.buckets peer i →
      ∃ call ∈ calls, Accounts (timesOf peer limiter.admitted) call.time (limiter.buckets i)
  waiting :
    ∀ peer, (∀ i, ¬ Holds limiter.buckets peer i) → ∀ now, (∀ call ∈ calls, call.time ≤ now) →
        Accounts (timesOf peer limiter.admitted) now (freshBucket peer (UInt32.ofNat now))

section Step

variable {peers : Finset RpcAddr} {calls : List RlCall} {limiter : Limiter}
variable {call : RlCall}

theorem limiterSound_init (peers : Finset RpcAddr) : LimiterSound peers [] Limiter.init where
  usedAbove := by
    intro i j order used
    exact absurd used Bool.false_ne_true
  blank := by
    intro i unused
    rfl
  unique := by
    intro peer i j holds
    exact absurd holds.1 Bool.false_ne_true
  known := by
    intro peer i holds
    exact absurd holds.1 Bool.false_ne_true
  accounts := by
    intro peer i holds
    exact absurd holds.1 Bool.false_ne_true
  waiting := by
    intro peer nobody now past
    exact accounts_fresh peer now

/-- A peer without a bucket finds a never-used slot: the others are too few to
fill the table. -/
theorem LimiterSound.exists_unused (sound : LimiterSound peers calls limiter)
    (few : peers.card ≤ discoveryRlSlots) {peer : RpcAddr}
    (isPeer : peer ∈ peers) (nobody : ∀ i, ¬ Holds limiter.buckets peer i) :
    ∃ i, (limiter.buckets i).used = false := by
  by_contra allUsed
  have used : ∀ i, (limiter.buckets i).used = true := by
    intro i
    by_contra unused
    exact allUsed ⟨i, by simpa using unused⟩
  have owners : (Finset.univ.image fun i => (limiter.buckets i).addr) ⊆ peers.erase peer := by
    intro owner member
    obtain ⟨i, _, rfl⟩ := Finset.mem_image.mp member
    rw [Finset.mem_erase]
    refine ⟨?_, sound.known _ i ⟨used i, rfl⟩⟩
    intro same
    exact nobody i ⟨used i, same⟩
  have distinct : Function.Injective fun i => (limiter.buckets i).addr := by
    intro i j same
    exact sound.unique _ i j ⟨used i, rfl⟩ ⟨used j, same.symm⟩
  have count := Finset.card_le_card owners
  rw [Finset.card_image_of_injective _ distinct, Finset.card_univ,
    Fintype.card_fin, Finset.card_erase_of_mem isPeer] at count
  have positive : 0 < peers.card := Finset.card_pos.mpr ⟨peer, isPeer⟩
  omega

/-- The call is served from `bucket`, which takes the place of what slot `place`
held before.  Whoever held the slot must have been due a full bucket. -/
structure ServedFrom (limiter : Limiter) (call : RlCall) (place : Fin discoveryRlSlots)
    (bucket : DiscBucket) (time : Nat) : Prop where
  result :
    discRlAllow limiter.buckets call.addr call.now =
      (update limiter.buckets place (discRlSpend bucket call.now).1,
        (discRlSpend bucket call.now).2)
  used : bucket.used = true
  owner : bucket.addr = call.addr
  accounts : Accounts (timesOf call.addr limiter.admitted) time bucket
  ordered : time ≤ call.time
  near : call.time < time + 2 ^ 31
  onlyPlace : ∀ i, Holds limiter.buckets call.addr i → i = place
  lastFree : (limiter.buckets place).used = true ∨ ∀ i, place < i → (limiter.buckets i).used = true
  evicted :
    ∀ peer, peer ≠ call.addr → Holds limiter.buckets peer place →
      Accounts (timesOf peer limiter.admitted) call.time (freshBucket peer call.now)

variable {place : Fin discoveryRlSlots} {bucket : DiscBucket} {time : Nat}

section Served

variable (served : ServedFrom limiter call place bucket time)

include served

theorem ServedFrom.bucket_self :
    (limiterNext limiter call).buckets place = (discRlSpend bucket call.now).1 := by
  unfold limiterNext
  rw [served.result]
  exact update_self place _ _

variable {i : Fin discoveryRlSlots}

theorem ServedFrom.bucket_other (other : i ≠ place) :
    (limiterNext limiter call).buckets i = limiter.buckets i := by
  unfold limiterNext
  rw [served.result]
  exact update_of_ne other _ _

theorem ServedFrom.used_place : ((limiterNext limiter call).buckets place).used = true := by
  rw [served.bucket_self, (discRlSpend_owner bucket call.now).1, served.used]

theorem ServedFrom.holds_place_iff (peer : RpcAddr) :
    Holds (limiterNext limiter call).buckets peer place ↔ peer = call.addr := by
  unfold Holds
  rw [served.bucket_self, (discRlSpend_owner bucket call.now).1,
    (discRlSpend_owner bucket call.now).2, served.owner]
  constructor
  · intro holds
    exact holds.2.symm
  · intro same
    exact ⟨served.used, same.symm⟩

theorem ServedFrom.holds_other_iff (peer : RpcAddr) (other : i ≠ place) :
    Holds (limiterNext limiter call).buckets peer i ↔ Holds limiter.buckets peer i := by
  unfold Holds
  rw [served.bucket_other other]

theorem ServedFrom.times_same :
    timesOf call.addr (limiterNext limiter call).admitted =
      if (discRlSpend bucket call.now).2 then timesOf call.addr limiter.admitted ++ [call.time]
      else timesOf call.addr limiter.admitted := by
  unfold limiterNext
  rw [served.result]
  dsimp only
  split
  · exact timesOf_snoc_same limiter.admitted call
  · rfl

omit served in
theorem limiterNext_times_other (limiter : Limiter) {peer : RpcAddr} (other : call.addr ≠ peer) :
    timesOf peer (limiterNext limiter call).admitted = timesOf peer limiter.admitted := by
  unfold limiterNext
  dsimp only
  split
  · exact timesOf_snoc_other limiter.admitted other
  · rfl

theorem ServedFrom.accounts_place :
    Accounts (timesOf call.addr (limiterNext limiter call).admitted)
      call.time ((limiterNext limiter call).buckets place) := by
  rw [served.times_same, served.bucket_self]
  exact served.accounts.spend served.ordered served.near

theorem ServedFrom.sound (sound : LimiterSound peers calls limiter) (isPeer : call.addr ∈ peers) :
    LimiterSound peers (calls ++ [call]) (limiterNext limiter call) where
  usedAbove := by
    intro i j order used
    by_cases atPlace : j = place
    · rw [atPlace]
      exact served.used_place
    · rw [served.bucket_other atPlace]
      by_cases fromPlace : i = place
      · rcases served.lastFree with wasUsed | above
        · exact sound.usedAbove place j (fromPlace ▸ order) wasUsed
        · have behind : place < j := lt_of_le_of_ne (fromPlace ▸ order) (Ne.symm atPlace)
          exact above j behind
      · rw [served.bucket_other fromPlace] at used
        exact sound.usedAbove i j order used
  blank := by
    intro i unused
    by_cases atPlace : i = place
    · rw [atPlace, served.used_place] at unused
      exact absurd unused.symm Bool.false_ne_true
    · rw [served.bucket_other atPlace] at unused ⊢
      exact sound.blank i unused
  unique := by
    intro peer i j left right
    by_cases leftPlace : i = place
    · subst leftPlace
      by_cases rightPlace : j = i
      · exact rightPlace.symm
      · rw [served.holds_place_iff] at left
        rw [served.holds_other_iff peer rightPlace, left] at right
        exact absurd (served.onlyPlace j right) rightPlace
    · rw [served.holds_other_iff peer leftPlace] at left
      by_cases rightPlace : j = place
      · subst rightPlace
        rw [served.holds_place_iff] at right
        rw [right] at left
        exact absurd (served.onlyPlace i left) leftPlace
      · rw [served.holds_other_iff peer rightPlace] at right
        exact sound.unique peer i j left right
  known := by
    intro peer i holds
    by_cases atPlace : i = place
    · subst atPlace
      rw [served.holds_place_iff] at holds
      rw [holds]
      exact isPeer
    · rw [served.holds_other_iff peer atPlace] at holds
      exact sound.known peer i holds
  accounts := by
    intro peer i holds
    by_cases atPlace : i = place
    · subst atPlace
      rw [served.holds_place_iff] at holds
      subst holds
      exact ⟨call, by simp, served.accounts_place⟩
    · rw [served.holds_other_iff peer atPlace] at holds
      have other : call.addr ≠ peer := by
        intro same
        rw [← same] at holds
        exact atPlace (served.onlyPlace i holds)
      obtain ⟨earlier, member, accounts⟩ := sound.accounts peer i holds
      rw [limiterNext_times_other limiter other, served.bucket_other atPlace]
      exact ⟨earlier, List.mem_append_left _ member, accounts⟩
  waiting := by
    intro peer nobody now past
    have other : call.addr ≠ peer := by
      intro same
      exact nobody place ((served.holds_place_iff peer).mpr same.symm)
    have callPast : call.time ≤ now := past call (by simp)
    rw [limiterNext_times_other limiter other]
    by_cases evicts : Holds limiter.buckets peer place
    · have renewed := served.evicted peer (Ne.symm other) evicts
      apply renewed.renew callPast
      change discoveryRlBurst ≤ discoveryRlBurst + _
      omega
    · apply sound.waiting peer
      · intro i holds
        by_cases atPlace : i = place
        · exact evicts (atPlace ▸ holds)
        · exact nobody i ((served.holds_other_iff peer atPlace).mpr holds)
      · intro earlier member
        exact past earlier (List.mem_append_left _ member)

end Served

theorem LimiterSound.servedFrom_holds (sound : LimiterSound peers calls limiter)
    (latest : ∀ earlier ∈ calls, earlier.time ≤ call.time)
    (near : ∀ earlier ∈ calls, call.time < earlier.time + 2 ^ 31)
    (holds : Holds limiter.buckets call.addr i) :
    ∃ time, ServedFrom limiter call i (limiter.buckets i) time := by
  obtain ⟨earlier, member, accounts⟩ := sound.accounts call.addr i holds
  refine ⟨earlier.time, ?_⟩
  exact
    { result :=
        discRlAllow_of_holds holds (fun j alsoHolds => sound.unique _ j i alsoHolds holds) call.now
      used := holds.1
      owner := holds.2
      accounts := accounts
      ordered := latest earlier member
      near := near earlier member
      onlyPlace := fun j alsoHolds => sound.unique _ j i alsoHolds holds
      lastFree := Or.inl holds.1
      evicted := fun peer other alsoHolds =>
        absurd (alsoHolds.2.symm.trans holds.2) other }

theorem LimiterSound.servedFrom_claim (sound : LimiterSound peers calls limiter)
    (few : peers.card ≤ discoveryRlSlots) (isPeer : call.addr ∈ peers)
    (latest : ∀ earlier ∈ calls, earlier.time ≤ call.time)
    (near : ∀ earlier ∈ calls, call.time < earlier.time + 2 ^ 31)
    (nobody : ∀ i, ¬ Holds limiter.buckets call.addr i)
    (harmless : ∀ i, FirstFullest limiter.buckets i →
        discoveryRlBurst ≤
          (limiter.buckets i).tokens + ((call.now - (limiter.buckets i).last).toNat : Int)) :
    ServedFrom limiter call (claimedSlot limiter.buckets)
      (freshBucket call.addr call.now) call.time := by
  obtain ⟨free, unused⟩ := sound.exists_unused few isPeer nobody
  have claimed := claimedSlot_cases sound.usedAbove sound.blank unused
  exact
    { result := discRlAllow_of_nobody nobody call.now
      used := rfl
      owner := rfl
      accounts := sound.waiting call.addr nobody call.time latest
      ordered := le_rfl
      near := by omega
      onlyPlace := fun i holds => absurd holds (nobody i)
      lastFree := by
        rcases claimed with ⟨_, above⟩ | fullest
        · exact Or.inr above
        · exact Or.inl fullest.1
      evicted := by
        intro peer other holds
        rcases claimed with ⟨stillUnused, _⟩ | fullest
        · exact absurd (stillUnused.symm.trans holds.1) Bool.false_ne_true
        · obtain ⟨earlier, member, accounts⟩ := sound.accounts peer _ holds
          have full := harmless _ fullest
          rw [accounts.last, RlCall.now,
            elapsed_toNat (latest earlier member) (near earlier member)] at full
          exact accounts.renew (latest earlier member) full peer }

theorem LimiterSound.next (sound : LimiterSound peers calls limiter)
    (few : peers.card ≤ discoveryRlSlots) (isPeer : call.addr ∈ peers)
    (latest : ∀ earlier ∈ calls, earlier.time ≤ call.time)
    (near : ∀ earlier ∈ calls, call.time < earlier.time + 2 ^ 31)
    (harmless : ClaimHarmless limiter call) :
    LimiterSound peers (calls ++ [call]) (limiterNext limiter call) := by
  by_cases holds : ∃ i, Holds limiter.buckets call.addr i
  · obtain ⟨i, holds⟩ := holds
    obtain ⟨time, served⟩ := sound.servedFrom_holds latest near holds
    exact served.sound sound isPeer
  · have nobody := not_exists.mp holds
    have served :=
      sound.servedFrom_claim few isPeer latest near nobody (harmless.resolve_left holds)
    exact served.sound sound isPeer

theorem LimiterSound.metered (sound : LimiterSound peers calls limiter) (peer : RpcAddr) :
    Metered 32 (timesOf peer limiter.admitted) := by
  by_cases holds : ∃ i, Holds limiter.buckets peer i
  · obtain ⟨i, holds⟩ := holds
    obtain ⟨earlier, _, accounts⟩ := sound.accounts peer i holds
    exact accounts.metered
  · obtain ⟨now, past⟩ : ∃ now, ∀ call ∈ calls, call.time ≤ now := by
      refine ⟨(calls.map RlCall.time).sum, ?_⟩
      intro call member
      exact List.le_sum_of_mem (List.mem_map_of_mem member)
    exact (sound.waiting peer (not_exists.mp holds) now past).metered

end Step

theorem limiterSound_after {peers : Finset RpcAddr} (few : peers.card ≤ discoveryRlSlots)
    {calls : List RlCall} (fromPeers : ∀ call ∈ calls, call.addr ∈ peers)
    (clock : ClockOrdered calls) (harmless : Along limiterNext ClaimHarmless Limiter.init calls) :
    LimiterSound peers calls (after limiterNext Limiter.init calls) := by
  induction calls using List.reverseRecOn with
  | nil => exact limiterSound_init peers
  | append_singleton initial call ih =>
    rw [along_snoc] at harmless
    rw [after_snoc]
    have inRun : ∀ earlier ∈ initial, earlier ∈ initial ++ [call] :=
      fun earlier member => List.mem_append_left _ member
    have order := List.pairwise_append.mp clock.ordered
    have before :=
      ih (fun earlier member => fromPeers earlier (inRun earlier member))
        ⟨order.1, fun first inFirst last inLast =>
          clock.span first (inRun first inFirst) last (inRun last inLast)⟩
        harmless.1
    apply before.next few
    · exact fromPeers call (by simp)
    · intro earlier member
      exact order.2.2 earlier member call (by simp)
    · intro earlier member
      exact clock.span earlier (inRun earlier member) call (by simp)
    · exact harmless.2

/-- When no bucket is taken from a peer before it is full again, every peer
keeps to the rate in every window of time. -/
theorem every_peer_metered (calls : List RlCall) (clock : ClockOrdered calls)
    (few : (calls.map RlCall.addr).toFinset.card ≤ discoveryRlSlots)
    (harmless : Along limiterNext ClaimHarmless Limiter.init calls)
    (peer : RpcAddr) (start stop : Nat) (ordered : start ≤ stop) :
    (admittedBetween (after limiterNext Limiter.init calls) peer start
        stop : Int) ≤
      discoveryRlBurst + ((stop - start) / discoveryRlRefillTicks.toNat : Nat) := by
  have fromPeers : ∀ call ∈ calls, call.addr ∈ (calls.map RlCall.addr).toFinset := by
    intro call member
    exact List.mem_toFinset.mpr (List.mem_map_of_mem member)
  have sound := limiterSound_after few fromPeers clock harmless
  have bound := sound.metered peer start stop ordered
  rw [admittedBetween_eq]
  have oneTick : discoveryRlRefillTicks.toNat = 1 := rfl
  have burst : discoveryRlBurst = 32 := rfl
  rw [oneTick, Nat.div_one, burst]
  exact_mod_cast bound

def firstPeer : RpcAddr :=
  ⟨0x0a000203, 6001⟩

def secondPeer : RpcAddr :=
  ⟨0x0a000204, 6001⟩

/-- The second peer takes the slot of the first when that is full again, and
the first takes it back likewise. -/
def spacedCalls : List RlCall := [⟨firstPeer, 0⟩, ⟨secondPeer, 40⟩, ⟨firstPeer, 80⟩]

theorem every_peer_metered_spacedCalls :
    ClockOrdered spacedCalls ∧
      (spacedCalls.map RlCall.addr).toFinset.card ≤ discoveryRlSlots ∧
      Along limiterNext ClaimHarmless Limiter.init spacedCalls ∧
      (admittedBetween (after limiterNext Limiter.init spacedCalls)
          firstPeer 0 80 : Int) ≤
        discoveryRlBurst + (80 / discoveryRlRefillTicks.toNat : Nat) := by
  have clock : ClockOrdered spacedCalls := by
    refine ⟨?_, ?_⟩
    · decide
    · decide
  have few : (spacedCalls.map RlCall.addr).toFinset.card ≤ discoveryRlSlots := by decide
  have harmless : Along limiterNext ClaimHarmless Limiter.init spacedCalls := by decide +kernel
  refine ⟨clock, few, harmless, ?_⟩
  exact every_peer_metered spacedCalls clock few harmless firstPeer 0 80 (by decide)

/-- Two peers that call in turn, all at one moment. -/
def alternatingCalls : List RlCall := (List.replicate 33 [⟨firstPeer, 0⟩, ⟨secondPeer, 0⟩]).flatten

/-- Each call takes the other peer's bucket, so neither is ever limited: 33
calls of each are admitted at one moment. -/
theorem alternating_peers_unmetered :
    ClockOrdered alternatingCalls ∧
      (alternatingCalls.map RlCall.addr).toFinset.card = 2 ∧
      discoveryRlBurst + ((0 - 0) / discoveryRlRefillTicks.toNat : Nat) <
        admittedBetween (after limiterNext Limiter.init alternatingCalls) firstPeer 0 0 := by
  refine ⟨⟨?_, ?_⟩, ?_, ?_⟩
  · decide +kernel
  · decide +kernel
  · decide +kernel
  · decide +kernel

end LlmRuntime.Discovery
