import LlmRuntime.Library.Execution
import LlmRuntime.Ftp.FileMixing

/-!
# The model cache

`fetch_if_not_cached` and `fetch_if_not_cached_pub`: a named segment of shared
memory that exists is mapped, and else one is created and the file streamed into
it.  A transfer that fails leaves the segment behind.
-/

namespace LlmRuntime.Ftp

open Function Execution

abbrev Segments := UInt32 → Option (Nat → UInt8)

/-- What the kernel and the network do during a call: whether a segment that was
found can be attached, whether one can be created and attached, and the bytes it
then has. -/
structure CallEnv where
  attaches : Bool
  creates : Bool
  attachesNew : Bool
  fresh : Nat → UInt8
  host : Host

/-- The bytes of the segment that `shmget` with `IPC_CREAT` gives. -/
def CallEnv.created (env : CallEnv) (segments : Segments) (size : UInt32) : Nat → UInt8 :=
  (segments size).getD env.fresh

/-- Create a segment and stream the file into it.  The segment stays, whatever
becomes of the transfer; its size stands for the pointer. -/
def createAndFetch (fileId : UInt8) (size : UInt32) (accepts : Fetched → Bool)
    (env : CallEnv) (host : Host) (segments : Segments) :
    Segments × Option UInt32 :=
  if ¬ env.creates then (segments, none)
  else
    let bytes := env.created segments size
    if ¬ env.attachesNew then (update segments size (some bytes), none)
    else
      match llmFetchFileInto fileId bytes size host with
      | .blocked => (update segments size (some bytes), none)
      | .returned fetched _ =>
        (update segments size (some fetched.dst),
          if accepts fetched then some size else none)

/-- What `fetch_if_not_cached` takes for a success. -/
def acceptsSize (expectedSize : UInt32) (fetched : Fetched) : Bool :=
  !(decide (fetched.result < 0) || decide (fetched.sizeOut.getD 0 ≠ expectedSize))

/-- What `fetch_if_not_cached_pub` takes for a success. -/
def acceptsAny (fetched : Fetched) : Bool := !decide (fetched.result < 0)

def fetchIfNotCached (fileId : UInt8) (expectedSize : UInt32) (env : CallEnv)
    (segments : Segments) : Segments × Option UInt32 :=
  if (segments expectedSize).isSome then
    (segments, if env.attaches then some expectedSize else none)
  else createAndFetch fileId expectedSize (acceptsSize expectedSize) env env.host segments

def fetchIfNotCachedPub (fileId : UInt8) (env : CallEnv) (segments : Segments) :
    Segments × Option UInt32 :=
  match llmMetaRequest fileId env.host with
  | .blocked => (segments, none)
  | .returned none _ => (segments, none)
  | .returned (some info) host =>
    if (segments info.fileSize).isSome && env.attaches then (segments, some info.fileSize)
    else createAndFetch fileId info.fileSize acceptsAny env host segments

inductive CacheCall where
  | own (expectedSize : UInt32) (env : CallEnv)
  | pub (env : CallEnv)

def CacheCall.env : CacheCall → CallEnv
  | .own _ env => env
  | .pub env => env

/-- The segments, and what the last call returned. -/
structure Cache where
  segments : Segments
  returned : Option UInt32

def cacheNext (fileId : UInt8) (cache : Cache) : CacheCall → Cache
  | .own expectedSize env =>
    let (segments, returned) := fetchIfNotCached fileId expectedSize env cache.segments
    ⟨segments, returned⟩
  | .pub env =>
    let (segments, returned) := fetchIfNotCachedPub fileId env cache.segments
    ⟨segments, returned⟩

/-- No segment of the name exists. -/
def Cache.initial : Cache :=
  ⟨fun _ => none, none⟩

def Verified (server : Server) (fileId : UInt8) (size : UInt32) (bytes : Nat → UInt8) : Prop :=
  ∃ file, server.files fileId = some file ∧ size.toNat = file.length ∧
    Sha256.sha256Hash ((List.range size.toNat).map bytes) = server.hashlib file

/-- The pointer that the last call returned, if any, maps the file. -/
def ReturnsFile (server : Server) (fileId : UInt8) (cache : Cache) : Prop :=
  ∀ size, cache.returned = some size →
    ∃ bytes, cache.segments size = some bytes ∧ Verified server fileId size bytes

def Fills (fileId : UInt8) (size : UInt32) (accepts : Fetched → Bool)
    (env : CallEnv) (host : Host) (segments : Segments) : Prop :=
  env.creates = true →
    env.attachesNew = true ∧
      ∃ fetched later,
        llmFetchFileInto fileId (env.created segments size) size host = .returned fetched later ∧
          accepts fetched = true

def FillsCreated (fileId : UInt8) (cache : Cache) : CacheCall → Prop
  | .own expectedSize env =>
    cache.segments expectedSize = none →
      Fills fileId expectedSize (acceptsSize expectedSize) env env.host cache.segments
  | .pub env =>
    ∀ info host,
      llmMetaRequest fileId env.host = .returned (some info) host →
      cache.segments info.fileSize = none ∨ env.attaches = false →
        Fills fileId info.fileSize acceptsAny env host cache.segments

/-- Metadata that is delivered is what the server sends for the file. -/
def HonestMeta (server : Server) (fileId : UInt8) (datagram : List UInt8) : Prop :=
  (datagram.take 48).getD 0 0 = msgMetaResp → Produced server datagram ∧ datagram.getD 1 0 = fileId

section Transfers

variable {server : Server} {fileId : UInt8}

theorem llmMetaRequest_honest {host later : Host} {info : FileMeta}
    (honest : host.Supplies (HonestMeta server fileId))
    (returned : llmMetaRequest fileId host = .returned (some info) later) :
    ∃ file, server.files fileId = some file ∧ file.length < 2 ^ 32 ∧
      info = servedMeta server file ∧
      later.Supplies (HonestMeta server fileId) := by
  obtain ⟨datagram, rest, received, long, isMeta, isInfo, isIncoming,
    isNetwork, -⟩ := llmMetaRequest_some returned
  obtain ⟨isHonest, others⟩ := honest.received received
  obtain ⟨⟨request, isReply⟩, isOwn⟩ := isHonest isMeta
  cases handleMessage_reply isReply with
  | packet served isChunk fits => cases isMeta
  | @info otherId file served fits =>
    have sameId : otherId = fileId := isOwn
    rw [sameId] at served
    rw [metaResponse_take, parse_metaResponse] at isInfo
    exact ⟨file, served, fits, isInfo, others later isIncoming isNetwork⟩
  | error otherId errorCode =>
    change 48 ≤ 6 at long
    omega

theorem finishWindow_eq (info : FileMeta) (ctx : TransferCtx) :
    finishWindow info ctx = 0 ∨ finishWindow info ctx = -1 := by
  rw [finishWindow]
  split
  · exact .inr rfl
  · split
    · exact .inr rfl
    · exact .inl rfl

theorem llmFetchFileInto_verified {dst : Nat → UInt8} {dstLen : UInt32} {host later : Host}
    {fetched : Fetched} (honest : host.Supplies (HonestMeta server fileId))
    (returned : llmFetchFileInto fileId dst dstLen host = .returned fetched later)
    (success : ¬ fetched.result < 0) :
    ∃ size, fetched.sizeOut = some size ∧ Verified server fileId size fetched.dst := by
  rcases llmFetchFileInto_cases returned with
    ⟨failed, -⟩ | ⟨info, middle, inner, learned, -, window, isFetched⟩
  · rw [failed] at success
    exact absurd (show (-1 : Int) < 0 by decide) success
  rw [isFetched] at success ⊢
  obtain ⟨file, served, small, isInfo, honestLater⟩ := llmMetaRequest_honest honest learned
  have known : info.Describes file := by
    rw [isInfo]
    exact servedMeta_describes small
  refine ⟨info.fileSize, rfl, file, served, known.size, ?_⟩
  rcases llmFetchWindow_cases window with
    ⟨failed, -⟩ | ⟨infoAgain, working, learnedAgain, -, isResult, isDst, -⟩
  · rw [failed] at success
    exact absurd (show (-1 : Int) < 0 by decide) success
  have finished :=
    (finishWindow_eq infoAgain _).resolve_right fun failed => by
      rw [isResult, failed] at success
      exact absurd (show (-1 : Int) < 0 by decide) success
  obtain ⟨sameFile, servedAgain, -, isInfoAgain, -⟩ :=
    llmMetaRequest_honest honestLater learnedAgain
  have sameInfo : infoAgain = info := by
    rw [served] at servedAgain
    cases servedAgain
    rw [isInfoAgain, isInfo]
  rw [sameInfo] at finished isDst
  have whole : windowLength info 0 info.fileSize = info.fileSize := by
    rw [windowLength]
    split_ifs with isEmpty
    · rw [isEmpty]
      rfl
    · rfl
  rw [whole] at finished isDst
  have same :
      SameWindow (TransferCtx.start info dst 0 info.fileSize)
        (transferWindow fileId working.attempt.2.attempt.2
          (TransferCtx.start info dst 0 info.fileSize)).2 :=
    (stable_sameWindow _).transferWindow fileId (.refl _)
  have intact := ((finishWindow_eq_zero _ _).mp finished).2 ⟨same.winOff, same.winLen⟩
  rw [verifyFileIntegrity, decide_eq_true_iff, isInfo] at intact
  rw [isDst, isInfo]
  exact Vector.toList_inj.mp intact

end Transfers

section Runs

variable {server : Server} {fileId : UInt8}

def AllVerified (server : Server) (fileId : UInt8) (segments : Segments) : Prop :=
  ∀ size bytes, segments size = some bytes → Verified server fileId size bytes

def Mapped (segments : Segments) (returned : Option UInt32) : Prop :=
  ∀ size, returned = some size → (segments size).isSome

theorem AllVerified.update {segments : Segments} (verified : AllVerified server fileId segments)
    {size : UInt32} {bytes : Nat → UInt8} (isFile : Verified server fileId size bytes) :
    AllVerified server fileId (update segments size (some bytes)) := by
  intro other found present
  by_cases same : other = size
  · rw [same, update_self, Option.some.injEq] at present
    rw [same, ← present]
    exact isFile
  · rw [update_of_ne same] at present
    exact verified other found present

/-- A segment that is filled holds the file, if a transfer that is accepted was
of its size. -/
theorem createAndFetch_verified {size : UInt32} {accepts : Fetched → Bool} {env : CallEnv}
    {host : Host} {segments : Segments} (honest : host.Supplies (HonestMeta server fileId))
    (success : ∀ fetched, accepts fetched = true → ¬ fetched.result < 0)
    (ofSize : ∀ fetched found, accepts fetched = true → fetched.sizeOut = some found →
        Verified server fileId found fetched.dst → found = size)
    (verified : AllVerified server fileId segments)
    (fills : Fills fileId size accepts env host segments) :
    AllVerified server fileId
        (createAndFetch fileId size accepts env host segments).1 ∧
      Mapped (createAndFetch fileId size accepts env host segments).1
        (createAndFetch fileId size accepts env host segments).2 := by
  rw [createAndFetch]
  by_cases creates : env.creates = true
  · obtain ⟨attaches, fetched, later, returned, accepted⟩ := fills creates
    obtain ⟨found, isFound, isFile⟩ :=
      llmFetchFileInto_verified honest returned (success fetched accepted)
    rw [ofSize fetched found accepted isFound isFile] at isFile
    rw [if_neg (not_not.mpr creates)]
    dsimp only
    rw [if_neg (not_not.mpr attaches), returned]
    refine ⟨verified.update isFile, ?_⟩
    intro other isOther
    dsimp only at isOther ⊢
    rw [if_pos accepted, Option.some.injEq] at isOther
    rw [← isOther, update_self]
    rfl
  · rw [if_pos creates]
    refine ⟨verified, ?_⟩
    rintro other ⟨⟩

theorem fetchIfNotCached_verified {expectedSize : UInt32} {env : CallEnv} {segments : Segments}
    (honest : env.host.Supplies (HonestMeta server fileId))
    (verified : AllVerified server fileId segments) (fills : segments expectedSize = none →
        Fills fileId expectedSize (acceptsSize expectedSize) env env.host segments) :
    AllVerified server fileId
        (fetchIfNotCached fileId expectedSize env segments).1 ∧
      Mapped (fetchIfNotCached fileId expectedSize env segments).1
        (fetchIfNotCached fileId expectedSize env segments).2 := by
  rw [fetchIfNotCached]
  by_cases cached : (segments expectedSize).isSome = true
  · rw [if_pos cached]
    refine ⟨verified, ?_⟩
    intro size isSize
    dsimp only at isSize
    split_ifs at isSize
    cases isSize
    exact cached
  · rw [if_neg cached]
    have absent : segments expectedSize = none := Option.not_isSome_iff_eq_none.mp cached
    apply createAndFetch_verified honest _ _ verified (fills absent)
    · intro fetched accepted
      simp only [acceptsSize, Bool.not_or, Bool.and_eq_true,
        Bool.not_eq_true', decide_eq_false_iff_not] at accepted
      exact accepted.1
    · intro fetched found accepted isFound _
      simp only [acceptsSize, Bool.not_or, Bool.and_eq_true,
        Bool.not_eq_true', decide_eq_false_iff_not, not_not] at accepted
      rw [isFound] at accepted
      exact accepted.2

theorem fetchIfNotCachedPub_verified {env : CallEnv} {segments : Segments}
    (honest : env.host.Supplies (HonestMeta server fileId))
    (verified : AllVerified server fileId segments) (fills : ∀ info host,
        llmMetaRequest fileId env.host = .returned (some info) host →
        segments info.fileSize = none ∨ env.attaches = false →
          Fills fileId info.fileSize acceptsAny env host segments) :
    AllVerified server fileId
        (fetchIfNotCachedPub fileId env segments).1 ∧
      Mapped (fetchIfNotCachedPub fileId env segments).1
        (fetchIfNotCachedPub fileId env segments).2 := by
  have nothing : Mapped segments none := by
    rintro size ⟨⟩
  rw [fetchIfNotCachedPub]
  rcases learned : llmMetaRequest fileId env.host with
    _ | ⟨info | info, host⟩
  · exact ⟨verified, nothing⟩
  · exact ⟨verified, nothing⟩
  dsimp only
  split_ifs with hit
  · refine ⟨verified, ?_⟩
    intro size isSize
    cases isSize
    exact (Bool.and_eq_true_iff.mp hit).1
  · obtain ⟨file, served, small, isInfo, honestLater⟩ := llmMetaRequest_honest honest learned
    have missed : segments info.fileSize = none ∨ env.attaches = false := by
      rw [Bool.and_eq_true, not_and_or, Option.not_isSome_iff_eq_none, Bool.not_eq_true] at hit
      exact hit
    apply createAndFetch_verified honestLater _ _ verified (fills info host learned missed)
    · intro fetched accepted
      rw [acceptsAny, Bool.not_eq_true', decide_eq_false_iff_not] at accepted
      exact accepted
    · -- both replies describe the same file
      rintro fetched found - - ⟨sameFile, servedAgain, isLength, -⟩
      rw [served] at servedAgain
      cases servedAgain
      rw [UInt32.toNat_inj.symm, isLength, isInfo]
      exact (servedMeta_describes small).size.symm

theorem cacheNext_verified {cache : Cache} {call : CacheCall}
    (honest : call.env.host.Supplies (HonestMeta server fileId))
    (verified : AllVerified server fileId cache.segments) (fills : FillsCreated fileId cache call) :
    AllVerified server fileId (cacheNext fileId cache call).segments ∧
      Mapped (cacheNext fileId cache call).segments (cacheNext fileId cache call).returned := by
  cases call with
  | own expectedSize env => exact fetchIfNotCached_verified honest verified fills
  | pub env => exact fetchIfNotCachedPub_verified honest verified fills

/-- If every segment that a call creates is attached and filled, the pointers
that the calls return are to the file. -/
theorem cached_file_complete {calls : List CacheCall}
    (honest : ∀ call ∈ calls, call.env.host.Supplies (HonestMeta server fileId))
    (fills : Along (cacheNext fileId) (FillsCreated fileId) Cache.initial calls) :
    ReturnsFile server fileId (after (cacheNext fileId) Cache.initial calls) := by
  have reached :
      AllVerified server fileId
          (after (cacheNext fileId) Cache.initial calls).segments ∧
        Mapped (after (cacheNext fileId) Cache.initial calls).segments
          (after (cacheNext fileId) Cache.initial calls).returned := by
    induction calls using List.reverseRecOn with
    | nil =>
      refine ⟨?_, ?_⟩
      · rintro size bytes ⟨⟩
      · rintro size ⟨⟩
    | append_singleton calls call ih =>
      rw [along_snoc] at fills
      have earlier := ih
        (fun other isEarlier =>
          honest other (List.mem_append_left _ isEarlier))
        fills.1
      rw [after_snoc]
      exact cacheNext_verified (honest call (List.mem_append_right _ (List.mem_singleton_self _)))
        earlier.1 fills.2
  intro size isReturned
  obtain ⟨bytes, isBytes⟩ := Option.isSome_iff_exists.mp (reached.2 size isReturned)
  exact ⟨bytes, isBytes, reached.1 size bytes isBytes⟩

end Runs

/-- A server with one file of three bytes. -/
def cachedServer : Server where
  hashlib := Sha256.sha256Hash
  files := fun fileId => if fileId = 7 then some [10, 20, 30] else none

/-- Two replies with the metadata arrive, and then the rest. -/
def cachedCall (rest : List (Option (List UInt8))) : CallEnv where
  attaches := true
  creates := true
  attachesNew := true
  fresh := fun _ => 0
  host :=
    { incoming :=
        some (metaResponse cachedServer 7 [10, 20, 30]) ::
          some (metaResponse cachedServer 7 [10, 20, 30]) :: rest
      network := fun _ => []
      failures := []
      sent := []
      spent := false }

/-- The first call fills the segment, and two more take it from there. -/
def cachedCalls : List CacheCall :=
  [.own 3 (cachedCall [some (servedPacket 7 [10, 20, 30] 0)]),
    .own 3 (cachedCall []), .pub (cachedCall [])]

theorem cachedCall_honest {rest : List (Option (List UInt8))}
    (noMeta : ∀ datagram, some datagram ∈ rest → (datagram.take 48).getD 0 0 ≠ msgMetaResp) :
    (cachedCall rest).host.Supplies (HonestMeta cachedServer 7) := by
  constructor
  · intro datagram arrived isMeta
    have isResponse : datagram = metaResponse cachedServer 7 [10, 20, 30] := by
      simp only [cachedCall, List.mem_cons, Option.some.injEq] at arrived
      rcases arrived with isFirst | isSecond | others
      · exact isFirst
      · exact isSecond
      · exact absurd isMeta (noMeta datagram others)
    rw [isResponse]
    refine ⟨⟨metaRequest 7, ?_⟩, rfl⟩
    rw [handleMessage_metaRequest rfl (by decide)]
    exact List.mem_singleton_self _
  · intro request datagram arrived
    cases arrived

theorem cachedCalls_honest :
    ∀ call ∈ cachedCalls, call.env.host.Supplies (HonestMeta cachedServer 7) := by
  intro call isCall
  simp only [cachedCalls, List.mem_cons, List.not_mem_nil, or_false] at isCall
  rcases isCall with isFirst | isSecond | isThird
  · rw [isFirst]
    apply cachedCall_honest
    intro datagram arrived
    rw [List.mem_singleton, Option.some.injEq] at arrived
    rw [arrived]
    decide
  · rw [isSecond]
    exact cachedCall_honest (by simp)
  · rw [isThird]
    exact cachedCall_honest (by simp)

theorem cachedCalls_fill : Along (cacheNext 7) (FillsCreated 7) Cache.initial cachedCalls := by
  refine ⟨?_, ?_, ?_, trivial⟩
  · intro _ _
    exact ⟨rfl, _, _, rfl, by decide +kernel⟩
  · intro absent
    exact absurd (congrArg Option.isSome absent) (by decide +kernel)
  · intro info host learned missed
    obtain ⟨file, served, -, isInfo, -⟩ :=
      llmMetaRequest_honest (cachedCall_honest (by simp)) learned
    cases served
    rw [isInfo] at missed
    rcases missed with absent | unattached
    · exact absurd (congrArg Option.isSome absent) (by decide +kernel)
    · cases unattached

theorem cached_file_complete_cachedCalls :
    (after (cacheNext 7) Cache.initial cachedCalls).returned = some 3 ∧
      ReturnsFile cachedServer 7 (after (cacheNext 7) Cache.initial cachedCalls) :=
  ⟨by decide +kernel, cached_file_complete cachedCalls_honest cachedCalls_fill⟩

/-- A transfer that fails leaves zeros, which the second call returns. -/
theorem failedTransfer_served_later :
    (cachedCall []).host.Supplies (HonestMeta cachedServer 7) ∧
      (after (cacheNext 7) Cache.initial [.own 3 (cachedCall [])]).returned = none ∧
      (after (cacheNext 7) Cache.initial
        [.own 3 (cachedCall []), .own 3 (cachedCall [])]).returned = some 3 ∧
      ¬ ReturnsFile cachedServer 7
        (after (cacheNext 7) Cache.initial [.own 3 (cachedCall []), .own 3 (cachedCall [])]) := by
  refine ⟨cachedCall_honest (by simp), by decide +kernel, by decide +kernel, ?_⟩
  intro returnsFile
  obtain ⟨bytes, isBytes, file, served, -, sameDigest⟩ := returnsFile 3 (by decide +kernel)
  cases served
  have zeros :
      (Option.map (List.range 3).map
        ((after (cacheNext 7) Cache.initial
          [.own 3 (cachedCall []), .own 3 (cachedCall [])]).segments 3)) =
        some [0, 0, 0] := by
    decide +kernel
  rw [isBytes, Option.map_some, Option.some.injEq] at zeros
  change Sha256.sha256Hash ((List.range 3).map bytes) = Sha256.sha256Hash [10, 20, 30] at sameDigest
  rw [zeros] at sameDigest
  exact absurd sameDigest (by decide +kernel)

end LlmRuntime.Ftp
