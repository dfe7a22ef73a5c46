import LlmRuntime.Library.Bytes
import LlmRuntime.Library.OnesComplement

/-!
# Hand-built frames

`mcast_switch.py` builds Ethernet frames with IPv4 and UDP headers around the
server's replies, and takes the requests out of the frames of the guests by
fixed offsets.  A guest drops a frame whose checksums are wrong.
-/

namespace LlmRuntime.McastSwitch

open Bytes OnesComplement

/-- Pad to an even length, add the 16-bit words, fold twice and complement. -/
def inetChecksum (data : List UInt8) : Nat :=
  let data := if data.length &&& 1 ≠ 0 then data ++ [0] else data
  let total :=
    (List.range' 0 (data.length / 2) 2).foldl
      (fun total i =>
        total + ((data.getD i 0).toNat <<< 8 ||| (data.getD (i + 1) 0).toNat))
      0
  let total := (total &&& 0xffff) + (total >>> 16)
  let total := (total &&& 0xffff) + (total >>> 16)
  0xffff - (total &&& 0xffff)

/-- RFC 1071: adjacent bytes are paired to 16-bit words, a last one with a zero
byte behind it. -/
def words : List UInt8 → List Nat
  | [] => []
  | [last] => [256 * last.toNat]
  | high :: low :: rest => (256 * high.toNat + low.toNat) :: words rest

/-- The one's-complement sum of the words of a byte string. -/
def onesSum (data : List UInt8) : Nat := OnesComplement.sum 0xffff (words data)

/-- RFC 1071: the checksum is the complement of the sum. -/
def rfc1071Checksum (data : List UInt8) : Nat := 0xffff - onesSum data

/-- A hardware address. -/
structure Mac where
  b0 : UInt8
  b1 : UInt8
  b2 : UInt8
  b3 : UInt8
  b4 : UInt8
  b5 : UInt8
  deriving DecidableEq, Repr

def Mac.bytes (mac : Mac) : List UInt8 := [mac.b0, mac.b1, mac.b2, mac.b3, mac.b4, mac.b5]

/-- An IPv4 address. -/
structure Ipv4 where
  b0 : UInt8
  b1 : UInt8
  b2 : UInt8
  b3 : UInt8
  deriving DecidableEq, Repr

def Ipv4.bytes (ip : Ipv4) : List UInt8 := [ip.b0, ip.b1, ip.b2, ip.b3]

def ethHdr : Nat := 14
def ipHdr : Nat := 20
def udpHdr : Nat := 8
def l2l3l4 : Nat := ethHdr + ipHdr + udpHdr
def ethertypeIpv4 : Nat := 0x0800
def ethertypeArp : Nat := 0x0806
def ipprotoUdp : UInt8 := 17
def rftpPort : Nat := 9999
def serverMac : Mac := ⟨0x52, 0x54, 0x00, 0xaa, 0xbb, 0xcc⟩
def serverIp : Ipv4 := ⟨10, 0, 0, 1⟩

/-- A field `H` of `struct.pack`, which refuses what has more than 16 bits. -/
def packH (value : Nat) : Option (List UInt8) :=
  if value < 2 ^ 16 then some (beHalf (UInt16.ofNat value)) else none

def buildFrame (dstMac srcMac : Mac) (srcIp dstIp : Ipv4) (sport dport : UInt16)
    (payload : List UInt8) : Option (List UInt8) := do
  let udpLen := udpHdr + payload.length
  let ipLen := ipHdr + udpLen
  let udpLenField ← packH udpLen
  let pseudo := srcIp.bytes ++ dstIp.bytes ++ [0, ipprotoUdp] ++ udpLenField
  let ports := beHalf sport ++ beHalf dport
  let udpNoCk := ports ++ udpLenField ++ [0, 0]
  let ck := inetChecksum (pseudo ++ udpNoCk ++ payload)
  let udpCk ← packH (if ck ≠ 0 then ck else 0xffff)
  let udp := ports ++ udpLenField ++ udpCk ++ payload
  let ipLenField ← packH ipLen
  let ipBefore := [0x45, 0] ++ ipLenField ++ [0, 0, 0, 0, 64, ipprotoUdp]
  let addresses := srcIp.bytes ++ dstIp.bytes
  let ipCk ← packH (inetChecksum (ipBefore ++ [0, 0] ++ addresses))
  let ip := ipBefore ++ ipCk ++ addresses
  let etherType ← packH ethertypeIpv4
  let eth := dstMac.bytes ++ srcMac.bytes ++ etherType
  some (eth ++ ip ++ udp)

/-- The slice `raw[first:last]`. -/
def slice (raw : List UInt8) (first last : Nat) : List UInt8 := (raw.take last).drop first

def fieldAt (raw : List UInt8) (i : Nat) : Nat :=
  (raw.getD i 0).toNat <<< 8 ||| (raw.getD (i + 1) 0).toNat

/-- What `handle` reads of a datagram by fixed offsets. -/
structure Datagram where
  srcIp : List UInt8
  sport : Nat
  dport : Nat
  payload : List UInt8
  deriving DecidableEq, Repr

def parseDatagram (raw : List UInt8) : Datagram :=
  let udp := ethHdr + ipHdr
  let udpLen := fieldAt raw (udp + 4)
  { srcIp := slice raw (ethHdr + 12) (ethHdr + 16)
    sport := fieldAt raw udp
    dport := fieldAt raw (udp + 2)
    payload := slice raw l2l3l4 (l2l3l4 + udpLen - udpHdr) }

/-- What the switch does with a frame: nothing, an answer to an ARP request, or
a call of the server's `handle_message`.  For both it first learns the hardware
address of the sender. -/
inductive Action where
  | ignore
  | arpReply (senderIp senderMac : List UInt8)
  | message (srcMac : List UInt8) (datagram : Datagram)
  deriving DecidableEq, Repr

def handleArp (raw : List UInt8) : Action :=
  let arp := slice raw ethHdr (ethHdr + 28)
  if arp.length < 28 then .ignore
  else if fieldAt arp 6 = 1 ∧ slice arp 24 28 = serverIp.bytes then
    .arpReply (slice arp 14 18) (slice arp 8 14)
  else .ignore

def handle (raw : List UInt8) : Action :=
  if raw.length < ethHdr then .ignore
  else
    let srcMac := slice raw 6 12
    -- an echo of the switch's own frame
    if srcMac = serverMac.bytes then .ignore
    else
      let ethertype := fieldAt raw 12
      let dstMac := slice raw 0 6
      if ethertype = ethertypeArp then handleArp raw
      else if ethertype ≠ ethertypeIpv4 ∨ dstMac ≠ serverMac.bytes then .ignore
      else if raw.length < l2l3l4 then .ignore
      else if raw.getD (ethHdr + 9) 0 ≠ ipprotoUdp then .ignore
      else if slice raw (ethHdr + 16) (ethHdr + 20) ≠ serverIp.bytes then .ignore
      else
        let datagram := parseDatagram raw
        if datagram.dport ≠ rftpPort then .ignore
        else .message srcMac datagram

section Checksum

theorem words_le (data : List UInt8) : ∀ word ∈ words data, word ≤ 0xffff := by
  induction data using words.induct with
  | case1 => simp [words]
  | case2 last =>
    have bound := last.toNat_lt
    simp only [words, List.mem_singleton]
    omega
  | case3 high low rest ih =>
    have highBound := high.toNat_lt
    have lowBound := low.toNat_lt
    rw [words]
    intro word isIn
    rcases List.mem_cons.mp isIn with isFirst | isLater
    · omega
    · exact ih word isLater

theorem words_append {data : List UInt8} (even : data.length % 2 = 0) (more : List UInt8) :
    words (data ++ more) = words data ++ words more := by
  induction data using words.induct with
  | case1 => rfl
  | case2 last => simp at even
  | case3 high low rest ih =>
    have evenRest : rest.length % 2 = 0 := by
      simp only [List.length_cons] at even
      omega
    rw [List.cons_append, List.cons_append, words, words, ih evenRest, List.cons_append]

/-- A byte of padding changes nothing. -/
theorem words_pad {data : List UInt8} (odd : data.length % 2 = 1) :
    words (data ++ [0]) = words data := by
  induction data using words.induct with
  | case1 => simp at odd
  | case2 last => simp [words]
  | case3 high low rest ih =>
    have oddRest : rest.length % 2 = 1 := by
      simp only [List.length_cons] at odd
      omega
    rw [List.cons_append, List.cons_append, words, words, ih oddRest]

theorem words_sum_le (data : List UInt8) : (words data).sum ≤ 0xffff * ((data.length + 1) / 2) := by
  induction data using words.induct with
  | case1 => simp [words]
  | case2 last =>
    have bound := last.toNat_lt
    simp only [words, List.sum_singleton, List.length_singleton]
    omega
  | case3 high low rest ih =>
    have highBound := high.toNat_lt
    have lowBound := low.toNat_lt
    rw [words, List.sum_cons, List.length_cons, List.length_cons]
    omega

theorem shift_or (high low : UInt8) :
    high.toNat <<< 8 ||| low.toNat = 256 * high.toNat + low.toNat := by
  rw [← Nat.shiftLeft_add_eq_or_of_lt low.toNat_lt, Nat.shiftLeft_eq, Nat.mul_comm]

theorem fold_eq (total : Nat) :
    (total &&& 0xffff) + (total >>> 16) = OnesComplement.fold 0xffff total := by
  have low : total &&& 0xffff = total % 2 ^ 16 := Nat.and_two_pow_sub_one_eq_mod total 16
  rw [low, Nat.shiftRight_eq_div_pow]
  rfl

theorem loop_eq (before rest : List UInt8) (total : Nat) (even : rest.length % 2 = 0) :
    (List.range' before.length (rest.length / 2) 2).foldl
        (fun total i =>
          total +
            (((before ++ rest).getD i 0).toNat <<< 8 ||| ((before ++ rest).getD (i + 1) 0).toNat))
        total =
      total + (words rest).sum := by
  induction rest using words.induct generalizing before total with
  | case1 => simp [words]
  | case2 last => simp at even
  | case3 high low rest ih =>
    have evenRest : rest.length % 2 = 0 := by
      simp only [List.length_cons] at even
      omega
    have count : (high :: low :: rest).length / 2 = rest.length / 2 + 1 := by
      simp only [List.length_cons]
      omega
    have later := ih (before ++ [high, low]) (total + (256 * high.toNat + low.toNat)) evenRest
    simp only [List.length_append, List.length_cons, List.length_nil,
      List.append_assoc, List.cons_append, List.nil_append] at later
    rw [count, List.range'_succ, List.foldl_cons, words, List.sum_cons, ← Nat.add_assoc, ← later]
    have first : (before ++ high :: low :: rest).getD before.length 0 = high := by simp
    have second : (before ++ high :: low :: rest).getD (before.length + 1) 0 = low := by simp
    rw [first, second, shift_or]

/-- The function adds the words of the RFC, and its two folds are enough. -/
theorem inetChecksum_represents {data : List UInt8} (short : data.length ≤ 65535) :
    ∃ total, inetChecksum data = 0xffff - total ∧ Represents 0xffff total (words data).sum := by
  have padded :
      ∃ even : List UInt8,
        (if data.length &&& 1 ≠ 0 then data ++ [0] else data) = even ∧
          even.length % 2 = 0 ∧ words even = words data := by
    rw [Nat.and_one_is_mod]
    by_cases odd : data.length % 2 = 1
    · refine ⟨data ++ [0], if_pos (by omega), ?_, words_pad odd⟩
      rw [List.length_append, List.length_singleton]
      omega
    · exact ⟨data, if_neg (by omega), by omega, rfl⟩
  obtain ⟨even, isPadded, isEven, sameWords⟩ := padded
  have loop := loop_eq [] even 0 isEven
  rw [List.length_nil, List.nil_append, Nat.zero_add, sameWords] at loop
  have bound := words_sum_le data
  have folded :
      Represents 0xffff (OnesComplement.fold 0xffff (OnesComplement.fold 0xffff (words data).sum))
        (words data).sum :=
    fold_fold_represents (by omega)
  refine ⟨_, ?_, folded⟩
  rw [inetChecksum]
  rw [isPadded, loop, fold_eq, fold_eq]
  have low : ∀ total, total ≤ 0xffff → total &&& 0xffff = total := by
    intro total small
    have isMod : total &&& 0xffff = total % 2 ^ 16 := Nat.and_two_pow_sub_one_eq_mod total 16
    rw [isMod, Nat.mod_eq_of_lt (by omega)]
  rw [low _ folded.le]

theorem onesSum_represents (data : List UInt8) :
    Represents 0xffff (onesSum data) (words data).sum := sum_represents (words data) (words_le data)

theorem inetChecksum_eq_rfc1071 {data : List UInt8} (short : data.length ≤ 65535) :
    inetChecksum data = rfc1071Checksum data := by
  obtain ⟨total, isChecksum, represents⟩ := inetChecksum_represents short
  rw [isChecksum, rfc1071Checksum, represents.unique (onesSum_represents data)]

theorem words_beHalf (half : UInt16) : words (beHalf half) = [half.toNat] := by
  have bound := half.toNat_lt
  simp only [beHalf, words, UInt8.toNat_ofNat', List.cons.injEq, and_true]
  omega

/-- A field that was zero for the checksum and is then filled with it makes the
sum all ones. -/
theorem onesSum_filled {before after : List UInt8} {check : UInt16} (even : before.length % 2 = 0)
    (short : (before ++ [0, 0] ++ after).length ≤ 65535)
    (isCheck : check.toNat = inetChecksum (before ++ [0, 0] ++ after) ∨
        inetChecksum (before ++ [0, 0] ++ after) = 0 ∧ check.toNat = 0xffff) :
    onesSum (before ++ beHalf check ++ after) = 0xffff := by
  obtain ⟨total, isChecksum, represents⟩ := inetChecksum_represents short
  have evenBoth : ∀ field : List UInt8, field.length = 2 → (before ++ field).length % 2 = 0 := by
    intro field isTwo
    rw [List.length_append, isTwo]
    omega
  have zeroSum :
      (words (before ++ [0, 0] ++ after)).sum = (words before).sum + (words after).sum := by
    rw [words_append (evenBoth _ rfl), words_append even]
    simp [words]
  have filledSum :
      (words (before ++ beHalf check ++ after)).sum =
        (words (before ++ [0, 0] ++ after)).sum + check.toNat := by
    rw [zeroSum, words_append (evenBoth _ rfl), words_append even, words_beHalf]
    simp only [List.sum_append, List.sum_singleton]
    omega
  have fills : Fills 0xffff total check.toNat := by
    rw [isChecksum] at isCheck
    have le := represents.le
    rw [Fills]
    omega
  have all := represents.filled fills (by decide)
  rw [← filledSum] at all
  exact (onesSum_represents _).unique all

end Checksum

/-! ## What is built -/

theorem packH_eq {value : Nat} (small : value < 2 ^ 16) :
    packH value = some (beHalf (UInt16.ofNat value)) :=
  if_pos small

theorem ofNat_toNat {value : Nat} (small : value < 2 ^ 16) :
    (UInt16.ofNat value).toNat = value := by
  rw [UInt16.toNat_ofNat', Nat.mod_eq_of_lt small]

theorem inetChecksum_lt (data : List UInt8) : inetChecksum data < 2 ^ 16 := by
  rw [inetChecksum]
  omega

section Frame

variable (dstMac srcMac : Mac) (srcIp dstIp : Ipv4) (sport dport : UInt16) (payload : List UInt8)

/-- The IPv4 header before its checksum. -/
def ipHead (ipLen : UInt16) : List UInt8 :=
  [0x45, 0] ++ beHalf ipLen ++ [0, 0, 0, 0, 64, ipprotoUdp]

def udpHead (udpLen : UInt16) : List UInt8 := beHalf sport ++ beHalf dport ++ beHalf udpLen

def pseudoHeader (udpLen : UInt16) : List UInt8 :=
  srcIp.bytes ++ dstIp.bytes ++ [0, ipprotoUdp] ++ beHalf udpLen

theorem ipHead_length (ipLen : UInt16) : (ipHead ipLen).length = 10 := rfl

theorem udpHead_length (udpLen : UInt16) : (udpHead sport dport udpLen).length = 6 := rfl

theorem pseudoHeader_length (udpLen : UInt16) : (pseudoHeader srcIp dstIp udpLen).length = 12 := rfl

def frameOf (ipLen ipCk udpLen udpCk : UInt16) : List UInt8 :=
  dstMac.bytes ++ srcMac.bytes ++ [8, 0] ++
    (ipHead ipLen ++ beHalf ipCk ++ (srcIp.bytes ++ dstIp.bytes)) ++
    (udpHead sport dport udpLen ++ beHalf udpCk ++ payload)

/-- The checks of the frame fill up their sums. -/
structure Checked (ipLen ipCk udpLen udpCk : UInt16) : Prop where
  ipSum : onesSum (ipHead ipLen ++ beHalf ipCk ++ (srcIp.bytes ++ dstIp.bytes)) = 0xffff
  udpSum :
    onesSum
        (pseudoHeader srcIp dstIp udpLen ++ udpHead sport dport udpLen ++ beHalf udpCk ++ payload) =
      0xffff
  udpCk : udpCk.toNat ≠ 0

variable {payload}

theorem buildFrame_eq {udpLen ipLen : UInt16} (isUdpLen : udpLen.toNat = udpHdr + payload.length)
    (isIpLen : ipLen.toNat = ipHdr + (udpHdr + payload.length)) :
    let ck :=
      inetChecksum
        (pseudoHeader srcIp dstIp udpLen ++ (udpHead sport dport udpLen ++ [0, 0]) ++ payload)
    let ipCk := inetChecksum (ipHead ipLen ++ [0, 0] ++ (srcIp.bytes ++ dstIp.bytes))
    buildFrame dstMac srcMac srcIp dstIp sport dport payload =
      some
        (frameOf dstMac srcMac srcIp dstIp sport dport payload ipLen
          (UInt16.ofNat ipCk) udpLen
          (UInt16.ofNat (if ck ≠ 0 then ck else 0xffff))) := by
  have packedUdp : packH (udpHdr + payload.length) = some (beHalf udpLen) := by
    rw [← isUdpLen, packH_eq udpLen.toNat_lt, UInt16.ofNat_toNat]
  have packedIp : packH (ipHdr + (udpHdr + payload.length)) = some (beHalf ipLen) := by
    rw [← isIpLen, packH_eq ipLen.toNat_lt, UInt16.ofNat_toNat]
  have isType : packH ethertypeIpv4 = some [8, 0] := by decide
  intro ck ipCk
  have ckFits : (if ck ≠ 0 then ck else 0xffff) < 2 ^ 16 := by
    split_ifs
    · exact inetChecksum_lt _
    · decide
  have ipCkFits : ipCk < 2 ^ 16 := inetChecksum_lt _
  rw [buildFrame]
  simp only [packedUdp, packedIp, isType, Option.bind_eq_bind, Option.bind_some]
  change (packH (if ck ≠ 0 then ck else 0xffff)).bind (fun _ =>
    (packH ipCk).bind fun _ => _) = _
  rw [packH_eq ckFits, Option.bind_some, packH_eq ipCkFits, Option.bind_some]
  rfl

theorem buildFrame_checked (short : payload.length ≤ 65507) :
    ∃ ipLen ipCk udpLen udpCk : UInt16,
      buildFrame dstMac srcMac srcIp dstIp sport dport payload =
          some (frameOf dstMac srcMac srcIp dstIp sport dport payload ipLen ipCk udpLen udpCk) ∧
        ipLen.toNat = 28 + payload.length ∧
        udpLen.toNat = 8 + payload.length ∧
        Checked srcIp dstIp sport dport payload ipLen ipCk udpLen udpCk := by
  have isUdpLen : (UInt16.ofNat (8 + payload.length)).toNat = 8 + payload.length :=
    ofNat_toNat (by omega)
  have isIpLen : (UInt16.ofNat (28 + payload.length)).toNat = 28 + payload.length :=
    ofNat_toNat (by omega)
  have isFrame :=
    @buildFrame_eq dstMac srcMac srcIp dstIp sport dport payload
      (UInt16.ofNat (8 + payload.length)) (UInt16.ofNat (28 + payload.length))
      (by rw [isUdpLen, udpHdr])
      (by rw [isIpLen, ipHdr, udpHdr]; omega)
  refine ⟨_, _, _, _, isFrame, isIpLen, isUdpLen, ?_⟩
  generalize UInt16.ofNat (8 + payload.length) = udpLen
  generalize UInt16.ofNat (28 + payload.length) = ipLen
  rw [← List.append_assoc (pseudoHeader srcIp dstIp udpLen)]
  generalize isCk :
    inetChecksum
      (pseudoHeader srcIp dstIp udpLen ++ udpHead sport dport udpLen ++ [0, 0] ++ payload) = ck
  have ckFits : (if ck ≠ 0 then ck else 0xffff) < 2 ^ 16 := by
    split_ifs
    · rw [← isCk]
      exact inetChecksum_lt _
    · decide
  refine ⟨?_, ?_, ?_⟩
  · refine onesSum_filled (by rw [ipHead_length]) (by simp [ipHead_length, Ipv4.bytes]) ?_
    exact .inl (ofNat_toNat (inetChecksum_lt _))
  · refine onesSum_filled ?_ ?_ ?_
    · rw [List.length_append, pseudoHeader_length, udpHead_length]
    · simp only [List.length_append, List.length_cons, List.length_nil,
        pseudoHeader_length, udpHead_length]
      omega
    · rw [ofNat_toNat ckFits, isCk]
      split_ifs with isZero
      · exact .inl rfl
      · exact .inr ⟨not_not.mp isZero, rfl⟩
  · rw [ofNat_toNat ckFits]
    split_ifs with isZero
    · exact isZero
    · decide

end Frame

/-- What a receiver checks of a frame: the one's-complement sums over the IPv4
header and over the UDP datagram with its pseudo-header, that there is a UDP
checksum, and both lengths. -/
structure Verifies (frame : List UInt8) : Prop where
  ipSum : onesSum (slice frame ethHdr (ethHdr + ipHdr)) = 0xffff
  udpSum :
    onesSum
        (slice frame (ethHdr + 12) (ethHdr + 20) ++
          [0, frame.getD (ethHdr + 9) 0] ++
          slice frame (ethHdr + ipHdr + 4) (ethHdr + ipHdr + 6) ++
          frame.drop (ethHdr + ipHdr)) =
      0xffff
  udpCk : fieldAt frame (ethHdr + ipHdr + 6) ≠ 0
  ipLen : fieldAt frame (ethHdr + 2) = frame.length - ethHdr
  udpLen : fieldAt frame (ethHdr + ipHdr + 4) = frame.length - (ethHdr + ipHdr)

theorem half_eq (half : UInt16) :
    (UInt8.ofNat (half.toNat / 256)).toNat <<< 8 |||
        (UInt8.ofNat half.toNat).toNat =
      half.toNat := by
  have bound := half.toNat_lt
  rw [shift_or, UInt8.toNat_ofNat', UInt8.toNat_ofNat']
  omega

theorem Mac.bytes_injective {mac other : Mac} (same : mac.bytes = other.bytes) : mac = other := by
  simp only [Mac.bytes, List.cons.injEq, and_true] at same
  exact Mac.mk.injEq .. ▸ same

section Read

variable (dstMac srcMac : Mac) (srcIp dstIp : Ipv4) (sport dport : UInt16)
  (payload : List UInt8) (ipLen ipCk udpLen udpCk : UInt16)

theorem frameOf_length :
    (frameOf dstMac srcMac srcIp dstIp sport dport payload ipLen ipCk udpLen
        udpCk).length =
      l2l3l4 + payload.length := by
  simp only [frameOf, List.length_append, ipHead_length, udpHead_length, beHalf, Mac.bytes,
    Ipv4.bytes, List.length_cons, List.length_nil, l2l3l4, ethHdr, ipHdr, udpHdr]
  omega

theorem frameOf_drop :
    (frameOf dstMac srcMac srcIp dstIp sport dport payload ipLen ipCk udpLen
        udpCk).drop l2l3l4 =
      payload := rfl

theorem parseDatagram_frameOf (isUdpLen : udpLen.toNat = 8 + payload.length) :
    parseDatagram (frameOf dstMac srcMac srcIp dstIp sport dport payload ipLen ipCk udpLen udpCk) =
      ⟨srcIp.bytes, sport.toNat, dport.toNat, payload⟩ := by
  have length :=
    frameOf_length dstMac srcMac srcIp dstIp sport dport payload ipLen ipCk udpLen udpCk
  have behind := frameOf_drop dstMac srcMac srcIp dstIp sport dport payload ipLen ipCk udpLen udpCk
  have lengthField :
      fieldAt (frameOf dstMac srcMac srcIp dstIp sport dport payload ipLen ipCk udpLen udpCk)
          (ethHdr + ipHdr + 4) =
        8 + payload.length :=
    (half_eq udpLen).trans isUdpLen
  rw [parseDatagram, lengthField]
  refine Datagram.mk.injEq .. ▸ ⟨rfl, half_eq sport, half_eq dport, ?_⟩
  have whole : l2l3l4 + (8 + payload.length) - udpHdr = l2l3l4 + payload.length := by
    rw [udpHdr]
    omega
  rw [slice, whole, ← length, List.take_length, behind]

theorem verifies_frameOf (checked : Checked srcIp dstIp sport dport payload ipLen ipCk udpLen udpCk)
    (isIpLen : ipLen.toNat = 28 + payload.length) (isUdpLen : udpLen.toNat = 8 + payload.length) :
    Verifies (frameOf dstMac srcMac srcIp dstIp sport dport payload ipLen ipCk udpLen udpCk) := by
  have length :=
    frameOf_length dstMac srcMac srcIp dstIp sport dport payload ipLen ipCk udpLen udpCk
  have ipField := (half_eq ipLen).trans isIpLen
  have udpField := (half_eq udpLen).trans isUdpLen
  refine ⟨checked.ipSum, ?_, ?_, ?_, ?_⟩
  · have udpSum := checked.udpSum
    rw [List.append_assoc, List.append_assoc] at udpSum
    rw [← List.append_assoc (udpHead sport dport udpLen)] at udpSum
    exact udpSum
  · exact fun isZero => checked.udpCk ((half_eq udpCk).symm.trans isZero)
  · refine ipField.trans ?_
    rw [length, l2l3l4, ethHdr, ipHdr, udpHdr]
    omega
  · refine udpField.trans ?_
    rw [length, l2l3l4, ethHdr, ipHdr, udpHdr]
    omega

theorem handle_frameOf (isUdpLen : udpLen.toNat = 8 + payload.length)
    (other : srcMac ≠ serverMac) (isPort : dport.toNat = rftpPort) :
    handle (frameOf serverMac srcMac srcIp serverIp sport dport payload ipLen ipCk udpLen udpCk) =
      .message srcMac.bytes ⟨srcIp.bytes, sport.toNat, dport.toNat, payload⟩ := by
  have length :=
    frameOf_length serverMac srcMac srcIp serverIp sport dport payload ipLen ipCk udpLen udpCk
  have parsed :=
    parseDatagram_frameOf serverMac srcMac srcIp serverIp sport dport payload
      ipLen ipCk udpLen udpCk isUdpLen
  generalize isFrame :
    frameOf serverMac srcMac srcIp serverIp sport dport payload ipLen ipCk
      udpLen udpCk = frame at length parsed
  have isSource : slice frame 6 12 = srcMac.bytes := by
    rw [← isFrame]
    rfl
  have isTarget : slice frame 0 6 = serverMac.bytes := by
    rw [← isFrame]
    rfl
  have isType : fieldAt frame 12 = ethertypeIpv4 := by
    rw [← isFrame]
    exact (shift_or 8 0).trans rfl
  have isUdp : frame.getD (ethHdr + 9) 0 = ipprotoUdp := by
    rw [← isFrame]
    rfl
  have isAddress : slice frame (ethHdr + 16) (ethHdr + 20) = serverIp.bytes := by
    rw [← isFrame]
    rfl
  have long : ¬ frame.length < l2l3l4 := by omega
  have hasEthernet : ¬ frame.length < ethHdr := by
    rw [length, l2l3l4]
    omega
  have notArp : ¬ ethertypeIpv4 = ethertypeArp := by decide
  have notEcho : ¬ srcMac.bytes = serverMac.bytes := fun same => other (Mac.bytes_injective same)
  rw [handle, if_neg hasEthernet]
  dsimp only
  rw [isSource, isTarget, isType, isUdp, isAddress, parsed, if_neg notEcho,
    if_neg notArp, if_neg (by simp), if_neg long, if_neg (by simp),
    if_neg (by simp), if_neg (by simpa using isPort)]

end Read

/-- Every frame that can be built verifies and is read back as it was built,
by `handle` too if it is for the switch; and the checksum is that of the RFC. -/
theorem buildFrame_verifies_and_parses :
    (∀ (dstMac srcMac : Mac) (srcIp dstIp : Ipv4) (sport dport : UInt16)
        (payload : List UInt8),
        payload.length ≤ 65507 →
          ∃ frame,
            buildFrame dstMac srcMac srcIp dstIp sport dport payload = some frame ∧
              Verifies frame ∧
              parseDatagram frame = ⟨srcIp.bytes, sport.toNat, dport.toNat, payload⟩ ∧
              (dstMac = serverMac → srcMac ≠ serverMac → dstIp = serverIp → dport.toNat = rftpPort →
                handle frame =
                  .message srcMac.bytes ⟨srcIp.bytes, sport.toNat, dport.toNat, payload⟩)) ∧
      ∀ data : List UInt8, data.length ≤ 65535 → inetChecksum data = rfc1071Checksum data := by
  refine ⟨?_, fun data short => inetChecksum_eq_rfc1071 short⟩
  intro dstMac srcMac srcIp dstIp sport dport payload short
  obtain ⟨ipLen, ipCk, udpLen, udpCk, isFrame, isIpLen, isUdpLen, checked⟩ :=
    buildFrame_checked dstMac srcMac srcIp dstIp sport dport short
  refine ⟨_, isFrame, ?_, ?_, ?_⟩
  · exact verifies_frameOf dstMac srcMac srcIp dstIp sport dport payload ipLen
      ipCk udpLen udpCk checked isIpLen isUdpLen
  · exact parseDatagram_frameOf dstMac srcMac srcIp dstIp sport dport payload
      ipLen ipCk udpLen udpCk isUdpLen
  · intro isTarget notEcho isAddress isPort
    rw [isTarget, isAddress]
    exact handle_frameOf srcMac srcIp sport dport payload ipLen ipCk udpLen
      udpCk isUdpLen notEcho isPort

/-- A request of three bytes from a guest. -/
theorem smallRequest_verifies_and_parses :
    ∃ frame,
      buildFrame serverMac ⟨0x52, 0x54, 0, 0x12, 0x34, 0x56⟩ ⟨10, 0, 0, 5⟩
          serverIp 2000 9999 [1, 2, 3] =
        some frame ∧
        Verifies frame ∧
        handle frame =
          .message [0x52, 0x54, 0, 0x12, 0x34, 0x56] ⟨[10, 0, 0, 5], 2000, 9999, [1, 2, 3]⟩ := by
  obtain ⟨frame, isFrame, verifies, -, handled⟩ :=
    buildFrame_verifies_and_parses.1 serverMac
      ⟨0x52, 0x54, 0, 0x12, 0x34, 0x56⟩ ⟨10, 0, 0, 5⟩ serverIp 2000 9999
      [1, 2, 3] (by decide)
  exact ⟨frame, isFrame, verifies, handled rfl (by decide) rfl (by decide)⟩

end LlmRuntime.McastSwitch
