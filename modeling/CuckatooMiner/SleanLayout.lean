import Mathlib
import CuckatooMiner.Solver
import CuckatooMiner.SleanShape

/-!
# The layout of slean buffers, on the host and in the shader

The host sizes the arenas and the dead lists of a slean round in wide numbers, doubling
the number of parts until the buffers fit the adapter. The kernels compute the same
capacities and positions again from the uniform parameters of a part, in 32-bit numbers
that wrap, and with the shader's division, which returns the dividend for a divisor of
zero. The two agree as long as a part is not smaller than a bucket, there is a bucket for
each arena, and the local bitmap stays below sixteen mebibytes.
-/

namespace CuckatooMiner.SleanLayout

open Solver

/-! ## The host -/

/-- How a graph is trimmed. -/
inductive TrimmingMode
  | auto
  | lean
  | slean
deriving DecidableEq, Repr

/-- The settings of the solver. -/
structure GpuWgpuConfig where
  trimming : TrimmingMode
  sleanParts : Nat
  localRamKib : Nat
deriving DecidableEq, Repr

/-- The settings that a solver is made with. -/
def newWithConfig (config : GpuWgpuConfig) : Except SolveError GpuWgpuConfig :=
  if config.sleanParts < 2 ∨ ¬ config.sleanParts.isPowerOfTwo then
    .error (.invalidConfig "slean_parts must be a power of two and at least 2")
  else if config.localRamKib < 2 ∨ ¬ config.localRamKib.isPowerOfTwo then
    .error (.invalidConfig "local_ram_kib must be a power of two and at least 2")
  else .ok config

/-- The limits of an adapter, in bytes. -/
structure Limits where
  maxComputeWorkgroupStorageSize : Nat
  maxBufferSize : Nat
  maxStorageBufferBindingSize : Nat
deriving DecidableEq, Repr

/-- What the sizing depends on. The limits and the free memory are those found at the start, and
    are not asked for again. -/
structure GpuWgpuSolver where
  limits : Limits
  config : GpuWgpuConfig
  startupAvailableMemory : Option Nat
  forceSleanOverflow : Bool
deriving DecidableEq, Repr

/-- The memory from which two parts are used. -/
def sleanPartsTwoAvailableMemory : Nat := 18 * 1024 * 1024 * 1024

/-- The sizes of a round as the host computes them. -/
structure HostSizing where
  bucketCount : Nat
  parts : Nat
  partEdges : Nat
  capacity : Nat
  scratchBytes : Nat
  deadBucketCount : Nat
  deadScratchBytes : Nat
deriving DecidableEq, Repr

/-- The number of edges of a graph. -/
def edgeCount (edgeBits : Nat) : Nat := 1 <<< edgeBits

/-- The words of its bitmaps. -/
def wordCount (edgeBits : Nat) : Nat := edgeCount edgeBits ⌈/⌉ 32

/-- The bytes of its bitmaps. -/
def bitmapBytes (edgeBits : Nat) : Nat := wordCount edgeBits * 4

/-- The capacity of a dead list. -/
def hostDeadCapacity (partEdges deadBucketCount : Nat) : Nat :=
  let deadBase := partEdges ⌈/⌉ deadBucketCount
  (deadBase * 45) ⌈/⌉ 100 + 64

section

variable (solver : GpuWgpuSolver)

/-- The number of parts to start with. -/
def selectedSleanParts (enabled : Bool) : Nat :=
  let available := if enabled then solver.startupAvailableMemory else none
  let parts :=
    match available with
    | some memory =>
        if enabled ∧ solver.config.trimming = .auto then
          if memory ≥ sleanPartsTwoAvailableMemory then 2 else 4
        else solver.config.sleanParts
    | none => solver.config.sleanParts
  if enabled ∧ parts = 2 ∧ available.all (· < sleanPartsTwoAvailableMemory) then 4 else parts

/-- The local memory that a workgroup uses. -/
def localBytes (edgeBits : Nat) : Nat :=
  min (min (solver.config.localRamKib * 1024) solver.limits.maxComputeWorkgroupStorageSize)
    (bitmapBytes edgeBits)

/-- The number of buckets. -/
def hostBucketCount (edgeBits : Nat) : Nat := bitmapBytes edgeBits ⌈/⌉ localBytes solver edgeBits

/-- The sizes for a number of parts. -/
def partSizes (edgeBits parts : Nat) : HostSizing :=
  let bucketCount := hostBucketCount solver edgeBits
  let partEdges := edgeCount edgeBits ⌈/⌉ parts
  let base := partEdges ⌈/⌉ bucketCount
  let capacity := if solver.forceSleanOverflow then 1 else base + base ⌈/⌉ 20 + 64
  let bucketsPerBuffer := bucketCount / 4
  let bytes := (bucketsPerBuffer + 1 + bucketsPerBuffer * capacity) * 4
  let deadBucketCount := max (partEdges ⌈/⌉ 8 ⌈/⌉ localBytes solver edgeBits) 1
  let deadCapacity := hostDeadCapacity partEdges deadBucketCount
  let deadBytes := (deadBucketCount + 1 + deadBucketCount * deadCapacity) * 4
  ⟨bucketCount, parts, partEdges, capacity, bytes, deadBucketCount, deadBytes⟩

/-- Whether the buffers of a sizing fit the adapter. The memory that is free at the time is not
    asked for. -/
def FitsLimits (sizing : HostSizing) : Prop :=
  sizing.scratchBytes ≤ solver.limits.maxBufferSize ∧
    sizing.scratchBytes ≤ solver.limits.maxStorageBufferBindingSize ∧
    sizing.deadScratchBytes ≤ solver.limits.maxBufferSize ∧
    sizing.deadScratchBytes ≤ solver.limits.maxStorageBufferBindingSize

instance (sizing : HostSizing) : Decidable (FitsLimits solver sizing) :=
  inferInstanceAs (Decidable (_ ∧ _))

/-- Double the parts until the buffers fit. A doubling for each bit of the number of
    edges, and one more, exceeds it. -/
def fitParts (enabled : Bool) (edgeBits : Nat) : Nat → Nat → Except SolveError HostSizing
  | 0, _ => .error (.unsupported
      "slean cannot fit one part in the adapter's storage binding limit")
  | doublings + 1, parts =>
      if parts > edgeCount edgeBits then
        .error (.unsupported "slean cannot fit one part in the adapter's storage binding limit")
      else
        let sizing := partSizes solver edgeBits parts
        if ¬ enabled ∨ FitsLimits solver sizing then .ok sizing
        else fitParts enabled edgeBits doublings (parts * 2)

/-- The sizes of the slean rounds of a graph. -/
def sleanSizing (enabled : Bool) (edgeBits : Nat) : Except SolveError HostSizing :=
  let bucketCount := hostBucketCount solver edgeBits
  if enabled ∧ (¬ bucketCount.isPowerOfTwo ∨ bucketCount > 65535) then
    .error (.unsupported ("slean requires a power-of-two bucket count fitting u16, got " ++
      toString bucketCount))
  else fitParts solver enabled edgeBits (edgeBits + 2) (selectedSleanParts solver enabled)

end

/-! ## The kernels -/

/-- The uniform parameters of a part that the slean kernels read. -/
structure Uniform where
  edgeBits : BitVec 32
  wordCount : BitVec 32
  chunkBase : BitVec 32
  chunkCount : BitVec 32
  bucketConfig : BitVec 32
deriving DecidableEq, Repr

/-- The uniform parameters of a part. The low bit of the bucket configuration forces the
    overflow path in tests. -/
def partUniform (solver : GpuWgpuSolver) (edgeBits : Nat) (sizing : HostSizing) (part : Nat) :
    Uniform :=
  let base := part * sizing.partEdges
  ⟨BitVec.ofNat 32 edgeBits, BitVec.ofNat 32 (wordCount edgeBits), BitVec.ofNat 32 base,
    BitVec.ofNat 32 (min sizing.partEdges (edgeCount edgeBits - base)),
    (BitVec.ofNat 32 sizing.bucketCount <<< 16) |||
      BitVec.ofNat 32 solver.forceSleanOverflow.toNat⟩

/-- The quotient in the shader: the dividend itself if the divisor is zero. -/
def quotient (left right : BitVec 32) : BitVec 32 := if right = 0#32 then left else left / right

section

variable (u : Uniform)

/-- The number of buckets. -/
def bucketConfigCount : BitVec 32 := u.bucketConfig >>> 16

/-- The arena words before the entries. -/
def sleanHeaderWords : BitVec 32 := bucketConfigCount u / 4#32 + 1#32

/-- The overflow counter of an arena. -/
def sleanOverflowWord : BitVec 32 := bucketConfigCount u / 4#32

/-- The buckets of an arena. -/
def sleanShardWidth : BitVec 32 := bucketConfigCount u / 4#32

/-- The capacity of a bucket. -/
def sleanCapacity : BitVec 32 :=
  if u.bucketConfig &&& 1#32 ≠ 0#32 then 1#32
  else
    let base := quotient (u.chunkCount + bucketConfigCount u - 1#32) (bucketConfigCount u)
    base + (base + 19#32) / 20#32 + 64#32

/-- The bitmap words of a bucket. -/
def sleanBucketWords : BitVec 32 := quotient u.wordCount (bucketConfigCount u)

/-- The number of dead lists. -/
def sleanDeadBucketCount : BitVec 32 :=
  quotient ((u.chunkCount + 31#32) >>> 5) (sleanBucketWords u)

/-- The words before the dead edges. -/
def sleanDeadHeaderWords : BitVec 32 := sleanDeadBucketCount u + 1#32

/-- The overflow counter of the dead lists. -/
def sleanDeadOverflowWord : BitVec 32 := sleanDeadBucketCount u

/-- The capacity of a dead list. -/
def sleanDeadCapacity : BitVec 32 :=
  let base := quotient (u.chunkCount + sleanDeadBucketCount u - 1#32) (sleanDeadBucketCount u)
  (base * 45#32 + 99#32) / 100#32 + 64#32

/-- The dead list of an edge of a part. -/
def deadBucket (localEdge : BitVec 32) : BitVec 32 := quotient localEdge (sleanBucketWords u * 32#32)

/-- The arena of a bucket. -/
def sleanShard (bucket : BitVec 32) : BitVec 32 :=
  let shard := quotient bucket (sleanShardWidth u)
  if shard < 3#32 then shard else 3#32

/-- The count of a bucket within its arena. -/
def sleanLocalBucket (bucket : BitVec 32) : BitVec 32 :=
  bucket - sleanShard u bucket * sleanShardWidth u

/-- An entry of a bucket within its arena. -/
def arenaEntry (bucket slot : BitVec 32) : BitVec 32 :=
  sleanHeaderWords u + sleanLocalBucket u bucket * sleanCapacity u + slot

/-- An entry of a dead list. -/
def deadEntry (deadBucket deadSlot : BitVec 32) : BitVec 32 :=
  sleanDeadHeaderWords u + deadBucket * sleanDeadCapacity u + deadSlot

end

/-! ## What the host computes -/

/-- The edges of a graph. -/
theorem edge_count_eq (edgeBits : Nat) : edgeCount edgeBits = 2 ^ edgeBits := Nat.one_shiftLeft _

/-- The words of its bitmaps. -/
theorem word_count_eq (edgeBits : Nat) (wide : 5 ≤ edgeBits) :
    wordCount edgeBits = 2 ^ (edgeBits - 5) := by
  rw [wordCount, edge_count_eq]
  exact Slean.ceil_div_power edgeBits 5 wide

/-- The bytes of its bitmaps. -/
theorem bitmap_bytes_eq (edgeBits : Nat) (wide : 5 ≤ edgeBits) :
    bitmapBytes edgeBits = 2 ^ (edgeBits - 3) := by
  rw [bitmapBytes, word_count_eq edgeBits wide, show 4 = 2 ^ 2 from rfl, ← pow_add]
  congr 1
  omega

/-- A configuration is accepted if both numbers are powers of two and at least two. -/
theorem new_with_config_iff (config : GpuWgpuConfig) :
    newWithConfig config = .ok config ↔
      (2 ≤ config.sleanParts ∧ config.sleanParts.isPowerOfTwo) ∧
        2 ≤ config.localRamKib ∧ config.localRamKib.isPowerOfTwo := by
  unfold newWithConfig
  split
  · rename_i refused
    refine ⟨nofun, fun accepted => ?_⟩
    rcases refused with few | odd
    · omega
    · exact absurd accepted.1.2 odd
  · rename_i parts
    split
    · rename_i refused
      refine ⟨nofun, fun accepted => ?_⟩
      rcases refused with few | odd
      · omega
      · exact absurd accepted.2.2 odd
    · rename_i kib
      rw [not_or, not_not] at parts kib
      exact ⟨fun _ => ⟨⟨by omega, parts.2⟩, by omega, kib.2⟩, fun _ => rfl⟩

section

variable {solver : GpuWgpuSolver} {edgeBits : Nat}

/-- The number of parts to start with is a power of two, at least two. -/
theorem selected_parts_power (accepted : newWithConfig solver.config = .ok solver.config)
    (enabled : Bool) : ∃ bits, 1 ≤ bits ∧ selectedSleanParts solver enabled = 2 ^ bits := by
  obtain ⟨⟨two, bits, power⟩, _⟩ := (new_with_config_iff solver.config).mp accepted
  have configured : ∃ bits, 1 ≤ bits ∧ solver.config.sleanParts = 2 ^ bits := by
    refine ⟨bits, ?_, power⟩
    by_contra none_left
    rw [power, Nat.eq_zero_of_not_pos none_left] at two
    exact absurd two (by decide)
  have two_parts : ∃ bits, 1 ≤ bits ∧ 2 = 2 ^ bits := ⟨1, by decide, rfl⟩
  have four_parts : ∃ bits, 1 ≤ bits ∧ 4 = 2 ^ bits := ⟨2, by decide, rfl⟩
  have either : ∀ (test : Prop) [Decidable test] (left right : Nat),
      (∃ bits, 1 ≤ bits ∧ left = 2 ^ bits) → (∃ bits, 1 ≤ bits ∧ right = 2 ^ bits) →
      ∃ bits, 1 ≤ bits ∧ (if test then left else right) = 2 ^ bits := by
    intro test _ left right left_power right_power
    split
    · exact left_power
    · exact right_power
  unfold selectedSleanParts
  cases if enabled then solver.startupAvailableMemory else none with
  | none => exact either _ _ _ four_parts configured
  | some memory =>
    have automatic := either (enabled ∧ solver.config.trimming = .auto) _ _
      (either (memory ≥ sleanPartsTwoAvailableMemory) _ _ two_parts four_parts) configured
    exact either _ _ _ four_parts automatic

/-- A sizing is that of the first doubling that fits, and has no more parts than edges. -/
theorem fit_parts_ok {sizing : HostSizing} (rounds parts : Nat)
    (fitted : fitParts solver true edgeBits rounds parts = .ok sizing) :
    ∃ doublings, sizing = partSizes solver edgeBits (parts * 2 ^ doublings) ∧
      parts * 2 ^ doublings ≤ 2 ^ edgeBits ∧ FitsLimits solver sizing ∧
      ∀ earlier < doublings, ¬ FitsLimits solver (partSizes solver edgeBits (parts * 2 ^ earlier)) := by
  induction rounds generalizing parts with
  | zero => cases fitted
  | succ rounds ih =>
    rw [fitParts] at fitted
    split at fitted
    · cases fitted
    · rename_i few
      rw [edge_count_eq, Nat.not_lt] at few
      simp only [not_true_eq_false, false_or] at fitted
      split at fitted
      · rename_i fits
        cases fitted
        exact ⟨0, by rw [pow_zero, Nat.mul_one], by rwa [pow_zero, Nat.mul_one], fits, nofun⟩
      · rename_i large
        obtain ⟨doublings, same, inside, fits, first⟩ := ih (parts * 2) fitted
        have shifted : ∀ count, parts * 2 * 2 ^ count = parts * 2 ^ (count + 1) := fun count => by
          rw [pow_succ, Nat.mul_comm (2 ^ count) 2, Nat.mul_assoc]
        rw [shifted] at same inside
        refine ⟨doublings + 1, same, inside, fits, fun earlier before => ?_⟩
        cases earlier with
        | zero => rwa [pow_zero, Nat.mul_one]
        | succ earlier =>
          rw [← shifted]
          exact first earlier (by omega)

/-- More rounds of doubling than bits of the number of edges change nothing: the loop
    of the host ends within them. -/
theorem fit_parts_enough (enabled : Bool) (rounds more parts : Nat)
    (enough : 2 ^ edgeBits < parts * 2 ^ rounds) :
    fitParts solver enabled edgeBits (rounds + 1 + more) parts =
      fitParts solver enabled edgeBits (rounds + 1) parts := by
  induction rounds generalizing parts with
  | zero =>
    rw [pow_zero, Nat.mul_one] at enough
    rw [show 0 + 1 + more = more + 1 by omega, fitParts, fitParts, edge_count_eq,
      if_pos enough, if_pos enough]
  | succ rounds ih =>
    rw [show rounds + 1 + 1 + more = (rounds + 1 + more) + 1 by omega, fitParts, fitParts,
      ih (parts * 2) (by rwa [Nat.mul_assoc, ← pow_succ'])]

/-- The powers of two that a sizing is made of. -/
structure Sized (solver : GpuWgpuSolver) (edgeBits : Nat) (sizing : HostSizing)
    (buckets parts : Nat) : Prop where
  bucket_count : hostBucketCount solver edgeBits = 2 ^ buckets
  few : buckets ≤ 15
  same : sizing = partSizes solver edgeBits (2 ^ parts)
  two : 1 ≤ parts
  most : parts ≤ edgeBits
  fits : FitsLimits solver sizing

/-- Every sizing of slean rounds is made of powers of two, and its parts are the first
    doubling of the selected ones that fits. -/
theorem slean_sizing_ok {sizing : HostSizing}
    (accepted : newWithConfig solver.config = .ok solver.config)
    (sized : sleanSizing solver true edgeBits = .ok sizing) :
    ∃ buckets parts, Sized solver edgeBits sizing buckets parts ∧ ∃ doublings,
      2 ^ parts = selectedSleanParts solver true * 2 ^ doublings ∧
      ∀ earlier < doublings, ¬ FitsLimits solver
        (partSizes solver edgeBits (selectedSleanParts solver true * 2 ^ earlier)) := by
  unfold sleanSizing at sized
  simp only [true_and] at sized
  split at sized
  · cases sized
  · rename_i usable
    rw [not_or, not_not] at usable
    obtain ⟨⟨buckets, bucket_count⟩, small⟩ := usable
    obtain ⟨bits, some_bits, selected⟩ := selected_parts_power accepted true
    obtain ⟨doublings, same, inside, fits, first⟩ := fit_parts_ok _ _ sized
    have power : selectedSleanParts solver true * 2 ^ doublings = 2 ^ (bits + doublings) := by
      rw [selected, pow_add]
    have few : buckets ≤ 15 := by
      rw [bucket_count] at small
      by_contra many
      have large : 2 ^ 16 ≤ 2 ^ buckets := Nat.pow_le_pow_right (by decide) (by omega)
      omega
    rw [power] at same inside
    exact ⟨buckets, bits + doublings,
      ⟨bucket_count, few, same, by omega, (Nat.pow_le_pow_iff_right (by decide)).mp inside, fits⟩,
      doublings, power.symm, first⟩

section

variable {sizing : HostSizing} {buckets parts : Nat}

/-- The parts of a sizing. -/
theorem Sized.part_count (sized : Sized solver edgeBits sizing buckets parts) :
    sizing.parts = 2 ^ parts := by
  rw [sized.same]
  rfl

/-- The buckets of a sizing. -/
theorem Sized.bucket_number (sized : Sized solver edgeBits sizing buckets parts) :
    sizing.bucketCount = 2 ^ buckets := by
  rw [sized.same]
  exact sized.bucket_count

/-- The edges of a part. -/
theorem Sized.part_edges (sized : Sized solver edgeBits sizing buckets parts) :
    sizing.partEdges = 2 ^ (edgeBits - parts) := by
  rw [sized.same]
  show edgeCount edgeBits ⌈/⌉ 2 ^ parts = _
  rw [edge_count_eq]
  exact Slean.ceil_div_power edgeBits parts sized.most

/-- The parts divide the edges. -/
theorem Sized.whole (sized : Sized solver edgeBits sizing buckets parts) :
    2 ^ parts * 2 ^ (edgeBits - parts) = 2 ^ edgeBits := by
  have most := sized.most
  rw [← pow_add]
  congr 1
  omega

/-- A workgroup has local memory. -/
theorem Sized.local_positive (sized : Sized solver edgeBits sizing buckets parts) :
    0 < localBytes solver edgeBits := by
  by_contra none_left
  have count := sized.bucket_count
  rw [hostBucketCount, Nat.eq_zero_of_not_pos none_left, ceilDiv_zero] at count
  exact absurd count.symm (Nat.two_pow_pos buckets).ne'

/-- The number of buckets by the local memory. -/
theorem Sized.bucket_bytes (sized : Sized solver edgeBits sizing buckets parts)
    (wide : 5 ≤ edgeBits) : 2 ^ (edgeBits - 3) ⌈/⌉ localBytes solver edgeBits = 2 ^ buckets := by
  rw [← bitmap_bytes_eq edgeBits wide]
  exact sized.bucket_count

/-- There are at most so many buckets if and only if the local memory holds at least
    the rest of the bitmap. -/
theorem Sized.buckets_le_iff (sized : Sized solver edgeBits sizing buckets parts)
    (wide : 5 ≤ edgeBits) (bound : Nat) (inside : bound ≤ edgeBits - 3) :
    buckets ≤ bound ↔ 2 ^ (edgeBits - 3 - bound) ≤ localBytes solver edgeBits := by
  rw [← Nat.pow_le_pow_iff_right (show 1 < 2 by decide), ← sized.bucket_bytes wide,
    ceilDiv_le_iff_le_mul sized.local_positive]
  have split : 2 ^ (edgeBits - 3) = 2 ^ (edgeBits - 3 - bound) * 2 ^ bound := by
    rw [← pow_add]
    congr 1
    omega
  rw [split]
  exact Nat.mul_le_mul_right_iff (Nat.two_pow_pos bound)

/-- The host's dead lists, if a part is not smaller than a bucket. -/
theorem Sized.host_dead_lists (sized : Sized solver edgeBits sizing buckets parts)
    (wide : 24 ≤ edgeBits) (fewer : parts ≤ buckets) :
    sizing.deadBucketCount = 2 ^ (buckets - parts) := by
  have few := sized.few
  rw [sized.same]
  show max (edgeCount edgeBits ⌈/⌉ 2 ^ parts ⌈/⌉ 8 ⌈/⌉ localBytes solver edgeBits) 1 = _
  rw [edge_count_eq, Slean.ceil_div_power edgeBits parts sized.most,
    show 8 = 2 ^ 3 from rfl, Slean.ceil_div_power (edgeBits - parts) 3 (by omega)]
  have scaled : 2 ^ (edgeBits - parts - 3) * 2 ^ parts ⌈/⌉ localBytes solver edgeBits =
      2 ^ (buckets - parts) * 2 ^ parts := by
    rw [← pow_add, ← pow_add, show edgeBits - parts - 3 + parts = edgeBits - 3 by omega,
      show buckets - parts + parts = buckets by omega]
    exact sized.bucket_bytes (by omega)
  rw [Slean.ceil_div_scale _ _ _ _ (Nat.two_pow_pos parts) sized.local_positive scaled]
  exact Nat.max_eq_left (Nat.two_pow_pos _)

end

end

/-! ## What the kernels compute -/

/-- A quotient by a number other than zero. -/
theorem quotient_toNat (left right : BitVec 32) (positive : 0 < right.toNat) :
    (quotient left right).toNat = left.toNat / right.toNat := by
  rw [quotient, if_neg, BitVec.toNat_udiv]
  rintro rfl
  exact Nat.lt_irrefl 0 positive

/-- The shader rounds a quotient up as the host does. -/
theorem quotient_ceil (left right : BitVec 32) (positive : 0 < right.toNat)
    (small : left.toNat + right.toNat < 2 ^ 32) :
    (quotient (left + right - 1#32) right).toNat = left.toNat ⌈/⌉ right.toNat := by
  have sum : (left + right).toNat = left.toNat + right.toNat := by
    rw [BitVec.toNat_add, Nat.mod_eq_of_lt small]
  have pred : (left + right - 1#32).toNat = left.toNat + right.toNat - 1 := by
    rw [BitVec.toNat_sub_of_le, sum]
    · rfl
    · rw [BitVec.le_def, sum]
      show 1 ≤ _
      omega
  rw [quotient_toNat _ _ positive, pred, Nat.ceilDiv_eq_add_pred_div]

/-- A part's uniform parameters, as numbers. -/
structure Reads (u : Uniform) (edgeBits buckets parts part : Nat) (forced : Bool) : Prop where
  edge_bits : u.edgeBits.toNat = edgeBits
  words : u.wordCount.toNat = 2 ^ (edgeBits - 5)
  base : u.chunkBase.toNat = part * 2 ^ (edgeBits - parts)
  count : u.chunkCount.toNat = 2 ^ (edgeBits - parts)
  bucket_count : (bucketConfigCount u).toNat = 2 ^ buckets
  flag : u.bucketConfig &&& 1#32 = BitVec.ofNat 32 forced.toNat

/-- The bucket configuration keeps the number of buckets and the flag apart. -/
theorem bucket_config_reads (buckets : Nat) (few : buckets ≤ 15) (forced : Bool) :
    (((BitVec.ofNat 32 (2 ^ buckets) <<< 16) ||| BitVec.ofNat 32 forced.toNat) >>> 16).toNat =
        2 ^ buckets ∧
      ((BitVec.ofNat 32 (2 ^ buckets) <<< 16) ||| BitVec.ofNat 32 forced.toNat) &&& 1#32 =
        BitVec.ofNat 32 forced.toNat := by
  interval_cases buckets <;> cases forced <;> decide

/-- The kernels read the sizes of a part without loss. -/
theorem Sized.reads {solver : GpuWgpuSolver} {edgeBits : Nat} {sizing : HostSizing}
    {buckets parts : Nat} (sized : Sized solver edgeBits sizing buckets parts)
    (range : 24 ≤ edgeBits ∧ edgeBits ≤ 32) (part : Nat) (inside : part < sizing.parts) :
    Reads (partUniform solver edgeBits sizing part) edgeBits buckets parts part
      solver.forceSleanOverflow := by
  obtain ⟨low, high⟩ := range
  rw [sized.part_count] at inside
  have two := sized.two
  have most := sized.most
  have whole := sized.whole
  have all_edges : (2 : Nat) ^ edgeBits ≤ 2 ^ 32 := Nat.pow_le_pow_right (by decide) high
  have half : (2 : Nat) ^ (edgeBits - parts) ≤ 2 ^ 31 :=
    Nat.pow_le_pow_right (by decide) (by omega)
  have positive := Nat.two_pow_pos (edgeBits - parts)
  have fits : part * 2 ^ (edgeBits - parts) + 2 ^ (edgeBits - parts) ≤ 2 ^ edgeBits := by
    rw [← Nat.succ_mul, ← whole]
    exact Nat.mul_le_mul_right _ inside
  have config := bucket_config_reads buckets sized.few solver.forceSleanOverflow
  refine ⟨?_, ?_, ?_, ?_, ?_, ?_⟩
  · exact BitVec.toNat_ofNat .. |>.trans (Nat.mod_eq_of_lt (by omega))
  · show (BitVec.ofNat 32 (wordCount edgeBits)).toNat = _
    rw [BitVec.toNat_ofNat, word_count_eq edgeBits (by omega)]
    exact Nat.mod_eq_of_lt (Nat.lt_of_lt_of_le (Nat.pow_lt_pow_right (by decide) (by omega))
      all_edges)
  · show (BitVec.ofNat 32 (part * sizing.partEdges)).toNat = _
    rw [BitVec.toNat_ofNat, sized.part_edges]
    exact Nat.mod_eq_of_lt (by omega)
  · show (BitVec.ofNat 32 (min sizing.partEdges
      (edgeCount edgeBits - part * sizing.partEdges))).toNat = _
    rw [BitVec.toNat_ofNat, sized.part_edges, edge_count_eq, Nat.min_eq_left (by omega)]
    exact Nat.mod_eq_of_lt (by omega)
  · show (((BitVec.ofNat 32 sizing.bucketCount <<< 16) ||| _) >>> 16).toNat = _
    rw [sized.bucket_number]
    exact config.1
  · show ((BitVec.ofNat 32 sizing.bucketCount <<< 16) ||| _) &&& 1#32 = _
    rw [sized.bucket_number]
    exact config.2

section

variable {u : Uniform} {edgeBits buckets parts part : Nat} {forced : Bool}

/-- A quarter of the buckets, to an arena. -/
theorem Reads.width (reads : Reads u edgeBits buckets parts part forced) :
    (sleanShardWidth u).toNat = 2 ^ buckets / 4 := by
  rw [sleanShardWidth, BitVec.toNat_udiv, reads.bucket_count]
  rfl

/-- The words before the entries of an arena. -/
theorem Reads.header (reads : Reads u edgeBits buckets parts part forced)
    (few : buckets ≤ 15) : (sleanHeaderWords u).toNat = 2 ^ buckets / 4 + 1 := by
  have small : 2 ^ buckets ≤ 2 ^ 15 := Nat.pow_le_pow_right (by decide) few
  have width := reads.width
  rw [sleanShardWidth] at width
  rw [sleanHeaderWords, BitVec.toNat_add, width]
  exact Nat.mod_eq_of_lt (by
    show 2 ^ buckets / 4 + 1 < 2 ^ 32
    omega)

/-- The capacity of a bucket, if the edges of a part are at most half of all. -/
theorem Reads.capacity (reads : Reads u edgeBits buckets parts part forced)
    (few : buckets ≤ 15) (half : edgeBits - parts ≤ 31) :
    (sleanCapacity u).toNat =
      if forced then 1
      else 2 ^ (edgeBits - parts) ⌈/⌉ 2 ^ buckets +
        2 ^ (edgeBits - parts) ⌈/⌉ 2 ^ buckets ⌈/⌉ 20 + 64 := by
  have small : 2 ^ buckets ≤ 2 ^ 15 := Nat.pow_le_pow_right (by decide) few
  have most : 2 ^ (edgeBits - parts) ≤ 2 ^ 31 := Nat.pow_le_pow_right (by decide) half
  have positive := Nat.two_pow_pos buckets
  rw [sleanCapacity, reads.flag]
  cases forced with
  | true => rfl
  | false =>
    have base := quotient_ceil u.chunkCount (bucketConfigCount u)
      (by rw [reads.bucket_count]; exact positive)
      (by rw [reads.count, reads.bucket_count]; omega)
    rw [reads.count, reads.bucket_count] at base
    have bound : 2 ^ (edgeBits - parts) ⌈/⌉ 2 ^ buckets ≤ 2 ^ 31 := by
      rw [ceilDiv_le_iff_le_mul positive]
      exact Nat.le_trans most (Nat.le_mul_of_pos_left _ positive)
    simp only [Bool.toNat_false, ne_eq, not_true_eq_false, if_false, Bool.false_eq_true]
    have margin : (quotient (u.chunkCount + bucketConfigCount u - 1#32) (bucketConfigCount u) +
        19#32).toNat = 2 ^ (edgeBits - parts) ⌈/⌉ 2 ^ buckets + 19 := by
      rw [BitVec.toNat_add, base]
      exact Nat.mod_eq_of_lt (by
        show _ + 19 < 2 ^ 32
        omega)
    rw [BitVec.toNat_add, BitVec.toNat_add, BitVec.toNat_udiv, margin, base,
      Nat.ceilDiv_eq_add_pred_div (2 ^ (edgeBits - parts) ⌈/⌉ 2 ^ buckets) 20]
    show ((_ + _ / 20) % 2 ^ 32 + 64) % 2 ^ 32 = _
    omega

/-- The bitmap words of a bucket. -/
theorem Reads.bucket_words (reads : Reads u edgeBits buckets parts part forced)
    (few : buckets ≤ 15) (wide : 24 ≤ edgeBits) :
    (sleanBucketWords u).toNat = 2 ^ (edgeBits - 5 - buckets) := by
  rw [sleanBucketWords, quotient_toNat, reads.words, reads.bucket_count,
    Nat.pow_div (by omega) (by decide)]
  rw [reads.bucket_count]
  exact Nat.two_pow_pos buckets

/-- The dead list of an edge of a part is one of the part's dead lists. -/
theorem Reads.dead_bucket_lt (reads : Reads u edgeBits buckets parts part forced)
    (few : buckets ≤ 15) (wide : 24 ≤ edgeBits) (narrow : edgeBits - buckets ≤ 26)
    (fewer : parts ≤ buckets) (localEdge : Nat) (small : localEdge < 2 ^ 32)
    (inside : localEdge < 2 ^ (edgeBits - parts)) :
    (deadBucket u (BitVec.ofNat 32 localEdge)).toNat < 2 ^ (buckets - parts) := by
  have bucket_edges : 2 ^ (edgeBits - 5 - buckets) * 32 = 2 ^ (edgeBits - buckets) := by
    rw [show edgeBits - buckets = edgeBits - 5 - buckets + 5 by omega, Nat.pow_add]
  have power : 2 ^ (edgeBits - buckets) ≤ 2 ^ 26 := Nat.pow_le_pow_right (by decide) narrow
  have divisor : (sleanBucketWords u * 32#32).toNat = 2 ^ (edgeBits - buckets) := by
    rw [BitVec.toNat_mul, reads.bucket_words few wide]
    show _ * 32 % _ = _
    rw [bucket_edges]
    exact Nat.mod_eq_of_lt (by omega)
  have positive : 0 < (sleanBucketWords u * 32#32).toNat := by
    rw [divisor]
    exact Nat.two_pow_pos _
  have value : (BitVec.ofNat 32 localEdge).toNat = localEdge := by
    rw [BitVec.toNat_ofNat]
    exact Nat.mod_eq_of_lt small
  rw [deadBucket, quotient_toNat _ _ positive, divisor, value,
    Nat.div_lt_iff_lt_mul (Nat.two_pow_pos _), ← Nat.pow_add]
  rwa [show buckets - parts + (edgeBits - buckets) = edgeBits - parts by omega]

/-- The words of a part, over those of a bucket. -/
theorem Reads.dead_quotient (reads : Reads u edgeBits buckets parts part forced)
    (few : buckets ≤ 15) (wide : 24 ≤ edgeBits) (half : edgeBits - parts ≤ 31) :
    (sleanDeadBucketCount u).toNat =
      (2 ^ (edgeBits - parts) + 31) / 32 / 2 ^ (edgeBits - 5 - buckets) := by
  have most : 2 ^ (edgeBits - parts) ≤ 2 ^ 31 := Nat.pow_le_pow_right (by decide) half
  have words := reads.bucket_words few wide
  have rounded : (u.chunkCount + 31#32).toNat = 2 ^ (edgeBits - parts) + 31 := by
    rw [BitVec.toNat_add, reads.count]
    exact Nat.mod_eq_of_lt (by
      show _ + 31 < 2 ^ 32
      omega)
  rw [sleanDeadBucketCount, quotient_toNat, BitVec.toNat_ushiftRight, rounded, words,
    Nat.shiftRight_eq_div_pow]
  rw [words]
  exact Nat.two_pow_pos _

/-- The dead lists of a part that is not smaller than a bucket. -/
theorem Reads.dead_lists (reads : Reads u edgeBits buckets parts part forced)
    (few : buckets ≤ 15) (wide : 24 ≤ edgeBits) (half : edgeBits - parts ≤ 31)
    (fewer : parts ≤ buckets) :
    (sleanDeadBucketCount u).toNat = 2 ^ (buckets - parts) := by
  have split : 2 ^ (edgeBits - parts) = 2 ^ (edgeBits - parts - 5) * 32 := by
    rw [show 32 = 2 ^ 5 from rfl, ← pow_add]
    congr 1
    omega
  rw [reads.dead_quotient few wide half, split,
    show (2 ^ (edgeBits - parts - 5) * 32 + 31) / 32 = 2 ^ (edgeBits - parts - 5) by omega,
    Nat.pow_div (by omega) (by decide)]
  congr 1
  omega

/-- A part that is smaller than a bucket has no dead list in the shader. -/
theorem Reads.no_dead_lists (reads : Reads u edgeBits buckets parts part forced)
    (few : buckets ≤ 15) (wide : 24 ≤ edgeBits) (half : edgeBits - parts ≤ 31)
    (more : buckets < parts) : (sleanDeadBucketCount u).toNat = 0 := by
  rw [reads.dead_quotient few wide half]
  apply Nat.div_eq_of_lt
  have smaller : 2 ^ (edgeBits - parts) ≤ 2 ^ (edgeBits - 1 - buckets) :=
    Nat.pow_le_pow_right (by decide) (by omega)
  have split : 2 ^ (edgeBits - 1 - buckets) = 2 ^ (edgeBits - 5 - buckets) * 16 := by
    rw [show 16 = 2 ^ 4 from rfl, ← pow_add]
    congr 1
    omega
  have some_words : 2 ^ 4 ≤ 2 ^ (edgeBits - 5 - buckets) :=
    Nat.pow_le_pow_right (by decide) (by omega)
  omega

/-- The capacity of a dead list, whose product may wrap. -/
theorem Reads.dead_capacity (reads : Reads u edgeBits buckets parts part forced)
    (few : buckets ≤ 15) (range : 24 ≤ edgeBits ∧ edgeBits ≤ 32) (two : 1 ≤ parts)
    (fewer : parts ≤ buckets) :
    (sleanDeadCapacity u).toNat =
      (2 ^ (edgeBits - buckets) * 45 % 2 ^ 32 + 99) % 2 ^ 32 / 100 + 64 := by
  have lists := reads.dead_lists few range.1 (by omega) fewer
  have positive := Nat.two_pow_pos (buckets - parts)
  have small : 2 ^ (buckets - parts) ≤ 2 ^ 15 := Nat.pow_le_pow_right (by decide) (by omega)
  have most : 2 ^ (edgeBits - parts) ≤ 2 ^ 31 := Nat.pow_le_pow_right (by decide) (by omega)
  have base := quotient_ceil u.chunkCount (sleanDeadBucketCount u)
    (by rw [lists]; exact positive) (by rw [lists, reads.count]; omega)
  rw [reads.count, lists, Slean.ceil_div_power _ _ (by omega),
    show edgeBits - parts - (buckets - parts) = edgeBits - buckets by omega] at base
  rw [sleanDeadCapacity, BitVec.toNat_add, BitVec.toNat_udiv, BitVec.toNat_add, BitVec.toNat_mul,
    base]
  show ((_ * 45 % 2 ^ 32 + 99) % 2 ^ 32 / 100 + 64) % 2 ^ 32 = _
  omega

/-- The product wraps from dead lists of two to the twenty-seven edges on. -/
theorem dead_capacity_agrees_iff (bits : Nat) (small : bits ≤ 31) :
    (2 ^ bits * 45 % 2 ^ 32 + 99) % 2 ^ 32 / 100 + 64 = (2 ^ bits * 45) ⌈/⌉ 100 + 64 ↔
      bits ≤ 26 := by
  rw [Nat.ceilDiv_eq_add_pred_div]
  interval_cases bits <;> decide

/-- A bucket lies in its arena, at a place within the arena. -/
theorem Reads.local_bucket (reads : Reads u edgeBits buckets parts part forced)
    (four : 2 ≤ buckets) (few : buckets ≤ 15) (bucket : Nat) (inside : bucket < 2 ^ buckets) :
    (sleanLocalBucket u (BitVec.ofNat 32 bucket)).toNat = bucket % (2 ^ buckets / 4) := by
  have small : 2 ^ buckets ≤ 2 ^ 15 := Nat.pow_le_pow_right (by decide) few
  obtain ⟨quarter, split⟩ : ∃ quarter, 2 ^ buckets = 4 * quarter :=
    ⟨2 ^ (buckets - 2), by rw [show 4 = 2 ^ 2 from rfl, ← pow_add]; congr 1; omega⟩
  have width := reads.width
  have positive := Nat.two_pow_pos buckets
  rw [split] at width inside small positive ⊢
  rw [Nat.mul_div_cancel_left _ (by decide)] at width ⊢
  have value : (BitVec.ofNat 32 bucket).toNat = bucket := by
    rw [BitVec.toNat_ofNat]
    exact Nat.mod_eq_of_lt (by omega)
  have shard : (sleanShard u (BitVec.ofNat 32 bucket)).toNat = bucket / quarter := by
    have index : (quotient (BitVec.ofNat 32 bucket) (sleanShardWidth u)).toNat =
        bucket / quarter := by
      rw [quotient_toNat _ _ (by omega), value, width]
    have most : bucket / quarter < 4 := (Nat.div_lt_iff_lt_mul (by omega)).mpr inside
    rw [sleanShard]
    split
    · exact index
    · rename_i large
      rw [BitVec.lt_def, index] at large
      have three : ¬ bucket / quarter < 3 := large
      show 3 = _
      omega
  have start : (sleanShard u (BitVec.ofNat 32 bucket) * sleanShardWidth u).toNat =
      bucket / quarter * quarter := by
    have below := Nat.div_mul_le_self bucket quarter
    rw [BitVec.toNat_mul, shard, width]
    exact Nat.mod_eq_of_lt (by omega)
  rw [sleanLocalBucket, BitVec.toNat_sub_of_le, start, value, Nat.mod_eq_sub_div_mul]
  rw [BitVec.le_def, start, value]
  exact Nat.div_mul_le_self bucket quarter

end

/-- A place of so many lists of slots lies before their end. -/
theorem place_before_end (lists capacity list slot : Nat) (list_inside : list < lists)
    (slot_inside : slot < capacity) : list * capacity + slot + 1 ≤ lists * capacity := by
  have whole : (list + 1) * capacity ≤ lists * capacity := Nat.mul_le_mul_right _ list_inside
  rw [Nat.succ_mul] at whole
  omega

/-- An index formed from a list and a slot, if no list reaches the end of the numbers. -/
theorem list_entry_toNat (lists capacity list slot : Nat) (header place size : BitVec 32)
    (place_eq : place.toNat = list) (size_eq : size.toNat = capacity)
    (list_inside : list < lists) (slot_inside : slot < capacity)
    (small : header.toNat + lists * capacity < 2 ^ 32) :
    (header + place * size + BitVec.ofNat 32 slot).toNat =
      header.toNat + list * capacity + slot := by
  have before := place_before_end lists capacity list slot list_inside slot_inside
  have product : (place * size).toNat = list * capacity := by
    rw [BitVec.toNat_mul, place_eq, size_eq]
    exact Nat.mod_eq_of_lt (by omega)
  have sum : (header + place * size).toNat = header.toNat + list * capacity := by
    rw [BitVec.toNat_add, product]
    exact Nat.mod_eq_of_lt (by omega)
  have value : (BitVec.ofNat 32 slot).toNat = slot := by
    rw [BitVec.toNat_ofNat]
    exact Nat.mod_eq_of_lt (by omega)
  rw [BitVec.toNat_add, sum, value]
  exact Nat.mod_eq_of_lt (by omega)

/-! ## Agreement -/

/-- Whether a word lies in a buffer of so many bytes. -/
def InBuffer (bytes : Nat) (index : BitVec 32) : Prop := (index.toNat + 1) * 4 ≤ bytes

/-- The kernels compute the host's sizes of a part, divide by no zero, find a dead list for
    every edge of the part, and form no index outside an arena or the dead lists. It does not
    say that a bucket or a dead list has room for its edges; an overflow is counted and handled
    by the round. -/
structure PartAgrees (sizing : HostSizing) (u : Uniform) : Prop where
  capacity : (sleanCapacity u).toNat = sizing.capacity
  header : (sleanHeaderWords u).toNat = sizing.bucketCount / 4 + 1
  overflow : (sleanOverflowWord u).toNat = sizing.bucketCount / 4
  dead_lists : (sleanDeadBucketCount u).toNat = sizing.deadBucketCount
  dead_capacity : (sleanDeadCapacity u).toNat =
    hostDeadCapacity sizing.partEdges sizing.deadBucketCount
  divisors : bucketConfigCount u ≠ 0#32 ∧ sleanShardWidth u ≠ 0#32 ∧ sleanBucketWords u ≠ 0#32 ∧
    sleanDeadBucketCount u ≠ 0#32
  arena_counts : ∀ bucket < sizing.bucketCount,
    InBuffer sizing.scratchBytes (sleanLocalBucket u (BitVec.ofNat 32 bucket))
  arena_entries : ∀ bucket < sizing.bucketCount, ∀ slot < sizing.capacity,
    InBuffer sizing.scratchBytes (arenaEntry u (BitVec.ofNat 32 bucket) (BitVec.ofNat 32 slot))
  arena_overflow : InBuffer sizing.scratchBytes (sleanOverflowWord u)
  dead_list : ∀ localEdge < sizing.partEdges,
    (deadBucket u (BitVec.ofNat 32 localEdge)).toNat < sizing.deadBucketCount
  dead_counts : ∀ list < sizing.deadBucketCount,
    InBuffer sizing.deadScratchBytes (BitVec.ofNat 32 list)
  dead_entries : ∀ list < sizing.deadBucketCount,
    ∀ slot < hostDeadCapacity sizing.partEdges sizing.deadBucketCount,
      InBuffer sizing.deadScratchBytes (deadEntry u (BitVec.ofNat 32 list) (BitVec.ofNat 32 slot))
  dead_overflow : InBuffer sizing.deadScratchBytes (sleanDeadOverflowWord u)

/-- The parts tile the graph, and the kernels agree with the host on each of them. Nothing is
    said of what the kernels store, only of where. -/
structure LayoutAgrees (solver : GpuWgpuSolver) (edgeBits : Nat) (sizing : HostSizing) : Prop where
  inside : ∀ part < sizing.parts,
    (partUniform solver edgeBits sizing part).chunkBase.toNat +
      (partUniform solver edgeBits sizing part).chunkCount.toNat ≤ 2 ^ edgeBits
  tiles : ∀ edge < 2 ^ edgeBits, ∃! part, part < sizing.parts ∧
    (partUniform solver edgeBits sizing part).chunkBase.toNat ≤ edge ∧
    edge < (partUniform solver edgeBits sizing part).chunkBase.toNat +
      (partUniform solver edgeBits sizing part).chunkCount.toNat
  agrees : ∀ part < sizing.parts, PartAgrees sizing (partUniform solver edgeBits sizing part)

/-- There is a bucket for each arena, the local bitmap is below sixteen mebibytes, and some
    doubling of the selected parts fits the adapter and is at most the number of buckets, which
    local memory and bitmap give. It speaks of the settings, the size of the graph and the
    limits of the adapter alone, and leaves out the keys and everything that a kernel computes. -/
def LayoutFits (solver : GpuWgpuSolver) (edgeBits : Nat) : Prop :=
  2 * localBytes solver edgeBits < bitmapBytes edgeBits ∧ localBytes solver edgeBits < 2 ^ 24 ∧
    ∃ doublings, selectedSleanParts solver true * 2 ^ doublings ≤
        bitmapBytes edgeBits ⌈/⌉ localBytes solver edgeBits ∧
      FitsLimits solver
        (partSizes solver edgeBits (selectedSleanParts solver true * 2 ^ doublings))

section

variable {solver : GpuWgpuSolver} {edgeBits : Nat} {sizing : HostSizing} {buckets parts : Nat}

/-- The condition by the powers of two. -/
theorem layout_fits_iff (sized : Sized solver edgeBits sizing buckets parts)
    (range : 24 ≤ edgeBits ∧ edgeBits ≤ 32) (doublings : Nat)
    (reached : 2 ^ parts = selectedSleanParts solver true * 2 ^ doublings)
    (first : ∀ earlier < doublings, ¬ FitsLimits solver
      (partSizes solver edgeBits (selectedSleanParts solver true * 2 ^ earlier))) :
    LayoutFits solver edgeBits ↔
      2 ≤ buckets ∧ edgeBits - buckets ≤ 26 ∧ parts ≤ buckets := by
  obtain ⟨low, high⟩ := range
  have count := sized.bucket_count
  have bytes := bitmap_bytes_eq edgeBits (by omega)
  have four : 2 * localBytes solver edgeBits < bitmapBytes edgeBits ↔ 2 ≤ buckets := by
    have few := sized.buckets_le_iff (by omega) 1 (by omega)
    have split : (2 : Nat) ^ (edgeBits - 3) = 2 * 2 ^ (edgeBits - 3 - 1) := by
      rw [← pow_succ']
      congr 1
      omega
    rw [bytes, split]
    omega
  have narrow : localBytes solver edgeBits < 2 ^ 24 ↔ edgeBits - buckets ≤ 26 := by
    rcases Nat.lt_or_ge edgeBits 27 with small | large
    · have most : localBytes solver edgeBits ≤ bitmapBytes edgeBits := Nat.min_le_right _ _
      have below : (2 : Nat) ^ (edgeBits - 3) < 2 ^ 24 := Nat.pow_lt_pow_right (by decide) (by omega)
      rw [bytes] at most
      omega
    · have few := sized.buckets_le_iff (by omega) (edgeBits - 27) (by omega)
      rw [show edgeBits - 3 - (edgeBits - 27) = 24 by omega] at few
      omega
  rw [LayoutFits, four, narrow]
  refine and_congr_right fun _ => and_congr_right fun _ => ?_
  change (∃ doublings, _ ≤ hostBucketCount solver edgeBits ∧ _) ↔ _
  rw [count]
  constructor
  · rintro ⟨other, few, fits⟩
    have later : doublings ≤ other := by
      by_contra before
      exact first other (by omega) fits
    rw [← Nat.pow_le_pow_iff_right (show 1 < 2 by decide), reached]
    exact Nat.le_trans (Nat.mul_le_mul_left _ (Nat.pow_le_pow_right (by decide) later)) few
  · intro fewer
    refine ⟨doublings, ?_, ?_⟩
    · rw [← reached]
      exact Nat.pow_le_pow_right (by decide) fewer
    · rw [← reached, ← sized.same]
      exact sized.fits

/-- The parts tile the graph, whatever their size. -/
theorem Sized.tiles (sized : Sized solver edgeBits sizing buckets parts)
    (range : 24 ≤ edgeBits ∧ edgeBits ≤ 32) (edge : Nat) (inside : edge < 2 ^ edgeBits) :
    ∃! part, part < sizing.parts ∧
      (partUniform solver edgeBits sizing part).chunkBase.toNat ≤ edge ∧
      edge < (partUniform solver edgeBits sizing part).chunkBase.toNat +
        (partUniform solver edgeBits sizing part).chunkCount.toNat := by
  have positive := Nat.two_pow_pos (edgeBits - parts)
  have owns : ∀ part < sizing.parts,
      ((partUniform solver edgeBits sizing part).chunkBase.toNat ≤ edge ∧
        edge < (partUniform solver edgeBits sizing part).chunkBase.toNat +
          (partUniform solver edgeBits sizing part).chunkCount.toNat) ↔
        edge / 2 ^ (edgeBits - parts) = part := by
    intro part part_inside
    have reads := sized.reads range part part_inside
    rw [reads.base, reads.count, Nat.div_eq_iff positive]
    omega
  have bound : edge / 2 ^ (edgeBits - parts) < sizing.parts := by
    rw [sized.part_count, Nat.div_lt_iff_lt_mul positive, sized.whole]
    exact inside
  refine ⟨_, ⟨bound, (owns _ bound).mpr rfl⟩, ?_⟩
  rintro part ⟨part_inside, owned⟩
  exact ((owns part part_inside).mp owned).symm

/-- The host's capacity of a bucket. -/
theorem Sized.host_capacity (sized : Sized solver edgeBits sizing buckets parts) :
    sizing.capacity = if solver.forceSleanOverflow then 1
      else 2 ^ (edgeBits - parts) ⌈/⌉ 2 ^ buckets +
        2 ^ (edgeBits - parts) ⌈/⌉ 2 ^ buckets ⌈/⌉ 20 + 64 := by
  have edges := sized.part_edges
  have same := sized.same
  have count := sized.bucket_count
  subst same
  change edgeCount edgeBits ⌈/⌉ 2 ^ parts = _ at edges
  show (if solver.forceSleanOverflow then 1 else edgeCount edgeBits ⌈/⌉ 2 ^ parts ⌈/⌉
    hostBucketCount solver edgeBits + edgeCount edgeBits ⌈/⌉ 2 ^ parts ⌈/⌉
      hostBucketCount solver edgeBits ⌈/⌉ 20 + 64) = _
  rw [edges, count]

/-- The bytes of an arena. -/
theorem Sized.arena_bytes (sized : Sized solver edgeBits sizing buckets parts) :
    sizing.scratchBytes =
      (2 ^ buckets / 4 + 1 + 2 ^ buckets / 4 * sizing.capacity) * 4 := by
  have count := sized.bucket_count
  have same := sized.same
  subst same
  rw [← count]
  rfl

/-- The bytes of the dead lists. -/
theorem Sized.dead_bytes (sized : Sized solver edgeBits sizing buckets parts) :
    sizing.deadScratchBytes = (sizing.deadBucketCount + 1 + sizing.deadBucketCount *
      hostDeadCapacity sizing.partEdges sizing.deadBucketCount) * 4 := by
  have same := sized.same
  subst same
  rfl

/-- The entries of an arena end before the end of the numbers. -/
theorem Sized.arena_small (sized : Sized solver edgeBits sizing buckets parts)
    (high : edgeBits ≤ 32) (four : 2 ≤ buckets) :
    2 ^ buckets / 4 + 1 + 2 ^ buckets / 4 * sizing.capacity < 2 ^ 32 := by
  have few := sized.few
  have two := sized.two
  obtain ⟨rest, split⟩ : ∃ rest, buckets = rest + 2 := ⟨buckets - 2, by omega⟩
  have quarter : 2 ^ buckets / 4 = 2 ^ rest := by
    rw [split, pow_add]
    exact Nat.mul_div_cancel _ (by decide)
  have positive := Nat.two_pow_pos rest
  have width : 2 ^ rest ≤ 2 ^ 13 := Nat.pow_le_pow_right (by decide) (by omega)
  -- A quarter of the buckets takes at most a quarter of half of all edges, rounded up.
  have base : 2 ^ rest * (2 ^ (edgeBits - parts) ⌈/⌉ 2 ^ buckets) ≤ 2 ^ 29 + 2 ^ rest := by
    have rounded := Nat.div_mul_le_self (2 ^ (edgeBits - parts) + 2 ^ buckets - 1) (2 ^ buckets)
    have most : 2 ^ (edgeBits - parts) ≤ 2 ^ 31 := Nat.pow_le_pow_right (by decide) (by omega)
    rw [← Nat.ceilDiv_eq_add_pred_div] at rounded
    have four_times : 2 ^ buckets = 4 * 2 ^ rest := by
      rw [split, pow_add]
      exact Nat.mul_comm _ _
    generalize 2 ^ (edgeBits - parts) ⌈/⌉ 2 ^ buckets = quotient at rounded
    rw [four_times, Nat.mul_comm quotient, Nat.mul_assoc] at rounded
    omega
  rw [quarter, sized.host_capacity]
  split
  · omega
  · have margin : 2 ^ (edgeBits - parts) ⌈/⌉ 2 ^ buckets ⌈/⌉ 20 ≤
        2 ^ (edgeBits - parts) ⌈/⌉ 2 ^ buckets := by
      rw [ceilDiv_le_iff_le_mul (by decide)]
      omega
    generalize 2 ^ (edgeBits - parts) ⌈/⌉ 2 ^ buckets = quotient at base margin
    have second := Nat.mul_le_mul_left (2 ^ rest) margin
    rw [Nat.mul_add, Nat.mul_add]
    omega

/-- The entries of the dead lists end before the end of the numbers. -/
theorem Sized.dead_small (sized : Sized solver edgeBits sizing buckets parts)
    (range : 24 ≤ edgeBits ∧ edgeBits ≤ 32) (fewer : parts ≤ buckets) :
    sizing.deadBucketCount + 1 + sizing.deadBucketCount *
      hostDeadCapacity sizing.partEdges sizing.deadBucketCount < 2 ^ 32 := by
  have few := sized.few
  have two := sized.two
  rw [sized.host_dead_lists range.1 fewer, hostDeadCapacity, sized.part_edges,
    Slean.ceil_div_power _ _ (by omega)]
  have lists : 2 ^ (buckets - parts) ≤ 2 ^ 15 := Nat.pow_le_pow_right (by decide) (by omega)
  have total : 2 ^ (buckets - parts) * 2 ^ (edgeBits - parts - (buckets - parts)) ≤ 2 ^ 31 := by
    rw [← pow_add]
    exact Nat.pow_le_pow_right (by decide) (by omega)
  have capacity : (2 ^ (edgeBits - parts - (buckets - parts)) * 45) ⌈/⌉ 100 ≤
      2 ^ (edgeBits - parts - (buckets - parts)) := by
    rw [ceilDiv_le_iff_le_mul (by decide)]
    omega
  have filled := Nat.mul_le_mul_left (2 ^ (buckets - parts)) capacity
  rw [Nat.mul_add]
  omega

/-- Where the condition holds, the kernels agree with the host. -/
theorem Sized.part_agrees (sized : Sized solver edgeBits sizing buckets parts)
    (range : 24 ≤ edgeBits ∧ edgeBits ≤ 32) (four : 2 ≤ buckets)
    (narrow : edgeBits - buckets ≤ 26) (fewer : parts ≤ buckets) (part : Nat)
    (inside : part < sizing.parts) :
    PartAgrees sizing (partUniform solver edgeBits sizing part) := by
  have few := sized.few
  have two := sized.two
  have reads := sized.reads range part inside
  have width := reads.width
  have header := reads.header few
  have words := reads.bucket_words few range.1
  have capacity : (sleanCapacity (partUniform solver edgeBits sizing part)).toNat =
      sizing.capacity := by
    rw [reads.capacity few (by omega), sized.host_capacity]
  have lists : (sleanDeadBucketCount (partUniform solver edgeBits sizing part)).toNat =
      sizing.deadBucketCount := by
    rw [reads.dead_lists few range.1 (by omega) fewer, sized.host_dead_lists range.1 fewer]
  have dead_capacity : (sleanDeadCapacity (partUniform solver edgeBits sizing part)).toNat =
      hostDeadCapacity sizing.partEdges sizing.deadBucketCount := by
    rw [reads.dead_capacity few range two fewer,
      (dead_capacity_agrees_iff (edgeBits - buckets) (by omega)).mpr narrow, hostDeadCapacity,
      sized.host_dead_lists range.1 fewer, sized.part_edges, Slean.ceil_div_power _ _ (by omega),
      show edgeBits - parts - (buckets - parts) = edgeBits - buckets by omega]
  have arena_bytes := sized.arena_bytes
  have arena_small := sized.arena_small range.2 four
  have dead_bytes := sized.dead_bytes
  have dead_small := sized.dead_small range fewer
  have buckets_small : 2 ^ buckets ≤ 2 ^ 15 := Nat.pow_le_pow_right (by decide) few
  have quarter_positive : 0 < 2 ^ buckets / 4 := by
    have enough : 2 ^ 2 ≤ 2 ^ buckets := Nat.pow_le_pow_right (by decide) four
    omega
  have nonzero : ∀ value : BitVec 32, 0 < value.toNat → value ≠ 0#32 := by
    rintro value positive rfl
    exact Nat.lt_irrefl 0 positive
  have local_inside : ∀ bucket < sizing.bucketCount,
      (sleanLocalBucket (partUniform solver edgeBits sizing part) (BitVec.ofNat 32 bucket)).toNat <
        2 ^ buckets / 4 := by
    intro bucket bucket_inside
    rw [sized.bucket_number] at bucket_inside
    rw [reads.local_bucket four few bucket bucket_inside]
    exact Nat.mod_lt _ quarter_positive
  have overflow : (sleanOverflowWord (partUniform solver edgeBits sizing part)).toNat =
      2 ^ buckets / 4 := width
  have some_lists : 0 < sizing.deadBucketCount := by
    rw [sized.host_dead_lists range.1 fewer]
    exact Nat.two_pow_pos _
  have dead_header : (sleanDeadHeaderWords (partUniform solver edgeBits sizing part)).toNat =
      sizing.deadBucketCount + 1 := by
    rw [sleanDeadHeaderWords, BitVec.toNat_add, lists]
    exact Nat.mod_eq_of_lt (by
      show _ + 1 < 2 ^ 32
      omega)
  have list_value : ∀ list < sizing.deadBucketCount, (BitVec.ofNat 32 list).toNat = list := by
    intro list list_inside
    rw [BitVec.toNat_ofNat]
    exact Nat.mod_eq_of_lt (by omega)
  refine ⟨capacity, by rw [header, sized.bucket_number], by rw [overflow, sized.bucket_number],
    lists, dead_capacity, ⟨?_, ?_, ?_, ?_⟩, ?_, ?_, ?_, ?_, ?_, ?_, ?_⟩
  · exact nonzero _ (by rw [reads.bucket_count]; exact Nat.two_pow_pos _)
  · exact nonzero _ (by rw [width]; exact quarter_positive)
  · exact nonzero _ (by rw [words]; exact Nat.two_pow_pos _)
  · exact nonzero _ (by rw [lists]; exact some_lists)
  · intro bucket bucket_inside
    have place := local_inside bucket bucket_inside
    rw [InBuffer, arena_bytes]
    omega
  · intro bucket bucket_inside slot slot_inside
    have place := local_inside bucket bucket_inside
    have before := place_before_end _ sizing.capacity _ slot place slot_inside
    rw [InBuffer, arenaEntry, list_entry_toNat _ _ _ slot _ _ _ rfl capacity place slot_inside
      (by rw [header]; exact arena_small), header, arena_bytes]
    omega
  · rw [InBuffer, overflow, arena_bytes]
    omega
  · intro localEdge edge_inside
    rw [sized.part_edges] at edge_inside
    have power : 2 ^ (edgeBits - parts) ≤ 2 ^ 32 := Nat.pow_le_pow_right (by decide) (by omega)
    rw [sized.host_dead_lists range.1 fewer]
    exact reads.dead_bucket_lt few range.1 narrow fewer localEdge (by omega) edge_inside
  · intro list list_inside
    rw [InBuffer, list_value list list_inside, dead_bytes]
    omega
  · intro list list_inside slot slot_inside
    have before := place_before_end _ _ _ slot list_inside slot_inside
    rw [InBuffer, deadEntry, list_entry_toNat _ _ _ slot _ _ _ (list_value list list_inside)
      dead_capacity list_inside slot_inside (by rw [dead_header]; exact dead_small), dead_header,
      dead_bytes]
    omega
  · rw [InBuffer]
    show (_ + 1) * 4 ≤ _
    rw [show (sleanDeadOverflowWord (partUniform solver edgeBits sizing part)).toNat =
      sizing.deadBucketCount from lists, dead_bytes]
    omega

/-- Kernels that agree with the host have a dead list for it to count. -/
theorem Sized.fewer_of_agrees (sized : Sized solver edgeBits sizing buckets parts)
    (range : 24 ≤ edgeBits ∧ edgeBits ≤ 32)
    (agrees : PartAgrees sizing (partUniform solver edgeBits sizing 0)) : parts ≤ buckets := by
  have two := sized.two
  have reads := sized.reads range 0 (by rw [sized.part_count]; exact Nat.two_pow_pos parts)
  by_contra more
  have none_left := reads.no_dead_lists sized.few range.1 (by omega) (by omega)
  exact agrees.divisors.2.2.2 (BitVec.eq_of_toNat_eq none_left)

/-- Kernels that agree with the host divide by the width of an arena, which is a quarter
    of the buckets. -/
theorem Sized.four_of_agrees (sized : Sized solver edgeBits sizing buckets parts)
    (range : 24 ≤ edgeBits ∧ edgeBits ≤ 32)
    (agrees : PartAgrees sizing (partUniform solver edgeBits sizing 0)) : 2 ≤ buckets := by
  have reads := sized.reads range 0 (by rw [sized.part_count]; exact Nat.two_pow_pos parts)
  by_contra few
  have at_most : 2 ^ buckets ≤ 2 ^ 1 := Nat.pow_le_pow_right (by decide) (by omega)
  have no_width : (sleanShardWidth (partUniform solver edgeBits sizing 0)).toNat = 0 := by
    rw [reads.width]
    exact Nat.div_eq_of_lt (by omega)
  exact agrees.divisors.2.1 (BitVec.eq_of_toNat_eq no_width)

/-- Kernels that agree with the host on the capacity of a dead list did not wrap. -/
theorem Sized.narrow_of_agrees (sized : Sized solver edgeBits sizing buckets parts)
    (range : 24 ≤ edgeBits ∧ edgeBits ≤ 32) (fewer : parts ≤ buckets)
    (agrees : PartAgrees sizing (partUniform solver edgeBits sizing 0)) :
    edgeBits - buckets ≤ 26 := by
  have two := sized.two
  have few := sized.few
  have reads := sized.reads range 0 (by rw [sized.part_count]; exact Nat.two_pow_pos parts)
  have same := agrees.dead_capacity
  rw [reads.dead_capacity few range two fewer, hostDeadCapacity,
    sized.host_dead_lists range.1 fewer, sized.part_edges, Slean.ceil_div_power _ _ (by omega),
    show edgeBits - parts - (buckets - parts) = edgeBits - buckets by omega] at same
  exact (dead_capacity_agrees_iff _ (by omega)).mp same

end

/-- The parts of a sizing tile the graph, and the kernels agree with the host on each of them,
    if and only if there is a bucket for each arena, the local bitmap is below sixteen
    mebibytes, and no part is smaller than a bucket. Only sizes and indices are compared: what
    the kernels store is a matter of the round, and that a bucket has room for its edges is
    never claimed. -/
theorem slean_layout_agrees_iff (solver : GpuWgpuSolver) (edgeBits : Nat) (sizing : HostSizing)
    (accepted : newWithConfig solver.config = .ok solver.config)
    (range : 24 ≤ edgeBits ∧ edgeBits ≤ 32)
    (sized : sleanSizing solver true edgeBits = .ok sizing) :
    LayoutAgrees solver edgeBits sizing ↔ LayoutFits solver edgeBits := by
  obtain ⟨buckets, parts, made, doublings, reached, first⟩ := slean_sizing_ok accepted sized
  have first_inside : 0 < sizing.parts := by
    rw [made.part_count]
    exact Nat.two_pow_pos parts
  rw [layout_fits_iff made range doublings reached first]
  constructor
  · intro layout
    have agrees := layout.agrees 0 first_inside
    have fewer := made.fewer_of_agrees range agrees
    exact ⟨made.four_of_agrees range agrees, made.narrow_of_agrees range fewer agrees, fewer⟩
  · rintro ⟨four, narrow, fewer⟩
    refine ⟨fun part inside => ?_, made.tiles range, made.part_agrees range four narrow fewer⟩
    have reads := made.reads range part inside
    rw [made.part_count] at inside
    rw [reads.base, reads.count, ← Nat.succ_mul, ← made.whole]
    exact Nat.mul_le_mul_right _ inside

/-- The limits of an adapter with so much local memory and buffers of two gibibytes. -/
def adapterLimits (localMemory : Nat) : Limits := ⟨localMemory, 2 ^ 31, 2 ^ 31⟩

/-- A solver of slean rounds with so many parts to start with. -/
def sleanSolver (sleanParts : Nat) : GpuWgpuSolver :=
  ⟨adapterLimits 32768, ⟨.slean, sleanParts, 32⟩, none, false⟩

/-- With four parts and 64 buckets the kernels agree with the host. -/
theorem four_parts_agree :
    ∃ sizing, sleanSizing (sleanSolver 4) true 24 = .ok sizing ∧
      LayoutAgrees (sleanSolver 4) 24 sizing := by
  refine ⟨partSizes (sleanSolver 4) 24 4, by decide +kernel, ?_⟩
  rw [slean_layout_agrees_iff (sleanSolver 4) 24 _ (by decide +kernel) (by decide)
    (by decide +kernel)]
  exact ⟨by decide, by decide, 0, by decide +kernel, by decide +kernel⟩

/-- With 128 parts and 64 buckets they do not: the shader has no dead list. -/
theorem many_parts_disagree :
    ¬ ∀ (solver : GpuWgpuSolver) (edgeBits : Nat) (sizing : HostSizing),
      newWithConfig solver.config = .ok solver.config → 24 ≤ edgeBits ∧ edgeBits ≤ 32 →
      sleanSizing solver true edgeBits = .ok sizing → LayoutAgrees solver edgeBits sizing := by
  intro always
  have layout := always (sleanSolver 128) 24 (partSizes (sleanSolver 128) 24 128)
    (by decide +kernel) (by decide) (by decide +kernel)
  have same := (layout.agrees 0 (by decide +kernel)).dead_lists
  revert same
  decide +kernel

end CuckatooMiner.SleanLayout
