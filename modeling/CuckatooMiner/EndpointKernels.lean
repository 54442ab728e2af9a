import Mathlib
import CuckatooMiner.SipHash
import CuckatooMiner.Foundation.WordHalves

/-!
# The endpoint kernels compute the endpoint

The shaders have endpoint functions of their own: one over pairs of 32-bit halves,
one over native 64-bit words, a scalar Metal one, and a Metal one that hashes both
sides of an edge in the two lanes of a vector. Two of the four replace the last
round by a formula for the low half of the hash.

Every kernel is modeled on the words its source uses. The value of a pair of
halves is the word they join to; each operation on halves computes the
operation on values, so each round computes the hash round. The shortened last
round is correct because three of the four words it would have to fold share the
terms that cancel.
-/

namespace CuckatooMiner.EndpointKernels

open SipHash WordHalves

/-! ## Words in halves -/

/-- A 64-bit word as two 32-bit halves. -/
structure U64 where
  lo : BitVec 32
  hi : BitVec 32
deriving DecidableEq, Repr

/-- The word that the halves stand for. -/
def U64.value (a : U64) : BitVec 64 := join a.hi a.lo

/-- The carry is read off the wrapped low sum. -/
def add64 (a b : U64) : U64 :=
  let lo := a.lo + b.lo
  let carry := if lo < a.lo then 1#32 else 0#32
  ⟨lo, a.hi + b.hi + carry⟩

/-- Exclusive or of both halves. -/
def xor64 (a b : U64) : U64 := ⟨a.lo ^^^ b.lo, a.hi ^^^ b.hi⟩

/-- Rotation on halves, by a whole half, less, or more. -/
def rotl64 (a : U64) (amount : Nat) : U64 :=
  if amount = 32 then ⟨a.hi, a.lo⟩
  else if amount < 32 then
    ⟨(a.lo <<< amount) ||| (a.hi >>> (32 - amount)),
      (a.hi <<< amount) ||| (a.lo >>> (32 - amount))⟩
  else
    let shift := amount - 32
    ⟨(a.hi <<< shift) ||| (a.lo >>> (32 - shift)),
      (a.lo <<< shift) ||| (a.hi >>> (32 - shift))⟩

/-- Addition of halves adds values. -/
theorem value_add64 (a b : U64) : (add64 a b).value = a.value + b.value := by
  simp only [U64.value, add64]
  exact (join_add a.hi a.lo b.hi b.lo).symm

/-- Exclusive or of halves is that of values. -/
theorem value_xor64 (a b : U64) : (xor64 a b).value = a.value ^^^ b.value := by
  simp only [U64.value, xor64]
  exact (join_xor a.hi a.lo b.hi b.lo).symm

/-- Rotation of halves rotates values. -/
theorem value_rotl64 (a : U64) (amount : Nat) (positive : 0 < amount) (below : amount < 64) :
    (rotl64 a amount).value = a.value.rotateLeft amount := by
  rcases Nat.lt_trichotomy amount 32 with short | rfl | long
  · rw [rotl64, if_neg (by omega), if_pos short]
    exact (join_rotate_short a.hi a.lo amount positive short).symm
  · rw [rotl64, if_pos rfl]
    exact (join_rotate_half a.hi a.lo).symm
  · rw [rotl64, if_neg (by omega), if_neg (by omega)]
    exact (join_rotate_long a.hi a.lo amount long below).symm

/-- The low half of a word in halves. -/
theorem value_low (a : U64) : a.value.setWidth 32 = a.lo :=
  join_low a.hi a.lo

/-- The high half of a word in halves. -/
theorem value_high (a : U64) : (a.value >>> 32).setWidth 32 = a.hi :=
  join_high a.hi a.lo

/-! ## The hash state in halves -/

/-- The shader's hash state. -/
structure HalvesState where
  v0 : U64
  v1 : U64
  v2 : U64
  v3 : U64
deriving DecidableEq, Repr

/-- The hash state that the halves stand for. -/
def HalvesState.value (v : HalvesState) : SipState :=
  ⟨v.v0.value, v.v1.value, v.v2.value, v.v3.value⟩

/-- `sip_round` of the shader, assignment by assignment. -/
def sipRoundHalves (v : HalvesState) : HalvesState :=
  let v := { v with v0 := add64 v.v0 v.v1 }
  let v := { v with v2 := add64 v.v2 v.v3 }
  let v := { v with v1 := xor64 (rotl64 v.v1 13) v.v0 }
  let v := { v with v3 := xor64 (rotl64 v.v3 16) v.v2 }
  let v := { v with v0 := rotl64 v.v0 32 }
  let v := { v with v2 := add64 v.v2 v.v1 }
  let v := { v with v0 := add64 v.v0 v.v3 }
  let v := { v with v1 := xor64 (rotl64 v.v1 17) v.v2 }
  let v := { v with v3 := xor64 (rotl64 v.v3 21) v.v0 }
  { v with v2 := rotl64 v.v2 32 }

/-- `sip_final_low` of the shader: the low half of the hash after one more round. -/
def sipFinalLowHalves (v : HalvesState) : BitVec 32 :=
  let b0 := add64 v.v0 v.v1
  let b2 := add64 v.v2 v.v3
  let c1 := xor64 (rotl64 v.v1 13) b0
  let c3 := xor64 (rotl64 v.v3 16) b2
  let d2 := add64 b2 c1
  (rotl64 c1 17).lo ^^^ (rotl64 c3 21).lo ^^^ d2.lo ^^^ d2.hi

/-- The round on halves is the round on values. -/
theorem value_sip_round (v : HalvesState) : (sipRoundHalves v).value = sipRound v.value := by
  simp only [sipRoundHalves, sipRound, HalvesState.value, value_add64, value_xor64,
    value_rotl64 _ 13 (by decide) (by decide), value_rotl64 _ 16 (by decide) (by decide),
    value_rotl64 _ 17 (by decide) (by decide), value_rotl64 _ 21 (by decide) (by decide),
    value_rotl64 _ 32 (by decide) (by decide)]

/-! ## The shortened last round -/

/-- The fold of all four words after a round, in 64 bits: the two words that the
    round adds last and rotates cancel out of it. -/
def sipFinal (v : SipState) : BitVec 64 :=
  let b0 := v.v0 + v.v1
  let b2 := v.v2 + v.v3
  let c1 := v.v1.rotateLeft 13 ^^^ b0
  let c3 := v.v3.rotateLeft 16 ^^^ b2
  let d2 := b2 + c1
  c1.rotateLeft 17 ^^^ c3.rotateLeft 21 ^^^ d2 ^^^ d2.rotateLeft 32

/-- Two occurrences of one word and two of another cancel in the final fold. -/
theorem fold_cancels (sum turned mixed swapped rest : BitVec 64) :
    sum ^^^ (turned ^^^ mixed) ^^^ swapped ^^^ (rest ^^^ sum) =
      turned ^^^ rest ^^^ mixed ^^^ swapped := by
  apply BitVec.eq_of_getLsbD_eq
  intro i _
  simp only [BitVec.getLsbD_xor]
  generalize sum.getLsbD i = a
  generalize turned.getLsbD i = b
  generalize mixed.getLsbD i = c
  generalize swapped.getLsbD i = d
  generalize rest.getLsbD i = e
  revert a b c d e
  decide

/-- The four words of the last round fold to the shortened formula. -/
theorem sip_final_folds (v : SipState) :
    (sipRound v).v0 ^^^ (sipRound v).v1 ^^^ (sipRound v).v2 ^^^ (sipRound v).v3 = sipFinal v := by
  simp only [sipRound, sipFinal]
  exact fold_cancels _ _ _ _ _

/-- The low half of a word rotated by a half is its high half. -/
theorem rotate_half_low (word : BitVec 64) :
    (word.rotateLeft 32).setWidth 32 = (word >>> 32).setWidth 32 := by
  rw [← join_split word, join_rotate_half, join_low, join_high]

/-- The shader's last step is the low half of the shortened formula. -/
theorem sip_final_low_halves (v : HalvesState) :
    sipFinalLowHalves v = (sipFinal v.value).setWidth 32 := by
  simp only [sipFinalLowHalves, sipFinal, HalvesState.value, BitVec.setWidth_xor,
    rotate_half_low]
  simp only [← value_add64, ← value_xor64, ← value_rotl64 _ 13 (by decide) (by decide),
    ← value_rotl64 _ 16 (by decide) (by decide), ← value_rotl64 _ 17 (by decide) (by decide),
    ← value_rotl64 _ 21 (by decide) (by decide), value_low, value_high]

/-! ## The keys and the nonce -/

/-- The keys as the shader's uniform words, low half first. -/
structure GpuSipKeys where
  words : Vector (BitVec 32) 8

/-- `GpuSipKeys::from` splits each key into its halves. -/
def GpuSipKeys.ofKeys (keys : SipKeys) : GpuSipKeys :=
  let low (value : BitVec 64) : BitVec 32 := value.setWidth 32
  let high (value : BitVec 64) : BitVec 32 := (value >>> 32).setWidth 32
  ⟨#v[low keys.k0, high keys.k0, low keys.k1, high keys.k1,
    low keys.k2, high keys.k2, low keys.k3, high keys.k3]⟩

/-- Four 32-bit words of a uniform. -/
structure Vec4 where
  x : BitVec 32
  y : BitVec 32
  z : BitVec 32
  w : BitVec 32
deriving DecidableEq, Repr

/-- What the endpoint functions of the shader read of its uniform. -/
structure Params where
  keyWordsA : Vec4
  keyWordsB : Vec4
  edgeBits : BitVec 32
deriving DecidableEq, Repr

/-- The uniform filled by the host: the eight key words in order and the edge bits. -/
def Params.ofKeys (keys : GpuSipKeys) (edgeBits : Nat) : Params :=
  let words := keys.words
  ⟨⟨words[0], words[1], words[2], words[3]⟩, ⟨words[4], words[5], words[6], words[7]⟩,
    BitVec.ofNat 32 edgeBits⟩

/-- The uniform holds the halves of the four keys. -/
theorem params_of_keys (keys : SipKeys) (edgeBits : Nat) :
    Params.ofKeys (.ofKeys keys) edgeBits =
      ⟨⟨keys.k0.setWidth 32, (keys.k0 >>> 32).setWidth 32,
          keys.k1.setWidth 32, (keys.k1 >>> 32).setWidth 32⟩,
        ⟨keys.k2.setWidth 32, (keys.k2 >>> 32).setWidth 32,
          keys.k3.setWidth 32, (keys.k3 >>> 32).setWidth 32⟩,
        BitVec.ofNat 32 edgeBits⟩ :=
  rfl

/-- The last step of every kernel: keep the low bits of the hash unless all are kept. -/
def keepEdgeBits (edgeBits result : BitVec 32) : BitVec 32 :=
  if edgeBits < 32#32 then result &&& ((1#32 <<< edgeBits) - 1#32) else result

/-- The hashed word of an edge and a side. -/
def nonceOf (edge side : BitVec 32) : BitVec 64 :=
  (edge.setWidth 64 <<< 1) ||| side.setWidth 64

/-- The side that the reference hashes is added to twice the edge; below the
    lowest bit of an even word, adding and or-ing are the same. -/
theorem nonce_value (edge side : BitVec 32) (isSide : side = 0#32 ∨ side = 1#32) :
    BitVec.ofNat 64 edge.toNat * 2#64 + BitVec.ofNat 64 (side.toNat &&& 1) = nonceOf edge side := by
  have doubled : BitVec.ofNat 64 edge.toNat * 2#64 = edge.setWidth 64 <<< 1 := by
    apply BitVec.eq_of_toNat_eq
    have bound := edge.isLt
    simp only [BitVec.toNat_mul, BitVec.toNat_ofNat, BitVec.toNat_shiftLeft, BitVec.toNat_setWidth,
      Nat.shiftLeft_eq]
  rw [doubled, nonceOf]
  rcases isSide with rfl | rfl
  · simp
  · have apart : (edge.setWidth 64 <<< 1) &&& 1#64 = 0#64 := by
      apply BitVec.eq_of_getLsbD_eq
      intro i _
      rw [BitVec.getLsbD_and, BitVec.getLsbD_shiftLeft]
      rcases Nat.eq_zero_or_pos i with rfl | positive
      · simp
      · simp [BitVec.getLsbD_one, Nat.ne_of_gt positive]
    exact BitVec.add_eq_or_of_and_eq_zero _ _ apart

/-- The endpoint, from the low half of the hash of the nonce. -/
theorem endpoint_kept (keys : SipKeys) (edgeBits : Nat) (edge side : BitVec 32)
    (inRange : edgeBits ≤ 32) (isSide : side = 0#32 ∨ side = 1#32) :
    (keepEdgeBits (BitVec.ofNat 32 edgeBits)
      ((siphash24 keys (nonceOf edge side)).setWidth 32)).toNat =
      endpoint keys edgeBits edge.toNat side.toNat := by
  have masked : ∀ hash : BitVec 64,
      keepEdgeBits (BitVec.ofNat 32 edgeBits) (hash.setWidth 32) =
        (hash &&& nodeMask edgeBits).setWidth 32 := by
    intro hash
    have mask : edgeBits < 32 →
        (nodeMask edgeBits).setWidth 32 = (1#32 <<< BitVec.ofNat 32 edgeBits) - 1#32 := by
      intro below
      interval_cases edgeBits <;> decide
    rw [keepEdgeBits, BitVec.setWidth_and]
    rcases Nat.lt_or_ge edgeBits 32 with below | above
    · rw [mask below, if_pos (by rw [BitVec.lt_def, BitVec.toNat_ofNat]; simp; omega)]
    · obtain rfl : edgeBits = 32 := by omega
      rw [if_neg (by decide), show (nodeMask 32).setWidth 32 = BitVec.allOnes 32 by decide,
        BitVec.and_allOnes]
  rw [masked, endpoint, nonce_value edge side isSide]

/-! ## The kernel on halves -/

/-- `endpoint_for_side` of the shader. -/
def endpointForSide (params : Params) (edge side : BitVec 32) : BitVec 32 :=
  let nonce : U64 := ⟨(edge <<< 1) ||| side, edge >>> 31⟩
  let v : HalvesState :=
    ⟨⟨params.keyWordsA.x, params.keyWordsA.y⟩, ⟨params.keyWordsA.z, params.keyWordsA.w⟩,
      ⟨params.keyWordsB.x, params.keyWordsB.y⟩,
      xor64 ⟨params.keyWordsB.z, params.keyWordsB.w⟩ nonce⟩
  let v := sipRoundHalves (sipRoundHalves v)
  let v := { v with v0 := xor64 v.v0 nonce }
  let v := { v with v2 := xor64 v.v2 ⟨255#32, 0#32⟩ }
  let v := sipRoundHalves (sipRoundHalves (sipRoundHalves v))
  keepEdgeBits params.edgeBits (sipFinalLowHalves v)

/-- The state before the shortened last round: two rounds, the nonce and the
    separator mixed in, three rounds. -/
def beforeLastRound (keys : SipKeys) (nonce : BitVec 64) : SipState :=
  let v : SipState := ⟨keys.k0, keys.k1, keys.k2, keys.k3 ^^^ nonce⟩
  let v := sipRound (sipRound v)
  let v := { v with v0 := v.v0 ^^^ nonce, v2 := v.v2 ^^^ 0xff#64 }
  sipRound (sipRound (sipRound v))

/-- The hash is the shortened formula of the state before the last round. -/
theorem siphash_before_last_round (keys : SipKeys) (nonce : BitVec 64) :
    siphash24 keys nonce = sipFinal (beforeLastRound keys nonce) := by
  rw [← sip_final_folds]
  rfl

/-- The shader's nonce in halves is the hashed word: the edge's top bit moves into
    the high half. -/
theorem value_nonce (edge side : BitVec 32) (isSide : side = 0#32 ∨ side = 1#32) :
    U64.value ⟨(edge <<< 1) ||| side, edge >>> 31⟩ = nonceOf edge side := by
  apply BitVec.eq_of_getLsbD_eq
  intro i inside
  simp only [U64.value, join, nonceOf, BitVec.getLsbD_append, BitVec.getLsbD_or,
    BitVec.getLsbD_shiftLeft, BitVec.getLsbD_ushiftRight, BitVec.getLsbD_setWidth]
  rcases isSide with rfl | rfl <;> grind

/-- The kernel on halves returns the endpoint. -/
theorem endpoint_for_side_exact (keys : SipKeys) (edgeBits : Nat) (edge side : BitVec 32)
    (inRange : edgeBits ≤ 32) (isSide : side = 0#32 ∨ side = 1#32) :
    (endpointForSide (.ofKeys (.ofKeys keys) edgeBits) edge side).toNat =
      endpoint keys edgeBits edge.toNat side.toNat := by
  rw [← endpoint_kept keys edgeBits edge side inRange isSide, siphash_before_last_round]
  have split : ∀ key : BitVec 64,
      U64.value ⟨key.setWidth 32, (key >>> 32).setWidth 32⟩ = key := fun key => join_split key
  have separator : U64.value ⟨255#32, 0#32⟩ = 0xff#64 := by decide
  have started : HalvesState.value
      ⟨⟨keys.k0.setWidth 32, (keys.k0 >>> 32).setWidth 32⟩,
        ⟨keys.k1.setWidth 32, (keys.k1 >>> 32).setWidth 32⟩,
        ⟨keys.k2.setWidth 32, (keys.k2 >>> 32).setWidth 32⟩,
        xor64 ⟨keys.k3.setWidth 32, (keys.k3 >>> 32).setWidth 32⟩
          ⟨(edge <<< 1) ||| side, edge >>> 31⟩⟩ =
      ⟨keys.k0, keys.k1, keys.k2, keys.k3 ^^^ nonceOf edge side⟩ := by
    simp only [HalvesState.value, value_xor64, split, value_nonce edge side isSide]
  have mixed : ∀ v : HalvesState,
      HalvesState.value { v with
        v0 := xor64 v.v0 ⟨(edge <<< 1) ||| side, edge >>> 31⟩,
        v2 := xor64 v.v2 ⟨255#32, 0#32⟩ } =
      { v.value with
        v0 := v.value.v0 ^^^ nonceOf edge side, v2 := v.value.v2 ^^^ 0xff#64 } := by
    intro v
    simp only [HalvesState.value, value_xor64, separator, value_nonce edge side isSide]
  rw [params_of_keys]
  change (keepEdgeBits _ (sipFinalLowHalves _)).toNat = _
  rw [sip_final_low_halves]
  simp only [value_sip_round, mixed, started]
  rfl

/-! ## The native kernel -/

/-- Rotation by a left and a right shift, as all native kernels write it. -/
def nativeRotl (value : BitVec 64) (amount : Nat) : BitVec 64 :=
  (value <<< amount) ||| (value >>> (64 - amount))

/-- `native_sip_round`, assignment by assignment. -/
def nativeSipRound (v : SipState) : SipState :=
  let v := { v with v0 := v.v0 + v.v1 }
  let v := { v with v2 := v.v2 + v.v3 }
  let v := { v with v1 := nativeRotl v.v1 13 ^^^ v.v0 }
  let v := { v with v3 := nativeRotl v.v3 16 ^^^ v.v2 }
  let v := { v with v0 := nativeRotl v.v0 32 }
  let v := { v with v2 := v.v2 + v.v1 }
  let v := { v with v0 := v.v0 + v.v3 }
  let v := { v with v1 := nativeRotl v.v1 17 ^^^ v.v2 }
  let v := { v with v3 := nativeRotl v.v3 21 ^^^ v.v0 }
  { v with v2 := nativeRotl v.v2 32 }

/-- A word from its uniform halves. -/
def nativeWord (lo hi : BitVec 32) : BitVec 64 :=
  lo.setWidth 64 ||| (hi.setWidth 64 <<< 32)

/-- `endpoint_for_side` of the native shader, with all four last rounds. -/
def nativeEndpointForSide (params : Params) (edge side : BitVec 32) : BitVec 32 :=
  let nonce : BitVec 64 := (edge.setWidth 64 <<< 1) ||| side.setWidth 64
  let v : SipState :=
    ⟨nativeWord params.keyWordsA.x params.keyWordsA.y,
      nativeWord params.keyWordsA.z params.keyWordsA.w,
      nativeWord params.keyWordsB.x params.keyWordsB.y,
      nativeWord params.keyWordsB.z params.keyWordsB.w ^^^ nonce⟩
  let v := nativeSipRound (nativeSipRound v)
  let v := { v with v0 := v.v0 ^^^ nonce }
  let v := { v with v2 := v.v2 ^^^ 255#64 }
  let v := nativeSipRound (nativeSipRound (nativeSipRound (nativeSipRound v)))
  keepEdgeBits params.edgeBits ((v.v0 ^^^ v.v1 ^^^ v.v2 ^^^ v.v3).setWidth 32)

/-- The native rotation rotates. -/
theorem native_rotl_rotates (value : BitVec 64) (amount : Nat) (below : amount < 64) :
    nativeRotl value amount = value.rotateLeft amount :=
  shifts_rotate value amount below

/-- The native round is the round. -/
theorem native_sip_round (v : SipState) : nativeSipRound v = sipRound v := by
  simp only [nativeSipRound, sipRound, native_rotl_rotates _ 13 (by decide),
    native_rotl_rotates _ 16 (by decide), native_rotl_rotates _ 17 (by decide),
    native_rotl_rotates _ 21 (by decide), native_rotl_rotates _ 32 (by decide)]

/-- The native kernel returns the endpoint. -/
theorem native_endpoint_exact (keys : SipKeys) (edgeBits : Nat) (edge side : BitVec 32)
    (inRange : edgeBits ≤ 32) (isSide : side = 0#32 ∨ side = 1#32) :
    (nativeEndpointForSide (.ofKeys (.ofKeys keys) edgeBits) edge side).toNat =
      endpoint keys edgeBits edge.toNat side.toNat := by
  rw [← endpoint_kept keys edgeBits edge side inRange isSide]
  have joined : ∀ key : BitVec 64,
      nativeWord (key.setWidth 32) ((key >>> 32).setWidth 32) = key := by
    intro key
    rw [nativeWord, shift_or_join, join_split]
  simp only [params_of_keys, nativeEndpointForSide, native_sip_round, joined]
  rfl

/-! ## The scalar Metal kernel -/

/-- What the endpoint functions of the Metal kernels read of their parameters. -/
structure EndpointParams where
  k0 : BitVec 64
  k1 : BitVec 64
  k2 : BitVec 64
  k3 : BitVec 64
  edgeBits : BitVec 32
  side : BitVec 32
deriving DecidableEq, Repr

/-- The parameters filled by the host for a round on one side. -/
def EndpointParams.ofKeys (keys : SipKeys) (edgeBits : Nat) (side : BitVec 32) : EndpointParams :=
  ⟨keys.k0, keys.k1, keys.k2, keys.k3, BitVec.ofNat 32 edgeBits, side⟩

/-- The Metal rotation is the native one. -/
def rotl64Metal (value : BitVec 64) (amount : Nat) : BitVec 64 := nativeRotl value amount

/-- The Metal round is the native one, assignment by assignment. -/
def sipRound64 (v : SipState) : SipState := nativeSipRound v

/-- `sip_final_low` of the Metal kernels: the formula in 64 bits, truncated. -/
def sipFinalLow64 (v : SipState) : BitVec 32 :=
  let b0 := v.v0 + v.v1
  let b2 := v.v2 + v.v3
  let c1 := rotl64Metal v.v1 13 ^^^ b0
  let c3 := rotl64Metal v.v3 16 ^^^ b2
  let d2 := b2 + c1
  (rotl64Metal c1 17 ^^^ rotl64Metal c3 21 ^^^ d2 ^^^ (d2 >>> 32)).setWidth 32

/-- `cuckatoo_endpoint_side` of the Metal kernels. -/
def cuckatooEndpointSide (edge : BitVec 32) (params : EndpointParams) (side : BitVec 32) :
    BitVec 32 :=
  let nonce : BitVec 64 := (edge.setWidth 64 <<< 1) ||| (side &&& 1#32).setWidth 64
  let v : SipState := ⟨params.k0, params.k1, params.k2, params.k3 ^^^ nonce⟩
  let v := sipRound64 (sipRound64 v)
  let v := { v with v0 := v.v0 ^^^ nonce }
  let v := { v with v2 := v.v2 ^^^ 255#64 }
  let v := sipRound64 (sipRound64 (sipRound64 v))
  keepEdgeBits params.edgeBits (sipFinalLow64 v)

/-- `cuckatoo_endpoint`: the endpoint on the side of the parameters. -/
def cuckatooEndpoint (edge : BitVec 32) (params : EndpointParams) : BitVec 32 :=
  cuckatooEndpointSide edge params params.side

/-- The Metal formula keeps the low half of the shortened last round: shifting by a
    half and rotating by a half have the same low half. -/
theorem sip_final_low64 (v : SipState) : sipFinalLow64 v = (sipFinal v).setWidth 32 := by
  simp only [sipFinalLow64, sipFinal, rotl64Metal, BitVec.setWidth_xor, rotate_half_low,
    native_rotl_rotates _ 13 (by decide), native_rotl_rotates _ 16 (by decide),
    native_rotl_rotates _ 17 (by decide), native_rotl_rotates _ 21 (by decide)]

/-- A side is its own lowest bit. -/
theorem side_masked (side : BitVec 32) (isSide : side = 0#32 ∨ side = 1#32) :
    side &&& 1#32 = side := by
  rcases isSide with rfl | rfl <;> decide

/-- The scalar Metal kernel returns the endpoint on any side it is asked for. -/
theorem cuckatoo_endpoint_side_exact (keys : SipKeys) (edgeBits : Nat)
    (edge roundSide side : BitVec 32) (inRange : edgeBits ≤ 32)
    (isSide : side = 0#32 ∨ side = 1#32) :
    (cuckatooEndpointSide edge (.ofKeys keys edgeBits roundSide) side).toNat =
      endpoint keys edgeBits edge.toNat side.toNat := by
  rw [← endpoint_kept keys edgeBits edge side inRange isSide, siphash_before_last_round]
  simp only [cuckatooEndpointSide, EndpointParams.ofKeys, sipRound64, native_sip_round,
    sip_final_low64, side_masked side isSide]
  rfl

/-! ## The two-lane Metal kernel -/

/-- A vector of two words. -/
structure ULong2 where
  x : BitVec 64
  y : BitVec 64
deriving DecidableEq, Repr

/-- A scalar in both lanes. -/
def ULong2.splat (value : BitVec 64) : ULong2 := ⟨value, value⟩

/-- Lane-wise addition. -/
def ULong2.add (a b : ULong2) : ULong2 := ⟨a.x + b.x, a.y + b.y⟩

/-- Lane-wise exclusive or. -/
def ULong2.xor (a b : ULong2) : ULong2 := ⟨a.x ^^^ b.x, a.y ^^^ b.y⟩

/-- Lane-wise or. -/
def ULong2.or (a b : ULong2) : ULong2 := ⟨a.x ||| b.x, a.y ||| b.y⟩

/-- Lane-wise left shift by one amount. -/
def ULong2.shiftLeft (a : ULong2) (amount : Nat) : ULong2 := ⟨a.x <<< amount, a.y <<< amount⟩

/-- Lane-wise right shift by one amount. -/
def ULong2.shiftRight (a : ULong2) (amount : Nat) : ULong2 := ⟨a.x >>> amount, a.y >>> amount⟩

/-- The rotation of both lanes. -/
def rotl64Pair (value : ULong2) (amount : Nat) : ULong2 :=
  (value.shiftLeft amount).or (value.shiftRight (64 - amount))

/-- Two hash states side by side. -/
structure SipStatePair where
  v0 : ULong2
  v1 : ULong2
  v2 : ULong2
  v3 : ULong2
deriving DecidableEq, Repr

/-- The hash state in the first lane. -/
def SipStatePair.x (v : SipStatePair) : SipState := ⟨v.v0.x, v.v1.x, v.v2.x, v.v3.x⟩

/-- The hash state in the second lane. -/
def SipStatePair.y (v : SipStatePair) : SipState := ⟨v.v0.y, v.v1.y, v.v2.y, v.v3.y⟩

/-- `sip_round_pair`, assignment by assignment. -/
def sipRoundPair (v : SipStatePair) : SipStatePair :=
  let v := { v with v0 := v.v0.add v.v1 }
  let v := { v with v2 := v.v2.add v.v3 }
  let v := { v with v1 := (rotl64Pair v.v1 13).xor v.v0 }
  let v := { v with v3 := (rotl64Pair v.v3 16).xor v.v2 }
  let v := { v with v0 := rotl64Pair v.v0 32 }
  let v := { v with v2 := v.v2.add v.v1 }
  let v := { v with v0 := v.v0.add v.v3 }
  let v := { v with v1 := (rotl64Pair v.v1 17).xor v.v2 }
  let v := { v with v3 := (rotl64Pair v.v3 21).xor v.v0 }
  { v with v2 := rotl64Pair v.v2 32 }

/-- A vector of two 32-bit words. -/
structure UInt2 where
  x : BitVec 32
  y : BitVec 32
deriving DecidableEq, Repr

/-- The last step of the pair kernel on both lanes. -/
def sipFinalLowPair (v : SipStatePair) : UInt2 :=
  let b0 := v.v0.add v.v1
  let b2 := v.v2.add v.v3
  let c1 := (rotl64Pair v.v1 13).xor b0
  let c3 := (rotl64Pair v.v3 16).xor b2
  let d2 := b2.add c1
  let folded := (((rotl64Pair c1 17).xor (rotl64Pair c3 21)).xor d2).xor (d2.shiftRight 32)
  ⟨folded.x.setWidth 32, folded.y.setWidth 32⟩

/-- `cuckatoo_endpoint_pair`: the endpoint on the side of the parameters in the
    first lane, the one on the other side in the second. -/
def cuckatooEndpointPair (edge : BitVec 32) (params : EndpointParams) : UInt2 :=
  let base : BitVec 64 := edge.setWidth 64 <<< 1
  let nonce : ULong2 :=
    ⟨base ||| (params.side &&& 1#32).setWidth 64,
      base ||| ((params.side ^^^ 1#32) &&& 1#32).setWidth 64⟩
  let v : SipStatePair :=
    ⟨.splat params.k0, .splat params.k1, .splat params.k2, (ULong2.splat params.k3).xor nonce⟩
  let v := sipRoundPair (sipRoundPair v)
  let v := { v with v0 := v.v0.xor nonce }
  let v := { v with v2 := v.v2.xor (.splat 255#64) }
  let v := sipRoundPair (sipRoundPair (sipRoundPair v))
  let result := sipFinalLowPair v
  ⟨keepEdgeBits params.edgeBits result.x, keepEdgeBits params.edgeBits result.y⟩

/-- The first lane of a round is the round of the first lane. -/
theorem pair_round_x (v : SipStatePair) : (sipRoundPair v).x = sipRound64 v.x := rfl

/-- The second lane of a round is the round of the second lane. -/
theorem pair_round_y (v : SipStatePair) : (sipRoundPair v).y = sipRound64 v.y := rfl

/-- The first lane of the last step is the last step of the first lane. -/
theorem pair_final_x (v : SipStatePair) : (sipFinalLowPair v).x = sipFinalLow64 v.x := rfl

/-- The second lane of the last step is the last step of the second lane. -/
theorem pair_final_y (v : SipStatePair) : (sipFinalLowPair v).y = sipFinalLow64 v.y := rfl

/-- Mixing the nonces in, in the first lane. -/
theorem pair_mix_x (v : SipStatePair) (nonce separator : ULong2) :
    SipStatePair.x { v with v0 := v.v0.xor nonce, v2 := v.v2.xor separator } =
      { v.x with v0 := v.x.v0 ^^^ nonce.x, v2 := v.x.v2 ^^^ separator.x } := rfl

/-- Mixing the nonces in, in the second lane. -/
theorem pair_mix_y (v : SipStatePair) (nonce separator : ULong2) :
    SipStatePair.y { v with v0 := v.v0.xor nonce, v2 := v.v2.xor separator } =
      { v.y with v0 := v.y.v0 ^^^ nonce.y, v2 := v.y.v2 ^^^ separator.y } := rfl

/-- The first lane of the pair kernel is the scalar kernel on the parameters' side. -/
theorem cuckatoo_pair_x (edge : BitVec 32) (params : EndpointParams) :
    (cuckatooEndpointPair edge params).x = cuckatooEndpointSide edge params params.side := by
  simp only [cuckatooEndpointPair, cuckatooEndpointSide, pair_final_x, pair_round_x, pair_mix_x]
  simp only [SipStatePair.x, ULong2.splat, ULong2.xor]

/-- The second lane of the pair kernel is the scalar kernel on the other side. -/
theorem cuckatoo_pair_y (edge : BitVec 32) (params : EndpointParams) :
    (cuckatooEndpointPair edge params).y =
      cuckatooEndpointSide edge params (params.side ^^^ 1#32) := by
  simp only [cuckatooEndpointPair, cuckatooEndpointSide, pair_final_y, pair_round_y, pair_mix_y]
  simp only [SipStatePair.y, ULong2.splat, ULong2.xor]

/-- Every kernel returns the endpoint, for every key set, edge, side and graph size: the one on
    halves, the native one, the scalar Metal one, and both lanes of the pair, the second on the
    other side. The words are those of the kernels; that a shader compiler keeps their meaning
    is assumed. -/
theorem endpoint_kernels_agree (keys : SipKeys) (edgeBits : Nat) (edge side : BitVec 32)
    (inRange : 1 ≤ edgeBits ∧ edgeBits ≤ 32) (isSide : side = 0#32 ∨ side = 1#32) :
    (endpointForSide (.ofKeys (.ofKeys keys) edgeBits) edge side).toNat =
        endpoint keys edgeBits edge.toNat side.toNat ∧
      (nativeEndpointForSide (.ofKeys (.ofKeys keys) edgeBits) edge side).toNat =
        endpoint keys edgeBits edge.toNat side.toNat ∧
      (∀ roundSide, (cuckatooEndpointSide edge (.ofKeys keys edgeBits roundSide) side).toNat =
        endpoint keys edgeBits edge.toNat side.toNat) ∧
      (cuckatooEndpointPair edge (.ofKeys keys edgeBits side)).x.toNat =
        endpoint keys edgeBits edge.toNat side.toNat ∧
      (cuckatooEndpointPair edge (.ofKeys keys edgeBits side)).y.toNat =
        endpoint keys edgeBits edge.toNat (side ^^^ 1#32).toNat := by
  obtain ⟨-, atMost⟩ := inRange
  have otherSide : side ^^^ 1#32 = 0#32 ∨ side ^^^ 1#32 = 1#32 := by
    rcases isSide with rfl | rfl <;> decide
  refine ⟨endpoint_for_side_exact keys edgeBits edge side atMost isSide,
    native_endpoint_exact keys edgeBits edge side atMost isSide, ?_, ?_, ?_⟩
  · intro roundSide
    exact cuckatoo_endpoint_side_exact keys edgeBits edge roundSide side atMost isSide
  · rw [cuckatoo_pair_x]
    exact cuckatoo_endpoint_side_exact keys edgeBits edge side side atMost isSide
  · rw [cuckatoo_pair_y]
    exact cuckatoo_endpoint_side_exact keys edgeBits edge side _ atMost otherSide

/-- The kernels agree on one edge of a small graph. -/
theorem kernels_agree_on_an_edge :
    (endpointForSide (.ofKeys (.ofKeys ⟨24, 0, 0, 0⟩) 4) 6#32 1#32).toNat =
        endpoint ⟨24, 0, 0, 0⟩ 4 6 1 ∧
      (nativeEndpointForSide (.ofKeys (.ofKeys ⟨24, 0, 0, 0⟩) 4) 6#32 1#32).toNat =
        endpoint ⟨24, 0, 0, 0⟩ 4 6 1 ∧
      (∀ roundSide, (cuckatooEndpointSide 6#32 (.ofKeys ⟨24, 0, 0, 0⟩ 4 roundSide) 1#32).toNat =
        endpoint ⟨24, 0, 0, 0⟩ 4 6 1) ∧
      (cuckatooEndpointPair 6#32 (.ofKeys ⟨24, 0, 0, 0⟩ 4 1#32)).x.toNat =
        endpoint ⟨24, 0, 0, 0⟩ 4 6 1 ∧
      (cuckatooEndpointPair 6#32 (.ofKeys ⟨24, 0, 0, 0⟩ 4 1#32)).y.toNat =
        endpoint ⟨24, 0, 0, 0⟩ 4 6 0 :=
  endpoint_kernels_agree ⟨24, 0, 0, 0⟩ 4 6#32 1#32 (by decide) (Or.inr rfl)

end CuckatooMiner.EndpointKernels
