import Mathlib
import CuckatooMiner.Verify

/-!
# Solve requests

A request names a header, a nonce and the shape of the graph. Its keys are the
four little-endian words of a digest of the header followed by the big-endian
nonce; the digest function is a parameter, since it is not part of the program.
Every backend validates a request before it starts.
-/

namespace CuckatooMiner.Solver

open SipHash Verify

/-- A digest of thirty-two bytes. -/
abbrev Digest := Vector UInt8 32

/-- The word of eight bytes, lowest first. -/
def fromLeBytes (bytes : List UInt8) : BitVec 64 :=
  bytes.foldr (fun byte word => (word <<< 8) ||| byte.toBitVec.setWidth 64) 0#64

/-- The eight bytes of a word, highest first. -/
def toBeBytes (word : BitVec 64) : List UInt8 :=
  (List.range 8).map fun i => ⟨(word >>> (56 - 8 * i)).setWidth 8⟩

/-- The SipHash keys of a header and a nonce. The digest is a parameter, of which nothing is
    assumed. -/
def deriveKeys (blake2b : List UInt8 → Digest) (prePow : List UInt8) (nonce : BitVec 64) :
    SipKeys :=
  let digest := (blake2b (prePow ++ toBeBytes nonce)).toList
  ⟨fromLeBytes (digest.take 8), fromLeBytes ((digest.drop 8).take 8),
    fromLeBytes ((digest.drop 16).take 8), fromLeBytes ((digest.drop 24).take 8)⟩

/-- One unit of work for a backend. -/
structure SolveRequest where
  prePow : List UInt8
  nonce : BitVec 64
  liveWork : Bool
  edgeBits : Nat
  cycleLength : Nat
  rounds : Nat
deriving DecidableEq, Repr

/-- The keys that a request stands for. -/
def SolveRequest.sipKeys (blake2b : List UInt8 → Digest) (request : SolveRequest) : SipKeys :=
  deriveKeys blake2b request.prePow request.nonce

/-- What the trimmer and the cycle search need to know. -/
structure GraphParams where
  keys : SipKeys
  edgeBits : Nat
  cycleLength : Nat
  rounds : Nat
deriving DecidableEq, Repr

/-- The graph of a request. -/
def SolveRequest.graphParams (blake2b : List UInt8 → Digest) (request : SolveRequest) :
    GraphParams :=
  ⟨request.sipKeys blake2b, request.edgeBits, request.cycleLength, request.rounds⟩

/-- What a backend can solve. -/
structure BackendCapabilities where
  minEdgeBits : Nat
  maxEdgeBits : Nat
  cycleLength : Nat
deriving DecidableEq, Repr

/-- Verdicts of a backend. -/
inductive SolveOutcome
  | proof (proof : Proof)
  | noCycle
  | cancelled
  | inconclusive (reason : String)
deriving DecidableEq, Repr

/-- Failures of a backend. -/
inductive SolveError
  | invalidConfig (reason : String)
  | unsupported (reason : String)
  | gpu (reason : String)
  | searchLimit (reason : String)
deriving DecidableEq, Repr

/-- Refuse a request outside the general limits or the backend's own. -/
def validateRequest (request : SolveRequest) (capabilities : BackendCapabilities) :
    Except SolveError Unit :=
  if request.prePow.isEmpty then .error (.invalidConfig "pre_pow must not be empty")
  else if request.edgeBits = 0 ∨ request.edgeBits > 32 then
    .error (.invalidConfig "edge_bits must be in 1..=32")
  else if request.edgeBits < capabilities.minEdgeBits ∨
      request.edgeBits > capabilities.maxEdgeBits then
    .error (.unsupported ("backend supports edge_bits " ++ toString capabilities.minEdgeBits ++
      "..=" ++ toString capabilities.maxEdgeBits ++ ", requested " ++ toString request.edgeBits))
  else if request.cycleLength = 0 ∨ ¬ request.cycleLength % 2 = 0 ∨ request.cycleLength > 64 then
    .error (.invalidConfig "cycle_length must be even and in 2..=64")
  else if request.liveWork = true ∧ request.cycleLength ≠ capabilities.cycleLength then
    .error (.unsupported ("live backend requires cycle_length " ++
      toString capabilities.cycleLength))
  else if request.rounds = 0 then .error (.invalidConfig "rounds must be at least 1")
  else .ok ()

/-- The limits that an accepted request keeps. None of them depends on the keys of the request. -/
structure Valid (request : SolveRequest) (capabilities : BackendCapabilities) : Prop where
  header : request.prePow ≠ []
  edgeBits : 1 ≤ request.edgeBits ∧ request.edgeBits ≤ 32
  supported : capabilities.minEdgeBits ≤ request.edgeBits ∧
    request.edgeBits ≤ capabilities.maxEdgeBits
  cycleLength : 2 ≤ request.cycleLength ∧ request.cycleLength % 2 = 0 ∧ request.cycleLength ≤ 64
  live : request.liveWork = true → request.cycleLength = capabilities.cycleLength
  rounds : 1 ≤ request.rounds

/-- Validation accepts exactly the requests within the limits. -/
theorem validate_request_iff (request : SolveRequest) (capabilities : BackendCapabilities) :
    validateRequest request capabilities = .ok () ↔ Valid request capabilities := by
  unfold validateRequest
  constructor
  · intro accepted
    split at accepted
    · cases accepted
    split at accepted
    · cases accepted
    split at accepted
    · cases accepted
    split at accepted
    · cases accepted
    split at accepted
    · cases accepted
    split at accepted
    · cases accepted
    rename_i header bits supported cycle live rounds
    refine ⟨by simpa using header, by omega, by omega, by omega, ?_, by omega⟩
    intro isLive
    by_contra different
    exact live ⟨isLive, different⟩
  · intro valid
    have header := valid.header
    have bits := valid.edgeBits
    have supported := valid.supported
    have cycle := valid.cycleLength
    have rounds := valid.rounds
    rw [if_neg (by simpa using header), if_neg (by omega), if_neg (by omega), if_neg (by omega),
      if_neg (fun refused => refused.2 (valid.live refused.1)), if_neg (by omega)]

end CuckatooMiner.Solver
