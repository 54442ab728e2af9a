import Mathlib
import CuckatooMiner.HonestSolver

/-!
# Arguments of the program

The parser of the command line keeps the sizes of a solver in range: the edge bits, the rounds,
and two numbers that must be powers of two. So the arguments carry these limits, and the check
that the GPU solver makes of its settings never fails for them.

The choice of a solver depends on what the machine offers: whether the program is built for a
system with Metal, whether a Metal context passes its tests, and whether an adapter is found.
What the choice prints on the way is left out.
-/

namespace CuckatooMiner.Cli

open Solver SleanLayout
open CpuLean (CpuLeanSolver)
open MetalSolve (GpuMetalSolver)
open WgpuTrim (Adapter)

/-! ## Numbers -/

/-- Why a text is no number of thirty-two bits. -/
inductive ParseIntError
  | empty
  | invalidDigit
  | posOverflow
deriving DecidableEq, Repr

/-- The text of a parse error. -/
def ParseIntError.text : ParseIntError → String
  | .empty => "cannot parse integer from empty string"
  | .invalidDigit => "invalid digit found in string"
  | .posOverflow => "number too large to fit in target type"

/-- Read digits, highest first, after a number that was read before. A digit is looked at before
    the product is, and the product before the sum. -/
def parseDigits (result : Nat) : List Char → Except ParseIntError Nat
  | [] => .ok result
  | digit :: rest =>
      if ¬ digit.isDigit then .error .invalidDigit
      else if 2 ^ 32 ≤ 10 * result then .error .posOverflow
      else if 2 ^ 32 ≤ 10 * result + (digit.toNat - '0'.toNat) then .error .posOverflow
      else parseDigits (10 * result + (digit.toNat - '0'.toNat)) rest

/-- Read a number of thirty-two bits. A sign alone is no number, and a minus sign is no digit. -/
def parseU32 (value : String) : Except ParseIntError Nat :=
  match value.toList with
  | [] => .error .empty
  | ['+'] => .error .invalidDigit
  | '+' :: digits => parseDigits 0 digits
  | digits => parseDigits 0 digits

/-- Read a power of two that is at least two. -/
def parsePowerOfTwo (value : String) : Except String Nat :=
  match parseU32 value with
  | .error error => .error ("expected an integer: " ++ error.text)
  | .ok parsed =>
      if parsed < 2 ∨ ¬ parsed.isPowerOfTwo then
        .error "value must be a power of two and at least 2"
      else .ok parsed

/-- A text spells a number in decimal digits, after a plus sign or not. -/
def Spells (value : String) (number : Nat) : Prop :=
  ∃ digits, digits ≠ [] ∧ (value.toList = digits ∨ value.toList = '+' :: digits) ∧
    (∀ digit ∈ digits, digit.isDigit) ∧ Nat.ofDigitChars 10 digits 0 = number

/-- Digits that follow make a number no smaller. -/
theorem le_of_digit_chars (digits : List Char) (before : Nat) :
    before ≤ Nat.ofDigitChars 10 digits before := by
  rw [Nat.ofDigitChars_eq_ofDigitChars_zero]
  have grows : before ≤ 10 ^ digits.length * before :=
    Nat.le_mul_of_pos_left before (Nat.pow_pos (by decide))
  omega

/-- Digits are read as the number they spell, if it has thirty-two bits. -/
theorem parse_digits_iff (digits : List Char) (before number : Nat) (fits : before < 2 ^ 32) :
    parseDigits before digits = .ok number ↔
      (∀ digit ∈ digits, digit.isDigit) ∧ Nat.ofDigitChars 10 digits before = number ∧
        number < 2 ^ 32 := by
  induction digits generalizing before with
  | nil =>
    simp only [parseDigits, Except.ok.injEq, List.not_mem_nil, false_implies, implies_true,
      Nat.ofDigitChars_nil, true_and]
    constructor
    · intro same
      exact ⟨same, same ▸ fits⟩
    · exact And.left
  | cons digit rest inductionHypothesis =>
    have later := le_of_digit_chars rest (10 * before + (digit.toNat - '0'.toNat))
    simp only [parseDigits, Nat.ofDigitChars_cons, List.forall_mem_cons]
    by_cases isDigit : digit.isDigit = true
    · simp only [isDigit, not_true_eq_false, if_false, true_and]
      by_cases product : 2 ^ 32 ≤ 10 * before
      · simp only [product, if_true, reduceCtorEq, false_iff]
        rintro ⟨_, same, small⟩
        omega
      · by_cases sum : 2 ^ 32 ≤ 10 * before + (digit.toNat - '0'.toNat)
        · simp only [product, sum, if_true, if_false, reduceCtorEq, false_iff]
          rintro ⟨_, same, small⟩
          omega
        · simp only [product, sum, if_false]
          exact inductionHypothesis _ (Nat.lt_of_not_le sum)
    · simp [isDigit]

/-- A text is read as a number exactly if it spells it and it has thirty-two bits. -/
theorem parse_u32_iff (value : String) (number : Nat) :
    parseU32 value = .ok number ↔ Spells value number ∧ number < 2 ^ 32 := by
  have digits_iff (digits : List Char) := parse_digits_iff digits 0 number (by decide)
  have no_sign : ('+' : Char).isDigit = false := by decide
  unfold parseU32 Spells
  split
  · rename_i empty
    simp only [empty, reduceCtorEq, false_iff]
    rintro ⟨⟨digits, filled, same | same, _⟩, _⟩
    · exact filled same.symm
    · cases same
  · rename_i sign
    simp only [sign, reduceCtorEq, false_iff]
    rintro ⟨⟨digits, filled, same | same, all, _⟩, _⟩
    · subst same
      simp [no_sign] at all
    · cases same
      exact filled rfl
  · rename_i digits filled signed
    rw [digits_iff]
    constructor
    · rintro ⟨all, value, small⟩
      exact ⟨⟨digits, filled, Or.inr signed, all, value⟩, small⟩
    · rintro ⟨⟨others, _, same | same, all, value⟩, small⟩
      · rw [signed] at same
        subst same
        simp [no_sign] at all
      · rw [signed] at same
        cases same
        exact ⟨all, value, small⟩
  · rename_i filled sign unsigned
    rw [digits_iff]
    constructor
    · rintro ⟨all, number, small⟩
      exact ⟨⟨value.toList, filled, Or.inl rfl, all, number⟩, small⟩
    · rintro ⟨⟨others, _, same | same, all, number⟩, small⟩
      · subst same
        exact ⟨all, number, small⟩
      · exact absurd same (unsigned others)

/-- A number that may be given as a number of parts, or of kibibytes. -/
structure PowerOfTwoArg (number : Nat) : Prop where
  two : 2 ≤ number
  power : number.isPowerOfTwo
  fits : number < 2 ^ 32

/-- A text is read as a power of two exactly if it spells one of at least two that has
    thirty-two bits; one leading plus sign and leading zeros do not matter. -/
theorem parse_power_of_two_iff (value : String) (number : Nat) :
    parsePowerOfTwo value = .ok number ↔ Spells value number ∧ PowerOfTwoArg number := by
  unfold parsePowerOfTwo
  have parses := parse_u32_iff value
  split
  · rename_i error failed
    simp only [reduceCtorEq, false_iff]
    rintro ⟨spelled, arg⟩
    have read := (parses number).mpr ⟨spelled, arg.fits⟩
    rw [failed] at read
    cases read
  · rename_i parsed read
    obtain ⟨spelled, fits⟩ := (parses parsed).mp read
    constructor
    · intro accepted
      split at accepted
      · cases accepted
      · rename_i kept
        cases accepted
        rw [not_or, not_not] at kept
        exact ⟨spelled, Nat.le_of_not_lt kept.1, kept.2, fits⟩
    · rintro ⟨other, arg⟩
      have again := (parses number).mpr ⟨other, arg.fits⟩
      rw [read] at again
      cases again
      rw [if_neg (by rw [not_or, not_not]; exact ⟨Nat.not_lt.mpr arg.two, arg.power⟩)]

/-- What is printed is read again. -/
theorem parse_power_of_two_to_string (number : Nat) (arg : PowerOfTwoArg number) :
    parsePowerOfTwo (toString number) = .ok number := by
  rw [parse_power_of_two_iff]
  refine ⟨⟨Nat.toDigits 10 number, Nat.toDigits_ne_nil, Or.inl ?_, ?_, ?_⟩, arg⟩
  · rw [Nat.toString_eq_repr, Nat.toList_repr]
  · intro digit member
    exact Nat.isDigit_of_mem_toDigits (by decide) (by decide) member
  · exact Nat.ofDigitChars_ten_toDigits

/-! ## Arguments -/

/-- The backends that can be asked for. -/
inductive Backend
  | auto
  | metal
  | cpu
  | wgpu
deriving DecidableEq, Repr

/-- The arguments of a solver, within the limits of the parser. Nothing relates them to each
    other: that a backend takes the edge bits is decided later. -/
structure SolverArgs where
  backend : Backend
  edgeBits : Nat
  cycleLength : Nat
  rounds : Nat
  trimming : TrimmingMode
  sleanParts : Nat
  localRamKib : Nat
  edgeBits_range : 1 ≤ edgeBits ∧ edgeBits ≤ 32
  rounds_range : 1 ≤ rounds ∧ rounds < 2 ^ 32
  sleanParts_arg : PowerOfTwoArg sleanParts
  localRamKib_arg : PowerOfTwoArg localRamKib

/-- A small power of two may be given. -/
theorem power_of_two_arg (power : Nat) (range : 1 ≤ power ∧ power < 32) : PowerOfTwoArg (2 ^ power) :=
  { two := Nat.le_self_pow (Nat.ne_of_gt range.1) 2
    power := ⟨power, rfl⟩
    fits := Nat.pow_lt_pow_right (Nat.lt_succ_self 1) range.2 }

/-- The defaults are within the limits. -/
theorem default_ranges : (1 ≤ 32 ∧ 32 ≤ 32) ∧ (1 ≤ 128 ∧ 128 < 2 ^ 32) := by decide

/-- The arguments that are not given. -/
def SolverArgs.default : SolverArgs where
  backend := .auto
  edgeBits := 32
  cycleLength := 42
  rounds := 128
  trimming := .auto
  sleanParts := 2 ^ 2
  localRamKib := 2 ^ 5
  edgeBits_range := default_ranges.1
  rounds_range := default_ranges.2
  sleanParts_arg := power_of_two_arg 2 ⟨Nat.le_succ 1, Nat.le_add_left 3 29⟩
  localRamKib_arg := power_of_two_arg 5 ⟨Nat.le_add_left 1 4, Nat.le_add_left 6 26⟩

/-- The arguments of a gate. -/
structure GateArgs where
  solver : SolverArgs
  prePow : String
  nonceStart : BitVec 64
  count : BitVec 64

/-- The settings of a GPU solver. -/
def SolverArgs.gpuConfig (args : SolverArgs) : GpuWgpuConfig :=
  ⟨args.trimming, args.sleanParts, args.localRamKib⟩

/-- The settings pass the check of the solver. -/
theorem gpu_config_accepted (args : SolverArgs) :
    newWithConfig args.gpuConfig = .ok args.gpuConfig :=
  (new_with_config_iff args.gpuConfig).mpr ⟨⟨args.sleanParts_arg.two, args.sleanParts_arg.power⟩,
    args.localRamKib_arg.two, args.localRamKib_arg.power⟩

/-- The command line accepts a text for the parts and one for the kibibytes exactly where the
    solver accepts the numbers that they spell: all settings of the solver within thirty-two bits
    can be given, and no others. -/
theorem settings_parse_iff (trimming : TrimmingMode) (parts kib : Nat) :
    (newWithConfig ⟨trimming, parts, kib⟩ = .ok ⟨trimming, parts, kib⟩ ∧
        parts < 2 ^ 32 ∧ kib < 2 ^ 32) ↔
      ∃ partsText kibText, (Spells partsText parts ∧ Spells kibText kib) ∧
        parsePowerOfTwo partsText = .ok parts ∧ parsePowerOfTwo kibText = .ok kib := by
  constructor
  · rintro ⟨accepted, partsFit, kibFit⟩
    obtain ⟨⟨partsTwo, partsPower⟩, kibTwo, kibPower⟩ := (new_with_config_iff _).mp accepted
    have partsParse := parse_power_of_two_to_string parts ⟨partsTwo, partsPower, partsFit⟩
    have kibParse := parse_power_of_two_to_string kib ⟨kibTwo, kibPower, kibFit⟩
    exact ⟨toString parts, toString kib, ⟨((parse_power_of_two_iff _ _).mp partsParse).1,
      ((parse_power_of_two_iff _ _).mp kibParse).1⟩, partsParse, kibParse⟩
  · rintro ⟨partsText, kibText, _, partsParse, kibParse⟩
    have partsArg := ((parse_power_of_two_iff _ _).mp partsParse).2
    have kibArg := ((parse_power_of_two_iff _ _).mp kibParse).2
    exact ⟨(new_with_config_iff _).mpr ⟨⟨partsArg.two, partsArg.power⟩, kibArg.two, kibArg.power⟩,
      partsArg.fits, kibArg.fits⟩

/-! ## The choice of a solver -/

/-- The text of an error. -/
def errorText : SolveError → String
  | .invalidConfig reason => "invalid configuration: " ++ reason
  | .unsupported reason => "backend cannot solve this request: " ++ reason
  | .gpu reason => "GPU error: " ++ reason
  | .searchLimit reason => "exact cycle search exceeded its resource limit: " ++ reason

/-- What the machine offers: whether the program is built for Metal, what making a Metal context
    comes to, what asking for an adapter comes to, and how much memory is available. -/
structure Platform where
  native : Bool
  metalContext : Except SolveError Unit
  adapter : Except SolveError (Limits × Adapter)
  availableMemory : Option Nat

/-- A solver that was chosen. -/
inductive Chosen
  | metal (solver : GpuMetalSolver)
  | wgpu (solver : GpuWgpuSolver) (adapter : Adapter)
  | cpu (solver : CpuLeanSolver)

namespace Chosen

/-- The chosen solver as its callers know it. -/
def honest (blake2b : List UInt8 → Digest) : Chosen → HonestSolver blake2b
  | .metal solver => .metal blake2b solver
  | .wgpu solver adapter => .wgpu blake2b solver adapter
  | .cpu solver => .cpu blake2b solver

/-- What the chosen solver can solve. -/
def capabilities : Chosen → BackendCapabilities
  | .metal _ => MetalSolve.capabilities
  | .wgpu _ _ => GpuVerdict.capabilities
  | .cpu solver => solver.capabilities

end Chosen

section

variable (platform : Platform)

/-- Make a Metal solver. -/
def newMetal (config : GpuWgpuConfig) : Except SolveError GpuMetalSolver :=
  if ¬ platform.native then
    .error (.unsupported
      "the Metal backend is available only on macOS; use --backend auto or wgpu")
  else if config.trimming = .lean then
    .error (.unsupported
      "native Metal supports slean trimming; use --backend wgpu for lean")
  else do
    platform.metalContext
    return ⟨config⟩

/-- Make a wgpu solver. -/
def newWgpu (config : GpuWgpuConfig) : Except SolveError Chosen := do
  let config ← newWithConfig config
  let (limits, adapter) ← platform.adapter
  return .wgpu ⟨limits, config, platform.availableMemory, false⟩ adapter

/-- The Metal solver that is preferred where there is one and it takes the graph. -/
def preferredMetal (args : SolverArgs) : Option GpuMetalSolver :=
  if platform.native ∧ args.edgeBits ≥ 18 ∧ args.trimming ≠ .lean then
    (newMetal platform args.gpuConfig).toOption
  else none

/-- Choose a solver. What the machine offers is given by the platform, and what is printed about
    a fallback is left out. -/
def makeSolver (args : SolverArgs) : Except String Chosen :=
  match args.backend with
  | .auto =>
      match preferredMetal platform args with
      | some solver => .ok (.metal solver)
      | none =>
          match newWgpu platform args.gpuConfig with
          | .ok solver => .ok solver
          | .error error =>
              let cpu := CpuLeanSolver.default
              if args.edgeBits ≤ cpu.capabilities.maxEdgeBits then .ok (.cpu cpu)
              else .error ("GPU unavailable (" ++ errorText error ++ "); CPU supports at most C" ++
                toString cpu.capabilities.maxEdgeBits)
  | .metal => ((newMetal platform args.gpuConfig).mapError errorText).map .metal
  | .cpu => .ok (.cpu .default)
  | .wgpu => (newWgpu platform args.gpuConfig).mapError errorText

end

variable {platform : Platform} {args : SolverArgs} {chosen : Chosen}

/-- A wgpu solver is made exactly if there is an adapter: the settings are never refused. -/
theorem new_wgpu_spec (platform : Platform) (args : SolverArgs) :
    newWgpu platform args.gpuConfig = platform.adapter.map fun (limits, adapter) =>
      .wgpu ⟨limits, args.gpuConfig, platform.availableMemory, false⟩ adapter := by
  simp only [newWgpu, gpu_config_accepted]
  cases platform.adapter <;> rfl

/-- A preferred Metal solver takes graphs of at least eighteen bits. -/
theorem preferred_metal_supports {solver : GpuMetalSolver}
    (preferred : preferredMetal platform args = some solver) : 18 ≤ args.edgeBits := by
  unfold preferredMetal at preferred
  split at preferred
  · rename_i wanted
    exact wanted.2.1
  · cases preferred

/-- A solver that was chosen automatically takes the graph. -/
theorem auto_supports (automatic : args.backend = .auto)
    (made : makeSolver platform args = .ok chosen) :
    chosen.capabilities.minEdgeBits ≤ args.edgeBits ∧
      args.edgeBits ≤ chosen.capabilities.maxEdgeBits := by
  simp only [makeSolver, automatic] at made
  split at made
  · rename_i solver preferred
    cases made
    exact ⟨preferred_metal_supports preferred, args.edgeBits_range.2⟩
  · rw [new_wgpu_spec] at made
    split at made
    · rename_i solver found
      cases made
      cases adapter : platform.adapter with
      | error error =>
        rw [adapter] at found
        cases found
      | ok pair =>
        rw [adapter] at found
        cases found
        exact args.edgeBits_range
    · split at made
      · rename_i small
        cases made
        exact ⟨args.edgeBits_range.1, small⟩
      · cases made

/-- A solver that was chosen automatically takes every request for the given graph and rounds
    that has a header and an even cycle length up to sixty-four, forty-two where it is live
    work: it never refuses one for its size. That the chosen backend then succeeds is not
    claimed. -/
theorem auto_requests_valid_iff (platform : Platform) (args : SolverArgs) (chosen : Chosen)
    (request : SolveRequest) (automatic : args.backend = .auto)
    (made : makeSolver platform args = .ok chosen) (edgeBits : request.edgeBits = args.edgeBits)
    (rounds : request.rounds = args.rounds) :
    validateRequest request chosen.capabilities = .ok () ↔
      request.prePow ≠ [] ∧
      (2 ≤ request.cycleLength ∧ request.cycleLength % 2 = 0 ∧ request.cycleLength ≤ 64) ∧
      (request.liveWork = true → request.cycleLength = 42) := by
  have cycles : chosen.capabilities.cycleLength = 42 := by cases chosen <;> exact Eq.refl 42
  have supported := auto_supports automatic made
  rw [validate_request_iff]
  constructor
  · intro valid
    exact ⟨valid.header, valid.cycleLength, fun live => (valid.live live).trans cycles⟩
  · rintro ⟨header, length, live⟩
    exact
      { header := header
        edgeBits := edgeBits ▸ args.edgeBits_range
        supported := edgeBits ▸ supported
        cycleLength := length
        live := fun isLive => (live isLive).trans cycles.symm
        rounds := rounds ▸ args.rounds_range.1 }

/-- A machine that offers no GPU. -/
def noGpu : Platform := ⟨false, .error (.gpu "Metal returned no default device"),
  .error (.gpu "requesting adapter: none"), none⟩

/-- Twenty-eight edge bits are within the limits. -/
theorem widest_cpu_range : 1 ≤ 28 ∧ 28 ≤ 32 := by decide

/-- The default arguments with the largest graph that the processor takes. -/
def cpuArgs : SolverArgs :=
  { SolverArgs.default with edgeBits := 28, edgeBits_range := widest_cpu_range }

/-- A live request for this graph is taken where there is no GPU. -/
theorem cpu_args_requests_valid :
    validateRequest ⟨[1], 0, true, 28, 42, 128⟩ CpuLeanSolver.default.capabilities = .ok () ↔
      [1] ≠ ([] : List UInt8) ∧ (2 ≤ 42 ∧ 42 % 2 = 0 ∧ 42 ≤ 64) ∧ (true = true → 42 = 42) :=
  auto_requests_valid_iff noGpu cpuArgs (.cpu .default) ⟨[1], 0, true, 28, 42, 128⟩ rfl rfl rfl rfl

/-- Without a GPU the solver for at most twenty-eight edge bits is the processor. -/
theorem falls_back {platform : Platform} {solver : SolverArgs} (automatic : solver.backend = .auto)
    (noMetal : platform.native = false ∨ ∃ error, platform.metalContext = .error error)
    (noAdapter : ∃ error, platform.adapter = .error error) (small : solver.edgeBits ≤ 28) :
    makeSolver platform solver = .ok (.cpu .default) := by
  have without_metal : preferredMetal platform solver = none := by
    unfold preferredMetal newMetal
    rcases noMetal with absent | ⟨error, failed⟩
    · simp [absent]
    · split
      · rename_i wanted
        have kept : solver.gpuConfig.trimming ≠ .lean := wanted.2.2
        rw [if_neg (not_not.mpr wanted.1), if_neg kept, failed]
        exact Eq.refl none
      · exact Eq.refl none
  obtain ⟨error, absent⟩ := noAdapter
  simp only [makeSolver, automatic, without_metal, new_wgpu_spec, absent]
  exact if_pos small

end CuckatooMiner.Cli
