import Mathlib
import CuckatooMiner.Cli
import CuckatooMiner.JobValidation

/-!
# The gate

The gate solves one header for a range of nonces, verifies every proof again and prints what it
found; for the acceptance range of thirty-two edge bits it expects two nonces. The cancel flag
of its solves is never raised.

With an honest solver the list that the gate prints at its end is exact: it has the nonces of
the range whose graph has a cycle, in order, except for those reported as inconclusive. So two
backends that report no nonce as inconclusive print the same list.
-/

namespace CuckatooMiner.Gate

open Cli Solver Verdict Verify

/-- A solver that runs: it answers one request after another. Its flag is not raised. Nothing is
    assumed of how it comes to its answers, nor that they are right. -/
structure Machine where
  State : Type
  start : State
  solve : State → SolveRequest → Except SolveError SolveOutcome × State

/-- A machine answers as a solver may, under a flag that is never raised. -/
def Machine.Embodies (machine : Machine) {blake2b : List UInt8 → Digest}
    (solver : HonestSolver blake2b) : Prop :=
  ∀ state request outcome, (machine.solve state request).1 = .ok outcome →
    solver.Answers request (fun _ => false) outcome

/-- A printed line. -/
inductive Line
  | powOk (nonce : BitVec 64) (nonces : List Nat)
  | inconclusive (nonce : BitVec 64) (reason : String)
  | complete (found : List (BitVec 64))
deriving DecidableEq, Repr

/-- The text of a line. -/
def Line.text : Line → String
  | .powOk nonce nonces => "nonce " ++ toString nonce.toNat ++ ": POW_OK " ++ toString nonces
  | .inconclusive nonce reason =>
      "nonce " ++ toString nonce.toNat ++ ": INCONCLUSIVE " ++ reason
  | .complete found =>
      "gate complete: " ++ toString found.length ++ " cycle(s), nonces=" ++
        toString (found.map BitVec.toNat)

/-- Why a gate fails. -/
inductive Failure
  | invalidHex
  | emptyHeader
  | noSolver (reason : String)
  | rangeOverflow
  | solver (error : SolveError)
  | invalidProof (error : VerifyError)
  | cancelled
  | acceptance
deriving DecidableEq, Repr

/-- The text of a failure. -/
def Failure.text : Failure → String
  | .invalidHex => "invalid --pre-pow hex"
  | .emptyHeader => "--pre-pow must not be empty"
  | .noSolver reason => reason
  | .rangeOverflow => "--nonce-start + --count overflows u64"
  | .solver error => errorText error
  | .invalidProof _ => "gate backend returned invalid proof"
  | .cancelled => "offline gate was unexpectedly cancelled"
  | .acceptance => "C32 acceptance gate failed: expected nonces [45, 74]"

/-- The printed lines and the nonces found so far. -/
structure Report where
  lines : List Line
  found : List (BitVec 64)
deriving DecidableEq, Repr

namespace Report

/-- Nothing was printed yet. -/
def empty : Report := ⟨[], []⟩

/-- Print a line. -/
def println (report : Report) (line : Line) : Report :=
  { report with lines := report.lines ++ [line] }

/-- Remember a nonce. -/
def push (report : Report) (nonce : BitVec 64) : Report :=
  { report with found := report.found ++ [nonce] }

end Report

section

variable (blake2b : List UInt8 → Digest) (args : GateArgs) (prePow : List UInt8)

/-- The request for a nonce. -/
def requestAt (nonce : BitVec 64) : SolveRequest :=
  ⟨prePow, nonce, false, args.solver.edgeBits, args.solver.cycleLength, args.solver.rounds⟩

/-- Solve for one nonce after another. -/
def tryNonces (machine : Machine) (state : machine.State) (report : Report) :
    List (BitVec 64) → Report × Except Failure Unit
  | [] => (report, .ok ())
  | nonce :: rest =>
      let request := requestAt args prePow nonce
      let keys := request.sipKeys blake2b
      match machine.solve state request with
      | (.error error, _) => (report, .error (.solver error))
      | (.ok (.proof proof), next) =>
          match verifyCycle keys args.solver.edgeBits args.solver.cycleLength proof with
          | .error error => (report, .error (.invalidProof error))
          | .ok () =>
              tryNonces machine next ((report.println (.powOk nonce proof.nonces)).push nonce) rest
      | (.ok .noCycle, next) => tryNonces machine next report rest
      | (.ok .cancelled, _) => (report, .error .cancelled)
      | (.ok (.inconclusive reason), next) =>
          tryNonces machine next (report.println (.inconclusive nonce reason)) rest

/-- The nonces of the range. -/
def nonceRange : List (BitVec 64) :=
  (List.range' args.nonceStart.toNat args.count.toNat).map (BitVec.ofNat 64)

/-- Texts are equal up to the case of the letters. -/
def eqIgnoreAsciiCase (left right : String) : Bool :=
  left.toList.map Char.toLower == right.toList.map Char.toLower

/-- Whether the range is that of the acceptance gate. -/
def isAcceptance : Bool :=
  args.solver.edgeBits == 32 && eqIgnoreAsciiCase args.prePow "00" && args.nonceStart == 0 &&
    args.count == 100

/-- The nonces that the acceptance gate has to find. -/
def acceptanceNonces : List (BitVec 64) := [45, 74]

/-- Run a gate. The machine that is run is given for each solver that may be chosen. What the
    program prints to the error stream is left out. -/
def gate (platform : Platform) (decodeHex : String → Option (List UInt8))
    (machine : Chosen → Machine) : Report × Except Failure Unit :=
  match decodeHex args.prePow with
  | none => (.empty, .error .invalidHex)
  | some prePow =>
      if prePow.isEmpty then (.empty, .error .emptyHeader)
      else
        match makeSolver platform args.solver with
        | .error reason => (.empty, .error (.noSolver reason))
        | .ok chosen =>
            if 2 ^ 64 ≤ args.nonceStart.toNat + args.count.toNat then
              (.empty, .error .rangeOverflow)
            else
              match tryNonces blake2b args prePow (machine chosen) (machine chosen).start .empty
                  (nonceRange args) with
              | (report, .error failure) => (report, .error failure)
              | (report, .ok ()) =>
                  let report := report.println (.complete report.found)
                  if isAcceptance args ∧ report.found ≠ acceptanceNonces then
                    (report, .error .acceptance)
                  else (report, .ok ())

end

/-! ## What a gate reports -/

section

variable (blake2b : List UInt8 → Digest) (args : GateArgs) (prePow : List UInt8)

/-- A list of edges is a cycle of the graph of a nonce. -/
def IsCycle (nonce : BitVec 64) (proof : Proof) : Prop :=
  verifyCycle (deriveKeys blake2b prePow nonce) args.solver.edgeBits args.solver.cycleLength proof =
    .ok ()

/-- What holds of a report after some nonces: those found are among them in their order, each has
    a line with a cycle, and any other is reported as inconclusive or has no cycle. -/
structure Reported (done : List (BitVec 64)) (report : Report) : Prop where
  sublist : report.found.Sublist done
  lines : ∀ nonce, nonce ∈ report.found ↔ ∃ pow, Line.powOk nonce pow ∈ report.lines
  cycles : ∀ nonce pow, Line.powOk nonce pow ∈ report.lines → IsCycle blake2b args prePow nonce ⟨pow⟩
  judged : ∀ nonce ∈ done, nonce ∈ report.found ∨
    (∃ reason, Line.inconclusive nonce reason ∈ report.lines) ∨
    ∀ proof, ¬ IsCycle blake2b args prePow nonce proof

end

variable {blake2b : List UInt8 → Digest} {args : GateArgs} {prePow : List UInt8}
  {done : List (BitVec 64)} {report : Report}

/-- At first there is nothing to report. -/
theorem reported_nil : Reported blake2b args prePow [] .empty where
  sublist := List.Sublist.refl []
  lines nonce := by simp [Report.empty]
  cycles nonce pow member := by simp [Report.empty] at member
  judged nonce member := by simp at member

/-- A nonce without a cycle needs no line. -/
theorem Reported.fruitless (reported : Reported blake2b args prePow done report) (nonce : BitVec 64)
    (none_found : ∀ proof, ¬ IsCycle blake2b args prePow nonce proof) :
    Reported blake2b args prePow (done ++ [nonce]) report where
  sublist := reported.sublist.trans (List.sublist_append_left done [nonce])
  lines := reported.lines
  cycles := reported.cycles
  judged other member := by
    rcases List.mem_append.mp member with before | same
    · exact reported.judged other before
    · rw [List.mem_singleton.mp same]
      exact Or.inr (Or.inr none_found)

/-- A nonce without a verdict has a line that says so. -/
theorem Reported.undecided (reported : Reported blake2b args prePow done report) (nonce : BitVec 64)
    (reason : String) :
    Reported blake2b args prePow (done ++ [nonce]) (report.println (.inconclusive nonce reason)) where
  sublist := reported.sublist.trans (List.sublist_append_left done [nonce])
  lines other := by simpa [Report.println] using reported.lines other
  cycles other pow member := reported.cycles other pow (by simpa [Report.println] using member)
  judged other member := by
    rcases List.mem_append.mp member with before | same
    · rcases reported.judged other before with found | ⟨text, printed⟩ | without
      · exact Or.inl found
      · exact Or.inr (Or.inl ⟨text, List.mem_append_left _ printed⟩)
      · exact Or.inr (Or.inr without)
    · rw [List.mem_singleton.mp same]
      exact Or.inr (Or.inl ⟨reason, List.mem_append_right _ List.mem_cons_self⟩)

/-- A nonce with a cycle has a line that shows it. -/
theorem Reported.proved (reported : Reported blake2b args prePow done report) (nonce : BitVec 64)
    (proof : Proof) (cycle : IsCycle blake2b args prePow nonce proof) :
    Reported blake2b args prePow (done ++ [nonce])
      ((report.println (.powOk nonce proof.nonces)).push nonce) where
  sublist := reported.sublist.append (List.Sublist.refl [nonce])
  lines other := by
    simp only [Report.push, Report.println, List.mem_append, List.mem_singleton, Line.powOk.injEq]
    rw [reported.lines other]
    constructor
    · rintro (⟨pow, printed⟩ | same)
      · exact ⟨pow, Or.inl printed⟩
      · exact ⟨proof.nonces, Or.inr ⟨same, rfl⟩⟩
    · rintro ⟨pow, printed | ⟨same, _⟩⟩
      · exact Or.inl ⟨pow, printed⟩
      · exact Or.inr same
  cycles other pow member := by
    simp only [Report.push, Report.println, List.mem_append, List.mem_singleton,
      Line.powOk.injEq] at member
    rcases member with printed | ⟨rfl, rfl⟩
    · exact reported.cycles other pow printed
    · exact cycle
  judged other member := by
    rcases List.mem_append.mp member with before | same
    · rcases reported.judged other before with found | ⟨text, printed⟩ | without
      · exact Or.inl (List.mem_append_left _ found)
      · exact Or.inr (Or.inl ⟨text, List.mem_append_left _ printed⟩)
      · exact Or.inr (Or.inr without)
    · rw [List.mem_singleton.mp same]
      exact Or.inl (List.mem_append_right _ List.mem_cons_self)

/-- What trying some nonces comes to: a report of those that were reached, which are all unless
    the solver has failed. -/
structure Tried (blake2b : List UInt8 → Digest) (args : GateArgs) (prePow : List UInt8)
    (machine : Machine) (done nonces : List (BitVec 64)) (result : Report × Except Failure Unit) :
    Prop where
  reported : ∃ reached, reached <+: nonces ∧
    Reported blake2b args prePow (done ++ reached) result.1 ∧ (result.2 = .ok () → reached = nonces)
  failed : ∀ failure, result.2 = .error failure → ∃ error, failure = .solver error ∧
    ∃ state, ∃ nonce ∈ nonces, (machine.solve state (requestAt args prePow nonce)).1 = .error error

/-- What was tried after a first nonce was tried after it. -/
theorem Tried.cons {machine : Machine} {nonce : BitVec 64} {rest : List (BitVec 64)}
    {result : Report × Except Failure Unit}
    (tried : Tried blake2b args prePow machine (done ++ [nonce]) rest result) :
    Tried blake2b args prePow machine done (nonce :: rest) result where
  reported := by
    obtain ⟨reached, initial, reported, all⟩ := tried.reported
    refine ⟨nonce :: reached, List.cons_prefix_cons.mpr ⟨rfl, initial⟩, by simpa using reported, ?_⟩
    intro ended
    rw [all ended]
  failed failure ended := by
    obtain ⟨error, same, state, other, member, raised⟩ := tried.failed failure ended
    exact ⟨error, same, state, other, List.mem_cons_of_mem _ member, raised⟩

/-- With an honest solver the nonces are reported one after another. -/
theorem try_nonces_spec {solver : HonestSolver blake2b} {machine : Machine}
    (embodies : machine.Embodies solver) (nonces : List (BitVec 64)) (state : machine.State)
    (reported : Reported blake2b args prePow done report) :
    Tried blake2b args prePow machine done nonces
      (tryNonces blake2b args prePow machine state report nonces) := by
  induction nonces generalizing state report done with
  | nil =>
    rw [tryNonces]
    refine ⟨⟨[], List.prefix_rfl, by simpa using reported, fun _ => rfl⟩, fun failure ended => ?_⟩
    cases ended
  | cons nonce rest inductionHypothesis =>
    rw [tryNonces]
    have honest := fun outcome solved =>
      solver.honest _ _ _ (embodies state (requestAt args prePow nonce) outcome solved)
    cases solved : machine.solve state (requestAt args prePow nonce) with
    | mk result next =>
      rw [solved] at honest
      cases result with
      | error error =>
        refine ⟨⟨[], List.nil_prefix, by simpa using reported, fun ended => by cases ended⟩, ?_⟩
        intro failure ended
        cases ended
        exact ⟨error, rfl, state, nonce, List.mem_cons_self, by rw [solved]⟩
      | ok outcome =>
        have verdict := honest outcome rfl
        cases outcome with
        | proof proof =>
          have accepted : verifyCycle ((requestAt args prePow nonce).sipKeys blake2b)
              args.solver.edgeBits args.solver.cycleLength proof = .ok () := verdict
          simp only [accepted]
          exact (inductionHypothesis next (reported.proved nonce proof accepted)).cons
        | noCycle => exact (inductionHypothesis next (reported.fruitless nonce verdict)).cons
        | cancelled =>
          obtain ⟨_, _, raised⟩ := verdict
          cases raised
        | inconclusive reason =>
          exact (inductionHypothesis next (reported.undecided nonce reason)).cons

/-! ## The end of a gate -/

/-- A nonce of the range. -/
def InRange (args : GateArgs) (nonce : BitVec 64) : Prop :=
  args.nonceStart.toNat ≤ nonce.toNat ∧ nonce.toNat < args.nonceStart.toNat + args.count.toNat

section

variable (fits : args.nonceStart.toNat + args.count.toNat < 2 ^ 64)

include fits

/-- The nonces of the range are counted up. -/
theorem nonce_range_to_nat :
    (nonceRange args).map BitVec.toNat = List.range' args.nonceStart.toNat args.count.toNat := by
  rw [nonceRange, List.map_map]
  refine (List.map_congr_left fun number member => ?_).trans (List.map_id _)
  have below := (List.mem_range'_1.mp member).2
  exact (BitVec.toNat_ofNat number 64).trans (Nat.mod_eq_of_lt (Nat.lt_trans below fits))

/-- They are the nonces of the range. -/
theorem mem_nonce_range (nonce : BitVec 64) : nonce ∈ nonceRange args ↔ InRange args nonce := by
  have listed := nonce_range_to_nat fits
  constructor
  · intro member
    have counted := List.mem_map_of_mem (f := BitVec.toNat) member
    rw [listed] at counted
    exact List.mem_range'_1.mp counted
  · intro inRange
    have counted : nonce.toNat ∈ (nonceRange args).map BitVec.toNat := by
      rw [listed]
      exact List.mem_range'_1.mpr inRange
    obtain ⟨other, member, same⟩ := List.mem_map.mp counted
    rwa [← BitVec.eq_of_toNat_eq same]

/-- What is found among them is found in ascending order. -/
theorem ascending_of_sublist {found : List (BitVec 64)} (sublist : found.Sublist (nonceRange args)) :
    (found.map BitVec.toNat).Pairwise (· < ·) := by
  have ordered := List.pairwise_lt_range' (s := args.nonceStart.toNat) (n := args.count.toNat)
  rw [← nonce_range_to_nat fits] at ordered
  exact ordered.sublist (sublist.map BitVec.toNat)

end

/-- The last line changes nothing of what was reported. -/
theorem Reported.completed (reported : Reported blake2b args prePow done report)
    (found : List (BitVec 64)) :
    Reported blake2b args prePow done (report.println (.complete found)) where
  sublist := reported.sublist
  lines nonce := by simpa [Report.println] using reported.lines nonce
  cycles nonce pow member := reported.cycles nonce pow (by simpa [Report.println] using member)
  judged nonce member := by
    rcases reported.judged nonce member with listed | ⟨reason, printed⟩ | without
    · exact Or.inl listed
    · exact Or.inr (Or.inl ⟨reason, List.mem_append_left _ printed⟩)
    · exact Or.inr (Or.inr without)

/-- What a gate has printed at its end: the nonces found, in ascending order, each of them a nonce
    of the range with a cycle that was printed; any other nonce of the range is reported as
    inconclusive or has no cycle. -/
structure Finished (blake2b : List UInt8 → Digest) (args : GateArgs) (prePow : List UInt8)
    (report : Report) : Prop where
  fits : args.nonceStart.toNat + args.count.toNat < 2 ^ 64
  last : report.lines.getLast? = some (.complete report.found)
  ascending : (report.found.map BitVec.toNat).Pairwise (· < ·)
  verified : ∀ nonce ∈ report.found, InRange args nonce ∧
    ∃ pow, Line.powOk nonce pow ∈ report.lines ∧ IsCycle blake2b args prePow nonce ⟨pow⟩
  judged : ∀ nonce, InRange args nonce → nonce ∈ report.found ∨
    (∃ reason, Line.inconclusive nonce reason ∈ report.lines) ∨
    ∀ proof, ¬ IsCycle blake2b args prePow nonce proof

/-- A report of the whole range is finished by its last line. -/
theorem finished_of_reported (fits : args.nonceStart.toNat + args.count.toNat < 2 ^ 64)
    (reported : Reported blake2b args prePow (nonceRange args) report) :
    Finished blake2b args prePow (report.println (.complete report.found)) where
  fits := fits
  last := List.getLast?_concat
  ascending := ascending_of_sublist fits reported.sublist
  verified nonce member := by
    have completed := reported.completed report.found
    obtain ⟨pow, printed⟩ := (completed.lines nonce).mp member
    exact ⟨(mem_nonce_range fits nonce).mp (reported.sublist.subset member), pow, printed,
      completed.cycles nonce pow printed⟩
  judged nonce inRange :=
    (reported.completed report.found).judged nonce ((mem_nonce_range fits nonce).mpr inRange)

/-- How a gate may fail: by its arguments, for want of a solver, with an error of the solver, or
    since the acceptance nonces were not found. The solver is never found to be wrong. -/
def Fails (platform : Platform) (decodeHex : String → Option (List UInt8))
    (machine : Chosen → Machine) (args : GateArgs) (found : List (BitVec 64)) : Failure → Prop
  | .invalidHex => decodeHex args.prePow = none
  | .emptyHeader => decodeHex args.prePow = some []
  | .noSolver reason => makeSolver platform args.solver = .error reason
  | .rangeOverflow => 2 ^ 64 ≤ args.nonceStart.toNat + args.count.toNat
  | .solver error => ∃ chosen prePow, makeSolver platform args.solver = .ok chosen ∧
      decodeHex args.prePow = some prePow ∧ prePow ≠ [] ∧ ∃ state nonce, InRange args nonce ∧
      ((machine chosen).solve state (requestAt args prePow nonce)).1 = .error error
  | .invalidProof _ | .cancelled => False
  | .acceptance => isAcceptance args = true ∧ found ≠ acceptanceNonces

/-- Every printed cycle is one of a nonce of the range. -/
def CyclesVerify (blake2b : List UInt8 → Digest) (args : GateArgs) (prePow : List UInt8)
    (report : Report) : Prop :=
  ∀ nonce pow, Line.powOk nonce pow ∈ report.lines →
    InRange args nonce ∧ IsCycle blake2b args prePow nonce ⟨pow⟩

/-- What was reported of nonces of the range verifies. -/
theorem cycles_verify (fits : args.nonceStart.toNat + args.count.toNat < 2 ^ 64)
    (reported : Reported blake2b args prePow done report) (among : done ⊆ nonceRange args) :
    CyclesVerify blake2b args prePow report := by
  intro nonce pow printed
  have found := (reported.lines nonce).mpr ⟨pow, printed⟩
  exact ⟨(mem_nonce_range fits nonce).mp (among (reported.sublist.subset found)),
    reported.cycles nonce pow printed⟩

section

variable {platform : Platform} {decodeHex : String → Option (List UInt8)}
  {machine : Chosen → Machine}

/-- A gate with an honest solver fails before its first nonce, fails with its solver, or comes to
    its end. -/
theorem gate_cases (embodies : ∀ chosen, makeSolver platform args.solver = .ok chosen →
    (machine chosen).Embodies (chosen.honest blake2b)) :
    (∃ failure, gate blake2b args platform decodeHex machine = (.empty, .error failure) ∧
      failure ≠ .acceptance ∧ Fails platform decodeHex machine args [] failure) ∨
    ∃ prePow report result, gate blake2b args platform decodeHex machine = (report, result) ∧
      decodeHex args.prePow = some prePow ∧ CyclesVerify blake2b args prePow report ∧
      ((∃ error, result = .error (.solver error) ∧
          Fails platform decodeHex machine args report.found (.solver error)) ∨
        Finished blake2b args prePow report ∧
          result = if isAcceptance args = true ∧ report.found ≠ acceptanceNonces then
            .error .acceptance else .ok ()) := by
  rw [gate]
  split
  · rename_i undecoded
    exact Or.inl ⟨_, rfl, by decide, undecoded⟩
  rename_i prePow decoded
  split
  · rename_i empty
    exact Or.inl ⟨_, rfl, by decide, by rw [Fails, decoded, List.isEmpty_iff.mp empty]⟩
  rename_i filled
  split
  · rename_i reason unmade
    refine Or.inl ⟨_, rfl, fun same => ?_, unmade⟩
    cases same
  rename_i chosen made
  split
  · rename_i overflows
    exact Or.inl ⟨_, rfl, by decide, overflows⟩
  rename_i covers
  have fits := Nat.lt_of_not_le covers
  have tried := @try_nonces_spec blake2b args prePow [] .empty _ _ (embodies chosen made)
    (nonceRange args) (machine chosen).start reported_nil
  obtain ⟨reached, initial, reported, all⟩ := tried.reported
  have failed := tried.failed
  refine Or.inr ⟨prePow, ?_⟩
  split
  · rename_i report failure ended
    rw [ended] at reported failed
    obtain ⟨error, same, state, nonce, member, raised⟩ := failed failure rfl
    subst same
    have header : prePow ≠ [] := fun empty => filled (List.isEmpty_iff.mpr empty)
    exact ⟨_, _, rfl, decoded, cycles_verify fits reported initial.subset,
      Or.inl ⟨error, rfl, chosen, prePow, made, decoded, header, state, nonce,
        (mem_nonce_range fits nonce).mp member, raised⟩⟩
  · rename_i report ended
    rw [ended] at reported all
    rw [all rfl] at reported
    refine ⟨report.println (.complete report.found), _, ?_, decoded,
      cycles_verify fits (reported.completed _) (List.Subset.refl _),
      Or.inr ⟨finished_of_reported fits reported, rfl⟩⟩
    exact (apply_ite (Prod.mk (report.println (.complete report.found))) _ _ _).symm

/-- What a gate comes to. A gate that fails in its middle promises nothing of the nonces that it
    did not reach. -/
structure Exact (blake2b : List UInt8 → Digest) (platform : Platform)
    (decodeHex : String → Option (List UInt8)) (machine : Chosen → Machine) (args : GateArgs)
    (result : Report × Except Failure Unit) : Prop where
  cycles : ∀ nonce pow, Line.powOk nonce pow ∈ result.1.lines →
    ∃ prePow, decodeHex args.prePow = some prePow ∧ InRange args nonce ∧
      IsCycle blake2b args prePow nonce ⟨pow⟩
  finished : result.2 = .ok () ∨ result.2 = .error .acceptance →
    ∃ prePow, decodeHex args.prePow = some prePow ∧ Finished blake2b args prePow result.1
  accepted : isAcceptance args = true → result.2 = .ok () → result.1.found = acceptanceNonces
  failed : ∀ failure, result.2 = .error failure →
    Fails platform decodeHex machine args result.1.found failure

/-- With an honest solver a gate that comes to its end prints exactly the nonces of the range
    that have a cycle, in ascending order, except for those it has reported as inconclusive;
    every cycle that it prints verifies, also if it fails later; the acceptance gate ends well
    only with its two nonces; and it fails only for its arguments, for want of a solver, with an
    error of the solver or for the acceptance: the solver is never found wrong or cancelled.
    What an honest solver relies on is part of what it may answer; that it answers at all is not
    assumed. -/
theorem gate_exact (blake2b : List UInt8 → Digest) (platform : Platform)
    (decodeHex : String → Option (List UInt8)) (machine : Chosen → Machine) (args : GateArgs)
    (embodies : ∀ chosen, makeSolver platform args.solver = .ok chosen →
      (machine chosen).Embodies (chosen.honest blake2b)) :
    Exact blake2b platform decodeHex machine args
      (gate blake2b args platform decodeHex machine) := by
  have cases_of_gate := @gate_cases blake2b args platform decodeHex machine embodies
  rcases cases_of_gate with ⟨failure, same, early, fails⟩ |
    ⟨prePow, report, result, same, decoded, cycles, ⟨error, rfl, fails⟩ | ⟨finished, ended⟩⟩
  · rw [same]
    refine ⟨fun _ _ printed => ?_, fun ended => ?_, fun _ ended => ?_, fun other ended => ?_⟩
    · simp [Report.empty] at printed
    · rcases ended with ended | ended
      · cases ended
      · cases ended
        exact absurd rfl early
    · cases ended
    · cases ended
      exact fails
  · rw [same]
    refine ⟨fun nonce pow printed => ⟨prePow, decoded, cycles nonce pow printed⟩, fun ended => ?_,
      fun _ ended => ?_, fun other ended => ?_⟩
    · rcases ended with ended | ended <;> cases ended
    · cases ended
    · cases ended
      exact fails
  · rw [same]
    refine ⟨fun nonce pow printed => ⟨prePow, decoded, cycles nonce pow printed⟩,
      fun _ => ⟨prePow, decoded, finished⟩, fun acceptance accepted => ?_, fun failure failed => ?_⟩
    · by_contra missed
      rw [if_pos ⟨acceptance, missed⟩] at ended
      rw [ended] at accepted
      cases accepted
    · rw [ended] at failed
      split at failed
      · rename_i rejected
        cases failed
        exact rejected
      · cases failed

/-- A gate that ends well and leaves no nonce undecided finds exactly the nonces with a cycle. -/
theorem found_iff_cycle (embodies : ∀ chosen, makeSolver platform args.solver = .ok chosen →
      (machine chosen).Embodies (chosen.honest blake2b))
    (accepted : (gate blake2b args platform decodeHex machine).2 = .ok ())
    (decided : ∀ nonce reason, Line.inconclusive nonce reason ∉
      (gate blake2b args platform decodeHex machine).1.lines) :
    ∃ prePow, decodeHex args.prePow = some prePow ∧
      ((gate blake2b args platform decodeHex machine).1.found.map BitVec.toNat).Pairwise (· < ·) ∧
      ∀ nonce, nonce ∈ (gate blake2b args platform decodeHex machine).1.found ↔
        InRange args nonce ∧ ∃ proof, IsCycle blake2b args prePow nonce proof := by
  have cases_of_gate := @gate_cases blake2b args platform decodeHex machine embodies
  rcases cases_of_gate with ⟨failure, same, _, _⟩ |
    ⟨prePow, report, result, same, decoded, _, ⟨error, rfl, _⟩ | ⟨finished, _⟩⟩
  · rw [same] at accepted
    cases accepted
  · rw [same] at accepted
    cases accepted
  · rw [same] at decided ⊢
    refine ⟨prePow, decoded, finished.ascending, fun nonce => ⟨fun found => ?_, ?_⟩⟩
    · obtain ⟨inRange, pow, _, cycle⟩ := finished.verified nonce found
      exact ⟨inRange, ⟨pow⟩, cycle⟩
    · rintro ⟨inRange, proof, cycle⟩
      rcases finished.judged nonce inRange with found | ⟨reason, printed⟩ | without
      · exact found
      · exact absurd printed (decided nonce reason)
      · exact absurd cycle (without proof)

end

/-- The processor as a machine: a solve leaves no trace. -/
def cpuMachine (blake2b : List UInt8 → Digest) (solver : CpuLean.CpuLeanSolver) : Machine where
  State := Unit
  start := ()
  solve _ request := (solver.solve blake2b request fun _ => false, ())

/-- A machine without a working GPU. -/
def withoutGpu (blake2b : List UInt8 → Digest) : Chosen → Machine
  | .cpu solver => cpuMachine blake2b solver
  | _ => ⟨Unit, (), fun _ _ => (.error (.gpu "device lost"), ())⟩

/-- Whatever solver was chosen, it answers as that may. -/
theorem without_gpu_embodies (blake2b : List UInt8 → Digest) (chosen : Chosen) :
    (withoutGpu blake2b chosen).Embodies (chosen.honest blake2b) := by
  intro state request outcome solved
  cases chosen with
  | cpu solver => exact solved
  | metal solver => cases solved
  | wgpu solver adapter => cases solved

/-- A digest whose bytes are all seven more than the last byte of the text. -/
def lastByteDigest (bytes : List UInt8) : Digest := Vector.replicate 32 (7 + bytes.getLastD 0)

/-- Two edges make the smallest graph. -/
theorem two_edges : 1 ≤ 1 ∧ 1 ≤ 32 := by decide

/-- The nonces from five to eight of the smallest graph. -/
def smallGate (backend : Backend) (rounds : Nat) (range : 1 ≤ rounds ∧ rounds < 2 ^ 32) : GateArgs where
  solver := { SolverArgs.default with
    backend := backend
    edgeBits := 1
    cycleLength := 2
    rounds := rounds
    edgeBits_range := two_edges
    rounds_range := range }
  prePow := "00"
  nonceStart := 5
  count := 4

/-- The decoder of hexadecimal texts. -/
def decodeText (text : String) : Option (List UInt8) := JobValidation.decodeDigits text.toList

/-- On the processor the last of these nonces has a cycle. -/
theorem small_gate_exact :
    (gate lastByteDigest (smallGate .cpu 3 (by decide)) noGpu decodeText
      (withoutGpu lastByteDigest)).1.found = [8] ∧
    Exact lastByteDigest noGpu decodeText (withoutGpu lastByteDigest) (smallGate .cpu 3 (by decide))
      (gate lastByteDigest (smallGate .cpu 3 (by decide)) noGpu decodeText
        (withoutGpu lastByteDigest)) :=
  ⟨by decide +kernel, gate_exact lastByteDigest noGpu decodeText (withoutGpu lastByteDigest)
    (smallGate .cpu 3 (by decide)) fun chosen _ => without_gpu_embodies lastByteDigest chosen⟩

/-! ## The fallback -/

/-- The processor answers every request of a gate for at most twenty-eight edge bits. -/
theorem fallback_never_fails {platform : Platform} {decodeHex : String → Option (List UInt8)}
    {found : List (BitVec 64)} {error : SolveError}
    (made : makeSolver platform args.solver = .ok (.cpu .default)) (small : args.solver.edgeBits ≤ 28)
    (cycle : 2 ≤ args.solver.cycleLength ∧ args.solver.cycleLength % 2 = 0 ∧
      args.solver.cycleLength ≤ 64) :
    ¬ Fails platform decodeHex (withoutGpu blake2b) args found (.solver error) := by
  rintro ⟨chosen, prePow, chose, _, filled, state, nonce, _, failed⟩
  rw [made] at chose
  cases chose
  have valid : Valid (requestAt args prePow nonce) CpuLean.CpuLeanSolver.default.capabilities :=
    { header := filled
      edgeBits := args.solver.edgeBits_range
      supported := ⟨args.solver.edgeBits_range.1, small⟩
      cycleLength := cycle
      live := fun isLive => absurd isLive Bool.false_ne_true
      rounds := args.solver.rounds_range.1 }
  obtain ⟨outcome, solved, _⟩ :=
    @CpuSolve.solve_never _ blake2b _ valid (fun _ => True) fun _ => false
  rw [show ((withoutGpu blake2b (.cpu .default)).solve state (requestAt args prePow nonce)).1 = _
    from solved] at failed
  cases failed

/-- On a machine without a GPU a gate for at most twenty-eight edge bits always comes to its end:
    for every header that is not empty, every even cycle length up to sixty-four and every range
    that does not overflow, the processor answers every request, and what is printed is exact. -/
theorem fallback_gate_completes (blake2b : List UInt8 → Digest) (platform : Platform)
    (decodeHex : String → Option (List UInt8)) (args : GateArgs) (prePow : List UInt8)
    (automatic : args.solver.backend = .auto)
    (noMetal : platform.native = false ∨ ∃ error, platform.metalContext = .error error)
    (noAdapter : ∃ error, platform.adapter = .error error) (small : args.solver.edgeBits ≤ 28)
    (cycle : 2 ≤ args.solver.cycleLength ∧ args.solver.cycleLength % 2 = 0 ∧
      args.solver.cycleLength ≤ 64)
    (decoded : decodeHex args.prePow = some prePow) (filled : prePow ≠ [])
    (fits : args.nonceStart.toNat + args.count.toNat < 2 ^ 64) :
    ∃ report, gate blake2b args platform decodeHex (withoutGpu blake2b) = (report, .ok ()) ∧
      Finished blake2b args prePow report := by
  have made := falls_back automatic noMetal noAdapter small
  have cases_of_gate := @gate_cases blake2b args platform decodeHex (withoutGpu blake2b)
    fun chosen _ => without_gpu_embodies blake2b chosen
  rcases cases_of_gate with ⟨failure, _, early, fails⟩ |
    ⟨header, report, result, same, header_decoded, _, ⟨error, _, fails⟩ | ⟨finished, ended⟩⟩
  · exfalso
    cases failure with
    | invalidHex =>
      rw [Fails, decoded] at fails
      cases fails
    | emptyHeader =>
      rw [Fails, decoded, Option.some.injEq] at fails
      exact filled fails
    | noSolver reason =>
      rw [Fails, made] at fails
      cases fails
    | rangeOverflow => exact absurd fits (Nat.not_lt.mpr fails)
    | solver error => exact fallback_never_fails made small cycle fails
    | invalidProof error => exact fails
    | cancelled => exact fails
    | acceptance => exact early rfl
  · exact absurd fails (fallback_never_fails made small cycle)
  · rw [decoded, Option.some.injEq] at header_decoded
    subst header_decoded
    -- The acceptance gate has thirty-two edge bits.
    have other : isAcceptance args = false := by
      have bits : (args.solver.edgeBits == 32) = false := beq_false_of_ne (by omega)
      rw [isAcceptance, bits]
      exact Eq.refl false
    rw [other, if_neg (fun rejected => Bool.false_ne_true rejected.1)] at ended
    exact ⟨report, by rw [same, ended], finished⟩

/-- The small gate with the backend that is picked without a GPU. -/
theorem small_fallback_completes :
    ∃ report, gate lastByteDigest (smallGate .auto 3 (by decide)) noGpu decodeText
        (withoutGpu lastByteDigest) = (report, .ok ()) ∧
      Finished lastByteDigest (smallGate .auto 3 (by decide)) [0] report :=
  fallback_gate_completes lastByteDigest noGpu decodeText (smallGate .auto 3 (by decide)) [0] rfl
    (Or.inl rfl) ⟨_, rfl⟩ (by decide) (by decide) (by decide) (by decide) (by decide)

/-! ## Two backends -/

/-- Arguments that ask for the same graphs, of whatever backend, trimming and rounds. -/
structure SameGraphs (left right : GateArgs) : Prop where
  edgeBits : left.solver.edgeBits = right.solver.edgeBits
  cycleLength : left.solver.cycleLength = right.solver.cycleLength
  prePow : left.prePow = right.prePow
  nonceStart : left.nonceStart = right.nonceStart
  count : left.count = right.count

/-- Gates on the same graphs with any two honest solvers, on any two machines and with any
    numbers of rounds, print the same list if both end well and leave no nonce undecided.
    Nothing is said of gates that leave a nonce undecided, of which each may leave others. -/
theorem gates_agree (blake2b : List UInt8 → Digest) (decodeHex : String → Option (List UInt8))
    (left right : GateArgs) (same : SameGraphs left right) (leftPlatform rightPlatform : Platform)
    (leftMachine rightMachine : Chosen → Machine)
    (leftEmbodies : ∀ chosen, makeSolver leftPlatform left.solver = .ok chosen →
      (leftMachine chosen).Embodies (chosen.honest blake2b))
    (rightEmbodies : ∀ chosen, makeSolver rightPlatform right.solver = .ok chosen →
      (rightMachine chosen).Embodies (chosen.honest blake2b))
    (leftAccepted : (gate blake2b left leftPlatform decodeHex leftMachine).2 = .ok ())
    (rightAccepted : (gate blake2b right rightPlatform decodeHex rightMachine).2 = .ok ())
    (leftDecided : ∀ nonce reason, Line.inconclusive nonce reason ∉
      (gate blake2b left leftPlatform decodeHex leftMachine).1.lines)
    (rightDecided : ∀ nonce reason, Line.inconclusive nonce reason ∉
      (gate blake2b right rightPlatform decodeHex rightMachine).1.lines) :
    (gate blake2b left leftPlatform decodeHex leftMachine).1.found =
      (gate blake2b right rightPlatform decodeHex rightMachine).1.found := by
  obtain ⟨leftPow, leftDecoded, leftAscending, leftFound⟩ :=
    found_iff_cycle leftEmbodies leftAccepted leftDecided
  obtain ⟨rightPow, rightDecoded, rightAscending, rightFound⟩ :=
    found_iff_cycle rightEmbodies rightAccepted rightDecided
  rw [same.prePow, rightDecoded, Option.some.injEq] at leftDecoded
  subst leftDecoded
  refine List.Pairwise.eq_of_mem_iff (List.pairwise_map.mp leftAscending)
    (List.pairwise_map.mp rightAscending) fun nonce => ?_
  rw [leftFound, rightFound]
  simp only [InRange, IsCycle, same.edgeBits, same.cycleLength, same.nonceStart, same.count]

/-- What a small gate prints on a machine without a GPU. -/
theorem small_gate_lines :
    (gate lastByteDigest (smallGate .cpu 3 (by decide)) noGpu decodeText
        (withoutGpu lastByteDigest)).1.lines = [.powOk 8 [0, 1], .complete [8]] ∧
      (gate lastByteDigest (smallGate .auto 128 (by decide)) noGpu decodeText
        (withoutGpu lastByteDigest)).1.lines = [.powOk 8 [0, 1], .complete [8]] := by
  decide +kernel

/-- Three rounds and 128 come to the same. -/
theorem small_gates_agree :
    (gate lastByteDigest (smallGate .cpu 3 (by decide)) noGpu decodeText
        (withoutGpu lastByteDigest)).1.found =
      (gate lastByteDigest (smallGate .auto 128 (by decide)) noGpu decodeText
        (withoutGpu lastByteDigest)).1.found :=
  gates_agree lastByteDigest decodeText (smallGate .cpu 3 (by decide)) (smallGate .auto 128 (by decide))
    ⟨rfl, rfl, rfl, rfl, rfl⟩ noGpu noGpu (withoutGpu lastByteDigest) (withoutGpu lastByteDigest)
    (fun chosen _ => without_gpu_embodies lastByteDigest chosen)
    (fun chosen _ => without_gpu_embodies lastByteDigest chosen)
    (by decide +kernel) (by decide +kernel)
    (fun nonce reason => by simp [small_gate_lines.1])
    (fun nonce reason => by simp [small_gate_lines.2])

end CuckatooMiner.Gate
