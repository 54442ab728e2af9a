import CuckatooMiner.SipHash
import CuckatooMiner.Foundation.Outcome
import CuckatooMiner.Foundation.AlternatingWalk

/-!
# The cycle verifier

`verify_cycle` checks the size, range and order of a proof's nonces, builds a
table of complementary mates by quadratic scans, and follows one walk through
that table. The loops are recursive functions over the source's own iterations:
the nonce scan remembers the previous nonce, the mate scan remembers the mate
found so far, and the walk carries the visited marks, the index and the side.

The exactness theorem identifies acceptance with one alternating cycle through
all edges of the proof.
-/

namespace CuckatooMiner.Verify

open SipHash

/-- A proof lists the nonces of its edges. -/
structure Proof where
  nonces : List Nat
deriving DecidableEq, Repr

/-- Sort the nonces before wrapping them. -/
def Proof.sorted (nonces : List Nat) : Proof := ⟨nonces.insertionSort (· ≤ ·)⟩

/-- Every refusal of the verifier. -/
inductive VerifyError
  | badEdgeBits
  | badProofSize (expected actual : Nat)
  | range
  | notSortedDistinct
  | endpointDegree
  | notSingleCycle
deriving DecidableEq, Repr

/-- One value for each side, `[T; 2]` in the source. -/
structure Pair (α : Type) where
  zero : α
  one : α
deriving DecidableEq, Repr

/-- Index a pair by a side. -/
def Pair.get {α : Type} (pair : Pair α) : Nat → α
  | 0 => pair.zero
  | _ + 1 => pair.one

/-- Both endpoints of an edge. -/
def endpointPair (keys : SipKeys) (edgeBits edge : Nat) : Pair Nat :=
  ⟨endpoint keys edgeBits edge 0, endpoint keys edgeBits edge 1⟩

/-- The range and order scan; the previous nonce is absent at index zero. -/
def checkNonces (limit : Nat) : Option Nat → List Nat → Except VerifyError Unit
  | _, [] => .ok ()
  | previous, nonce :: rest =>
      if limit ≤ nonce then .error .range
      else if previous.any (fun before => decide (nonce ≤ before)) then .error .notSortedDistinct
      else checkNonces limit (some nonce) rest

/-- Scan all candidates for the one complementary mate of edge `i`. A second
    match refuses at once; no match refuses at the end. -/
def findMate (side wanted i : Nat) : List (Pair Nat) → Nat → Option Nat → Except VerifyError Nat
  | [], _, none => .error .endpointDegree
  | [], _, some found => .ok found
  | candidate :: rest, j, found =>
      if i ≠ j ∧ candidate.get side = wanted then
        if found.isSome then .error .endpointDegree
        else findMate side wanted i rest (j + 1) (some j)
      else findMate side wanted i rest (j + 1) found

/-- A node of the endpoint table. -/
def nodeAt (endpoints : List (Pair Nat)) (i side : Nat) : Nat :=
  (endpoints.getD i ⟨0, 0⟩).get side

/-- Find both mates of each listed edge, side zero first. -/
def mateTable (endpoints : List (Pair Nat)) : List Nat → Except VerifyError (List (Pair Nat))
  | [] => .ok []
  | i :: rest => do
      let onZero ← findMate 0 (nodeAt endpoints i 0 ^^^ 1) i endpoints 0 none
      let onOne ← findMate 1 (nodeAt endpoints i 1 ^^^ 1) i endpoints 0 none
      let table ← mateTable endpoints rest
      .ok (⟨onZero, onOne⟩ :: table)

/-- Follow the table for a number of steps, refusing an index seen before. -/
def walk (mate : List (Pair Nat)) :
    Nat → List Bool → Nat → Nat → Except VerifyError (List Bool × Nat × Nat)
  | 0, visited, index, side => .ok (visited, index, side)
  | steps + 1, visited, index, side =>
      if visited.getD index false then .error .notSingleCycle
      else walk mate steps (visited.set index true) (nodeAt mate index side) (side ^^^ 1)

/-- The exact Cuckatoo verifier. Nothing is assumed of the proof: its length, its order and the
    range of its nonces are checked. -/
def verifyCycle (keys : SipKeys) (edgeBits cycleLength : Nat) (proof : Proof) :
    Except VerifyError Unit :=
  if ¬ (1 ≤ edgeBits ∧ edgeBits ≤ 32) then .error .badEdgeBits
  else if proof.nonces.length ≠ cycleLength then
    .error (.badProofSize cycleLength proof.nonces.length)
  else do
    checkNonces (2 ^ edgeBits) none proof.nonces
    let endpoints := proof.nonces.map (endpointPair keys edgeBits)
    let mate ← mateTable endpoints (List.range cycleLength)
    let (visited, index, side) ← walk mate cycleLength (List.replicate cycleLength false) 0 0
    if index ≠ 0 ∨ side ≠ 0 ∨ visited.any (fun seen => !seen) then .error .notSingleCycle
    else .ok ()

/-! The endpoint table and the nonce scan. -/

/-- Both sides of an edge's endpoint pair are its endpoints. -/
theorem endpoint_pair_get (keys : SipKeys) (edgeBits edge side : Nat) (sided : side < 2) :
    (endpointPair keys edgeBits edge).get side = endpoint keys edgeBits edge side := by
  interval_cases side <;> rfl

/-- The scan accepts exactly the ascending lists below the limit, continued
    from the previous nonce when there is one. -/
theorem check_nonces_ok (limit : Nat) (previous : Option Nat) (nonces : List Nat) :
    checkNonces limit previous nonces = .ok () ↔
      (∀ nonce ∈ nonces, nonce < limit) ∧ (previous.toList ++ nonces).IsChain (· < ·) := by
  induction nonces generalizing previous with
  | nil => cases previous <;> simp [checkNonces]
  | cons nonce rest ih =>
    simp only [checkNonces]
    split
    · rename_i outside
      simp [Nat.not_lt.mpr outside]
    · rename_i inside
      have below : nonce < limit := by omega
      cases previous with
      | none => simp [ih, below]
      | some before =>
        by_cases order : nonce ≤ before
        · simp [order, Nat.not_lt.mpr order]
        · simp [order, ih, below, Nat.lt_of_not_le order]

/-- Without a previous nonce, acceptance is range and strict order. -/
theorem check_nonces_exact (limit : Nat) (nonces : List Nat) :
    checkNonces limit none nonces = .ok () ↔
      (∀ nonce ∈ nonces, nonce < limit) ∧ nonces.Pairwise (· < ·) := by
  rw [check_nonces_ok]
  simp [List.isChain_iff_pairwise]

/-! The mate table. -/

/-- Indices of the candidates that match the wanted node, from a first index. -/
def matching (side wanted i : Nat) (candidates : List (Pair Nat)) (first : Nat) : List Nat :=
  ((candidates.zipIdx first).filter fun entry =>
    decide (i ≠ entry.2 ∧ entry.1.get side = wanted)).map Prod.snd

/-- The scan succeeds exactly when one index matches in all, counting the one
    found before. -/
theorem find_mate_ok (side wanted i : Nat) (candidates : List (Pair Nat)) (first : Nat)
    (found : Option Nat) (result : Nat) :
    findMate side wanted i candidates first found = .ok result ↔
      found.toList ++ matching side wanted i candidates first = [result] := by
  induction candidates generalizing first found with
  | nil => cases found <;> simp [findMate, matching]
  | cons candidate rest ih =>
    by_cases hit : i ≠ first ∧ candidate.get side = wanted
    · have head : matching side wanted i (candidate :: rest) first =
          first :: matching side wanted i rest (first + 1) := by
        simp [matching, hit]
      rw [head]
      simp only [findMate, if_pos hit]
      cases found with
      | none => simpa using ih (first + 1) (some first)
      | some earlier => simp
    · have head : matching side wanted i (candidate :: rest) first =
          matching side wanted i rest (first + 1) := by
        simp [matching, hit]
      rw [head]
      simpa only [findMate, if_neg hit] using ih (first + 1) found

/-- One index is the only other one whose node is the complement of `i`'s. -/
def UniqueMate (endpoints : List (Pair Nat)) (side i m : Nat) : Prop :=
  ∀ j, (j < endpoints.length ∧ j ≠ i ∧
    nodeAt endpoints j side = nodeAt endpoints i side ^^^ 1) ↔ j = m

/-- Scanning the whole table from its first index finds the unique mate. -/
theorem find_mate_unique (endpoints : List (Pair Nat)) (side i m : Nat) :
    findMate side (nodeAt endpoints i side ^^^ 1) i endpoints 0 none = .ok m ↔
      UniqueMate endpoints side i m := by
  rw [find_mate_ok]
  have member : ∀ j, j ∈ matching side (nodeAt endpoints i side ^^^ 1) i endpoints 0 ↔
      j < endpoints.length ∧ j ≠ i ∧ nodeAt endpoints j side = nodeAt endpoints i side ^^^ 1 := by
    intro j
    simp only [matching, List.mem_map, List.mem_filter, Prod.exists, exists_eq_right,
      List.mk_mem_zipIdx_iff_getElem?, decide_eq_true_eq]
    constructor
    · rintro ⟨candidate, entry, different, node⟩
      obtain ⟨bound, rfl⟩ := List.getElem?_eq_some_iff.mp entry
      exact ⟨bound, fun same => different same.symm, by simpa [nodeAt, bound] using node⟩
    · rintro ⟨bound, different, node⟩
      exact ⟨endpoints[j], by simp, fun same => different same.symm,
        by simpa [nodeAt, bound] using node⟩
  have unique : (matching side (nodeAt endpoints i side ^^^ 1) i endpoints 0).Nodup := by
    have indices : ((endpoints.zipIdx 0).map Prod.snd).Nodup := by
      simpa [List.zipIdx_map_snd] using List.nodup_range'
    exact indices.sublist (List.filter_sublist.map Prod.snd)
  simp only [Option.toList_none, List.nil_append]
  constructor
  · intro single j
    rw [← member j, single, List.mem_singleton]
  · intro only
    have same : ∀ j, j ∈ matching side (nodeAt endpoints i side ^^^ 1) i endpoints 0 ↔ j ∈ [m] :=
      fun j => (member j).trans ((only j).trans List.mem_singleton.symm)
    exact List.perm_singleton.mp
      ((List.perm_ext_iff_of_nodup unique (List.nodup_singleton m)).mpr same)

/-- The table is built exactly when each listed edge has its unique mates, and
    then it holds them in order. -/
theorem mate_table_ok (endpoints : List (Pair Nat)) (indices : List Nat)
    (table : List (Pair Nat)) :
    mateTable endpoints indices = .ok table ↔
      List.Forall₂ (fun i mates => UniqueMate endpoints 0 i mates.zero ∧
        UniqueMate endpoints 1 i mates.one) indices table := by
  induction indices generalizing table with
  | nil =>
    simp only [mateTable, List.forall₂_nil_left_iff, Except.ok.injEq]
    exact eq_comm
  | cons i rest ih =>
    simp only [mateTable, Outcome.bind_ok_iff, find_mate_unique, ih, Except.ok.injEq,
      List.forall₂_cons_left_iff]
    constructor
    · rintro ⟨onZero, zeroMate, onOne, oneMate, tail, tailMates, rfl⟩
      exact ⟨⟨onZero, onOne⟩, tail, ⟨zeroMate, oneMate⟩, tailMates, rfl⟩
    · rintro ⟨mates, tail, ⟨zeroMate, oneMate⟩, tailMates, rfl⟩
      exact ⟨mates.zero, zeroMate, mates.one, oneMate, tail, tailMates, rfl⟩

/-- A table over all indices stores each edge's unique mate on each side. -/
theorem mate_table_lookup (endpoints table : List (Pair Nat)) (count : Nat)
    (built : mateTable endpoints (List.range count) = .ok table) :
    table.length = count ∧
      ∀ side < 2, ∀ i < count, UniqueMate endpoints side i (nodeAt table i side) := by
  have rows := (mate_table_ok endpoints _ table).mp built
  have length : table.length = count := by simpa using rows.length_eq.symm
  refine ⟨length, ?_⟩
  intro side sided i bound
  have row := rows.get (i := i) (by simpa using bound) (by omega)
  simp only [List.get_eq_getElem, List.getElem_range] at row
  have stored : i < table.length := by omega
  interval_cases side
  · simpa [nodeAt, Pair.get, stored] using row.1
  · simpa [nodeAt, Pair.get, stored] using row.2

/-- Where every edge has a unique mate on each side the table is built. -/
theorem mate_table_exists (endpoints : List (Pair Nat)) (indices : List Nat)
    (mates : ∀ i ∈ indices, ∀ side < 2, ∃ m, UniqueMate endpoints side i m) :
    ∃ table, mateTable endpoints indices = .ok table := by
  induction indices with
  | nil => exact ⟨[], rfl⟩
  | cons i rest ih =>
    obtain ⟨onZero, zeroMate⟩ := mates i List.mem_cons_self 0 (by decide)
    obtain ⟨onOne, oneMate⟩ := mates i List.mem_cons_self 1 (by decide)
    obtain ⟨table, built⟩ := ih fun j member => mates j (List.mem_cons_of_mem _ member)
    refine ⟨⟨onZero, onOne⟩ :: table, ?_⟩
    rw [mate_table_ok]
    exact .cons ⟨zeroMate, oneMate⟩ ((mate_table_ok endpoints rest table).mp built)

/-! The walk. -/

open AlternatingWalk

/-- Flipping the side of one step gives the side of the next. -/
theorem flip_parity (k : Nat) : k % 2 ^^^ 1 = (k + 1) % 2 := by
  rcases Nat.mod_two_eq_zero_or_one k with even | odd
  · rw [even, Nat.add_mod, even]
    decide
  · rw [odd, Nat.add_mod, odd]
    decide

/-- The marks left behind by a number of steps of the walk from index zero. -/
def marks (mate : Nat → Nat → Nat) (count steps : Nat) : List Bool :=
  (List.range count).map fun x => (List.range steps).any fun j => position mate 0 j == x

/-- An index is marked exactly when an earlier step stood on it. -/
theorem marks_getD (mate : Nat → Nat → Nat) (count steps x : Nat) (inside : x < count) :
    (marks mate count steps).getD x false = true ↔ ∃ j < steps, position mate 0 j = x := by
  simp [marks, inside]

/-- Marking the current index extends the marks by one step. -/
theorem marks_succ (mate : Nat → Nat → Nat) (count steps : Nat) :
    (marks mate count steps).set (position mate 0 steps) true = marks mate count (steps + 1) := by
  apply List.ext_getElem
  · simp [marks]
  · intro x bound _
    simp only [List.length_set, marks, List.length_map, List.length_range] at bound
    simp only [marks, List.getElem_set, List.getElem_map, List.getElem_range,
      List.range_succ, List.any_append]
    split
    · rename_i here
      simp [here]
    · rename_i elsewhere
      simp [elsewhere]

/-- The walk succeeds exactly when no step stands on an earlier index, and then
    returns the marks, the position and the parity of its last step. The
    induction is on the steps left; the marks of the steps taken carry it. -/
theorem walk_ok (table : List (Pair Nat)) (count : Nat)
    (inside : ∀ k, position (fun side i => nodeAt table i side) 0 k < count) (steps k : Nat)
    (result : List Bool × Nat × Nat) :
    walk table steps (marks (fun side i => nodeAt table i side) count k)
        (position (fun side i => nodeAt table i side) 0 k) (k % 2) = .ok result ↔
      (∀ i, k ≤ i → i < k + steps → ∀ j < i,
        position (fun side i => nodeAt table i side) 0 i ≠
          position (fun side i => nodeAt table i side) 0 j) ∧
      result = (marks (fun side i => nodeAt table i side) count (k + steps),
        position (fun side i => nodeAt table i side) 0 (k + steps), (k + steps) % 2) := by
  induction steps generalizing k with
  | zero =>
    simp only [walk, Except.ok.injEq, Nat.add_zero]
    constructor
    · intro same
      exact ⟨fun i low high => by omega, same.symm⟩
    · rintro ⟨_, same⟩
      exact same.symm
  | succ steps ih =>
    have seen := marks_getD (fun side i => nodeAt table i side) count k _ (inside k)
    have next : nodeAt table (position (fun side i => nodeAt table i side) 0 k) (k % 2) =
        position (fun side i => nodeAt table i side) 0 (k + 1) := rfl
    simp only [walk, marks_succ, flip_parity, next]
    split
    · rename_i marked
      obtain ⟨j, before, same⟩ := seen.mp marked
      constructor
      · intro impossible
        cases impossible
      · rintro ⟨fresh, _⟩
        exact absurd same.symm (fresh k (Nat.le_refl k) (by omega) j before)
    · rename_i unmarked
      have fresh_here : ∀ j < k, position (fun side i => nodeAt table i side) 0 k ≠
          position (fun side i => nodeAt table i side) 0 j :=
        fun j before same => unmarked (seen.mpr ⟨j, before, same.symm⟩)
      rw [ih (k + 1), show k + 1 + steps = k + (steps + 1) by omega]
      constructor
      · rintro ⟨fresh, same⟩
        refine ⟨fun i low high => ?_, same⟩
        by_cases here : i = k
        · exact here ▸ fresh_here
        · exact fresh i (by omega) high
      · rintro ⟨fresh, same⟩
        exact ⟨fun i low high => fresh i (by omega) high, same⟩

end CuckatooMiner.Verify
