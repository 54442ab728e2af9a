import Mathlib

/-!
# Segments of one flat list

Lists of unequal lengths are stored one after the other in a flat list, together
with the position at which each starts and the end of the last. The part of the
flat list between two successive positions is the list stored there.

Steps that append to a flat list, and may fail, append one segment each.
-/

namespace CuckatooMiner.Segments

universe u v w
variable {α : Type u} {β : Type v} {ε : Type w}

/-- The position at which each segment starts, and the end of the last one. -/
def starts (segments : List (List α)) : List Nat :=
  (List.range (segments.length + 1)).map fun i => (segments.take i).flatten.length

/-- The start of a segment is the length of those before it. -/
theorem starts_getD (segments : List (List α)) (i : Nat) (inside : i ≤ segments.length) :
    (starts segments).getD i 0 = (segments.take i).flatten.length := by
  rw [starts, List.getD_eq_getElem _ _ (by simp; omega), List.getElem_map, List.getElem_range]

/-- A further segment ends at the new length. -/
theorem starts_append (segments : List (List α)) (segment : List α) :
    starts (segments ++ [segment]) =
      starts segments ++ [(segments.flatten ++ segment).length] := by
  simp only [starts, List.length_append, List.length_singleton]
  rw [List.range_succ (n := segments.length + 1), List.map_append]
  congr 1
  · apply List.map_congr_left
    intro i member
    rw [List.mem_range] at member
    rw [List.take_append_of_le_length (by omega)]
  · simp

/-- The segments up to and including one. -/
theorem take_succ_flatten (segments : List (List α)) (i : Nat) (inside : i < segments.length) :
    (segments.take (i + 1)).flatten = (segments.take i).flatten ++ segments[i] := by
  rw [List.take_succ_eq_append_getElem inside, List.flatten_append]
  simp

/-- Cutting the flat list between successive starts gives the segment. -/
theorem slice (segments : List (List α)) (i : Nat) (inside : i < segments.length) :
    (segments.flatten.drop ((starts segments).getD i 0)).take
      ((starts segments).getD (i + 1) 0 - (starts segments).getD i 0) = segments[i] := by
  have next := take_succ_flatten segments i inside
  have whole : segments.flatten =
      (segments.take i).flatten ++ (segments[i] ++ (segments.drop (i + 1)).flatten) := by
    rw [← List.append_assoc, ← next, ← List.flatten_append, List.take_append_drop]
  rw [starts_getD segments i (Nat.le_of_lt inside), starts_getD segments (i + 1) inside, next,
    List.length_append, Nat.add_sub_cancel_left, whole, List.drop_left, List.take_left]

/-- The differences of successive starts are the lengths of the segments. -/
theorem starts_differences (segments : List (List α)) :
    ((starts segments).zip (starts segments).tail).map (fun range => range.2 - range.1) =
      segments.map List.length := by
  apply List.ext_getElem
  · simp [starts]
  · intro i left right
    have inside : i < segments.length := by simpa using right
    simp only [starts, List.getElem_map, List.getElem_zip, List.getElem_tail, List.getElem_range,
      take_succ_flatten segments i inside, List.length_append, Nat.add_sub_cancel_left]

/-- A sequence of fallible steps, each of which appends a segment, appends the
    segments of its steps in order. -/
theorem foldlM_appends (step : List β → α → Except ε (List β)) (adds : α → List β → Prop)
    (items : List α) (appends : ∀ item ∈ items, ∀ before after, step before item = .ok after →
      ∃ segment, after = before ++ segment ∧ adds item segment)
    (before after : List β) (ran : items.foldlM step before = .ok after) :
    ∃ segments, after = before ++ segments.flatten ∧ List.Forall₂ adds items segments := by
  induction items generalizing before with
  | nil =>
    cases ran
    exact ⟨[], by simp, .nil⟩
  | cons item rest ih =>
    rw [List.foldlM_cons] at ran
    cases stepped : step before item with
    | error error =>
      rw [stepped] at ran
      cases ran
    | ok middle =>
      rw [stepped] at ran
      obtain ⟨segment, rfl, added⟩ := appends item List.mem_cons_self before middle stepped
      obtain ⟨segments, rfl, all⟩ :=
        ih (fun other member => appends other (List.mem_cons_of_mem _ member)) _ ran
      exact ⟨segment :: segments, by simp, .cons added all⟩

/-- Each item's segment is part of the appended list. -/
theorem mem_appended {adds : α → List β → Prop} {items : List α} {segments : List (List β)}
    (all : List.Forall₂ adds items segments) (item : α) (member : item ∈ items) :
    ∃ segment, adds item segment ∧ segment ⊆ segments.flatten := by
  induction all with
  | nil => cases member
  | @cons first segment rest later added _ ih =>
    rcases List.mem_cons.mp member with rfl | further
    · exact ⟨segment, added, fun entry inside => by simp [inside]⟩
    · obtain ⟨found, found_added, included⟩ := ih further
      refine ⟨found, found_added, fun entry inside => ?_⟩
      rw [List.flatten_cons]
      exact List.mem_append_right _ (included inside)

/-- Segments whose items tell their segment do not share items. -/
theorem nodup_parts (parts : List α) (items : α → List β) (part : β → α) (unique : parts.Nodup)
    (each : ∀ i ∈ parts, (items i).Nodup) (told : ∀ i ∈ parts, ∀ item ∈ items i, part item = i) :
    (parts.flatMap items).Nodup := by
  rw [List.nodup_flatMap]
  refine ⟨each, ?_⟩
  apply List.Pairwise.imp_of_mem _ unique
  intro left right left_member right_member different item in_left in_right
  exact different ((told left left_member item in_left).symm.trans
    (told right right_member item in_right))

/-- A set has as many elements as a list that names each once. -/
theorem ncard_of_listed {set : Set α} {items : List α} (unique : items.Nodup)
    (listed : ∀ item, item ∈ items ↔ item ∈ set) : set.ncard = items.length := by
  classical
  have same : set = ↑items.toFinset := by
    ext item
    rw [List.coe_toFinset]
    exact (listed item).symm
  rw [same, Set.ncard_coe_finset, List.toFinset_card_of_nodup unique]

end CuckatooMiner.Segments
