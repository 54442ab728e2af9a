import Mathlib

/-!
# Frames on the wire

The server ends each frame with a newline. `read_frame` collects a frame from
whatever pieces the socket delivers: it takes the buffered bytes up to a newline,
refuses to grow beyond one mebibyte, and leaves the bytes behind the newline in the
buffer. At the end of the stream the bytes without a newline are the last frame.

A reader is the list of pieces still to be delivered; the first one is buffered.
Whatever the pieces, the calls return the lines of the stream.
-/

namespace CuckatooMiner.StratumFraming

/-! ## The reader -/

/-- The byte that ends a frame. -/
def lineFeed : UInt8 := 10

/-- The byte that may stand before it. -/
def carriageReturn : UInt8 := 13

/-- The limit on the bytes of a frame, its newline included. -/
def maxStratumFrameBytes : Nat := 1024 * 1024

/-- The kinds of read errors. -/
inductive ErrorKind
  | invalidData
deriving DecidableEq, Repr

/-- A read error. -/
structure ReadError where
  kind : ErrorKind
  message : String
deriving DecidableEq, Repr

/-- The error of a frame beyond the limit. -/
def oversized : ReadError := ⟨.invalidData, "Stratum frame exceeds 1 MiB"⟩

/-- What one call returns: a frame, the end of the stream, or an error. -/
abbrev Outcome := Except ReadError (Option (List UInt8))

/-- The pieces that are still to be delivered. -/
abbrev Reader := List (List UInt8)

/-- Take bytes out of the buffer. -/
def consume (take : Nat) : Reader → Reader
  | [] => []
  | available :: later =>
      if available.length ≤ take then later else available.drop take :: later

/-- The outcome at the end of the stream. -/
def atEnd (frame : List UInt8) : Outcome := .ok (if frame.isEmpty then none else some frame)

/-- Drop the newline and one carriage return before it. -/
def trimmed (frame : List UInt8) : List UInt8 :=
  let line := frame.dropLast
  if line.getLast? = some carriageReturn then line.dropLast else line

/-- Collect a frame, of which some bytes have been read. The reader lists what the stream has
    available at a time, and the end of the list is the end of the stream. Errors of the stream
    itself are left out. -/
def readFrame (frame : List UInt8) : Reader → Outcome × Reader
  | [] => (atEnd frame, [])
  | available :: later =>
      if available.isEmpty then (atEnd frame, available :: later)
      else
        let newline := available.findIdx? (· == lineFeed)
        let take := newline.elim available.length (· + 1)
        if frame.length + take > maxStratumFrameBytes then (.error oversized, available :: later)
        else
          let grown := frame ++ available.take take
          if newline.isSome then (.ok (some (trimmed grown)), consume take (available :: later))
          -- Without a newline the whole buffer is consumed.
          else readFrame grown later

/-- The outcomes of so many calls, up to the first error or the end of the stream. -/
def readFrames : Nat → Reader → List Outcome
  | 0, _ => []
  | calls + 1, reader =>
      match readFrame [] reader with
      | (.ok (some frame), rest) => .ok (some frame) :: readFrames calls rest
      | (outcome, _) => [outcome]

/-! ## The lines of a stream -/

/-- A line without a carriage return at its end. -/
def withoutReturn (line : List UInt8) : List UInt8 :=
  if line.getLast? = some carriageReturn then line.dropLast else line

/-- What a line is read as. -/
def lineOutcome (line : List UInt8) : Outcome :=
  if line.length + 1 > maxStratumFrameBytes then .error oversized
  else .ok (some (withoutReturn line))

/-- What the bytes behind the last newline are read as. -/
def tailOutcomes (tail : List UInt8) : List Outcome :=
  if tail = [] then [.ok none]
  else if tail.length > maxStratumFrameBytes then [.error oversized]
  else [.ok (some tail), .ok none]

/-- Outcomes up to the first error. -/
def untilError : List Outcome → List Outcome
  | [] => []
  | .error error :: _ => [.error error]
  | .ok frame :: rest => .ok frame :: untilError rest

/-- The outcomes of a stream: its lines, then its unterminated tail. -/
def frameSpec (stream : List UInt8) : List Outcome :=
  let parts := stream.splitOn lineFeed
  untilError (parts.dropLast.map lineOutcome ++ tailOutcomes (parts.getLast?.getD []))

/-- A stream that begins with a line. -/
theorem frame_spec_line (line tail : List UInt8) (whole : lineFeed ∉ line) :
    frameSpec (line ++ lineFeed :: tail) =
      if line.length + 1 > maxStratumFrameBytes then [.error oversized]
      else .ok (some (withoutReturn line)) :: frameSpec tail := by
  have parts : (line ++ lineFeed :: tail).splitOn lineFeed = line :: tail.splitOn lineFeed :=
    List.splitOn_append_cons_self_of_not_mem whole tail
  have more : tail.splitOn lineFeed ≠ [] := List.splitOn_ne_nil lineFeed tail
  rw [frameSpec, parts, List.dropLast_cons_of_ne_nil more, List.getLast?_cons_of_ne_nil more,
    List.map_cons, List.cons_append, lineOutcome]
  split
  · rfl
  · rfl

/-- A stream without newlines. -/
theorem frame_spec_tail (tail : List UInt8) (unterminated : lineFeed ∉ tail) :
    frameSpec tail = untilError (tailOutcomes tail) := by
  rw [frameSpec, List.splitOn_eq_singleton unterminated]
  rfl

/-! ## One call -/

/-- Where the first newline stands, a line has ended: there is one way to read it. -/
theorem first_line_unique (left right left_tail right_tail : List UInt8)
    (left_whole : lineFeed ∉ left) (right_whole : lineFeed ∉ right)
    (same : left ++ lineFeed :: left_tail = right ++ lineFeed :: right_tail) :
    left = right ∧ left_tail = right_tail := by
  have cut := congrArg (List.splitOn lineFeed) same
  rw [List.splitOn_append_cons_self_of_not_mem left_whole,
    List.splitOn_append_cons_self_of_not_mem right_whole] at cut
  obtain rfl := (List.cons.inj cut).1
  exact ⟨rfl, (List.cons.inj (List.append_cancel_left same)).2⟩

/-- The search for a newline finds the first one. -/
theorem newline_found (before behind : List UInt8) (absent : lineFeed ∉ before) :
    (before ++ lineFeed :: behind).findIdx? (· == lineFeed) = some before.length := by
  have unseen : before.findIdx? (· == lineFeed) = none := by
    rw [List.findIdx?_eq_none_iff]
    intro byte member
    rw [beq_eq_false_iff_ne]
    rintro rfl
    exact absent member
  rw [List.findIdx?_append, unseen, List.findIdx?_cons]
  simp

/-- The search for a newline fails where there is none. -/
theorem newline_missing (available : List UInt8) (absent : lineFeed ∉ available) :
    available.findIdx? (· == lineFeed) = none := by
  rw [List.findIdx?_eq_none_iff]
  intro byte member
  rw [beq_eq_false_iff_ne]
  rintro rfl
  exact absent member

/-- A collected frame is trimmed to its line. -/
theorem trimmed_line (line : List UInt8) : trimmed (line ++ [lineFeed]) = withoutReturn line := by
  rw [trimmed, List.dropLast_concat, withoutReturn]

/-- Consuming a first part of the buffer leaves the bytes behind it. -/
theorem consume_spec (taken behind : List UInt8) (later : Reader)
    (nonempty : ∀ piece ∈ later, piece ≠ []) :
    (consume taken.length ((taken ++ behind) :: later)).flatten = behind ++ later.flatten ∧
      ∀ piece ∈ consume taken.length ((taken ++ behind) :: later), piece ≠ [] := by
  rw [consume, List.length_append, List.drop_left]
  split
  · rename_i all
    have drained : behind = [] := List.length_eq_zero_iff.mp (by omega)
    rw [drained]
    exact ⟨rfl, nonempty⟩
  · rename_i some_left
    refine ⟨rfl, fun piece member => ?_⟩
    rcases List.mem_cons.mp member with rfl | in_later
    · rintro rfl
      simp at some_left
    · exact nonempty piece in_later

/-- One round of the loop with a newline in the buffer. -/
theorem read_frame_ends (frame before behind : List UInt8) (later : Reader)
    (absent : lineFeed ∉ before) :
    readFrame frame ((before ++ lineFeed :: behind) :: later) =
      if frame.length + (before.length + 1) > maxStratumFrameBytes
      then (.error oversized, (before ++ lineFeed :: behind) :: later)
      else (.ok (some (withoutReturn (frame ++ before))),
        consume (before.length + 1) ((before ++ lineFeed :: behind) :: later)) := by
  have filled : (before ++ lineFeed :: behind).isEmpty = false := by simp
  have taken : (before ++ lineFeed :: behind).take (before.length + 1) = before ++ [lineFeed] := by
    rw [show before ++ lineFeed :: behind = (before ++ [lineFeed]) ++ behind by simp]
    exact List.take_left' (by simp)
  rw [readFrame, filled, newline_found before behind absent]
  simp only [Bool.false_eq_true, if_false, Option.elim_some, Option.isSome_some, if_true, taken]
  rw [← List.append_assoc, trimmed_line]

/-- One round of the loop without a newline in the buffer. -/
theorem read_frame_grows (frame available : List UInt8) (later : Reader)
    (filled : available ≠ []) (absent : lineFeed ∉ available) :
    readFrame frame (available :: later) =
      if frame.length + available.length > maxStratumFrameBytes
      then (.error oversized, available :: later)
      else readFrame (frame ++ available) later := by
  have nonempty : available.isEmpty = false := by simpa using filled
  rw [readFrame, nonempty, newline_missing available absent]
  simp only [Bool.false_eq_true, if_false, Option.elim_none, Option.isSome_none, List.take_length]

/-- Collecting a line: the call fails exactly if the line is too long, and otherwise
    leaves the bytes behind its newline. -/
theorem read_frame_line (reader : Reader) (frame line tail : List UInt8)
    (nonempty : ∀ piece ∈ reader, piece ≠ []) (whole : lineFeed ∉ line)
    (stream : reader.flatten = line ++ lineFeed :: tail) :
    if (frame ++ line).length + 1 > maxStratumFrameBytes
    then (readFrame frame reader).1 = .error oversized
    else ∃ rest : Reader, readFrame frame reader =
        (.ok (some (withoutReturn (frame ++ line))), rest) ∧
      rest.flatten = tail ∧ ∀ piece ∈ rest, piece ≠ [] := by
  induction reader generalizing frame line with
  | nil => simp at stream
  | cons available later ih =>
    have filled := nonempty available List.mem_cons_self
    have later_nonempty : ∀ piece ∈ later, piece ≠ [] :=
      fun piece member => nonempty piece (List.mem_cons_of_mem _ member)
    rw [List.flatten_cons] at stream
    by_cases here : lineFeed ∈ available
    · -- The line ends in the buffer.
      obtain ⟨before, behind, rfl, absent⟩ := List.eq_append_cons_of_mem here
      rw [List.append_assoc, List.cons_append] at stream
      obtain ⟨rfl, rfl⟩ := first_line_unique before line _ tail absent whole stream
      rw [read_frame_ends frame before behind later absent, List.length_append, Nat.add_assoc]
      split
      · rfl
      · have left := consume_spec (before ++ [lineFeed]) behind later later_nonempty
        rw [List.length_append, List.append_assoc] at left
        exact ⟨_, rfl, left⟩
    · -- The buffer is a first part of the line, which goes on in the later pieces.
      obtain ⟨more, rfl, stream_later⟩ : ∃ more, line = available ++ more ∧
          later.flatten = more ++ lineFeed :: tail := by
        rcases List.append_eq_append_iff.mp stream with ⟨more, line_split, rest⟩ | ⟨more, split, rest⟩
        · exact ⟨more, line_split, rest⟩
        · cases more with
          | nil => exact ⟨[], by simpa using split.symm, by simpa using rest.symm⟩
          | cons byte more =>
            obtain ⟨rfl, _⟩ := List.cons.inj rest
            exact absurd (by rw [split]; simp) here
      have more_whole : lineFeed ∉ more := fun member => whole (List.mem_append_right _ member)
      have step := ih (frame ++ available) more later_nonempty more_whole stream_later
      rw [read_frame_grows frame available later filled here, ← List.append_assoc]
      by_cases beyond : frame.length + available.length > maxStratumFrameBytes
      · rw [if_pos beyond, if_pos (by simp only [List.length_append]; omega)]
      · rw [if_neg beyond]
        exact step

/-- Collecting the bytes behind the last newline: the call fails exactly if they are
    too many, and otherwise returns them as they are. -/
theorem read_frame_tail (reader : Reader) (frame : List UInt8)
    (nonempty : ∀ piece ∈ reader, piece ≠ []) (unterminated : lineFeed ∉ reader.flatten)
    (fits : frame.length ≤ maxStratumFrameBytes) :
    if (frame ++ reader.flatten).length > maxStratumFrameBytes
    then (readFrame frame reader).1 = .error oversized
    else readFrame frame reader = (atEnd (frame ++ reader.flatten), []) := by
  induction reader generalizing frame with
  | nil =>
    rw [List.flatten_nil, List.append_nil, if_neg (by omega)]
    rfl
  | cons available later ih =>
    have filled := nonempty available List.mem_cons_self
    rw [List.flatten_cons] at unterminated
    have here : lineFeed ∉ available := fun member =>
      unterminated (List.mem_append_left _ member)
    rw [read_frame_grows frame available later filled here, List.flatten_cons,
      ← List.append_assoc]
    by_cases beyond : frame.length + available.length > maxStratumFrameBytes
    · rw [if_pos beyond, if_pos (by simp only [List.length_append]; omega)]
    · rw [if_neg beyond]
      exact ih (frame ++ available)
        (fun piece member => nonempty piece (List.mem_cons_of_mem _ member))
        (fun member => unterminated (List.mem_append_right _ member))
        (by rw [List.length_append]; omega)

/-! ## All calls -/

/-- A failed call is the last one. -/
theorem read_frames_fails (calls : Nat) (reader : Reader) (error : ReadError)
    (failed : (readFrame [] reader).1 = .error error) :
    readFrames (calls + 1) reader = [.error error] := by
  rw [readFrames]
  split
  · rename_i returned
    rw [returned] at failed
    cases failed
  · rename_i returned
    rw [returned] at failed
    rw [← failed]

/-- At the end of the stream one more call says so. -/
theorem read_frames_end (calls : Nat) :
    readFrames calls [] = ([.ok none] : List Outcome).take calls := by
  cases calls with
  | zero => rfl
  | succ calls => rw [List.take_succ_cons, List.take_nil, readFrames, readFrame, atEnd]; rfl

/-- The calls on a stream without newlines. -/
theorem read_frames_tail (calls : Nat) (reader : Reader)
    (nonempty : ∀ piece ∈ reader, piece ≠ []) (unterminated : lineFeed ∉ reader.flatten) :
    readFrames (calls + 1) reader =
      (untilError (tailOutcomes reader.flatten)).take (calls + 1) := by
  have call := read_frame_tail reader [] nonempty unterminated (Nat.zero_le _)
  rw [List.nil_append] at call
  split at call
  · rename_i long
    have some_left : reader.flatten ≠ [] := fun empty => by
      rw [empty, List.length_nil] at long
      exact Nat.not_lt_zero _ long
    rw [read_frames_fails calls reader _ call, tailOutcomes, if_neg some_left, if_pos long,
      untilError, List.take_succ_cons, List.take_nil]
  · rename_i short
    rw [readFrames, call, tailOutcomes, if_neg short]
    by_cases empty : reader.flatten = []
    · simp [empty, atEnd, untilError]
    · simp [empty, atEnd, untilError, read_frames_end]

/-- The calls return the outcomes of the stream, as many as there are calls. -/
theorem read_frames_take (calls : Nat) (reader : Reader)
    (nonempty : ∀ piece ∈ reader, piece ≠ []) :
    readFrames calls reader = (frameSpec reader.flatten).take calls := by
  induction calls generalizing reader with
  | zero => rfl
  | succ calls ih =>
    by_cases newline : lineFeed ∈ reader.flatten
    · obtain ⟨line, tail, stream, whole⟩ := List.eq_append_cons_of_mem newline
      have call := read_frame_line reader [] line tail nonempty whole stream
      rw [List.nil_append] at call
      rw [stream, frame_spec_line line tail whole]
      split at call
      · rename_i long
        rw [if_pos long, read_frames_fails calls reader _ call, List.take_succ_cons,
          List.take_nil]
      · rename_i short
        obtain ⟨rest, returned, left, rest_nonempty⟩ := call
        rw [if_neg short, readFrames, returned, List.take_succ_cons, ← left,
          ← ih rest rest_nonempty]
    · rw [frame_spec_tail _ newline]
      exact read_frames_tail calls reader nonempty newline

/-- Each outcome but the last takes at least one byte of the stream. -/
theorem frame_spec_length (bytes : Nat) (stream : List UInt8) (bound : stream.length ≤ bytes) :
    (frameSpec stream).length ≤ bytes + 1 := by
  induction bytes generalizing stream with
  | zero =>
    rw [List.length_eq_zero_iff.mp (Nat.le_zero.mp bound)]
    exact Nat.le_refl _
  | succ bytes ih =>
    by_cases newline : lineFeed ∈ stream
    · obtain ⟨line, tail, rfl, whole⟩ := List.eq_append_cons_of_mem newline
      rw [frame_spec_line line tail whole]
      split
      · exact Nat.le_add_left 1 (bytes + 1)
      · rw [List.length_append, List.length_cons] at bound
        rw [List.length_cons]
        exact Nat.succ_le_succ (ih tail (by omega))
    · rw [frame_spec_tail stream newline, tailOutcomes]
      split
      · exact Nat.le_add_left 1 (bytes + 1)
      · split
        · exact Nat.le_add_left 1 (bytes + 1)
        · exact Nat.add_le_add_right (Nat.le_add_left 1 bytes) 1

/-- However a stream is cut into pieces, the calls return its lines, its unterminated tail and
    its end, or an error in place of the first line beyond the limit. What a line says, and
    whether it is a frame at all, is not read here. -/
theorem framing_independent (stream : List UInt8) (pieces : List (List UInt8))
    (cut : pieces.flatten = stream) (nonempty : ∀ piece ∈ pieces, piece ≠ []) :
    (∀ calls, readFrames calls pieces = (frameSpec stream).take calls) ∧
      ∀ calls, stream.length < calls → readFrames calls pieces = frameSpec stream := by
  have outcomes : ∀ calls, readFrames calls pieces = (frameSpec stream).take calls := by
    intro calls
    rw [← cut]
    exact read_frames_take calls pieces nonempty
  refine ⟨outcomes, fun calls enough => ?_⟩
  have length := frame_spec_length stream.length stream (Nat.le_refl _)
  rw [outcomes calls, List.take_of_length_le (by omega)]

/-- A carriage return and its newline may come in different pieces. -/
theorem split_line_break_read :
    readFrames 4 [[120, 13], [10, 10], [121]] =
      [.ok (some [120]), .ok (some []), .ok (some [121]), .ok none] :=
  ((framing_independent [120, 13, 10, 10, 121] [[120, 13], [10, 10], [121]] rfl
    (by decide)).1 4).trans (by decide)

end CuckatooMiner.StratumFraming
