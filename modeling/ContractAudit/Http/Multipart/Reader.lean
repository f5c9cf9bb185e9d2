import ContractAudit.Http.Multipart.Delimiter
import ContractAudit.Http.Multipart.Part
import ContractAudit.Number

/-!
# Reading a form in parts

The octets of a form arrive in blocks. What has arrived waits until it is read: the text before the
first delimiter, then for each part its headers up to a blank line, and its content up to the next
delimiter. Three things are limited: the octets that wait, the octets of a value, and the parts.
-/

namespace ContractAudit.Http.Multipart

/-- The limits of a form. -/
structure Limits where
  /-- Octets that wait to be read, and octets of a value. -/
  octets : Option Number
  parts : Option Number

/-- Whether a number is beyond a limit, if there is one. -/
def exceeds (limit : Option Number) (n : Nat) : Bool :=
  limit.any fun limit => limit.lt (.int n)

/-- Why octets give no form. -/
inductive Fault where
  | malformed
  | tooLarge
deriving DecidableEq, Repr

/-- A part whose content is being read. -/
structure Draft where
  label : Label
  /-- The content so far, the last piece first. -/
  pieces : List (List UInt8)
  size : Nat

/-- The part with another piece of content; a value has a limit. -/
def Draft.add (limits : Limits) (draft : Draft) (piece : List UInt8) : Except Fault Draft :=
  let size := draft.size + piece.length
  if draft.label.fileName.isNone && exceeds limits.octets size then .error .tooLarge
  else .ok { draft with pieces := piece :: draft.pieces, size := size }

/-- The part that has been read. -/
def Draft.part? (draft : Draft) : Option Part :=
  draft.label.part? draft.pieces.reverse.flatten

/-- Where the reader stands. -/
inductive Place where
  /-- Before the first delimiter. -/
  | preamble
  | headers
  /-- In a content; at its start its own line break is still to come. -/
  | content (draft : Draft) (atStart : Bool)
  /-- Behind the closing delimiter. -/
  | closed

/-- A reader of a form. -/
structure Reader where
  place : Place
  /-- The octets that have arrived and wait to be read. -/
  waiting : List UInt8
  /-- How many parts have begun. -/
  begun : Nat
  /-- The parts that have been read, the last first. -/
  done : List Part

namespace Reader

/-- The reader at the start of a form. -/
def start : Reader := ⟨.preamble, [], 0, []⟩

/-- What comes of reading on: octets have been read, or more of them have to arrive. -/
inductive Progress where
  | read (next : Reader)
  | waits (reader : Reader)

/-- The reader behind a delimiter. -/
def behind (reader : Reader) (closes : Bool) (rest : List UInt8) : Reader :=
  { reader with place := if closes then .closed else .headers, waiting := rest }

/-- The reader behind the headers of a part. -/
def beginPart (limits : Limits) (reader : Reader) (headers rest : List UInt8) :
    Except Fault Reader :=
  match Label.ofOctets? headers with
  | none => .error .malformed
  | some label =>
    let begun := reader.begun + 1
    if exceeds limits.parts begun then .error .tooLarge
    else .ok { reader with
      place := .content ⟨label, [], 0⟩ true
      waiting := rest
      begun := begun }

theorem waiting_beginPart {limits : Limits} {reader next : Reader} {headers rest : List UInt8}
    (h : reader.beginPart limits headers rest = .ok next) : next.waiting = rest := by
  unfold beginPart at h
  split at h
  · simp at h
  · dsimp only at h
    split at h
    · simp at h
    · exact Except.ok.inj h ▸ rfl

/-- The reader with the part that it has read. -/
def finishPart (reader : Reader) (draft : Draft) : Reader :=
  match draft.part? with
  | some part => { reader with done := part :: reader.done }
  | none => reader

/-- How many of the octets at the end may belong to a delimiter that has not arrived in full. -/
def unsettled (boundary waiting : List UInt8) : Nat :=
  -- what stands behind the last line break, and the break itself
  let line := waiting.reverse.takeWhile fun b => b != cr && b != lf
  let length := match waiting.reverse.drop line.length with
    | a :: b :: _ => line.length + (if a = lf ∧ b = cr then 2 else 1)
    | _ :: _ => line.length + 1
    | [] => 0
  let isMarked := (find (fun s => (afterOctets? (mark boundary) s).map ((), ·)) waiting).isSome
  if isMarked || length ≤ (mark boundary).length + 2 then length else 0

/-- The content of a draft read on as far as it is certain. -/
def readContent (limits : Limits) (boundary : List UInt8) (reader : Reader) (draft : Draft)
    (atStart : Bool) : Except Fault Progress :=
  let lead := if atStart then
      reader.waiting.length - ((afterBreak? reader.waiting).getD reader.waiting).length
    else 0
  match find (brokenDelimiter? boundary) reader.waiting with
  | some found =>
    (draft.add limits (found.before.drop lead)).map fun draft =>
      .read ((reader.finishPart draft).behind found.value found.rest)
  | none =>
    let settled := max lead (reader.waiting.length - unsettled boundary reader.waiting)
    (draft.add limits ((reader.waiting.take settled).drop lead)).map fun draft =>
      .waits { reader with
        place := .content draft false
        waiting := reader.waiting.drop settled }

/-- The reader after the next thing that has arrived in full. -/
def readOne (limits : Limits) (boundary : List UInt8) (reader : Reader) : Except Fault Progress :=
  match reader.place with
  | .preamble =>
    match find (delimiter? boundary) reader.waiting with
    | some found => .ok (.read (reader.behind found.value found.rest))
    | none => .ok (.waits reader)
  | .headers =>
    match find blankLine? reader.waiting with
    | some found => (reader.beginPart limits found.before found.rest).map .read
    | none => .ok (.waits reader)
  | .content draft atStart => reader.readContent limits boundary draft atStart
  | .closed => .ok (.waits reader)

/-- Reading takes octets. -/
theorem length_waiting_lt_of_readOne {limits : Limits} {boundary : List UInt8}
    {reader next : Reader} (h : reader.readOne limits boundary = .ok (.read next)) :
    next.waiting.length < reader.waiting.length := by
  unfold readOne at h
  split at h
  · split at h
    · next found hf =>
      injection h with h
      injection h with h
      exact h ▸ length_lt_of_findFrom length_lt_of_delimiter hf
    · injection h with h
      injection h
  · split at h
    · next found hf =>
      cases hb : reader.beginPart limits found.before found.rest with
      | error fault => simp [hb, Except.map] at h
      | ok begun =>
        simp only [hb, Except.map, Except.ok.injEq, Progress.read.injEq] at h
        rw [← h, waiting_beginPart hb]
        exact length_lt_of_findFrom length_lt_of_blankLine hf
    · injection h with h
      injection h
  · next draft atStart _ =>
    unfold readContent at h
    dsimp only at h
    split at h
    · next found hf =>
      generalize draft.add limits _ = added at h
      cases added with
      | error fault => simp [Except.map] at h
      | ok draft =>
        simp only [Except.map, Except.ok.injEq, Progress.read.injEq] at h
        exact h ▸ length_lt_of_findFrom length_lt_of_brokenDelimiter hf
    · generalize draft.add limits _ = added at h
      cases added <;> simp [Except.map] at h
  · injection h with h
    injection h

/-- The reader after all that has arrived in full. -/
def readAll (limits : Limits) (boundary : List UInt8) (reader : Reader) : Except Fault Reader :=
  match _ : reader.readOne limits boundary with
  | .ok (.read next) => next.readAll limits boundary
  | .ok (.waits reader) => .ok reader
  | .error fault => .error fault
termination_by reader.waiting.length
decreasing_by exact length_waiting_lt_of_readOne ‹_›

/-- The reader after another block. -/
def feed (limits : Limits) (boundary : List UInt8) (reader : Reader) (block : List UInt8) :
    Except Fault Reader :=
  let waiting := reader.waiting ++ block
  if exceeds limits.octets waiting.length then .error .tooLarge
  else { reader with waiting := waiting }.readAll limits boundary

/-- The parts, if the form is closed. -/
def finish (reader : Reader) : Except Fault (List Part) :=
  match reader.place with
  | .closed => .ok reader.done.reverse
  | _ => .error .malformed

end Reader

/-- The octets of a block. -/
def blockSize : Nat := 64 * 1024

/-- The parts of octets that arrive at a reader. -/
def readFrom (limits : Limits) (boundary : List UInt8) (reader : Reader) (octets : List UInt8) :
    Except Fault (List Part) :=
  if octets.isEmpty then reader.finish
  else
    match reader.feed limits boundary (octets.take blockSize) with
    | .ok reader => readFrom limits boundary reader (octets.drop blockSize)
    | .error fault => .error fault
termination_by octets.length
decreasing_by
  rw [List.length_drop]
  exact Nat.sub_lt (List.length_pos_iff.2 (by simp_all)) (by decide)

/-- The parts of a form between which the boundary stands; it must be ASCII text. -/
def read (limits : Limits) (boundary : List Char) (octets : List UInt8) :
    Except Fault (List Part) :=
  if boundary.isEmpty || boundary.any (0x80 ≤ ·.toNat) then .error .malformed
  else readFrom limits (Text.Utf8.encode boundary) .start octets

end ContractAudit.Http.Multipart
