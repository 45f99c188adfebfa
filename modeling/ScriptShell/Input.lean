import ScriptShell.Text.Utf8

namespace ScriptShell

structure Input where
  /-- What the stream will deliver, piece by piece. -/
  chunks : List (List UInt8)
  /-- Why reading past the last byte fails, if it does. -/
  broken : Option String
  deriving DecidableEq, Repr

namespace Input

/-- Cuts bytes into pieces of at most so many. -/
def cut (size : Nat) (bytes : List UInt8) : List (List UInt8) :=
  if bytes = [] then []
  else bytes.take (max 1 size) :: cut size (bytes.drop (max 1 size))
termination_by bytes.length
decreasing_by
  have := List.length_pos_iff.mpr ‹bytes ≠ []›
  simp only [List.length_drop]
  omega

def ofBytes (size : Nat) (bytes : List UInt8) : Input :=
  ⟨cut size bytes, none⟩

def bytes (i : Input) : List UInt8 :=
  i.chunks.flatten

def takeByte : List (List UInt8) → Option (UInt8 × List (List UInt8))
  | [] => none
  | [] :: rest => takeByte rest
  | (b :: more) :: rest => some (b, more :: rest)

def next (i : Input) : Except String (Option UInt8) × Input :=
  match takeByte i.chunks with
  | some (b, chunks) => (.ok (some b), { i with chunks })
  | none => ((i.broken.map .error).getD (.ok none), { i with chunks := [] })

def drain (i : Input) : Except String (List UInt8) × Input :=
  ((i.broken.map .error).getD (.ok i.bytes), { i with chunks := [] })

def newline : UInt8 := 10

def carriageReturn : UInt8 := 13

def lineFront : Nat → List UInt8 → List UInt8
  | 0, _ => []
  | _, [] => []
  | room + 1, b :: rest => if b = newline then [b] else b :: lineFront room rest

theorem lineFront_append_drop (room : Nat) (bytes : List UInt8) :
    lineFront room bytes ++ bytes.drop (lineFront room bytes).length = bytes := by
  induction bytes generalizing room with
  | nil => cases room <;> rfl
  | cons b rest ih =>
    cases room with
    | zero => rfl
    | succ room =>
      by_cases hb : b = newline
      · simp [lineFront, hb]
      · simpa [lineFront, hb] using ih room

/-- Takes a line of at most `room` more bytes off the pieces of a stream; also tells whether
the stream ran out first. -/
def takeLine (room : Nat) : List (List UInt8) → List UInt8 × Bool × List (List UInt8)
  | [] => ([], true, [])
  | chunk :: rest =>
    let taken := lineFront room chunk
    let left := chunk.drop taken.length
    if taken.getLast? = some newline || taken.length = room then
      (taken, false, if left.isEmpty then rest else left :: rest)
    else
      let (more, ended, chunks) := takeLine (room - taken.length) rest
      (taken ++ more, ended, chunks)

theorem lineFront_eq_self {room : Nat} {bytes : List UInt8}
    (hlast : (lineFront room bytes).getLast? ≠ some newline)
    (hroom : (lineFront room bytes).length ≠ room) : lineFront room bytes = bytes := by
  induction bytes generalizing room with
  | nil => cases room <;> rfl
  | cons b rest ih =>
    cases room with
    | zero => simp [lineFront] at hroom
    | succ room =>
      by_cases hb : b = newline
      · simp [lineFront, hb] at hlast
      · simp only [lineFront, hb, if_false, List.length_cons, ne_eq, Nat.add_right_cancel_iff]
          at hlast hroom ⊢
        rw [ih (fun h => hlast (by simp [List.getLast?_cons, h])) hroom]

theorem takeLine_append_flatten (room : Nat) (chunks : List (List UInt8)) :
    (takeLine room chunks).1 ++ (takeLine room chunks).2.2.flatten = chunks.flatten := by
  induction chunks generalizing room with
  | nil => rfl
  | cons chunk rest ih =>
    have hfront := lineFront_append_drop room chunk
    simp only [takeLine]
    split
    · split
      · next hleft =>
        rw [List.isEmpty_iff.mp hleft, List.append_nil] at hfront
        simp [hfront]
      · simp [← List.append_assoc, hfront]
    · next h =>
      simp only [Bool.or_eq_true, decide_eq_true_eq, not_or] at h
      rw [List.append_assoc, ih, lineFront_eq_self h.1 h.2, List.flatten_cons]

/-- How much of a line fits a buffer, whose last byte stays free. -/
def lineRoom (size : Nat) : Nat :=
  max 1 (size - 1)

/-- Reads up to the next line break, or as much as fits the buffer; nothing at the end. A line
that is cut short by a failure is lost. -/
def readLine (size : Nat) (i : Input) : Except String (Option (List UInt8)) × Input :=
  let (line, ended, chunks) := takeLine (lineRoom size) i.chunks
  let rest := { i with chunks }
  match ended, i.broken with
  | true, some message => (.error message, rest)
  | _, _ => (.ok (if line.isEmpty then none else some line), rest)

theorem length_bytes_readLine {size : Nat} {i rest : Input} {line : List UInt8}
    (h : i.readLine size = (.ok (some line), rest)) : rest.bytes.length < i.bytes.length := by
  have hall := congrArg List.length (takeLine_append_flatten (lineRoom size) i.chunks)
  simp only [readLine] at h
  split at h
  · simp at h
  · obtain ⟨hline, rfl⟩ := Prod.mk.inj h
    split at hline
    · simp at hline
    · next hempty =>
      have := List.length_pos_iff.mpr (mt List.isEmpty_iff.mpr hempty)
      rw [List.length_append] at hall
      exact Nat.lt_of_lt_of_eq (Nat.lt_add_of_pos_left this) hall

/-- All lines up to the end of the stream or to its failure. -/
def lines (size : Nat) (i : Input) : List (List UInt8) :=
  match _h : i.readLine size with
  | (.ok (some line), rest) => line :: lines size rest
  | _ => []
termination_by i.bytes.length
decreasing_by exact length_bytes_readLine ‹_›

end Input

/-- A stream with one byte pushed back in front of it. -/
structure SourceReader where
  input : Input
  pushed : Option UInt8
  deriving DecidableEq, Repr

namespace SourceReader

def ofInput (input : Input) : SourceReader :=
  ⟨input, none⟩

def next (r : SourceReader) : Except String (Option UInt8) × SourceReader :=
  match r.pushed with
  | some b => (.ok (some b), { r with pushed := none })
  | none =>
    let (result, input) := r.input.next
    (result, { r with input })

def unread (r : SourceReader) (b : UInt8) : SourceReader :=
  { r with pushed := some b }

def size (r : SourceReader) : Nat :=
  r.input.bytes.length + (r.pushed.toList).length

/-- Drops bytes up to the end of the line, at most so many. -/
def skipLine : Nat → SourceReader → Except String Unit × SourceReader
  | 0, r => (.ok (), r)
  | n + 1, r =>
    match r.next with
    | (.ok (some b), r) =>
      if b = Input.newline || b = Input.carriageReturn then (.ok (), r.unread b)
      else skipLine n r
    | (.ok none, r) => (.ok (), r)
    | (.error e, r) => (.error e, r)

/-- Drops a first line that begins with `#`, up to its end. -/
def skipShebang (r : SourceReader) : Except String Unit × SourceReader :=
  match r.next with
  | (.ok (some b), r) =>
    if b = 35 then skipLine (r.size + 1) r else (.ok (), r.unread b)
  | (.ok none, r) => (.ok (), r)
  | (.error e, r) => (.error e, r)

def rest (r : SourceReader) : Except String String × SourceReader :=
  let (result, input) := r.input.drain
  (result.map fun bytes => Text.readUtf8 (r.pushed.toList ++ bytes), ⟨input, none⟩)

end SourceReader

end ScriptShell
