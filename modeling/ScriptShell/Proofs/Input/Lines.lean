import ScriptShell.Input

namespace ScriptShell.Input

def consFirst (b : UInt8) : List (List UInt8) → List (List UInt8)
  | [] => [[b]]
  | piece :: others => (b :: piece) :: others

/-- Bytes cut behind every line break. -/
def splitLines : List UInt8 → List (List UInt8)
  | [] => []
  | b :: rest => if b = newline then [b] :: splitLines rest else consFirst b (splitLines rest)

def cutFrom (extra left : Nat) : List UInt8 → List (List UInt8)
  | [] => []
  | b :: rest =>
    if b = newline ∨ left = 0 then [b] :: cutFrom extra extra rest
    else consFirst b (cutFrom extra (left - 1) rest)

def pieces (room : Nat) : List UInt8 → List (List UInt8) :=
  cutFrom (room - 1) (room - 1)

def isFull (room : Nat) (piece : List UInt8) : Bool :=
  piece.getLast? = some newline || piece.length = room

theorem flatten_consFirst (b : UInt8) (ps : List (List UInt8)) :
    (consFirst b ps).flatten = b :: ps.flatten := by
  cases ps <;> rfl

theorem flatten_splitLines (bytes : List UInt8) : (splitLines bytes).flatten = bytes := by
  induction bytes with
  | nil => rfl
  | cons b rest ih =>
    unfold splitLines
    split
    · rw [List.flatten_cons, ih, List.singleton_append]
    · rw [flatten_consFirst, ih]

theorem lineFront_ne_nil {room : Nat} {bytes : List UInt8} (hroom : 0 < room)
    (hbytes : bytes ≠ []) : lineFront room bytes ≠ [] := by
  obtain ⟨room, rfl⟩ := Nat.exists_eq_add_one.mpr hroom
  cases bytes with
  | nil => exact absurd rfl hbytes
  | cons b rest =>
    unfold lineFront
    split <;> exact List.cons_ne_nil _ _

theorem lineFront_nil (room : Nat) : lineFront room [] = [] := by
  cases room <;> rfl

theorem length_drop_lineFront_lt {room : Nat} {bytes : List UInt8} (hroom : 0 < room)
    (hbytes : bytes ≠ []) :
    (bytes.drop (lineFront room bytes).length).length < bytes.length := by
  have hline := List.length_pos_iff.mpr (lineFront_ne_nil hroom hbytes)
  have hpos := List.length_pos_iff.mpr hbytes
  rw [List.length_drop]
  omega

theorem length_lineFront_le (room : Nat) (bytes : List UInt8) :
    (lineFront room bytes).length ≤ room := by
  induction bytes generalizing room with
  | nil => cases room <;> exact Nat.zero_le _
  | cons b rest ih =>
    cases room with
    | zero => exact Nat.zero_le _
    | succ room =>
      unfold lineFront
      split
      · exact Nat.succ_le_succ (Nat.zero_le room)
      · exact Nat.succ_le_succ (ih room)

theorem cutFrom_eq_cons (extra left : Nat) (bytes : List UInt8) (h : bytes ≠ []) :
    cutFrom extra left bytes = lineFront (left + 1) bytes ::
      cutFrom extra extra (bytes.drop (lineFront (left + 1) bytes).length) := by
  induction bytes generalizing left with
  | nil => exact absurd rfl h
  | cons b rest ih =>
    rw [cutFrom, lineFront]
    by_cases hb : b = newline
    · simp [hb]
    · cases left with
      | zero => cases rest <;> simp [hb, lineFront]
      | succ left =>
        cases rest with
        | nil => simp [hb, lineFront, cutFrom, consFirst]
        | cons c more => simp [hb, ih left (List.cons_ne_nil c more), consFirst]

theorem pieces_eq_cons {room : Nat} {bytes : List UInt8} (hroom : 0 < room) (h : bytes ≠ []) :
    pieces room bytes =
      lineFront room bytes :: pieces room (bytes.drop (lineFront room bytes).length) := by
  have := cutFrom_eq_cons (room - 1) (room - 1) bytes h
  rwa [Nat.sub_add_cancel hroom] at this

theorem isFull_cons {b : UInt8} (room : Nat) (piece : List UInt8) (hb : b ≠ newline) :
    isFull (room + 1) (b :: piece) = isFull room piece := by
  cases piece with
  | nil => simp [isFull, hb, eq_comm]
  | cons c more => simp [isFull, List.getLast?_cons]

theorem lineFront_of_not_isFull {room : Nat} {bytes : List UInt8}
    (h : isFull room (lineFront room bytes) = false) : lineFront room bytes = bytes := by
  simp only [isFull, Bool.or_eq_false_iff, decide_eq_false_iff_not] at h
  exact lineFront_eq_self h.1 h.2

theorem ne_nil_of_isFull {room : Nat} {piece : List UInt8} (hroom : 0 < room)
    (h : isFull room piece = true) : piece ≠ [] := by
  rintro rfl
  simp [isFull] at h
  omega

theorem isFull_nil {room : Nat} (hroom : 0 < room) : isFull room [] = false :=
  Bool.eq_false_iff.mpr fun h => ne_nil_of_isFull hroom h rfl

theorem lineFront_append_of_isFull {room : Nat} {bytes : List UInt8} (rest : List UInt8)
    (h : isFull room (lineFront room bytes) = true) :
    lineFront room (bytes ++ rest) = lineFront room bytes := by
  induction bytes generalizing room with
  | nil => cases room <;> simp [lineFront, isFull] at h ⊢
  | cons b more ih =>
    cases room with
    | zero => rfl
    | succ room =>
      by_cases hb : b = newline
      · simp [lineFront, hb]
      · simp only [lineFront, hb, if_false, isFull_cons room _ hb, List.cons_append] at h ⊢
        rw [ih h]

theorem lineFront_append_of_not_isFull {room : Nat} {bytes : List UInt8} (rest : List UInt8)
    (h : isFull room (lineFront room bytes) = false) :
    lineFront room (bytes ++ rest) = bytes ++ lineFront (room - bytes.length) rest := by
  induction bytes generalizing room with
  | nil => rfl
  | cons b more ih =>
    cases room with
    | zero => simp [lineFront, isFull] at h
    | succ room =>
      by_cases hb : b = newline
      · simp [lineFront, hb, isFull] at h
      · simp only [lineFront, hb, if_false, isFull_cons room _ hb, List.cons_append] at h ⊢
        rw [ih h, List.length_cons, Nat.add_sub_add_right]

theorem isFull_append {room : Nat} {front piece : List UInt8}
    (h : isFull room front = false) (hroom : front.length ≤ room) :
    isFull room (front ++ piece) = isFull (room - front.length) piece := by
  simp only [isFull, Bool.or_eq_false_iff, decide_eq_false_iff_not] at h
  cases piece with
  | nil =>
    have : room - front.length ≠ 0 := by omega
    simp [isFull, h, this.symm]
  | cons b more =>
    have : front.length + (more.length + 1) = room ↔ more.length + 1 = room - front.length := by
      omega
    simp [isFull, this]

/-- A line is taken off the front of all bytes, wherever these are cut into chunks; the stream
runs out if nothing says that the line is at its end. -/
theorem takeLine_eq (room : Nat) (chunks : List (List UInt8)) (hroom : 0 < room) :
    (takeLine room chunks).1 = lineFront room chunks.flatten ∧
      (takeLine room chunks).2.1 = !isFull room (lineFront room chunks.flatten) := by
  induction chunks generalizing room with
  | nil =>
    have : (0 : Nat) ≠ room := Nat.ne_of_lt hroom
    cases room <;> simp [takeLine, lineFront, isFull] at this ⊢
  | cons chunk rest ih =>
    rw [takeLine, List.flatten_cons]
    split
    · next hfull => 
      have hfull : isFull room (lineFront room chunk) = true := by simpa [isFull] using hfull
      rw [lineFront_append_of_isFull _ hfull]
      exact ⟨rfl, by simp [hfull]⟩
    · next hfull =>
      have hfull : isFull room (lineFront room chunk) = false := by simpa [isFull] using hfull
      have hself := lineFront_of_not_isFull hfull
      have hlength := length_lineFront_le room chunk
      rw [hself] at hfull hlength ⊢
      have hne : chunk.length ≠ room := by
        simp only [isFull, Bool.or_eq_false_iff, decide_eq_false_iff_not] at hfull
        exact hfull.2
      obtain ⟨hline, hended⟩ := ih (room - chunk.length) (by omega)
      rw [lineFront_append_of_not_isFull _ (by rwa [hself]), isFull_append hfull hlength]
      exact ⟨by rw [← hline], hended⟩

theorem flatten_takeLine (room : Nat) (chunks : List (List UInt8)) (hroom : 0 < room) :
    (takeLine room chunks).2.2.flatten =
      chunks.flatten.drop (lineFront room chunks.flatten).length := by
  have h := takeLine_append_flatten room chunks
  rw [(takeLine_eq room chunks hroom).1] at h
  have h := congrArg (List.drop (lineFront room chunks.flatten).length) h
  rwa [List.drop_left] at h

theorem lineRoom_pos (size : Nat) : 0 < lineRoom size :=
  Nat.lt_of_lt_of_le Nat.zero_lt_one (Nat.le_max_left 1 (size - 1))

theorem readLine_eq (size : Nat) (i : Input) (line : List UInt8)
    (hline : lineFront (lineRoom size) i.bytes = line) : ∃ rest : Input,
    rest.broken = i.broken ∧ rest.bytes = i.bytes.drop line.length ∧
      i.readLine size =
        (if isFull (lineRoom size) line then .ok (some line)
          else (i.broken.map .error).getD (.ok (if line.isEmpty then none else some line)),
          rest) := by
  obtain ⟨hfront, hended⟩ := takeLine_eq (lineRoom size) i.chunks (lineRoom_pos size)
  have hrest := flatten_takeLine (lineRoom size) i.chunks (lineRoom_pos size)
  rw [← bytes, hline] at hfront hended hrest
  refine ⟨{ i with chunks := (takeLine (lineRoom size) i.chunks).2.2 }, rfl, hrest, ?_⟩
  cases hfull : isFull (lineRoom size) line with
  | false => cases hbroken : i.broken <;> simp [readLine, hfront, hended, hfull, hbroken]
  | true =>
    have hne : line ≠ [] := ne_nil_of_isFull (lineRoom_pos size) hfull
    simp [readLine, hfront, hended, hfull, hne]

/-- What is read through a buffer are the pieces of all bytes. If reading past the last byte
fails, a last piece that is not at its end is lost. -/
theorem lines_eq (size : Nat) (i : Input) :
    i.lines size =
      if i.broken.isSome then (pieces (lineRoom size) i.bytes).filter (isFull (lineRoom size))
      else pieces (lineRoom size) i.bytes := by
  -- By the number of bytes left: a line that was read is not empty unless there are none.
  induction hn : i.bytes.length using Nat.strongRecOn generalizing i with
  | ind n ih =>
    obtain ⟨rest, hbroken, hbytes, hread⟩ := readLine_eq size i _ rfl
    rw [lines, hread]
    have hpos := lineRoom_pos size
    by_cases hempty : i.bytes = []
    · rw [hempty, lineFront_nil, isFull_nil hpos]
      cases i.broken <;> simp [pieces, cutFrom]
    · have hshorter := length_drop_lineFront_lt hpos hempty
      rw [pieces_eq_cons hpos hempty]
      have hlater := ih rest.bytes.length (by rwa [← hn, hbytes]) rest rfl
      rw [hbroken, hbytes] at hlater
      cases hfull : isFull (lineRoom size) (lineFront (lineRoom size) i.bytes) with
      | true =>
        rw [List.filter_cons_of_pos hfull, if_pos rfl]
        dsimp only
        rw [hlater]
        split <;> rfl
      | false =>
        -- The line is all that is left.
        rw [lineFront_of_not_isFull hfull, List.drop_length] at hlater ⊢
        rw [List.filter_cons_of_neg (by rw [← lineFront_of_not_isFull hfull, hfull]; decide)]
        have hsome : i.bytes.isEmpty = false := List.isEmpty_eq_false_iff.mpr hempty
        rw [hsome]
        cases hb : i.broken <;> simp [hb, pieces, cutFrom] at hlater ⊢
        exact hlater

theorem bytes_of_readLine_some {size : Nat} {i rest : Input} {line : List UInt8}
    (h : i.readLine size = (.ok (some line), rest)) :
    line ++ rest.bytes = i.bytes ∧ rest.broken = i.broken := by
  obtain ⟨rest', hbroken, hbytes, hread⟩ := readLine_eq size i _ rfl
  obtain ⟨hline, rfl⟩ := Prod.mk.inj (hread.symm.trans h)
  have hfront : lineFront (lineRoom size) i.bytes = line := by
    split at hline
    · simpa using hline
    · cases hb : i.broken <;> rw [hb] at hline
      · split at hline <;> simp_all
      · cases hline
  rw [hbytes, hfront]
  exact ⟨hfront ▸ lineFront_append_drop _ _, hbroken⟩

theorem bytes_of_readLine_none {size : Nat} {i rest : Input}
    (h : i.readLine size = (.ok none, rest)) : i.bytes = [] ∧ rest.bytes = [] := by
  obtain ⟨rest', -, hbytes, hread⟩ := readLine_eq size i _ rfl
  obtain ⟨hline, rfl⟩ := Prod.mk.inj (hread.symm.trans h)
  have hempty : i.bytes = [] := by
    refine Decidable.byContradiction fun hne => ?_
    have hfront := List.isEmpty_eq_false_iff.mpr (lineFront_ne_nil (lineRoom_pos size) hne)
    rw [hfront] at hline
    split at hline
    · cases hline
    · cases hb : i.broken <;> rw [hb] at hline <;> cases hline
  rw [hbytes, hempty, List.drop_nil]
  exact ⟨rfl, rfl⟩

theorem readLine_of_lines_cons {size : Nat} {i : Input} {line : List UInt8}
    {later : List (List UInt8)} (h : i.lines size = line :: later) :
    ∃ rest, i.readLine size = (.ok (some line), rest) ∧ rest.lines size = later := by
  rw [lines] at h
  split at h
  · next line' rest hread =>
    obtain ⟨rfl, rfl⟩ := List.cons.inj h
    exact ⟨rest, hread, rfl⟩
  · cases h

theorem ne_nil_of_readLine {size : Nat} {i rest : Input} {line : List UInt8}
    (h : i.readLine size = (.ok (some line), rest)) : line ≠ [] := by
  rintro rfl
  have hshorter := length_bytes_readLine h
  rw [← (bytes_of_readLine_some h).1] at hshorter
  exact Nat.lt_irrefl _ hshorter

theorem ne_nil_of_mem_lines {size : Nat} {i : Input} {line : List UInt8}
    (h : line ∈ i.lines size) : line ≠ [] := by
  induction hlines : i.lines size generalizing i with
  | nil => exact absurd (hlines ▸ h) List.not_mem_nil
  | cons first later ih =>
    obtain ⟨rest, hread, hlater⟩ := readLine_of_lines_cons hlines
    rw [hlines] at h
    rcases List.mem_cons.mp h with rfl | hmem
    · exact ne_nil_of_readLine hread
    · exact ih (hlater ▸ hmem) hlater

theorem readLine_of_not_broken {i : Input} (size : Nat) (hbroken : i.broken = none) :
    ∃ line rest, i.readLine size = (.ok line, rest) := by
  obtain ⟨rest, -, -, hread⟩ := readLine_eq size i _ rfl
  rw [hbroken] at hread
  split at hread <;> exact ⟨_, _, hread⟩

/-- A stream of which every line fits a buffer of some size. What breaks off at its end is
shorter than the buffer: a line that fills it would be read all the same. -/
def Fits (size : Nat) (i : Input) : Prop :=
  ∀ line ∈ splitLines i.bytes, line.length ≤ lineRoom size ∧
    (i.broken.isSome → line.getLast? ≠ some newline → line.length < lineRoom size)

instance (size : Nat) (i : Input) : Decidable (i.Fits size) :=
  inferInstanceAs (Decidable (∀ line ∈ splitLines i.bytes, _))

/-- The lines of a stream, without one that breaks off. -/
def wholeLines (i : Input) : List (List UInt8) :=
  if i.broken.isSome then (splitLines i.bytes).filter (·.getLast? = some newline)
  else splitLines i.bytes

theorem Fits.mono {size size' : Nat} {i : Input} (h : i.Fits size) (hle : size ≤ size') :
    i.Fits size' := by
  have hroom : lineRoom size ≤ lineRoom size' := by
    unfold lineRoom
    omega
  intro line hline
  obtain ⟨hlength, hbroken⟩ := h line hline
  exact ⟨Nat.le_trans hlength hroom, fun h h' => Nat.lt_of_lt_of_le (hbroken h h') hroom⟩

theorem ne_nil_of_mem_splitLines {line bytes : List UInt8} (h : line ∈ splitLines bytes) :
    line ≠ [] := by
  induction bytes generalizing line with
  | nil => cases h
  | cons b rest ih =>
    rw [splitLines] at h
    split at h
    · rcases List.mem_cons.mp h with rfl | h
      · exact List.cons_ne_nil b []
      · exact ih h
    · cases hrest : splitLines rest with
      | nil =>
        rw [hrest, consFirst, List.mem_singleton] at h
        exact h ▸ List.cons_ne_nil b []
      | cons piece others =>
        rw [hrest, consFirst, List.mem_cons] at h
        rcases h with rfl | h
        · exact List.cons_ne_nil b piece
        · exact ih (hrest ▸ List.mem_cons_of_mem _ h)

/-- Where every line fits, bytes are cut behind line breaks only. -/
theorem cutFrom_eq_splitLines {extra left : Nat} {bytes : List UInt8}
    (hfirst : ∀ line ∈ (splitLines bytes).head?, line.length ≤ left + 1)
    (h : ∀ line ∈ (splitLines bytes).tail, line.length ≤ extra + 1) :
    cutFrom extra left bytes = splitLines bytes := by
  induction bytes generalizing left with
  | nil => rfl
  | cons b rest ih =>
    rw [cutFrom, splitLines]
    rw [splitLines] at hfirst h
    by_cases hb : b = newline
    · rw [if_pos hb] at h
      rw [if_pos (.inl hb), if_pos hb, ih]
      · exact fun line hline => h line (List.mem_of_mem_head? hline)
      · exact fun line hline => h line (List.mem_of_mem_tail hline)
    · rw [if_neg hb] at hfirst h ⊢
      cases hrest : splitLines rest with
      | nil =>
        have := flatten_splitLines rest
        rw [hrest] at this
        subst this
        cases left <;> simp [hb, cutFrom, consFirst]
      | cons piece others =>
        rw [hrest] at hfirst h ih
        have hpiece : 0 < piece.length := List.length_pos_iff.mpr <|
          ne_nil_of_mem_splitLines (hrest ▸ List.mem_cons_self)
        have hlength : (b :: piece).length ≤ left + 1 := hfirst _ rfl
        rw [List.length_cons] at hlength
        rw [if_neg (not_or.mpr ⟨hb, by omega⟩), ih ?_ h]
        rintro line ⟨⟩
        omega

theorem pieces_eq_splitLines {room : Nat} {bytes : List UInt8} (hroom : 0 < room)
    (h : ∀ line ∈ splitLines bytes, line.length ≤ room) : pieces room bytes = splitLines bytes := by
  have hroom : room - 1 + 1 = room := Nat.sub_add_cancel hroom
  refine cutFrom_eq_splitLines (fun line hline => ?_) fun line hline => ?_
  · exact hroom.symm ▸ h line (List.mem_of_mem_head? hline)
  · exact hroom.symm ▸ h line (List.mem_of_mem_tail hline)

theorem lines_of_fits {size : Nat} {i : Input} (h : i.Fits size) :
    i.lines size = i.wholeLines := by
  rw [lines_eq, pieces_eq_splitLines (lineRoom_pos size) fun line hline => (h line hline).1,
    wholeLines]
  split
  · next hbroken =>
    refine List.filter_congr fun line hline => ?_
    by_cases hlast : line.getLast? = some newline
    · simp [isFull, hlast]
    · have hshort := (h line hline).2 hbroken hlast
      simp [isFull, hlast, Nat.ne_of_lt hshort]
  · rfl

/-- Of the lines of some bytes only the last may lack its line break. -/
theorem getLast?_of_splitLines {bytes line : List UInt8} {front back : List (List UInt8)}
    (h : splitLines bytes = front ++ line :: back) (hback : back ≠ []) :
    line.getLast? = some newline := by
  induction bytes generalizing front line with
  | nil => cases front <;> cases h
  | cons b rest ih =>
    rw [splitLines] at h
    split at h
    · next hb =>
      cases front with
      | nil =>
        cases h
        rw [hb]
        rfl
      | cons first front => exact ih (List.cons.inj h).2
    · cases hrest : splitLines rest with
      | nil =>
        rw [hrest] at h
        cases front with
        | nil => exact absurd (List.cons.inj h).2.symm hback
        | cons first front => cases front <;> cases (List.cons.inj h).2
      | cons piece others =>
        rw [hrest] at h
        cases front with
        | nil =>
          obtain ⟨rfl, rfl⟩ := List.cons.inj h
          have hpiece : piece.getLast? = some newline := @ih piece [] hrest
          rw [List.getLast?_cons, hpiece]
          rfl
        | cons first front =>
          have hothers : others = front ++ line :: back := (List.cons.inj h).2
          exact @ih line (piece :: front) (hrest.trans (congrArg (piece :: ·) hothers))

/-- A line has one line break, if it ends in one. -/
theorem count_newline {bytes line : List UInt8} (h : line ∈ splitLines bytes) :
    line.count newline = if line.getLast? = some newline then 1 else 0 := by
  induction bytes generalizing line with
  | nil => cases h
  | cons b rest ih =>
    rw [splitLines] at h
    split at h
    · next hb =>
      rcases List.mem_cons.mp h with rfl | h
      · simp [hb]
      · exact ih h
    · next hb =>
      cases hrest : splitLines rest with
      | nil =>
        rw [hrest, consFirst, List.mem_singleton] at h
        simp [h, hb]
      | cons piece others =>
        have hpiece : piece ∈ splitLines rest := hrest ▸ List.mem_cons_self
        rw [hrest, consFirst, List.mem_cons] at h
        rcases h with rfl | h
        · rw [List.count_cons_of_ne hb, ih hpiece,
            List.getLast?_cons_of_ne_nil (ne_nil_of_mem_splitLines hpiece)]
        · exact ih (hrest ▸ List.mem_cons_of_mem _ h)

theorem count_newline_flatten {bytes : List UInt8} {lines : List (List UInt8)}
    (h : ∀ line ∈ lines, line ∈ splitLines bytes ∧ line.getLast? = some newline) :
    lines.flatten.count newline = lines.length := by
  induction lines with
  | nil => rfl
  | cons line lines ih =>
    obtain ⟨⟨hline, hlast⟩, hlines⟩ := List.forall_mem_cons.mp h
    rw [List.flatten_cons, List.count_append, count_newline hline, if_pos hlast, ih hlines,
      List.length_cons, Nat.add_comm]

theorem mem_splitLines_of_mem_wholeLines {i : Input} {line : List UInt8}
    (h : line ∈ i.wholeLines) : line ∈ splitLines i.bytes := by
  unfold wholeLines at h
  split at h
  · exact (List.mem_filter.mp h).1
  · exact h

theorem getLast?_of_wholeLines {i : Input} {line : List UInt8} {front back : List (List UInt8)}
    (h : i.wholeLines = front ++ line :: back) (hback : back ≠ []) :
    line.getLast? = some newline := by
  unfold wholeLines at h
  split at h
  · have hline : line ∈ front ++ line :: back := List.mem_append_right _ List.mem_cons_self
    rw [← h] at hline
    simpa using (List.mem_filter.mp hline).2
  · exact getLast?_of_splitLines h hback

end ScriptShell.Input
