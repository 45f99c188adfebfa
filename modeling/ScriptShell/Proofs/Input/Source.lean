import Mathlib.Data.List.TakeWhile
import ScriptShell.Proofs.Input.Lines
import ScriptShell.Proofs.Text.Utf8

namespace ScriptShell

namespace Text

/-- Only the byte of a line break is read as one. -/
theorem newline_not_mem_readUtf8From {bytes : List UInt8} (h : Input.newline ∉ bytes)
    (skip : Nat) : '\n' ∉ readUtf8From skip bytes := by
  induction bytes generalizing skip with
  | nil => cases skip <;> exact List.not_mem_nil
  | cons b rest ih =>
    rw [List.mem_cons, not_or] at h
    cases skip with
    | succ skip => exact ih h.2 skip
    | zero =>
      have hne : '\n' ≠ replacement := by decide
      rw [readUtf8From]
      cases hpiece : utf8Piece b rest with
      | char c size =>
        obtain ⟨more, later, -, hc, -⟩ := utf8Piece_eq_char_iff.mp hpiece
        have hne : '\n' ≠ c := by
          rintro rfl
          have hbyte : String.utf8EncodeChar '\n' = [Input.newline] := by decide
          exact h.1 (List.cons.inj (hbyte.symm.trans hc)).1
        exact fun hmem => (List.mem_cons.mp hmem).elim hne (ih h.2 _)
      | invalid size =>
        exact fun hmem => (List.mem_cons.mp hmem).elim hne (ih h.2 _)
      | truncated =>
        exact fun hmem => hne (List.mem_singleton.mp hmem)

theorem count_newline_readUtf8From (bytes : List UInt8) :
    (readUtf8From 0 bytes).count '\n' = bytes.count Input.newline := by
  induction hn : bytes.length using Nat.strongRecOn generalizing bytes with
  | ind n ih =>
    by_cases hmem : Input.newline ∈ bytes
    · obtain ⟨front, back, rfl, hfront⟩ := List.eq_append_cons_of_mem hmem
      have hbreak : ¬ IsContinuation Input.newline := fun h => absurd h.1 (by decide)
      have hback : readUtf8From 0 (Input.newline :: back) = '\n' :: readUtf8From 0 back :=
        readUtf8From_char '\n' back
      have hlater := ih back.length (by rw [← hn]; simp; omega) back rfl
      rw [readUtf8From_append hbreak, hback, List.count_append, List.count_append,
        List.count_cons_self, List.count_cons_self, hlater,
        List.count_eq_zero_of_not_mem (newline_not_mem_readUtf8From hfront 0),
        List.count_eq_zero_of_not_mem hfront]
    · rw [List.count_eq_zero_of_not_mem (newline_not_mem_readUtf8From hmem 0),
        List.count_eq_zero_of_not_mem hmem]

end Text

namespace Input

/-- No line break stands before the last byte of a line. -/
theorem newline_not_mem_lineFront (room : Nat) (bytes : List UInt8) :
    newline ∉ (lineFront room bytes).dropLast := by
  induction bytes generalizing room with
  | nil => cases room <;> exact List.not_mem_nil
  | cons b rest ih =>
    cases room with
    | zero => exact List.not_mem_nil
    | succ room =>
      rw [lineFront]
      split
      · exact List.not_mem_nil
      · next hb =>
        have hlater := ih room
        cases hrest : lineFront room rest with
        | nil => exact List.not_mem_nil
        | cons c more =>
          rw [hrest] at hlater
          rw [List.dropLast_cons_cons, List.mem_cons, not_or]
          exact ⟨Ne.symm hb, hlater⟩

/-- Bytes cut into pieces that end where they have to: behind a line break, where the piece is
full, or with the last byte. -/
structure Cut (room : Nat) (bytes : List UInt8) (ps : List (List UInt8)) : Prop where
  flatten : ps.flatten = bytes
  ne_nil : ∀ piece ∈ ps, piece ≠ []
  length_le : ∀ piece ∈ ps, piece.length ≤ room
  newline_last : ∀ piece ∈ ps, newline ∉ piece.dropLast
  ended : ∀ front piece back, ps = front ++ piece :: back →
    piece.getLast? = some newline ∨ piece.length = room ∨ back = []

theorem cut_pieces {room : Nat} (hroom : 0 < room) (bytes : List UInt8) :
    Cut room bytes (pieces room bytes) := by
  induction hn : bytes.length using Nat.strongRecOn generalizing bytes with
  | ind n ih =>
    by_cases hempty : bytes = []
    · subst hempty
      exact ⟨rfl, nofun, nofun, nofun, fun front => by cases front <;> nofun⟩
    · have hne := lineFront_ne_nil hroom hempty
      have hfront := lineFront_append_drop room bytes
      have hlater := ih _ (hn ▸ length_drop_lineFront_lt hroom hempty) _ rfl
      rw [pieces_eq_cons hroom hempty]
      refine ⟨?_, ?_, ?_, ?_, fun front piece back hps => ?_⟩
      · rw [List.flatten_cons, hlater.flatten, hfront]
      · exact List.forall_mem_cons.mpr ⟨hne, hlater.ne_nil⟩
      · exact List.forall_mem_cons.mpr ⟨length_lineFront_le room bytes, hlater.length_le⟩
      · exact List.forall_mem_cons.mpr ⟨newline_not_mem_lineFront room bytes, hlater.newline_last⟩
      · cases front with
        | cons first front => exact hlater.ended front piece back (List.cons.inj hps).2
        | nil =>
          obtain ⟨rfl, rfl⟩ := List.cons.inj hps
          cases hfull : isFull room (lineFront room bytes) with
          | true => exact or_assoc.mp (.inl (by simpa [isFull] using hfull))
          | false =>
            rw [lineFront_of_not_isFull hfull, List.drop_length]
            exact .inr (.inr rfl)

theorem takeByte_eq_none_iff {chunks : List (List UInt8)} :
    takeByte chunks = none ↔ chunks.flatten = [] := by
  induction chunks with
  | nil => simp [takeByte]
  | cons chunk rest ih => cases chunk <;> simp [takeByte, ih]

theorem flatten_of_takeByte {chunks rest : List (List UInt8)} {b : UInt8}
    (h : takeByte chunks = some (b, rest)) : chunks.flatten = b :: rest.flatten := by
  induction chunks with
  | nil => cases h
  | cons chunk others ih =>
    cases chunk with
    | nil => exact ih h
    | cons c more =>
      obtain ⟨rfl, rfl⟩ := Prod.mk.inj (Option.some.inj h)
      rfl

def atEnd {α : Type} (broken : Option String) (result : α) : Except String α :=
  (broken.map .error).getD (.ok result)

/-- What is read as a line when so many lines have been read before. -/
def nthLine (size : Nat) : Nat → Input → Except String (Option (List UInt8))
  | 0, i => (i.readLine size).1
  | n + 1, i => nthLine size n (i.readLine size).2

/-- The pieces of a stream are read one after the other, and then nothing, time and again. A
stream that breaks does so where a piece is not at its end, or no piece is left. -/
theorem nthLine_eq (size n : Nat) (i : Input) :
    i.nthLine size n =
      let piece := (pieces (lineRoom size) i.bytes)[n]?
      if piece.any (isFull (lineRoom size)) then .ok piece else atEnd i.broken piece := by
  have hroom := lineRoom_pos size
  obtain ⟨rest, hbroken, hbytes, hread⟩ := readLine_eq size i _ rfl
  induction n generalizing i rest with
  | zero =>
    rw [nthLine, hread]
    by_cases hempty : i.bytes = []
    · rw [hempty, lineFront_nil, isFull_nil hroom]
      rfl
    · rw [pieces_eq_cons hroom hempty,
        List.isEmpty_eq_false_iff.mpr (lineFront_ne_nil hroom hempty)]
      rfl
  | succ n ih =>
    obtain ⟨rest', hbroken', hbytes', hread'⟩ := readLine_eq size rest _ rfl
    rw [nthLine, hread, ih rest rest' hbroken' hbytes' hread', hbroken, hbytes]
    by_cases hempty : i.bytes = []
    · rw [hempty, List.drop_nil]
      rfl
    · rw [pieces_eq_cons hroom hempty]
      rfl

end Input

namespace SourceReader

open Input

structure Holds (r : SourceReader) (bytes : List UInt8) (broken : Option String) : Prop where
  bytes : r.pushed.toList ++ r.input.bytes = bytes
  broken : r.input.broken = broken

def endsLine (b : UInt8) : Bool :=
  b = newline || b = carriageReturn

/-- The bytes of a source without a first line that begins with `#`, whose end stays. -/
def withoutShebang (bytes : List UInt8) : List UInt8 :=
  if bytes.head? = some 35 then bytes.dropWhile (!endsLine ·) else bytes

variable {r : SourceReader} {b : UInt8} {bytes more : List UInt8} {broken : Option String}

theorem holds_ofInput (i : Input) : (ofInput i).Holds i.bytes i.broken :=
  ⟨rfl, rfl⟩

/-- Nothing is pushed back after a byte was read, whether it had been or not. -/
theorem next_cons (h : r.Holds (b :: more) broken) : ∃ r',
    r.next = (.ok (some b), r') ∧ r'.pushed = none ∧ r'.Holds more broken := by
  obtain ⟨input, pushed⟩ := r
  obtain ⟨hbytes, hbroken⟩ := h
  cases pushed with
  | some c =>
    obtain ⟨rfl, hrest⟩ := List.cons.inj hbytes
    exact ⟨_, rfl, rfl, hrest, hbroken⟩
  | none =>
    have hbytes : input.chunks.flatten = b :: more := hbytes
    cases htaken : takeByte input.chunks with
    | none =>
      rw [takeByte_eq_none_iff.mp htaken] at hbytes
      cases hbytes
    | some taken =>
      obtain ⟨c, chunks⟩ := taken
      obtain ⟨rfl, hrest⟩ := List.cons.inj ((flatten_of_takeByte htaken).symm.trans hbytes)
      refine ⟨⟨{ input with chunks }, none⟩, ?_, rfl, hrest, hbroken⟩
      simp only [next, Input.next, htaken]

theorem next_nil (h : r.Holds [] broken) : ∃ r',
    r.next = (atEnd broken none, r') ∧ r'.pushed = none ∧ r'.Holds [] broken := by
  obtain ⟨input, pushed⟩ := r
  obtain ⟨hbytes, rfl⟩ := h
  cases pushed with
  | some c => cases hbytes
  | none =>
    have htaken : takeByte input.chunks = none := takeByte_eq_none_iff.mpr hbytes
    refine ⟨⟨{ input with chunks := [] }, none⟩, ?_, rfl, rfl, rfl⟩
    simp only [next, Input.next, htaken]
    rfl

theorem holds_unread (hpushed : r.pushed = none) (h : r.Holds more broken) (b : UInt8) :
    (r.unread b).Holds (b :: more) broken := by
  obtain ⟨hbytes, hbroken⟩ := h
  rw [hpushed] at hbytes
  exact ⟨congrArg (b :: ·) hbytes, hbroken⟩

/-- A line is skipped up to its end, or up to that of the stream. -/
theorem skipLine_eq {n : Nat} (hn : bytes.length < n) (h : r.Holds bytes broken) : ∃ r',
    skipLine n r = (if bytes.dropWhile (!endsLine ·) = [] then atEnd broken () else .ok (), r') ∧
      r'.Holds (bytes.dropWhile (!endsLine ·)) broken := by
  -- Over the bytes to come; a reader may hold some of them pushed back.
  induction bytes generalizing n r with
  | nil =>
    obtain ⟨n, rfl⟩ := Nat.exists_eq_add_one.mpr (Nat.zero_lt_of_lt hn)
    obtain ⟨r', hnext, -, hrest⟩ := next_nil h
    refine ⟨r', ?_, hrest⟩
    rw [skipLine, hnext]
    cases broken <;> rfl
  | cons b more ih =>
    obtain ⟨n, rfl⟩ := Nat.exists_eq_add_one.mpr (Nat.zero_lt_of_lt hn)
    obtain ⟨r', hnext, hpushed, hrest⟩ := next_cons h
    have hskip : skipLine (n + 1) r =
        if endsLine b then (.ok (), r'.unread b) else skipLine n r' := by
      rw [skipLine, hnext]
      rfl
    cases hend : endsLine b with
    | true =>
      rw [List.dropWhile_cons_of_neg (by simp [hend])]
      refine ⟨r'.unread b, ?_, holds_unread hpushed hrest b⟩
      rw [hskip, hend]
      rfl
    | false =>
      obtain ⟨r'', hlater, hleft⟩ := ih (Nat.lt_of_succ_lt_succ hn) hrest
      rw [List.dropWhile_cons_of_pos (by simp [hend])]
      refine ⟨r'', ?_, hleft⟩
      rw [hskip, hend, ← hlater]
      rfl

/-- A first line is looked for in whatever the reader holds, which may have been pushed back. -/
theorem skipShebang_eq (h : r.Holds bytes broken) : ∃ r',
    r.skipShebang = (if withoutShebang bytes = [] then atEnd broken () else .ok (), r') ∧
      r'.Holds (withoutShebang bytes) broken := by
  cases bytes with
  | nil =>
    obtain ⟨r', hnext, -, hrest⟩ := next_nil h
    refine ⟨r', ?_, hrest⟩
    rw [skipShebang, hnext]
    cases broken <;> rfl
  | cons b more =>
    obtain ⟨r', hnext, hpushed, hrest⟩ := next_cons h
    rw [skipShebang, hnext]
    dsimp only
    by_cases hb : b = 35
    · have hsize : more.length < r'.size + 1 := by
        rw [← hrest.bytes, size, List.length_append]
        omega
      obtain ⟨r'', hskip, hleft⟩ := skipLine_eq hsize hrest
      have hwithout : withoutShebang (b :: more) = more.dropWhile (!endsLine ·) := by
        rw [withoutShebang, hb]
        rfl
      rw [if_pos hb, hwithout]
      exact ⟨r'', hskip, hleft⟩
    · have hwithout : withoutShebang (b :: more) = b :: more := by
        simp [withoutShebang, hb]
      rw [if_neg hb, hwithout]
      exact ⟨r'.unread b, rfl, holds_unread hpushed hrest b⟩

theorem rest_eq (h : r.Holds bytes broken) :
    r.rest.1 = atEnd broken (Text.readUtf8 bytes) := by
  obtain ⟨rfl, rfl⟩ := h
  unfold rest Input.drain
  cases r.input.broken <;> rfl

theorem count_newline_withoutShebang (bytes : List UInt8) :
    (withoutShebang bytes).count newline = bytes.count newline := by
  unfold withoutShebang
  split
  · have hfree : newline ∉ bytes.takeWhile (!endsLine ·) := fun hmem => by
      have := List.mem_takeWhile_imp hmem
      revert this
      decide
    have hcount := congrArg (List.count newline)
      (List.takeWhile_append_dropWhile (p := (!endsLine ·)) (l := bytes))
    rw [List.count_append, List.count_eq_zero_of_not_mem hfree, Nat.zero_add] at hcount
    exact hcount
  · rfl

end SourceReader

namespace Input

/-- Reading loses nothing, and it does not depend on how a stream delivers its bytes. -/
theorem reading_lossless {size : Nat} (hsize : 2 ≤ size) (bytes : List UInt8) :
    (∃ ps, Cut (size - 1) bytes ps ∧
      ∀ chunks, chunks.flatten = bytes → ∀ n, nthLine size n ⟨chunks, none⟩ = .ok ps[n]?) ∧
    ∃ text, text = Text.readUtf8 (SourceReader.withoutShebang bytes) ∧
      text.toList.count '\n' = bytes.count newline ∧
      ∀ chunks, chunks.flatten = bytes →
        let skipped := (SourceReader.ofInput ⟨chunks, none⟩).skipShebang
        skipped.1 = .ok () ∧ skipped.2.rest.1 = .ok text := by
  have hroom : lineRoom size = size - 1 := Nat.max_eq_right (by omega)
  refine ⟨⟨pieces (size - 1) bytes, cut_pieces (by omega) bytes, ?_⟩,
    _, rfl, ?_, ?_⟩
  -- Pieces depend on the bytes alone, whichever chunks they come in.
  · rintro chunks rfl n
    rw [nthLine_eq, hroom]
    exact ite_self _
  · rw [Text.readUtf8, String.toList_ofList, Text.count_newline_readUtf8From,
      SourceReader.count_newline_withoutShebang]
  · rintro chunks rfl
    obtain ⟨r, hskip, hleft⟩ :=
      SourceReader.skipShebang_eq (SourceReader.holds_ofInput ⟨chunks, none⟩)
    rw [hskip]
    exact ⟨ite_self _, SourceReader.rest_eq hleft⟩

theorem reading_lossless_shebang :
    2 ≤ 4 ∧
      (∀ n, nthLine 4 n ⟨[[35, 33], [120, 10, 97]], none⟩ =
        nthLine 4 n ⟨[[35], [33, 120, 10], [97]], none⟩) ∧
      (SourceReader.ofInput ⟨[[35, 33], [120, 10, 97]], none⟩).skipShebang.2.rest.1 =
        .ok "\na" := by
  have hsize : 2 ≤ 4 := by decide
  obtain ⟨⟨ps, -, hps⟩, text, htext, -, hrest⟩ :=
    reading_lossless hsize [35, 33, 120, 10, 97]
  have hall : text = "\na" := by
    rw [htext]
    decide
  refine ⟨hsize, fun n => (hps _ rfl n).trans (hps _ rfl n).symm, ?_⟩
  rw [(hrest [[35, 33], [120, 10, 97]] rfl).2, hall]

end Input

end ScriptShell
