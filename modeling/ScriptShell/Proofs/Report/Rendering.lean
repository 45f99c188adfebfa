import Mathlib.Algebra.GroupWithZero.Nat
import ScriptShell.Proofs.Report.Place

namespace ScriptShell

section Parts

variable {α : Type} {a : α}

theorem not_mem_of_mem_splitOn [DecidableEq α] {part list : List α}
    (h : part ∈ list.splitOn a) : a ∉ part := by
  induction list generalizing part with
  | nil =>
    rw [List.splitOn_nil, List.mem_singleton] at h
    simp [h]
  | cons b rest ih =>
    rw [List.splitOn_cons_eq_if_modifyHead] at h
    split at h
    · rcases List.mem_cons.mp h with rfl | h
      · exact List.not_mem_nil
      · exact ih h
    · next hb =>
      obtain ⟨first, others, hrest⟩ := List.exists_cons_of_ne_nil (List.splitOn_ne_nil a rest)
      rw [hrest, List.modifyHead_cons] at h
      rcases List.mem_cons.mp h with rfl | h
      · have hfirst := ih (hrest ▸ List.mem_cons_self)
        rw [List.mem_cons, not_or]
        exact ⟨fun heq => hb (beq_iff_eq.mpr heq.symm), hfirst⟩
      · exact ih (hrest ▸ List.mem_cons_of_mem _ h)

theorem intercalate_append_singleton (parts : List (List α)) (last : List α) :
    [a].intercalate (parts ++ [last]) = (parts.flatMap (· ++ [a])) ++ last := by
  induction parts with
  | nil => simp
  | cons part parts ih =>
    have hne : parts ++ [last] ≠ [] := List.append_ne_nil_of_right_ne_nil _ (List.cons_ne_nil _ _)
    rw [List.cons_append, List.intercalate_cons_of_ne_nil hne, ih, List.flatMap_cons]
    simp

theorem splitOn_flatMap [DecidableEq α] {lines : List (List α)} (h : ∀ line ∈ lines, a ∉ line) :
    (lines.flatMap (· ++ [a])).splitOn a = lines ++ [[]] := by
  have hjoin := intercalate_append_singleton (a := a) lines []
  rw [List.append_nil] at hjoin
  rw [← hjoin]
  refine List.splitOn_intercalate a ?_ (List.append_ne_nil_of_right_ne_nil _ (List.cons_ne_nil _ _))
  intro line hline
  rcases List.mem_append.mp hline with hline | hline
  · exact h line hline
  · rw [List.mem_singleton.mp hline]
    exact List.not_mem_nil

theorem getLast?_flatMap {lines : List (List α)} (h : lines ≠ []) :
    (lines.flatMap (· ++ [a])).getLast? = some a := by
  rw [← List.dropLast_append_getLast h, List.flatMap_append, List.flatMap_singleton,
    ← List.append_assoc, List.getLast?_concat]

theorem exists_splitOn [DecidableEq α] (a : α) (list : List α) :
    ∃ parts last, list.splitOn a = parts ++ [last] :=
  ⟨_, _, (List.dropLast_append_getLast (List.splitOn_ne_nil a list)).symm⟩

end Parts

namespace Text

theorem splitLines_eq (text : List Char) : splitLines text = text.splitOn '\n' := by
  induction text with
  | nil => rfl
  | cons c text ih =>
    rw [splitLines, ih, List.splitOn_cons_eq_if_modifyHead]
    obtain ⟨first, others, hrest⟩ := List.exists_cons_of_ne_nil (List.splitOn_ne_nil '\n' text)
    rw [hrest]
    by_cases hc : c = '\n' <;> simp [hc]

/-- Whether these are the characters of a text that end at a byte offset or in front of it. -/
structure IsBefore (offset : Nat) (text front : List Char) : Prop where
  isFront : front <+: text
  byteSize_le : byteSize front ≤ offset
  next : ∀ c back, text = front ++ c :: back → offset < byteSize front + c.utf8Size

theorem isBefore_splitAtByte (offset : Nat) (text : List Char) :
    IsBefore offset text (splitAtByte offset text).1 := by
  induction text generalizing offset with
  | nil => exact ⟨List.prefix_rfl, Nat.zero_le _, nofun⟩
  | cons c text ih =>
    rw [splitAtByte]
    split
    · next hfits =>
      have hrest := ih (offset - c.utf8Size)
      have hsize := hrest.byteSize_le
      refine ⟨?_, ?_, fun d back htext => ?_⟩
      · exact (List.cons_prefix_cons).mpr ⟨rfl, hrest.isFront⟩
      · rw [byteSize_cons]
        omega
      · have hnext := hrest.next d back (List.cons.inj htext).2
        rw [byteSize_cons]
        omega
    · next hfits =>
      refine ⟨List.nil_prefix, Nat.zero_le _, fun d back htext => ?_⟩
      rw [← (List.cons.inj htext).1, byteSize_nil]
      omega

/-- The width of a text with tab stops every eight columns: what a tab ends is filled up to the next
stop. -/
def width (text : List Char) : Nat :=
  ((text.splitOn '\t').dropLast.map fun part => 8 * (part.length / 8 + 1)).sum +
    ((text.splitOn '\t').getLast?.getD []).length

end Text

namespace Report

open Text

theorem columns_shift (stops n : Nat) (text : List Char) :
    text.foldl (fun column c => if c = '\t' then (column + 8) / 8 * 8 else column + 1)
        (8 * stops + n) =
      8 * stops +
        text.foldl (fun column c => if c = '\t' then (column + 8) / 8 * 8 else column + 1) n := by
  induction text generalizing n with
  | nil => rfl
  | cons c text ih =>
    rw [List.foldl_cons, List.foldl_cons]
    split
    · have hstop : (8 * stops + n + 8) / 8 * 8 = 8 * stops + (n + 8) / 8 * 8 := by omega
      rw [hstop, ih]
    · rw [Nat.add_assoc, ih]

theorem columns_tab {part : List Char} (h : '\t' ∉ part) (rest : List Char) :
    columns (part ++ '\t' :: rest) = 8 * (part.length / 8 + 1) + columns rest := by
  have hpart := columns_eq_length h
  unfold columns at hpart ⊢
  have hstop : (part.length + 8) / 8 * 8 = 8 * (part.length / 8 + 1) + 0 := by omega
  rw [List.foldl_append, hpart, List.foldl_cons, if_pos rfl, hstop, columns_shift]

theorem columns_flatMap {parts : List (List Char)} {last : List Char}
    (hparts : ∀ part ∈ parts, '\t' ∉ part) (hlast : '\t' ∉ last) :
    columns (parts.flatMap (· ++ ['\t']) ++ last) =
      (parts.map fun part => 8 * (part.length / 8 + 1)).sum + last.length := by
  induction parts with
  | nil => simp [columns_eq_length hlast]
  | cons part parts ih =>
    obtain ⟨hpart, hparts⟩ := List.forall_mem_cons.mp hparts
    rw [List.flatMap_cons, List.append_assoc, List.append_assoc, List.singleton_append,
      columns_tab hpart, ih hparts, List.map_cons, List.sum_cons, Nat.add_assoc]

theorem columns_eq_width (text : List Char) : columns text = width text := by
  obtain ⟨parts, last, hparts⟩ := exists_splitOn '\t' text
  have hfree (part : List Char) (hpart : part ∈ parts ++ [last]) : '\t' ∉ part :=
    not_mem_of_mem_splitOn (hparts ▸ hpart)
  have htext : text = parts.flatMap (· ++ ['\t']) ++ last := by
    rw [← intercalate_append_singleton, ← hparts, List.intercalate_splitOn]
  have hcolumns := columns_flatMap (fun part hpart => hfree part (List.mem_append_left _ hpart))
    (hfree last (by simp))
  rw [← htext] at hcolumns
  rw [hcolumns, width, hparts]
  simp

theorem toList_caretLine (line : String) (offset : Nat) :
    (caretLine line offset).toList =
      List.replicate (width (splitAtByte offset line.toList).1) '.' ++ ['^', '\n'] := by
  rw [caretLine, String.toList_ofList, columns_eq_width]

/-- Whether the line that a report points into is one of a source. -/
def Attached (r : Report) : Prop :=
  ∀ line, r.lineBuffer = some line →
    ∃ source offset, (r.withSource source offset).lineBuffer = some line

/-- The lines of a report, without what all of them begin with. -/
inductive Lines (r : Report) : List (List Char) → Prop
  | message (hbuffer : r.lineBuffer = none) : Lines r (r.message.toList.splitOn '\n')
  | pointing {front : List (List Char)} {last : List Char} {line : String}
      {content caret : List Char} (hbuffer : r.lineBuffer = some line)
      (hmessage : r.message.toList.splitOn '\n' = front ++ [last])
      (hline : line.toList = content ∨ line.toList = content ++ ['\n'])
      (hcaret : (caretLine line r.tokenOffset).toList = caret ++ ['\n']) :
      Lines r (front ++ [last ++ [':'], content, caret])

variable {r : Report}

theorem newline_not_mem_lead (h : ∀ name ∈ r.filename, '\n' ∉ name.toList) :
    '\n' ∉ r.lead.toList := by
  have hfile : '\n' ∉ ((r.filename.map (· ++ ":")).getD "").toList := by
    cases hname : r.filename with
    | none => decide
    | some name => simpa using h name hname
  have hline : '\n' ∉ (if r.line = 0 then "" else toString r.line ++ ": ").toList := by
    split
    · decide
    · intro hmem
      rw [String.toList_append, Nat.toString_eq_repr, Nat.toList_repr, List.mem_append] at hmem
      rcases hmem with hmem | hmem
      · cases Nat.isDigit_of_mem_toDigits (by decide) (by decide) hmem
      · revert hmem
        decide
  unfold lead
  rw [String.toList_append, String.toList_append, List.mem_append, List.mem_append, not_or, not_or]
  refine ⟨⟨hfile, hline⟩, ?_⟩
  cases r.severity <;> decide

theorem Attached.exists_content (h : r.Attached) {line : String}
    (hline : r.lineBuffer = some line) :
    ∃ content, '\n' ∉ content ∧ (line.toList = content ∨ line.toList = content ++ ['\n']) := by
  obtain ⟨source, offset, hsource⟩ := h line hline
  obtain rfl := Option.some.inj hsource
  rw [String.toList_ofList]
  obtain ⟨_, -, -, hlast⟩ := lastLine_eq (splitAtByte offset source.toList).1
  obtain ⟨_, -, hfirst⟩ := firstLine_eq (splitAtByte offset source.toList).2
  rcases hfirst with ⟨first, hfirst, hmem⟩ | ⟨hmem, -⟩
  · refine ⟨lastLine (splitAtByte offset source.toList).1 ++ first, ?_, .inr ?_⟩
    · rw [List.mem_append, not_or]
      exact ⟨hlast, hmem⟩
    · rw [hfirst, List.append_assoc]
  · refine ⟨_, ?_, .inl rfl⟩
    rw [List.mem_append, not_or]
    exact ⟨hlast, hmem⟩

theorem toList_terminated {line : String} {content : List Char} (hfree : '\n' ∉ content)
    (h : line.toList = content ∨ line.toList = content ++ ['\n']) :
    (terminated line).toList = content ++ ['\n'] := by
  unfold terminated
  rcases h with h | h
  · have hlast : line.toList.getLast? ≠ some '\n' := fun hlast =>
      hfree (h ▸ List.mem_of_getLast? hlast)
    rw [if_neg hlast, String.toList_append, h]
    rfl
  · rw [if_pos (by rw [h, List.getLast?_concat]), h]

theorem toList_message {front : List (List Char)} {last : List Char}
    (h : r.message.toList.splitOn '\n' = front ++ [last]) :
    ("\n".intercalate
        ((splitLines r.message.toList).map fun l => r.lead ++ String.ofList l)).toList =
      (front.map (r.lead.toList ++ ·)).flatMap (· ++ ['\n']) ++ (r.lead.toList ++ last) := by
  have hlead : (String.toList ∘ fun l => r.lead ++ String.ofList l) = (r.lead.toList ++ ·) := by
    funext l
    simp
  have hbreak : "\n".toList = ['\n'] := rfl
  rw [String.toList_intercalate, splitLines_eq, h, List.map_map, hlead, List.map_append,
    List.map_singleton, hbreak, intercalate_append_singleton]

theorem exists_caret (line : String) (offset : Nat) : ∃ caret, '\n' ∉ caret ∧
    (caretLine line offset).toList = caret ++ ['\n'] := by
  refine ⟨List.replicate (width (splitAtByte offset line.toList).1) '.' ++ ['^'], ?_, ?_⟩
  · simp
  · rw [toList_caretLine, List.append_assoc]
    rfl

theorem Lines.ne_nil {lines : List (List Char)} (h : r.Lines lines) : lines ≠ [] := by
  cases h with
  | message => exact List.splitOn_ne_nil _ _
  | pointing => simp

/-- What is rendered are the lines of a report, each behind the same beginning. -/
theorem toList_render (h : r.Attached) : ∃ lines, r.Lines lines ∧
    (∀ line ∈ lines, '\n' ∉ line) ∧
    r.render.toList = (lines.map (r.lead.toList ++ ·)).flatMap (· ++ ['\n']) := by
  obtain ⟨front, last, hmessage⟩ := exists_splitOn '\n' r.message.toList
  have hfree (line : List Char) (hline : line ∈ front ++ [last]) : '\n' ∉ line :=
    not_mem_of_mem_splitOn (hmessage ▸ hline)
  have hrendered := toList_message hmessage
  -- Without a line only the message is shown; with one, its last line is followed by two more.
  cases hbuffer : r.lineBuffer with
  | none =>
    refine ⟨_, .message hbuffer, hmessage ▸ hfree, ?_⟩
    unfold render
    rw [hbuffer]
    dsimp only
    rw [String.toList_append, hrendered, hmessage]
    simp
  | some line =>
    obtain ⟨content, hcontent, hline⟩ := h.exists_content hbuffer
    obtain ⟨caret, hpoint, hcaret⟩ := exists_caret line r.tokenOffset
    refine ⟨_, .pointing hbuffer hmessage hline hcaret, ?_, ?_⟩
    · intro line' hmem
      rcases List.mem_append.mp hmem with hmem | hmem
      · exact hfree line' (List.mem_append_left _ hmem)
      · have hlast := hfree last (by simp)
        simp only [List.mem_cons, List.not_mem_nil, or_false] at hmem
        rcases hmem with rfl | rfl | rfl
        · simp [hlast]
        · exact hcontent
        · exact hpoint
    · unfold render
      rw [hbuffer]
      dsimp only
      simp only [String.toList_append, hrendered, toList_terminated hcontent hline, hcaret]
      simp

/-- A rendered report ends in a line break, and its lines are those of the message, of the source
and of the caret, each behind the same beginning. In every line, a caret stands behind as many dots
as the characters in front of the offset are wide. -/
theorem render_lines (r : Report) (hfile : ∀ name ∈ r.filename, '\n' ∉ name.toList)
    (hline : r.Attached) :
    (∃ lines, r.Lines lines ∧ r.render.toList.getLast? = some '\n' ∧
      r.render.toList.splitOn '\n' = lines.map (r.lead.toList ++ ·) ++ [[]]) ∧
    ∀ line offset, ∃ front, IsBefore offset line.toList front ∧
      (caretLine line offset).toList = List.replicate (width front) '.' ++ ['^', '\n'] := by
  constructor
  · obtain ⟨lines, hlines, hfree, hrender⟩ := toList_render hline
    refine ⟨lines, hlines, ?_, ?_⟩
    · rw [hrender]
      exact getLast?_flatMap (by simpa using hlines.ne_nil)
    · rw [hrender]
      refine splitOn_flatMap fun line hmem => ?_
      obtain ⟨content, hcontent, rfl⟩ := List.mem_map.mp hmem
      rw [List.mem_append, not_or]
      exact ⟨newline_not_mem_lead hfile, hfree content hcontent⟩
  · intro line offset
    exact ⟨_, isBefore_splitAtByte offset line.toList, toList_caretLine line offset⟩

theorem attached_withSource (r : Report) (source : String) (offset : Nat) :
    (r.withSource source offset).Attached :=
  fun _ hline => ⟨source, offset, hline⟩

def tabbedWarning : Report :=
  ((Report.warning "first\nsecond" true).locate (some "w.js") 4).withSource "x;\n\té = ;\n" 5

theorem render_lines_tabbedWarning :
    (∀ name ∈ tabbedWarning.filename, '\n' ∉ name.toList) ∧ tabbedWarning.Attached ∧
      ∃ lines, tabbedWarning.Lines lines ∧ tabbedWarning.render.toList.getLast? = some '\n' ∧
        tabbedWarning.render.toList.splitOn '\n' =
          lines.map (tabbedWarning.lead.toList ++ ·) ++ [[]] := by
  have hfile : ∀ name ∈ tabbedWarning.filename, '\n' ∉ name.toList := by
    rintro name ⟨⟩
    decide
  have hline : tabbedWarning.Attached := attached_withSource _ _ _
  exact ⟨hfile, hline, (render_lines tabbedWarning hfile hline).1⟩

end Report

end ScriptShell
