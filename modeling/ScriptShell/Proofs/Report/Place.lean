import ScriptShell.Compilation
import ScriptShell.Proofs.Token.Places
import ScriptShell.Report.Rendering

namespace ScriptShell

namespace Text

theorem lastLine_eq (x : List Char) :
    ∃ lines, x = lines ++ lastLine x ∧ (lines = [] ∨ lines.getLast? = some '\n') ∧
      '\n' ∉ lastLine x := by
  have hall (c : Char) (hc : c ∈ x.reverse.takeWhile (· ≠ '\n')) : c ≠ '\n' := by
    simpa using List.all_eq_true.mp List.all_takeWhile c hc
  refine ⟨(x.reverse.dropWhile (· ≠ '\n')).reverse, ?_, ?_, ?_⟩
  · rw [lastLine, ← List.reverse_append, List.takeWhile_append_dropWhile, List.reverse_reverse]
  · rw [List.reverse_eq_nil_iff, List.getLast?_reverse]
    refine or_iff_not_imp_left.mpr fun hne => ?_
    rw [List.head?_eq_some_head hne]
    simpa using List.head_dropWhile_not (· ≠ '\n') hne
  · exact fun hmem => hall '\n' (List.mem_reverse.mp hmem) rfl

theorem firstLine_eq (x : List Char) :
    ∃ lines, x = firstLine x ++ lines ∧
      ((∃ line, firstLine x = line ++ ['\n'] ∧ '\n' ∉ line) ∨ '\n' ∉ firstLine x ∧ lines = []) := by
  induction x with
  | nil => exact ⟨[], rfl, .inr ⟨nofun, rfl⟩⟩
  | cons c x ih =>
    by_cases hc : c = '\n'
    · subst hc
      exact ⟨x, rfl, .inl ⟨[], rfl, nofun⟩⟩
    · obtain ⟨lines, hx, hline⟩ := ih
      have hfirst : firstLine (c :: x) = c :: firstLine x := if_neg hc
      refine ⟨lines, by rw [hfirst, List.cons_append, ← hx], ?_⟩
      rw [hfirst]
      rcases hline with ⟨line, hline, hmem⟩ | ⟨hmem, hnil⟩
      · exact .inl ⟨c :: line, by rw [hline, List.cons_append], by simp [Ne.symm hc, hmem]⟩
      · exact .inr ⟨by simp [Ne.symm hc, hmem], hnil⟩

end Text

/-- A source with a cut in one of its lines. A line reaches up to its line break, which is a part
of it; only the last one may have none. -/
structure LineCut (source : String) where
  /-- The lines in front of the one that is cut. -/
  above : List Char
  left : List Char
  right : List Char
  below : List Char
  toList_eq : source.toList = above ++ (left ++ right) ++ below
  starts : above = [] ∨ above.getLast? = some '\n'
  inLine : '\n' ∉ left
  ends : (∃ line, right = line ++ ['\n'] ∧ '\n' ∉ line) ∨ '\n' ∉ right ∧ below = []

namespace LineCut

variable {source : String}

def front (cut : LineCut source) : List Char :=
  cut.above ++ cut.left

def line (cut : LineCut source) : String :=
  String.ofList (cut.left ++ cut.right)

end LineCut

namespace Report

/-- A report points at a place in a source whose lines are counted from `startLine`. -/
structure PointsAt (r : Report) (startLine : Nat) (source : String) (place : Location)
    (cut : LineCut source) : Prop where
  /-- The source is cut at the place. -/
  offset : place.offset = Text.byteSize cut.front
  /-- The number of the line is that of the line breaks in front of the place. -/
  line : r.line = startLine + cut.front.count '\n'
  /-- The line attached is the one that is cut. -/
  lineBuffer : r.lineBuffer = some cut.line
  /-- Its offset is that of the cut in it, which lies between two characters. -/
  tokenOffset : r.tokenOffset = Text.byteSize cut.left
  /-- The column counts the characters in front of the cut. -/
  column : place.column = 1 + cut.left.length
  /-- The caret stands below the cut, as far as tabs do not matter. -/
  caretLine : '\t' ∉ cut.left →
    Report.caretLine cut.line r.tokenOffset =
      String.ofList (List.replicate (place.column - 1) '.' ++ ['^', '\n'])

theorem columns_eq_length {x : List Char} (h : '\t' ∉ x) : columns x = x.length := by
  have hfrom (n : Nat) :
      x.foldl (fun column c => if c = '\t' then (column + 8) / 8 * 8 else column + 1) n =
        n + x.length := by
    induction x generalizing n with
    | nil => rfl
    | cons c x ih =>
      rw [List.mem_cons, not_or] at h
      rw [List.foldl_cons, if_neg (Ne.symm h.1), ih h.2, List.length_cons]
      omega
  exact (hfrom 0).trans (Nat.zero_add _)

theorem caretLine_eq {left right : List Char} (h : '\t' ∉ left) :
    caretLine (String.ofList (left ++ right)) (Text.byteSize left) =
      String.ofList (List.replicate left.length '.' ++ ['^', '\n']) := by
  rw [caretLine, String.toList_ofList, Text.splitAtByte_byteSize, columns_eq_length h]

theorem withSource_eq (r : Report) {source : String} {front back : List Char}
    (h : source.toList = front ++ back) :
    r.withSource source (Text.byteSize front) =
      { r with
        lineBuffer := some (String.ofList (Text.lastLine front ++ Text.firstLine back))
        tokenOffset := Text.byteSize (Text.lastLine front) } := by
  rw [withSource, h, Text.splitAtByte_byteSize]

/-- A report about a place in a source points at it. -/
theorem exists_pointsAt (r : Report) (filename : Option String) (source : String)
    {startLine : Nat} {place : Location}
    (hplace : (Location.start startLine).IsIn source.toList place) :
    ∃ cut, (r.inSource filename source place).PointsAt startLine source place cut := by
  obtain ⟨front, back, hsource, rfl⟩ := hplace
  obtain ⟨above, hfront, hstarts, hinLine⟩ := Text.lastLine_eq front
  obtain ⟨below, hback, hends⟩ := Text.firstLine_eq back
  have hoffset : ((Location.start startLine).advance front).offset = Text.byteSize front := by
    rw [Location.offset_advance]
    exact Nat.zero_add _
  have hcolumn : ((Location.start startLine).advance front).column =
      1 + (Text.lastLine front).length := by
    rw [hfront, Location.advance_append, Location.column_advance hinLine, ← hfront]
    refine congrArg (· + _) ?_
    rcases hstarts with rfl | hlast
    · rfl
    · exact Location.column_advance_of_getLast? hlast
  -- The cut is given by the two sides of the place, independently of the report.
  let cut : LineCut source :=
    { above, left := Text.lastLine front, right := Text.firstLine back, below
      toList_eq := by rw [hsource, ← List.append_assoc, ← hfront, List.append_assoc, ← hback]
      starts := hstarts
      inLine := hinLine
      ends := hends }
  have hcut : cut.front = front := hfront.symm
  have hreport : (r.inSource filename source ((Location.start startLine).advance front)) =
      { r.locate filename ((Location.start startLine).advance front).line with
        lineBuffer := some cut.line
        tokenOffset := Text.byteSize cut.left } := by
    rw [inSource, hoffset, withSource_eq _ hsource]
    rfl
  refine ⟨cut, ?_⟩
  rw [hreport]
  exact {
    offset := by rw [hcut, hoffset]
    line := by
      rw [hcut]
      exact Location.line_advance
    lineBuffer := rfl
    tokenOffset := rfl
    column := hcolumn
    caretLine := fun htab => by
      rw [hcolumn, Nat.add_sub_cancel_left]
      exact caretLine_eq htab }

end Report

end ScriptShell
