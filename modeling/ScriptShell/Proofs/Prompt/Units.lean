import ScriptShell.Proofs.Input.Lines
import ScriptShell.Prompt

namespace ScriptShell

def Draft.ofGroups : Nat → List (List (List UInt8)) → List Draft
  | _, [] => []
  | n, group :: groups => ⟨n, group.length, group.flatten⟩ :: ofGroups (n + group.length) groups

namespace Draft

theorem flatMap_bytes_ofGroups (n : Nat) (groups : List (List (List UInt8))) :
    (ofGroups n groups).flatMap bytes = groups.flatten.flatten := by
  induction groups generalizing n with
  | nil => rfl
  | cons group groups ih =>
    rw [ofGroups, List.flatMap_cons, ih, List.flatten_cons, List.flatten_append]

theorem of_ofGroups_eq_append {n : Nat} {groups : List (List (List UInt8))} {d : Draft}
    {front back : List Draft} (h : ofGroups n groups = front ++ d :: back) :
    ∃ before group after, groups = before ++ group :: after ∧ front = ofGroups n before ∧
      d = ⟨n + before.flatten.length, group.length, group.flatten⟩ := by
  induction groups generalizing n front with
  | nil => cases front <;> cases h
  | cons group groups ih =>
    cases front with
    | nil =>
      obtain ⟨rfl, -⟩ := List.cons.inj h
      exact ⟨[], group, groups, rfl, rfl, rfl⟩
    | cons first front =>
      obtain ⟨rfl, hback⟩ := List.cons.inj h
      obtain ⟨before, group', after, rfl, rfl, rfl⟩ := ih hback
      refine ⟨group :: before, group', after, rfl, rfl, ?_⟩
      rw [List.flatten_cons, List.length_append, Nat.add_assoc]

end Draft

namespace Prompt

/-- Takes lines that have been read, until a script wants to quit or there are none left. -/
def takeLines (file : String → FileState) (p : Prompt) :
    List (List UInt8) → Except Interruption Shell
  | [] => p.finish file
  | line :: rest => do
    match ← p.take file line with
    | .inl q => takeLines file q.ask rest
    | .inr s => return s

/-- The drafts that are run while the prompt takes lines, in their order. -/
def units (file : String → FileState) (p : Prompt) : List (List UInt8) → List Draft
  | [] => [p.draft]
  | line :: rest =>
    let later :=
      match p.take file line with
      | .ok (.inl q) => units file q.ask rest
      | _ => []
    if (p.draft.add line).isComplete p.shell.runtime then p.draft.add line :: later else later

variable {file : String → FileState} {size : Nat}

theorem readUtf8_ne_nil {bytes : List UInt8} (h : bytes ≠ []) :
    Text.readUtf8From 0 bytes ≠ [] := by
  obtain ⟨b, rest, rfl⟩ := List.exists_cons_of_ne_nil h
  rw [Text.readUtf8From]
  split <;> nofun

theorem isEmpty_source (d : Draft) : d.source.isEmpty = decide (d.bytes = []) := by
  by_cases hbytes : d.bytes = []
  · rw [Draft.source, hbytes]
    rfl
  · simpa [Draft.source, Text.readUtf8, hbytes] using readUtf8_ne_nil hbytes

theorem ask_of_ne_nil {p : Prompt} (h : p.draft.bytes ≠ []) : p.ask = p := by
  rw [ask, isEmpty_source, decide_eq_false h]
  simp [write, continuation, Session.write]

theorem finish_withInput (file : String → FileState) (p : Prompt) (input : Input) :
    (p.withInput input).finish file = (p.finish file).map (·.withInput input) := by
  rw [finish, finish, run_withInput]
  cases p.run file <;> rfl

/-- Reading lines and taking them as they come is taking all lines, but for what is unread. -/
theorem takeAll_eq_takeLines (p : Prompt) (input : Input) :
    (p.takeAll file size).map (·.withInput input) =
      (p.ask.withInput input).takeLines file (p.shell.input.lines size) := by
  induction hlines : p.shell.input.lines size generalizing p with
  | nil =>
    have hend : ∃ rest, p.step file size = .inr <$> (p.ask.withInput rest).finish file := by
      unfold step
      split
      · next line rest hread =>
        rw [Input.lines, hread] at hlines
        cases hlines
      · exact ⟨_, rfl⟩
    obtain ⟨rest, hstep⟩ := hend
    rw [takeLines, takeAll, hstep, finish_withInput, finish_withInput]
    cases p.ask.finish file <;> rfl
  | cons line later ih =>
    obtain ⟨rest, hread, hlater⟩ := Input.readLine_of_lines_cons hlines
    have hstep : p.step file size = (p.ask.withInput rest).take file line := by
      rw [step, hread]
    rw [takeLines, takeAll, hstep, take_withInput, take_withInput]
    cases htake : p.ask.take file line with
    | error e => rfl
    | ok next =>
      cases next with
      | inr s => rfl
      | inl q => exact ih (q.withInput rest) hlater

theorem take_incomplete {p : Prompt} {line : List UInt8}
    (h : (p.draft.add line).isComplete p.shell.runtime = false) :
    p.take file line = .ok (.inl ⟨p.shell, p.draft.add line⟩) := by
  simp only [take, h]
  rfl

theorem take_complete {p : Prompt} {line : List UInt8}
    (h : (p.draft.add line).isComplete p.shell.runtime = true) :
    p.take file line = (run file ⟨p.shell, p.draft.add line⟩).map fun s =>
      if s.session.quitting then .inr (leave s) else .inl ⟨s, (p.draft.add line).after⟩ := by
  simp only [take, h]
  rfl

theorem add_ne_nil (d : Draft) {line : List UInt8} (hline : line ≠ []) :
    (d.add line).bytes ≠ [] :=
  fun h => hline (List.append_eq_nil_iff.mp h).2

/-- Taking lines is asking for one unit after the other, running each, and leaving. -/
theorem takeLines_eq_units (s : Shell) (d : Draft) (lines : List (List UInt8))
    (hlines : ∀ line ∈ lines, line ≠ []) :
    takeLines file ⟨write text s, d⟩ lines = leave <$>
      (units file ⟨write text s, d⟩ lines).foldlM (fun s d => run file ⟨write text s, d⟩) s := by
  -- Over the lines, for every draft: a line is added to it or ends it.
  induction lines generalizing s d with
  | nil =>
    rw [takeLines, units, finish]
    simp
  | cons line rest ih =>
    obtain ⟨hline, hrest⟩ := List.forall_mem_cons.mp hlines
    rw [takeLines, units]
    cases hcomplete : (d.add line).isComplete (write text s).runtime with
    | false =>
      rw [take_incomplete hcomplete]
      have hask := ask_of_ne_nil (p := ⟨write text s, d.add line⟩) (add_ne_nil d hline)
      change takeLines file (ask ⟨write text s, d.add line⟩) rest = leave <$>
        (units file (ask ⟨write text s, d.add line⟩) rest).foldlM _ s
      rw [hask]
      exact ih s (d.add line) hrest
    | true =>
      rw [take_complete hcomplete, if_pos rfl, List.foldlM_cons]
      dsimp only
      cases run file ⟨write text s, d.add line⟩ with
      | error e => rfl
      | ok s' =>
        cases hquit : s'.session.quitting with
        | true =>
          simp only [Except.map, hquit, if_true]
          rfl
        | false =>
          simp only [Except.map, hquit, Bool.false_eq_true, if_false]
          exact ih s' _ hrest

/-- What is run are the drafts that lines make, group by group, in the order in which they were
read. Only at the end of all lines a draft can be without any. -/
theorem units_eq_ofGroups (p : Prompt) (lines got : List (List UInt8)) (n : Nat)
    (h : p.draft = ⟨n, got.length, got.flatten⟩) :
    ∃ groups rest, p.units file lines = Draft.ofGroups n groups ∧
      got ++ lines = groups.flatten ++ rest ∧
      ∀ front back, groups = front ++ [] :: back → back = [] ∧ rest = [] := by
  induction lines generalizing p got n with
  | nil =>
    refine ⟨[got], [], by rw [units, h]; rfl, by simp, fun front back hgroups => ?_⟩
    cases front with
    | nil => exact ⟨(List.cons.inj hgroups).2.symm, rfl⟩
    | cons _ front => cases front <;> cases (List.cons.inj hgroups).2
  | cons line lines ih =>
    have hadd : p.draft.add line = ⟨n, (got ++ [line]).length, (got ++ [line]).flatten⟩ := by
      simp [Draft.add, h]
    have ended : ∃ groups rest,
        [⟨n, (got ++ [line]).length, (got ++ [line]).flatten⟩] = Draft.ofGroups n groups ∧
          got ++ line :: lines = groups.flatten ++ rest ∧
          ∀ front back, groups = front ++ [] :: back → back = [] ∧ rest = [] := by
      refine ⟨[got ++ [line]], lines, rfl, by simp, fun front back hgroups => ?_⟩
      cases front with
      | nil => simp at hgroups
      | cons _ front => cases front <;> cases (List.cons.inj hgroups).2
    rw [units]
    cases hcomplete : (p.draft.add line).isComplete p.shell.runtime with
    | false =>
      obtain ⟨groups, rest, hunits, hlines, hempty⟩ :=
        ih (ask ⟨p.shell, p.draft.add line⟩) _ _ hadd
      rw [take_incomplete hcomplete]
      exact ⟨groups, rest, hunits, by rw [← hlines, List.append_assoc]; rfl, hempty⟩
    | true =>
      rw [take_complete hcomplete, if_pos rfl, hadd]
      cases run file ⟨p.shell, ⟨n, (got ++ [line]).length, (got ++ [line]).flatten⟩⟩ with
      | error e => exact ended
      | ok s =>
        cases hquit : s.session.quitting with
        | true =>
          simp only [Except.map, hquit, if_true]
          exact ended
        | false =>
          obtain ⟨groups, rest, hunits, hlines, hempty⟩ :=
            ih (ask ⟨s, .blank (n + (got ++ [line]).length)⟩) [] _ rfl
          simp only [Except.map, hquit, Bool.false_eq_true, if_false]
          refine ⟨(got ++ [line]) :: groups, rest, congrArg _ hunits, ?_, ?_⟩
          · rw [List.flatten_cons, List.append_assoc, ← hlines]
            simp
          · intro front back hgroups
            cases front with
            | nil => simp at hgroups
            | cons first front => exact hempty front back (List.cons.inj hgroups).2

end Prompt

namespace Shell

open Prompt (lineBufferSize)

/-- The units that are typed on standard input, read through a buffer for lines. -/
def units (file : String → FileState) (bufferSize : Nat) (s : Shell) : List Draft :=
  (Prompt.start s).ask.units file (s.input.lines bufferSize)

theorem units_eq_ofGroups (file : String → FileState) (bufferSize : Nat) (s : Shell) :
    ∃ groups rest, s.units file bufferSize = Draft.ofGroups 0 groups ∧
      s.input.lines bufferSize = groups.flatten ++ rest ∧
      ∀ front back, groups = front ++ [] :: back → back = [] ∧ rest = [] :=
  Prompt.units_eq_ofGroups (Prompt.start s).ask (s.input.lines bufferSize) [] 0 rfl

theorem units_cut {file : String → FileState} {bufferSize : Nat} {s : Shell} {d : Draft}
    {front back : List Draft} (h : s.units file bufferSize = front ++ d :: back) :
    ∃ read unread, s.input.lines bufferSize = read ++ unread ∧
      (front ++ [d]).flatMap Draft.bytes = read.flatten := by
  obtain ⟨groups, rest, hunits, hlines, -⟩ := units_eq_ofGroups file bufferSize s
  obtain ⟨before, group, after, rfl, rfl, rfl⟩ := Draft.of_ofGroups_eq_append (hunits ▸ h)
  refine ⟨before.flatten ++ group, after.flatten ++ rest, ?_, ?_⟩
  · rw [hlines]
    simp
  · simp [Draft.flatMap_bytes_ofGroups]

/-- Where every line fits the buffer, a unit that is not empty begins behind as many lines as
there are line breaks in front of it. -/
theorem linesBefore_of_fits {file : String → FileState} {s : Shell} {bufferSize : Nat}
    {d : Draft} {front back : List Draft} (hfits : s.input.Fits bufferSize)
    (h : s.units file bufferSize = front ++ d :: back) (hd : d.bytes ≠ []) :
    d.linesBefore = (front.flatMap Draft.bytes).count Input.newline := by
  obtain ⟨groups, rest, hunits, hlines, -⟩ := units_eq_ofGroups file bufferSize s
  obtain ⟨before, group, after, rfl, rfl, rfl⟩ := Draft.of_ofGroups_eq_append (hunits ▸ h)
  have hgroup : group ≠ [] := by
    rintro rfl
    exact hd rfl
  rw [Input.lines_of_fits hfits, List.flatten_append, List.flatten_cons, List.append_assoc,
    List.append_assoc] at hlines
  rw [Draft.flatMap_bytes_ofGroups, Nat.zero_add]
  refine (@Input.count_newline_flatten s.input.bytes _ fun line hline => ⟨?_, ?_⟩).symm
  · refine Input.mem_splitLines_of_mem_wholeLines ?_
    rw [hlines]
    exact List.mem_append_left _ hline
  · obtain ⟨first, last, hbefore⟩ := List.append_of_mem hline
    rw [hbefore, List.append_assoc, List.cons_append] at hlines
    refine Input.getLast?_of_wholeLines hlines fun hnil => hgroup ?_
    exact (List.append_eq_nil_iff.mp (List.append_eq_nil_iff.mp hnil).2).1

/-- Where every line fits the buffer, a unit ends in a line break unless it ends where the
stream does. -/
theorem getLast?_of_fits {file : String → FileState} {s : Shell} {bufferSize : Nat}
    {d : Draft} {front back : List Draft} (hfits : s.input.Fits bufferSize)
    (h : s.units file bufferSize = front ++ d :: back) :
    d.bytes.getLast? = some Input.newline ∨
      (front ++ [d]).flatMap Draft.bytes = s.input.wholeLines.flatten := by
  obtain ⟨groups, rest, hunits, hlines, hempty⟩ := units_eq_ofGroups file bufferSize s
  obtain ⟨before, group, after, rfl, rfl, rfl⟩ := Draft.of_ofGroups_eq_append (hunits ▸ h)
  rw [Input.lines_of_fits hfits] at hlines
  rw [List.flatMap_append, Draft.flatMap_bytes_ofGroups, List.flatMap_singleton]
  rcases List.eq_nil_or_concat group with rfl | ⟨first, line, rfl⟩
  · obtain ⟨rfl, rfl⟩ := hempty before after rfl
    simp [hlines]
  · by_cases hmore : after.flatten ++ rest = []
    · obtain ⟨hafter, rfl⟩ := List.append_eq_nil_iff.mp hmore
      simp [hlines, hafter]
    · refine .inl ?_
      have hline : line.getLast? = some Input.newline := by
        have hsplit : s.input.wholeLines =
            (before.flatten ++ first) ++ line :: (after.flatten ++ rest) := by
          rw [hlines]
          simp
        exact Input.getLast?_of_wholeLines hsplit hmore
      simp [hline]

section Blank

def IsBlank (bytes : List UInt8) : Prop :=
  ∀ b ∈ bytes, b = 32 ∨ b = Input.newline

instance (bytes : List UInt8) : Decidable (IsBlank bytes) :=
  inferInstanceAs (Decidable (∀ b ∈ bytes, _))

theorem readUtf8_blank {bytes : List UInt8} (h : IsBlank bytes) :
    Text.endsInsideChar 0 bytes = false ∧
      ∀ c ∈ Text.readUtf8From 0 bytes, c = ' ' ∨ c = '\n' := by
  induction bytes with
  | nil => exact ⟨rfl, by simp [Text.readUtf8From]⟩
  | cons b rest ih =>
    obtain ⟨hb, hrest⟩ := List.forall_mem_cons.mp h
    obtain ⟨hwhole, hchars⟩ := ih hrest
    have hpiece : Text.utf8Piece b rest = .char ' ' 1 ∨ Text.utf8Piece b rest = .char '\n' 1 := by
      rcases hb with rfl | rfl
      · exact .inl rfl
      · exact .inr rfl
    rw [Text.endsInsideChar, Text.readUtf8From]
    rcases hpiece with hpiece | hpiece <;> simpa [hpiece, hwhole] using hchars

theorem scanFrom_blank (lets newline : Bool) (l : Location) {text : List Char}
    (h : ∀ c ∈ text, c = ' ' ∨ c = '\n') : ∃ finish newlineAtEnd,
      Scan.scanFrom lets (.blank newline) l text = .ok ⟨[], finish, newlineAtEnd⟩ := by
  induction text generalizing newline l with
  | nil => exact ⟨l, newline, rfl⟩
  | cons c rest ih =>
    obtain ⟨hc, hrest⟩ := List.forall_mem_cons.mp h
    rw [Scan.scanFrom]
    rcases hc with rfl | rfl
    · rw [if_neg (by decide), if_pos (by decide)]
      exact ih _ _ hrest
    · rw [if_pos (by decide)]
      exact ih _ _ hrest

theorem ofSource_blank {bytes : List UInt8} (options : ParseOptions) (h : IsBlank bytes) :
    Program.ofSource options (Text.readUtf8 bytes) = .ok (⟨[], []⟩, []) := by
  obtain ⟨finish, newlineAtEnd, hscan⟩ :=
    scanFrom_blank options.letKeywords false (.start (max 1 options.startLine)) (readUtf8_blank h).2
  rw [Program.ofSource, Tokens.ofSource, Text.readUtf8, String.toList_ofList, hscan]
  rfl

theorem run_blank (file : String → FileState) {p : Prompt} (h : IsBlank p.draft.bytes) :
    ∃ r, p.run file = .ok { p.shell with runtime := r } := by
  have hcompile (r : Runtime) (line : Nat) (state : Session) :
      r.compile (Session.host file) (some Prompt.unitName) line p.draft.source state =
        (.ok ⟨[], []⟩, state) := by
    rw [Runtime.compile, Draft.source, ofSource_blank _ h]
    rfl
  rw [Prompt.run, runSource]
  simp only [hcompile]
  exact ⟨_, rfl⟩

theorem isComplete_blank {d : Draft} (r : Runtime) (h : IsBlank d.bytes) :
    d.isComplete r = true := by
  rw [Draft.isComplete, (readUtf8_blank h).1, Runtime.isCompilable, isCompilable, Draft.source,
    ofSource_blank _ h]
  rfl

/-- Each blank line is a unit of its own, after which the prompt asks again. -/
theorem takeLines_blank {file : String → FileState} {s : Shell} {d : Draft}
    {lines : List (List UInt8)} (hd : d.bytes = []) (hlines : ∀ line ∈ lines, IsBlank line)
    (hquit : s.session.quitting = false) :
    (Prompt.takeLines file ⟨Prompt.write Prompt.text s, d⟩ lines).toOption.map (·.session.out) =
      some ((List.replicate lines.length Prompt.text).foldl (· ++ ·)
        (s.session.out ++ Prompt.text) ++ "\n") := by
  induction lines generalizing s d with
  | nil =>
    have hblank : IsBlank d.bytes := by simp [hd, IsBlank]
    obtain ⟨r, hrun⟩ := run_blank file (p := ⟨Prompt.write Prompt.text s, d⟩) hblank
    rw [Prompt.takeLines, Prompt.finish, hrun]
    rfl
  | cons line lines ih =>
    obtain ⟨hline, hlines⟩ := List.forall_mem_cons.mp hlines
    have hblank : IsBlank (d.add line).bytes := by simpa [Draft.add, hd] using hline
    obtain ⟨r, hrun⟩ := run_blank file (p := ⟨Prompt.write Prompt.text s, d.add line⟩) hblank
    rw [Prompt.takeLines, Prompt.take_complete (isComplete_blank _ hblank)]
    have hasks : (Prompt.write Prompt.text s).session.quitting = false := hquit
    simp only [hrun, Except.map, hasks, Bool.false_eq_true, if_false]
    exact ih rfl hlines hquit

theorem interact_eq_takeLines (file : String → FileState) (size : Nat) (s : Shell) :
    (s.interact file size).map (·.withInput s.input) =
      Prompt.takeLines file ⟨Prompt.write Prompt.text s, .blank 0⟩ (s.input.lines size) :=
  Prompt.takeAll_eq_takeLines (.start s) s.input

theorem out_interact_blank {file : String → FileState} {size : Nat} {s : Shell}
    (hlines : ∀ line ∈ s.input.lines size, IsBlank line) (hquit : s.session.quitting = false) :
    (s.interact file size).toOption.map (·.session.out) =
      some ((List.replicate (s.input.lines size).length Prompt.text).foldl (· ++ ·)
        (s.session.out ++ Prompt.text) ++ "\n") := by
  have hout : (s.interact file size).toOption.map (·.session.out) =
      ((s.interact file size).map (·.withInput s.input)).toOption.map (·.session.out) := by
    cases s.interact file size <;> rfl
  rw [hout, interact_eq_takeLines]
  exact takeLines_blank rfl hlines hquit

end Blank

/-- The prompt runs the units that are typed, one by one, and they end only where a piece that
was read ends. Where every line fits the buffer for lines, a larger one changes nothing, units
end only behind whole lines or at the end of the stream, and each that is not empty starts at
the line that it stands on. Shells are compared but for standard input, of which each keeps
what it has not read. -/
theorem interact_buffered (file : String → FileState) (s : Shell) :
    (∀ size, (s.interact file size).map (·.withInput s.input) = Prompt.leave <$>
        (s.units file size).foldlM
          (fun s d => Prompt.run file ⟨Prompt.write Prompt.text s, d⟩) s) ∧
      (∀ size front d back, s.units file size = front ++ d :: back →
        ∃ read unread, s.input.lines size = read ++ unread ∧
          (front ++ [d]).flatMap Draft.bytes = read.flatten) ∧
      (s.input.Fits lineBufferSize →
        (∀ size, lineBufferSize ≤ size → (s.interact file size).map (·.withInput s.input) =
          (s.interact file lineBufferSize).map (·.withInput s.input)) ∧
        ∀ front d back, s.units file lineBufferSize = front ++ d :: back →
          (d.bytes ≠ [] →
            d.linesBefore + 1 = 1 + (front.flatMap Draft.bytes).count Input.newline) ∧
          (d.bytes.getLast? = some Input.newline ∨
            (front ++ [d]).flatMap Draft.bytes = s.input.wholeLines.flatten)) := by
  refine ⟨fun size => ?_, fun size front d back => units_cut,
    fun hfits => ⟨fun size hsize => ?_, fun front d back h => ⟨fun hd => ?_, ?_⟩⟩⟩
  · rw [interact_eq_takeLines]
    exact Prompt.takeLines_eq_units s _ _ fun _ => Input.ne_nil_of_mem_lines
  · rw [interact_eq_takeLines, interact_eq_takeLines, Input.lines_of_fits hfits,
      Input.lines_of_fits (hfits.mono hsize)]
  · rw [linesBefore_of_fits hfits h hd, Nat.add_comm]
  · exact getLast?_of_fits hfits h

def blankLine : Shell :=
  .new .bare ⟨[List.replicate 255 32 ++ [Input.newline]], none⟩

/-- A line that is one byte longer than the buffer holds is cut in front of its line break, and
both pieces are units. -/
theorem interact_blankLine :
    (blankLine.interact (fun _ => .unknown) lineBufferSize).toOption.map (·.session.out) =
        some "js> js> js> \n" ∧
      (blankLine.interact (fun _ => .unknown) 257).toOption.map (·.session.out) =
        some "js> js> \n" ∧
      (blankLine.units (fun _ => .unknown) lineBufferSize).head? =
        some ⟨0, 1, List.replicate 255 32⟩ := by
  have hcut : blankLine.input.lines lineBufferSize =
      [List.replicate 255 32, [Input.newline]] := by
    rw [Input.lines_eq]
    decide +kernel
  have hwhole : blankLine.input.lines 257 = [List.replicate 255 32 ++ [Input.newline]] := by
    rw [Input.lines_eq]
    decide +kernel
  refine ⟨?_, ?_, ?_⟩
  · rw [out_interact_blank (by rw [hcut]; decide +kernel) rfl, hcut]
    rfl
  · rw [out_interact_blank (by rw [hwhole]; decide +kernel) rfl, hwhole]
    rfl
  · have hcomplete : Draft.isComplete blankLine.runtime ⟨0, 1, List.replicate 255 32⟩ = true :=
      isComplete_blank _ (by decide +kernel)
    rw [units, hcut, Prompt.units]
    exact if_pos hcomplete ▸ rfl

def typedBlock : Shell :=
  .new .bare ⟨[[123, Input.newline, 125, Input.newline, 59]], none⟩

theorem interact_buffered_typedBlock :
    typedBlock.input.Fits lineBufferSize ∧
      typedBlock.units (fun _ => .unknown) lineBufferSize =
        [⟨0, 2, [123, Input.newline, 125, Input.newline]⟩] ++ ⟨2, 1, [59]⟩ :: [⟨3, 0, []⟩] ∧
      (typedBlock.interact (fun _ => .unknown) 4096).map (·.withInput typedBlock.input) =
        (typedBlock.interact (fun _ => .unknown) lineBufferSize).map
          (·.withInput typedBlock.input) ∧
      2 + 1 = 1 + [123, Input.newline, 125, Input.newline].count Input.newline ∧
      typedBlock.input.wholeLines.flatten = [123, Input.newline, 125, Input.newline, 59] := by
  have hfits : typedBlock.input.Fits lineBufferSize := by decide
  have hunits : typedBlock.units (fun _ => .unknown) lineBufferSize =
      [⟨0, 2, [123, Input.newline, 125, Input.newline]⟩] ++ ⟨2, 1, [59]⟩ :: [⟨3, 0, []⟩] := by
    decide +kernel
  obtain ⟨hsame, hunit⟩ := (interact_buffered (fun _ => .unknown) typedBlock).2.2 hfits
  obtain ⟨hstart, hend⟩ := hunit _ _ _ hunits
  exact ⟨hfits, hunits, hsame 4096 (by decide), hstart (by decide),
    (hend.resolve_left (by decide)).symm⟩

end Shell

end ScriptShell
