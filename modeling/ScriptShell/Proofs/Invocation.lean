import Mathlib.Data.List.TakeWhile
import ScriptShell.Invocation
import ScriptShell.Proofs.Number.Digits

namespace ScriptShell

namespace Action

/-- Sizes stay below `2 ^ 63`. -/
def InRange : Action → Prop
  | .chunkSize size | .maxStack size => size < 2 ^ 63
  | _ => True

/-- The arguments that ask for an action, in their standard form. -/
def arguments : Action → List String
  | .setVersion version => ["-v", toString version.toNat]
  | .showWarnings on => [if on then "-w" else "-W"]
  | .toggleStrict => ["-s"]
  | .sealGlobals => ["-P"]
  | .chunkSize size => ["-c", toString size]
  | .branchLimit limit => ["-b", toString limit.toNat]
  | .runFile name => ["-f", name]
  | .maxStack size => ["-S", toString size]

end Action

namespace Invocation

open Number

def IsScriptName (arg : String) : Prop :=
  arg = "-" ∨ arg.toList.head? ≠ some '-'

def plainFlags : List Char := ['w', 'W', 's', 'P']

def parameterFlags : List Char := ['v', 'c', 'b', 'f', 'S']

/-- Whether some arguments are a flag with all that it takes, asking for an action. -/
inductive Asks : List String → Action → Prop
  | plain {flag : String} {action : Action} (hflag : ¬ IsScriptName flag)
      (haction : plainAction? (flagChar flag) = some action) : Asks [flag] action
  | withParameter {flag parameter : String} {action : Action} (hflag : ¬ IsScriptName flag)
      (haction : parameterAction? parameter (flagChar flag) = some action) :
      Asks [flag, parameter] action

/-- Whether some arguments are flags that ask for these actions. -/
inductive Flags : List String → List Action → Prop
  | nil : Flags [] []
  | cons {group rest : List String} {action : Action} {actions : List Action}
      (hgroup : Asks group action) (hrest : Flags rest actions) :
      Flags (group ++ rest) (action :: actions)

/-- Whether some arguments begin with what cannot be read. -/
inductive FailsAt : List String → UsageError → Prop
  | unknown {flag : String} {rest : List String} (hflag : ¬ IsScriptName flag)
      (hplain : flagChar flag ∉ plainFlags) (hparameter : flagChar flag ∉ parameterFlags) :
      FailsAt (flag :: rest) (.unknownOption flag)
  | missing {flag : String} (hflag : ¬ IsScriptName flag)
      (hparameter : flagChar flag ∈ parameterFlags) : FailsAt [flag] (.missingParameter flag)

/-- Whether arguments are at the end of the flags: nothing follows, or the name of a script, or what
cannot be read. -/
inductive Ends : List String → Prop
  | nothing : Ends []
  | script {name : String} {rest : List String} (hname : IsScriptName name) : Ends (name :: rest)
  | failure {args : List String} {e : UsageError} (hfails : FailsAt args e) : Ends args

/-- Whether the script of an invocation is named as a script can be; no arguments are left to a
script that is not named. -/
def NamesScript (i : Invocation) : Prop :=
  match i.filename with
  | some name => IsScriptName name
  | none => i.scriptArgs = []

/-- Whether an invocation can be asked for. -/
structure Writable (i : Invocation) : Prop where
  inRange : ∀ action ∈ i.actions, action.InRange
  namesScript : i.NamesScript

/-- The arguments that ask for an invocation, in their standard form. -/
def arguments (i : Invocation) : List String :=
  i.actions.flatMap Action.arguments ++ (i.filename.toList ++ i.scriptArgs)

section Characters

variable {c : Char} {arg parameter : String}

theorem isPositional_iff : isPositional arg = true ↔ IsScriptName arg := by
  unfold isPositional IsScriptName
  rw [Bool.or_eq_true, decide_eq_true_eq, decide_eq_true_eq, or_comm]
  by_cases hhead : arg.toList.head? = some '-'
  · obtain ⟨rest, hrest⟩ := List.head?_eq_some_iff.mp hhead
    rw [← String.toList_inj, hrest]
    simp
  · simp [hhead]

theorem isPositional_of_not (h : ¬ IsScriptName arg) : isPositional arg = false := by
  rwa [← isPositional_iff, Bool.not_eq_true] at h

theorem plainAction?_eq_none_iff : plainAction? c = none ↔ c ∉ plainFlags := by
  unfold plainAction? plainFlags
  split <;> simp_all

theorem parameterAction?_eq_none_iff :
    parameterAction? parameter c = none ↔ c ∉ parameterFlags := by
  unfold parameterAction? parameterFlags
  split <;> simp_all

theorem takesParameter_iff : takesParameter c = true ↔ c ∈ parameterFlags := by
  simp only [takesParameter, parameterFlags, Bool.or_eq_true, decide_eq_true_eq, List.mem_cons,
    List.not_mem_nil, or_false]
  tauto

theorem not_mem_plainFlags (h : c ∈ parameterFlags) : c ∉ plainFlags := by
  simp only [parameterFlags, List.mem_cons, List.not_mem_nil, or_false] at h
  rcases h with rfl | rfl | rfl | rfl | rfl <;> decide

theorem takesParameter_of_plain {action : Action} (h : plainAction? c = some action) :
    takesParameter c = false := by
  rw [Bool.eq_false_iff, ne_eq, takesParameter_iff]
  intro hmem
  rw [plainAction?_eq_none_iff.mpr (not_mem_plainFlags hmem)] at h
  cases h

theorem mem_parameterFlags {action : Action} (h : parameterAction? parameter c = some action) :
    c ∈ parameterFlags := by
  refine Decidable.byContradiction fun hmem => ?_
  rw [parameterAction?_eq_none_iff.mpr hmem] at h
  cases h

end Characters

section Reading

variable {args group rest : List String} {flag name : String} {action : Action}
  {actions : List Action} {e : UsageError} {i : Invocation}

def ask (action : Action) (i : Invocation) : Invocation :=
  { i with actions := action :: i.actions }

theorem scriptArguments_cons (arg : String) (rest : List String) :
    scriptArguments (arg :: rest) =
      if isPositional arg then rest
      else if takesParameter (flagChar arg) then scriptArguments rest.tail
      else scriptArguments rest := by
  cases rest <;> rw [scriptArguments] <;> rfl

theorem readFlags_script (h : isPositional name = true) :
    readFlags (name :: rest) = .ok ([], some name) := by
  cases rest <;> simp only [readFlags, h, if_true]

theorem readFlags_plain (hflag : isPositional flag = false)
    (haction : plainAction? (flagChar flag) = some action) :
    readFlags (flag :: rest) = (readFlags rest).map fun r => (action :: r.1, r.2) := by
  cases rest <;> simp only [readFlags, hflag, haction, Bool.false_eq_true, if_false]

theorem readFlags_unknown (hflag : isPositional flag = false)
    (hplain : plainAction? (flagChar flag) = none)
    (hparameter : takesParameter (flagChar flag) = false) :
    readFlags (flag :: rest) = .error (.unknownOption flag) := by
  cases rest <;> simp only [readFlags, hflag, hplain, hparameter, Bool.false_eq_true, if_false]

theorem ofArguments_nil : ofArguments [] = .ok ⟨[], none, []⟩ := rfl

theorem ofArguments_script (h : IsScriptName name) :
    ofArguments (name :: rest) = .ok ⟨[], some name, rest⟩ := by
  have hpositional := isPositional_iff.mpr h
  rw [ofArguments, readFlags_script hpositional, scriptArguments_cons, if_pos hpositional]
  rfl

theorem ofArguments_asks (h : Asks group action) :
    ofArguments (group ++ rest) = (ofArguments rest).map (ask action) := by
  cases h with
  | plain hflag haction =>
    have hflag := isPositional_of_not hflag
    have htakes := takesParameter_of_plain haction
    rw [ofArguments, ofArguments, List.singleton_append, readFlags_plain hflag haction]
    simp only [scriptArguments_cons, hflag, htakes, Bool.false_eq_true, if_false]
    cases readFlags rest <;> rfl
  | withParameter hflag haction =>
    have hflag := isPositional_of_not hflag
    have hmem := mem_parameterFlags haction
    have hplain := plainAction?_eq_none_iff.mpr (not_mem_plainFlags hmem)
    have htakes := takesParameter_iff.mpr hmem
    simp only [ofArguments, List.cons_append, List.nil_append, readFlags, scriptArguments, hflag,
      haction, hplain, htakes, Bool.false_eq_true, if_false, if_true]
    cases readFlags rest <;> rfl

theorem ofArguments_flags (h : Flags args actions) :
    ofArguments (args ++ rest) =
      (ofArguments rest).map fun i => { i with actions := actions ++ i.actions } := by
  induction h with
  | nil => cases hrest : ofArguments rest <;> simp [hrest, Except.map]
  | cons hgroup _ ih =>
    rw [List.append_assoc, ofArguments_asks hgroup, ih]
    cases ofArguments rest <;> rfl

theorem ofArguments_failsAt (h : FailsAt args e) : ofArguments args = .error e := by
  cases h with
  | unknown hflag hplain hparameter =>
    have htakes := Bool.eq_false_iff.mpr (mt takesParameter_iff.mp hparameter)
    rw [ofArguments, readFlags_unknown (isPositional_of_not hflag)
      (plainAction?_eq_none_iff.mpr hplain) htakes]
    rfl
  | missing hflag hparameter =>
    simp only [ofArguments, readFlags, isPositional_of_not hflag,
      plainAction?_eq_none_iff.mpr (not_mem_plainFlags hparameter),
      takesParameter_iff.mpr hparameter, Bool.false_eq_true, if_false, if_true]
    rfl

/-- All flags that can be read are at the front. -/
theorem exists_flags (args : List String) : ∃ flags actions behind,
    args = flags ++ behind ∧ Flags flags actions ∧ Ends behind := by
  -- By the number of arguments, as a flag with its parameter takes two of them.
  induction hlength : args.length using Nat.strongRecOn generalizing args with
  | ind n ih =>
    have further (group : List String) {rest : List String} {action : Action}
        (hargs : args = group ++ rest) (hgroup : Asks group action) : ∃ flags actions behind,
        args = flags ++ behind ∧ Flags flags actions ∧ Ends behind := by
      have hshorter : rest.length < n := by
        rw [← hlength, hargs, List.length_append]
        cases hgroup <;> simp
      obtain ⟨flags, actions, behind, rfl, hflags, hbehind⟩ := ih _ hshorter rest rfl
      exact ⟨group ++ flags, _, behind, by rw [hargs, List.append_assoc], .cons hgroup hflags,
        hbehind⟩
    match args with
    | [] => exact ⟨[], [], [], rfl, .nil, .nothing⟩
    | flag :: rest =>
      by_cases hflag : IsScriptName flag
      · exact ⟨[], [], _, rfl, .nil, .script hflag⟩
      cases hplain : plainAction? (flagChar flag) with
      | some action => exact further [flag] rfl (.plain hflag hplain)
      | none =>
        by_cases hmem : flagChar flag ∈ parameterFlags
        · match rest with
          | [] => exact ⟨[], [], _, rfl, .nil, .failure (.missing hflag hmem)⟩
          | parameter :: more =>
            cases haction : parameterAction? parameter (flagChar flag) with
            | some action =>
              exact further [flag, parameter] rfl (.withParameter hflag haction)
            | none => exact absurd hmem (parameterAction?_eq_none_iff.mp haction)
        · have hplain := plainAction?_eq_none_iff.mp hplain
          exact ⟨[], [], _, rfl, .nil, .failure (.unknown hflag hplain hmem)⟩

theorem ofArguments_named (h : i.NamesScript) :
    ofArguments (i.filename.toList ++ i.scriptArgs) = .ok { i with actions := [] } := by
  obtain ⟨actions, filename, scriptArgs⟩ := i
  cases filename with
  | none =>
    obtain rfl : scriptArgs = [] := h
    exact ofArguments_nil
  | some name => exact ofArguments_script h

theorem ofArguments_eq_ok_iff : ofArguments args = .ok i ↔
    ∃ flags, args = flags ++ (i.filename.toList ++ i.scriptArgs) ∧ Flags flags i.actions ∧
      i.NamesScript := by
  constructor
  · intro h
    obtain ⟨flags, actions, behind, rfl, hflags, hbehind⟩ := exists_flags args
    rw [ofArguments_flags hflags] at h
    cases hbehind with
    | nothing =>
      obtain rfl := Except.ok.inj h
      exact ⟨flags, rfl, by simpa using hflags, rfl⟩
    | script hname =>
      rw [ofArguments_script hname] at h
      obtain rfl := Except.ok.inj h
      exact ⟨flags, rfl, by simpa using hflags, hname⟩
    | failure hfails =>
      rw [ofArguments_failsAt hfails] at h
      cases h
  · rintro ⟨flags, rfl, hflags, hscript⟩
    rw [ofArguments_flags hflags, ofArguments_named hscript]
    simp [Except.map]

theorem ofArguments_eq_error_iff : ofArguments args = .error e ↔
    ∃ flags actions behind, args = flags ++ behind ∧ Flags flags actions ∧ FailsAt behind e := by
  constructor
  · intro h
    obtain ⟨flags, actions, behind, rfl, hflags, hbehind⟩ := exists_flags args
    rw [ofArguments_flags hflags] at h
    cases hbehind with
    | nothing => cases h
    | script hname =>
      rw [ofArguments_script hname] at h
      cases h
    | failure hfails =>
      rw [ofArguments_failsAt hfails] at h
      obtain rfl := Except.error.inj h
      exact ⟨flags, actions, _, rfl, hflags, hfails⟩
  · rintro ⟨flags, actions, behind, rfl, hflags, hfails⟩
    rw [ofArguments_flags hflags, ofArguments_failsAt hfails]
    rfl

end Reading

section Parameters

theorem foldl_clamped (digits : List Char) (n : Nat) :
    digits.foldl (fun (n : Int) c =>
        min maxInt64 (min maxInt64 (n * 10) + (c.toNat - '0'.toNat : Nat))) (min maxInt64 n) =
      min maxInt64 (ofDigitsFrom n digits) := by
  induction digits generalizing n with
  | nil => rfl
  | cons c digits ih =>
    have hstep : min maxInt64 (min maxInt64 (min maxInt64 n * 10) + (c.toNat - '0'.toNat : Nat)) =
        min maxInt64 ((n * 10 + (c.toNat - '0'.toNat) : Nat) : Int) := by
      unfold maxInt64
      omega
    rw [List.foldl_cons, hstep, ih]
    rfl

theorem leadingInteger_eq (text : String) :
    leadingInteger text = (if (splitSign (Text.trimStart text.toList)).1 then -1 else 1) *
      min maxInt64 (ofDigitsFrom 0
        (leadingDigits (splitSign (Text.trimStart text.toList)).2) : Int) := by
  have hsum := foldl_clamped (leadingDigits (splitSign (Text.trimStart text.toList)).2) 0
  change List.foldl _ (0 : Int) _ = _ at hsum
  unfold leadingInteger
  dsimp only
  rw [← leadingDigits, hsum]
  split_ifs <;> omega

theorem splitSign_trimStart {d : Char} (digits : List Char) (hd : d.isDigit) :
    splitSign (Text.trimStart (d :: digits)) = (false, d :: digits) := by
  obtain ⟨hle, hlt⟩ := toNat_of_isDigit hd
  have hzero : '0'.toNat = 48 := rfl
  have hblank : Text.isBlank d = false := by
    have hspace : d ≠ ' ' := by
      rintro rfl
      cases hd
    simp only [Text.isBlank, hspace, decide_false, Bool.false_or, Bool.or_eq_false_iff,
      Bool.and_eq_false_iff, decide_eq_false_iff_not]
    omega
  have htrim : Text.trimStart (d :: digits) = d :: digits := by
    rw [Text.trimStart, List.dropWhile_cons, hblank]
    rfl
  rw [htrim]
  unfold splitSign
  split
  · next heq => cases (List.cons.inj heq).1 ▸ hd
  · next heq => cases (List.cons.inj heq).1 ▸ hd
  · rfl

theorem leadingInteger_toString (n : Nat) :
    leadingInteger (toString n) = min maxInt64 (n : Int) := by
  have hall (c : Char) (hc : c ∈ Nat.toDigits 10 n) : c.isDigit :=
    Nat.isDigit_of_mem_toDigits (by decide) (by decide) hc
  have hlist : (toString n).toList = Nat.toDigits 10 n := by
    rw [Nat.toString_eq_repr, Nat.toList_repr]
  have hsign : splitSign (Text.trimStart (Nat.toDigits 10 n)) = (false, Nat.toDigits 10 n) := by
    have hne : Nat.toDigits 10 n ≠ [] := Nat.toDigits_ne_nil
    obtain ⟨d, digits, hdigits⟩ := List.exists_cons_of_ne_nil hne
    rw [hdigits]
    exact splitSign_trimStart digits (hall d (hdigits ▸ List.mem_cons_self))
  have htake : leadingDigits (Nat.toDigits 10 n) = Nat.toDigits 10 n :=
    List.takeWhile_eq_self_iff.mpr hall
  rw [leadingInteger_eq, hlist, hsign, htake, ofDigitsFrom_toDigits]
  exact Int.one_mul _

theorem leadingInteger_le (text : String) : leadingInteger text ≤ maxInt64 := by
  rw [leadingInteger_eq]
  unfold maxInt64
  split_ifs <;> omega

theorem parameter32_toString (n : UInt32) : parameter32 (toString n.toNat) = n := by
  have hlt := n.toNat_lt
  have hvalue : min maxInt64 (n.toNat : Int) = n.toNat := by
    unfold maxInt64
    omega
  unfold parameter32
  rw [leadingInteger_toString, hvalue, if_pos ⟨by omega, by unfold words32; omega⟩,
    Int.toNat_natCast, UInt32.ofNat_toNat]

theorem parameterSize_toString {n : Nat} (h : n < 2 ^ 63) : parameterSize (toString n) = n := by
  unfold parameterSize
  rw [leadingInteger_toString]
  unfold maxInt64
  omega

theorem parameterSize_lt (text : String) : parameterSize text < 2 ^ 63 := by
  have := leadingInteger_le text
  unfold parameterSize
  unfold maxInt64 at this
  omega

end Parameters

variable {group flags : List String} {action : Action} {actions : List Action} {i : Invocation}

theorem Asks.inRange (h : Asks group action) : action.InRange := by
  cases h with
  | plain _ haction =>
    unfold plainAction? at haction
    split at haction <;> cases haction <;> trivial
  | withParameter _ haction =>
    unfold parameterAction? at haction
    split at haction <;> cases haction <;> first | trivial | exact parameterSize_lt _

theorem Flags.inRange (h : Flags flags actions) : ∀ action ∈ actions, action.InRange := by
  induction h with
  | nil => nofun
  | cons hgroup _ ih => exact List.forall_mem_cons.mpr ⟨hgroup.inRange, ih⟩

section Dash

variable {c : Char} {parameter : String}

theorem not_isScriptName (c : Char) : ¬ IsScriptName (String.ofList ['-', c]) := by
  simp [IsScriptName, ← String.toList_inj]

theorem flagChar_dash (c : Char) : flagChar (String.ofList ['-', c]) = c := by
  rw [flagChar, String.toList_ofList]
  rfl

theorem asks_plain (h : plainAction? c = some action) : Asks [String.ofList ['-', c]] action :=
  .plain (not_isScriptName c) (by rwa [flagChar_dash])

theorem asks_withParameter (h : parameterAction? parameter c = some action) :
    Asks [String.ofList ['-', c], parameter] action :=
  .withParameter (not_isScriptName c) (by rwa [flagChar_dash])

end Dash

theorem asks_arguments (h : action.InRange) : Asks action.arguments action := by
  cases action with
  | setVersion version =>
    exact asks_withParameter (c := 'v')
      (congrArg (some ∘ Action.setVersion) (parameter32_toString version))
  | showWarnings on =>
    cases on with
    | false => exact asks_plain (c := 'W') rfl
    | true => exact asks_plain (c := 'w') rfl
  | toggleStrict => exact asks_plain (c := 's') rfl
  | sealGlobals => exact asks_plain (c := 'P') rfl
  | chunkSize size =>
    exact asks_withParameter (c := 'c')
      (congrArg (some ∘ Action.chunkSize) (parameterSize_toString h))
  | branchLimit limit =>
    exact asks_withParameter (c := 'b')
      (congrArg (some ∘ Action.branchLimit) (parameter32_toString limit))
  | runFile name => exact asks_withParameter (c := 'f') rfl
  | maxStack size =>
    exact asks_withParameter (c := 'S')
      (congrArg (some ∘ Action.maxStack) (parameterSize_toString h))

theorem flags_arguments (h : ∀ action ∈ actions, action.InRange) :
    Flags (actions.flatMap Action.arguments) actions := by
  induction actions with
  | nil => exact .nil
  | cons action actions ih =>
    obtain ⟨haction, hactions⟩ := List.forall_mem_cons.mp h
    exact .cons (asks_arguments haction) (ih hactions)

theorem writable_of_ofArguments {args : List String} (h : ofArguments args = .ok i) :
    i.Writable := by
  obtain ⟨flags, -, hflags, hscript⟩ := ofArguments_eq_ok_iff.mp h
  exact ⟨hflags.inRange, hscript⟩

theorem ofArguments_arguments (h : i.Writable) : ofArguments i.arguments = .ok i :=
  ofArguments_eq_ok_iff.mpr ⟨_, rfl, flags_arguments h.inRange, h.namesScript⟩

/-- A command line is read once, from left to right: the script and its arguments are what stands
behind the flags, and reading fails just at the first flag that is unknown or lacks its parameter.
Every invocation that is read from anything is read from its standard form. -/
theorem ofArguments_grammar (args : List String) (i : Invocation) (e : UsageError) :
    (ofArguments args = .ok i ↔
      ∃ flags, args = flags ++ (i.filename.toList ++ i.scriptArgs) ∧ Flags flags i.actions ∧
        i.NamesScript) ∧
    (ofArguments args = .error e ↔
      ∃ flags actions behind,
        args = flags ++ behind ∧ Flags flags actions ∧ FailsAt behind e) ∧
    (ofArguments i.arguments = .ok i ↔ i.Writable) ∧
    ((∃ args', ofArguments args' = .ok i) ↔ i.Writable) := by
  refine ⟨ofArguments_eq_ok_iff, ofArguments_eq_error_iff, ⟨writable_of_ofArguments, ?_⟩, ?_, ?_⟩
  · exact ofArguments_arguments
  · rintro ⟨args', hargs'⟩
    exact writable_of_ofArguments hargs'
  · exact fun h => ⟨i.arguments, ofArguments_arguments h⟩

end Invocation

end ScriptShell
