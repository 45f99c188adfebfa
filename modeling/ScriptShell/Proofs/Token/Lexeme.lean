import Mathlib.Data.List.Find
import ScriptShell.Token.Scan

namespace ScriptShell.Scan

variable {c q : Char} {x y t z : List Char}

/-- A line break, a carriage return or a space lies where one text ends and the other begins. -/
def Parted (x t : List Char) : Prop :=
  x.getLast? = some '\n' ∨ ∃ w t', t = w :: t' ∧ (w = ' ' ∨ w = '\n' ∨ w = '\r')

namespace Parted

theorem tail (h : Parted (c :: x) t) (hc : c ≠ '\n') : Parted x t := by
  refine h.imp_left fun hx => ?_
  cases x with
  | nil => exact absurd (Option.some.inj hx) hc
  | cons c' x => rwa [List.getLast?_cons_cons] at hx

theorem nil (h : Parted [] t) : ∃ w t', t = w :: t' ∧ (w = ' ' ∨ w = '\n' ∨ w = '\r') :=
  h.resolve_left (by simp)

theorem of_append (h : Parted (y ++ z) t) (hy : y.getLast? ≠ some '\n') : Parted z t := by
  refine h.imp_left fun hx => ?_
  rw [List.getLast?_append] at hx
  cases hz : z.getLast? with
  | none => exact absurd (by simpa [hz] using hx) hy
  | some c => simpa [hz] using hx

section Classes

variable {p : Char → Bool} (hspace : p ' ' = false) (hline : p '\n' = false)
  (hreturn : p '\r' = false)
include hspace hline hreturn

theorem head? (h : Parted x t) :
    ((x ++ t).head?.map p).getD false = (x.head?.map p).getD false := by
  cases x with
  | cons => rfl
  | nil =>
    obtain ⟨w, t', rfl, rfl | rfl | rfl⟩ := h.nil
    · exact hspace
    · exact hline
    · exact hreturn

theorem takeWhile (h : Parted x t) : (x ++ t).takeWhile p = x.takeWhile p := by
  induction x with
  | nil => obtain ⟨w, t', rfl, rfl | rfl | rfl⟩ := h.nil <;> simp [hspace, hline, hreturn]
  | cons c x ih =>
    rw [List.cons_append, List.takeWhile_cons, List.takeWhile_cons]
    cases hc : p c with
    | false => rfl
    | true =>
      have hne : c ≠ '\n' := fun h => by simp [h, hline] at hc
      simp only [if_true, ih (h.tail hne)]

theorem dropWhile (h : Parted x t) : (x ++ t).dropWhile p = x.dropWhile p ++ t := by
  induction x with
  | nil => obtain ⟨w, t', rfl, rfl | rfl | rfl⟩ := h.nil <;> simp [hspace, hline, hreturn]
  | cons c x ih =>
    rw [List.cons_append, List.dropWhile_cons, List.dropWhile_cons]
    cases hc : p c with
    | false => rfl
    | true =>
      have hne : c ≠ '\n' := fun h => by simp [h, hline] at hc
      simp only [if_true, ih (h.tail hne)]

omit hspace hreturn in
theorem dropWhile_parted (h : Parted x t) : Parted (x.dropWhile p) t := by
  rw [← List.takeWhile_append_dropWhile (p := p) (l := x)] at h
  refine h.of_append fun hlast => ?_
  have hmem := List.mem_of_getLast? hlast
  simpa [hline] using List.all_eq_true.mp List.all_takeWhile _ hmem

end Classes

/-- What is spelled without blanks begins a text or does not, whatever follows. -/
theorem isPrefixOf_append {p : List Char} (h : Parted x t) (hspace : ' ' ∉ p) (hline : '\n' ∉ p)
    (hreturn : '\r' ∉ p) : p.isPrefixOf (x ++ t) = p.isPrefixOf x := by
  induction p generalizing x with
  | nil => simp
  | cons c p ih =>
    rw [List.mem_cons, not_or] at hspace hline hreturn
    cases x with
    | nil =>
      obtain ⟨w, t', rfl, rfl | rfl | rfl⟩ := h.nil
      · simp [List.isPrefixOf, Ne.symm hspace.1]
      · simp [List.isPrefixOf, Ne.symm hline.1]
      · simp [List.isPrefixOf, Ne.symm hreturn.1]
    | cons c' x =>
      rw [List.cons_append, List.isPrefixOf_cons_cons, List.isPrefixOf_cons_cons]
      cases hc : c == c' with
      | false => rfl
      | true =>
        obtain rfl : c = c' := by simpa using hc
        rw [ih (h.tail (Ne.symm hline.1)) hspace.2 hline.2 hreturn.2]

end Parted

section StringBody

variable {e d₁ d₂ d₃ d₄ : Char}

theorem stringBody_quote (hline : q ≠ '\n') : stringBody q (q :: t) = .ok ([], 1) := by
  rw [stringBody.eq_def]
  simp [hline]

theorem stringBody_plain (hq : c ≠ q) (hslash : c ≠ '\\') (hline : c ≠ '\n') :
    stringBody q (c :: t) = (stringBody q t).map (prepend [c] 1) := by
  rw [stringBody.eq_def]
  simp [hq, hslash, hline]

section Backslash

variable (hslash : q ≠ '\\')
include hslash

theorem stringBody_backslash : stringBody q ['\\'] = .error .unterminatedString := by
  rw [stringBody.eq_def]
  simp [hslash.symm]

theorem stringBody_hex :
    stringBody q ('\\' :: 'x' :: d₁ :: d₂ :: t) =
      if [d₁, d₂].all Text.isHexDigit then
        (stringBody q t).map (prepend [charOfCode (hexCode [d₁, d₂])] 4)
      else .error .malformedEscape := by
  rw [stringBody.eq_def]
  simp only [hslash.symm, if_false, if_true, Char.reduceEq]

theorem stringBody_unicode :
    stringBody q ('\\' :: 'u' :: d₁ :: d₂ :: d₃ :: d₄ :: t) =
      if [d₁, d₂, d₃, d₄].all Text.isHexDigit then
        (stringBody q t).map (prepend [charOfCode (hexCode [d₁, d₂, d₃, d₄])] 6)
      else .error .malformedEscape := by
  rw [stringBody.eq_def]
  simp only [hslash.symm, if_false, if_true, Char.reduceEq]

theorem stringBody_lineBreak :
    stringBody q ('\\' :: '\n' :: t) = (stringBody q t).map (prepend [] 2) := by
  rw [stringBody.eq_def]
  simp only [hslash.symm, if_false, if_true, Char.reduceEq]

theorem stringBody_escape (hx : e ≠ 'x') (hu : e ≠ 'u') (hline : e ≠ '\n') :
    stringBody q ('\\' :: e :: t) = (stringBody q t).map (prepend [escaped e] 2) := by
  rw [stringBody.eq_def]
  simp [hslash.symm, hx, hu]

end Backslash

end StringBody

/-- What the reading of a string literal behind its opening quote says about longer texts. A literal
that is closed stays closed; one that is not, in a text that ends a line, goes on only if the text
would be closed by a quote. -/
def BodyExtends (q : Char) (x : List Char) : Prop :=
  match stringBody q x with
  | .ok r => (∃ y z, x = y ++ z ∧ y.length = r.2 ∧ y.getLast? = some q) ∧
      ∀ t, stringBody q (x ++ t) = .ok r
  | .error fault => (∀ last, x.getLast? = some last → last = '\n') →
      (fault = .unterminatedString ∧ ∃ r, stringBody q (x ++ [q]) = .ok r) ∨
        ∀ t, ∃ fault', stringBody q (x ++ t) = .error fault'

namespace BodyExtends

theorem of_fails (h : ∀ t, ∃ fault, stringBody q (x ++ t) = .error fault) : BodyExtends q x := by
  obtain ⟨fault, hfault⟩ := h []
  rw [List.append_nil] at hfault
  unfold BodyExtends
  rw [hfault]
  exact fun _ => .inr h

/-- A part of a literal is read, and then the rest of it. -/
theorem step {chars : List Char}
    (h : ∀ t, stringBody q (x ++ t) = (stringBody q t).map (prepend chars x.length))
    (ih : BodyExtends q y) : BodyExtends q (x ++ y) := by
  unfold BodyExtends at ih ⊢
  rw [h y]
  cases hy : stringBody q y with
  | ok r =>
    rw [hy] at ih
    obtain ⟨⟨front, z, rfl, hlength, hlast⟩, hmore⟩ := ih
    refine ⟨⟨x ++ front, z, (List.append_assoc ..).symm, ?_, ?_⟩, fun t => ?_⟩
    · simp [prepend, hlength]
    · simp [List.getLast?_append, hlast]
    · rw [List.append_assoc, h, hmore]
      rfl
  | error fault =>
    rw [hy] at ih
    intro hlast
    have hy' (last : Char) (hl : y.getLast? = some last) : last = '\n' :=
      hlast last (by simp [List.getLast?_append, hl])
    rcases ih hy' with ⟨hfault, r, hr⟩ | hfails
    · refine .inl ⟨hfault, prepend chars x.length r, ?_⟩
      rw [List.append_assoc, h, hr]
      rfl
    · refine .inr fun t => ?_
      obtain ⟨fault', hf⟩ := hfails t
      exact ⟨fault', by rw [List.append_assoc, h, hf]; rfl⟩

end BodyExtends

theorem not_all_isHexDigit {ds : List Char} (h : '\n' ∈ ds) : ¬ds.all Text.isHexDigit = true :=
  fun hall => absurd (List.all_eq_true.mp hall _ h) (by decide)

theorem stringBody_hex_newline (hslash : q ≠ '\\') (h : '\n' ∈ x.take 2) :
    stringBody q ('\\' :: 'x' :: x) = .error .malformedEscape := by
  cases x with
  | nil => cases h
  | cons d₁ x =>
    cases x with
    | nil =>
      rw [stringBody.eq_def]
      simp [Ne.symm hslash]
    | cons d₂ x => exact (stringBody_hex hslash).trans (if_neg (not_all_isHexDigit h))

theorem stringBody_unicode_newline (hslash : q ≠ '\\') (h : '\n' ∈ x.take 4) :
    stringBody q ('\\' :: 'u' :: x) = .error .malformedEscape := by
  rcases x with _ | ⟨d₁, _ | ⟨d₂, _ | ⟨d₃, _ | ⟨d₄, x⟩⟩⟩⟩
  case cons.cons.cons.cons =>
    exact (stringBody_unicode hslash).trans (if_neg (not_all_isHexDigit h))
  all_goals
    rw [stringBody.eq_def]
    simp [Ne.symm hslash]

/-- A text that ends in the middle of an escape but ends a line breaks off the escape for good. -/
theorem BodyExtends.of_short {n : Nat} (hk : c ≠ '\n') (hx : x.length < n)
    (h : ∀ y, '\n' ∈ y.take n → stringBody q ('\\' :: c :: y) = .error .malformedEscape)
    (hfail : stringBody q ('\\' :: c :: x) = .error .malformedEscape) :
    BodyExtends q ('\\' :: c :: x) := by
  unfold BodyExtends
  rw [hfail]
  intro hlast
  refine .inr fun t => ⟨_, h (x ++ t) ?_⟩
  have hmem : '\n' ∈ x := by
    cases hx' : x.getLast? with
    | none =>
      obtain rfl := List.getLast?_eq_none_iff.mp hx'
      exact absurd (hlast c (by simp)) hk
    | some last =>
      obtain rfl := hlast last (by simp [List.getLast?_cons, hx'])
      exact List.mem_of_getLast? hx'
  rw [List.take_append]
  exact List.mem_append_left _ (by rwa [List.take_of_length_le (by omega)])

theorem bodyExtends (hline : q ≠ '\n') (hslash : q ≠ '\\') (x : List Char) : BodyExtends q x := by
  -- Along the recursion of the literal: only where the text breaks off can more text matter.
  induction x using stringBody.induct q with
  | case1 => exact fun _ => .inl ⟨rfl, _, stringBody_quote hline⟩
  | case2 rest => exact .of_fails fun t => ⟨_, stringBody_newline q (rest ++ t)⟩
  | case3 rest =>
    unfold BodyExtends
    rw [stringBody_quote hline]
    exact ⟨⟨[q], rest, rfl, rfl, rfl⟩, fun t => stringBody_quote hline⟩
  | case4 =>
    unfold BodyExtends
    rw [stringBody_backslash hslash]
    exact fun h => absurd (h '\\' rfl) (by decide)
  | case5 d₁ d₂ more hhex _ _ ih =>
    exact .step (x := ['\\', 'x', d₁, d₂])
      (fun t => (stringBody_hex hslash).trans (if_pos hhex)) ih
  | case6 d₁ d₂ more hhex =>
    exact .of_fails fun t => ⟨_, (stringBody_hex hslash).trans (if_neg hhex)⟩
  | case7 d₁ d₂ d₃ d₄ more hhex _ _ ih =>
    exact .step (x := ['\\', 'u', d₁, d₂, d₃, d₄])
      (fun t => (stringBody_unicode hslash).trans (if_pos hhex)) ih
  | case8 d₁ d₂ d₃ d₄ more hhex =>
    exact .of_fails fun t => ⟨_, (stringBody_unicode hslash).trans (if_neg hhex)⟩
  | case9 tail hshort =>
    have hlength : tail.length < 2 := by
      rcases tail with _ | ⟨_, _ | _⟩
      case cons.cons => exact (hshort _ _ _ rfl).elim
      all_goals simp
    refine .of_short (by decide) hlength (fun y => stringBody_hex_newline hslash) ?_
    rw [stringBody.eq_def]
    simp [Ne.symm hslash]
  | case10 tail hshort =>
    have hlength : tail.length < 4 := by
      rcases tail with _ | ⟨_, _ | ⟨_, _ | ⟨_, _ | _⟩⟩⟩
      case cons.cons.cons.cons => exact (hshort _ _ _ _ _ rfl).elim
      all_goals simp
    refine .of_short (by decide) hlength (fun y => stringBody_unicode_newline hslash) ?_
    rw [stringBody.eq_def]
    simp [Ne.symm hslash]
  | case11 more _ _ ih =>
    exact .step (x := ['\\', '\n']) (fun t => stringBody_lineBreak hslash) ih
  | case12 e more _ _ hx hu he _ _ ih =>
    exact .step (x := ['\\', e]) (fun t => stringBody_escape hslash hx hu he) ih
  | case13 c rest hc hq hback ih =>
    exact .step (x := [c]) (fun t => stringBody_plain hq hback hc) ih

section Numbers

open Number

def BreakFree (x : List Char) (n : Nat) : Prop :=
  ∃ y z, x = y ++ z ∧ y.length = n ∧ '\n' ∉ y

theorem BreakFree.append {n : Nat} (hy : '\n' ∉ y) (h : BreakFree x n) :
    BreakFree (y ++ x) (y.length + n) := by
  obtain ⟨y', z, rfl, rfl, hy'⟩ := h
  exact ⟨y ++ y', z, (List.append_assoc ..).symm, by simp, by simp [hy, hy']⟩

theorem breakFree_zero (x : List Char) : BreakFree x 0 :=
  ⟨[], x, rfl, rfl, by simp⟩

theorem breakFree_takeWhile {p : Char → Bool} (hline : p '\n' = false) (x : List Char) :
    BreakFree x (x.takeWhile p).length := by
  refine ⟨x.takeWhile p, x.dropWhile p, List.takeWhile_append_dropWhile.symm, rfl, fun h => ?_⟩
  simpa [hline] using List.all_eq_true.mp List.all_takeWhile _ h

theorem splitSign_eq (x : List Char) : ∃ sign, x = sign ++ (splitSign x).2 ∧ '\n' ∉ sign := by
  unfold splitSign
  split
  · exact ⟨['-'], rfl, by decide⟩
  · exact ⟨['+'], rfl, by decide⟩
  · exact ⟨[], rfl, by decide⟩

theorem Parted.splitSign (h : Parted x t) :
    splitSign (x ++ t) = ((splitSign x).1, (splitSign x).2 ++ t) := by
  cases x with
  | nil =>
    obtain ⟨w, t', rfl, rfl | rfl | rfl⟩ := h.nil <;> rfl
  | cons c x =>
    by_cases hminus : c = '-'
    · subst hminus
      rfl
    · by_cases hplus : c = '+'
      · subst hplus
        rfl
      · simp [Number.splitSign, hminus, hplus]

theorem Parted.splitSign_parted (h : Parted x t) : Parted (Number.splitSign x).2 t := by
  obtain ⟨sign, hx, hsign⟩ := splitSign_eq x
  rw [hx] at h
  exact h.of_append fun hlast => hsign (List.mem_of_getLast? hlast)

theorem Parted.exponentAt (h : Parted x t) : exponentAt (x ++ t) = exponentAt x := by
  cases x with
  | nil => obtain ⟨w, t', rfl, rfl | rfl | rfl⟩ := h.nil <;> rfl
  | cons c x =>
    rw [List.cons_append]
    unfold Number.exponentAt
    by_cases hc : (c = 'e' || c = 'E') = true
    · have hne : c ≠ '\n' := by
        rintro rfl
        cases hc
      have h := h.tail hne
      have htaken : leadingDigits ((Number.splitSign x).2 ++ t) =
          leadingDigits (Number.splitSign x).2 :=
        h.splitSign_parted.takeWhile (by decide) (by decide) (by decide)
      have hlength : (x ++ t).length - ((Number.splitSign x).2 ++ t).length =
          x.length - (Number.splitSign x).2.length := by
        simp only [List.length_append]
        omega
      simp only [if_pos hc, h.splitSign, htaken, hlength]
    · simp only [if_neg hc]

theorem breakFree_exponentAt (x : List Char) : BreakFree x (exponentAt x).2 := by
  cases x with
  | nil => exact breakFree_zero []
  | cons c x =>
    unfold exponentAt
    by_cases hc : (c = 'e' || c = 'E') = true
    · simp only [if_pos hc]
      split
      · exact breakFree_zero _
      · have hne : '\n' ∉ [c] := by
          rw [List.mem_singleton]
          rintro rfl
          cases hc
        obtain ⟨sign, hx, hsign⟩ := splitSign_eq x
        have hdigits : BreakFree (splitSign x).2 (leadingDigits (splitSign x).2).length :=
          breakFree_takeWhile (by decide) _
        have hall := (hdigits.append hsign).append hne
        have hlength : x.length - (splitSign x).2.length = sign.length := by
          have := congrArg List.length hx
          rw [List.length_append] at this
          omega
        rw [← hx] at hall
        rw [hlength, Nat.add_assoc]
        exact hall
    · simp only [if_neg hc]
      exact breakFree_zero _

def pointAt (x : List Char) : Nat × List Char × List Char :=
  match x with
  | '.' :: rest => (1, leadingDigits rest, afterDigits rest)
  | rest => (0, [], rest)

theorem literalAt?_eq (x : List Char) :
    literalAt? x =
      if (leadingDigits x).isEmpty && (pointAt (afterDigits x)).2.1.isEmpty then none
      else some ⟨leadingDigits x, (pointAt (afterDigits x)).2.1,
        (exponentAt (pointAt (afterDigits x)).2.2).1,
        (leadingDigits x).length + (pointAt (afterDigits x)).1 +
          (pointAt (afterDigits x)).2.1.length + (exponentAt (pointAt (afterDigits x)).2.2).2⟩ := by
  rfl

theorem pointAt_of_ne (hc : c ≠ '.') (x : List Char) : pointAt (c :: x) = (0, [], c :: x) := by
  simp [pointAt, hc]

theorem newline_notMem_leadingDigits (x : List Char) : '\n' ∉ leadingDigits x := fun hmem => by
  simpa using List.all_eq_true.mp List.all_takeWhile _ hmem

theorem Parted.leadingDigits (h : Parted x t) : leadingDigits (x ++ t) = leadingDigits x :=
  h.takeWhile (by decide) (by decide) (by decide)

theorem Parted.afterDigits (h : Parted x t) : afterDigits (x ++ t) = afterDigits x ++ t :=
  h.dropWhile (by decide) (by decide) (by decide)

theorem Parted.afterDigits_parted (h : Parted x t) : Parted (Number.afterDigits x) t :=
  h.dropWhile_parted (by decide)

theorem Parted.pointAt (h : Parted x t) :
    pointAt (x ++ t) = ((pointAt x).1, (pointAt x).2.1, (pointAt x).2.2 ++ t) ∧
      Parted (pointAt x).2.2 t := by
  cases x with
  | nil => obtain ⟨w, t', rfl, rfl | rfl | rfl⟩ := h.nil <;> exact ⟨rfl, h⟩
  | cons c x =>
    by_cases hc : c = '.'
    · subst hc
      have h := h.tail (by decide)
      refine ⟨?_, h.afterDigits_parted⟩
      change (1, Number.leadingDigits (x ++ t), Number.afterDigits (x ++ t)) = _
      rw [h.leadingDigits, h.afterDigits]
      rfl
    · rw [List.cons_append, pointAt_of_ne hc, pointAt_of_ne hc]
      exact ⟨rfl, h⟩

theorem breakFree_pointAt {n : Nat} (h : BreakFree (pointAt x).2.2 n) :
    BreakFree x ((pointAt x).1 + ((pointAt x).2.1.length + n)) := by
  cases x with
  | nil => simpa [pointAt] using h
  | cons c x =>
    by_cases hc : c = '.'
    · subst hc
      change BreakFree (Number.afterDigits x) n at h
      have hall := (h.append (newline_notMem_leadingDigits x)).append (y := ['.']) (by decide)
      rwa [Number.leadingDigits, Number.afterDigits, List.takeWhile_append_dropWhile] at hall
    · rw [pointAt_of_ne hc] at h ⊢
      simpa using h

theorem Parted.literalAt? (h : Parted x t) : literalAt? (x ++ t) = literalAt? x := by
  obtain ⟨hpoint, hrest⟩ := h.afterDigits_parted.pointAt
  rw [literalAt?_eq, literalAt?_eq, h.leadingDigits, h.afterDigits, hpoint]
  simp only [hrest.exponentAt]

theorem breakFree_literalAt? {l : Literal} (h : literalAt? x = some l) : BreakFree x l.length := by
  rw [literalAt?_eq] at h
  split at h
  · cases h
  · obtain rfl := Option.some.inj h
    have hrest := breakFree_pointAt (x := Number.afterDigits x) (breakFree_exponentAt _)
    have hall := hrest.append (newline_notMem_leadingDigits x)
    rw [Number.leadingDigits, Number.afterDigits, List.takeWhile_append_dropWhile] at hall
    simpa only [Nat.add_assoc, Number.leadingDigits, Number.afterDigits] using hall

theorem numberAt_hex {m : Char} (hm : m = 'x' ∨ m = 'X') (x : List Char) :
    numberAt ('0' :: m :: x) =
      if (x.takeWhile Text.isHexDigit).isEmpty then .error .missingHexDigits
      else .ok (ofHexDigits (x.takeWhile Text.isHexDigit),
        (x.takeWhile Text.isHexDigit).length + 2) := by
  rcases hm with rfl | rfl <;> rfl

theorem numberAt_decimal (h : ∀ m y, x = '0' :: m :: y → ¬(m = 'x' ∨ m = 'X')) :
    numberAt x =
      (Number.literalAt? x).elim (.error .malformedNumber) fun l => .ok (l.value, l.length) := by
  unfold numberAt
  split
  · exact absurd (.inl rfl) (h _ _ rfl)
  · exact absurd (.inr rfl) (h _ _ rfl)
  · cases Number.literalAt? x <;> rfl

theorem isHexMark_or_decimal (x : List Char) :
    (∃ m y, x = '0' :: m :: y ∧ (m = 'x' ∨ m = 'X')) ∨
      ∀ m y, x = '0' :: m :: y → ¬(m = 'x' ∨ m = 'X') := by
  by_cases h : ∃ m y, x = '0' :: m :: y ∧ (m = 'x' ∨ m = 'X')
  · exact .inl h
  · exact .inr fun m y hx hm => h ⟨m, y, hx, hm⟩

theorem Parted.numberAt (h : Parted x t) : numberAt (x ++ t) = numberAt x := by
  rcases isHexMark_or_decimal x with ⟨m, y, rfl, hm⟩ | hdecimal
  · have hne : m ≠ '\n' := by rintro rfl; simp at hm
    have hy := (h.tail (by decide)).tail hne
    rw [List.cons_append, List.cons_append, numberAt_hex hm, numberAt_hex hm,
      hy.takeWhile (by decide) (by decide) (by decide)]
  · have hdecimal' (m : Char) (y : List Char) (hxt : x ++ t = '0' :: m :: y) :
        ¬(m = 'x' ∨ m = 'X') := by
      cases x with
      | nil =>
        obtain ⟨w, t', rfl, rfl | rfl | rfl⟩ := h.nil <;> cases hxt
      | cons c x =>
        obtain rfl : c = '0' := (List.cons.inj hxt).1
        cases x with
        | nil =>
          obtain ⟨w, t', rfl, rfl | rfl | rfl⟩ := (h.tail (by decide)).nil <;> cases hxt <;> decide
        | cons d x =>
          obtain rfl : d = m := (List.cons.inj (List.cons.inj hxt).2).1
          exact hdecimal _ _ rfl
    rw [numberAt_decimal hdecimal, numberAt_decimal hdecimal', h.literalAt?]

theorem breakFree_numberAt {r : Float × Nat} (h : numberAt x = .ok r) : BreakFree x r.2 := by
  rcases isHexMark_or_decimal x with ⟨m, y, rfl, hm⟩ | hdecimal
  · rw [numberAt_hex hm] at h
    split at h
    · cases h
    · obtain rfl := Except.ok.inj h
      have hne : '\n' ∉ ['0', m] := by
        rcases hm with rfl | rfl <;> decide
      have hall := (breakFree_takeWhile (p := Text.isHexDigit) (by decide) y).append hne
      rwa [Nat.add_comm]
  · rw [numberAt_decimal hdecimal] at h
    cases hl : Number.literalAt? x with
    | none => simp [hl] at h
    | some l =>
      rw [hl] at h
      obtain rfl := Except.ok.inj h
      exact breakFree_literalAt? hl

end Numbers

theorem Parted.startsNumber (h : Parted x t) : startsNumber c (x ++ t) = startsNumber c x := by
  unfold Scan.startsNumber
  rw [h.head? (by decide) (by decide) (by decide)]

theorem Parted.longest? (h : Parted x t) : Mark.longest? (x ++ t) = Mark.longest? x := by
  have hmarks : ∀ m ∈ Mark.all, ' ' ∉ m.spelling.toList ∧ '\n' ∉ m.spelling.toList ∧
      '\r' ∉ m.spelling.toList := by decide
  refine List.find?_congr fun m hm => ?_
  obtain ⟨hspace, hline, hreturn⟩ := hmarks m hm
  exact h.isPrefixOf_append hspace hline hreturn

theorem breakFree_longest? {m : Mark} (h : Mark.longest? x = some m) :
    BreakFree x m.spelling.length := by
  have hmarks : ∀ m ∈ Mark.all, '\n' ∉ m.spelling.toList := by decide
  unfold Mark.longest? at h
  have hm := List.find?_some h
  obtain ⟨z, hz⟩ := List.isPrefixOf_iff_prefix.mp hm
  exact ⟨m.spelling.toList, z, hz.symm, String.length_toList, hmarks m (List.mem_of_find?_eq_some h)⟩

theorem BreakFree.tail {n : Nat} (h : BreakFree (c :: x) n) : BreakFree x (n - 1) := by
  obtain ⟨y, z, hx, rfl, hy⟩ := h
  cases y with
  | nil => exact breakFree_zero x
  | cons c' y =>
    obtain ⟨rfl, rfl⟩ := List.cons.inj hx
    exact ⟨y, z, rfl, rfl, fun h => hy (List.mem_cons_of_mem _ h)⟩

/-- The quotes that a string literal can stand in. -/
def isQuote (c : Char) : Bool :=
  c = '"' || c = '\''

theorem isQuote_ne (h : isQuote c = true) : c ≠ '\n' ∧ c ≠ '\\' := by
  constructor <;> rintro rfl <;> cases h

section Lexeme

variable {lets : Bool} {k : TokenKind} {n : Nat}

theorem lexeme_quote (hq : isQuote c = true) (x : List Char) :
    lexeme lets c x = ((stringBody c x).map fun r => (.text (String.ofList r.1), r.2)).mapError
      (·, 0) := by
  have hq : (c = '"' || c = '\'') = true := hq
  unfold lexeme
  rw [if_pos hq]
  cases stringBody c x <;> rfl

theorem BreakFree.drop_append (hn : BreakFree x n) (h : Parted x t) :
    (x ++ t).drop n = x.drop n ++ t ∧ Parted (x.drop n) t := by
  obtain ⟨y, z, rfl, rfl, hy⟩ := hn
  rw [List.append_assoc, List.drop_left, List.drop_left]
  exact ⟨rfl, h.of_append fun hlast => hy (List.mem_of_getLast? hlast)⟩

theorem lexeme_append (hq : isQuote c = false) (hc : c ≠ '\n') (h : Parted (c :: x) t) :
    lexeme lets c (x ++ t) = lexeme lets c x := by
  have hq : ¬(c = '"' || c = '\'') = true := Bool.eq_false_iff.mp hq
  have hx := h.tail hc
  unfold lexeme
  rw [if_neg hq, if_neg hq, hx.startsNumber,
    hx.takeWhile (p := continuesName) (by decide) (by decide) (by decide), ← List.cons_append,
    h.numberAt, h.longest?]
  cases hnumber : numberAt (c :: x) with
  | error fault => rfl
  | ok number =>
    obtain ⟨hdrop, hparted⟩ := (breakFree_numberAt hnumber).drop_append h
    dsimp only
    rw [hdrop, hparted.head? (by decide) (by decide) (by decide)]

theorem breakFree_lexeme (hq : isQuote c = false) (h : lexeme lets c x = .ok (k, n)) :
    BreakFree x n := by
  have hq : ¬(c = '"' || c = '\'') = true := Bool.eq_false_iff.mp hq
  unfold lexeme at h
  rw [if_neg hq] at h
  split at h
  · cases hnumber : numberAt (c :: x) with
    | error fault => simp [hnumber] at h
    | ok number =>
      have hfree := (breakFree_numberAt hnumber).tail
      rw [hnumber] at h
      dsimp only at h
      split at h <;> cases h
      exact hfree
  · split at h
    · have hfree := breakFree_takeWhile (p := continuesName) (by decide) x
      dsimp only at h
      split at h <;> cases h <;> exact hfree
    · cases hmark : Mark.longest? (c :: x) with
      | none => simp [hmark] at h
      | some m =>
        rw [hmark] at h
        cases h
        exact (breakFree_longest? hmark).tail

/-- What a token takes of the text behind its first character does not end in a line break. -/
theorem lexeme_front (h : lexeme lets c x = .ok (k, n)) :
    ∃ y z, x = y ++ z ∧ y.length = n ∧ y.getLast? ≠ some '\n' := by
  cases hq : isQuote c with
  | true =>
    have hc := isQuote_ne hq
    have hbody := bodyExtends hc.1 hc.2 x
    rw [lexeme_quote hq] at h
    unfold BodyExtends at hbody
    cases hr : stringBody c x with
    | error fault => simp [hr, Except.map, Except.mapError] at h
    | ok r =>
      rw [hr] at h hbody
      obtain ⟨⟨y, z, hx, hy, hlast⟩, -⟩ := hbody
      obtain ⟨-, rfl⟩ := Prod.mk.inj (Except.ok.inj h)
      exact ⟨y, z, hx, hy, by simpa [hlast] using hc.1⟩
  | false =>
    obtain ⟨y, z, hx, hy, hline⟩ := breakFree_lexeme hq h
    exact ⟨y, z, hx, hy, fun hlast => hline (List.mem_of_getLast? hlast)⟩

theorem lexeme_ok_append (hc : c ≠ '\n') (ht : t = [] ∨ Parted (c :: x) t)
    (h : lexeme lets c x = .ok (k, n)) : lexeme lets c (x ++ t) = .ok (k, n) := by
  rcases ht with rfl | ht
  · rwa [List.append_nil]
  · cases hq : isQuote c with
    | false => rw [lexeme_append hq hc ht, h]
    | true =>
      have hbody := bodyExtends (isQuote_ne hq).1 (isQuote_ne hq).2 x
      rw [lexeme_quote hq] at h ⊢
      unfold BodyExtends at hbody
      cases hr : stringBody c x with
      | error fault => simp [hr, Except.map, Except.mapError] at h
      | ok r =>
        rw [hr] at h hbody
        rw [hbody.2 t]
        exact h

/-- What is no token at the end of a line is none if the text goes on, except for a literal that
is open there. -/
theorem lexeme_error_append {e : LexemeError} (hc : c ≠ '\n') (hx : x.getLast? = some '\n')
    (h : lexeme lets c x = .error e) :
    (isQuote c = true ∧ e = (.unterminatedString, 0) ∧ ∃ r, stringBody c (x ++ [c]) = .ok r) ∨
      ∀ t, ∃ e', lexeme lets c (x ++ t) = .error e' := by
  cases hq : isQuote c with
  | false =>
    refine .inr fun t => ⟨e, ?_⟩
    have hparted : Parted (c :: x) t := .inl (by rw [List.getLast?_cons, hx]; rfl)
    rw [lexeme_append hq hc hparted, h]
  | true =>
    have hbody := bodyExtends (isQuote_ne hq).1 (isQuote_ne hq).2 x
    rw [lexeme_quote hq] at h
    unfold BodyExtends at hbody
    cases hr : stringBody c x with
    | ok r => simp [hr, Except.map, Except.mapError] at h
    | error fault =>
      rw [hr] at h hbody
      have hlast (last : Char) (hl : x.getLast? = some last) : last = '\n' :=
        (Option.some.inj (hx.symm.trans hl)).symm
      rcases hbody hlast with ⟨rfl, hclosed⟩ | hfails
      · exact .inl ⟨rfl, (Except.error.inj h).symm, hclosed⟩
      · refine .inr fun t => ?_
        obtain ⟨fault', hf⟩ := hfails t
        exact ⟨_, by rw [lexeme_quote hq, hf]; rfl⟩

end Lexeme

end ScriptShell.Scan
