import ScriptShell.Text.Units

namespace ScriptShell.Text

theorem length_le_utf8ByteSize (cs : List Char) : cs.length ≤ (String.ofList cs).utf8ByteSize := by
  induction cs with
  | nil => simp
  | cons c cs ih =>
    have := c.utf8Size_pos
    rw [String.ofList_cons, String.utf8ByteSize_append, String.utf8ByteSize_singleton,
      List.length_cons]
    omega

theorem utf8Size_of_isNarrow {text : String} (h : isNarrow text = true) :
    ∀ c ∈ text.toList, c.utf8Size = 1 := by
  have go (cs : List Char) (h : (String.ofList cs).utf8ByteSize = cs.length) :
      ∀ c ∈ cs, c.utf8Size = 1 := by
    induction cs with
    | nil => simp
    | cons c cs ih =>
      have := c.utf8Size_pos
      have := length_le_utf8ByteSize cs
      rw [String.ofList_cons, String.utf8ByteSize_append, String.utf8ByteSize_singleton,
        List.length_cons] at h
      intro d hd
      cases hd with
      | head => omega
      | tail _ hd => exact ih (by omega) d hd
  refine go text.toList ?_
  rw [String.ofList_toList, String.length_toList]
  simpa [isNarrow] using h

theorem unitsOf_of_utf8Size {c : Char} (h : c.utf8Size = 1) : unitsOf c = [c.toNat] := by
  have : c.toNat ≤ 127 := by simpa [UInt32.le_iff_toNat_le] using Char.utf8Size_eq_one_iff.mp h
  rw [unitsOf, if_pos (by omega)]

theorem units_of_isNarrow {text : String} (h : isNarrow text = true) :
    units text = text.toList.map Char.toNat := by
  have go (cs : List Char) (h : ∀ c ∈ cs, c.utf8Size = 1) :
      cs.flatMap unitsOf = cs.map Char.toNat := by
    induction cs with
    | nil => rfl
    | cons c cs ih =>
      rw [List.flatMap_cons, unitsOf_of_utf8Size (h c List.mem_cons_self),
        ih fun d hd => h d (List.mem_cons_of_mem _ hd)]
      rfl
  exact go _ (utf8Size_of_isNarrow h)

theorem unitCount_eq (text : String) : unitCount text = (units text).length := by
  unfold unitCount
  split
  · next h => rw [units_of_isNarrow h, List.length_map, String.length_toList]
  · rw [units]
    induction text.toList with
    | nil => rfl
    | cons c cs ih =>
      rw [List.foldr_cons, ih, List.flatMap_cons, List.length_append, unitsOf]
      split <;> rfl

theorem rawPos_add {c : Char} (hc : c.utf8Size = 1) (i : Nat) :
    (⟨i⟩ : String.Pos.Raw) + c = ⟨i + 1⟩ := by
  rw [String.Pos.Raw.ext_iff]
  simp [hc]

theorem utf8GetAux?_eq (cs : List Char) (h : ∀ c ∈ cs, c.utf8Size = 1) (i p : Nat) (hp : i ≤ p) :
    String.Pos.Raw.utf8GetAux? cs ⟨i⟩ ⟨p⟩ = cs[p - i]? := by
  induction cs generalizing i with
  | nil => rfl
  | cons c cs ih =>
    have hc := h c List.mem_cons_self
    have step : String.Pos.Raw.utf8GetAux? (c :: cs) ⟨i⟩ ⟨p⟩ =
        if (⟨i⟩ : String.Pos.Raw) = ⟨p⟩ then some c
        else String.Pos.Raw.utf8GetAux? cs ((⟨i⟩ : String.Pos.Raw) + c) ⟨p⟩ := rfl
    simp only [step, String.Pos.Raw.mk.injEq]
    split
    · next eq => simp [eq]
    · next ne =>
      have hlater := ih (fun d hd => h d (List.mem_cons_of_mem _ hd)) (i + 1) (by omega)
      rw [rawPos_add hc, hlater]
      rw [show p - i = (p - (i + 1)) + 1 by omega, List.getElem?_cons_succ]

theorem unitAt?_eq (text : String) (i : Nat) : unitAt? text i = (units text)[i]? := by
  unfold unitAt?
  split
  · next h =>
    rw [units_of_isNarrow h, List.getElem?_map]
    congr 1
    exact utf8GetAux?_eq text.toList (utf8Size_of_isNarrow h) 0 i (Nat.zero_le i)
  · rfl

theorem readUnits_map_toNat (cs : List Char) (h : ∀ c ∈ cs, c.utf8Size = 1) :
    readUnits (cs.map Char.toNat) = cs := by
  have small (c : Char) (hc : c ∈ cs) : c.toNat ≤ 127 := by
    simpa [UInt32.le_iff_toNat_le] using Char.utf8Size_eq_one_iff.mp (h c hc)
  clear h
  induction cs with
  | nil => rfl
  | cons c cs ih =>
    have lone : loneChar c.toNat = c := by
      have := small c List.mem_cons_self
      have hl : isLeading c.toNat = false := by simp [isLeading]; omega
      have ht : isTrailing c.toNat = false := by simp [isTrailing]; omega
      simp [loneChar, hl, ht]
    have rest := ih fun d hd => small d (List.mem_cons_of_mem _ hd)
    cases cs with
    | nil => simp [readUnits, lone]
    | cons d cs =>
      have := small c List.mem_cons_self
      have hl : isLeading c.toNat = false := by simp [isLeading]; omega
      simp only [List.map_cons, readUnits, hl, lone, Bool.false_and] at rest ⊢
      simp [rest]

theorem extract_go₂_eq (cs : List Char) (h : ∀ c ∈ cs, c.utf8Size = 1) (i e : Nat) (he : i ≤ e) :
    String.Pos.Raw.extract.go₂ cs ⟨i⟩ ⟨e⟩ = cs.take (e - i) := by
  induction cs generalizing i with
  | nil => exact List.take_nil.symm
  | cons c cs ih =>
    have hc := h c List.mem_cons_self
    have step : String.Pos.Raw.extract.go₂ (c :: cs) ⟨i⟩ ⟨e⟩ =
        if (⟨i⟩ : String.Pos.Raw) = ⟨e⟩ then []
        else c :: String.Pos.Raw.extract.go₂ cs ((⟨i⟩ : String.Pos.Raw) + c) ⟨e⟩ := rfl
    simp only [step, String.Pos.Raw.mk.injEq]
    split
    · next eq => simp [eq]
    · next ne =>
      have hlater := ih (fun d hd => h d (List.mem_cons_of_mem _ hd)) (i + 1) (by omega)
      rw [rawPos_add hc, hlater]
      rw [show e - i = (e - (i + 1)) + 1 by omega, List.take_succ_cons]

theorem extract_go₁_eq (cs : List Char) (h : ∀ c ∈ cs, c.utf8Size = 1) (i b e : Nat) (hb : i ≤ b)
    (he : b ≤ e) :
    String.Pos.Raw.extract.go₁ cs ⟨i⟩ ⟨b⟩ ⟨e⟩ = (cs.drop (b - i)).take (e - b) := by
  induction cs generalizing i with
  | nil => rw [List.drop_nil, List.take_nil]; rfl
  | cons c cs ih =>
    have hc := h c List.mem_cons_self
    have step : String.Pos.Raw.extract.go₁ (c :: cs) ⟨i⟩ ⟨b⟩ ⟨e⟩ =
        if (⟨i⟩ : String.Pos.Raw) = ⟨b⟩ then String.Pos.Raw.extract.go₂ (c :: cs) ⟨i⟩ ⟨e⟩
        else String.Pos.Raw.extract.go₁ cs ((⟨i⟩ : String.Pos.Raw) + c) ⟨b⟩ ⟨e⟩ := rfl
    simp only [step, String.Pos.Raw.mk.injEq]
    split
    · next eq =>
      subst eq
      rw [extract_go₂_eq _ h i e he, Nat.sub_self, List.drop_zero]
    · next ne =>
      have hlater := ih (fun d hd => h d (List.mem_cons_of_mem _ hd)) (i + 1) (by omega)
      rw [rawPos_add hc, hlater]
      rw [show b - i = (b - (i + 1)) + 1 by omega, List.drop_succ_cons]

theorem extract_eq {text : String} (h : isNarrow text = true) (start stop : Nat) :
    String.Pos.Raw.extract text ⟨start⟩ ⟨stop⟩ =
      String.ofList ((text.toList.drop start).take (stop - start)) := by
  have small := utf8Size_of_isNarrow h
  have step : String.Pos.Raw.extract text ⟨start⟩ ⟨stop⟩ =
      if start ≥ stop then ""
      else String.ofList (String.Pos.Raw.extract.go₁ text.toList 0 ⟨start⟩ ⟨stop⟩) := rfl
  by_cases hs : start < stop
  · rw [step, if_neg (by omega)]
    exact congrArg String.ofList (extract_go₁_eq _ small 0 start stop (by omega) (by omega))
  · rw [step, if_pos (by omega), show stop - start = 0 by omega]
    rfl

theorem unitsFrom_eq (text : String) (start : Nat) :
    unitsFrom text start = (units text).drop start := by
  unfold unitsFrom
  split
  · next h =>
    rw [extract_eq h, units_of_isNarrow h, String.toList_ofList, ← List.map_drop,
      ← String.length_toList, ← List.length_drop, List.take_length]
  · rfl

theorem cut_eq (text : String) (start stop : Nat) :
    cut text start stop = ofUnits (((units text).drop start).take (stop - start)) := by
  unfold cut
  split
  · next h =>
    have small := utf8Size_of_isNarrow h
    rw [units_of_isNarrow h, ← List.map_drop, ← List.map_take, ofUnits, readUnits_map_toNat _
      fun c hc => small c (List.mem_of_mem_drop (List.mem_of_mem_take hc))]
    exact extract_eq h start stop
  · rfl

end ScriptShell.Text
