import ScriptShell.Proofs.Heap.Writing
import ScriptShell.Proofs.Number.Digits

namespace ScriptShell

open Number

section Index

/-- The names of elements are the decimals of 64 bits without leading zeros. -/
theorem arrayIndex?_eq_some_iff {key : String} {i : Nat} :
    arrayIndex? key = some i ↔ key.toList = Nat.toDigits 10 i ∧ i < words64 := by
  constructor
  · intro hi
    unfold arrayIndex? at hi
    dsimp only at hi
    split at hi
    case isTrue => cases hi
    case isFalse hhead =>
      split at hi
      case isTrue => cases hi
      case isFalse hall =>
        split at hi
        case isFalse => cases hi
        case isTrue hlt =>
          obtain rfl := Option.some.inj hi
          rw [ofDigits_eq] at hlt ⊢
          have hdigits : ∀ c ∈ key.toList, c.isDigit := by simpa using hall
          have hcanonical : key.toList ≠ [] ∧ (1 < key.toList.length →
              key.toList.head? ≠ some '0') := by simpa using hhead
          exact ⟨(toDigits_ofDigitsFrom hcanonical.1 hdigits hcanonical.2).symm, hlt⟩
  · rintro ⟨hkey, hlt⟩
    have hvalue : ofDigits key.toList = i := by
      rw [hkey, ofDigits_eq, ofDigitsFrom_toDigits]
    have hempty : key.toList.isEmpty = false := by
      rw [hkey, List.isEmpty_eq_false_iff]
      exact Nat.toDigits_ne_nil
    have hall : key.toList.all Char.isDigit = true := by
      rw [hkey, List.all_eq_true]
      exact fun c hc => Nat.isDigit_of_mem_toDigits (by decide) (by decide) hc
    have hzero := head?_toDigits i
    rw [← hkey] at hzero
    unfold arrayIndex?
    dsimp only
    rw [hvalue, if_neg (by simpa [hempty] using hzero), if_neg (by simp [hall]), if_pos hlt]

theorem arrayIndex?_injective {key key' : String} {i : Nat} (hi : arrayIndex? key = some i)
    (hi' : arrayIndex? key' = some i) : key = key' := by
  have heq := (arrayIndex?_eq_some_iff.mp hi).1.trans (arrayIndex?_eq_some_iff.mp hi').1.symm
  exact String.toList_inj.mp heq

end Index

theorem toSize_of_isFinite {x : Float} (hx : x.isFinite) :
    toSize x = min (words64 - 1) (integerPart x).toNat := by
  have hnan : x.isNaN = false := by
    unfold Float.isFinite Float.Model.isFinite at hx
    unfold Float.isNaN Float.Model.isNaN
    cases hvalue : x.toModel.unpack <;> rw [hvalue] at hx <;> first | rfl | cases hx
  unfold toSize
  rw [hnan, hx]
  rfl

namespace Object

/-- An object after a value was written to it under a name other than the length of an array. -/
structure Written (o : Object) (key : String) (v : Value) (o' : Object) : Prop where
  read : o'.get? key = some v
  /-- Unless an array grows, nothing else is read in another way. -/
  rest : (∀ elements i, o.elements? = some elements → arrayIndex? key = some i →
    i < elements.size) → ∀ key', key' ≠ key → o'.get? key' = o.get? key'
  /-- An array grows up to the new element, and what lies between reads as undefined. -/
  grown : ∀ elements i, o.elements? = some elements → arrayIndex? key = some i →
    elements.size ≤ i →
      o'.get? "length" = some (.number (ofNat (i + 1))) ∧
      o'.elements?.map Array.size = some (i + 1) ∧
      (∀ key' j, arrayIndex? key' = some j → elements.size ≤ j → j < i →
        o'.get? key' = some .undefined) ∧
      ∀ key', key' ≠ key → key' ≠ "length" →
        (∀ j, arrayIndex? key' = some j → elements.size ≤ j → i ≤ j) → o'.get? key' = o.get? key'
  /-- Elements do not touch named properties. -/
  properties : o.elements?.isSome → (arrayIndex? key).isSome → o'.properties = o.properties
  /-- Named properties touch neither elements nor anything else that makes the kind. -/
  kind : o.elements? = none ∨ arrayIndex? key = none → o'.kind = o.kind

/-- An array after it was cut or padded to a length. -/
structure Fitted (o : Object) (elements : Array Value) (n : Nat) (o' : Object) : Prop where
  length : o'.get? "length" = some (.number (ofNat n))
  elements : ∃ elements', o'.elements? = some elements' ∧ elements'.size = n ∧
    ∀ i, elements'[i]? = if i < n then some (elements[i]?.getD .undefined) else none
  properties : o'.properties = o.properties
  named : ∀ key, key ≠ "length" → arrayIndex? key = none → o'.get? key = o.get? key

variable {o : Object} {key : String} {v : Value} {elements : Array Value}

theorem get?_of_elements? (harray : o.elements? = some elements) (key : String) :
    o.get? key = if key = "length" then some (.number (ofNat elements.size))
      else
        match arrayIndex? key with
        | some i => elements[i]?
        | none => o.properties.get? key := by
  obtain ⟨kind, properties⟩ := o
  cases kind_of_elements? harray
  rfl

theorem modifyElements_eq (harray : o.elements? = some elements) (f : Array Value → Array Value) :
    o.modifyElements f = ⟨.array (f elements), o.properties⟩ := by
  obtain ⟨kind, properties⟩ := o
  cases kind_of_elements? harray
  rfl

theorem ne_length_of_arrayIndex? {i : Nat} (hi : arrayIndex? key = some i) : key ≠ "length" := by
  rintro rfl
  cases arrayIndex?_length.symm.trans hi

theorem get?_element {i : Nat} (harray : o.elements? = some elements)
    (hi : arrayIndex? key = some i) : o.get? key = elements[i]? := by
  rw [get?_of_elements? harray, if_neg (ne_length_of_arrayIndex? hi), hi]

/-- A name that is neither the length nor an element of an array is read from the properties that
were written, and what is read under any other name stays the same. -/
theorem get?_setProperty (hname : o.elements?.isSome → key ≠ "length" ∧ arrayIndex? key = none)
    (key' : String) :
    (o.setProperty key v).get? key' = if key' = key then some v else o.get? key' := by
  obtain ⟨kind, properties⟩ := o
  have hproperty : (properties.insert key v).get? key' =
      if key' = key then some v else properties.get? key' := by
    rw [Dict.get?_insert]
    simp only [eq_comm]
  cases kind with
  | array elements =>
    obtain ⟨hlength, hindex⟩ := hname rfl
    simp only [setProperty, get?, hproperty]
    by_cases hkey : key' = key
    · subst hkey
      simp only [hlength, hindex, if_true, if_false]
    · simp only [if_neg hkey]
  | function f =>
    simp only [setProperty, get?, hproperty]
    by_cases hkey : key' = key <;> simp only [hkey, if_true, if_false]
  | plain | error => exact hproperty

theorem written_setProperty
    (hname : o.elements?.isSome → key ≠ "length" ∧ arrayIndex? key = none) :
    o.Written key v (o.setProperty key v) where
  read := by rw [get?_setProperty hname, if_pos rfl]
  rest _ key' hkey' := by rw [get?_setProperty hname, if_neg hkey']
  grown elements i harray hi := by
    rw [(hname (by rw [harray]; rfl)).2] at hi
    cases hi
  properties harray hindex := by
    rw [(hname harray).2] at hindex
    cases hindex
  kind _ := rfl

section Element

variable {i : Nat} (harray : o.elements? = some elements) (hi : arrayIndex? key = some i)
include harray hi

theorem get?_setElement {key' : String} {j : Nat} (hj : arrayIndex? key' = some j)
    (hkey' : key' ≠ key) :
    (o.modifyElements (setElement · i v)).get? key' =
      if elements.size ≤ j ∧ j < i then some .undefined else elements[j]? := by
  have hji : j ≠ i := fun heq => hkey' (arrayIndex?_injective (heq ▸ hj) hi)
  rw [modifyElements_eq harray, get?_element rfl hj]
  exact (Heap.getElem?_setElement elements i j v).trans (if_neg hji)

theorem get?_apart {key' : String} (hkey' : key' ≠ key) (hlength : key' ≠ "length")
    (hapart : ∀ j, arrayIndex? key' = some j → elements.size ≤ j → i ≤ j) :
    (o.modifyElements (setElement · i v)).get? key' = o.get? key' := by
  cases hj : arrayIndex? key' with
  | none =>
    rw [modifyElements_eq harray, get?_of_elements? rfl, get?_of_elements? harray,
      if_neg hlength, if_neg hlength, hj]
  | some j =>
    have houtside : ¬ (elements.size ≤ j ∧ j < i) := fun hbetween =>
      Nat.not_le.mpr hbetween.2 (hapart j hj hbetween.1)
    rw [get?_setElement harray hi hj hkey', if_neg houtside, get?_element harray hj]

theorem written_setElement : o.Written key v (o.modifyElements (setElement · i v)) where
  read := by
    rw [modifyElements_eq harray, get?_element rfl hi]
    exact (Heap.getElem?_setElement elements i i v).trans (if_pos rfl)
  rest hfits key' hkey' := by
    have hinside : i < elements.size := hfits elements i harray hi
    by_cases hlength : key' = "length"
    · have hsize : (setElement elements i v).size = elements.size := by
        rw [setElement, if_pos hinside, Array.set!_eq_setIfInBounds, Array.size_setIfInBounds]
      rw [modifyElements_eq harray, get?_of_elements? rfl, get?_of_elements? harray,
        if_pos hlength, if_pos hlength, hsize]
    · exact get?_apart harray hi hkey' hlength fun j _ hj => by omega
  grown elements' i' harray' hi' hend := by
    obtain rfl := Option.some.inj (harray.symm.trans harray')
    obtain rfl := Option.some.inj (hi.symm.trans hi')
    have hsize : (setElement elements i v).size = i + 1 := by
      rw [setElement, if_neg (Nat.not_lt.mpr hend), Array.size_push, Heap.size_resized]
    refine ⟨?_, ?_, ?_, fun key' hkey' hlength => get?_apart harray hi hkey' hlength⟩
    · rw [modifyElements_eq harray, get?_of_elements? rfl, if_pos rfl, hsize]
    · rw [modifyElements_eq harray]
      exact congrArg some hsize
    · intro key' j hj hfrom hto
      have hkey' : key' ≠ key := by
        rintro rfl
        cases hi.symm.trans hj
        exact Nat.lt_irrefl _ hto
      rw [get?_setElement harray hi hj hkey', if_pos ⟨hfrom, hto⟩]
  properties _ _ := by rw [modifyElements_eq harray]
  kind hname := by
    rw [harray, hi] at hname
    rcases hname with hnone | hnone <;> cases hnone

end Element

theorem fitted_resized (harray : o.elements? = some elements) (n : Nat) :
    o.Fitted elements n (o.modifyElements (resized · n)) := by
  rw [modifyElements_eq harray]
  exact {
    length := by rw [get?_of_elements? rfl, if_pos rfl, Heap.size_resized]
    elements := ⟨_, rfl, Heap.size_resized elements n, Heap.getElem?_resized elements n⟩
    properties := rfl
    named := fun key hlength hname => by
      rw [get?_of_elements? rfl, get?_of_elements? harray, if_neg hlength, if_neg hlength, hname] }

end Object

namespace Heap

variable {h : Heap} {id : ObjectId} {o : Object}

theorem object_of_get? (hid : h.get? id = some o) : h.object id = o := by
  rw [object, hid]
  rfl

theorem get?_modify (f : Object → Object) (id' : ObjectId) :
    (h.modify id f).get? id' = if id = id' then (h.get? id').map f else h.get? id' := by
  unfold get? modify
  rw [Array.getElem?_modify]
  split
  next => cases h.objects[id']? <;> rfl
  next => rfl

/-- A heap in which one object was exchanged for another. -/
structure Exchanged (h : Heap) (id : ObjectId) (o' : Object) (h' : Heap) : Prop where
  here : h'.get? id = some o'
  elsewhere : ∀ id', id' ≠ id → h'.get? id' = h.get? id'

theorem exchanged_modify (hid : h.get? id = some o) (f : Object → Object) :
    h.Exchanged id (f o) (h.modify id f) where
  here := by rw [get?_modify, if_pos rfl, hid, Option.map_some]
  elsewhere id' hid' := by rw [get?_modify, if_neg (Ne.symm hid')]

theorem setProperty_eq_ok {key : String} {v : Value} {change : Object → Object}
    (hchange : h.propertyChange id key v = .ok change) :
    h.setProperty id key v = .ok (h.modify id change) := by
  rw [setProperty, hchange]
  rfl

theorem checkLength_of_le {elements : Array Value} {n : Nat}
    (hn : n ≤ elements.size ∨ n ≤ maxLength) : checkLength elements n = .ok () := by
  have hcapacity := maxLength_lt_words64
  unfold checkLength
  rcases hn with hn | hn
  · rw [if_pos hn]
  · split
    case isTrue => rfl
    case isFalse => rw [if_neg (by omega), if_neg (by omega)]

theorem checkLength_of_lt {elements : Array Value} {n : Nat} (hsize : elements.size ≤ maxLength)
    (hn : maxLength < n) : checkLength elements n =
      .error (if words64 ≤ n then .indexOverflow else .capacityOverflow) := by
  unfold checkLength
  rw [if_neg (by omega), if_pos hn]
  split <;> rfl

/-- Writes under names other than the length of an array. -/
theorem propertyChange_written (hid : h.get? id = some o) {key : String} {v : Value}
    (hname : ∀ elements, o.elements? = some elements → key ≠ "length" ∧
      ∀ i, arrayIndex? key = some i → i < elements.size ∨ i < maxLength) :
    ∃ change, h.propertyChange id key v = .ok change ∧ o.Written key v (change o) := by
  unfold propertyChange
  rw [object_of_get? hid]
  cases harray : o.elements? with
  | none =>
    refine ⟨(·.setProperty key v), ?_, Object.written_setProperty fun hsome => ?_⟩
    · split
      next elements hkind => simp [Object.elements?, hkind] at harray
      next => rfl
    · rw [harray] at hsome
      cases hsome
  | some elements =>
    obtain ⟨hlength, hroom⟩ := hname elements harray
    rw [Object.kind_of_elements? harray]
    dsimp only
    rw [if_neg hlength]
    cases hi : arrayIndex? key with
    | none => exact ⟨_, rfl, Object.written_setProperty fun _ => ⟨hlength, hi⟩⟩
    | some i =>
      dsimp only
      rw [checkLength_of_le (hroom i hi)]
      exact ⟨_, rfl, Object.written_setElement harray hi⟩

/-- Writes to the length of an array. -/
theorem propertyChange_length (hid : h.get? id = some o) {elements : Array Value}
    (harray : o.elements? = some elements) {v : Value} {length : Float}
    (hv : h.numberUnless (some id) v = .ok length)
    (hroom : length.isFinite → (integerPart length).toNat ≤ maxLength) :
    ∃ change, h.propertyChange id "length" v = .ok change ∧
      if 0 ≤ length ∧ length.isFinite then
        o.Fitted elements (integerPart length).toNat (change o)
      else change o = o := by
  unfold propertyChange
  rw [object_of_get? hid, Object.kind_of_elements? harray]
  dsimp only
  rw [if_pos rfl, hv]
  by_cases hsize : 0 ≤ length ∧ length.isFinite
  · have hlength : toSize length = (integerPart length).toNat := by
      have := maxLength_lt_words64
      have := hroom hsize.2
      rw [toSize_of_isFinite hsize.2]
      omega
    refine ⟨(·.modifyElements (resized · (toSize length))), ?_, ?_⟩
    · refine (if_pos (by simpa using hsize)).trans ?_
      rw [checkLength_of_le (.inr (hlength ▸ hroom hsize.2))]
      rfl
    · rw [if_pos hsize, hlength]
      exact Object.fitted_resized harray _
  · exact ⟨_, if_neg (by simpa using hsize), if_neg hsize ▸ rfl⟩

/-- Writes that would make an array longer than any can be. -/
theorem setProperty_overlong (hid : h.get? id = some o) {elements : Array Value}
    (harray : o.elements? = some elements) (hsize : elements.size ≤ maxLength) (v : Value) :
    (∀ key i, arrayIndex? key = some i → maxLength ≤ i →
      h.setProperty id key v =
        .error (if i + 1 = words64 then .indexOverflow else .capacityOverflow)) ∧
    ∀ n, h.numberUnless (some id) v = .ok n → 0 ≤ n → n.isFinite →
      maxLength < (integerPart n).toNat →
      h.setProperty id "length" v = .error .capacityOverflow := by
  have hcapacity : maxLength + 1 < words64 := by decide
  refine ⟨fun key i hi hlarge => ?_, fun n hv hn hfinite hlarge => ?_⟩
  · unfold setProperty propertyChange
    rw [object_of_get? hid, Object.kind_of_elements? harray]
    dsimp only
    rw [if_neg (Object.ne_length_of_arrayIndex? hi), hi]
    dsimp only
    rw [checkLength_of_lt hsize (by omega)]
    -- An index is a word, so one more is at most the number of words.
    have hlast : words64 ≤ i + 1 ↔ i + 1 = words64 := by
      have := arrayIndex?_lt hi
      omega
    simp only [hlast]
    rfl
  · have hlength : toSize n = min (words64 - 1) (integerPart n).toNat := toSize_of_isFinite hfinite
    have hlt := toSize_lt n
    unfold setProperty propertyChange
    rw [object_of_get? hid, Object.kind_of_elements? harray]
    dsimp only
    rw [if_pos rfl, hv]
    change Except.map _ (if (decide (0 ≤ n) && n.isFinite) = true then _ else _) = _
    rw [if_pos (by simp [hn, hfinite]), checkLength_of_lt hsize (by omega),
      if_neg (Nat.not_le.mpr hlt)]
    rfl

/-- Writing and reading properties. A write under a name other than the length of an array, which
does not make an array longer than any can be, is done: the value is read where it was written, and
elsewhere what was read before, but that an array grows up to a new element and reads as undefined
in between. The length of an array takes any number that is no less than zero and finite and that an
array can be long, and cuts or pads the array there; a number that is negative or not finite changes
nothing. What would make the array longer ends in a fault. Elements and named properties do not
touch each other, and elements are named by decimals without leading zeros. -/
theorem setProperty_exchanges (h : Heap) (id : ObjectId) (o : Object) (hid : h.get? id = some o) :
    (∀ key v, (∀ elements, o.elements? = some elements → key ≠ "length" ∧
        ∀ i, arrayIndex? key = some i → i < elements.size ∨ i < maxLength) →
      ∃ h' o', h.setProperty id key v = .ok h' ∧ h.Exchanged id o' h' ∧ o.Written key v o') ∧
    (∀ elements v n, o.elements? = some elements → h.numberUnless (some id) v = .ok n →
      (n.isFinite → (integerPart n).toNat ≤ maxLength) →
      ∃ h' o', h.setProperty id "length" v = .ok h' ∧ h.Exchanged id o' h' ∧
        if 0 ≤ n ∧ n.isFinite then o.Fitted elements (integerPart n).toNat o' else o' = o) ∧
    (∀ elements v, o.elements? = some elements → elements.size ≤ maxLength →
      (∀ key i, arrayIndex? key = some i → maxLength ≤ i → h.setProperty id key v =
        .error (if i + 1 = words64 then .indexOverflow else .capacityOverflow)) ∧
      ∀ n, h.numberUnless (some id) v = .ok n → 0 ≤ n → n.isFinite →
        maxLength < (integerPart n).toNat →
        h.setProperty id "length" v = .error .capacityOverflow) ∧
    ∀ key i, arrayIndex? key = some i ↔ key.toList = Nat.toDigits 10 i ∧ i < words64 := by
  refine ⟨fun key v hname => ?_, fun elements v n harray hv hroom => ?_,
    fun elements v harray hsize => setProperty_overlong hid harray hsize v,
    fun _ _ => arrayIndex?_eq_some_iff⟩
  · obtain ⟨change, hchange, hwritten⟩ := propertyChange_written hid (v := v) hname
    exact ⟨_, _, setProperty_eq_ok hchange, exchanged_modify hid change, hwritten⟩
  · obtain ⟨change, hchange, hfitted⟩ := propertyChange_length hid harray hv hroom
    exact ⟨_, _, setProperty_eq_ok hchange, exchanged_modify hid change, hfitted⟩

/-- An array of one element is written to behind its end, emptied, and then made too long. -/
theorem setProperty_exchanges_growing :
    let o := Object.ofKind (.array #[.null])
    let h := ((new 1).allocate o).2
    h.get? 0 = some o ∧
      (∃ h' o', h.setProperty 0 "2" (.bool true) = .ok h' ∧ h'.get? 0 = some o' ∧
        o'.get? "2" = some (.bool true) ∧ o'.get? "1" = some .undefined ∧
        o'.get? "0" = some .null ∧ o'.get? "length" = some (.number (ofNat 3))) ∧
      (∃ h' o', h.setProperty 0 "length" (.number 0) = .ok h' ∧ h'.get? 0 = some o' ∧
        o'.get? "length" = some (.number (ofNat 0))) ∧
      h.setProperty 0 "9223372036854775807" .null = .error .capacityOverflow := by
  intro o h
  have hid : h.get? 0 = some o := rfl
  obtain ⟨written, fitted, overlong, -⟩ := setProperty_exchanges h 0 o hid
  have hindex : arrayIndex? "2" = some 2 := by decide
  refine ⟨hid, ?_, ?_, ?_⟩
  · obtain ⟨h', o', hset, hexchanged, hwritten⟩ := written "2" (.bool true) fun _ _ =>
      ⟨by decide, fun i hi => by
        obtain rfl := Option.some.inj (hindex.symm.trans hi)
        exact .inr (by decide)⟩
    obtain ⟨hlength, -, hbetween, hrest⟩ := hwritten.grown #[.null] 2 rfl hindex (by decide)
    refine ⟨h', o', hset, hexchanged.here, hwritten.read, ?_, ?_, hlength⟩
    · exact hbetween "1" 1 (by decide) (by decide) (by decide)
    · refine hrest "0" (by decide) (by decide) fun j hj hfrom => ?_
      obtain rfl := Option.some.inj ((by decide : arrayIndex? "0" = some 0).symm.trans hj)
      cases hfrom
  · have hzero : (integerPart 0).toNat = 0 := by decide +kernel
    obtain ⟨h', o', hset, hexchanged, hfitted⟩ := fitted #[.null] (.number 0) 0 rfl rfl fun _ => by
      rw [hzero]
      exact Nat.zero_le _
    rw [if_pos (by decide), hzero] at hfitted
    exact ⟨h', o', hset, hexchanged.here, hfitted.length⟩
  · have hlarge : arrayIndex? "9223372036854775807" = some 9223372036854775807 := by decide
    exact (overlong #[.null] .null rfl (by decide)).1 _ _ hlarge (by decide)

end Heap

end ScriptShell
