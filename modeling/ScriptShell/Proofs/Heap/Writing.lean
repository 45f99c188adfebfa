import ScriptShell.Compilation
import ScriptShell.Proofs.Evaluation.Running
import ScriptShell.Proofs.Heap.Reading
import ScriptShell.Proofs.Host.Trace

namespace ScriptShell

theorem Object.kind_of_elements? {o : Object} {elements : Array Value}
    (harray : o.elements? = some elements) : o.kind = .array elements := by
  unfold elements? at harray
  split at harray
  case h_1 hkind =>
    obtain rfl := Option.some.inj harray
    exact hkind
  case h_2 => cases harray

theorem arrayIndex?_length : arrayIndex? "length" = none := by
  decide

namespace Heap

variable {h : Heap} {id : ObjectId} {key : String} {v : Value}

/-- A value whose number cannot be had while an array is busy. -/
def Entangled (h : Heap) (id : ObjectId) (v : Value) : Prop :=
  ∃ a, v = .object a ∧ (h.object a).elements?.isSome ∧
    (Relation.ReflTransGen h.Reads a id ∨ ∃ a', h.ReadsIn h.objects.size a a')

/-- The length that an array has to have for a write. -/
inductive Demands (h : Heap) (id : ObjectId) (v : Value) : String → Nat → Prop where
  | length {n : Float} (hv : h.numberUnless (some id) v = .ok n) (hn : 0 ≤ n ∧ n.isFinite) :
      Demands h id v "length" (Number.toSize n)
  | element {key : String} {i : Nat} (hi : arrayIndex? key = some i) : Demands h id v key (i + 1)

/-- A write that makes an array longer than any can be: its length overflows, or the bytes of its
elements do. -/
inductive Overlong (h : Heap) (id : ObjectId) (key : String) (v : Value)
    (elements : Array Value) : Prop where
  | last (hi : arrayIndex? key = some (Number.words64 - 1)) (hsize : elements.size < Number.words64)
  | large {n : Nat} (hn : h.Demands id v key n) (hword : n < Number.words64)
      (hsize : elements.size < n) (hmax : maxLength < n)

/-- A write that cannot be carried out. -/
def Unwritable (h : Heap) (id : ObjectId) (key : String) (v : Value) : Prop :=
  ∃ elements, (h.object id).elements? = some elements ∧
    (key = "length" ∧ h.Entangled id v ∨ h.Overlong id key v elements)

theorem lt_size_of_array (harray : (h.object id).elements?.isSome) : id < h.objects.size := by
  by_contra hid
  rw [object_of_size_le (Nat.not_lt.mp hid)] at harray
  cases harray

theorem entangled_iff (hknown : ∀ id id', h.Reads id id' → id' < h.objects.size) :
    h.Entangled id v ↔ ∃ a, v = .object a ∧ (h.object a).elements?.isSome ∧
      (Relation.ReflTransGen h.Reads a id ∨
        ∃ c, Relation.ReflTransGen h.Reads a c ∧ Relation.TransGen h.Reads c c) := by
  refine exists_congr fun a => and_congr_right fun _ => and_congr_right fun harray => ?_
  rw [exists_readsIn_size_iff hknown (lt_size_of_array harray)]

theorem numberUnless_ok_iff (hid : (h.object id).elements?.isSome) :
    (∃ x, h.numberUnless (some id) v = .ok x) ↔ ¬ h.Entangled id v := by
  cases v with
  | object a =>
    rw [numberUnless]
    by_cases ha : id = a
    · subst ha
      rw [if_pos rfl]
      exact ⟨nofun, fun h' => absurd ⟨id, rfl, hid, .inl .refl⟩ h'⟩
    · rw [if_neg fun heq => ha (Option.some.inj heq)]
      split
      case isTrue harray =>
        rw [map_ok_iff, textWithin_busy_ok_iff]
        simp [Entangled, harray]
      case isFalse harray =>
        refine iff_of_true ⟨_, rfl⟩ fun ⟨a', heq, harray', _⟩ => ?_
        cases heq
        exact harray harray'
  | _ => exact iff_of_true ⟨_, rfl⟩ fun ⟨_, heq, _⟩ => nomatch heq

theorem arrayIndex?_lt {i : Nat} (hi : arrayIndex? key = some i) : i < Number.words64 := by
  unfold arrayIndex? at hi
  dsimp only at hi
  split at hi
  · cases hi
  · split at hi
    · cases hi
    · split at hi
      · cases hi
        assumption
      · cases hi

theorem maxLength_lt_words64 : maxLength < Number.words64 := by
  decide

theorem checkLength_ok_iff {elements : Array Value} {n : Nat} {f : Object → Object} :
    (∃ change, (checkLength elements n).map (fun _ => f) = .ok change) ↔
      ¬ (elements.size < n ∧ maxLength < n) := by
  have hcapacity := maxLength_lt_words64
  unfold checkLength
  split
  case isTrue => exact iff_of_true ⟨_, rfl⟩ (by omega)
  case isFalse =>
    split
    case isTrue => exact iff_of_false nofun (by omega)
    case isFalse =>
      split
      case isTrue => exact iff_of_false nofun (by omega)
      case isFalse => exact iff_of_true ⟨_, rfl⟩ (by omega)

theorem toSize_lt (n : Float) : Number.toSize n < Number.words64 := by
  have hwords : Number.words64 = 2 ^ 64 := rfl
  unfold Number.toSize
  split
  · omega
  · split
    · omega
    · split <;> omega

theorem overlong_length {elements : Array Value} {n : Float}
    (hv : h.numberUnless (some id) v = .ok n) :
    h.Overlong id "length" v elements ↔ (0 ≤ n ∧ n.isFinite) ∧
      elements.size < Number.toSize n ∧ maxLength < Number.toSize n := by
  constructor
  · rintro (⟨hi, -⟩ | ⟨hdemands, -, hsize, hmax⟩)
    · cases arrayIndex?_length.symm.trans hi
    · cases hdemands with
      | length hv' hn =>
        obtain rfl := Except.ok.inj (hv.symm.trans hv')
        exact ⟨hn, hsize, hmax⟩
      | element hi => cases arrayIndex?_length.symm.trans hi
  · rintro ⟨hn, hsize, hmax⟩
    exact .large (.length hv hn) (toSize_lt n) hsize hmax

theorem overlong_element {elements : Array Value} {i : Nat} (hi : arrayIndex? key = some i) :
    h.Overlong id key v elements ↔ elements.size < i + 1 ∧ maxLength < i + 1 := by
  have hwords : Number.words64 = 2 ^ 64 := rfl
  have hcapacity := maxLength_lt_words64
  have hlt := arrayIndex?_lt hi
  constructor
  · rintro (⟨hlast, hsize⟩ | ⟨hdemands, -, hsize, hmax⟩)
    · have hlast := Option.some.inj (hi.symm.trans hlast)
      omega
    · cases hdemands with
      | length => cases arrayIndex?_length.symm.trans hi
      | element hi' =>
        obtain rfl := Option.some.inj (hi.symm.trans hi')
        exact ⟨hsize, hmax⟩
  · rintro ⟨hsize, hmax⟩
    by_cases hword : i + 1 < Number.words64
    · exact .large (.element hi) hword hsize hmax
    · have hlast : i = Number.words64 - 1 := by omega
      exact .last (hlast ▸ hi) (by omega)

theorem not_overlong {elements : Array Value} (hkey : key ≠ "length")
    (hi : arrayIndex? key = none) : ¬ h.Overlong id key v elements := by
  rintro (⟨hlast, -⟩ | ⟨hdemands, -⟩)
  · cases hi.symm.trans hlast
  · cases hdemands with
    | length => exact hkey rfl
    | element hi' => cases hi.symm.trans hi'

/-- The length of an array can be written unless the value has no number or too large a one. -/
theorem lengthChange_ok_iff {elements : Array Value}
    (harray : (h.object id).elements? = some elements) :
    (∃ change, h.propertyChange id "length" v = .ok change) ↔
      ¬ (h.Entangled id v ∨ h.Overlong id "length" v elements) := by
  have hnumber : (∃ n, h.numberUnless (some id) v = .ok n) ↔ ¬ h.Entangled id v :=
    numberUnless_ok_iff (by rw [harray]; rfl)
  unfold propertyChange
  rw [Object.kind_of_elements? harray]
  dsimp only
  rw [if_pos rfl]
  cases hv : h.numberUnless (some id) v with
  | error f =>
    refine iff_of_false nofun fun hnot => hnot (.inl ?_)
    by_contra hfree
    obtain ⟨n, hn⟩ := hnumber.mpr hfree
    cases hv.symm.trans hn
  | ok n =>
    rw [not_or, overlong_length hv]
    refine Iff.trans ?_ (iff_and_self.mpr fun _ => hnumber.mp ⟨n, hv⟩)
    change (∃ change, (if (decide (0 ≤ n) && n.isFinite) = true then _ else _) = _) ↔ _
    by_cases hn : 0 ≤ n ∧ n.isFinite
    · rw [if_pos (by simpa using hn), checkLength_ok_iff]
      exact not_congr (iff_and_self.mpr fun _ => hn)
    · rw [if_neg (by simpa using hn)]
      exact iff_of_true ⟨_, rfl⟩ fun hlarge => hn hlarge.1

theorem propertyChange_ok_iff :
    (∃ change, h.propertyChange id key v = .ok change) ↔ ¬ h.Unwritable id key v := by
  -- Only arrays can fail, by their length or by an element.
  cases harray : (h.object id).elements? with
  | none =>
    refine iff_of_true ?_ fun ⟨elements, harray', _⟩ => by cases harray.symm.trans harray'
    unfold propertyChange
    split
    case h_1 elements hkind => simp [Object.elements?, hkind] at harray
    case h_2 => exact ⟨_, rfl⟩
  | some elements =>
    have hwritable : h.Unwritable id key v ↔
        (key = "length" ∧ h.Entangled id v ∨ h.Overlong id key v elements) := by
      simp [Unwritable, harray]
    rw [hwritable]
    by_cases hkey : key = "length"
    · subst hkey
      rw [lengthChange_ok_iff harray]
      simp
    · unfold propertyChange
      rw [Object.kind_of_elements? harray]
      dsimp only
      rw [if_neg hkey]
      cases hi : arrayIndex? key with
      | some i =>
        rw [checkLength_ok_iff, overlong_element hi]
        simp [hkey]
      | none =>
        refine iff_of_true ⟨_, rfl⟩ ?_
        rintro (⟨hlength, -⟩ | hlarge)
        · exact hkey hlength
        · exact not_overlong hkey hi hlarge

theorem size_resized (elements : Array Value) (n : Nat) : (resized elements n).size = n := by
  unfold resized
  split <;> simp <;> omega

theorem getElem?_resized (elements : Array Value) (n i : Nat) :
    (resized elements n)[i]? = if i < n then some (elements[i]?.getD .undefined) else none := by
  unfold resized
  by_cases hi : i < n <;> by_cases hsize : i < elements.size <;> split <;>
    simp [Array.getElem?_append, Array.getElem?_replicate, hi, hsize] <;> omega

/-- The element that is set lies within the array, and so do all in front of it. -/
theorem getElem?_setElement (elements : Array Value) (i j : Nat) (v : Value) :
    (Object.setElement elements i v)[j]? =
      if j = i then some v
      else if elements.size ≤ j ∧ j < i then some .undefined
      else elements[j]? := by
  unfold Object.setElement
  by_cases hji : j = i
  · subst hji
    split
    case isTrue hj => simp [hj]
    case isFalse => rw [Array.getElem?_push, size_resized, if_pos rfl, if_pos rfl]
  · rw [if_neg hji]
    split
    case isTrue hi =>
      have hinside : ¬ (elements.size ≤ j ∧ j < i) := by omega
      rw [if_neg hinside, Array.set!_eq_setIfInBounds, Array.getElem?_setIfInBounds_ne (Ne.symm hji)]
    case isFalse hi =>
      rw [Array.getElem?_push, size_resized, if_neg hji, getElem?_resized]
      by_cases hj : j < elements.size
      · have hbefore : j < i := by omega
        simp [hj, hbefore, Nat.not_le.mpr hj]
      · simp [Nat.not_lt.mp hj]

theorem object_modify_of_array (harray : (h.object id).elements?.isSome) (f : Object → Object) :
    (h.modify id f).object id = f (h.object id) := by
  unfold object get? modify at *
  rw [Array.getElem?_modify, if_pos rfl]
  cases hid : h.objects[id]? with
  | none =>
    rw [hid] at harray
    cases harray
  | some o =>
    cases o with
    | none =>
      rw [hid] at harray
      cases harray
    | some o => rfl

/-- What was written at an index can be read there. -/
theorem get?_propertyChange {i : Nat} {change : Object → Object}
    (harray : (h.object id).elements?.isSome) (hi : arrayIndex? key = some i)
    (hchange : h.propertyChange id key v = .ok change) :
    ((h.modify id change).object id).get? key = some v := by
  have hkey : key ≠ "length" := by
    rintro rfl
    cases hi
  rw [object_modify_of_array harray]
  obtain ⟨elements, properties, hobject⟩ : ∃ elements properties,
      h.object id = ⟨.array elements, properties⟩ := by
    cases hid : h.object id with
    | mk kind properties =>
      rw [hid] at harray
      cases kind with
      | array elements => exact ⟨elements, properties, rfl⟩
      | plain | error | function => cases harray
  unfold propertyChange at hchange
  rw [hobject] at hchange ⊢
  dsimp only at hchange
  rw [if_neg hkey, hi] at hchange
  dsimp only at hchange
  cases hfits : checkLength elements (i + 1) with
  | error => rw [hfits] at hchange; cases hchange
  | ok =>
    rw [hfits] at hchange
    cases hchange
    simp only [Object.modifyElements, Object.get?, if_neg hkey, hi]
    rw [getElem?_setElement, if_pos rfl]

end Heap

namespace Evaluation

variable {σ : Type}

theorem setProperty_apply (id : ObjectId) (key : String) (v : Value) (s : State σ) :
    setProperty id key v s =
      match s.runtime.heap.propertyChange id key v with
      | .ok change =>
        .ok () { s with runtime := { s.runtime with heap := s.runtime.heap.modify id change } }
      | .error f => .error (.fault f) s := by
  have hask : (ask (·.propertyChange id key v) : Eval σ _) s =
      liftFault (s.runtime.heap.propertyChange id key v) s := rfl
  unfold setProperty
  rw [bind_apply, hask]
  cases s.runtime.heap.propertyChange id key v <;> rfl

theorem setProperty_faults_iff (id : ObjectId) (key : String) (v : Value) (s : State σ) :
    (∃ f s', setProperty id key v s = .error (.fault f) s') ↔
      s.runtime.heap.Unwritable id key v := by
  rw [setProperty_apply, ← not_iff_not, ← Heap.propertyChange_ok_iff]
  cases s.runtime.heap.propertyChange id key v with
  | ok change => exact iff_of_true (fun ⟨_, _, hfault⟩ => nomatch hfault) ⟨change, rfl⟩
  | error f => exact iff_of_false (fun hnone => hnone ⟨f, s, rfl⟩) nofun

theorem raise_apply (host : Host σ) (kind : ErrorKind) (message : String) (s : State σ) :
    ∃ v file line s', (raise host kind message : Eval σ Unit) s = .error (.thrown v file line) s' :=
  ⟨_, _, _, _, rfl⟩

theorem putProperty_no_fault (host : Host σ) {base : Value} (hbase : ∀ id, base ≠ .object id)
    (key : String) (v : Value) (description : String) (s : State σ) (f : Fault) (s' : State σ) :
    putProperty host base key v description s ≠ .error (.fault f) s' := by
  intro hfault
  have raised : ∀ s', noProperties host description s ≠ (.error (.fault f) s' :
      EStateM.Result Stop (State σ) Unit) := fun s' hfault => by
    obtain ⟨_, _, _, _, hthrown⟩ := raise_apply host .typeError
      (description ++ " has no properties") s
    cases hthrown.symm.trans hfault
  cases base with
  | object id => exact hbase id rfl
  | undefined => exact raised s' hfault
  | null => exact raised s' hfault
  | bool b => cases hfault
  | number x => cases hfault
  | text t => cases hfault

/-- A write to a property ends in a fault just when an object is written that is an array, as a
length with a value entangled with it, or the array would have to be longer than any can be. Any
other write to an object is done, and what was written at an index of an array can be read there. -/
theorem putProperty_faults_iff (host : Host σ) (base : Value) (key : String) (v : Value)
    (description : String) (s : State σ) :
    let h := s.runtime.heap
    ((∃ f s', putProperty host base key v description s = .error (.fault f) s') ↔
      ∃ id elements, base = .object id ∧ (h.object id).elements? = some elements ∧
        (key = "length" ∧ h.Entangled id v ∨ h.Overlong id key v elements)) ∧
      (∀ id, base = .object id → ¬ h.Unwritable id key v →
        ∃ s', putProperty host base key v description s = .ok () s' ∧
          ∀ i, (h.object id).elements?.isSome → arrayIndex? key = some i →
            (s'.runtime.heap.object id).get? key = some v) ∧
      ((∀ id id', h.Reads id id' → id' < h.objects.size) → ∀ id,
        (h.Entangled id v ↔ ∃ a, v = .object a ∧ (h.object a).elements?.isSome ∧
          (Relation.ReflTransGen h.Reads a id ∨
            ∃ c, Relation.ReflTransGen h.Reads a c ∧ Relation.TransGen h.Reads c c))) := by
  intro h
  refine ⟨⟨fun ⟨f, s', hfault⟩ => ?_, ?_⟩, ?_, fun hknown id => Heap.entangled_iff hknown⟩
  · by_cases hbase : ∃ id, base = .object id
    · obtain ⟨id, rfl⟩ := hbase
      obtain ⟨elements, hwrite⟩ := (setProperty_faults_iff id key v s).mp ⟨f, s', hfault⟩
      exact ⟨id, elements, rfl, hwrite⟩
    · exact absurd hfault (putProperty_no_fault host (not_exists.mp hbase) key v description s f s')
  · rintro ⟨id, elements, rfl, hwrite⟩
    exact (setProperty_faults_iff id key v s).mpr ⟨elements, hwrite⟩
  · rintro id rfl hwritable
    -- The write exists because nothing forbids it; what it changed is then read back.
    obtain ⟨change, hchange⟩ := Heap.propertyChange_ok_iff.mpr hwritable
    refine ⟨_, (setProperty_apply id key v s).trans (by rw [hchange]), fun i harray hi => ?_⟩
    exact Heap.get?_propertyChange harray hi hchange

theorem putProperty_faults_of_itself :
    let heap := ((Heap.new 1).allocate (.ofKind (.array #[]))).2
    let s : State Recording :=
      ⟨{ Runtime.new .bare with heap }, ⟨none, none, 1, .undefined⟩, Recording.start ⟨none, none⟩⟩
    ∃ f s', putProperty recorder (.object 0) "length" (.object 0) "a" s = .error (.fault f) s' :=
  (putProperty_faults_iff recorder (.object 0) "length" (.object 0) "a" _).1.mpr
    ⟨0, #[], rfl, rfl, .inl ⟨rfl, 0, rfl, rfl, .inl .refl⟩⟩

def selfLength : Program :=
  ⟨[.declare .var [.mk "a" (some (.array [] default)) default] default,
    .expr (.assign none (.member (.name "a" default) "length" default) (.name "a" default) default)
      default], ["a"]⟩

example : (Runtime.execute (.initial .bare) recorder 20 none selfLength
    (Recording.start ⟨none, none⟩)).1 = .stopped (.fault .busyObject) := by
  rfl

end Evaluation

end ScriptShell
