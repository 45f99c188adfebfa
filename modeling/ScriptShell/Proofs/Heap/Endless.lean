import ScriptShell.Proofs.Heap.Registry
import ScriptShell.Proofs.Heap.Writing

namespace ScriptShell

/-- A value that an object refers to. -/
def Object.Holds (o : Object) (v : Value) : Prop :=
  (∃ elements, o.elements? = some elements ∧ v ∈ elements) ∨
    ∃ key, o.properties.get? key = some v

theorem Object.holds_of_mem_parts {o : Object} {v : Value} (hv : v ∈ o.parts) : o.Holds v := by
  unfold Object.parts at hv
  split at hv
  next elements hkind =>
    have helements : o.elements? = some elements := by simp [Object.elements?, hkind]
    exact .inl ⟨elements, helements, Array.mem_toList_iff.mp hv⟩
  next =>
    rcases List.mem_append.mp hv with hname | hmessage
    · exact .inr ⟨"name", Option.mem_toList.mp hname⟩
    · exact .inr ⟨"message", Option.mem_toList.mp hmessage⟩
  next => cases hv

namespace Heap

variable {h : Heap} {id : ObjectId} {v w : Value}

/-- A value that is no object, or one of the heap. -/
def Knows (h : Heap) (v : Value) : Prop :=
  ∀ id, v = .object id → id < h.objects.size

/-- All that is referred to in the heap is in the heap. -/
def Closed (h : Heap) : Prop :=
  ∀ id v, (h.object id).Holds v → h.Knows v

/-- A heap that was fresh, after literals, assignments and the methods that change an array. What
these are given are values of the heap. -/
inductive Built : Heap → Prop where
  | fresh (chunkSize : Nat) : Built (new chunkSize)
  /-- Literals and functions, and the arrays that methods give. -/
  | literal {h : Heap} (o : Object) (built : Built h) (ho : ∀ v, o.Holds v → h.Knows v) :
      Built (h.allocate o).2
  | assign {h h' : Heap} (id : ObjectId) (key : String) (v : Value) (built : Built h)
      (hv : h.Knows v) (hset : h.setProperty id key v = .ok h') : Built h'
  | push {h : Heap} (id : ObjectId) (args : List Value) (built : Built h)
      (hargs : ∀ v ∈ args, h.Knows v) : Built (h.modify id (·.modifyElements (Library.push · args)))
  | pop {h : Heap} (id : ObjectId) (built : Built h) :
      Built (h.modify id (·.modifyElements Array.pop))
  | collect {h : Heap} (built : Built h) : Built h.collect.2

section Closed

theorem knows_of_size_le {h' : Heap} (hv : h.Knows v) (hsize : h.objects.size ≤ h'.objects.size) :
    h'.Knows v :=
  fun id hid => Nat.lt_of_lt_of_le (hv id hid) hsize

theorem closed_new (chunkSize : Nat) : (new chunkSize).Closed := by
  rintro id v (⟨elements, helements, -⟩ | ⟨key, hkey⟩)
  · cases helements
  · rw [show (new chunkSize).object id = default from rfl] at hkey
    cases (Dict.get?_empty key).symm.trans hkey

theorem Closed.allocate (hh : h.Closed) {o : Object} (ho : ∀ v, o.Holds v → h.Knows v) :
    (h.allocate o).2.Closed := by
  intro id v hv
  have hsize : h.objects.size ≤ (h.allocate o).2.objects.size := by
    rw [objects_allocate, Array.size_push]
    omega
  rw [object_allocate] at hv
  split at hv
  · exact knows_of_size_le (ho v hv) hsize
  · exact knows_of_size_le (hh id v hv) hsize

theorem object_modify (h : Heap) (id id' : ObjectId) (f : Object → Object) :
    (h.modify id f).object id' = h.object id' ∨ (h.modify id f).object id' = f (h.object id') := by
  unfold object get? modify
  rw [Array.getElem?_modify]
  split
  next =>
    cases h.objects[id']? with
    | none => exact .inl rfl
    | some o =>
      cases o with
      | none => exact .inl rfl
      | some o => exact .inr rfl
  next => exact .inl rfl

theorem Closed.modify (hh : h.Closed) {f : Object → Object}
    (hf : ∀ o v, (f o).Holds v → o.Holds v ∨ h.Knows v) : (h.modify id f).Closed := by
  intro id' v hv
  have hknown : h.Knows v := by
    rcases object_modify h id id' f with hsame | hchanged
    · exact hh id' v (hsame ▸ hv)
    · exact (hf _ v (hchanged ▸ hv)).elim (hh id' v) fun hknown => hknown
  exact knows_of_size_le hknown (Nat.le_of_eq (size_objects_modify h id f).symm)

theorem holds_modifyElements {K : Value → Prop} {f : Array Value → Array Value}
    (hf : ∀ elements, ∀ v ∈ f elements, v ∈ elements ∨ K v) (o : Object) (v : Value)
    (hv : (o.modifyElements f).Holds v) : o.Holds v ∨ K v := by
  obtain ⟨kind, properties⟩ := o
  cases kind with
  | array elements =>
    rcases hv with ⟨changed, hchanged, hv⟩ | hproperty
    · cases hchanged
      exact (hf elements v hv).imp_left fun hv => .inl ⟨elements, rfl, hv⟩
    · exact .inl (.inr hproperty)
  | plain | error | function => exact .inl hv

theorem holds_setProperty {o : Object} {key : String} (hv : (o.setProperty key w).Holds v) :
    o.Holds v ∨ v = w := by
  rcases hv with helement | ⟨key', hkey'⟩
  · exact .inl (.inl helement)
  · rw [Object.setProperty, Dict.get?_insert] at hkey'
    split at hkey'
    · exact .inr (Option.some.inj hkey').symm
    · exact .inl (.inr ⟨key', hkey'⟩)

theorem mem_resized {elements : Array Value} {n : Nat} (hv : v ∈ resized elements n) :
    v ∈ elements ∨ v = .undefined := by
  unfold resized at hv
  split at hv
  · left
    rw [← Array.mem_toList_iff, Array.toList_shrink] at hv
    exact Array.mem_toList_iff.mp (List.mem_of_mem_take hv)
  · rcases Array.mem_append.mp hv with hv | hv
    · exact .inl hv
    · exact .inr (Array.mem_replicate.mp hv).2

theorem mem_setElement {elements : Array Value} {i : Nat}
    (hv : v ∈ Object.setElement elements i w) : v ∈ elements ∨ v = .undefined ∨ v = w := by
  unfold Object.setElement at hv
  split at hv
  · rcases Array.mem_or_eq_of_mem_setIfInBounds hv with hv | hv
    · exact .inl hv
    · exact .inr (.inr hv)
  · rcases Array.mem_push.mp hv with hv | hv
    · exact (mem_resized hv).imp_right .inl
    · exact .inr (.inr hv)

theorem mem_push {elements : Array Value} {args : List Value}
    (hv : v ∈ Library.push elements args) : v ∈ elements ∨ v ∈ args := by
  unfold Library.push at hv
  induction args generalizing elements with
  | nil => exact .inl hv
  | cons a args ih =>
    rcases ih hv with hv | hv
    · refine (Array.mem_push.mp hv).imp_right fun heq => ?_
      exact heq ▸ List.mem_cons_self
    · exact .inr (List.mem_cons_of_mem a hv)

theorem holds_propertyChange {key : String} {change : Object → Object}
    (hchange : h.propertyChange id key w = .ok change) (o : Object) (v : Value)
    (hv : (change o).Holds v) : o.Holds v ∨ v = .undefined ∨ v = w := by
  obtain ⟨_, -, -, rfl | rfl⟩ | ⟨_, -, rfl⟩ | rfl := propertyChange_cases hchange
  · apply holds_modifyElements (K := fun v => v = .undefined ∨ v = w) ?_ o v hv
    exact fun _ _ hv => (mem_resized hv).imp_right .inl
  · exact .inl hv
  · exact holds_modifyElements (fun _ _ hv => mem_setElement hv) o v hv
  · exact (holds_setProperty hv).imp_right .inr

theorem knows_undefined : h.Knows .undefined :=
  nofun

/-- Whatever a script makes refers to what it has made before. -/
theorem Built.closed (hh : h.Built) : h.Closed := by
  induction hh with
  | fresh chunkSize => exact closed_new chunkSize
  | literal o _ ho ih => exact ih.allocate ho
  | @assign h _ id key v _ hv hset ih =>
    unfold setProperty at hset
    cases hchange : h.propertyChange id key v with
    | error f =>
      rw [hchange] at hset
      cases hset
    | ok change =>
      rw [hchange] at hset
      cases hset
      refine ih.modify fun o w hw => (holds_propertyChange hchange o w hw).imp_right ?_
      rintro (rfl | rfl)
      · exact knows_undefined
      · exact hv
  | push id args _ hargs ih =>
    apply ih.modify
    exact holds_modifyElements fun elements v hv => (mem_push hv).imp_right (hargs v)
  | pop id _ ih =>
    apply ih.modify
    refine holds_modifyElements fun elements v hv => .inl ?_
    rw [← Array.mem_toList_iff, Array.toList_pop] at hv
    exact Array.mem_toList_iff.mp (List.mem_of_mem_dropLast hv)
  | collect _ ih => exact ih

end Closed

section Text

/-- A value that comes to an object which contains itself. -/
def Endless (h : Heap) (v : Value) : Prop :=
  ∃ id c, v = .object id ∧ Relation.ReflTransGen h.Reads id c ∧ Relation.TransGen h.Reads c c

theorem endless_object : h.Endless (.object id) ↔
    ∃ c, Relation.ReflTransGen h.Reads id c ∧ Relation.TransGen h.Reads c c := by
  constructor
  · rintro ⟨_, c, ⟨⟩, hc⟩
    exact ⟨c, hc⟩
  · rintro ⟨c, hc⟩
    exact ⟨id, c, rfl, hc⟩

theorem not_endless (hv : ∀ id, v ≠ .object id) : ¬ h.Endless v :=
  fun ⟨id, _, hid, _⟩ => hv id hid

theorem textWithin_none_ok_iff {depth : Nat} :
    (∃ s, h.textWithin none depth (.object id) = .ok s) ↔ ¬ ∃ id', h.ReadsIn depth id id' := by
  rw [textWithin_ok_iff]
  exact and_iff_right nofun

theorem exists_textWithin_iff :
    (∃ depth s, h.textWithin none depth v = .ok s) ↔ ¬ h.Endless v := by
  by_cases hobject : ∃ id, v = .object id
  · obtain ⟨id, rfl⟩ := hobject
    simp only [textWithin_none_ok_iff, endless_object]
    constructor
    -- Round a cycle there are chains of every length, so no depth is enough.
    · rintro ⟨depth, hends⟩ ⟨c, hr, hcycle⟩
      exact hends (exists_readsIn_of_cycle hcycle depth hr)
    -- A chain that is longer than there are objects meets one of them twice.
    · intro hends
      exact ⟨h.objects.size + 1, fun hr => hends (exists_readsIn_succ_size_iff.mp hr)⟩
  · have hv := not_exists.mp hobject
    exact iff_of_true ⟨0, textWithin_of_not_object hv⟩ (not_endless hv)

theorem text_ok_iff (hh : h.Closed) (hv : h.Knows v) :
    (∃ s, h.text v = .ok s) ↔ ¬ h.Endless v := by
  by_cases hobject : ∃ id, v = .object id
  · obtain ⟨id, rfl⟩ := hobject
    have hknown : ∀ id id', h.Reads id id' → id' < h.objects.size := fun id id' hr =>
      hh id _ (Object.holds_of_mem_parts hr) id' rfl
    rw [endless_object, ← exists_readsIn_size_iff hknown (hv id rfl)]
    exact textWithin_none_ok_iff
  · have hv := not_exists.mp hobject
    exact iff_of_true (textWithin_of_not_object hv) (not_endless hv)

end Text

section Answers

def HasText (h : Heap) (v : Value) : Prop :=
  ∃ s, h.text v = .ok s

variable (hv : h.HasText v) (hw : h.HasText w)

theorem hasText_of_not_object (hv : ∀ id, v ≠ .object id) : h.HasText v :=
  textWithin_of_not_object hv

include hv

theorem number_ok : ∃ x, h.number v = .ok x := by
  cases v with
  | object id =>
    rw [number, numberUnless, if_neg (Option.some_ne_none id).symm]
    split
    · exact map_ok_iff.mpr hv
    · exact ⟨_, rfl⟩
  | _ => exact ⟨_, rfl⟩

theorem int32_ok : ∃ n, h.int32 v = .ok n :=
  map_ok_iff.mpr (number_ok hv)

theorem uint32_ok : ∃ n, h.uint32 v = .ok n :=
  map_ok_iff.mpr (number_ok hv)

theorem primitive_ok : ∃ p, h.primitive v = .ok p ∧ h.HasText p := by
  cases v with
  | object id =>
    obtain ⟨s, hs⟩ := hv
    exact ⟨.text s, by rw [primitive, hs]; rfl, hasText_of_not_object nofun⟩
  | _ => exact ⟨_, rfl, hv⟩

theorem elementText_ok : ∃ s, Library.elementText h v = .ok s := by
  unfold Library.elementText
  split
  · exact ⟨_, rfl⟩
  · exact hv

theorem unary_ok (op : UnaryOp) : ∃ r, h.unary op v = .ok r := by
  cases op with
  | neg | plus => exact map_ok_iff.mpr (number_ok hv)
  | bitNot => exact map_ok_iff.mpr (int32_ok hv)
  | not | typeof | void => exact ⟨_, rfl⟩

theorem shiftAmount_ok : ∃ n, h.shiftAmount v = .ok n :=
  (bind_ok_iff_of_total fun _ => ⟨_, rfl⟩).mpr (uint32_ok hv)

include hw

theorem arithmetic_ok (f : Float → Float → Float) : ∃ r, h.arithmetic f v w = .ok r :=
  (bind_bind_ok_iff_of_total fun _ _ => ⟨_, rfl⟩).mpr ⟨number_ok hv, number_ok hw⟩

theorem bitwise_ok (f : Int32 → Int32 → Int32) : ∃ r, h.bitwise f v w = .ok r :=
  (bind_bind_ok_iff_of_total fun _ _ => ⟨_, rfl⟩).mpr ⟨int32_ok hv, int32_ok hw⟩

theorem add_ok : ∃ r, h.add v w = .ok r := by
  obtain ⟨p, hp, hptext⟩ := primitive_ok hv
  obtain ⟨q, hq, hqtext⟩ := primitive_ok hw
  refine bind_ok_iff.mpr ⟨p, hp, bind_ok_iff.mpr ⟨q, hq, ?_⟩⟩
  split
  · exact (bind_ok_iff_of_total fun _ => ⟨_, rfl⟩).mpr hqtext
  · exact (bind_ok_iff_of_total fun _ => ⟨_, rfl⟩).mpr hptext
  · exact (bind_bind_ok_iff_of_total fun _ _ => ⟨_, rfl⟩).mpr ⟨number_ok hptext, number_ok hqtext⟩

theorem compare_ok (texts : String → String → Bool) (numbers : Float → Float → Bool) :
    ∃ r, h.compare texts numbers v w = .ok r := by
  obtain ⟨p, hp, hptext⟩ := primitive_ok hv
  obtain ⟨q, hq, hqtext⟩ := primitive_ok hw
  refine bind_ok_iff.mpr ⟨p, hp, bind_ok_iff.mpr ⟨q, hq, ?_⟩⟩
  split
  · exact ⟨_, rfl⟩
  · exact (bind_bind_ok_iff_of_total fun _ _ => ⟨_, rfl⟩).mpr ⟨number_ok hptext, number_ok hqtext⟩

theorem unboxedEquals_ok : ∃ b, h.unboxedEquals v w = .ok b := by
  unfold unboxedEquals
  split
  · exact ⟨_, rfl⟩
  · refine (bind_ok_iff_of_total fun s => ?_).mpr hv
    split <;> exact ⟨_, rfl⟩
  · refine (bind_ok_iff_of_total fun s => ?_).mpr hw
    split <;> exact ⟨_, rfl⟩
  all_goals exact ⟨_, rfl⟩

omit hv hw in
theorem hasText_withoutBool (hv : h.HasText v) : h.HasText (withoutBool v) := by
  cases v with
  | bool b => exact hasText_of_not_object nofun
  | _ => exact hv

theorem looseEquals_ok : ∃ b, h.looseEquals v w = .ok b := by
  unfold looseEquals
  split
  · exact ⟨_, rfl⟩
  · exact unboxedEquals_ok (hasText_withoutBool hv) (hasText_withoutBool hw)

theorem binary_ok (op : BinaryOp) : ∃ r, h.binary op v w = .ok r := by
  cases op with
  | add => exact add_ok hv hw
  | sub | mul | div | mod => exact arithmetic_ok hv hw _
  | eq | ne => exact map_ok_iff.mpr (looseEquals_ok hv hw)
  | strictEq | strictNe => exact ⟨_, rfl⟩
  | lt | le | gt | ge => exact compare_ok hv hw _ _
  | bitAnd | bitOr | bitXor => exact bitwise_ok hv hw _
  | shiftLeft | shiftRight =>
    exact (bind_bind_ok_iff_of_total fun _ _ => ⟨_, rfl⟩).mpr ⟨int32_ok hv, shiftAmount_ok hw⟩
  | shiftRightZero =>
    exact (bind_bind_ok_iff_of_total fun _ _ => ⟨_, rfl⟩).mpr ⟨uint32_ok hv, shiftAmount_ok hw⟩

end Answers

/-- On any heap, the reading of a text comes to an end just for a value that comes to no object
which contains itself. On a heap that a script can build these are the values with a text; whatever
else takes the texts of such values has an answer: printing and joining them, their numbers and all
operators. -/
theorem text_ends_iff (h : Heap) :
    (∀ v, (∃ depth s, h.textWithin none depth v = .ok s) ↔ ¬ h.Endless v) ∧
      (h.Built → (∀ v, h.Knows v → ((∃ s, h.text v = .ok s) ↔ ¬ h.Endless v)) ∧
        ∀ vs : List Value, (∀ v ∈ vs, h.Knows v ∧ ¬ h.Endless v) →
          (∃ texts, vs.mapM h.text = .ok texts) ∧
            (∃ texts, vs.mapM (Library.elementText h) = .ok texts) ∧
            ∀ v ∈ vs, (∃ x, h.number v = .ok x) ∧ (∀ op, ∃ r, h.unary op v = .ok r) ∧
              ∀ w ∈ vs, ∀ op, ∃ r, h.binary op v w = .ok r) := by
  refine ⟨fun v => exists_textWithin_iff, fun built => ?_⟩
  refine ⟨fun v hv => text_ok_iff built.closed hv, fun vs hvs => ?_⟩
  have texts : ∀ v ∈ vs, h.HasText v := fun v hv =>
    (text_ok_iff built.closed (hvs v hv).1).mpr (hvs v hv).2
  refine ⟨mapM_ok_iff.mpr texts, mapM_ok_iff.mpr fun v hv => elementText_ok (texts v hv), ?_⟩
  intro v hv
  refine ⟨number_ok (texts v hv), unary_ok (texts v hv), fun w hw => ?_⟩
  exact binary_ok (texts v hv) (texts w hw)

def oneArray : Heap :=
  ((new 1).allocate (.ofKind (.array #[]))).2

def selfElement : Heap :=
  oneArray.modify 0 (·.modifyElements (Object.setElement · 0 (.object 0)))

theorem built_selfElement : selfElement.Built := by
  have hempty : ∀ v, ¬ (Object.ofKind (.array #[])).Holds v := by
    rintro v (⟨elements, helements, hv⟩ | ⟨key, hkey⟩)
    · cases helements
      exact Array.not_mem_empty v hv
    · cases (Dict.get?_empty key).symm.trans hkey
  have hone : oneArray.Built := .literal _ (.fresh 1) fun v hv => (hempty v hv).elim
  have hknown : oneArray.Knows (.object 0) := by
    rintro id ⟨⟩
    exact Nat.one_pos
  exact .assign 0 "0" (.object 0) hone hknown rfl

theorem text_ends_iff_selfElement :
    selfElement.Built ∧ selfElement.Endless (.object 0) ∧
      (¬ ∃ s, selfElement.text (.object 0) = .ok s) ∧
      ¬ ∃ depth s, selfElement.textWithin none depth (.object 0) = .ok s := by
  have hreads : selfElement.Reads 0 0 := by
    change Value.object 0 ∈ [Value.object 0]
    exact List.mem_cons_self
  have hendless : selfElement.Endless (.object 0) := ⟨0, 0, rfl, .refl, .single hreads⟩
  have hknown : selfElement.Knows (.object 0) := by
    rintro id ⟨⟩
    exact Nat.one_pos
  obtain ⟨hunbounded, hbuilt⟩ := text_ends_iff selfElement
  refine ⟨built_selfElement, hendless, fun htext => ?_, fun hdepth => ?_⟩
  · exact ((hbuilt built_selfElement).1 _ hknown).mp htext hendless
  · exact (hunbounded _).mp hdepth hendless

end Heap

namespace Evaluation

def endlessText : Program :=
  ⟨[.declare .var [.mk "a" (some (.array [] default)) default] default,
    .expr (.assign none (.index (.name "a" default) (.text "0" default) default)
      (.name "a" default) default) default,
    .expr (.binary .add (.text "" default) (.name "a" default) default) default], ["a"]⟩

example : (Runtime.execute (.initial .bare) recorder 20 none endlessText
    (Recording.start ⟨none, none⟩)).1 = .stopped (.fault .cyclicText) := by
  rfl

end Evaluation

end ScriptShell
