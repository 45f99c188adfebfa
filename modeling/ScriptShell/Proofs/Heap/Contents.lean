import ScriptShell.Evaluation

namespace ScriptShell.Heap

def contents (h : Heap) : Heap :=
  { new 1 with objects := h.objects }

theorem contents_eq_iff {h h' : Heap} : h.contents = h'.contents ↔ h.objects = h'.objects :=
  ⟨congrArg objects, fun heq => by rw [contents, contents, heq]⟩

variable (h : Heap)

theorem objects_allocate (o : Object) :
    (h.allocate o).2.objects = h.objects.push (some o) := by
  unfold allocate
  split <;> rfl

theorem object_allocate (o : Object) (id : ObjectId) :
    (h.allocate o).2.object id = if id = h.objects.size then o else h.object id := by
  unfold object get?
  rw [objects_allocate, Array.getElem?_push]
  split <;> rfl

@[simp]
theorem objects_contents : h.contents.objects = h.objects :=
  rfl

@[simp]
theorem object_contents : h.contents.object = h.object :=
  rfl

@[simp]
theorem callable?_contents : h.contents.callable? = h.callable? := by
  funext v
  cases v <;> rfl

@[simp]
theorem typeName_contents : h.contents.typeName = h.typeName := by
  funext v
  unfold typeName isCallable
  rw [callable?_contents]

theorem textWithin_contents (busy : Option ObjectId) (depth : Nat) (v : Value) :
    h.contents.textWithin busy depth v = h.textWithin busy depth v := by
  induction depth generalizing v with
  | zero => cases v <;> rfl
  | succ depth ih =>
    cases v with
    | object id =>
      have below : h.contents.textWithin busy depth = h.textWithin busy depth := funext ih
      rw [textWithin, textWithin, below, object_contents]
    | _ => rfl

@[simp]
theorem text_contents : h.contents.text = h.text :=
  funext fun v => h.textWithin_contents none h.objects.size v

theorem numberUnless_contents (busy : Option ObjectId) (v : Value) :
    h.contents.numberUnless busy v = h.numberUnless busy v := by
  cases v with
  | object id =>
    rw [numberUnless, numberUnless, textWithin_contents]
    rfl
  | _ => rfl

@[simp]
theorem number_contents : h.contents.number = h.number :=
  funext fun v => h.numberUnless_contents none v

@[simp]
theorem int32_contents : h.contents.int32 = h.int32 := by
  funext v
  rw [int32, int32, number_contents]

@[simp]
theorem uint32_contents : h.contents.uint32 = h.uint32 := by
  funext v
  rw [uint32, uint32, number_contents]

theorem primitive_contents (v : Value) : h.contents.primitive v = h.primitive v := by
  cases v with
  | object id => rw [primitive, primitive, text_contents]
  | _ => rfl

theorem looseEquals_contents (v w : Value) :
    h.contents.looseEquals v w = h.looseEquals v w := by
  have unboxed (v w : Value) : h.contents.unboxedEquals v w = h.unboxedEquals v w := by
    cases v <;> cases w <;> simp only [unboxedEquals, text_contents]
  rw [looseEquals, looseEquals, unboxed]

@[simp]
theorem binary_contents (op : BinaryOp) (v w : Value) :
    h.contents.binary op v w = h.binary op v w := by
  cases op <;> simp only [binary, add, compare, arithmetic, bitwise, shiftAmount,
    primitive_contents, looseEquals_contents, text_contents, number_contents, int32_contents,
    uint32_contents]

@[simp]
theorem unary_contents (op : UnaryOp) (v : Value) : h.contents.unary op v = h.unary op v := by
  cases op <;> simp only [unary, number_contents, int32_contents, typeName_contents]

@[simp]
theorem propertyKey_contents : h.contents.propertyKey = h.propertyKey := by
  funext v
  rw [propertyKey, propertyKey, text_contents]

@[simp]
theorem propertyChange_contents (id : ObjectId) (key : String) (v : Value) :
    h.contents.propertyChange id key v = h.propertyChange id key v := by
  simp only [propertyChange, object_contents, numberUnless_contents]

/-- All that setting a property can do to an object, and when it does so. -/
theorem propertyChange_cases {h : Heap} {id : ObjectId} {key : String} {v : Value}
    {change : Object → Object} (hchange : h.propertyChange id key v = .ok change) :
    (∃ length, key = "length" ∧ h.numberUnless (some id) v = .ok length ∧
        (change = (·.modifyElements (resized · (Number.toSize length))) ∨ change = fun o => o)) ∨
      (∃ i, arrayIndex? key = some i ∧ change = (·.modifyElements (Object.setElement · i v))) ∨
      change = (·.setProperty key v) := by
  have checked {elements : Array Value} {n : Nat} {f : Object → Object}
      (hc : (checkLength elements n).map (fun _ => f) = .ok change) : change = f := by
    cases hlength : checkLength elements n with
    | error => rw [hlength] at hc; cases hc
    | ok => rw [hlength] at hc; exact (Except.ok.inj hc).symm
  -- The cases are those of the definition: a length, an element, and any other name.
  unfold propertyChange at hchange
  split at hchange
  next =>
    split at hchange
    next hkey =>
      cases hlength : h.numberUnless (some id) v with
      | error f =>
        rw [hlength] at hchange
        cases hchange
      | ok length =>
        rw [hlength] at hchange
        change (if _ then _ else _) = _ at hchange
        refine .inl ⟨length, hkey, rfl, ?_⟩
        split at hchange
        · exact .inl (checked hchange)
        · exact .inr (Except.ok.inj hchange).symm
    next =>
      split at hchange
      next i hi => exact .inr (.inl ⟨i, hi, checked hchange⟩)
      next => exact .inr (.inr (Except.ok.inj hchange).symm)
  next => exact .inr (.inr (Except.ok.inj hchange).symm)

@[simp]
theorem elementText_contents :
    Library.elementText h.contents = Library.elementText h := by
  funext v
  rw [Library.elementText, Library.elementText, text_contents]

@[simp]
theorem spread_contents : Library.spread h.contents = Library.spread h := by
  funext v
  cases v <;> rfl

@[simp]
theorem contents_contents : h.contents.contents = h.contents :=
  rfl

end ScriptShell.Heap
