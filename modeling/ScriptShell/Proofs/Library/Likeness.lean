import ScriptShell.Proofs.Evaluation.Likeness

namespace ScriptShell.Library

open Evaluation

variable {σ τ : Type} {K : Closure → Prop}
  {Rel : Level → {α : Type} → (α → Prop) → Eval σ α → Eval τ α → Prop}

section Functions

variable (h : Sequencing K Rel)
include h

theorem relativeIndex_alike (v : Option Value) (length default : Nat) :
    Rel .expression any (relativeIndex v length default) (relativeIndex v length default) := by
  unfold relativeIndex
  split
  · exact h.result _
  · exact h.result _
  · refine h.bind (h.asked _ (by simp)) fun x _ => ?_
    dsimp only
    split
    · split <;> exact h.result _
    · split <;> exact h.result _

theorem clampedIndex_alike (v : Option Value) (length default : Nat) :
    Rel .expression any (clampedIndex v length default) (clampedIndex v length default) := by
  unfold clampedIndex
  split
  · exact h.result _
  · exact h.result _
  · refine h.bind (h.asked _ (by simp)) fun x _ => ?_
    dsimp only
    split
    · exact h.result _
    · exact h.result _

theorem unitAt?_alike (s : String) (v : Option Value) :
    Rel .expression any (unitAt? s v) (unitAt? s v) := by
  have rest (x : Float) := h.result (l := .expression)
    (if 0 ≤ x then Text.unitAt? s (Number.toSize x) else none)
  unfold unitAt?
  cases v with
  | none => exact h.bind (h.result _) fun x _ => rest x
  | some v => exact h.bind (h.asked _ (by simp)) fun x _ => rest x

theorem substring_alike (s : String) (args : List Value) :
    Rel .expression any (substring s args) (substring s args) := by
  refine h.bind (clampedIndex_alike h _ _ _) fun a _ => ?_
  refine h.bind (clampedIndex_alike h _ _ _) fun b _ => ?_
  exact h.result _

theorem sliceBounds_alike (length : Nat) (args : List Value) :
    Rel .expression any (sliceBounds length args) (sliceBounds length args) := by
  refine h.bind (relativeIndex_alike h _ _ _) fun a _ => ?_
  refine h.bind (relativeIndex_alike h _ _ _) fun b _ => ?_
  exact h.result _

theorem splitText_alike (s : String) (separator : Option Value) :
    Rel .expression any (splitText s separator) (splitText s separator) := by
  unfold splitText
  split
  · exact h.result _
  · exact h.result _
  · refine h.bind (h.asked _ (by simp)) fun t _ => ?_
    split
    · exact h.result _
    · exact h.result _

theorem textMethod_alike (s key : String) (args : List Value) :
    Rel .expression any (textMethod s key args) (textMethod s key args) := by
  unfold textMethod
  split
  · exact h.bind (unitAt?_alike h _ _) fun u _ => h.result _
  · exact h.bind (unitAt?_alike h _ _) fun u _ => h.result _
  · refine h.bind (h.asked _ (by simp)) fun needle _ => ?_
    exact h.bind (clampedIndex_alike h _ _ _) fun start _ => h.result _
  · exact h.bind (splitText_alike h _ _) fun parts _ => h.map _ (h.newArray _)
  · exact h.map _ (substring_alike h _ _)
  · exact h.bind (sliceBounds_alike h _ _) fun bounds _ => h.result _
  · exact h.result _
  · exact h.result _
  · exact h.result _
  · exact h.result _

theorem radixOf_alike (v : Option Value) : Rel .expression any (radixOf v) (radixOf v) := by
  unfold radixOf
  split
  · exact h.result _
  · exact h.result _
  · exact h.bind (h.asked _ (by simp)) fun n _ => h.result _

theorem placesOf_alike (v : Option Value) : Rel .expression any (placesOf v) (placesOf v) := by
  unfold placesOf
  split
  · exact h.result _
  · exact h.bind (h.asked _ (by simp)) fun x _ => h.result _

theorem joined_alike (elements : List Value) (separator : Option Value) :
    Rel .expression any (joined elements separator) (joined elements separator) := by
  have rest (separator : String) := h.bind
    (h.asked (fun heap => elements.mapM (elementText heap)) (by simp)) fun parts _ =>
      h.result (Value.text (separator.intercalate parts))
  unfold joined
  split
  · exact h.bind (h.result _) fun separator _ => rest separator
  · exact h.bind (h.result _) fun separator _ => rest separator
  · exact h.bind (h.asked _ (by simp)) fun separator _ => rest separator

theorem elementsOf_alike (id : ObjectId) :
    Rel .expression any (elementsOf id) (elementsOf id) :=
  h.weaken (h.step (isStep_look _ (by simp))) fun _ _ => trivial

theorem modifyElements_alike (id : ObjectId) (f : Array Value → Array Value) :
    Rel .expression any (modifyElements id f) (modifyElements id f) := by
  refine h.step (isStep_modifyObject id _ fun o => ?_)
  exact Heap.callable?_modifyElements f o

theorem arrayMethod_alike (id : ObjectId) (key : String) (args : List Value) :
    Rel .expression any (arrayMethod id key args) (arrayMethod id key args) := by
  unfold arrayMethod
  split
  · refine h.bind (modifyElements_alike h _ _) fun _ _ => ?_
    exact h.bind (elementsOf_alike h _) fun elements _ => h.result _
  · refine h.bind (h.bind (elementsOf_alike h _) fun elements _ => h.result _)
      fun last _ => ?_
    exact h.bind (modifyElements_alike h _ _) fun _ _ => h.result _
  · exact h.bind (elementsOf_alike h _) fun elements _ => h.map _ (joined_alike h _ _)
  · refine h.bind (elementsOf_alike h _) fun elements _ => ?_
    exact h.bind (sliceBounds_alike h _ _) fun bounds _ => h.map _ (h.newArray _)
  · refine h.bind (elementsOf_alike h _) fun elements _ => ?_
    exact h.bind (relativeIndex_alike h _ _ _) fun start _ => h.result _
  · refine h.bind (elementsOf_alike h _) fun elements _ => ?_
    exact h.bind (h.step (isStep_look _ (by simp))) fun all _ => h.map _ (h.newArray _)
  · exact h.result _

theorem objectMethod_alike (id : ObjectId) (key : String) (args : List Value) :
    Rel .expression any (objectMethod id key args) (objectMethod id key args) := by
  unfold objectMethod
  split
  · exact h.bind (h.asked _ (by simp)) fun text _ => h.result _
  · have rest (name : String) := h.bind (h.ownProperty id name) fun v _ =>
      h.result (some (Value.bool v.isSome))
    split
    · exact h.bind (h.result _) fun name _ => rest name
    · exact h.bind (h.asked _ (by simp)) fun name _ => rest name
  · exact h.result _

theorem math_alike (f : MathFunction) (args : List Value) :
    Rel .expression any (math f args) (math f args) := by
  have one (g : Float → Float) := h.bind (h.asked (·.number (arg args 0)) (by simp)) fun x _ =>
    h.result (Value.number (g x))
  cases f with
  | pow =>
    refine h.bind (h.asked _ (by simp)) fun base _ => ?_
    exact h.bind (h.asked _ (by simp)) fun exponent _ => h.result _
  | max | min => exact h.bind (h.asked _ (by simp)) fun xs _ => h.result _
  | floor | ceil | abs | round | sqrt => exact one _

theorem addressArg_alike (args : List Value) (i : Nat) :
    Rel .expression any (addressArg args i) (addressArg args i) :=
  h.bind (h.asked _ (by simp)) fun _ _ => h.result _

theorem liftFault_alike {α : Type} (r : Except Fault α) :
    Rel .expression any (liftFault r) (liftFault r) :=
  h.liftFault r fun _ _ => trivial

theorem setMemory_alike (r : Except Fault Memory) :
    Rel .expression any (setMemory r) (setMemory r) :=
  h.bind (liftFault_alike h r) fun memory _ => h.step (isStep_putMemory memory)

theorem peek_alike {α : Type} (read : Memory → Nat → Except Fault α) (result : α → Value)
    (args : List Value) :
    Rel .expression any
      (do
        let a ← liftFault (read (← memory) (← addressArg args 0))
        return result a)
      (do
        let a ← liftFault (read (← memory) (← addressArg args 0))
        return result a) := by
  refine h.bind (h.step isStep_memory) fun m _ => ?_
  refine h.bind (addressArg_alike h args 0) fun address _ => ?_
  exact h.bind (liftFault_alike h _) fun a _ => h.result _

theorem poke_alike (write : Memory → Nat → Except Fault Memory) (args : List Value) :
    Rel .expression any
      (do
        let address ← addressArg args 0
        setMemory (write (← memory) address)
        return Value.undefined)
      (do
        let address ← addressArg args 0
        setMemory (write (← memory) address)
        return Value.undefined) := by
  refine h.bind (addressArg_alike h args 0) fun address _ => ?_
  refine h.bind (h.step isStep_memory) fun m _ => ?_
  exact h.bind (setMemory_alike h _) fun _ _ => h.result _

theorem parseInt_alike (args : List Value) (text : String) :
    Rel .expression any
      (do
        let base ← match arg args 1 with
          | .undefined => pure 0
          | v => do pure (← ask (·.int32 v)).toInt
        return Value.number (Number.ofTextIn base text))
      (do
        let base ← match arg args 1 with
          | .undefined => pure 0
          | v => do pure (← ask (·.int32 v)).toInt
        return Value.number (Number.ofTextIn base text)) := by
  have rest (base : Int) := h.result (l := .expression) (Value.number (Number.ofTextIn base text))
  cases arg args 1 with
  | undefined => exact h.bind (h.result _) fun base _ => rest base
  | _ => exact h.bind (h.asked _ (by simp)) fun n _ => h.bind (h.result _) fun base _ => rest base

end Functions

section Methods

variable (h : Sequencing K Rel)
  (unlocated : ∀ {α : Type} (P : α → Prop) (v : Value),
    Rel .expression P (throw (.thrown v none 0)) (throw (.thrown v none 0)))
include h unlocated

theorem rangeError_alike {α : Type} (P : α → Prop) (message : String) :
    Rel .expression P (rangeError message) (rangeError message) :=
  h.bind (h.newError _ _) fun v _ => unlocated P v

theorem numberMethod_alike (x : Float) (key : String) (args : List Value) :
    Rel .expression any (numberMethod x key args) (numberMethod x key args) := by
  unfold numberMethod
  split
  · refine h.bind (radixOf_alike h _) fun base _ => ?_
    split
    · exact h.result _
    · exact rangeError_alike h unlocated _ _
  · refine h.bind (placesOf_alike h _) fun places _ => ?_
    split
    · split
      · exact h.result _
      · exact h.result _
    · exact rangeError_alike h unlocated _ _
  · exact h.result _

theorem method_alike (receiver : Value) (key : String) (args : List Value) :
    Rel .expression any (method receiver key args) (method receiver key args) := by
  unfold method
  split
  · exact textMethod_alike h _ _ _
  · exact numberMethod_alike h unlocated _ _ _
  · exact h.result _
  · refine h.bind (h.step (isStep_look _ (by simp))) fun isNone _ => ?_
    split
    · exact objectMethod_alike h _ _ _
    · refine h.bind (arrayMethod_alike h _ _ _) fun result _ => ?_
      split
      · exact h.result _
      · exact objectMethod_alike h _ _ _
  · exact h.result _

end Methods

section Dealing

variable {G : Ground} {host : Host σ} {host' : Host τ} (h : Dealing K G host host' Rel)
include h

theorem newArrayOf_alike (args : List Value) :
    Rel .expression any (newArrayOf host args) (newArrayOf host' args) := by
  unfold newArrayOf
  split
  · split
    · exact h.raise _ _ _
    · exact h.newArray _
  · exact h.newArray _

/-- Calling a function that was given to scripts. -/
theorem call_alike (f : Native) (args : List Value) :
    Rel .expression any (call host f args) (call host' f args) := by
  have s := h.toSequencing
  cases f with
  | toText | toNumber =>
    simp only [call]
    split
    · exact s.result _
    · exact s.bind (s.asked _ (by simp)) fun a _ => s.result _
  | newArray => exact newArrayOf_alike h args
  | newError kind =>
    simp only [call]
    cases arg args 0 with
    | undefined => exact s.bind (s.result _) fun message _ => s.newError kind message
    | _ => exact s.bind (s.asked _ (by simp)) fun message _ => s.newError kind message
  | parseInt => exact s.bind (s.asked _ (by simp)) fun text _ => parseInt_alike s args text
  | parseFloat | isNaN | fromCharCode => exact s.bind (s.asked _ (by simp)) fun a _ => s.result _
  | math f => exact math_alike s f args
  | print =>
    refine s.bind (s.asked _ (by simp)) fun texts _ => ?_
    exact s.bind (h.write _) fun _ _ => s.result _
  | quit =>
    simp only [call]
    cases arg args 0 with
    | undefined => exact s.bind (s.result _) fun code _ => h.quit _ code
    | _ => exact s.bind (s.map _ (s.asked _ (by simp))) fun code _ => h.quit _ code
  | collect =>
    have statistics := s.bind h.statistics fun _ _ => s.result (l := .expression) Value.undefined
    unfold writeStatistics at statistics
    rwa [bind_assoc, bind_assoc] at statistics
  | read =>
    refine s.bind (s.asked _ (by simp)) fun name _ => ?_
    exact s.bind (h.readFile name) fun content _ => s.result _
  | version =>
    refine s.bind (s.step isStep_version) fun previous _ => ?_
    cases arg args 0 with
    | number x => exact s.bind (s.step (isStep_setVersion _)) fun _ _ => s.result _
    | _ => exact s.bind (s.result _) fun _ _ => s.result _
  | symbolFinder | embedded => exact s.bind (s.step isStep_machine) fun _ _ => s.result _
  | load => exact s.result _
  | callAddress =>
    simp only [call]
    cases arg args 0 with
    | number x =>
      refine s.bind (s.step isStep_machine) fun machine _ => ?_
      refine s.bind (s.step isStep_memory) fun m _ => ?_
      refine s.bind (liftFault_alike s _) fun answer _ => ?_
      exact s.bind (s.step (isStep_putMemory _)) fun _ _ => s.result _
    | _ => exact h.raise _ _ _
  | peekByte =>
    simp only [call]
    exact peek_alike s Memory.readByte (fun b : UInt8 => .number (Number.ofNat b.toNat)) args
  | peekWord =>
    simp only [call]
    exact peek_alike s Memory.readWord (fun w : Int32 => .number (Number.ofInt w.toInt)) args
  | pokeByte =>
    simp only [call]
    exact s.bind (s.asked _ (by simp)) fun x _ =>
      poke_alike s (fun m address => m.writeByte address _) args
  | pokeWord =>
    simp only [call]
    exact s.bind (s.asked _ (by simp)) fun w _ =>
      poke_alike s (fun m address => m.writeWord address w) args

end Dealing

end ScriptShell.Library
