import ScriptShell.Library.Functions
import ScriptShell.Proofs.Evaluation.Step

namespace ScriptShell.Runtime

variable {K : Closure → Prop} {r : Runtime} (machine : Machine)

theorem allFunctions_allocateNative {h : Heap} (hh : h.AllFunctions K) (f : Native) :
    (Library.allocateNative f h).2.AllFunctions K :=
  hh.allocate fun _ hc => nomatch hc

theorem allFunctions_defineFunctions (h : r.heap.AllFunctions K) (fs : List Native) :
    (r.defineFunctions fs).heap.AllFunctions K := by
  induction fs generalizing r with
  | nil => exact h
  | cons f fs ih => exact ih (allFunctions_allocateNative h f)

theorem allFunctions_attach (h : r.heap.AllFunctions K) (id : ObjectId) (f : Native) :
    (r.attach id f).heap.AllFunctions K :=
  (allFunctions_allocateNative h f).modify fun _ => rfl

theorem allFunctions_attachAll (h : r.heap.AllFunctions K) (id : ObjectId)
    (fs : List MathFunction) :
    (fs.foldl (fun r f => r.attach id (.math f)) r).heap.AllFunctions K := by
  induction fs generalizing r with
  | nil => exact h
  | cons f fs ih => exact ih (allFunctions_attach h id _)

theorem allFunctions_defineMath (h : r.heap.AllFunctions K) : r.defineMath.heap.AllFunctions K := by
  have allocated : (r.heap.allocate default).2.AllFunctions K := h.allocate fun _ hc => nomatch hc
  unfold defineMath
  generalize r.heap.allocate default = made at allocated ⊢
  generalize MathFunction.all = fs
  obtain ⟨id, heap⟩ := made
  have attached := allFunctions_attachAll (r := { r with heap }) allocated id fs
  exact attached.modify fun _ => rfl

theorem allFunctions_initial : (initial machine).heap.AllFunctions K := by
  intro id c hc
  cases hc

theorem allFunctions_new : (new machine).heap.AllFunctions K := by
  unfold new
  generalize Native.library = fs
  have library : ((initial machine).defineFunctions fs).heap.AllFunctions K :=
    allFunctions_defineFunctions (allFunctions_initial machine) fs
  refine allFunctions_defineMath ?_
  split
  · exact allFunctions_attach library _ _
  · exact library

theorem allFunctions_forShell : (forShell machine).heap.AllFunctions K :=
  allFunctions_defineFunctions (allFunctions_defineFunctions (allFunctions_new machine) _) _

end ScriptShell.Runtime
