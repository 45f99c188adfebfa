import ScriptShell.Object

namespace ScriptShell

structure Heap where
  /-- The objects by number, nothing where the last reference has been dropped. -/
  objects : Array (Option Object)
  registry : Array ObjectId
  /-- Allocations between collections of opportunity. -/
  chunkSize : Nat
  allocated : Nat
  collections : Nat
  /-- The length at which an allocation strikes out dead entries. -/
  pruneMark : Nat

namespace Heap

def minPruneMark : Nat := 1024

def new (chunkSize : Nat) : Heap :=
  ⟨#[], #[], max 1 chunkSize, 0, 0, minPruneMark⟩

def get? (h : Heap) (id : ObjectId) : Option Object :=
  h.objects[id]?.join

def object (h : Heap) (id : ObjectId) : Object :=
  (h.get? id).getD default

def isLive (h : Heap) (id : ObjectId) : Bool :=
  (h.get? id).isSome

def setChunkSize (h : Heap) (size : Nat) : Heap :=
  { h with chunkSize := max 1 size }

def prune (h : Heap) : Heap :=
  let registry := h.registry.filter h.isLive
  { h with registry, pruneMark := max minPruneMark (2 * registry.size) }

def register (h : Heap) (o : Object) : Heap :=
  let id := h.objects.size
  { h with
    objects := h.objects.push (some o)
    registry := h.registry.push id
    allocated := h.allocated + 1 }

def allocate (h : Heap) (o : Object) : ObjectId × Heap :=
  (h.objects.size, (if h.registry.size < h.pruneMark then h else h.prune).register o)

def release (h : Heap) (id : ObjectId) : Heap :=
  { h with objects := h.objects.setIfInBounds id none }

def modify (h : Heap) (id : ObjectId) (f : Object → Object) : Heap :=
  { h with objects := h.objects.modify id (Option.map f) }

def liveCount (h : Heap) : Nat :=
  (h.registry.filter h.isLive).size

def bytes (h : Heap) : Nat :=
  h.registry.foldl (fun n id => n + ((h.get? id).map Object.footprint).getD 0) 0

def totalBytes (h : Heap) : Nat :=
  h.bytes + 8 * h.registry.size

/-- Memory in use in front of a collection and behind it. -/
structure Statistics where
  before : Nat
  after : Nat

def collect (h : Heap) : Statistics × Heap :=
  let collected := { h.prune with allocated := 0, collections := h.collections + 1 }
  (⟨h.totalBytes, collected.totalBytes⟩, collected)

def maybeCollect (h : Heap) : Option Statistics × Heap :=
  if h.chunkSize ≤ h.allocated then (some h.collect.1, h.collect.2) else (none, h)

def teardown (h : Heap) : Heap :=
  let cleared := h.registry.foldl (fun h id => h.modify id fun _ => .cleared) h
  { cleared with registry := #[] }

end Heap

end ScriptShell
