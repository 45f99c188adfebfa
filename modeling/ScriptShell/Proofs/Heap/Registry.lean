import Mathlib.Data.List.Nodup
import ScriptShell.Proofs.Heap.Contents

namespace ScriptShell.Heap

/-- Something that is done with a heap. -/
inductive Operation where
  | allocate (o : Object)
  /-- The last reference to an object is dropped. -/
  | release (id : ObjectId)
  | change (id : ObjectId) (f : Object → Object)
  | collect
  | maybeCollect
  | setChunkSize (size : Nat)
  | teardown

def perform (h : Heap) : Operation → Heap
  | .allocate o => (h.allocate o).2
  | .release id => h.release id
  | .change id f => h.modify id f
  | .collect => h.collect.2
  | .maybeCollect => h.maybeCollect.2
  | .setChunkSize size => h.setChunkSize size
  | .teardown => h.teardown

/-- A heap that was fresh before a history of operations, latest first. -/
def after (chunkSize : Nat) (history : List Operation) : Heap :=
  history.foldr (fun op h => h.perform op) (new chunkSize)

theorem after_cons (chunkSize : Nat) (op : Operation) (earlier : List Operation) :
    after chunkSize (op :: earlier) = (after chunkSize earlier).perform op :=
  rfl

def collects (h : Heap) : Operation → Bool
  | .collect => true
  | .maybeCollect => h.maybeCollect.1.isSome
  | _ => false

/-- Whether the next allocation strikes out dead entries. -/
def IsFull (h : Heap) : Prop :=
  h.pruneMark ≤ h.registry.size

section History

def allocations : List Operation → Nat
  | [] => 0
  | .allocate _ :: earlier => allocations earlier + 1
  | _ :: earlier => allocations earlier

/-- The objects that were allocated since the last teardown and are still referred to, by the
number of allocations before their own. -/
def held : List Operation → List ObjectId
  | [] => []
  | .allocate _ :: earlier => allocations earlier :: held earlier
  | .release id :: earlier => (held earlier).filter (· ≠ id)
  | .teardown :: _ => []
  | _ :: earlier => held earlier

/-- The most objects that were ever held. -/
def peak : List Operation → Nat
  | [] => 0
  | op :: earlier => max (held (op :: earlier)).length (peak earlier)

/-- The chunk size that was set last. -/
def latestChunkSize (chunkSize : Nat) : List Operation → Nat
  | [] => chunkSize
  | .setChunkSize size :: _ => size
  | _ :: earlier => latestChunkSize chunkSize earlier

/-- The allocations since the last collection. -/
def sinceCollection (chunkSize : Nat) : List Operation → Nat
  | [] => 0
  | op :: earlier =>
    if (after chunkSize earlier).collects op then 0
    else sinceCollection chunkSize earlier + allocations [op]

/-- How many collections have taken place. -/
def collectionsIn (chunkSize : Nat) : List Operation → Nat
  | [] => 0
  | op :: earlier =>
    collectionsIn chunkSize earlier + if (after chunkSize earlier).collects op then 1 else 0

variable {history : List Operation} {id : ObjectId}

theorem lt_allocations_of_mem_held (h : id ∈ held history) : id < allocations history := by
  induction history with
  | nil => cases h
  | cons op earlier ih =>
    cases op with
    | allocate o =>
      rcases List.mem_cons.mp h with rfl | h
      · exact Nat.lt_succ_self _
      · exact Nat.lt_succ_of_lt (ih h)
    | release id' => exact ih (List.mem_of_mem_filter h)
    | teardown => cases h
    | change | collect | maybeCollect | setChunkSize => exact ih h

theorem nodup_held (history : List Operation) : (held history).Nodup := by
  induction history with
  | nil => exact List.nodup_nil
  | cons op earlier ih =>
    cases op with
    | allocate o =>
      exact List.nodup_cons.mpr ⟨fun h => Nat.lt_irrefl _ (lt_allocations_of_mem_held h), ih⟩
    | release id => exact ih.filter _
    | teardown => exact List.nodup_nil
    | change | collect | maybeCollect | setChunkSize => exact ih

theorem length_held_le_peak (history : List Operation) : (held history).length ≤ peak history := by
  cases history with
  | nil => exact Nat.le_refl 0
  | cons op earlier => exact Nat.le_max_left _ _

end History

variable {h : Heap}

theorem allocate_of_not_isFull (hroom : ¬ h.IsFull) (o : Object) :
    (h.allocate o).2 = h.register o := by
  unfold allocate
  rw [if_pos (Nat.not_le.mp hroom)]

theorem allocate_of_isFull (hfull : h.IsFull) (o : Object) :
    (h.allocate o).2 = h.prune.register o := by
  unfold allocate
  rw [if_neg (Nat.not_lt.mpr hfull)]

theorem size_allocate_of_isFull (hfull : h.IsFull) (o : Object) :
    (h.allocate o).2.registry.size = h.liveCount + 1 ∧
      (h.allocate o).2.pruneMark = max minPruneMark (2 * h.liveCount) := by
  rw [allocate_of_isFull hfull]
  exact ⟨Array.size_push _, rfl⟩

theorem not_isFull_prune (h : Heap) : ¬ h.prune.IsFull := by
  change ¬ max minPruneMark (2 * h.liveCount) ≤ h.liveCount
  have hmin : minPruneMark = 1024 := rfl
  omega

section Life

variable (h) (id : ObjectId)

theorem isLive_allocate (o : Object) :
    (h.allocate o).2.isLive id = (decide (id = h.objects.size) || h.isLive id) := by
  unfold isLive get?
  rw [objects_allocate, Array.getElem?_push]
  split
  case isTrue hid => simp [hid]
  case isFalse hid => simp [hid]

theorem isLive_release (id' : ObjectId) :
    (h.release id).isLive id' = (decide (id' ≠ id) && h.isLive id') := by
  unfold isLive get? release
  rw [Array.getElem?_setIfInBounds]
  split
  case isTrue hid =>
    subst hid
    split <;> simp
  case isFalse hid => simp [Ne.symm hid]

@[simp]
theorem isLive_modify (f : Object → Object) : (h.modify id f).isLive = h.isLive := by
  funext id'
  unfold isLive get? modify
  rw [Array.getElem?_modify]
  split
  · cases h.objects[id']? with
    | none => rfl
    | some o => cases o <;> rfl
  · rfl

end Life

section Teardown

variable (h) (id : ObjectId) (f : Object → Object)

@[simp]
theorem size_objects_modify : (h.modify id f).objects.size = h.objects.size :=
  Array.size_modify

theorem clearing_keeps (ids : List ObjectId) :
    let cleared := ids.foldl (fun h id => h.modify id fun _ => .cleared) h
    cleared.objects.size = h.objects.size ∧ cleared.pruneMark = h.pruneMark ∧
      cleared.chunkSize = h.chunkSize ∧ cleared.allocated = h.allocated ∧
      cleared.collections = h.collections := by
  induction ids generalizing h with
  | nil => exact ⟨rfl, rfl, rfl, rfl, rfl⟩
  | cons id ids ih =>
    have h' := ih (h.modify id fun _ => .cleared)
    rw [size_objects_modify] at h'
    exact h'

theorem teardown_keeps :
    h.teardown.registry = #[] ∧ h.teardown.objects.size = h.objects.size ∧
      h.teardown.pruneMark = h.pruneMark ∧ h.teardown.chunkSize = h.chunkSize ∧
      h.teardown.allocated = h.allocated ∧ h.teardown.collections = h.collections := by
  have hfold := h.clearing_keeps h.registry.toList
  rw [Array.foldl_toList] at hfold
  exact ⟨rfl, hfold⟩

end Teardown

section Books

/-- What the books of a heap say after a history. -/
structure Kept (history : List Operation) (h : Heap) : Prop where
  size : h.objects.size = allocations history
  nodup : h.registry.toList.Nodup
  known : ∀ id ∈ h.registry, id < h.objects.size
  live : ∀ id, id ∈ held history ↔ id ∈ h.registry ∧ h.isLive id = true
  fits : h.registry.size ≤ h.pruneMark
  mark : h.pruneMark ≤ max minPruneMark (2 * peak history)

variable {history : List Operation}

namespace Kept

theorem perm_held (hh : Kept history h) :
    (h.registry.filter h.isLive).toList.Perm (held history) := by
  rw [Array.toList_filter]
  refine (List.perm_ext_iff_of_nodup (hh.nodup.filter _) (nodup_held history)).mpr fun id => ?_
  rw [hh.live, List.mem_filter, Array.mem_toList_iff]

theorem liveCount_eq (hh : Kept history h) : h.liveCount = (held history).length :=
  hh.perm_held.length_eq

theorem new (chunkSize : Nat) : Kept [] (new chunkSize) where
  size := rfl
  nodup := List.nodup_nil
  known _ hid := nomatch hid
  live _ := ⟨nofun, fun hid => nomatch hid.1⟩
  fits := Nat.zero_le _
  mark := Nat.le_max_left _ _

theorem mark_cons (hh : Kept history h) (op : Operation) :
    h.pruneMark ≤ max minPruneMark (2 * peak (op :: history)) := by
  have hpeak : peak history ≤ peak (op :: history) := Nat.le_max_right _ _
  have hmark := hh.mark
  omega

theorem recount (hh : Kept history h) (chunkSize allocated collections : Nat) :
    Kept history { h with chunkSize, allocated, collections } :=
  ⟨hh.size, hh.nodup, hh.known, hh.live, hh.fits, hh.mark⟩

theorem extend (hh : Kept history h) (op : Operation)
    (hallocations : allocations (op :: history) = allocations history)
    (hheld : held (op :: history) = held history) : Kept (op :: history) h where
  size := hallocations ▸ hh.size
  nodup := hh.nodup
  known := hh.known
  live := hheld ▸ hh.live
  fits := hh.fits
  mark := hh.mark_cons _

theorem change (hh : Kept history h) (id : ObjectId) (f : Object → Object) :
    Kept history (h.modify id f) where
  size := (h.size_objects_modify id f).trans hh.size
  nodup := hh.nodup
  known := by rw [size_objects_modify]; exact hh.known
  live := by rw [isLive_modify]; exact hh.live
  fits := hh.fits
  mark := hh.mark

theorem release (hh : Kept history h) (id : ObjectId) :
    Kept (.release id :: history) (h.release id) where
  size := Array.size_setIfInBounds.trans hh.size
  nodup := hh.nodup
  known id' hid := Array.size_setIfInBounds.symm ▸ hh.known id' hid
  live id' := by
    have hmem : id' ∈ held (.release id :: history) ↔ id' ∈ held history ∧ id' ≠ id := by
      simp [held]
    rw [hmem, hh.live, isLive_release]
    change _ ↔ id' ∈ h.registry ∧ _
    simp only [Bool.and_eq_true, decide_eq_true_eq]
    tauto
  fits := hh.fits
  mark := hh.mark_cons _

theorem prune (hh : Kept history h) : Kept history h.prune where
  size := hh.size
  nodup := by
    change (h.registry.filter h.isLive).toList.Nodup
    rw [Array.toList_filter]
    exact hh.nodup.filter _
  known id hid := hh.known id (Array.mem_filter.mp hid).1
  live id := by
    change _ ↔ id ∈ h.registry.filter h.isLive ∧ h.isLive id = true
    rw [hh.live, Array.mem_filter]
    tauto
  fits := by
    change (h.registry.filter h.isLive).size ≤ max minPruneMark (2 * (h.registry.filter _).size)
    omega
  mark := by
    have hcount : h.liveCount ≤ peak history := hh.liveCount_eq ▸ length_held_le_peak history
    change max minPruneMark (2 * h.liveCount) ≤ _
    omega

theorem register (hh : Kept history h) (hroom : ¬ h.IsFull) (o : Object) :
    Kept (.allocate o :: history) (h.register o) where
  size := (Array.size_push _).trans (congrArg (· + 1) hh.size)
  nodup := by
    change (h.registry.push h.objects.size).toList.Nodup
    rw [Array.toList_push, List.nodup_append]
    refine ⟨hh.nodup, List.nodup_singleton _, fun id hid id' hid' => ?_⟩
    rw [List.mem_singleton.mp hid']
    exact Nat.ne_of_lt (hh.known id (Array.mem_toList_iff.mp hid))
  known id hid := by
    change id ∈ h.registry.push h.objects.size at hid
    change id < (h.objects.push (some o)).size
    rw [Array.size_push]
    rcases Array.mem_push.mp hid with hid | rfl
    · exact Nat.lt_succ_of_lt (hh.known id hid)
    · exact Nat.lt_succ_self _
  live id := by
    have hlive : (h.register o).isLive id = (decide (id = h.objects.size) || h.isLive id) := by
      rw [← h.isLive_allocate id o, allocate_of_not_isFull hroom]
    change id ∈ allocations history :: held history ↔ id ∈ h.registry.push h.objects.size ∧ _
    rw [hlive, List.mem_cons, hh.live, Array.mem_push, ← hh.size]
    simp only [Bool.or_eq_true, decide_eq_true_eq]
    tauto
  fits := by
    change (h.registry.push h.objects.size).size ≤ h.pruneMark
    rw [Array.size_push]
    exact Nat.not_le.mp hroom
  mark := hh.mark_cons _

theorem allocate (hh : Kept history h) (o : Object) :
    Kept (.allocate o :: history) (h.allocate o).2 := by
  by_cases hfull : h.IsFull
  · rw [allocate_of_isFull hfull]
    exact hh.prune.register h.not_isFull_prune o
  · rw [allocate_of_not_isFull hfull]
    exact hh.register hfull o

theorem teardown (hh : Kept history h) : Kept (.teardown :: history) h.teardown := by
  obtain ⟨hregistry, hsize, hmark, -⟩ := h.teardown_keeps
  exact {
    size := hsize.trans hh.size
    nodup := hregistry ▸ List.nodup_nil
    known := fun id hid => by rw [hregistry] at hid; simp at hid
    live := fun id => ⟨nofun, fun hid => by rw [hregistry] at hid; simp at hid⟩
    fits := hregistry ▸ Nat.zero_le _
    mark := hmark ▸ hh.mark_cons _ }

theorem perform (hh : Kept history h) (op : Operation) :
    Kept (op :: history) (h.perform op) := by
  cases op with
  | allocate o => exact hh.allocate o
  | release id => exact hh.release id
  | change id f => exact (hh.change id f).extend (.change id f) rfl rfl
  | collect => exact (hh.prune.recount _ _ _).extend .collect rfl rfl
  | maybeCollect =>
    refine Kept.extend ?_ .maybeCollect rfl rfl
    change Kept history h.maybeCollect.2
    unfold Heap.maybeCollect
    split
    case isTrue => exact hh.prune.recount _ _ _
    case isFalse => exact hh
  | setChunkSize size => exact (hh.recount _ _ _).extend (.setChunkSize size) rfl rfl
  | teardown => exact hh.teardown

end Kept

theorem kept_after (chunkSize : Nat) (history : List Operation) :
    Kept history (after chunkSize history) := by
  induction history with
  | nil => exact .new chunkSize
  | cons op earlier ih => exact ih.perform op

end Books

section Counters

variable (h)

@[simp]
theorem allocated_allocate (o : Object) : (h.allocate o).2.allocated = h.allocated + 1 := by
  unfold allocate
  split <;> rfl

@[simp]
theorem collections_allocate (o : Object) : (h.allocate o).2.collections = h.collections := by
  unfold allocate
  split <;> rfl

@[simp]
theorem chunkSize_allocate (o : Object) : (h.allocate o).2.chunkSize = h.chunkSize := by
  unfold allocate
  split <;> rfl

variable (chunkSize : Nat) (history : List Operation)

/-- The counters of a heap count what their names say, whether or not dead entries were struck
out on the way. -/
theorem counters_after :
    (after chunkSize history).allocated = sinceCollection chunkSize history ∧
      (after chunkSize history).collections = collectionsIn chunkSize history ∧
      (after chunkSize history).chunkSize = max 1 (latestChunkSize chunkSize history) := by
  induction history with
  | nil => exact ⟨rfl, rfl, rfl⟩
  | cons op earlier ih =>
    rw [after_cons, sinceCollection, collectionsIn, ← ih.1, ← ih.2.1]
    cases op with
    | allocate o =>
      exact ⟨allocated_allocate _ o, collections_allocate _ o,
        (chunkSize_allocate _ o).trans ih.2.2⟩
    | release | change | collect => exact ⟨rfl, rfl, ih.2.2⟩
    | maybeCollect =>
      dsimp only [perform, collects]
      unfold maybeCollect
      split
      case isTrue => exact ⟨rfl, rfl, ih.2.2⟩
      case isFalse => exact ⟨rfl, rfl, ih.2.2⟩
    | setChunkSize size => exact ⟨rfl, rfl, rfl⟩
    | teardown =>
      obtain ⟨-, -, -, hchunk, hallocated, hcollections⟩ := (after chunkSize earlier).teardown_keeps
      exact ⟨hallocated, hcollections, hchunk.trans ih.2.2⟩

end Counters

section Distance

theorem allocations_cons (op : Operation) (earlier : List Operation) :
    allocations (op :: earlier) = allocations earlier + allocations [op] := by
  cases op <;> rfl

theorem collectionsIn_le (chunkSize : Nat) (later earlier : List Operation) :
    collectionsIn chunkSize earlier ≤ collectionsIn chunkSize (later ++ earlier) := by
  induction later with
  | nil => exact Nat.le_refl _
  | cons op later ih => exact Nat.le_trans ih (Nat.le_add_right _ _)

/-- Where there is room for it, an operation that does not collect makes the registry longer by
at most its own allocation and leaves the mark. -/
theorem perform_of_room (op : Operation) (hcollects : h.collects op = false)
    (hroom : h.registry.size + allocations [op] ≤ h.pruneMark) :
    (h.perform op).registry.size ≤ h.registry.size + allocations [op] ∧
      (h.perform op).pruneMark = h.pruneMark := by
  cases op with
  | allocate o =>
    rw [perform, allocate_of_not_isFull (Nat.not_le.mpr hroom)]
    exact ⟨Nat.le_of_eq (Array.size_push _), rfl⟩
  | release | change | setChunkSize => exact ⟨Nat.le_refl _, rfl⟩
  | collect => cases hcollects
  | maybeCollect =>
    dsimp only [perform, collects] at hcollects ⊢
    unfold maybeCollect at hcollects ⊢
    split at hcollects
    case isTrue => cases hcollects
    case isFalse hdue =>
      rw [if_neg hdue]
      exact ⟨Nat.le_refl _, rfl⟩
  | teardown =>
    obtain ⟨hregistry, -, hmark, -⟩ := h.teardown_keeps
    rw [perform, hregistry]
    exact ⟨Nat.zero_le _, hmark⟩

/-- The same for the operations since some moment, as long as there was room then for all their
allocations. -/
theorem after_of_room (chunkSize : Nat) (earlier later : List Operation)
    (hsame : (after chunkSize (later ++ earlier)).collections =
      (after chunkSize earlier).collections)
    (hroom : (after chunkSize earlier).registry.size + allocations later ≤
      (after chunkSize earlier).pruneMark) :
    (after chunkSize (later ++ earlier)).registry.size ≤
        (after chunkSize earlier).registry.size + allocations later ∧
      (after chunkSize (later ++ earlier)).pruneMark = (after chunkSize earlier).pruneMark := by
  induction later with
  | nil => exact ⟨Nat.le_refl _, rfl⟩
  | cons op later ih =>
    rw [allocations_cons] at hroom ⊢
    rw [(counters_after _ _).2.1, (counters_after _ _).2.1] at hsame ih
    -- Neither the operation nor one before it collected: the counter never goes back.
    have hle := collectionsIn_le chunkSize later earlier
    have hcount : collectionsIn chunkSize (op :: later ++ earlier) =
        collectionsIn chunkSize (later ++ earlier) +
          if (after chunkSize (later ++ earlier)).collects op then 1 else 0 := rfl
    have hcollects : (after chunkSize (later ++ earlier)).collects op = false := by
      by_contra hcollects
      rw [if_pos (Bool.of_not_eq_false hcollects)] at hcount
      omega
    obtain ⟨hsize, hmark⟩ := ih (by omega) (by omega)
    obtain ⟨hsize', hmark'⟩ := perform_of_room op hcollects (by omega)
    rw [List.cons_append, after_cons]
    exact ⟨by omega, hmark'.trans hmark⟩

theorem le_allocations_of_isFull (chunkSize : Nat) (earlier later : List Operation) (o : Object)
    (hfirst : (after chunkSize earlier).IsFull)
    (hsame : (after chunkSize (later ++ .allocate o :: earlier)).collections =
      (after chunkSize earlier).collections)
    (hnext : (after chunkSize (later ++ .allocate o :: earlier)).IsFull) :
    max 512 (after chunkSize earlier).liveCount ≤ allocations later + 1 := by
  by_contra hearly
  have hmin : minPruneMark = 1024 := rfl
  have hcollections : (after chunkSize (.allocate o :: earlier)).collections =
      (after chunkSize earlier).collections := collections_allocate _ o
  obtain ⟨hfresh, hfreshMark⟩ := size_allocate_of_isFull hfirst o
  rw [← perform, ← after_cons] at hfresh hfreshMark
  obtain ⟨hsize, hmark⟩ := after_of_room chunkSize (.allocate o :: earlier) later
    (hsame.trans hcollections.symm) (by omega)
  unfold IsFull at hnext
  omega

end Distance

/-- The books of a heap, whatever was done with it. They have every object once that was allocated
since the last teardown and is still referred to, and count just these as living. The registry is
never longer than its mark, so never longer than the larger of 1024 and twice the most objects
that ever lived. From an allocation that strikes out dead entries to the next, short of a
collection, it is as many allocations as objects were living at the first, and no fewer than 512.
A collection of opportunity takes place just when a chunk of allocations has gone by since the
last collection; that count and the count of collections do not depend on the striking out. -/
theorem books_exact (chunkSize : Nat) (history : List Operation) :
    let h := after chunkSize history
    (∀ o, (h.allocate o).1 = allocations history) ∧
      (∀ id ∈ held history, h.isLive id = true ∧ h.registry.count id = 1) ∧
      (held history).Nodup ∧
      h.liveCount = (held history).length ∧
      h.registry.size ≤ h.pruneMark ∧
      h.registry.size ≤ max 1024 (2 * peak history) ∧
      (∀ o later, h.IsFull →
        (after chunkSize (later ++ .allocate o :: history)).collections = h.collections →
        (after chunkSize (later ++ .allocate o :: history)).IsFull →
        max 512 h.liveCount ≤ allocations later + 1) ∧
      h.maybeCollect =
        (if max 1 (latestChunkSize chunkSize history) ≤ sinceCollection chunkSize history then
          (some h.collect.1, h.collect.2)
        else (none, h)) ∧
      h.allocated = sinceCollection chunkSize history ∧
      h.collections = collectionsIn chunkSize history ∧
      ∀ o, (h.allocate o).2.allocated = h.allocated + 1 ∧
        (h.allocate o).2.collections = h.collections := by
  intro h
  -- Everything is read off one invariant of the history and the three counters.
  have hkept : Kept history h := kept_after chunkSize history
  obtain ⟨hallocated, hcollections, hchunk⟩ := counters_after chunkSize history
  refine ⟨fun _ => hkept.size, fun id hid => ?_, nodup_held history, hkept.liveCount_eq,
    hkept.fits, Nat.le_trans hkept.fits hkept.mark, fun o later hfirst hsame hnext =>
    le_allocations_of_isFull chunkSize history later o hfirst hsame hnext, ?_, hallocated,
    hcollections, fun o => ⟨allocated_allocate h o, collections_allocate h o⟩⟩
  · obtain ⟨hmem, hlive⟩ := (hkept.live id).mp hid
    refine ⟨hlive, ?_⟩
    rw [← Array.count_toList]
    exact List.count_eq_one_of_mem hkept.nodup (Array.mem_toList_iff.mpr hmem)
  · rw [← hallocated, ← hchunk]
    rfl

section Crowd

variable (chunkSize : Nat) (earlier : List Operation) (o : Object) (n : Nat)

theorem after_replicate_allocate
    (hroom : (after chunkSize earlier).registry.size + n ≤ (after chunkSize earlier).pruneMark) :
    let h := after chunkSize (List.replicate n (.allocate o) ++ earlier)
    h.registry.size = (after chunkSize earlier).registry.size + n ∧
      h.pruneMark = (after chunkSize earlier).pruneMark ∧
      h.collections = (after chunkSize earlier).collections := by
  induction n with
  | zero => exact ⟨rfl, rfl, rfl⟩
  | succ n ih =>
    obtain ⟨hsize, hmark, hcollections⟩ := ih (by omega)
    rw [List.replicate_succ, List.cons_append, after_cons, perform]
    rw [allocate_of_not_isFull (by unfold IsFull; omega)]
    refine ⟨(Array.size_push _).trans ?_, hmark, hcollections⟩
    rw [hsize, Nat.add_assoc]

theorem length_held_replicate_allocate :
    (held (List.replicate n (.allocate o) ++ earlier)).length = (held earlier).length + n := by
  induction n with
  | zero => rfl
  | succ n ih => exact congrArg (· + 1) ih

theorem allocations_replicate_allocate :
    allocations (List.replicate n (.allocate o)) = n := by
  induction n with
  | zero => rfl
  | succ n ih => exact congrArg (· + 1) ih

end Crowd

/-- With 1024 living objects in a full registry the next striking out is exactly 1024 allocations
away. -/
theorem books_exact_of_crowd :
    let crowd := List.replicate 1024 (Operation.allocate default)
    let later := List.replicate 1023 (Operation.allocate default)
    (after 1 crowd).IsFull ∧
      (after 1 (later ++ .allocate default :: crowd)).collections = (after 1 crowd).collections ∧
      (after 1 (later ++ .allocate default :: crowd)).IsFull ∧
      max 512 (after 1 crowd).liveCount = 1024 ∧ allocations later + 1 = 1024 ∧
      max 512 (after 1 crowd).liveCount ≤ allocations later + 1 := by
  dsimp only
  have hroom : (after 1 []).registry.size = 0 ∧ (after 1 []).pruneMark = 1024 := ⟨rfl, rfl⟩
  have hmin : minPruneMark = 1024 := rfl
  have hnone : (held []).length = 0 := rfl
  have hcrowd := after_replicate_allocate 1 [] default 1024 (by omega)
  have hcount := length_held_replicate_allocate [] default 1024
  have hlater := allocations_replicate_allocate default 1023
  rw [List.append_nil] at hcrowd hcount
  generalize List.replicate 1024 (Operation.allocate default) = crowd at *
  obtain ⟨hsize, hmark, -⟩ := hcrowd
  have hlive : (after 1 crowd).liveCount = 1024 := by
    rw [(kept_after 1 crowd).liveCount_eq]
    omega
  have hfirst : (after 1 crowd).IsFull := by
    unfold IsFull
    omega
  obtain ⟨hfresh, hfreshMark⟩ := size_allocate_of_isFull hfirst default
  rw [← perform, ← after_cons] at hfresh hfreshMark
  obtain ⟨hsize', hmark', hsame⟩ :=
    after_replicate_allocate 1 (.allocate default :: crowd) default 1023 (by omega)
  rw [after_cons 1 _ crowd, perform, collections_allocate] at hsame
  generalize List.replicate 1023 (Operation.allocate default) = later at *
  have hnext : (after 1 (later ++ .allocate default :: crowd)).IsFull := by
    unfold IsFull
    omega
  exact ⟨hfirst, hsame, hnext, by omega, by omega,
    (books_exact 1 crowd).2.2.2.2.2.2.1 default later hfirst hsame hnext⟩

end ScriptShell.Heap
