import Mathlib.Data.Finset.Card
import Mathlib.Data.Finset.Range
import Mathlib.Logic.Relation
import ScriptShell.Heap.Conversion

namespace ScriptShell

/-- The values whose texts the text of an object is made of. -/
def Object.parts (o : Object) : List Value :=
  match o.kind with
  | .array elements => elements.toList
  | .error => (o.properties.get? "name").toList ++ (o.properties.get? "message").toList
  | _ => []

section Except

variable {ε α β γ : Type}

theorem bind_ok_iff {x : Except ε α} {g : α → Except ε β} :
    (∃ b, (x >>= g) = .ok b) ↔ ∃ a, x = .ok a ∧ ∃ b, g a = .ok b := by
  cases x with
  | error e => exact ⟨nofun, nofun⟩
  | ok a => exact ⟨fun h => ⟨a, rfl, h⟩, fun ⟨_, ha, h⟩ => by cases ha; exact h⟩

theorem bind_ok_iff_of_total {x : Except ε α} {g : α → Except ε β} (hg : ∀ a, ∃ b, g a = .ok b) :
    (∃ b, (x >>= g) = .ok b) ↔ ∃ a, x = .ok a := by
  rw [bind_ok_iff]
  exact exists_congr fun a => and_iff_left (hg a)

theorem bind_bind_ok_iff_of_total {x : Except ε α} {y : Except ε β} {g : α → β → Except ε γ}
    (hg : ∀ a b, ∃ c, g a b = .ok c) :
    (∃ c, (x >>= fun a => y >>= g a) = .ok c) ↔ (∃ a, x = .ok a) ∧ ∃ b, y = .ok b := by
  rw [bind_ok_iff]
  simp only [bind_ok_iff_of_total (hg _), exists_and_right]

theorem map_ok_iff {x : Except ε α} {g : α → β} : (∃ b, x.map g = .ok b) ↔ ∃ a, x = .ok a := by
  cases x with
  | error e => exact ⟨nofun, nofun⟩
  | ok a => exact ⟨fun _ => ⟨a, rfl⟩, fun _ => ⟨g a, rfl⟩⟩

theorem mapM_ok_iff {g : α → Except ε β} {l : List α} :
    (∃ bs, l.mapM g = .ok bs) ↔ ∀ a ∈ l, ∃ b, g a = .ok b := by
  induction l with
  | nil => exact ⟨nofun, fun _ => ⟨[], rfl⟩⟩
  | cons a l ih =>
    rw [List.mapM_cons, bind_ok_iff, List.forall_mem_cons, ← ih]
    constructor
    · rintro ⟨b, hb, h⟩
      obtain ⟨bs, hbs, -⟩ := bind_ok_iff.mp h
      exact ⟨⟨b, hb⟩, bs, hbs⟩
    · rintro ⟨⟨b, hb⟩, bs, hbs⟩
      exact ⟨b, hb, bind_ok_iff.mpr ⟨bs, hbs, _, rfl⟩⟩

end Except

namespace Heap

/-- The text of one object reads that of another. -/
def Reads (h : Heap) (id id' : ObjectId) : Prop :=
  .object id' ∈ (h.object id).parts

/-- A chain of so many readings. -/
inductive ReadsIn (h : Heap) : Nat → ObjectId → ObjectId → Prop where
  | refl (id : ObjectId) : ReadsIn h 0 id id
  | step {n : Nat} {id id' id'' : ObjectId} (first : h.Reads id id') (rest : ReadsIn h n id' id'') :
      ReadsIn h (n + 1) id id''

variable {h : Heap} {id id' : ObjectId}

theorem object_of_size_le (hid : h.objects.size ≤ id) : h.object id = default := by
  unfold object get?
  rw [Array.getElem?_eq_none hid]
  rfl

theorem exists_readsIn_iff : (∃ n, h.ReadsIn n id id') ↔ Relation.ReflTransGen h.Reads id id' := by
  constructor
  · rintro ⟨n, hr⟩
    induction hr with
    | refl => exact .refl
    | step first _ ih => exact .head first ih
  · intro hr
    induction hr using Relation.ReflTransGen.head_induction_on with
    | refl => exact ⟨0, .refl _⟩
    | head first _ ih =>
      obtain ⟨n, rest⟩ := ih
      exact ⟨n + 1, .step first rest⟩

theorem exists_readsIn_of_le {m n : Nat} (hr : h.ReadsIn n id id') (hmn : m ≤ n) :
    ∃ id'', h.ReadsIn m id id'' := by
  induction hr generalizing m with
  | refl id =>
    rw [Nat.le_zero.mp hmn]
    exact ⟨id, .refl id⟩
  | step first _ ih =>
    cases m with
    | zero => exact ⟨_, .refl _⟩
    | succ m => exact (ih (Nat.le_of_succ_le_succ hmn)).imp fun _ => .step first

section Cycle

theorem exists_path {n : Nat} (hr : h.ReadsIn n id id') :
    ∃ path : Nat → ObjectId, path 0 = id ∧ ∀ i < n, h.Reads (path i) (path (i + 1)) := by
  induction hr with
  | refl id => exact ⟨fun _ => id, rfl, nofun⟩
  | @step n id _ _ first _ ih =>
    obtain ⟨path, rfl, hpath⟩ := ih
    refine ⟨fun i => i.casesOn id path, rfl, fun i hi => ?_⟩
    cases i with
    | zero => exact first
    | succ i => exact hpath i (Nat.lt_of_succ_lt_succ hi)

theorem reflTransGen_of_path {path : Nat → ObjectId} {i j : Nat} (hij : i ≤ j)
    (hpath : ∀ k < j, h.Reads (path k) (path (k + 1))) :
    Relation.ReflTransGen h.Reads (path i) (path j) := by
  induction j, hij using Nat.le_induction with
  | base => exact .refl
  | succ j hij ih =>
    exact (ih fun k hk => hpath k (Nat.lt_succ_of_lt hk)).tail (hpath j (Nat.lt_succ_self j))

/-- A chain through as many objects as there are comes to one of them again if it goes on. -/
theorem exists_cycle_of_path {path : Nat → ObjectId}
    (hknown : ∀ i ≤ h.objects.size, path i < h.objects.size)
    (hpath : ∀ i < h.objects.size, h.Reads (path i) (path (i + 1))) :
    ∃ c, Relation.ReflTransGen h.Reads (path 0) c ∧ Relation.TransGen h.Reads c c := by
  have hmaps : ∀ i ∈ Finset.range (h.objects.size + 1), path i ∈ Finset.range h.objects.size := by
    intro i hi
    rw [Finset.mem_range] at hi ⊢
    exact hknown i (Nat.le_of_lt_succ hi)
  have cycle {i j : Nat} (hij : i < j) (hj : j < h.objects.size + 1) (heq : path i = path j) :
      ∃ c, Relation.ReflTransGen h.Reads (path 0) c ∧ Relation.TransGen h.Reads c c := by
    have hbelow (k : Nat) (hk : k < j) := hpath k (by omega)
    refine ⟨path i, reflTransGen_of_path (Nat.zero_le i) fun k hk => hbelow k (by omega), ?_⟩
    have hround := Relation.TransGen.head' (hbelow i hij) (reflTransGen_of_path hij hbelow)
    rwa [← heq] at hround
  obtain ⟨i, hi, j, hj, hne, heq⟩ :=
    Finset.exists_ne_map_eq_of_card_lt_of_maps_to (by simp) hmaps
  rcases Nat.lt_or_gt_of_ne hne with hij | hji
  · exact cycle hij (Finset.mem_range.mp hj) heq
  · exact cycle hji (Finset.mem_range.mp hi) heq.symm

theorem exists_readsIn_of_cycle {c : ObjectId} (hcycle : Relation.TransGen h.Reads c c) (n : Nat)
    (hr : Relation.ReflTransGen h.Reads id c) : ∃ id', h.ReadsIn n id id' := by
  induction n generalizing id with
  | zero => exact ⟨id, .refl id⟩
  | succ n ih =>
    -- Also from the cycle itself it is one more link to such a place.
    obtain ⟨next, first, rest⟩ : ∃ next, h.Reads id next ∧
        Relation.ReflTransGen h.Reads next c := by
      rcases hr.cases_head with rfl | hr
      · exact Relation.TransGen.head'_iff.mp hcycle
      · exact hr
    exact (ih rest).imp fun _ => .step first

theorem exists_readsIn_size_iff (hknown : ∀ id id', h.Reads id id' → id' < h.objects.size)
    (hid : id < h.objects.size) :
    (∃ id', h.ReadsIn h.objects.size id id') ↔
      ∃ c, Relation.ReflTransGen h.Reads id c ∧ Relation.TransGen h.Reads c c := by
  constructor
  · rintro ⟨id', hr⟩
    obtain ⟨path, rfl, hpath⟩ := exists_path hr
    refine exists_cycle_of_path (fun i hi => ?_) hpath
    cases i with
    | zero => exact hid
    | succ i => exact hknown _ _ (hpath i hi)
  · rintro ⟨c, hr, hcycle⟩
    exact exists_readsIn_of_cycle hcycle _ hr

theorem lt_size_of_reads (hr : h.Reads id id') : id < h.objects.size := by
  by_contra hid
  rw [Reads, object_of_size_le (Nat.not_lt.mp hid)] at hr
  cases hr

theorem exists_readsIn_succ_size_iff :
    (∃ id', h.ReadsIn (h.objects.size + 1) id id') ↔
      ∃ c, Relation.ReflTransGen h.Reads id c ∧ Relation.TransGen h.Reads c c := by
  constructor
  · rintro ⟨id', hr⟩
    obtain ⟨path, rfl, hpath⟩ := exists_path hr
    apply exists_cycle_of_path
    · exact fun i hi => lt_size_of_reads (hpath i (Nat.lt_succ_of_le hi))
    · exact fun i hi => hpath i (Nat.lt_succ_of_lt hi)
  · rintro ⟨c, hr, hcycle⟩
    exact exists_readsIn_of_cycle hcycle _ hr

end Cycle

section Text

variable {busy : Option ObjectId} {depth : Nat}

theorem textWithin_of_not_object {v : Value} (hv : ∀ id, v ≠ .object id) :
    ∃ s, h.textWithin busy depth v = .ok s := by
  cases v with
  | object id => exact absurd rfl (hv id)
  | _ => cases depth <;> exact ⟨_, rfl⟩

/-- An object that is not busy has a text just when all its parts have. -/
theorem textWithin_succ_ok_iff_parts (hid : busy ≠ some id) :
    (∃ s, h.textWithin busy (depth + 1) (.object id) = .ok s) ↔
      ∀ v ∈ (h.object id).parts, ∃ s, h.textWithin busy depth v = .ok s := by
  have property {p : Option Value} {default : String} :
      (∃ s, (p.map (h.textWithin busy depth)).getD (.ok default) = .ok s) ↔
        ∀ v ∈ p.toList, ∃ s, h.textWithin busy depth v = .ok s := by
    cases p with
    | none => simp
    | some v => simp
  rw [textWithin, if_neg hid]
  unfold Object.parts
  dsimp only
  cases (h.object id).kind with
  | plain => exact ⟨nofun, fun _ => ⟨_, rfl⟩⟩
  | function f => exact ⟨nofun, fun _ => ⟨_, rfl⟩⟩
  | array elements =>
    dsimp only
    rw [bind_ok_iff_of_total fun _ => ⟨_, rfl⟩, mapM_ok_iff]
    refine forall₂_congr fun v _ => ?_
    split
    case isTrue hv =>
      -- What is nothing is shown empty here, and has a text of its own anyhow.
      refine iff_of_true ⟨_, rfl⟩ (textWithin_of_not_object fun id hid => ?_)
      subst hid
      cases hv
    case isFalse => rfl
  | error =>
    dsimp only
    rw [bind_bind_ok_iff_of_total fun _ _ => ⟨_, rfl⟩, List.forall_mem_append]
    exact and_congr property property

theorem textWithin_succ_ok_iff (hid : busy ≠ some id) :
    (∃ s, h.textWithin busy (depth + 1) (.object id) = .ok s) ↔
      ∀ id', h.Reads id id' → ∃ s, h.textWithin busy depth (.object id') = .ok s := by
  rw [textWithin_succ_ok_iff_parts hid]
  refine ⟨fun hparts id' hid' => hparts _ hid', fun hreads v hv => ?_⟩
  by_cases hobject : ∃ id', v = .object id'
  · obtain ⟨id', rfl⟩ := hobject
    exact hreads id' hv
  · exact textWithin_of_not_object (not_exists.mp hobject)

/-- There is a text within a depth unless the reading comes to a busy object, or goes deeper. -/
theorem textWithin_ok_iff :
    (∃ s, h.textWithin busy depth (.object id) = .ok s) ↔
      (∀ n < depth, ∀ id', busy = some id' → ¬ h.ReadsIn n id id') ∧
        ¬ ∃ id', h.ReadsIn depth id id' := by
  induction depth generalizing id with
  | zero => exact ⟨nofun, fun h => absurd ⟨id, .refl id⟩ h.2⟩
  | succ depth ih =>
    by_cases hid : busy = some id
    · constructor
      · rintro ⟨s, hs⟩
        rw [textWithin, if_pos hid] at hs
        cases hs
      · exact fun h => absurd (.refl id) (h.1 0 (Nat.succ_pos _) id hid)
    · rw [textWithin_succ_ok_iff hid]
      constructor
      · intro hreads
        refine ⟨fun n hn id' hbusy hr => ?_, fun ⟨id', hr⟩ => ?_⟩
        · cases hr with
          | refl => exact hid hbusy
          | step first rest =>
            exact (ih.mp (hreads _ first)).1 _ (Nat.lt_of_succ_lt_succ hn) id' hbusy rest
        · cases hr with
          | step first rest => exact (ih.mp (hreads _ first)).2 ⟨id', rest⟩
      · rintro ⟨hbusy, hdeep⟩ id' first
        exact ih.mpr ⟨fun n hn id'' hid'' rest =>
          hbusy (n + 1) (Nat.succ_lt_succ hn) id'' hid'' (.step first rest),
          fun ⟨id'', rest⟩ => hdeep ⟨id'', .step first rest⟩⟩

theorem textWithin_busy_ok_iff (b : ObjectId) :
    (∃ s, h.textWithin (some b) h.objects.size (.object id) = .ok s) ↔
      ¬ Relation.ReflTransGen h.Reads id b ∧ ¬ ∃ id', h.ReadsIn h.objects.size id id' := by
  rw [textWithin_ok_iff]
  refine and_congr_left fun hdeep => ?_
  constructor
  · intro hbusy hr
    obtain ⟨n, hr⟩ := exists_readsIn_iff.mpr hr
    rcases Nat.lt_or_ge n h.objects.size with hn | hn
    · exact hbusy n hn b rfl hr
    · exact hdeep (exists_readsIn_of_le hr hn)
  · rintro hbusy n - b' hb hr
    cases hb
    exact hbusy (exists_readsIn_iff.mp ⟨n, hr⟩)

end Text

end Heap

end ScriptShell
