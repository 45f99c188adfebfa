import Std.Data.TreeMap.Lemmas

namespace ScriptShell

structure Dict (α : Type) where
  entries : Std.TreeMap String α

namespace Dict

variable {α : Type}

def empty : Dict α :=
  ⟨.empty⟩

instance : Inhabited (Dict α) :=
  ⟨empty⟩

def get? (d : Dict α) (key : String) : Option α :=
  d.entries[key]?

def contains (d : Dict α) (key : String) : Bool :=
  d.entries.contains key

def insert (d : Dict α) (key : String) (a : α) : Dict α :=
  ⟨d.entries.insert key a⟩

def size (d : Dict α) : Nat :=
  d.entries.size

def keys (d : Dict α) : List String :=
  d.entries.keys

def values (d : Dict α) : List α :=
  d.entries.values

def ofList (entries : List (String × α)) : Dict α :=
  entries.foldl (fun d e => d.insert e.1 e.2) empty

theorem get?_empty (key : String) : (empty : Dict α).get? key = none := by
  simp [empty, get?]

theorem contains_eq_isSome_get? (d : Dict α) (key : String) :
    d.contains key = (d.get? key).isSome :=
  Std.TreeMap.contains_eq_isSome_getElem?

theorem get?_insert (d : Dict α) (key key' : String) (a : α) :
    (d.insert key a).get? key' = if key = key' then some a else d.get? key' := by
  simp only [insert, get?, Std.TreeMap.getElem?_insert, Std.LawfulEqCmp.compare_eq_iff_eq]

end Dict

end ScriptShell
