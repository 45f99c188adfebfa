namespace ScriptShell.Text

/-- The parts of a list between occurrences of a separator, found from the front; `skip`
elements still belong to the separator found last. -/
def splitFrom {α : Type} [BEq α] (separator : List α) (skip : Nat) : List α → List (List α)
  | [] => [[]]
  | a :: rest =>
    match skip with
    | n + 1 => splitFrom separator n rest
    | 0 =>
      if separator.isPrefixOf (a :: rest) then
        [] :: splitFrom separator (separator.length - 1) rest
      else
        match splitFrom separator 0 rest with
        | part :: parts => (a :: part) :: parts
        | [] => [[a]]

theorem splitFrom_of_length_lt {α : Type} [BEq α] [LawfulBEq α] (separator list : List α)
    (h : list.length < separator.length) : splitFrom separator 0 list = [list] := by
  induction list with
  | nil => rfl
  | cons a rest ih =>
    have hp : ¬ separator.isPrefixOf (a :: rest) = true := fun hp => by
      have := (List.isPrefixOf_iff_prefix.mp hp).length_le
      omega
    have hrest : rest.length < separator.length := by
      rw [List.length_cons] at h
      omega
    rw [splitFrom, if_neg hp, ih hrest]

def splitAt (separator text : String) : List String :=
  if text.length < separator.length then [text]
  else (splitFrom separator.toList 0 text.toList).map String.ofList

theorem splitAt_eq (separator text : String) :
    splitAt separator text = (splitFrom separator.toList 0 text.toList).map String.ofList := by
  unfold splitAt
  split
  · next h =>
    rw [splitFrom_of_length_lt _ _ (by rwa [String.length_toList, String.length_toList])]
    rw [List.map_singleton, String.ofList_toList]
  · rfl

def indexOf? {α : Type} [BEq α] (needle : List α) : List α → Option Nat
  | [] => if needle.isEmpty then some 0 else none
  | a :: rest =>
    if needle.isPrefixOf (a :: rest) then some 0 else (indexOf? needle rest).map (· + 1)

end ScriptShell.Text
