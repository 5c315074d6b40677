/-!
# Bindings

The names bound in one place and what they are bound to, ordered by name. Names
are ordered by their characters' numbers.
-/

namespace Lugha

/-- Names with their values, in increasing order of the names. -/
abbrev Bindings (α : Type) := List (String × α)

namespace Bindings

variable {α : Type}

/-- What a name is bound to. -/
def get? (name : String) : Bindings α → Option α
  | [] => none
  | (n, v) :: rest => if n = name then some v else get? name rest

/-- Whether a name is bound. -/
def binds (name : String) (bs : Bindings α) : Bool := (get? name bs).isSome

/-- Binds a name, in place of what it was bound to before. -/
def insert (name : String) (value : α) : Bindings α → Bindings α
  | [] => [(name, value)]
  | (n, v) :: rest =>
    if n = name then (name, value) :: rest
    else if name < n then (name, value) :: (n, v) :: rest
    else (n, v) :: insert name value rest

/-- The bound names, in increasing order. -/
def names (bs : Bindings α) : List String := bs.map Prod.fst

/-- Adds the bindings of a second list to the first. -/
def union (bs cs : Bindings α) : Bindings α :=
  cs.foldl (fun all b => insert b.1 b.2 all) bs

end Bindings

end Lugha
