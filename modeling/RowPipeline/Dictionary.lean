/-!
Finite maps as lists of entries with ascending keys. A key has one entry, and every list of
entries that assigns the same values to the same keys becomes the same dictionary.
-/

namespace RowPipeline

/-- Entries in ascending order of their keys. -/
abbrev Dictionary (κ α : Type) := List (κ × α)

namespace Dictionary

variable {κ α : Type} [Ord κ]

def alter (key : κ) (change : Option α → α) : Dictionary κ α → Dictionary κ α
  | [] => [(key, change none)]
  | (other, value) :: rest =>
    match compare key other with
    | .lt => (key, change none) :: (other, value) :: rest
    | .eq => (other, change (some value)) :: rest
    | .gt => (other, value) :: alter key change rest

def insert (key : κ) (value : α) (entries : Dictionary κ α) : Dictionary κ α :=
  alter key (fun _ => value) entries

def get? (key : κ) : Dictionary κ α → Option α
  | [] => none
  | (other, value) :: rest => if compare key other == .eq then some value else get? key rest

def contains (key : κ) (entries : Dictionary κ α) : Bool := (get? key entries).isSome

def erase (key : κ) (entries : Dictionary κ α) : Dictionary κ α :=
  entries.filter fun (other, _) => compare key other != .eq

/-- Adds entries one after the other; of several with one key the last stays. -/
def extend (entries : Dictionary κ α) (additions : List (κ × α)) : Dictionary κ α :=
  additions.foldl (fun entries (key, value) => entries.insert key value) entries

def ofList (entries : List (κ × α)) : Dictionary κ α := extend [] entries

def keys (entries : Dictionary κ α) : List κ := entries.map (·.1)

end Dictionary

end RowPipeline
