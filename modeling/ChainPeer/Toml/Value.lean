/-!
# Values of a TOML document

Floats and date-times are recognised without being kept, since nothing reads them. A table knows
how it came about, because that decides what may still be added to it.
-/

namespace ChainPeer.Toml

/-- How a table came about: by a header of its own, on the way to a longer header, by dotted keys,
or between braces. -/
inductive Origin where
  | header
  | passed
  | dotted
  | inline
deriving DecidableEq

/-- A value. `tables` are the tables of one repeated header, the last one apart. -/
inductive Value where
  | string (s : String)
  | integer (n : Int)
  | float
  | boolean (b : Bool)
  | dateTime
  | array (items : List Value)
  | table (origin : Origin) (entries : List (String × Value))
  | tables (earlier : List (List (String × Value))) (last : List (String × Value))

namespace Value

/-- The items of an array, or the tables of a repeated header. -/
def items? : Value → Option (List Value)
  | array items => some items
  | tables earlier last => some ((earlier ++ [last]).map (table .header))
  | _ => none

end Value

def lookup? (key : String) (entries : List (String × Value)) : Option Value :=
  entries.lookup key

/-- The entries with another value at a key. `f` is given the value there, if there is one; a new
key comes last. -/
def alter (key : String) (f : Option Value → Option Value) :
    List (String × Value) → Option (List (String × Value))
  | [] => (f none).map fun v => [(key, v)]
  | (k, v) :: rest =>
    if k = key then (f (some v)).map fun v => (k, v) :: rest
    else (alter key f rest).map ((k, v) :: ·)

structure Table where
  origin : Origin
  entries : List (String × Value)

namespace Table

def toValue (t : Table) : Value := .table t.origin t.entries

/-- Changes the table at a path, and adds the tables that are missing on the way. A header passes
through the last table of a repeated header; dotted keys pass only through tables that no header
has opened. -/
def within (dotted : Bool) : List String → (Table → Option Table) → Table → Option Table
  | [], f, t => f t
  | key :: path, f, t =>
    let child : Option Value → Option Value
      | none => (within dotted path f ⟨if dotted then .dotted else .passed, []⟩).map toValue
      | some (.table origin entries) =>
        if origin = .inline ∨ dotted ∧ origin = .header then none
        else (within dotted path f ⟨origin, entries⟩).map toValue
      | some (.tables earlier last) =>
        (within dotted path f ⟨.header, last⟩).map fun t => .tables earlier t.entries
      | some _ => none
    (alter key child t.entries).map fun entries => { t with entries }

/-- Adds a value at a dotted key, where no value may be yet. -/
def add (path : List String) (key : String) (v : Value) : Table → Option Table :=
  within true path fun t =>
    if (t.origin = .dotted) = (path = []) then none
    else (alter key (fun | none => some v | some _ => none) t.entries).map fun entries =>
      { t with entries }

/-- Opens the table of a header, which no header may have opened before. -/
def openTable (path : List String) (key : String) : Table → Option Table :=
  within false path fun t =>
    (alter key (fun
      | none => some (.table .header [])
      | some (.table .passed entries) => some (.table .header entries)
      | some _ => none) t.entries).map fun entries => { t with entries }

/-- Opens one more table of a repeated header. -/
def openNext (path : List String) (key : String) : Table → Option Table :=
  within false path fun t =>
    (alter key (fun
      | none => some (.tables [] [])
      | some (.tables earlier last) => some (.tables (earlier ++ [last]) [])
      | some _ => none) t.entries).map fun entries => { t with entries }

end Table

end ChainPeer.Toml
