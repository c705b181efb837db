import TestScout.Toml.Value

/-!
# Tables of TOML

A table is defined once: by a header, or by the dotted keys that lead into it, or as a value. A
header may come after headers of tables inside it. What a header or a key would define a second time
is a fault of the whole text.
-/

namespace TestScout.Toml

/-! ## 1. Tables -/

/-- How a table came to be. -/
inductive Origin where
  /-- By the header of a table inside it. -/
  | inner
  /-- By a header of its own. -/
  | header
  /-- By a dotted key. -/
  | dotted
deriving DecidableEq, Repr

/-- What a key stands for while a text is read. -/
inductive Entry where
  | value (value : Value)
  | table (origin : Origin) (members : List (String × Entry))
  /-- A list of tables, of which the last one is still open. -/
  | tables (closed : Nat) (last : List (String × Entry))
deriving Repr

/-- The members of a table, in the order in which they came. -/
abbrev Members := List (String × Entry)

/-- The members with another entry under a key. -/
def put (key : String) (entry : Entry) : Members → Members
  | [] => [(key, entry)]
  | old :: rest => if old.1 = key then (key, entry) :: rest else old :: put key entry rest

/-! ## 2. Keys and headers -/

/-- The members with a value under a dotted key. -/
def define (value : Value) : List String → Members → Option Members
  | [], _ => none
  | [key], members =>
    match members.lookup key with
    | none => some (put key (.value value) members)
    | some _ => none
  | key :: rest, members =>
    match members.lookup key with
    | none => (define value rest []).map fun inner => put key (.table .dotted inner) members
    | some (.table .dotted inner) =>
      (define value rest inner).map fun inner => put key (.table .dotted inner) members
    | some _ => none

/-- The members with a table under a key made by a header, `many` telling whether it is one of a
    list of tables. -/
def open? (many : Bool) (key : String) (members : Members) : Option Members :=
  match members.lookup key, many with
  | none, false => some (put key (.table .header []) members)
  | none, true => some (put key (.tables 0 []) members)
  | some (.table .inner inner), false => some (put key (.table .header inner) members)
  | some (.tables closed _), true => some (put key (.tables (closed + 1) []) members)
  | _, _ => none

/-- The members with the table that a header opens. -/
def openPath (many : Bool) : List String → Members → Option Members
  | [], _ => none
  | [key], members => open? many key members
  | key :: rest, members =>
    match members.lookup key with
    | none => (openPath many rest []).map fun inner => put key (.table .inner inner) members
    | some (.table origin inner) =>
      (openPath many rest inner).map fun inner => put key (.table origin inner) members
    | some (.tables closed last) =>
      (openPath many rest last).map fun last => put key (.tables closed last) members
    | some (.value _) => none

/-- The members with a value under a dotted key in the table at a path, which is open. -/
def defineIn (key : List String) (value : Value) : List String → Members → Option Members
  | [], members => define value key members
  | name :: path, members =>
    match members.lookup name with
    | some (.table origin inner) =>
      (defineIn key value path inner).map fun inner => put name (.table origin inner) members
    | some (.tables closed last) =>
      (defineIn key value path last).map fun last => put name (.tables closed last) members
    | _ => none

/-! ## 3. Values -/

/-- The value that an entry stands for. -/
def Entry.toValue : Entry → Value
  | .value given => given
  | .table _ _ => .table
  | .tables closed _ => .list (List.replicate (closed + 1) .table)

end TestScout.Toml
