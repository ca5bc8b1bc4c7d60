/-! # Values of settings

What a settings file or an environment variable holds before anybody asks for an option: null,
truth values, numbers, texts, lists and tables. A table holds each name once. Merging two values
keeps the later one, except that tables are merged name by name.
-/

namespace SpnegoRealm.Settings

/-- A value of unknown type. -/
inductive Value where
  | null
  | bool (value : Bool)
  | integer (value : Int)
  /-- A number that is not written as an integer; no option takes one. -/
  | real
  | text (value : String)
  | list (items : List Value)
  | table (fields : List (String × Value))
  deriving Inhabited

namespace Value

/-- Put a value under a name, in place of the one that is there. -/
def setField (name : String) (value : Value) :
    List (String × Value) → List (String × Value)
  | [] => [(name, value)]
  | field :: rest =>
    if field.1 = name then (name, value) :: rest else field :: setField name value rest

/-- The table with these fields, of which the last with a name counts. -/
def ofFields (fields : List (String × Value)) : Value :=
  .table (fields.foldl (fun table field => setField field.1 field.2 table) [])

/-- The table in which a path of names leads to a value. -/
def atPath (path : List String) (value : Value) : Value :=
  path.foldr (fun name inner => .table [(name, inner)]) value

mutual

/-- An earlier value with a later one laid over it. -/
def laidOver (earlier : Value) : Value → Value
  | .table later =>
    match earlier with
    | .table fields => .table (fieldsOver fields later)
    | _ => .table later
  | later => later

/-- The fields of a table laid over those of another one. -/
def fieldsOver (earlier : List (String × Value)) :
    List (String × Value) → List (String × Value)
  | [] => earlier
  | field :: rest => fieldsOver (fieldOver earlier field) rest

/-- One field laid over those of a table. -/
def fieldOver (earlier : List (String × Value)) : String × Value → List (String × Value)
  | (name, later) =>
    match earlier.lookup name with
    | some value => setField name (laidOver value later) earlier
    | none => setField name later earlier

end

/-- Some values, each laid over those before it. -/
def overlay (values : List Value) : Value :=
  values.foldl laidOver (.table [])

end Value

end SpnegoRealm.Settings
