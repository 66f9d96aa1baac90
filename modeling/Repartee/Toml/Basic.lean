/-
  Repartee.Toml.Basic — the values of a TOML document, and its lines.

  A document is a list of headers and assignments in the order they stand; which of them may
  stand together is left to its reader. Floats and dates are not among the values.
-/

namespace Repartee.Toml

abbrev Key := List String

inductive Value where
  | text (s : String)
  | integer (n : Int)
  | boolean (b : Bool)
  | array (values : List Value)
  | table (entries : List (Key × Value))
  deriving Repr

inductive Statement where
  /-- `[key]` -/
  | table (key : Key)
  /-- `[[key]]` -/
  | tableOfArray (key : Key)
  | assign (key : Key) (value : Value)
  deriving Repr

end Repartee.Toml
