import Tenancy.Text.Integer

/-!
# Tenancy - SQL statements

The statements that the relational store issues, as trees, and their text.
Values never enter the text: each becomes a numbered placeholder, counted from
left to right, and is handed over beside it.

Main definitions:

- `Sql.Value`, `Sql.Table`: cell values, and tables with columns and key.
- `Sql.Condition`, `Sql.Selection`, `Sql.Statement`: the trees.
- `Sql.Statement.render`: the text of a statement and its values.
-/

namespace Tenancy
namespace Sql

/-- A cell of a row, or a value handed over with a statement. -/
inductive Value
  | null
  | bool (value : Bool)
  | int (value : Int)
  | text (value : String)
deriving DecidableEq, Repr, Inhabited

namespace Value

/-- The cell for an optional value. -/
def option {α : Type} (write : α → Value) : Option α → Value
  | some value => write value
  | none => .null

/-- The cell for a time; cells hold signed numbers, and a later time becomes the latest. -/
def time (seconds : Nat) : Value :=
  .int (min seconds maxSigned64)

/-- The cell for a count. -/
def count (number : Nat) : Value :=
  .int number

end Value

/-- A table with its columns in order and the columns of its key. -/
structure Table where
  name : String
  columns : List String
  key : List String
deriving DecidableEq, Repr

/-! ## Trees -/

/-- What a row must satisfy. -/
inductive Condition
  | equals (column : String) (value : Value)
  | differs (column : String) (value : Value)
  | atMost (column : String) (value : Value)
  | isNull (column : String)
  | oneOf (column : String) (values : List Value)
  /-- The column is among a column of the rows of a table that have the given values. -/
  | among (column : String) (table : Table) (selected : String) (having : List (String × Value))
  | all (conditions : List Condition)
  | any (conditions : List Condition)
deriving Inhabited

/-- A column equals a value, or is null when there is none. -/
def Condition.scope (column : String) (value : Option String) : Condition :=
  match value with
  | some value => .equals column (.text value)
  | none => .isNull column

/-- The direction of an order. -/
inductive Direction
  | ascending
  | descending
deriving DecidableEq, Repr

/-- The rows of a table that satisfy every condition, in order. -/
structure Selection where
  table : Table
  conditions : List Condition
  order : List (String × Direction)
  limit : Option Nat
  offset : Option Nat
  /-- Whether the rows stay locked until the transaction ends. -/
  locks : Bool

/-- All rows of a table that satisfy the conditions, in no particular order. -/
def Table.select (table : Table) (conditions : List Condition) : Selection :=
  { table := table, conditions := conditions, order := [], limit := none, offset := none
    locks := false }

/-- The selection in an order. -/
def Selection.orderedBy (selection : Selection) (order : List (String × Direction)) : Selection :=
  { selection with order := order }

/-- The first row of the selection. -/
def Selection.first (selection : Selection) : Selection :=
  { selection with limit := some 1 }

/-- A statement. -/
inductive Statement
  | select (selection : Selection)
  | count (selection : Selection)
  | insert (table : Table) (rows : List (List Value))
  | update (table : Table) (settings : List (String × Value)) (conditions : List Condition)
  | delete (table : Table) (conditions : List Condition)

/-! ## Text -/

/-- A piece of a statement: text, or a value that becomes a placeholder. -/
inductive Piece
  | text (text : String)
  | value (value : Value)
deriving DecidableEq, Repr

/-- Lists of pieces with a separator between them. -/
def joinPieces (separator : String) : List (List Piece) → List Piece
  | [] => []
  | [pieces] => pieces
  | pieces :: rest => pieces ++ .text separator :: joinPieces separator rest

/-- A comma-separated list of names. -/
def names (columns : List String) : Piece :=
  .text (", ".intercalate columns)

/-- A parenthesized list of values. -/
def valueTuple (values : List Value) : List Piece :=
  .text "(" :: (joinPieces ", " (values.map fun value => [.value value]) ++ [.text ")"])

/-- A column compared with a value. -/
def comparison (column operator : String) (value : Value) : List Piece :=
  [.text (column ++ " " ++ operator ++ " "), .value value]

/-- Columns that have given values. -/
def equalities (settings : List (String × Value)) (separator : String) : List Piece :=
  joinPieces separator (settings.map fun setting => comparison setting.1 "=" setting.2)

mutual

/-- The pieces of a condition; a group of two or more takes parentheses inside another group. -/
def Condition.pieces (nested : Bool) : Condition → List Piece
  | .equals column value => comparison column "=" value
  | .differs column value => comparison column "<>" value
  | .atMost column value => comparison column "<=" value
  | .isNull column => [.text (column ++ " IS NULL")]
  | .oneOf _ [] => [.value (.int 1), .text " = ", .value (.int 2)]
  | .oneOf column (value :: rest) => .text (column ++ " IN ") :: valueTuple (value :: rest)
  | .among column table selected having =>
    .text (column ++ " IN (SELECT " ++ selected ++ " FROM " ++ table.name ++ " WHERE ") ::
      (equalities having " AND " ++ [.text ")"])
  | .all [condition] => condition.pieces nested
  | .any [condition] => condition.pieces nested
  | .all conditions => enclose nested (joinPieces " AND " (piecesEach conditions))
  | .any conditions => enclose nested (joinPieces " OR " (piecesEach conditions))

/-- The pieces of each member of a group. -/
def piecesEach : List Condition → List (List Piece)
  | [] => []
  | condition :: rest => condition.pieces true :: piecesEach rest

/-- Parentheses around a nested group. -/
def enclose (nested : Bool) (pieces : List Piece) : List Piece :=
  if nested then .text "(" :: (pieces ++ [.text ")"]) else pieces

end

/-- The part that restricts rows. -/
def wherePieces : List Condition → List Piece
  | [] => []
  | conditions => .text " WHERE " :: (Condition.all conditions).pieces false

/-- The part that orders rows. -/
def orderPieces (order : List (String × Direction)) : List Piece :=
  if order.isEmpty then []
  else
    [.text (" ORDER BY " ++ ", ".intercalate (order.map fun (column, direction) =>
      match direction with
      | .ascending => column ++ " ASC"
      | .descending => column ++ " DESC"))]

/-- A part that bounds the number of rows. -/
def boundPieces (keyword : String) : Option Nat → List Piece
  | some number => [.text keyword, .value (.count number)]
  | none => []

/-- The pieces of a selection. -/
def Selection.pieces (selection : Selection) : List Piece :=
  [.text "SELECT ", names selection.table.columns, .text (" FROM " ++ selection.table.name)] ++
    wherePieces selection.conditions ++ orderPieces selection.order ++
    boundPieces " LIMIT " selection.limit ++ boundPieces " OFFSET " selection.offset ++
    (if selection.locks then [.text " FOR UPDATE"] else [])

/-- The pieces of a statement. -/
def Statement.pieces : Statement → List Piece
  | .select selection => selection.pieces
  | .count selection =>
    .text "SELECT COUNT(*) AS num_items FROM (" ::
      (selection.pieces ++ [.text ") AS sub_query"])
  | .insert table rows =>
    [.text ("INSERT INTO " ++ table.name ++ " ("), names table.columns, .text ") VALUES "] ++
      joinPieces ", " (rows.map valueTuple) ++ [.text " RETURNING ", names table.key]
  | .update table settings conditions =>
    .text ("UPDATE " ++ table.name ++ " SET ") ::
      (equalities settings ", " ++ wherePieces conditions)
  | .delete table conditions =>
    .text ("DELETE FROM " ++ table.name) :: wherePieces conditions

/-- Number the placeholders from `next` on. -/
def number (next : Nat) : List Piece → String × List Value
  | [] => ("", [])
  | .text text :: rest =>
    let (others, values) := number next rest
    (text ++ others, values)
  | .value value :: rest =>
    let (others, values) := number (next + 1) rest
    ("$" ++ toString next ++ others, value :: values)

/-- The text of a statement and the values of its placeholders. -/
def Statement.render (statement : Statement) : String × List Value :=
  number 1 statement.pieces

end Sql
end Tenancy
