import BusScript.Text.Quoted
import BusScript.Number.Decimal

/-!
# Foreign values

Something that was handed in where an action was wanted, and how the complaint shows it: texts in
quotes, lists in brackets, tables in braces.
-/

namespace BusScript.Text

/-- A value that is no action. A table has its keys and its values in one order. -/
inductive Foreign
  | nothing
  | truth (value : Bool)
  | whole (value : Int)
  | real (value : Float)
  | text (value : String)
  | list (items : List Foreign)
  | table (keys : List String) (values : List Foreign)
  deriving Inhabited

mutual

/-- A foreign value as a complaint shows it. -/
def Foreign.shown : Foreign → String
  | .nothing => "None"
  | .truth value => if value then "True" else "False"
  | .whole value => toString value
  | .real value => Number.Decimal.write value
  | .text value => quoted value
  | .list items => "[" ++ ", ".intercalate (Foreign.shownItems items) ++ "]"
  | .table keys values =>
    "\x7b" ++ ", ".intercalate (Foreign.shownEntries keys values) ++ "\x7d"

def Foreign.shownItems : List Foreign → List String
  | [] => []
  | item :: rest => item.shown :: Foreign.shownItems rest

def Foreign.shownEntries : List String → List Foreign → List String
  | key :: keys, value :: values =>
    (quoted key ++ ": " ++ value.shown) :: Foreign.shownEntries keys values
  | _, _ => []

end

end BusScript.Text
