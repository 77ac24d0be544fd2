import BrokerPolicy.Field.Value
import BrokerPolicy.Numeral.Layout
import BrokerPolicy.Text.Quoted

set_option autoImplicit false

/-!
Two texts of a field value: the one shown to people, with strings as they are, and the structural
one, which names the kind of every part.
-/

namespace BrokerPolicy.FieldValue

open Text (bracketed braced tagged)

mutual

def display : FieldValue → String
  | .bool b => toString b
  | .int i => toString i.toInt
  | .float x => Binary64.plain.write x
  | .string s => s
  | .array items => bracketed (displayItems items)
  | .table entries => braced (displayEntries entries)

def displayItems : List FieldValue → List String
  | [] => []
  | v :: rest => display v :: displayItems rest

def displayEntries : List (String × FieldValue) → List String
  | [] => []
  | (name, v) :: rest => (name ++ ": " ++ display v) :: displayEntries rest

end

mutual

def structural : FieldValue → String
  | .bool b => tagged "Bool" (toString b)
  | .int i => tagged "Int" (toString i.toInt)
  | .float x => tagged "Float" (Binary64.structural.write x)
  | .string s => tagged "String" (Text.structuralQuoted s)
  | .array items => tagged "Array" (bracketed (structuralItems items))
  | .table entries => tagged "Table" (braced (structuralEntries entries))

def structuralItems : List FieldValue → List String
  | [] => []
  | v :: rest => structural v :: structuralItems rest

def structuralEntries : List (String × FieldValue) → List String
  | [] => []
  | (name, v) :: rest =>
    (Text.structuralQuoted name ++ ": " ++ structural v) :: structuralEntries rest

end

def structuralTable (t : FieldTable) : String := braced (structuralEntries t)

end BrokerPolicy.FieldValue
