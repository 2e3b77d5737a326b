import ClientRecords.Token.Basic
/-!
What can go wrong between a statement and the document, and the text that says so.
-/

namespace ClientRecords

/-- What a statement that changes a table lacks or has in the wrong form. -/
inductive Defect where
  | insertModifier
  | missingInto
  | missingTable
  | missingColumns
  | badColumns
  | missingValues
  | missingValuesList
  | missingSet
  | emptySet
  | badAssignment
  | badValue
  | unsupportedExpression
  | missingFrom
  | missingWhere
  deriving DecidableEq

inductive StoreError where
  | unknownTable (name : String)
  | openQuote
  | malformed (defect : Defect) (statement : List Token)
  | patternTooLarge (pattern : String)
  | unsupportedFragment (fragment : List Token)
  | malformedDocument
  | fileAccess
  deriving DecidableEq

namespace Defect

def text : Defect → String
  | .insertModifier => "Only INSERT OR IGNORE is supported"
  | .missingInto => "Expected INTO"
  | .missingTable => "Expected a table name"
  | .missingColumns => "Expected a column list"
  | .badColumns => "Bad column list"
  | .missingValues => "Expected VALUES"
  | .missingValuesList => "Expected a VALUES list"
  | .missingSet => "Expected SET"
  | .emptySet => "Empty SET clause"
  | .badAssignment => "Bad SET assignment"
  | .badValue => "Bad SET value"
  | .unsupportedExpression => "Unsupported SET expression"
  | .missingFrom => "Expected FROM"
  | .missingWhere => "Expected WHERE"

end Defect

namespace StoreError

/-- The text of an error. A defect is shown with the statement, a fragment as it was read. -/
def message : StoreError → String
  | .unknownTable name => "Unknown table: " ++ name
  | .openQuote => "Malformed statement: Parse error"
  | .malformed defect statement =>
    "Malformed statement: " ++ defect.text ++ ": " ++ Token.render statement
  | .patternTooLarge pattern => "Malformed statement: Bad LIKE pattern " ++ pattern
  | .unsupportedFragment fragment => "Unsupported WHERE fragment: " ++ Token.render fragment
  | .malformedDocument => "Malformed document"
  | .fileAccess => "I/O error"

end StoreError
end ClientRecords
