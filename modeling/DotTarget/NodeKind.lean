set_option autoImplicit false

/-! # Node kinds

The kinds of Python syntax nodes that a completion can wrap. A node of any other kind is walked
through when a target is looked for, but is never a target itself. -/

namespace DotTarget

/-- A kind of syntax node that can be a completion target. -/
inductive NodeKind where
  | expressionStatement
  | keywordArgument
  | assignment
  | identifier
  | string
  | concatenatedString
  | integer
  | float
  | trueLiteral
  | falseLiteral
  | noneLiteral
  | call
  | attribute
  | list
  | set
  | dictionary
  | tuple
  | parenthesizedExpression
  | subscript
  | binaryOperator
  | unaryOperator
  | listComprehension
  | dictionaryComprehension
  | setComprehension
  | generatorExpression
  deriving DecidableEq, Repr

namespace NodeKind

/-- All kinds, in the order in which they are listed. -/
def all : List NodeKind :=
  [.expressionStatement, .keywordArgument, .assignment, .identifier, .string,
   .concatenatedString, .integer, .float, .trueLiteral, .falseLiteral, .noneLiteral, .call,
   .attribute, .list, .set, .dictionary, .tuple, .parenthesizedExpression, .subscript,
   .binaryOperator, .unaryOperator, .listComprehension, .dictionaryComprehension,
   .setComprehension, .generatorExpression]

/-- The grammar's name of a kind. -/
def name : NodeKind → String
  | .expressionStatement => "expression_statement"
  | .keywordArgument => "keyword_argument"
  | .assignment => "assignment"
  | .identifier => "identifier"
  | .string => "string"
  | .concatenatedString => "concatenated_string"
  | .integer => "integer"
  | .float => "float"
  | .trueLiteral => "true"
  | .falseLiteral => "false"
  | .noneLiteral => "none"
  | .call => "call"
  | .attribute => "attribute"
  | .list => "list"
  | .set => "set"
  | .dictionary => "dictionary"
  | .tuple => "tuple"
  | .parenthesizedExpression => "parenthesized_expression"
  | .subscript => "subscript"
  | .binaryOperator => "binary_operator"
  | .unaryOperator => "unary_operator"
  | .listComprehension => "list_comprehension"
  | .dictionaryComprehension => "dictionary_comprehension"
  | .setComprehension => "set_comprehension"
  | .generatorExpression => "generator_expression"

/-- The kind with a given grammar name. -/
def ofName? (name : String) : Option NodeKind :=
  all.find? fun kind => kind.name = name

theorem mem_all (kind : NodeKind) : kind ∈ all := by
  cases kind <;> decide

theorem ofName?_name (kind : NodeKind) : ofName? kind.name = some kind := by
  cases kind <;> decide

theorem name_of_ofName? {name : String} {kind : NodeKind} (h : ofName? name = some kind) :
    kind.name = name := by
  simpa using List.find?_some h

end NodeKind

end DotTarget
