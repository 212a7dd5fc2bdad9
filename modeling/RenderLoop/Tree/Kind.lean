/-!
# Kinds and fields of parse-tree nodes

A parse tree of a TypeScript or JSX source labels every node with a kind, and
a child may carry the field it fills in its parent. The analysis only ever
tests for the kinds and fields named here; all others pass through it under
`other`, spelled as the grammar spells them.

Two kinds are shared by a phrase and by a keyword: `function` is the kind of
the keyword token as well as of a function literal in older grammars, and
`async` is only ever a keyword.
-/

namespace RenderLoop

/-- The kind of a parse-tree node. -/
inductive Kind where
  | arrowFunction
  | functionExpression
  | function
  | generatorFunction
  | functionDeclaration
  | generatorFunctionDeclaration
  | methodDefinition
  | parenthesized
  | asExpression
  | satisfiesExpression
  | nonNull
  | typeAssertion
  | requiredParameter
  | optionalParameter
  | comment
  | identifier
  | shorthandProperty
  | shorthandPattern
  | member
  | subscript
  | this
  | pairPattern
  | assignmentPattern
  | objectAssignmentPattern
  | arrayPattern
  | objectPattern
  | restPattern
  | true
  | false
  | null
  | undefined
  | number
  | string
  | templateString
  | templateSubstitution
  | array
  | object
  | pair
  | call
  | new
  | arguments
  | spread
  | await
  | binary
  | unary
  | ternary
  | assignment
  | declarator
  | lexicalDeclaration
  | variableDeclaration
  | block
  | returnStatement
  | ifStatement
  | switchCase
  | catchClause
  | jsxOpening
  | jsxSelfClosing
  | jsxAttribute
  | jsxExpression
  | importStatement
  | importClause
  | namespaceImport
  | namedImports
  | importSpecifier
  | exportStatement
  | exportClause
  | exportSpecifier
  | async
  | default
  | comma
  | error
  | other (name : String)
  deriving DecidableEq, Repr, Inhabited

namespace Kind

/-- The kind spelled `name` in the grammar. -/
def ofName : String → Kind
  | "arrow_function" => arrowFunction
  | "function_expression" => functionExpression
  | "function" => function
  | "generator_function" => generatorFunction
  | "function_declaration" => functionDeclaration
  | "generator_function_declaration" => generatorFunctionDeclaration
  | "method_definition" => methodDefinition
  | "parenthesized_expression" => parenthesized
  | "as_expression" => asExpression
  | "satisfies_expression" => satisfiesExpression
  | "non_null_expression" => nonNull
  | "type_assertion" => typeAssertion
  | "required_parameter" => requiredParameter
  | "optional_parameter" => optionalParameter
  | "comment" => comment
  | "identifier" => identifier
  | "shorthand_property_identifier" => shorthandProperty
  | "shorthand_property_identifier_pattern" => shorthandPattern
  | "member_expression" => member
  | "subscript_expression" => subscript
  | "this" => this
  | "pair_pattern" => pairPattern
  | "assignment_pattern" => assignmentPattern
  | "object_assignment_pattern" => objectAssignmentPattern
  | "array_pattern" => arrayPattern
  | "object_pattern" => objectPattern
  | "rest_pattern" => restPattern
  | "true" => true
  | "false" => false
  | "null" => null
  | "undefined" => undefined
  | "number" => number
  | "string" => string
  | "template_string" => templateString
  | "template_substitution" => templateSubstitution
  | "array" => array
  | "object" => object
  | "pair" => pair
  | "call_expression" => call
  | "new_expression" => new
  | "arguments" => arguments
  | "spread_element" => spread
  | "await_expression" => await
  | "binary_expression" => binary
  | "unary_expression" => unary
  | "ternary_expression" => ternary
  | "assignment_expression" => assignment
  | "variable_declarator" => declarator
  | "lexical_declaration" => lexicalDeclaration
  | "variable_declaration" => variableDeclaration
  | "statement_block" => block
  | "return_statement" => returnStatement
  | "if_statement" => ifStatement
  | "switch_case" => switchCase
  | "catch_clause" => catchClause
  | "jsx_opening_element" => jsxOpening
  | "jsx_self_closing_element" => jsxSelfClosing
  | "jsx_attribute" => jsxAttribute
  | "jsx_expression" => jsxExpression
  | "import_statement" => importStatement
  | "import_clause" => importClause
  | "namespace_import" => namespaceImport
  | "named_imports" => namedImports
  | "import_specifier" => importSpecifier
  | "export_statement" => exportStatement
  | "export_clause" => exportClause
  | "export_specifier" => exportSpecifier
  | "async" => async
  | "default" => default
  | "," => comma
  | "ERROR" => error
  | spelling => other spelling

/-- How the grammar spells a kind. -/
def name : Kind → String
  | arrowFunction => "arrow_function"
  | functionExpression => "function_expression"
  | function => "function"
  | generatorFunction => "generator_function"
  | functionDeclaration => "function_declaration"
  | generatorFunctionDeclaration => "generator_function_declaration"
  | methodDefinition => "method_definition"
  | parenthesized => "parenthesized_expression"
  | asExpression => "as_expression"
  | satisfiesExpression => "satisfies_expression"
  | nonNull => "non_null_expression"
  | typeAssertion => "type_assertion"
  | requiredParameter => "required_parameter"
  | optionalParameter => "optional_parameter"
  | comment => "comment"
  | identifier => "identifier"
  | shorthandProperty => "shorthand_property_identifier"
  | shorthandPattern => "shorthand_property_identifier_pattern"
  | member => "member_expression"
  | subscript => "subscript_expression"
  | this => "this"
  | pairPattern => "pair_pattern"
  | assignmentPattern => "assignment_pattern"
  | objectAssignmentPattern => "object_assignment_pattern"
  | arrayPattern => "array_pattern"
  | objectPattern => "object_pattern"
  | restPattern => "rest_pattern"
  | true => "true"
  | false => "false"
  | null => "null"
  | undefined => "undefined"
  | number => "number"
  | string => "string"
  | templateString => "template_string"
  | templateSubstitution => "template_substitution"
  | array => "array"
  | object => "object"
  | pair => "pair"
  | call => "call_expression"
  | new => "new_expression"
  | arguments => "arguments"
  | spread => "spread_element"
  | await => "await_expression"
  | binary => "binary_expression"
  | unary => "unary_expression"
  | ternary => "ternary_expression"
  | assignment => "assignment_expression"
  | declarator => "variable_declarator"
  | lexicalDeclaration => "lexical_declaration"
  | variableDeclaration => "variable_declaration"
  | block => "statement_block"
  | returnStatement => "return_statement"
  | ifStatement => "if_statement"
  | switchCase => "switch_case"
  | catchClause => "catch_clause"
  | jsxOpening => "jsx_opening_element"
  | jsxSelfClosing => "jsx_self_closing_element"
  | jsxAttribute => "jsx_attribute"
  | jsxExpression => "jsx_expression"
  | importStatement => "import_statement"
  | importClause => "import_clause"
  | namespaceImport => "namespace_import"
  | namedImports => "named_imports"
  | importSpecifier => "import_specifier"
  | exportStatement => "export_statement"
  | exportClause => "export_clause"
  | exportSpecifier => "export_specifier"
  | async => "async"
  | default => "default"
  | comma => ","
  | error => "ERROR"
  | other name => name

/-- A function that can stand where an expression stands. -/
def isFunctionLiteral : Kind → Bool
  | arrowFunction | functionExpression | function | generatorFunction => .true
  | _ => .false

/-- Any function: a literal, a declaration or a method. -/
def isFunction : Kind → Bool
  | functionDeclaration | generatorFunctionDeclaration | methodDefinition =>
    .true
  | kind => kind.isFunctionLiteral

/-- A declaration that names a function. -/
def isFunctionDeclaration : Kind → Bool
  | functionDeclaration | generatorFunctionDeclaration => .true
  | _ => .false

/-- Parentheses and type-level wrappers, which leave the value of an
expression alone. -/
def isWrapper : Kind → Bool
  | parenthesized | asExpression | satisfiesExpression | nonNull |
      typeAssertion => .true
  | _ => .false

/-- A call or a construction. -/
def isCall : Kind → Bool
  | call | new => .true
  | _ => .false

/-- A property access, `a.b` or `a[b]`. -/
def isAccess : Kind → Bool
  | member | subscript => .true
  | _ => .false

/-- The tag that opens an element, with or without children. -/
def isJsxTag : Kind → Bool
  | jsxOpening | jsxSelfClosing => .true
  | _ => .false

/-- The type-level wrappers around a parameter. -/
def isParameter : Kind → Bool
  | requiredParameter | optionalParameter => .true
  | _ => .false

end Kind

/-- The role a child plays in its parent. -/
inductive Field where
  | name
  | value
  | body
  | parameter
  | parameters
  | function
  | constructor
  | arguments
  | object
  | property
  | index
  | left
  | right
  | operator
  | argument
  | condition
  | consequence
  | alternative
  | source
  | aliasName
  | pattern
  | key
  | declaration
  | other (name : String)
  deriving DecidableEq, Repr, Inhabited

/-- The field spelled `name` in the grammar. -/
def Field.ofName : String → Field
  | "name" => name
  | "value" => value
  | "body" => body
  | "parameter" => parameter
  | "parameters" => parameters
  | "function" => function
  | "constructor" => constructor
  | "arguments" => arguments
  | "object" => object
  | "property" => property
  | "index" => index
  | "left" => left
  | "right" => right
  | "operator" => operator
  | "argument" => argument
  | "condition" => condition
  | "consequence" => consequence
  | "alternative" => alternative
  | "source" => source
  | "alias" => aliasName
  | "pattern" => pattern
  | "key" => key
  | "declaration" => declaration
  | spelling => other spelling

end RenderLoop
