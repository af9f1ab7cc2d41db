/-!
# Kinds of syntax nodes

A syntax tree of a Python file labels each node with a kind and, below its parent, with the role
(`Field`) that it plays there. The kinds on which some rule of the analysis depends are
constructors of `Kind`; every other kind keeps its name in `Kind.other`.

* `Kind.ofName` reads a label, `Kind.name` writes it back (`Kind.name_ofName`).
* `Kind.isClause` tells the parts of a compound statement that hold further branches.
-/

namespace Interlock.Syntax

/-- The label of a syntax node. -/
inductive Kind where
  /-- The root of a well-formed file. -/
  | module
  | block
  | comment
  | identifier
  | integer
  | float
  | attr
  | subscript
  | call
  | lambda
  | assignment
  | augmentedAssignment
  | expressionStatement
  | deleteStatement
  | withStatement
  | withItem
  | asPattern
  | tryStatement
  | elseClause
  | finallyClause
  | ifStatement
  | functionDefinition
  | decoratedDefinition
  | decorator
  | classDefinition
  | importStatement
  | importFromStatement
  | futureImportStatement
  | globalStatement
  | nonlocalStatement
  | passStatement
  | breakStatement
  | continueStatement
  | returnStatement
  | raiseStatement
  | assertStatement
  | printStatement
  | execStatement
  | typeAliasStatement
  | parenthesizedExpression
  | patternList
  | tuplePattern
  | listPattern
  | tuple
  | list
  | expressionList
  | listSplatPattern
  | listSplat
  | typedParameter
  | defaultParameter
  | typedDefaultParameter
  | aliasedImport
  | dottedName
  /-- A kind that no rule singles out. -/
  | other (name : String)
  deriving DecidableEq, Repr, Inhabited

namespace Kind

/-- The label as it is written in a tree. -/
def name : Kind → String
  | module => "module"
  | block => "block"
  | comment => "comment"
  | identifier => "identifier"
  | integer => "integer"
  | float => "float"
  | attr => "attribute"
  | subscript => "subscript"
  | call => "call"
  | lambda => "lambda"
  | assignment => "assignment"
  | augmentedAssignment => "augmented_assignment"
  | expressionStatement => "expression_statement"
  | deleteStatement => "delete_statement"
  | withStatement => "with_statement"
  | withItem => "with_item"
  | asPattern => "as_pattern"
  | tryStatement => "try_statement"
  | elseClause => "else_clause"
  | finallyClause => "finally_clause"
  | ifStatement => "if_statement"
  | functionDefinition => "function_definition"
  | decoratedDefinition => "decorated_definition"
  | decorator => "decorator"
  | classDefinition => "class_definition"
  | importStatement => "import_statement"
  | importFromStatement => "import_from_statement"
  | futureImportStatement => "future_import_statement"
  | globalStatement => "global_statement"
  | nonlocalStatement => "nonlocal_statement"
  | passStatement => "pass_statement"
  | breakStatement => "break_statement"
  | continueStatement => "continue_statement"
  | returnStatement => "return_statement"
  | raiseStatement => "raise_statement"
  | assertStatement => "assert_statement"
  | printStatement => "print_statement"
  | execStatement => "exec_statement"
  | typeAliasStatement => "type_alias_statement"
  | parenthesizedExpression => "parenthesized_expression"
  | patternList => "pattern_list"
  | tuplePattern => "tuple_pattern"
  | listPattern => "list_pattern"
  | tuple => "tuple"
  | list => "list"
  | expressionList => "expression_list"
  | listSplatPattern => "list_splat_pattern"
  | listSplat => "list_splat"
  | typedParameter => "typed_parameter"
  | defaultParameter => "default_parameter"
  | typedDefaultParameter => "typed_default_parameter"
  | aliasedImport => "aliased_import"
  | dottedName => "dotted_name"
  | other name => name

/-- The kinds that have a constructor of their own. -/
def known : List Kind :=
  [module, block, comment, identifier, integer, float, attr, subscript, call, lambda,
    assignment, augmentedAssignment, expressionStatement, deleteStatement, withStatement, withItem,
    asPattern, tryStatement, elseClause, finallyClause, ifStatement, functionDefinition,
    decoratedDefinition, decorator, classDefinition, importStatement, importFromStatement,
    futureImportStatement, globalStatement, nonlocalStatement, passStatement, breakStatement,
    continueStatement, returnStatement, raiseStatement, assertStatement, printStatement,
    execStatement, typeAliasStatement, parenthesizedExpression, patternList, tuplePattern,
    listPattern, tuple, list, expressionList, listSplatPattern, listSplat, typedParameter,
    defaultParameter, typedDefaultParameter, aliasedImport, dottedName]

/-- The kind that a label names. -/
def ofName (label : String) : Kind :=
  (known.find? fun k => k.name = label).getD (other label)

/-- Reading a label keeps its text. -/
theorem name_ofName (label : String) : (ofName label).name = label := by
  unfold ofName
  cases h : known.find? fun k => k.name = label with
  | none => rfl
  | some k => simpa using List.find?_some h

/-- The parts of a compound statement whose blocks are branches of it (`elif`, `except`, `case`,
`else` and the like). -/
def isClause (kind : Kind) : Bool :=
  "_clause".toList.isSuffixOf kind.name.toList

end Kind

/-- The role of a node below its parent. -/
inductive Field where
  | alternative
  | arguments
  | attr
  | body
  | definition
  | function
  | left
  | moduleName
  | name
  | object
  | parameters
  | right
  | subscript
  | value
  deriving DecidableEq, Repr, Inhabited

/-- The role that a label names, if any rule asks for it. -/
def Field.ofName? : String → Option Field
  | "alternative" => some alternative
  | "arguments" => some arguments
  | "attribute" => some attr
  | "body" => some body
  | "definition" => some definition
  | "function" => some function
  | "left" => some left
  | "module_name" => some moduleName
  | "name" => some name
  | "object" => some object
  | "parameters" => some parameters
  | "right" => some right
  | "subscript" => some subscript
  | "value" => some value
  | _ => none

/-- What is wrong with a node of a file that could not be read in full. -/
inductive Flaw where
  /-- A piece of text that fits no rule of the grammar. -/
  | error
  /-- A node that the grammar requires and the text lacks. -/
  | missing
  /-- A required token, such as a bracket, that the text lacks. -/
  | missingToken
  deriving DecidableEq, Repr, Inhabited

end Interlock.Syntax
