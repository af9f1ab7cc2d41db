import Interlock.Syntax.Unit

/-!
# Trees by hand

Short forms for the syntax trees of small files. The nodes have the kinds, the roles and the rows
that the grammar gives them; the text of a statement is left empty, since only the text of names
and of attributes is ever read.
-/

namespace Interlock.Syntax

namespace Node

/-- A node of a given kind that starts on a given row. -/
def tree (kind : Kind) (row : Nat) (children : List Node) : Node :=
  ⟨kind, none, "", row, none, children⟩

/-- The same node in a role. -/
def playing (n : Node) (f : Field) : Node := { n with field := some f }

/-- A name. -/
def ident (row : Nat) (text : String) : Node := ⟨.identifier, none, text, row, none, []⟩

/-- An attribute of an object. -/
def dot (object : Node) (attr : String) : Node where
  kind := .attr
  field := none
  text := object.text ++ "." ++ attr
  row := object.row
  flaw := none
  children := [object.playing .object, (ident object.row attr).playing .attr]

/-- The expression `value[index]`, or with several indices. -/
def item (value : Node) (indices : List Node) : Node :=
  tree .subscript value.row (value.playing .value :: indices.map (playing · .subscript))

/-- The expression `object.method(arguments)`. -/
def send (object : Node) (method : String) (arguments : List Node) : Node :=
  tree .call object.row
    [(object.dot method).playing .function,
      (tree (.other "argument_list") object.row arguments).playing .arguments]

/-- The expression `lambda name=value: body`. -/
def lambdaWith (name value body : Node) : Node :=
  tree .lambda name.row
    [(tree (.other "lambda_parameters") name.row
        [tree .defaultParameter name.row [name.playing .name, value.playing .value]]).playing
        .parameters,
      body.playing .body]

/-- A block, given its statements. -/
def blockOf (body : List Node) : Node := tree .block ((body.head?.map row).getD 0) body

/-- The statement `object.method()`. -/
def invoke (object : Node) (method : String) : Node :=
  tree .expressionStatement object.row
    [tree .call object.row
      [(object.dot method).playing .function,
        (tree (.other "argument_list") object.row []).playing .arguments]]

/-- The statement `object.method(argument)`. -/
def invokeWith (object : Node) (method : String) (argument : Node) : Node :=
  tree .expressionStatement object.row
    [tree .call object.row
      [(object.dot method).playing .function,
        (tree (.other "argument_list") object.row [argument]).playing .arguments]]

/-- The statement `name()`. -/
def call (name : Node) : Node :=
  tree .expressionStatement name.row
    [tree .call name.row
      [name.playing .function, (tree (.other "argument_list") name.row []).playing .arguments]]

/-- The statement `target = 0`. -/
def assign (target : Node) : Node :=
  tree .expressionStatement target.row
    [tree .assignment target.row
      [target.playing .left, (tree .integer target.row []).playing .right]]

/-- The statement `target = maker()`. -/
def construct (target : Node) (maker : String) : Node :=
  tree .expressionStatement target.row
    [tree .assignment target.row
      [target.playing .left,
        (tree .call target.row
          [(ident target.row maker).playing .function,
            (tree (.other "argument_list") target.row []).playing .arguments]).playing .right]]

/-- A `with` statement, given its items. -/
def withAll (row : Nat) (contexts : List Node) (body : List Node) : Node :=
  tree .withStatement row
    [tree (.other "with_clause") row
        (contexts.map fun context => tree .withItem context.row [context.playing .value]),
      (blockOf body).playing .body]

/-- A `with` statement with one item. -/
def withOn (context : Node) (body : List Node) : Node := withAll context.row [context] body

/-- The item `value as name` of a `with` statement. -/
def aliased (value : Node) (name : String) : Node :=
  tree .asPattern value.row
    [value, tree (.other "as_pattern_target") value.row [ident value.row name]]

/-- An `if` statement without `else`. -/
def ifOn (condition : Node) (body : List Node) : Node :=
  tree .ifStatement condition.row [condition, blockOf body]

/-- An `if` statement with an `else`. -/
def ifElse (condition : Node) (body other : List Node) : Node :=
  tree .ifStatement condition.row
    [condition, blockOf body,
      (tree .elseClause ((other.head?.map row).getD 0 - 1)
        [(blockOf other).playing .body]).playing .alternative]

/-- A `for` statement. -/
def forOn (target range : Node) (body : List Node) : Node :=
  tree (.other "for_statement") target.row
    [target.playing .left, range.playing .right, (blockOf body).playing .body]

/-- The statement `import name`, given the name as it is written and its segments. -/
def importOf (row : Nat) (name : String) (segments : List String) : Node :=
  tree .importStatement row
    [⟨.dottedName, some .name, name, row, none, segments.map (ident row)⟩]

/-- The statement that does nothing. -/
def pass (row : Nat) : Node := tree .passStatement row []

/-- A `try` statement with one handler. -/
def tryExcept (row : Nat) (body : List Node) (caught : Node) (handler : List Node) : Node :=
  tree .tryStatement row
    [(blockOf body).playing .body,
      tree (.other "except_clause") caught.row [caught.playing .value, blockOf handler]]

/-- A `try` statement with a `finally`. -/
def tryFinally (row : Nat) (body final : List Node) : Node :=
  tree .tryStatement row
    [(blockOf body).playing .body,
      tree .finallyClause ((final.head?.map Node.row).getD 0 - 1) [blockOf final]]

/-- The definition of a function with plain parameters. -/
def function (name : Node) (parameters : List String) (body : List Node) : Node :=
  tree .functionDefinition name.row
    [name.playing .name,
      (tree (.other "parameters") name.row (parameters.map (ident name.row))).playing .parameters,
      (blockOf body).playing .body]

/-- The definition of a class without bases. -/
def classOf (name : Node) (body : List Node) : Node :=
  tree .classDefinition name.row [name.playing .name, (blockOf body).playing .body]

/-- A definition with one decorator. -/
def decorated (decorator definition : Node) : Node :=
  tree .decoratedDefinition decorator.row
    [tree .decorator decorator.row [decorator], definition.playing .definition]

end Node

/-- A file, given its statements. -/
def SourceUnit.ofStatements (path : String) (body : List Node) : SourceUnit where
  path
  source := ""
  tree := .tree .module 0 body

end Interlock.Syntax
