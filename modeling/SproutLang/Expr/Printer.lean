import SproutLang.Expr
import SproutLang.Text.Basic
import SproutLang.Text.Quoted

/-!
Expressions and values as text. `render` writes source code, in which a function stands as its
literal; names are written as the given `spell` has them. `describe` is the form in which messages
show a value, and in which the values of a host stand in rendered code. A stray has no source form:
`firstStray?` finds the first one in the order of the text, and `render?` refuses it.
-/

namespace SproutLang

mutual

/-- The value as messages show it. -/
def Value.describe : Value → String
  | .void => "Void"
  | .falsity => "FALSE"
  | .int n => toString n
  | .function params body =>
      "Function(params=" ++ toString params.length ++ ", body=" ++ toString body.length ++ ")"
  | .native _ name => "InbuiltFunc(" ++ name ++ ")"
  | .bool b => if b then "True" else "False"
  | .text s => Text.quotedString s
  | .absent => "None"
  | .list items => "[" ++ Value.describeItems items ++ "]"

def Value.describeItems : List Value → String
  | [] => ""
  | v :: vs => v.describe ++ Value.describeMore vs

def Value.describeMore : List Value → String
  | [] => ""
  | v :: vs => ", " ++ v.describe ++ Value.describeMore vs

end

mutual

/-- The value as source code. -/
def Value.render (spell : Key → String) : Value → String
  | .falsity => "#f"
  | .void => "#void"
  | .int n => toString n
  | .function params body =>
      "(\\(" ++ Text.joinWith " " (params.map spell) ++ ")" ++ Expr.renderEach spell body ++ ")"
  | .native _ name => "<inbuilt " ++ name ++ ">"
  | .bool b => (Value.bool b).describe
  | .text s => (Value.text s).describe
  | .absent => Value.absent.describe
  | .list items => (Value.list items).describe

def Expr.render (spell : Key → String) : Expr → String
  | .literal v => v.render spell
  | .ref k => spell k
  | .define k value => "(= " ++ spell k ++ " " ++ value.render spell ++ ")"
  | .call callee args => "(" ++ callee.render spell ++ Expr.renderEach spell args ++ ")"
  | .stray v => v.describe

def Expr.renderEach (spell : Key → String) : List Expr → String
  | [] => ""
  | e :: es => " " ++ e.render spell ++ Expr.renderEach spell es

end

mutual

/-- The first stray in the source form of a value. -/
def Value.firstStray? : Value → Option Value
  | .function _ body => Expr.firstStrayIn? body
  | _ => none

def Expr.firstStray? : Expr → Option Value
  | .literal v => v.firstStray?
  | .ref _ => none
  | .define _ value => value.firstStray?
  | .call callee args =>
      match callee.firstStray? with
      | some v => some v
      | none => Expr.firstStrayIn? args
  | .stray v => some v

def Expr.firstStrayIn? : List Expr → Option Value
  | [] => none
  | e :: es =>
      match e.firstStray? with
      | some v => some v
      | none => Expr.firstStrayIn? es

end

mutual

def Value.height : Value → Nat
  | .function _ body => Expr.heightOf body + 1
  | _ => 0

def Expr.height : Expr → Nat
  | .literal v => v.height
  | .ref _ => 0
  | .define _ value => value.height + 1
  | .call callee args => max callee.height (Expr.heightOf args) + 1
  | .stray _ => 0

def Expr.heightOf : List Expr → Nat
  | [] => 0
  | e :: es => max e.height (Expr.heightOf es)

end

inductive PrintFault
  /-- a value stands where an expression should -/
  | stray (v : Value)
  /-- it is nested deeper than is allowed -/
  | tooDeep

def PrintFault.message : PrintFault → String
  | .stray v => "Not an AST node: " ++ v.describe
  | .tooDeep => "maximum recursion depth exceeded"

/-- What keeps an expression from having a source form nested at most `depth` deep. -/
def Expr.printFault? (depth : Nat) (e : Expr) : Option PrintFault :=
  if depth < e.height then some .tooDeep else e.firstStray?.map .stray

def Value.printFault? (depth : Nat) (v : Value) : Option PrintFault :=
  if depth < v.height then some .tooDeep else v.firstStray?.map .stray

def Expr.render? (depth : Nat) (spell : Key → String) (e : Expr) : Except PrintFault String :=
  match e.printFault? depth with
  | some fault => .error fault
  | none => .ok (e.render spell)

def Value.render? (depth : Nat) (spell : Key → String) (v : Value) : Except PrintFault String :=
  match v.printFault? depth with
  | some fault => .error fault
  | none => .ok (v.render spell)

end SproutLang
