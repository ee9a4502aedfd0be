import Resumption.Action

/-!
# Expressions

* `Expr` : expressions over numbered variables, which may log, tick and panic;
* `Expr.eval` : the action of computing an expression's value, arguments from left to right.

Variable `0` is the innermost one. An expression is finite and has no loops, so computing it always
ends.
-/

namespace Resumption.Script

/-- The values of the variables, innermost first. -/
abbrev Env := List Value

inductive Expr where
  | lit (v : Value)
  /-- The value of a variable, or nothing if there are not so many. -/
  | var (index : Nat)
  | list (items : List Expr)
  /-- The integer a value counts as. -/
  | int (e : Expr)
  /-- The text a value stands for. -/
  | str (e : Expr)
  | add (a b : Expr)
  | sub (a b : Expr)
  | mul (a b : Expr)
  /-- The remainder that is never negative; a zero divisor panics. -/
  | mod (a b : Expr)
  | len (e : Expr)
  /-- The texts one after the other. -/
  | cat (parts : List Expr)
  /-- The text with its ASCII letters in upper case. -/
  | upper (e : Expr)
  /-- The texts of a list's elements, separated; of any other value its text alone. -/
  | join (e separator : Expr)
  /-- The element of a list at an index. -/
  | nth (e index : Expr)
  /-- A list from its last element to its first. -/
  | rev (e : Expr)
  | lt (a b : Expr)
  | eq (a b : Expr)
  /-- One of two expressions, of which only that one is computed. -/
  | cond (test yes no : Expr)
  /-- Logs the value and gives it. -/
  | log (tag : String) (e : Expr)
  | tick
  /-- Panics with the value's text. -/
  | panic (e : Expr)
  deriving Inhabited

namespace Expr

/-- Sums, differences and products wrap around at 64 bits. -/
def arithmetic (op : Int64 → Int64 → Int64) (a b : Value) : Value :=
  .int (op a.size b.size)

/-- The remainder of a division, between zero and the divisor's magnitude. -/
def remainder (a b : Value) : Action Value :=
  if b.size = 0 then Action.panic "division by zero"
  else pure (.int (Int64.ofInt (a.size.toInt % b.size.toInt)))

/-- The element of a list at an index, or nothing if the index is not one of the list's. -/
def element (items : List Value) (index : Value) : Value :=
  let i := index.size.toInt
  if i < 0 then .null else items.getD i.toNat .null

mutual

def eval (env : Env) : Expr → Action Value
  | lit v => pure v
  | var index => pure (env.getD index .null)
  | list items => .list <$> evalAll env items
  | int e => (fun v => .int v.size) <$> eval env e
  | str e => (fun v => .str v.text) <$> eval env e
  | add a b => do return arithmetic (· + ·) (← eval env a) (← eval env b)
  | sub a b => do return arithmetic (· - ·) (← eval env a) (← eval env b)
  | mul a b => do return arithmetic (· * ·) (← eval env a) (← eval env b)
  | mod a b => do
    let x ← eval env a
    let y ← eval env b
    remainder x y
  | len e => (fun v => .int v.length) <$> eval env e
  | cat parts => (fun vs => .str (String.join (vs.map Value.text))) <$> evalAll env parts
  | upper e => (fun v => .str (String.ofList (v.text.toList.map Char.toUpper))) <$> eval env e
  | join e separator => do
    match ← eval env e with
    | .list items =>
      let sep ← eval env separator
      return .str (sep.text.intercalate (items.map Value.text))
    | v => return .str v.text
  | nth e index => do
    match ← eval env e with
    | .list items => return element items (← eval env index)
    | _ => return .null
  | rev e => do
    match ← eval env e with
    | .list items => return .list items.reverse
    | v => return v
  | lt a b => do
    let x ← eval env a
    let y ← eval env b
    return .bool (x.isBefore y)
  | eq a b => do
    let x ← eval env a
    let y ← eval env b
    return .bool (x = y)
  | cond test yes no => do
    let v ← eval env test
    if v.isTrue then eval env yes else eval env no
  | log tag e => do
    let v ← eval env e
    Action.log tag v
    return v
  | tick => (fun count => .int (Int64.ofNat count)) <$> Action.tick
  | panic e => do
    let v ← eval env e
    Action.panic v.text

def evalAll (env : Env) : List Expr → Action (List Value)
  | [] => pure []
  | e :: rest => do
    let v ← eval env e
    let vs ← evalAll env rest
    return v :: vs

end

end Expr

end Resumption.Script
