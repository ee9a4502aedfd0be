import Resumption.Script.Expr
import Resumption.Script.Play

/-!
# Scripts about a value of either kind

* `EitherStep` : the steps; `EitherAnswer` : their answers;
* `EitherStep.perform` : a step on the present value, which some steps replace.
-/

namespace Resumption.Script

/-- Reads or replaces the present value. Expressions have the value inside as variable `0`. -/
inductive EitherStep where
  | isLeft
  | isRight
  | left
  | right
  | getLeft
  | getRight
  | fold (onLeft onRight : Expr)
  | toExcept
  | compare (other : Either Value Value)
  | mapLeft (f : Expr)
  | mapRight (f : Expr)
  | swap
  | ofExcept (result : Except Value Value)

inductive EitherAnswer where
  | flag (b : Bool)
  | option (value? : Option Value)
  | value (v : Value)
  | result (r : Except Value Value)
  | comparison (ordering : Ordering) (greater : Either Value Value)
  /-- The value is now this one. -/
  | replaced (now : Either Value Value)

def shownEither : Either Value Value → String :=
  Either.fold (fun v => "Left(" ++ v.shown ++ ")") (fun v => "Right(" ++ v.shown ++ ")")

namespace EitherStep

def present : Interp (Either Value Value) (Either Value Value) :=
  Interp.world fun e => (e, e)

def replace (e : Either Value Value) : Interp (Either Value Value) EitherAnswer :=
  Interp.world fun _ => (.replaced e, e)

/-- Performs a step. A function that panics leaves the present value as it was. -/
def perform (step : EitherStep) : Interp (Either Value Value) EitherAnswer := do
  let e ← present
  match step with
  | .isLeft => return .flag e.isLeft
  | .isRight => return .flag e.isRight
  | .left => return .option e.left?
  | .right => return .option e.right?
  | .getLeft => return .value (← Interp.perform (Action.ofExcept e.getLeft))
  | .getRight => return .value (← Interp.perform (Action.ofExcept e.getRight))
  | .fold onLeft onRight =>
    return .value (← Interp.perform
      (e.fold (fun v => onLeft.eval [v]) (fun v => onRight.eval [v])))
  | .toExcept => return .result e.toExcept
  | .compare other =>
    let ordering := Either.order Value.order Value.order e other
    return .comparison ordering (if ordering = .gt then e else other)
  | .mapLeft f => replace (← Interp.perform
      (e.fold (fun v => .left <$> f.eval [v]) (fun v => pure (.right v))))
  | .mapRight f => replace (← Interp.perform
      (e.fold (fun v => pure (.left v)) (fun v => .right <$> f.eval [v])))
  | .swap => replace e.swap
  | .ofExcept result => replace (Either.ofExcept result)

end EitherStep

def playEither (value : Either Value Value) (steps : List EitherStep) :
    List (Report EitherAnswer) :=
  play EitherStep.perform steps value

end Resumption.Script
