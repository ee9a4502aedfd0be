import Resumption.Text.Quoted

/-!
# Values

* `Value` : nothing, a truth value, a 64-bit integer, a text, or a list of values;
* `Value.size`, `Value.text` : a value read as an integer and as a text;
* `Value.order` : the total order of values, kind before content (`Value.order_eq_iff`);
* `Value.shown` : the form in which a value is reported.
-/

namespace Resumption

inductive Value where
  | null
  | bool (b : Bool)
  | int (n : Int64)
  | str (s : String)
  | list (items : List Value)
  deriving Inhabited

namespace Value

/-- The integer a value counts as: a text counts its bytes, a list its elements. -/
def size : Value → Int64
  | null => 0
  | bool b => if b then 1 else 0
  | int n => n
  | str s => Int64.ofNat s.utf8ByteSize
  | list items => Int64.ofNat items.length

/-- The bytes of a text or the elements of a list; zero for any other value. -/
def length : Value → Int64
  | str s => Int64.ofNat s.utf8ByteSize
  | list items => Int64.ofNat items.length
  | _ => 0

def isTrue (v : Value) : Bool :=
  v.size != 0

def decimal (n : Int64) : String :=
  toString n.toInt

mutual

/-- The text a value stands for; the texts of a list's elements are separated by commas. -/
def text : Value → String
  | null => ""
  | bool b => if b then "true" else "false"
  | int n => decimal n
  | str s => s
  | list items => ",".intercalate (texts items)

def texts : List Value → List String
  | [] => []
  | v :: rest => v.text :: texts rest

end

mutual

/-- The form in which a value is reported: texts are quoted, lists stand in brackets. -/
def shown : Value → String
  | null => "()"
  | bool b => if b then "true" else "false"
  | int n => decimal n
  | str s => Text.quoted s
  | list items => Text.bracketed (allShown items)

def allShown : List Value → List String
  | [] => []
  | v :: rest => v.shown :: allShown rest

end

theorem texts_eq_map (items : List Value) : texts items = items.map text := by
  induction items with
  | nil => rfl
  | cons v rest ih => simp [texts, ih]

theorem allShown_eq_map (items : List Value) : allShown items = items.map shown := by
  induction items with
  | nil => rfl
  | cons v rest ih => simp [allShown, ih]

/-! ## Order -/

def rank : Value → Nat
  | null => 0
  | bool _ => 1
  | int _ => 2
  | str _ => 3
  | list _ => 4

mutual

def order : Value → Value → Ordering
  | bool a, bool b => compare a b
  | int a, int b => compare a.toInt b.toInt
  | str a, str b => compare a b
  | list as, list bs => orderLists as bs
  | a, b => compare a.rank b.rank

/-- Lists by their first different elements; a list comes before its extensions. -/
def orderLists : List Value → List Value → Ordering
  | [], [] => .eq
  | [], _ :: _ => .lt
  | _ :: _, [] => .gt
  | a :: as, b :: bs => (order a b).then (orderLists as bs)

end

mutual

theorem order_eq_iff (a b : Value) : order a b = .eq ↔ a = b := by
  match a, b with
  | .list as, .list bs => simp [order, orderLists_eq_iff as bs]
  | .str s, .str t => simp [order]
  | .int m, .int n =>
    simp only [order, int.injEq, Std.compare_eq_iff_eq]
    exact Int64.toInt_inj
  | .bool x, .bool y => cases x <;> cases y <;> simp [order]
  | .null, .null => simp [order, rank]
  | .null, .bool _ | .null, .int _ | .null, .str _ | .null, .list _ => simp [order, rank]
  | .bool _, .null | .bool _, .int _ | .bool _, .str _ | .bool _, .list _ =>
    simp [order, rank]
  | .int _, .null | .int _, .bool _ | .int _, .str _ | .int _, .list _ =>
    simp [order, rank]
  | .str _, .null | .str _, .bool _ | .str _, .int _ | .str _, .list _ =>
    simp [order, rank]
  | .list _, .null | .list _, .bool _ | .list _, .int _ | .list _, .str _ =>
    simp [order, rank]

theorem orderLists_eq_iff (as bs : List Value) : orderLists as bs = .eq ↔ as = bs := by
  match as, bs with
  | [], [] => simp [orderLists]
  | [], _ :: _ => simp [orderLists]
  | _ :: _, [] => simp [orderLists]
  | a :: as, b :: bs =>
    simp [orderLists, Ordering.then_eq_eq, order_eq_iff a b, orderLists_eq_iff as bs]

end

instance : DecidableEq Value := fun a b => decidable_of_iff _ (order_eq_iff a b)

def isBefore (a b : Value) : Bool :=
  order a b == .lt

end Value

end Resumption
