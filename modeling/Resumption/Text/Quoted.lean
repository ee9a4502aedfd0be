import Resumption.Text.Unprintable

/-!
# Quoted text

* `Quoted.escape c` : how one character stands between the quotes;
* `quoted s` : `s` between double quotes, on one line and with every character visible.

The quote and the backslash are escaped by a backslash, four controls have a letter of their own,
and every other character without a visible form is written as its code point in hexadecimal.
-/

namespace Resumption.Text

namespace Quoted

/-- The code point of `c` in lower-case hexadecimal, without leading zeros. -/
def hexadecimal (c : Char) : String :=
  String.ofList (Nat.toDigits 16 c.toNat)

def escape (c : Char) : String :=
  match c with
  | '"' => "\\\""
  | '\\' => "\\\\"
  | '\t' => "\\t"
  | '\n' => "\\n"
  | '\r' => "\\r"
  | '\x00' => "\\0"
  | c => if Unprintable.holds c then "\\u\x7b" ++ hexadecimal c ++ "\x7d" else c.toString

end Quoted

def quoted (s : String) : String :=
  "\"" ++ s.foldl (fun written c => written ++ Quoted.escape c) "" ++ "\""

/-- The elements of a sequence between brackets, separated by a comma and a space. -/
def bracketed (elements : List String) : String :=
  "[" ++ ", ".intercalate elements ++ "]"

end Resumption.Text
