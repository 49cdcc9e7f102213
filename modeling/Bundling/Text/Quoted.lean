import Bundling.Text.Printable

/-!
Text between double quotes. A quote and a backslash are written after a backslash, the usual control
characters by a letter, and every other character that does not print by its code point.
-/

set_option autoImplicit false
set_option relaxedAutoImplicit false

namespace Bundling.Text

/-- The digits of a code point in base sixteen, as `\u` writes them between braces. -/
def codePoint (c : Char) : List Char :=
  '\\' :: 'u' :: '\x7b' :: Nat.toDigits 16 c.toNat ++ ['\x7d']

def quoteChar (c : Char) : List Char :=
  match c with
  | '\t' => ['\\', 't']
  | '\r' => ['\\', 'r']
  | '\n' => ['\\', 'n']
  | '"' => ['\\', '"']
  | '\\' => ['\\', '\\']
  | c => if c.toNat = 0 then ['\\', '0'] else if isPrintable c then [c] else codePoint c

def quote (s : String) : String :=
  String.ofList ('"' :: s.toList.flatMap quoteChar ++ ['"'])

end Bundling.Text
