import RemoteCall.Text.Invisible

/-!
# Quoted text in messages

A message that repeats what it was given puts it in quotation marks, so that
its ends and every character in it can be told: the mark itself and backslashes
are escaped, line ends and tabs have names, and characters that do not show
stand as their number.
-/

namespace RemoteCall.Text.Quoted

def byNumber (c : Char) : List Char :=
  "\\u\x7b".toList ++ Nat.toDigits 16 c.toNat ++ ['\x7d']

/-- How `c` is written between two marks of the kind `mark`. -/
def escape (mark c : Char) : List Char :=
  match c with
  | '\x00' => ['\\', '0']
  | '\t' => ['\\', 't']
  | '\r' => ['\\', 'r']
  | '\n' => ['\\', 'n']
  | '\\' => ['\\', '\\']
  | _ =>
    if c = mark then ['\\', c]
    else if Invisible.isInvisible c then byNumber c
    else [c]

def text (s : String) : String :=
  String.ofList ('"' :: s.toList.flatMap (escape '"') ++ ['"'])

/-- The character in single quotes. -/
def character (c : Char) : String :=
  String.ofList ('\'' :: escape '\'' c ++ ['\''])

example : text "a\"b'\n" = "\"a\\\"b'\\n\"" := by decide +kernel
example : character '\'' = "'\\''" := by decide +kernel

end RemoteCall.Text.Quoted
