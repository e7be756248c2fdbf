/-!
# Replacing parts of a text

Occurrences are looked for from left to right, and what has been replaced is not
looked at again.
-/

namespace RemoteCall.Text.Replace

/-- The text with every occurrence of `pattern` replaced, after passing over
`skip` characters that belong to an occurrence found before. -/
def replaceFrom (pattern replacement : List Char) : Nat → List Char → List Char
  | _, [] => []
  | skip + 1, _ :: rest => replaceFrom pattern replacement skip rest
  | 0, c :: rest =>
    if pattern.isPrefixOf (c :: rest) then
      replacement ++ replaceFrom pattern replacement (pattern.length - 1) rest
    else c :: replaceFrom pattern replacement 0 rest

/-- The text with every occurrence of `pattern`, which is not empty, replaced. -/
def replace (pattern replacement text : String) : String :=
  String.ofList (replaceFrom pattern.toList replacement.toList 0 text.toList)

end RemoteCall.Text.Replace
