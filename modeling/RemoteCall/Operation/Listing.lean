import RemoteCall.Operation.Tree

/-!
# Listings of operations

A tree of operations is shown as the paths of its functions or as a text in
which every namespace stands with the signatures of its functions.
-/

namespace RemoteCall.Namespace

mutual

/-- The paths of the functions at or below a node. -/
def pathsOf : OperationNode → List String
  | .function f => [f.path]
  | .space ⟨_, children⟩ => pathsOfAll children

/-- The paths of the functions at or below the children of a namespace. -/
def pathsOfAll : List (String × OperationNode) → List String
  | [] => []
  | (_, node) :: rest => pathsOf node ++ pathsOfAll rest

end

/-- The dotted paths of all functions, in order. -/
def leafPaths (tree : OperationTree) : List String :=
  (pathsOfAll tree.children).mergeSort fun left right => compare left right != .gt

/-- The lines of a text that was begun with `line`, backwards.  A carriage return
before the end of a line is part of the end.  The last line may lack an end; it
then keeps a carriage return, and is none if it is empty. -/
def linesAfter : List Char → List Char → List (List Char)
  | [], [] => []
  | line, [] => [line.reverse]
  | '\r' :: line, '\n' :: rest => line.reverse :: linesAfter [] rest
  | line, '\n' :: rest => line.reverse :: linesAfter [] rest
  | line, c :: rest => linesAfter (c :: line) rest

def linesOf (text : String) : List String := (linesAfter [] text.toList).map String.ofList

example : linesOf "a\r\nb\r" = ["a", "b\r"] := by decide +kernel

def functionText : OperationNode → String
  | .function f => String.join ((linesOf f.describe).map fun line => "    " ++ line ++ "\n")
  | .space _ => ""

mutual

/-- A namespace in a listing, after an empty line: its path, its functions and
the namespaces in it. -/
def spaceText : OperationNode → String
  | .function _ => ""
  | .space ⟨path, children⟩ =>
    "\n" ++ (if path = "" then "" else path ++ "\n") ++
      String.join (children.map fun child => functionText child.2) ++ spaceTexts children

/-- The namespaces among some children in a listing. -/
def spaceTexts : List (String × OperationNode) → String
  | [] => ""
  | (_, node) :: rest => spaceText node ++ spaceTexts rest

end

/-- All namespaces and functions, with the signatures of the functions. -/
def describe (tree : OperationTree) : String :=
  String.ofList ((spaceText (.space tree)).toList.dropWhile (· == '\n'))

end RemoteCall.Namespace
