import SonicGnmi.Foundation.GoMap

/-!
# gNMI paths

The path messages of the gNMI protocol as the server reads them.  A message
pointer that is nil reads as the message with empty fields, which is what the
generated getters return for it.
-/

namespace SonicGnmi.Gnmi

open Foundation

/-- One element of a path: a name with optional keys. -/
structure PathElem where
  name : String
  key : GoMap String String := ∅
  deriving DecidableEq

/-- `gnmipb.Path`, with the fields the server reads. -/
structure Path where
  origin : String := ""
  target : String := ""
  elem : List PathElem := []
  deriving DecidableEq

/-- `PrintPathWithPrefix` and the authorizer join prefix and path this way. -/
def netPath (pathPrefix path : Path) : List PathElem :=
  pathPrefix.elem ++ path.elem

/-- The text of the keys of one element, in alphabetical order. -/
def printKeys (e : PathElem) : String :=
  e.key.sortedKeys.foldl
    (fun text k => text ++ "[" ++ k ++ "=" ++ (e.key.lookup k).getD "" ++ "]") ""

/-- `printPath`: the string representation of a path. -/
def printPath (path : List PathElem) : String :=
  let ret := path.foldl (fun text e => text ++ "/" ++ e.name ++ printKeys e) ""
  if ret = "" then "/" else ret

theorem printPath_ne_empty (path : List PathElem) : printPath path ≠ "" := by
  simp only [printPath]
  split
  · decide
  · assumption

end SonicGnmi.Gnmi
