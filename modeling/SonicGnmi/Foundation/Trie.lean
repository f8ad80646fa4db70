import SonicGnmi.Foundation.GoText

/-!
# Tries with wildcards

A trie stores values under lists of keys.  A stored key that ends in a star also stands
for every key that begins with the text before the star.  The search takes the child of
the key itself when there is one, and only otherwise a child with a star; it does not
come back from either.

A value sits in a child of its own, under the empty key.  A search for a list with an
empty key can enter this child, and finds nothing there.

* `Node.add`, `Node.find` — storing and searching;
* `ofTable` — the trie of a table.
-/

namespace SonicGnmi.Foundation
namespace Trie

variable {Meta : Type}

/-- A node: whether it ends a list of keys, its value and its children. -/
inductive Node (Meta : Type) where
  | mk (term : Bool) (item : Option Meta) (children : List (String × Node Meta))

def Node.children : Node Meta → List (String × Node Meta)
  | .mk _ _ children => children

def Node.leaf (term : Bool) (item : Option Meta) : Node Meta := .mk term item []

variable (node : Node Meta)

def Node.child (key : String) : Option (Node Meta) :=
  node.children.lookup key

/-- Put a child in the place of the one with its key. -/
def Node.setChild : Node Meta → String → Node Meta → Node Meta
  | .mk term item children, key, child =>
    .mk term item (children.filter (fun entry => entry.1 ≠ key) ++ [(key, child)])

/-- Store a value. -/
def Node.add (item : Meta) : List String → Node Meta → Node Meta
  | [], node => node.setChild "" (.leaf true (some item))
  | key :: keys, node =>
    node.setChild key (Node.add item keys ((node.child key).getD (.leaf false none)))

/-- The child with a star that a key is searched in. -/
def Node.wildcard (key : String) : Option (Node Meta) :=
  ((node.children.map Prod.fst).find? fun stored =>
    GoText.hasSuffix stored "*" && GoText.hasPrefix key (GoText.trimSuffix stored "*")).bind
      node.child

/-- The node that a list of keys leads to. -/
def Node.findNode : Node Meta → List String → Option (Node Meta)
  | node, [] => some node
  | node, key :: keys =>
    match (node.child key).or (node.wildcard key) with
    | none => none
    | some next => next.findNode keys

/-- The value of a node, which is in its child with the empty key. -/
def Node.value : Option Meta :=
  match node.child "" with
  | some (.mk true item _) => item
  | _ => none

/-- The value that a list of keys leads to. -/
def Node.find (keys : List String) : Option Meta :=
  (node.findNode keys).bind Node.value

/-- The trie of a table. -/
def ofTable (table : List (List String × Meta)) : Node Meta :=
  table.foldl (fun node entry => node.add entry.2 entry.1) (.leaf false none)

end Trie
end SonicGnmi.Foundation
