import SonicGnmi.Foundation.PathPatch
import SonicGnmi.Gnmi.Path

/-!
# Comparison of generated structs

`Diff` of the translib utilities: it walks two generated structs of one type and
records which paths were deleted and which leaves are to be written.

The type of a struct is the list of its fields (`Fields`), and the values of a type
are computed from it, so that both arguments of a comparison have the same fields in
the same order.  Union values are structs behind pointers: a field of a struct, an
item of a leaf-list or a part of a list key holds the address, and where Go compares
two of them with `!=` it depends on the place whether addresses or contents are
compared.

* `Kind`, `Fields`, `Kind.Value`, `Fields.Struct` — types and values;
* `Ygot` — the functions of the ygot library and the generated tables;
* `forLeaf`, `forEnum`, `forUnion`, `forLeafList`, `forStruct`, `forList` — the cases
  of the comparison;
* `diff` — the whole call.
-/

namespace SonicGnmi.TranslUtils

open Foundation Gnmi

/-! ## Values -/

/-- The value of a scalar leaf. -/
inductive Scalar where
  | text (value : String)
  | int (value : Int)
  | uint (value : Nat)
  | bool (value : Bool)
  | decimal (value : Rat)
  | bytes (value : List UInt8)
  deriving DecidableEq

/-- Go's `==` on two scalars of one type; slices of bytes cannot be compared, and the
comparison panics. -/
def Scalar.equal : Scalar → Scalar → Option Bool
  | .bytes _, .bytes _ => none
  | first, second => some (first = second)

/-- The struct behind a union: its type, which is named after the member, and the
value of its only field. -/
structure UnionValue where
  member : String
  value : Scalar
  deriving DecidableEq

/-- Go's `==` on two union structs. -/
def UnionValue.equal (first second : UnionValue) : Option Bool :=
  if first.member = second.member then first.value.equal second.value else some false

/-- An item of a leaf-list or a part of a list key: a scalar, or the address of a union
struct. -/
inductive Cell where
  | plain (value : Scalar)
  | boxed (address : Nat)
  deriving DecidableEq

/-- Go's `==` on two items: pointers are equal if they are the same address. -/
def Cell.equal : Cell → Cell → Option Bool
  | .plain first, .plain second => first.equal second
  | .boxed first, .boxed second => some (first = second)
  | _, _ => some false

/-- The value of an item, without its place in memory. -/
inductive Content where
  | plain (value : Scalar)
  | union (value : UnionValue)
  deriving DecidableEq

/-- The value of a leaf as it stands in an update. -/
inductive Leaf where
  | scalar (value : Scalar)
  | enum (name : String)
  | union (value : UnionValue)
  | list (items : List Content)
  deriving DecidableEq

/-! ## Types -/

mutual

/-- What a field of a generated struct holds. -/
inductive Kind where
  /-- A pointer to a scalar. -/
  | leaf
  /-- A `bool`, for a leaf of the empty type. -/
  | emptyLeaf
  /-- An `int64` of the named type; zero is unset. -/
  | enum (typeName : String)
  /-- An interface that holds a pointer to a union struct. -/
  | union
  /-- A slice. -/
  | leafList
  /-- A pointer to a struct. -/
  | container (fields : Fields)
  /-- A map from keys to pointers to structs. -/
  | list (fields : Fields)
  /-- A field of any other kind. -/
  | other (kind : String)

/-- The fields of a generated struct: their names in Go and in the path tag. -/
inductive Fields where
  | nil
  | cons (goName name : String) (kind : Kind) (rest : Fields)

end

deriving instance DecidableEq for Kind
deriving instance DecidableEq for Fields

mutual

/-- The values of a field. -/
def Kind.Value : Kind → Type
  | .leaf => Option Scalar
  | .emptyLeaf => Bool
  | .enum _ => Int
  | .union => Option Nat
  | .leafList => Option (List Cell)
  | .container fields => Option fields.Struct
  | .list fields => GoMap (List Cell) fields.Struct
  | .other _ => Unit

/-- The values of a struct, field by field. -/
def Fields.Struct : Fields → Type
  | .nil => Unit
  | .cons _ _ kind rest => kind.Value × rest.Struct

end

/-- A `ygot.GoStruct`. -/
structure GoStruct where
  type : Fields
  value : type.Struct

/-! ## What the library provides -/

/-- What the fields of the structs refer to: the union structs in memory, the names of
the enumeration values (`ocbinds.ΛEnum`), and the keys of a list instance as
`ygot.PathKeyFromStruct` reads them from its fields, if it finds them. -/
structure Bindings where
  heap : Nat → UnionValue
  enumNames : String → Int → Option String
  pathKeyFromStruct : (type : Fields) → type.Struct → Option (GoMap String String)

/-- The functions of the ygot library that the comparison calls. -/
structure Ygot extends Bindings where
  /-- The leaves that `ygot.TogNMINotifications` emits, or its error. -/
  togNMINotifications : (type : Fields) → type.Struct →
    Except String (List (List PathElem × Leaf))
  /-- The error of `ygot.EncodeTypedValue`, if it refuses a value. -/
  encodeTypedValue : Leaf → Option String
  pathToString : List PathElem → String

/-- The value of an item. -/
def Bindings.content (bindings : Bindings) : Cell → Content
  | .plain value => .plain value
  | .boxed address => .union (bindings.heap address)

/-! ## What a comparison records -/

/-- The part of a `ygotDiff` that the comparison fills in, and whether it panicked. -/
structure Recorded where
  patch : Patch PathElem Leaf := {}
  errors : List String := []
  panics : Bool := false

namespace Recorded

instance : Append Recorded where
  append first second :=
    { patch := first.patch ++ second.patch
      errors := first.errors ++ second.errors
      panics := first.panics || second.panics }

/-- The call returned, and without an error. -/
def Clean (recorded : Recorded) : Prop := recorded.errors = [] ∧ recorded.panics = false

/-- The records of a loop, in its order. -/
def concat (records : List Recorded) : Recorded := records.foldr (· ++ ·) {}

end Recorded

section

variable (ygot : Ygot)

def recordError (path : List PathElem) (message : String) : Recorded :=
  { errors := [ygot.pathToString path ++ ": " ++ message] }

def recordDeletePath (path : List PathElem) : Recorded := { patch := { delete := [path] } }

def recordDelete (path : List PathElem) (name : String) : Recorded :=
  recordDeletePath (path ++ [{ name := name }])

def recordUpdate (path : List PathElem) (name : String) (leaf : Leaf) : Recorded :=
  match ygot.encodeTypedValue leaf with
  | some err => recordError ygot path ("EncodeTypedValue failed; " ++ err)
  | none => { patch := { update := [(path ++ [{ name := name }], leaf)] } }

/-- `recordUpdates`: every leaf of a struct, below the current path. -/
def recordUpdates (type : Fields) (path : List PathElem) (value : type.Struct) : Recorded :=
  match ygot.togNMINotifications type value with
  | .error err => recordError ygot path ("TogNMINotifications failed; " ++ err)
  | .ok update =>
    { patch := { update := update.map fun entry => (path ++ entry.1, entry.2) } }

/-- What is done with a comparison made by Go: it panics, or the outcome decides whether
the update is recorded. -/
def onDifference (same : Option Bool) (update : Recorded) : Recorded :=
  match same with
  | none => { panics := true }
  | some true => {}
  | some false => update

/-! ## The cases -/

variable (recordAll : Bool) (path : List PathElem)

/-- `forLeaf`, on the values behind the pointers. -/
def forLeaf (name : String) (v1 v2 : Option Scalar) : Recorded :=
  match v2, v1 with
  | none, none => {}
  | none, some _ => recordDelete path name
  | some new, none => recordUpdate ygot path name (.scalar new)
  | some new, some old =>
    if recordAll then recordUpdate ygot path name (.scalar new)
    else onDifference (old.equal new) (recordUpdate ygot path name (.scalar new))

def forEnum (typeName name : String) (v1 v2 : Int) : Recorded :=
  if v2 = 0 then
    if v1 ≠ 0 then recordDelete path name else {}
  else if !recordAll && v1 = v2 then {}
  else
    match ygot.enumNames typeName v2 with
    | none => recordError ygot path (typeName ++ " is not a GoEnum")
    | some value => recordUpdate ygot path name (.enum value)

/-- `forUnion`: the structs behind the pointers are compared. -/
def forUnion (name : String) (v1 v2 : Option Nat) : Recorded :=
  match v2, v1 with
  | none, none => {}
  | none, some _ => recordDelete path name
  | some new, none => recordUpdate ygot path name (.union (ygot.heap new))
  | some new, some old =>
    if recordAll then recordUpdate ygot path name (.union (ygot.heap new))
    else onDifference ((ygot.heap old).equal (ygot.heap new))
      (recordUpdate ygot path name (.union (ygot.heap new)))

/-- The loop of `forLeafList`: it stops at the first items that differ. -/
def sameItems : List Cell → List Cell → Option Bool
  | first :: firsts, second :: seconds =>
    match first.equal second with
    | some true => sameItems firsts seconds
    | outcome => outcome
  | _, _ => some true

/-- `forLeafList`: a nil slice has length zero. -/
def forLeafList (name : String) (v1 v2 : Option (List Cell)) : Recorded :=
  let old := v1.getD []
  let new := v2.getD []
  let update := recordUpdate ygot path name (.list (new.map ygot.content))
  if new.length = 0 then
    if old.length ≠ 0 then recordDelete path name else {}
  else if recordAll || old.length ≠ new.length then update
  else onDifference (sameItems old new) update

/-- `forStruct` on two pointers; `updates` records all leaves of a struct, and `fields`
compares the fields of two. -/
def forStruct {Struct : Type} (updates : Struct → Recorded) (fields : Struct → Struct → Recorded)
    (v1 v2 : Option Struct) : Recorded :=
  match v1, v2 with
  | none, none => {}
  | none, some new => updates new
  | some _, none => recordDeletePath path
  | some old, some new => fields old new

/-- `newPathElem` for a list instance; the call panics if the instance has no keys. -/
def withInstance (type : Fields) (name : String) (value : type.Struct)
    (record : List PathElem → Recorded) : Recorded :=
  match ygot.pathKeyFromStruct type value with
  | none => { panics := true }
  | some key => record (path ++ [{ name := name, key := key }])

/-- The first loop of `forList`: an instance of the first map is compared with the one of
the second map, or deleted. -/
def compareInstance (type : Fields)
    (fields : List PathElem → type.Struct → type.Struct → Recorded) (name : String)
    (m2 : GoMap (List Cell) type.Struct) (entry : Σ _ : List Cell, type.Struct) : Recorded :=
  match m2.lookup entry.1 with
  | some new =>
    withInstance ygot path type name new fun below =>
      forStruct below (recordUpdates ygot type below) (fields below) (some entry.2) (some new)
  | none => withInstance ygot path type name entry.2 recordDeletePath

/-- The second loop of `forList`: an instance that is only in the second map. -/
def newInstance (type : Fields) (name : String) (m1 : GoMap (List Cell) type.Struct)
    (entry : Σ _ : List Cell, type.Struct) : Recorded :=
  match m1.lookup entry.1 with
  | some _ => {}
  | none =>
    withInstance ygot path type name entry.2 fun below => recordUpdates ygot type below entry.2

def forList (type : Fields) (order : RangeOrder (List Cell) type.Struct)
    (fields : List PathElem → type.Struct → type.Struct → Recorded)
    (name : String) (m1 m2 : GoMap (List Cell) type.Struct) : Recorded :=
  Recorded.concat ((order.visit m1).map (compareInstance ygot path type fields name m2)) ++
    Recorded.concat ((order.visit m2).map (newInstance ygot path type name m1))

end

/-! ## The comparison -/

section

variable (ygot : Ygot) (order : (type : Fields) → RangeOrder (List Cell) type.Struct)
  (recordAll : Bool)

mutual

/-- The `switch` over the kind of a field. -/
def Kind.diff : (kind : Kind) → (goName name : String) → (path : List PathElem) →
    kind.Value → kind.Value → Recorded
  | .leaf, _, name, path, v1, v2 => forLeaf ygot recordAll path name v1 v2
  | .emptyLeaf, _, name, path, v1, v2 =>
    forLeaf ygot recordAll path name (some (.bool v1)) (some (.bool v2))
  | .enum typeName, _, name, path, v1, v2 => forEnum ygot recordAll path typeName name v1 v2
  | .union, _, name, path, v1, v2 => forUnion ygot recordAll path name v1 v2
  | .leafList, _, name, path, v1, v2 => forLeafList ygot recordAll path name v1 v2
  | .container type, _, name, path, v1, v2 =>
    let below := path ++ [{ name := name }]
    forStruct below (recordUpdates ygot type below) (type.diff below) v1 v2
  | .list type, _, name, path, v1, v2 =>
    forList ygot path type (order type) type.diff name v1 v2
  | .other kind, goName, _, path, _, _ =>
    recordError ygot path ("Unexpected type " ++ kind ++ " for field " ++ goName)

/-- The loop over the fields of a struct, from the last one to the first. -/
def Fields.diff : (type : Fields) → (path : List PathElem) → type.Struct → type.Struct → Recorded
  | .nil, _, _, _ => {}
  | .cons goName name kind rest, path, s1, s2 =>
    rest.diff path s1.2 s2.2 ++ kind.diff goName name path s1.1 s2.1

end

/-- `forStruct` at the root. -/
def diffStruct (type : Fields) (original : Option type.Struct) (modified : type.Struct) : Recorded :=
  forStruct [] (recordUpdates ygot type []) (type.diff ygot order recordAll []) original
    (some modified)

/-- `Diff`; the original may be nil. -/
def diff (original : Option GoStruct) (modified : GoStruct) : Recorded :=
  match original with
  | none => diffStruct ygot order recordAll modified.type none modified.value
  | some old =>
    if h : old.type = modified.type then
      diffStruct ygot order recordAll modified.type (some (h ▸ old.value)) modified.value
    else { errors := ["Type mismatch"] }

end

end SonicGnmi.TranslUtils
