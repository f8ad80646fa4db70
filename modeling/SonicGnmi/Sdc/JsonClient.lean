import SonicGnmi.Gnmi.JsonPatch

/-!
# The shadow document

`json_client.go`: the checkpoint of CONFIG_DB as a decoded JSON object, and the
edits that an incremental Set makes on it.  A path has the parts table, key,
field and list index.

The maps of the source are changed in place; here every edit gives the changed
document back.  An edit that fails half way is never looked at again, so only
its error is kept.  The message about a body that is not JSON leaves out the
body.
-/

namespace SonicGnmi.Sdc
namespace JsonClient

open Foundation Gnmi

/-- A decoded JSON object, `map[string]interface{}`. -/
abbrev Members := List (String × Json)

/-- A field that `DecodeJsonField` accepts. -/
inductive FieldValue where
  | text (value : String)
  | list (items : List Json)

def decodeJsonTable (database : Members) (tableName : String) : Except String Members :=
  match member database tableName with
  | none =>
    .error ("Invalid database " ++ tableName ++ " -> " ++ (Json.object database).sprint)
  | some (.object v) => .ok v
  | some vtable => .error ("Invalid table " ++ vtable.sprint)

def decodeJsonEntry (table : Members) (entryName : String) : Except String Members :=
  match member table entryName with
  | none => .error ("Invalid entry " ++ (Json.object table).sprint)
  | some (.object v) => .ok v
  | some ventry => .error ("Invalid entry " ++ ventry.sprint)

def decodeJsonField (entry : Members) (fieldName : String) : Except String FieldValue :=
  match member entry fieldName with
  | none => .error ("Invalid entry " ++ (Json.object entry).sprint)
  | some (.string s) => .ok (.text s)
  | some (.array items) => .ok (.list items)
  | some vfield => .error ("Invalid field " ++ vfield.sprint)

/-- The list of a field; a text has none. -/
def FieldValue.items : FieldValue → List Json
  | .text _ => []
  | .list items => items

def decodeJsonListItem (list : List Json) (index : String) : Except String String :=
  match GoText.atoi index with
  | none => .error ("Invalid index " ++ index)
  | some id =>
    if id < 0 then
      .error ("Invalid index " ++ index)
    else
      match list[id.toNat]? with
      | none => .error ("Invalid index " ++ index)
      | some (.string s) => .ok s
      | some vitem => .error ("Invalid item " ++ vitem.sprint)

/-- `NewJsonClient` on the decoded checkpoint file. -/
def newJsonClient (fileName : String) (checkpoint : Json) (nameSpace : String) :
    Except String Members :=
  match checkpoint with
  | .object jsonMap =>
    if nameSpace = "" then
      .ok jsonMap
    else
      match member jsonMap nameSpace with
      | some (.object members) => .ok members
      | some _ => .error ("Invalid namespace " ++ nameSpace)
      | none => .error ("Unexpected namespace " ++ nameSpace)
  | _ => .error ("Invalid checkpoint " ++ fileName)

/-- `strings.ReplaceAll(name, "~1", "/")`. -/
def fixName (name : String) : String :=
  String.ofList (GoText.replacePair '~' '1' '/' name.toList)

/-- `FixPath`: only the key is decoded. -/
def fixPath : List String → List String
  | table :: key :: rest => table :: fixName key :: rest
  | path => path

/-- The body of a request as it is parsed for the shadow document. -/
def parseValue (value : JsonText) : Except String Json :=
  match value.unmarshal .ok with
  | .error _ => .error "Fail to parse "
  | .ok json => .ok json

/-- Write a changed object back to its parent; an empty one is deleted. -/
def storeObject (parent : Members) (name : String) (content : Members) : Members :=
  if content.isEmpty then dropMember parent name else putMember parent name (.object content)

/-- Write a changed list back to its entry; an empty one is deleted. -/
def storeList (entry : Members) (name : String) (items : List Json) : Members :=
  if items.isEmpty then dropMember entry name else putMember entry name (.array items)

/-- The object of a decoding step, or the new one that `Add` makes when there is
none. -/
def orNew (decoded : Except String Members) : Members :=
  match decoded with
  | .ok v => v
  | .error _ => []

def add (jsonData : Members) (path : List String) (value : JsonText) : Except String Members :=
  match fixPath path with
  | [table] =>
    match parseValue value with
    | .error e => .error e
    | .ok (.object v) => .ok (putMember jsonData table (.object v))
    | .ok vtable => .error ("Invalid table " ++ vtable.sprint)
  | [table, key] =>
    let vtable := orNew (decodeJsonTable jsonData table)
    match parseValue value with
    | .error e => .error e
    | .ok (.object v) =>
      .ok (putMember jsonData table (.object (putMember vtable key (.object v))))
    | .ok ventry => .error ("Invalid entry " ++ ventry.sprint)
  | [table, key, field] =>
    let vtable := orNew (decodeJsonTable jsonData table)
    let ventry := orNew (decodeJsonEntry vtable key)
    let stored (v : Json) : Members :=
      putMember jsonData table (.object (putMember vtable key (.object (putMember ventry field v))))
    match parseValue value with
    | .error e => .error e
    | .ok (.string s) => .ok (stored (.string s))
    | .ok (.array items) => .ok (stored (.array items))
    | .ok vfield => .error ("Invalid field " ++ vfield.sprint)
  | [table, key, field, index] =>
    match GoText.atoi index with
    | none => .error ("Invalid index " ++ index)
    | some id =>
      let vtable := orNew (decodeJsonTable jsonData table)
      let ventry := orNew (decodeJsonEntry vtable key)
      match decodeJsonField ventry field with
      | .ok (.text _) => .error ("Invalid target field " ++ (Json.object ventry).sprint)
      | decoded =>
        let vlist :=
          match decoded with
          | .ok v => v.items
          | .error _ => []
        if id < 0 ∨ vlist.length < id then
          .error ("Invalid index " ++ toString id)
        else
          match parseValue value with
          | .error e => .error e
          | .ok v =>
            .ok (putMember jsonData table (.object (putMember vtable key
              (.object (putMember ventry field (.array (vlist.insertIdx id.toNat v)))))))
  | path => .error ("Invalid db table Path [" ++ String.intercalate " " path ++ "]")

/-- `Remove`: an object or list that becomes empty is removed from its
parent. -/
def remove (jsonData : Members) (path : List String) : Except String Members :=
  match fixPath path with
  | [table] =>
    match decodeJsonTable jsonData table with
    | .error e => .error e
    | .ok _ => .ok (dropMember jsonData table)
  | [table, key] =>
    match decodeJsonTable jsonData table with
    | .error e => .error e
    | .ok vtable =>
      match decodeJsonEntry vtable key with
      | .error e => .error e
      | .ok _ => .ok (storeObject jsonData table (dropMember vtable key))
  | [table, key, field] =>
    match decodeJsonTable jsonData table with
    | .error e => .error e
    | .ok vtable =>
      match decodeJsonEntry vtable key with
      | .error e => .error e
      | .ok ventry =>
        match decodeJsonField ventry field with
        | .error e => .error e
        | .ok _ =>
          .ok (storeObject jsonData table (storeObject vtable key (dropMember ventry field)))
  | [table, key, field, index] =>
    match GoText.atoi index with
    | none => .error ("Invalid index " ++ index)
    | some id =>
      match decodeJsonTable jsonData table with
      | .error e => .error e
      | .ok vtable =>
        match decodeJsonEntry vtable key with
        | .error e => .error e
        | .ok ventry =>
          match decodeJsonField ventry field with
          | .error e => .error e
          | .ok vfield =>
            match decodeJsonListItem vfield.items index with
            | .error e => .error e
            | .ok _ =>
              .ok (storeObject jsonData table (storeObject vtable key
                (storeList ventry field (vfield.items.eraseIdx id.toNat))))
  | path => .error ("Invalid db table Path [" ++ String.intercalate " " path ++ "]")

/-- `Replace`.  The path was fixed in place by the removal. -/
def replace (jsonData : Members) (path : List String) (value : JsonText) : Except String Members :=
  match remove jsonData path with
  | .error e => .error e
  | .ok jsonData => add jsonData (fixPath path) value

end JsonClient
end SonicGnmi.Sdc
