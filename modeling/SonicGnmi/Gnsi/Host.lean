import SonicGnmi.Foundation.FileSystem
import SonicGnmi.Foundation.Redis

/-!
# The machine under the gNSI services

The files and the credentials database that the gNSI services change, with the
helpers of `gnsi_util.go` and `gnsi_certz.go`.  A write may fail, and then it
leaves whatever it leaves.
-/

namespace SonicGnmi.Gnsi

open Foundation

/-- The files and the state database of the machine. -/
structure Host where
  fs : FileSystem := {}
  stateDb : Redis.Db := Redis.Db.empty

/-- A failed write: its error, and the content that is left when the cleanup
fails too. -/
structure WriteFailure where
  error : String
  left : Option String := none

/-- `attemptWrite`: a failed write removes the file. -/
def attemptWrite (fs : FileSystem) (name data : String) (failure : Option WriteFailure) :
    Except String Unit × FileSystem :=
  match failure with
  | some f => (.error f.error, fs.set (fs.loc name) (f.left.map Node.file))
  | none =>
    match fs.writeFile name data with
    | .error e => (.error e, fs)
    | .ok fs => (.ok (), fs)

/-- `copyFile`: the copy replaces what is at the destination. -/
def copyFile (fs : FileSystem) (srcPath dstPath : String) : Except String FileSystem :=
  match fs.readFile srcPath with
  | .error e => .error e
  | .ok content => .ok (fs.set (fs.loc dstPath) (some (.file content)))

def fileCheck (fs : FileSystem) (f : String) : Except String Unit :=
  match fs.lstat f with
  | .error e => .error e
  | .ok (.file _) => .ok ()
  | .ok (.link _) => .error (f ++ " is not a regular file")

theorem fileCheck_ok {fs : FileSystem} {f : String} (h : fileCheck fs f = .ok ()) :
    ∃ content, fs.node (fs.loc f) = some (.file content) := by
  simp only [fileCheck, FileSystem.lstat] at h
  rcases hnode : fs.node (fs.loc f) with _ | node <;> rw [hnode] at h
  · contradiction
  cases node with
  | file content => exact ⟨content, rfl⟩
  | link target => contradiction

/-- The table of the credentials. -/
def credentialsTbl : String := "CREDENTIALS"

/-- `writeCredentialsMetadataToDB`, with the error of the database if it has
one. -/
def writeCredentialsMetadataToDB (host : Host) (tbl key fld val : String)
    (failure : Option String) : Except String Unit × Host :=
  match failure with
  | some e => (.error e, host)
  | none =>
    let path := credentialsTbl ++ "|" ++ tbl
    let path := if key.length > 0 then path ++ "|" ++ key else path
    (.ok (), { host with stateDb := host.stateDb.hset path (Finmap.singleton fld val) })

theorem content_writeCredentials (host : Host) (table fld val : String) (other : String × String) :
    (writeCredentialsMetadataToDB host table "" fld val none).2.stateDb.content other =
      if other = (credentialsTbl ++ "|" ++ table, fld) then some val
      else host.stateDb.content other := by
  have hwrite : (writeCredentialsMetadataToDB host table "" fld val none).2.stateDb =
      host.stateDb.exec (.hset (credentialsTbl ++ "|" ++ table) (Finmap.singleton fld val)) := rfl
  rw [hwrite, Redis.Db.content_exec, Redis.Command.touch]
  obtain ⟨key, field⟩ := other
  by_cases hkey : key = credentialsTbl ++ "|" ++ table
  · by_cases hfield : field = fld
    · subst hkey hfield
      rw [if_pos rfl, if_pos rfl, Finmap.lookup_singleton_eq]
      rfl
    · have hnone : (Finmap.singleton fld val : Redis.Hash).lookup field = none :=
        Finmap.lookup_eq_none.2 fun hmem => hfield (Finmap.mem_singleton _ _ _ |>.1 hmem)
      rw [if_pos hkey, hnone, if_neg fun h => hfield (Prod.mk.inj h).2]
      rfl
  · rw [if_neg hkey, if_neg fun h => hkey (Prod.mk.inj h).1]
    rfl

end SonicGnmi.Gnsi
