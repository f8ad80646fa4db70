import SonicGnmi.Sdc.MixedGet

/-!
# The namespaces of Get and Set

On a device with several namespaces the checkpoint is an object from the names of
the namespaces to the documents of their CONFIG_DB.  `SetIncrementalConfig`
edits the document of the namespace that the path names.  `GetCheckPoint` reads
the whole checkpoint as if it were such a document.

* `SameNamespace` — Get reads the document that Set edits, and an accepted update
  is read back;
* `sameNamespace_iff` — this is so exactly when the checkpoint has no document for
  the namespace, so that nothing can be set.
-/

namespace SonicGnmi.Sdc

open Foundation Gnmi Grpc

/-- The document of the checkpoint that `SetIncrementalConfig` edits. -/
def setDocument (multiNs : Bool) (netns : String) (checkPoint : Json) :
    Except String JsonClient.Members :=
  JsonClient.newJsonClient checkPointFile checkPoint
    ((if multiNs then some (gcuNamespace netns) else none).getD "")

/-- The loops of `SetIncrementalConfig` start from this document. -/
theorem buildPatch_eq (pathPrefix : Option Path) (order : RangeOrder String String) (multiNs : Bool)
    (netns : String) (checkPoint : Json) (delete : List Path) (replace update : List Update) :
    let c : PatchClient :=
      { pathPrefix := pathPrefix
        namespaceName := if multiNs then some (gcuNamespace netns) else none
        keyOrder := order }
    c.buildPatch checkPoint delete replace update =
      match setDocument multiNs netns checkPoint with
      | .error e => .error (.plain e)
      | .ok jsonData => c.patchLoops { jsonData := jsonData } delete replace update := rfl

/-- The client of a Get of one path. -/
def getClient (pathPrefix : Option Path) (path : Path) (dbkey : DbKey) : MixedClient where
  target := "CONFIG_DB"
  pathPrefix := pathPrefix
  separator := "|"
  paths := [path]
  dbkey := dbkey

/-- On a device with several namespaces, Get reads the document that Set edits
for a path, and returns a value that was set. -/
structure SameNamespace (config : DbConfig) (checkPoint : JsonClient.Members)
    (pathPrefix : Option Path) (path : Path) (dbkey : DbKey) : Prop where
  document : ∀ edited,
    setDocument config.checkDbMultiNamespace dbkey.netns (.object checkPoint) = .ok edited →
      ∃ read, MixedClient.getDocument config.checkDbMultiNamespace dbkey.netns
        (.object checkPoint) = .ok read ∧ (Json.object read).Same (.object edited)
  update : ∀ edited elems value updated,
    setDocument config.checkDbMultiNamespace dbkey.netns (.object checkPoint) = .ok edited →
      gnmiFullPath pathPrefix path = .ok (some elems) → elems.length ≤ 3 →
        JsonClient.add edited (elemNames elems) (.value value) = .ok updated →
          ∃ out read, (getClient pathPrefix path dbkey).getCheckPoint
              (.ok config.checkDbMultiNamespace)
              (.ok (.object (putMember checkPoint (gcuNamespace dbkey.netns)
                (.object updated)))) = .ok [(path, out)] ∧
            out.value = some read ∧ read.Same value

theorem gcuNamespace_ne_empty (netns : String) : gcuNamespace netns ≠ "" := by
  rw [gcuNamespace]
  split
  · decide
  · assumption

theorem setDocument_eq_ok_iff {netns : String} {checkPoint edited : JsonClient.Members} :
    setDocument true netns (.object checkPoint) = .ok edited ↔
      member checkPoint (gcuNamespace netns) = some (.object edited) := by
  have hne := gcuNamespace_ne_empty netns
  simp only [setDocument, if_true, Option.getD_some, JsonClient.newJsonClient, if_neg hne]
  cases member checkPoint (gcuNamespace netns) with
  | none => simp
  | some value => cases value <;> simp

/-- Get and Set address the same document only where Set has none to edit. -/
theorem sameNamespace_iff (config : DbConfig) (hmulti : config.checkDbMultiNamespace = true)
    (checkPoint : JsonClient.Members) (pathPrefix : Option Path) (path : Path) (dbkey : DbKey)
    (_hparse : config.parseDatabase pathPrefix [path] = .ok ("CONFIG_DB", dbkey)) :
    SameNamespace config checkPoint pathPrefix path dbkey ↔
      ∀ document, member checkPoint (gcuNamespace dbkey.netns) ≠ some (.object document) := by
  constructor
  · intro hsame document hmember
    have hset : setDocument config.checkDbMultiNamespace dbkey.netns (.object checkPoint) =
        .ok document := by
      rw [hmulti]
      exact setDocument_eq_ok_iff.2 hmember
    obtain ⟨read, hread, hdocument⟩ := hsame.document document hset
    -- what is read is the checkpoint, and it has the edited document below itself
    obtain rfl : checkPoint = read := Except.ok.inj hread
    exact Json.not_same_member (show (Json.object checkPoint).child _ = _ from hmember) hdocument
  · intro hnone
    have hset : ∀ edited, setDocument config.checkDbMultiNamespace dbkey.netns
        (.object checkPoint) ≠ .ok edited := by
      intro edited hedited
      rw [hmulti] at hedited
      exact hnone edited (setDocument_eq_ok_iff.1 hedited)
    exact ⟨fun edited hedited => absurd hedited (hset edited),
      fun edited _ _ _ hedited => absurd hedited (hset edited)⟩

/-! ## A device with two namespaces -/

def twoNamespaces : DbConfig where
  namespaces := ["", "asic0"]
  instances := [({}, ["CONFIG_DB"]), ({ netns := "asic0" }, ["CONFIG_DB"])]

def mtuPath (inst : String) : Path where
  elem := ["CONFIG_DB", inst, "PORT", "Ethernet0", "mtu"].map fun name => { name := name }

def twoPorts : JsonClient.Members :=
  [("localhost", .object [("PORT", .object [("Ethernet0", .object [("mtu", .string "9100")])])]),
    ("asic0", .object [("PORT", .object [("Ethernet0", .object [("mtu", .string "1500")])])])]

theorem sameNamespace_iff_asic0 :
    SameNamespace twoNamespaces twoPorts none (mtuPath "asic0") { netns := "asic0" } ↔
      ∀ document, member twoPorts "asic0" ≠ some (.object document) :=
  sameNamespace_iff twoNamespaces (by decide) twoPorts none (mtuPath "asic0")
    { netns := "asic0" } (by decide +kernel)

/-- The port of `asic0` can be set; the Get after it does not find the table. -/
theorem update_is_not_read_back :
    twoNamespaces.parseDatabase none [mtuPath "asic0"] = .ok ("CONFIG_DB", { netns := "asic0" }) ∧
    ∃ edited updated,
      setDocument twoNamespaces.checkDbMultiNamespace "asic0" (.object twoPorts) = .ok edited ∧
      JsonClient.add edited ["PORT", "Ethernet0", "mtu"] (.value (.string "4000")) =
        .ok updated ∧
      ∀ values, (getClient none (mtuPath "asic0") { netns := "asic0" }).getCheckPoint
        (.ok twoNamespaces.checkDbMultiNamespace)
        (.ok (.object (putMember twoPorts "asic0" (.object updated)))) ≠ .ok values := by
  refine ⟨by decide +kernel, _, _, rfl, rfl, ?_⟩
  intro values hvalues
  cases hvalues

end SonicGnmi.Sdc
