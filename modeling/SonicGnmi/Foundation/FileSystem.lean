import Mathlib.Logic.Function.Basic
import SonicGnmi.Foundation.GoText

/-!
# Files and symbolic links

A file system maps cleaned absolute paths to regular files and symbolic links.
The operations are those of the package `os`, with their errors; they take path
texts and resolve them against the working directory.  Directories are not
objects of their own: every directory exists.

* `locate` — the location a path text names;
* `FileSystem.writeFile`, `remove`, `rename`, `symlink` — the changes;
* `clearDir`, `copyDir` — the loops over the entries of a directory;
* `Spares` — a change keeps the links and the existing nodes at all locations
  but some; it composes, and each operation has its instance;
* `Sealed`, `Shut`, `Keeps` — no link leads into a region, at least none from outside,
  and then an operation on paths outside of the region does not change it.
-/

namespace SonicGnmi.Foundation

open GoText List

/-- A cleaned absolute path: the names from the root on. -/
abbrev Location := List String

/-- One step of `filepath.Clean`. -/
def cleanStep (here : Location) (name : String) : Location :=
  if name = "" ∨ name = "." then here
  else if name = ".." then here.dropLast
  else here ++ [name]

theorem cleanStep_proper (name : String) (h : 3 ≤ name.toList.length) (here : Location) :
    cleanStep here name = here ++ [name] := by
  have hne : ∀ other : String, other.toList.length < 3 → name ≠ other := by
    rintro other hother rfl
    omega
  rw [cleanStep, if_neg, if_neg]
  · exact hne ".." (by decide)
  · exact not_or.2 ⟨hne "" (by decide), hne "." (by decide)⟩

/-- `filepath.Abs` in a working directory. -/
def locate (cwd : Location) (path : String) : Location :=
  (GoText.split path '/').foldl cleanStep (if GoText.hasPrefix path "/" then [] else cwd)

/-- The location of everything before the last name of a path. -/
def locateDir (cwd : Location) (path : String) : Location :=
  (GoText.split path '/').dropLast.foldl cleanStep (if GoText.hasPrefix path "/" then [] else cwd)

def lastName (path : String) : String := (GoText.split path '/').getLastD ""

variable (cwd : Location)

/-- An ending of at least three characters without a slash extends the last
name of a path. -/
theorem locate_append (path : String) {ending : String}
    (hslash : '/' ∉ ending.toList) (hlength : 3 ≤ ending.toList.length) :
    locate cwd path = cleanStep (locateDir cwd path) (lastName path) ∧
      locate cwd (path ++ ending) = locateDir cwd path ++ [lastName path ++ ending] := by
  obtain ⟨parts, last, hsplit, happend⟩ := splitChars_append '/' path.toList hslash
  have hpath : split path '/' = parts.map String.ofList ++ [String.ofList last] := by
    simp [split, hsplit]
  have hlonger : split (path ++ ending) '/' =
      parts.map String.ofList ++ [String.ofList last ++ ending] := by
    simp [split, happend]
  have hstart : hasPrefix (path ++ ending) "/" = hasPrefix path "/" := by
    simp only [hasPrefix, String.toList_append]
    cases hchars : path.toList with
    | nil =>
      cases hending : ending.toList with
      | nil => rfl
      | cons c rest =>
        rw [hending, mem_cons, not_or] at hslash
        simp [isPrefixOf, hslash.1]
    | cons c rest => simp [isPrefixOf]
  have hproper := cleanStep_proper (String.ofList last ++ ending) (by
    rw [String.toList_append, length_append]
    omega)
  have hdrop : (parts.map String.ofList ++ [String.ofList last]).dropLast =
      parts.map String.ofList := dropLast_concat
  have hlast : (parts.map String.ofList ++ [String.ofList last]).getLastD "" =
      String.ofList last := getLastD_concat
  constructor
  · rw [locate, locateDir, lastName, hpath, hdrop, hlast, foldl_append]
    rfl
  · rw [locate, locateDir, lastName, hpath, hdrop, hlast, hlonger, hstart, foldl_append,
      foldl_cons, foldl_nil, hproper]

theorem locate_append_ne (path : String) {ending : String} (hslash : '/' ∉ ending.toList)
    (hlength : 3 ≤ ending.toList.length) : locate cwd (path ++ ending) ≠ locate cwd path := by
  obtain ⟨hpath, hending⟩ := locate_append cwd path hslash hlength
  rw [hpath, hending]
  intro h
  unfold cleanStep at h
  split at h
  · have hlen := congrArg length h
    simp at hlen
  split at h
  · have hlen := congrArg length h
    simp only [length_append, length_singleton, length_dropLast] at hlen
    omega
  · have hlast := append_cancel_left h
    have hlen := congrArg (fun l : Location => (l.map fun s => s.toList.length)) hlast
    simp only [map_cons, map_nil, String.toList_append, length_append, cons.injEq] at hlen
    omega

/-- `filepath.Join` of two elements.  The text is not cleaned; it names the same
location. -/
def joinPath (dir name : String) : String :=
  if dir = "" then name else if name = "" then dir else dir ++ "/" ++ name

/-- `filepath.Dir`, not cleaned. -/
def dirPath (path : String) : String :=
  if '/' ∈ path.toList then
    let dir := ((path.toList.reverse.dropWhile (· ≠ '/')).drop 1).reverse
    if dir = [] then "/" else String.ofList dir
  else
    "."

/-- The text of a location. -/
def Location.text (loc : Location) : String := "/" ++ String.intercalate "/" loc

/-- One step of `filepath.Clean` on a relative path, which keeps leading `..`. -/
def cleanRelativeStep (here : List String) (name : String) : List String :=
  if name = "" ∨ name = "." then here
  else if name = ".." ∧ here.getLastD ".." ≠ ".." then here.dropLast
  else here ++ [name]

/-- `filepath.Clean`. -/
def cleanPath (path : String) : String :=
  if GoText.hasPrefix path "/" then (locate [] path).text
  else
    match (GoText.split path '/').foldl cleanRelativeStep [] with
    | [] => "."
    | names => String.intercalate "/" names

/-- A name that cleaning a path can leave. -/
def ProperName (name : String) : Prop :=
  '/' ∉ name.toList ∧ name ≠ "" ∧ name ≠ "." ∧ name ≠ ".."

instance (name : String) : Decidable (ProperName name) :=
  inferInstanceAs (Decidable (_ ∧ _))

theorem foldl_cleanStep {names : List String} (hnames : ∀ name ∈ names, ProperName name)
    (here : Location) : names.foldl cleanStep here = here ++ names := by
  induction names generalizing here with
  | nil => simp
  | cons name rest ih =>
    obtain ⟨-, hempty, hdot, hdots⟩ := hnames name mem_cons_self
    have hstep : cleanStep here name = here ++ [name] := by
      rw [cleanStep, if_neg (not_or.2 ⟨hempty, hdot⟩), if_neg hdots]
    rw [foldl_cons, hstep, ih fun other h => hnames other (mem_cons_of_mem _ h)]
    simp

theorem properName_foldl_cleanStep {names : List String}
    (hnames : ∀ name ∈ names, '/' ∉ name.toList) {here : Location}
    (hhere : ∀ name ∈ here, ProperName name) :
    ∀ name ∈ names.foldl cleanStep here, ProperName name := by
  induction names generalizing here with
  | nil => exact hhere
  | cons first rest ih =>
    refine ih (fun name h => hnames name (mem_cons_of_mem _ h)) fun name hname => ?_
    unfold cleanStep at hname
    split at hname
    · exact hhere name hname
    rename_i hproper
    split at hname
    · exact hhere name ((dropLast_sublist here).subset hname)
    rename_i hdots
    rcases mem_append.1 hname with hold | hnew
    · exact hhere name hold
    · rw [mem_singleton.1 hnew]
      exact ⟨hnames first mem_cons_self, fun h => hproper (Or.inl h),
        fun h => hproper (Or.inr h), hdots⟩

theorem properName_locate {cwd : Location} (hcwd : ∀ name ∈ cwd, ProperName name)
    (path : String) : ∀ name ∈ locate cwd path, ProperName name := by
  refine properName_foldl_cleanStep (fun name hname => ?_) ?_
  · obtain ⟨part, hpart, rfl⟩ := mem_map.1 hname
    rw [String.toList_ofList]
    exact not_mem_of_mem_splitChars hpart
  · split
    · exact fun name h => absurd h not_mem_nil
    · exact hcwd

/-- A name is an entry of the directory it is joined to. -/
theorem locate_joinPath {dir name : String} (hdir : dir ≠ "")
    (hname : ProperName name) : locate cwd (joinPath dir name) = locate cwd dir ++ [name] := by
  obtain ⟨hslash, hempty, hdot, hdots⟩ := hname
  have hjoin : joinPath dir name = dir ++ "/" ++ name := by
    rw [joinPath, if_neg hdir, if_neg hempty]
  have hchars : (dir ++ "/" ++ name).toList = dir.toList ++ '/' :: name.toList := by
    simp only [String.toList_append, append_assoc]
    rfl
  have hsplit : split (dir ++ "/" ++ name) '/' = split dir '/' ++ [name] := by
    rw [split, hchars, splitChars_append_cons, splitChars_of_not_mem hslash,
      map_append, map_singleton, String.ofList_toList]
    rfl
  have hstart : hasPrefix (dir ++ "/" ++ name) "/" = hasPrefix dir "/" := by
    simp only [hasPrefix, hchars]
    cases hdirs : dir.toList with
    | nil => exact absurd (String.toList_inj.1 hdirs) hdir
    | cons c rest => simp [isPrefixOf]
  rw [hjoin, locate, hsplit, hstart, foldl_append]
  exact (if_neg (not_or.2 ⟨hempty, hdot⟩)).trans (if_neg hdots)

theorem split_intercalate {names : List String} (hne : names ≠ [])
    (hslash : ∀ name ∈ names, '/' ∉ name.toList) :
    split (String.intercalate "/" names) '/' = names := by
  rw [split, String.toList_intercalate, show "/".toList = ['/'] from rfl,
    splitChars_intercalate (by simpa using hne) (by simpa using hslash)]
  simp [Function.comp_def]

theorem locate_text {loc : Location} (hloc : ∀ name ∈ loc, ProperName name) :
    locate cwd loc.text = loc := by
  have hroot : hasPrefix loc.text "/" = true := hasPrefix_iff.2 ⟨_, rfl⟩
  have hsplit : split loc.text '/' = "" :: split (String.intercalate "/" loc) '/' := by
    simp [split, Location.text, splitChars]
  rw [locate, hroot, hsplit, foldl_cons]
  by_cases hne : loc = []
  · rw [hne]
    rfl
  · rw [split_intercalate hne fun name hname => (hloc name hname).1]
    exact foldl_cleanStep hloc []

/-- What a location holds. -/
inductive Node where
  | file (content : String)
  | link (target : String)
  deriving DecidableEq

/-- The files and links of a machine. -/
structure FileSystem where
  cwd : Location := []
  node : Location → Option Node := fun _ => none

namespace FileSystem

def loc (fs : FileSystem) (path : String) : Location := locate fs.cwd path

variable {fs : FileSystem}

theorem loc_of_cwd {cwd : Location} (h : fs.cwd = cwd) (path : String) :
    fs.loc path = locate cwd path :=
  congrArg (locate · path) h

/-- Put a node at a location. -/
def set (fs : FileSystem) (loc : Location) (node : Option Node) : FileSystem :=
  { fs with node := Function.update fs.node loc node }

theorem node_set (fs : FileSystem) (loc other : Location) (node : Option Node) :
    (fs.set loc node).node other = if other = loc then node else fs.node other := by
  simp [set, Function.update_apply]

@[simp] theorem loc_set (fs : FileSystem) (loc : Location) (node : Option Node) (path : String) :
    (fs.set loc node).loc path = fs.loc path := rfl

theorem set_set (fs : FileSystem) (loc : Location) (first second : Option Node) :
    (fs.set loc first).set loc second = fs.set loc second := by
  unfold set
  rw [Function.update_idem]

/-- Follow links, as often as the kernel does. -/
def resolve (fs : FileSystem) : Nat → Location → Option Location
  | 0, _ => none
  | fuel + 1, loc =>
    match fs.node loc with
    | some (.link target) => fs.resolve fuel (locate loc.dropLast target)
    | _ => some loc

/-- The location a path leads to. -/
def follow (fs : FileSystem) (path : String) : Option Location := fs.resolve 41 (fs.loc path)

def lstat (fs : FileSystem) (path : String) : Except String Node :=
  match fs.node (fs.loc path) with
  | none => .error ("lstat " ++ path ++ ": no such file or directory")
  | some node => .ok node

def readFile (fs : FileSystem) (path : String) : Except String String :=
  match fs.follow path with
  | none => .error ("open " ++ path ++ ": too many levels of symbolic links")
  | some loc =>
    match fs.node loc with
    | some (.file content) => .ok content
    | _ => .error ("open " ++ path ++ ": no such file or directory")

/-- `os.WriteFile`: writes through links and creates what is missing. -/
def writeFile (fs : FileSystem) (path content : String) : Except String FileSystem :=
  match fs.follow path with
  | none => .error ("open " ++ path ++ ": too many levels of symbolic links")
  | some loc => .ok (fs.set loc (some (.file content)))

/-- `os.Remove`: removes a link, not what it points to. -/
def remove (fs : FileSystem) (path : String) : Except String FileSystem :=
  match fs.node (fs.loc path) with
  | none => .error ("remove " ++ path ++ ": no such file or directory")
  | some _ => .ok (fs.set (fs.loc path) none)

def rename (fs : FileSystem) (old new : String) : Except String FileSystem :=
  match fs.node (fs.loc old) with
  | none => .error ("rename " ++ old ++ " " ++ new ++ ": no such file or directory")
  | some node => .ok ((fs.set (fs.loc old) none).set (fs.loc new) (some node))

def symlink (fs : FileSystem) (target path : String) : Except String FileSystem :=
  match fs.node (fs.loc path) with
  | some _ => .error ("symlink " ++ target ++ " " ++ path ++ ": file exists")
  | none => .ok (fs.set (fs.loc path) (some (.link target)))

def readlink (fs : FileSystem) (path : String) : Except String String :=
  match fs.node (fs.loc path) with
  | some (.link target) => .ok target
  | some (.file _) => .error ("readlink " ++ path ++ ": invalid argument")
  | none => .error ("readlink " ++ path ++ ": no such file or directory")

/-- Whether a location is an entry of a directory. -/
def IsEntry (dir loc : Location) : Prop := loc ≠ [] ∧ loc.dropLast = dir

instance (dir loc : Location) : Decidable (IsEntry dir loc) :=
  inferInstanceAs (Decidable (_ ∧ _))

/-- The loop over `os.ReadDir` that removes every entry. -/
def clearDir (fs : FileSystem) (dir : Location) : FileSystem :=
  { fs with node := fun loc => if IsEntry dir loc then none else fs.node loc }

/-- The content of a regular file or of what a link leads to. -/
def content (fs : FileSystem) (loc : Location) : Option String :=
  match (fs.resolve 41 loc).bind fs.node with
  | some (.file content) => some content
  | _ => none

/-- The loop that copies every readable entry of one directory to another one
without entries. -/
def copyDir (fs : FileSystem) (src dst : Location) : FileSystem :=
  { fs with
    node := fun loc =>
      if IsEntry dst loc then
        match (fs.node (src ++ [loc.getLastD ""])).bind fun _ =>
            fs.content (src ++ [loc.getLastD ""]) with
        | some content => some (.file content)
        | none => fs.node loc
      else fs.node loc }

/-- Nothing is written at the location of a link. -/
theorem resolve_not_link (fs : FileSystem) {fuel : Nat} {loc found : Location}
    (h : fs.resolve fuel loc = some found) (target : String) :
    fs.node found ≠ some (.link target) := by
  induction fuel generalizing loc with
  | zero => contradiction
  | succ fuel ih =>
    rw [resolve] at h
    split at h
    · exact ih h
    · rename_i hnode
      rw [Option.some.injEq] at h
      subst h
      exact hnode target

theorem resolve_congr {fs after : FileSystem}
    (h : ∀ loc target, after.node loc = some (.link target) ↔ fs.node loc = some (.link target))
    (fuel : Nat) (loc : Location) : after.resolve fuel loc = fs.resolve fuel loc := by
  induction fuel generalizing loc with
  | zero => rfl
  | succ fuel ih =>
    rw [resolve, resolve]
    split
    · rename_i target hafter
      rw [(h loc target).1 hafter]
      exact ih _
    · rename_i hafter
      split
      · rename_i target hnode
        exact absurd ((h loc target).2 hnode) (hafter target)
      · rfl

/-- A change in a place without a link that puts no link there does not change where links
lead. -/
theorem resolve_set (fs : FileSystem) {place : Location} {node : Option Node}
    (hplace : ∀ target, fs.node place ≠ some (.link target))
    (hnode : ∀ target, node ≠ some (.link target)) (fuel : Nat) (loc : Location) :
    (fs.set place node).resolve fuel loc = fs.resolve fuel loc := by
  refine resolve_congr (fun other target => ?_) fuel loc
  rw [node_set]
  by_cases hother : other = place
  · subst hother
    rw [if_pos rfl]
    exact iff_of_false (hnode target) (hplace target)
  · rw [if_neg hother]

variable {path : String}

theorem follow_of_not_link (h : ∀ target, fs.node (fs.loc path) ≠ some (.link target)) :
    fs.follow path = some (fs.loc path) := by
  unfold follow resolve
  split
  · rename_i target hnode
    exact absurd hnode (h target)
  · rfl

variable {path content : String}

theorem readFile_of_file
    (h : fs.node (fs.loc path) = some (.file content)) : fs.readFile path = .ok content := by
  have hfollow : fs.follow path = some (fs.loc path) := follow_of_not_link fun target => by simp [h]
  simp [readFile, hfollow, h]

/-! ## What a change leaves alone -/

/-- Outside of `touched`, links stay and nothing disappears. -/
structure Spares (fs after : FileSystem) (touched : Location → Prop) : Prop where
  cwd : after.cwd = fs.cwd
  link : ∀ loc target, ¬ touched loc → fs.node loc = some (.link target) →
    after.node loc = some (.link target)
  present : ∀ loc, ¬ touched loc → (fs.node loc).isSome = true → (after.node loc).isSome = true

variable {fs after last : FileSystem} {touched : Location → Prop}

theorem Spares.refl (fs : FileSystem) (touched : Location → Prop) : fs.Spares fs touched :=
  ⟨rfl, fun _ _ _ h => h, fun _ _ h => h⟩

theorem Spares.trans (hfirst : fs.Spares after touched) (hsecond : after.Spares last touched) :
    fs.Spares last touched where
  cwd := hsecond.cwd.trans hfirst.cwd
  link := fun loc target hloc h => hsecond.link loc target hloc (hfirst.link loc target hloc h)
  present := fun loc hloc h => hsecond.present loc hloc (hfirst.present loc hloc h)

theorem Spares.mono {more : Location → Prop} (h : fs.Spares after touched)
    (hmore : ∀ loc, touched loc → more loc) : fs.Spares after more where
  cwd := h.cwd
  link := fun loc target hloc => h.link loc target fun ht => hloc (hmore loc ht)
  present := fun loc hloc => h.present loc fun ht => hloc (hmore loc ht)

theorem Spares.loc (h : fs.Spares after touched) (path : String) : after.loc path = fs.loc path :=
  loc_of_cwd h.cwd path

theorem spares_of_eq (hcwd : after.cwd = fs.cwd)
    (hsame : ∀ loc, ¬ touched loc → after.node loc = fs.node loc) : fs.Spares after touched where
  cwd := hcwd
  link := fun loc _ hloc h => (hsame loc hloc).trans h
  present := fun loc hloc h => by rwa [hsame loc hloc]

theorem spares_set (fs : FileSystem) (loc : Location) (node : Option Node) :
    fs.Spares (fs.set loc node) (· = loc) :=
  spares_of_eq rfl fun other hother => by rw [node_set, if_neg hother]

theorem writeFile_ok (h : fs.writeFile path content = .ok after) :
    ∃ loc, fs.follow path = some loc ∧ after = fs.set loc (some (.file content)) := by
  unfold writeFile at h
  rcases hfollow : fs.follow path with _ | loc <;> rw [hfollow] at h
  · cases h
  · cases h
    exact ⟨loc, rfl, rfl⟩

theorem remove_ok (h : fs.remove path = .ok after) : after = fs.set (fs.loc path) none := by
  unfold remove at h
  rcases hnode : fs.node (fs.loc path) with _ | node <;> rw [hnode] at h
  · cases h
  · cases h
    rfl

variable {old new : String}

theorem rename_ok (h : fs.rename old new = .ok after) :
    ∃ node, fs.node (fs.loc old) = some node ∧
      after = (fs.set (fs.loc old) none).set (fs.loc new) (some node) := by
  unfold rename at h
  rcases hnode : fs.node (fs.loc old) with _ | node <;> rw [hnode] at h
  · cases h
  · cases h
    exact ⟨node, rfl, rfl⟩

theorem spares_writeFile (h : fs.writeFile path content = .ok after) :
    fs.Spares after fun _ => False := by
  obtain ⟨loc, hfollow, rfl⟩ := writeFile_ok h
  refine ⟨rfl, fun other target _ hlink => ?_, fun other _ hsome => ?_⟩
  · have hne : other ≠ loc := by
      rintro rfl
      exact fs.resolve_not_link hfollow target hlink
    rw [node_set, if_neg hne, hlink]
  · rw [node_set]
    split
    · rfl
    · exact hsome

theorem isSome_writeFile (h : fs.writeFile path content = .ok after) :
    (after.node (fs.loc path)).isSome = true := by
  have hspares := spares_writeFile h
  rcases hnode : fs.node (fs.loc path) with _ | node
  · have hfollow : fs.follow path = some (fs.loc path) :=
      follow_of_not_link fun target => by simp [hnode]
    simp only [writeFile, hfollow, Except.ok.injEq] at h
    rw [← h, node_set, if_pos rfl]
    rfl
  · exact hspares.present _ id (by rw [hnode]; rfl)

theorem spares_remove (h : fs.remove path = .ok after) : fs.Spares after (· = fs.loc path) := by
  rw [remove_ok h]
  exact fs.spares_set _ none

theorem spares_rename (h : fs.rename old new = .ok after) :
    fs.Spares after fun loc => loc = fs.loc old ∨ loc = fs.loc new := by
  obtain ⟨node, -, rfl⟩ := rename_ok h
  exact ((fs.spares_set _ none).mono fun _ => Or.inl).trans
    ((spares_set _ _ _).mono fun _ => Or.inr)

theorem spares_clearDir (fs : FileSystem) (dir : Location) :
    fs.Spares (fs.clearDir dir) (IsEntry dir) :=
  spares_of_eq rfl fun _ hloc => if_neg hloc

theorem spares_copyDir (fs : FileSystem) (src dst : Location) :
    fs.Spares (fs.copyDir src dst) (IsEntry dst) :=
  spares_of_eq rfl fun _ hloc => if_neg hloc

/-! ## Regions that no link leads into -/

/-- No link leads into a region. -/
def Sealed (fs : FileSystem) (region : Location → Prop) : Prop :=
  ∀ loc target, fs.node loc = some (.link target) → ¬ region (locate loc.dropLast target)

/-- No link from outside leads into a region. -/
def Shut (fs : FileSystem) (region : Location → Prop) : Prop :=
  ∀ loc target, ¬ region loc → fs.node loc = some (.link target) →
    ¬ region (locate loc.dropLast target)

/-- A change leaves a region as it is, and shut. -/
structure Keeps (fs after : FileSystem) (region : Location → Prop) : Prop where
  cwd : after.cwd = fs.cwd
  same : ∀ loc, region loc → after.node loc = fs.node loc
  intact : after.Shut region

variable {mid : FileSystem} {region : Location → Prop}

theorem Sealed.shut (h : fs.Sealed region) : fs.Shut region := fun loc target _ => h loc target

theorem Keeps.refl (h : fs.Shut region) : fs.Keeps fs region := ⟨rfl, fun _ _ => rfl, h⟩

theorem Keeps.trans (hfirst : fs.Keeps after region) (hsecond : after.Keeps last region) :
    fs.Keeps last region where
  cwd := hsecond.cwd.trans hfirst.cwd
  same := fun loc hloc => (hsecond.same loc hloc).trans (hfirst.same loc hloc)
  intact := hsecond.intact

theorem Keeps.loc (h : fs.Keeps after region) (path : String) : after.loc path = fs.loc path :=
  loc_of_cwd h.cwd path

theorem keeps_set (h : fs.Keeps mid region) {loc : Location} (hloc : ¬ region loc)
    {node : Option Node}
    (hnode : ∀ target, node = some (.link target) → ¬ region (locate loc.dropLast target)) :
    fs.Keeps (mid.set loc node) region where
  cwd := h.cwd
  same := by
    intro other hother
    rw [node_set, if_neg, h.same other hother]
    rintro rfl
    exact hloc hother
  intact := by
    intro other target houtside hother
    rw [node_set] at hother
    split at hother
    · rename_i heq
      subst heq
      exact hnode target hother
    · exact h.intact other target houtside hother

theorem Shut.resolve (h : fs.Shut region) {fuel : Nat} {loc found : Location}
    (hloc : ¬ region loc) (hfound : fs.resolve fuel loc = some found) : ¬ region found := by
  induction fuel generalizing loc with
  | zero => contradiction
  | succ fuel ih =>
    rw [FileSystem.resolve] at hfound
    split at hfound
    · rename_i target hnode
      exact ih (h loc target hloc hnode) hfound
    · rw [Option.some.injEq] at hfound
      exact hfound ▸ hloc

theorem keeps_writeFile (h : fs.Keeps mid region) (hpath : ¬ region (fs.loc path))
    (hwrite : mid.writeFile path content = .ok after) : fs.Keeps after region := by
  obtain ⟨loc, hfollow, rfl⟩ := writeFile_ok hwrite
  rw [← h.loc] at hpath
  exact keeps_set h (h.intact.resolve hpath hfollow) fun target hnode => by cases hnode

/-- Within one directory a link keeps its meaning. -/
theorem keeps_rename (h : fs.Keeps mid region) (hold : ¬ region (fs.loc old))
    (hnew : ¬ region (fs.loc new)) (hdir : (fs.loc old).dropLast = (fs.loc new).dropLast)
    (hrename : mid.rename old new = .ok after) : fs.Keeps after region := by
  rw [← h.loc] at hold hnew
  rw [← h.loc, ← h.loc] at hdir
  obtain ⟨node, hnode, rfl⟩ := rename_ok hrename
  refine keeps_set (keeps_set h hold fun target hlink => by cases hlink) hnew fun target hlink => ?_
  rw [Option.some.injEq] at hlink
  rw [← hdir]
  exact h.intact _ target hold (hnode.trans (congrArg some hlink))

theorem keeps_symlink (h : fs.Keeps mid region) {target path : String}
    (hpath : ¬ region (fs.loc path)) (htarget : ¬ region (locate (fs.loc path).dropLast target))
    (hlink : mid.symlink target path = .ok after) : fs.Keeps after region := by
  rw [← h.loc] at hpath htarget
  unfold symlink at hlink
  rcases hnode : mid.node (mid.loc path) with _ | node <;> rw [hnode] at hlink
  · cases hlink
    refine keeps_set h hpath fun other hother => ?_
    cases hother
    exact htarget
  · cases hlink

end FileSystem

end SonicGnmi.Foundation
