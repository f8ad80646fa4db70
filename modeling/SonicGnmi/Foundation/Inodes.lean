import Mathlib.Logic.Function.Basic
import Mathlib.Data.List.Basic

/-!
# Names and inodes

A file system in which several names can lead to one file, and an open file stays the
same file when its name is given to another one.  A name is a directory entry: a file,
known by its inode, or a symbolic link to a name.  The contents belong to the inode.

* `openTruncated`, `writeAt`, `chmod`, `rename`, `remove`, `present` — the operations;
* `holds` — what a name itself leads to;
* `Private` — a name is no link, and no other name leads to its file;
* `Spares` — a change leaves what a name leads to, and keeps it private;
* `spares_openTruncated`, `spares_writeAt`, `spares_rename`, `spares_remove` — what the
  operations leave alone.

The number of the next inode is above all inodes in use; this is part of the structure.
-/

namespace SonicGnmi.Foundation

open Function

/-- A directory entry. -/
inductive Entry (Name : Type) where
  | file (inode : Nat)
  | link (target : Name)
  deriving DecidableEq

/-- What a name leads to: a file with its contents, or a link. -/
inductive Held (Name : Type) where
  | file (content : String)
  | link (target : Name)
  deriving DecidableEq

/-- Names, inodes and the contents of the inodes. -/
structure Inodes (Name : Type) where
  entry : Name → Option (Entry Name) := fun _ => none
  data : Nat → String := fun _ => ""
  mode : Nat → Nat := fun _ => 0
  next : Nat := 0
  /-- The inodes in use are below the next one. -/
  fresh : ∀ name inode, entry name = some (.file inode) → inode < next := by
    intro name inode h
    cases h

/-- A file with some bytes written at an offset; a gap before them is filled with zeros. -/
def overwrite (content : String) (offset : Nat) (chunk : String) : String :=
  if chunk = "" then content
  else
    String.ofList (content.toList.take offset ++
      List.replicate (offset - content.length) '\x00' ++ chunk.toList ++
      content.toList.drop (offset + chunk.length))

theorem overwrite_end (content chunk : String) :
    overwrite content content.length chunk = content ++ chunk := by
  unfold overwrite
  split
  · rename_i hchunk
    rw [hchunk, String.append_empty]
  have htake : content.toList.take content.length = content.toList :=
    List.take_of_length_le (Nat.le_of_eq String.length_toList)
  have hdrop : content.toList.drop (content.length + chunk.length) = [] :=
    List.drop_of_length_le (by rw [String.length_toList]; omega)
  rw [htake, hdrop, Nat.sub_self, List.replicate_zero, List.append_nil, List.append_nil,
    ← String.toList_append, String.ofList_toList]

namespace Inodes

variable {Name : Type}

/-- The name at the end of a chain of links. -/
def resolve (fs : Inodes Name) : Nat → Name → Option Name
  | 0, _ => none
  | fuel + 1, name =>
    match fs.entry name with
    | some (.link target) => fs.resolve fuel target
    | _ => some name

/-- The system follows forty links. -/
def follow (fs : Inodes Name) (name : Name) : Option Name := fs.resolve 41 name

/-- What a name leads to. -/
def holds (fs : Inodes Name) (name : Name) : Option (Held Name) :=
  match fs.entry name with
  | none => none
  | some (.file inode) => some (.file (fs.data inode))
  | some (.link target) => some (.link target)

/-- `Write` on an open file, at an offset. -/
def writeAt (fs : Inodes Name) (inode offset : Nat) (chunk : String) : Inodes Name :=
  { fs with data := Function.update fs.data inode (overwrite (fs.data inode) offset chunk) }

def chmod (fs : Inodes Name) (name : Name) (mode : Nat) : Option (Inodes Name) :=
  match (fs.follow name).bind fs.entry with
  | some (.file inode) => some { fs with mode := Function.update fs.mode inode mode }
  | _ => none

/-- `os.Stat` finds something. -/
def present (fs : Inodes Name) (name : Name) : Bool := ((fs.follow name).bind fs.entry).isSome

section Names

variable [DecidableEq Name]

/-- `os.OpenFile` that creates or truncates: the inode. -/
def openTruncated (fs : Inodes Name) (name : Name) (mode : Nat) : Option (Nat × Inodes Name) :=
  match fs.follow name with
  | none => none
  | some found =>
    match fs.entry found with
    | some (.file inode) =>
      some (inode, { fs with data := Function.update fs.data inode "" })
    | _ =>
      some (fs.next,
        { entry := Function.update fs.entry found (some (.file fs.next))
          data := Function.update fs.data fs.next ""
          mode := Function.update fs.mode fs.next mode
          next := fs.next + 1
          fresh := by
            intro other inode h
            by_cases hother : other = found
            · subst hother
              rw [Function.update_self] at h
              cases h
              exact Nat.lt_succ_self _
            · rw [Function.update_of_ne hother] at h
              exact Nat.lt_succ_of_lt (fs.fresh other inode h) })

def rename (fs : Inodes Name) (old new : Name) : Option (Inodes Name) :=
  match hentry : fs.entry old with
  | none => none
  | some entry =>
    some
      { fs with
        entry := Function.update (Function.update fs.entry old none) new (some entry)
        fresh := by
          intro other inode h
          by_cases hnew : other = new
          · subst hnew
            rw [Function.update_self] at h
            exact fs.fresh old inode (hentry.trans h)
          · rw [Function.update_of_ne hnew] at h
            by_cases hold : other = old
            · subst hold
              rw [Function.update_self] at h
              cases h
            · rw [Function.update_of_ne hold] at h
              exact fs.fresh other inode h }

/-- `os.Remove`; nothing happens if there is nothing. -/
def remove (fs : Inodes Name) (name : Name) : Inodes Name :=
  { fs with
    entry := Function.update fs.entry name none
    fresh := by
      intro other inode h
      by_cases hname : other = name
      · subst hname
        rw [Function.update_self] at h
        cases h
      · rw [Function.update_of_ne hname] at h
        exact fs.fresh other inode h }

end Names

/-! ## Private names -/

/-- A name is no link, and no other name leads to its file. -/
structure Private (fs : Inodes Name) (name : Name) : Prop where
  noLink : ∀ target, fs.entry name ≠ some (.link target)
  alone : ∀ inode, fs.entry name = some (.file inode) →
    ∀ other, fs.entry other = some (.file inode) → other = name

variable {fs : Inodes Name} {name : Name}

theorem Private.follow (h : fs.Private name) : fs.follow name = some name := by
  unfold Inodes.follow resolve
  split
  · rename_i target hlink
    exact absurd hlink (h.noLink target)
  · rfl

theorem Private.of_none (h : fs.entry name = none) : fs.Private name where
  noLink target hlink := by
    rw [h] at hlink
    cases hlink
  alone inode hfile := by
    rw [h] at hfile
    cases hfile

/-- A change leaves what a name leads to, and keeps it private. -/
structure Spares (fs after : Inodes Name) (name : Name) : Prop where
  entry : after.entry name = fs.entry name
  data : ∀ inode, fs.entry name = some (.file inode) → after.data inode = fs.data inode
  stays : fs.Private name → after.Private name

theorem Spares.refl (fs : Inodes Name) (name : Name) : fs.Spares fs name :=
  ⟨rfl, fun _ _ => rfl, id⟩

theorem Spares.holds_eq {after : Inodes Name} (h : fs.Spares after name) :
    after.holds name = fs.holds name := by
  unfold Inodes.holds
  rw [h.entry]
  cases hentry : fs.entry name with
  | none => rfl
  | some entry =>
    cases entry with
    | file inode =>
      dsimp only
      rw [h.data inode hentry]
    | link target => rfl

/-- A name keeps its entry and its data, and no entry to its file is made. -/
theorem Spares.of_entry {after : Inodes Name} (hentry : after.entry name = fs.entry name)
    (hdata : ∀ inode, fs.entry name = some (.file inode) → after.data inode = fs.data inode)
    (hold : ∀ inode third, fs.entry name = some (.file inode) →
      after.entry third = some (.file inode) → fs.entry third = some (.file inode)) :
    fs.Spares after name := by
  refine ⟨hentry, hdata, fun h => ⟨hentry ▸ h.noLink, fun inode hinode third hthird => ?_⟩⟩
  rw [hentry] at hinode
  exact h.alone inode hinode third (hold inode third hinode hthird)

theorem Private.ne_inode {other : Name} {inode shared : Nat} (hprivate : fs.Private name)
    (hentry : fs.entry name = some (.file inode)) (hother : other ≠ name)
    (hshared : fs.entry other = some (.file shared)) : shared ≠ inode := by
  rintro rfl
  exact hother (hprivate.alone shared hentry other hshared)

theorem spares_writeAt {other : Name} {inode : Nat}
    (hprivate : fs.Private name) (hentry : fs.entry name = some (.file inode)) (offset : Nat)
    (chunk : String) (hother : other ≠ name) : fs.Spares (fs.writeAt inode offset chunk) other :=
  .of_entry rfl (fun _ h => update_of_ne (hprivate.ne_inode hentry hother h) ..) fun _ _ _ => id

theorem spares_chmod {after : Inodes Name} {mode : Nat}
    (hchmod : fs.chmod name mode = some after) (other : Name) :
    fs.Spares after other ∧ after.data = fs.data := by
  unfold chmod at hchmod
  split at hchmod <;> cases hchmod
  exact ⟨⟨rfl, fun _ _ => rfl, fun h => ⟨h.noLink, h.alone⟩⟩, rfl⟩


section Names

variable [DecidableEq Name]

/-- An opened private name leads to an empty file and stays private; all other names are
left alone. -/
theorem spares_openTruncated {fs after : Inodes Name} {name : Name} {mode inode : Nat}
    (hprivate : fs.Private name) (hopen : fs.openTruncated name mode = some (inode, after)) :
    after.entry name = some (.file inode) ∧ after.data inode = "" ∧ after.Private name ∧
      ∀ other, other ≠ name → fs.Spares after other := by
  unfold openTruncated at hopen
  rw [hprivate.follow] at hopen
  dsimp only at hopen
  cases hentry : fs.entry name with
  | some entry =>
    cases entry with
    | link target => exact absurd hentry (hprivate.noLink target)
    | file old =>
      rw [hentry] at hopen
      cases hopen
      refine ⟨hentry, update_self .., ⟨hprivate.noLink, hprivate.alone⟩, ?_⟩
      intro other hother
      exact .of_entry rfl (fun _ h => update_of_ne (hprivate.ne_inode hentry hother h) ..)
        fun _ _ _ => id
  | none =>
    rw [hentry] at hopen
    cases hopen
    -- the new inode is in use nowhere else
    have hfresh : ∀ other, fs.entry other ≠ some (.file fs.next) := fun other h =>
      Nat.lt_irrefl _ (fs.fresh other _ h)
    refine ⟨update_self .., update_self .., ⟨?_, ?_⟩, ?_⟩
    · intro target hlink
      dsimp only at hlink
      rw [update_self] at hlink
      cases hlink
    · intro inode hinode other hother
      dsimp only at hinode hother
      rw [update_self] at hinode
      cases hinode
      by_contra hne
      rw [update_of_ne hne] at hother
      exact hfresh other hother
    · intro other hother
      refine .of_entry (update_of_ne hother ..)
        (fun shared h => update_of_ne (Nat.ne_of_lt (fs.fresh other shared h)) ..) ?_
      intro shared third hshared hthird
      dsimp only at hthird
      by_cases hname : third = name
      · subst hname
        rw [update_self] at hthird
        cases hthird
        exact absurd hshared (hfresh other)
      · rwa [update_of_ne hname] at hthird

/-- A private file that is renamed is found under its new name only; all other names are
left alone. -/
theorem spares_rename {fs after : Inodes Name} {old new : Name} {inode : Nat}
    (hprivate : fs.Private old) (hentry : fs.entry old = some (.file inode)) (hne : old ≠ new)
    (hrename : fs.rename old new = some after) :
    after.entry old = none ∧ after.holds new = some (.file (fs.data inode)) ∧
      ∀ other, other ≠ old → other ≠ new → fs.Spares after other := by
  unfold rename at hrename
  split at hrename
  · cases hrename
  rename_i entry hold
  rw [hentry] at hold
  cases hold
  cases hrename
  refine ⟨?_, ?_, ?_⟩
  · exact (update_of_ne hne ..).trans (update_self ..)
  · unfold Inodes.holds
    dsimp only
    rw [update_self]
  · intro other hother hnew
    have hsame : ∀ name, name ≠ old → name ≠ new →
        update (update fs.entry old none) new (some (.file inode)) name =
          fs.entry name := by
      intro name hname hname'
      rw [update_of_ne hname', update_of_ne hname]
    refine .of_entry (hsame other hother hnew) (fun _ _ => rfl) fun shared third hshared hthird => ?_
    dsimp only at hthird
    by_cases hthirdNew : third = new
    · subst hthirdNew
      rw [update_self] at hthird
      cases hthird
      exact absurd rfl (hprivate.ne_inode hentry hother hshared)
    · by_cases hthirdOld : third = old
      · subst hthirdOld
        rw [update_of_ne hne, update_self] at hthird
        cases hthird
      · rwa [hsame third hthirdOld hthirdNew] at hthird

theorem spares_remove (fs : Inodes Name) {name other : Name} (hother : other ≠ name) :
    fs.Spares (fs.remove name) other := by
  refine .of_entry (update_of_ne hother ..) (fun _ _ => rfl) fun shared third _ hthird => ?_
  by_cases hname : third = name
  · subst hname
    cases (update_self ..).symm.trans hthird
  · exact (update_of_ne hname ..).symm.trans hthird

end Names

end Inodes

end SonicGnmi.Foundation
