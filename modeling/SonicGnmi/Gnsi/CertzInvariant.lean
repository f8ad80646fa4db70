import SonicGnmi.Gnsi.CertzPaths
import SonicGnmi.Gnsi.CertzSession

/-!
# What a rotation keeps

The relation between the entities of a profile, the links and the files that
holds at every point of a rotation, in the middle of a session too.

* `kept` — the files a type still needs: those of the active entity, and those of
  the last one as long as a revert may bring it back;
* `EntitySound` — the relation for one type, with one lemma for each of the
  changes a rotation makes (`spares`, `finalize`, `revert`, `upload`);
* `ProfileSound` — all types together, and no file is needed by two of them;
  `ProfileSound.update` lifts a change of one type that stays within what the
  type owns.
-/

namespace SonicGnmi.Gnsi

open Foundation Grpc FileSystem List

/-- The files a type still needs. -/
def kept (t : CertzType) (active last : GenericEntity) : List String :=
  entityPaths t active ++ if active.final then [] else entityPaths t last

theorem entityPaths_subset_kept {t : CertzType} {active : GenericEntity} (last : GenericEntity)
    {path : String} (h : path ∈ entityPaths t active) : path ∈ kept t active last :=
  mem_append_left _ h

theorem last_subset_kept {t : CertzType} {active last : GenericEntity}
    (hfinal : active.final = false) {path : String} (h : path ∈ entityPaths t last) :
    path ∈ kept t active last := by
  refine mem_append_right _ ?_
  rwa [if_neg (by simp [hfinal])]

section Invariant

variable (config : CertzConfig) (cwd : Location)

/-- The links stand apart from each other, from what the other rotations sweep
and from the names of files that are generated after a time. -/
structure Setting (now : Nat) : Prop where
  names : ∀ name ∈ cwd, ProperName name
  distinct : DistinctLinks config cwd
  unswept : ∀ loc, IsLink config cwd loc → ¬ Swept config cwd loc
  undated : ∀ loc, IsLink config cwd loc → Undated now loc
  policy : Undated now (locate cwd config.fedPolicyFile)

/-- A location for the files of an entity. -/
structure Safe (now : Nat) (loc : Location) : Prop where
  unswept : ¬ Swept config cwd loc
  unlinked : ¬ IsLink config cwd loc
  undated : Undated now loc

/-- The entities of one type agree with the links and the files. -/
structure EntitySound (now : Nat) (fs : FileSystem) (t : CertzType)
    (active last : GenericEntity) : Prop where
  eType : active.eType = t
  points : ∀ pair ∈ linked config t active, PointsTo fs pair.1 pair.2
  present : ∀ path ∈ kept t active last, (fs.node (locate cwd path)).isSome = true
  safe : ∀ path ∈ kept t active last, Safe config cwd now (locate cwd path)
  last : active.final = false → last.final = true ∧ last.eType = t ∧
    ∀ path ∈ entityPaths t active, ∀ other ∈ entityPaths t last,
      locate cwd path ≠ locate cwd other
  policy : t = .authPolicy → active.final = false → active.certPath = config.fedPolicyFile

/-- All entities of a profile agree with the links and the files. -/
structure ProfileSound (now : Nat) (fs : FileSystem) (profile : CertzProfile) : Prop where
  here : fs.cwd = cwd
  entity : ∀ t, EntitySound config cwd now fs t (profile.active.get t) (profile.last.get t)
  apart : ∀ t u, t ≠ u → ∀ path ∈ kept t (profile.active.get t) (profile.last.get t),
    ∀ other ∈ kept u (profile.active.get u) (profile.last.get u),
      locate cwd path ≠ locate cwd other

variable {config cwd} {now : Nat} {fs after : FileSystem} {t u : CertzType}
  {active last entity : GenericEntity} {profile : CertzProfile}

variable {later : Nat}

theorem Setting.mono (h : Setting config cwd now) (hlater : now ≤ later) :
    Setting config cwd later :=
  { h with
    undated := fun loc hloc => (h.undated loc hloc).mono hlater
    policy := h.policy.mono hlater }

theorem Safe.mono {loc : Location} (h : Safe config cwd now loc)
    (hlater : now ≤ later) : Safe config cwd later loc :=
  { h with undated := h.undated.mono hlater }

theorem EntitySound.mono (h : EntitySound config cwd now fs t active last)
    (hlater : now ≤ later) : EntitySound config cwd later fs t active last :=
  { h with safe := fun path hpath => (h.safe path hpath).mono hlater }

theorem ProfileSound.mono (h : ProfileSound config cwd now fs profile)
    (hlater : now ≤ later) : ProfileSound config cwd later fs profile :=
  { h with entity := fun t => (h.entity t).mono hlater }

/-! ## Links -/

theorem isLink_of_linked {pair : String × String} (h : pair ∈ linked config t entity) :
    IsLink config cwd (locate cwd pair.1) := by
  cases t with
  | cert =>
    simp only [linked, mem_cons, not_mem_nil, or_false] at h
    rcases h with rfl | rfl
    · exact Or.inl rfl
    · exact Or.inr (Or.inl rfl)
  | trustBundle =>
    simp only [linked, mem_cons, not_mem_nil, or_false] at h
    subst h
    exact Or.inr (Or.inr rfl)
  | crl | authPolicy => exact absurd h not_mem_nil

theorem linked_apart (hlinks : DistinctLinks config cwd) (hne : t ≠ u)
    {other : GenericEntity} {pair pair' : String × String} (h : pair ∈ linked config t entity)
    (h' : pair' ∈ linked config u other) : locate cwd pair.1 ≠ locate cwd pair'.1 := by
  cases t <;> cases u <;>
    simp only [linked, mem_cons, not_mem_nil, or_false, ne_eq, not_true_eq_false] at h h' hne
  · subst h'
    rcases h with rfl | rfl
    · exact hlinks.certCa
    · exact hlinks.keyCa
  · subst h
    rcases h' with rfl | rfl
    · exact hlinks.certCa.symm
    · exact hlinks.keyCa.symm

/-- The locations of the links of a type. -/
def LinkOf (config : CertzConfig) (cwd : Location) (t : CertzType) (loc : Location) : Prop :=
  ∃ pair ∈ linked config t {}, loc = locate cwd pair.1

theorem linkOf_iff (entity : GenericEntity) (loc : Location) :
    LinkOf config cwd t loc ↔ ∃ pair ∈ linked config t entity, loc = locate cwd pair.1 := by
  cases t <;> simp [LinkOf, linked]

/-- The links of a type lead to the new entity, and all else is spared. -/
theorem setLinks_spares (hsetting : Setting config cwd now) (hcwd : fs.cwd = cwd)
    (entity : GenericEntity) (hold : ∀ pair ∈ linked config t active, PointsTo fs pair.1 pair.2) :
    ∃ after, setLinks config fs t entity = (.ok (), after) ∧ fs.Spares after (LinkOf config cwd t) ∧
      ∀ pair ∈ linked config t entity, PointsTo after pair.1 pair.2 := by
  subst hcwd
  obtain ⟨after, hset, hcwd, hlinks, hrest⟩ := setLinks_linked hsetting.distinct entity hold
  have hother : ∀ loc, ¬ LinkOf config fs.cwd t loc → after.node loc = fs.node loc := by
    intro loc hloc
    refine hrest loc fun pair hpair heq => hloc ?_
    exact (linkOf_iff entity loc).2 ⟨pair, hpair, heq⟩
  refine ⟨after, hset, ⟨hcwd, ?_, ?_⟩, fun pair hpair => ?_⟩
  · intro loc target hloc hnode
    rw [hother loc hloc, hnode]
  · intro loc hloc hnode
    rwa [hother loc hloc]
  · have hloc : ∀ path, after.loc path = fs.loc path := loc_of_cwd hcwd
    refine pointsTo_of_text (by rw [hcwd]; exact hsetting.names) ?_
    rw [hloc, hloc]
    exact hlinks pair hpair

theorem PointsTo.spares {touched : Location → Prop} {link path : String}
    (h : PointsTo fs link path) (hspares : fs.Spares after touched)
    (hlink : ¬ touched (fs.loc link)) : PointsTo after link path := by
  obtain ⟨target, hnode, htarget⟩ := h
  refine ⟨target, ?_, ?_⟩
  · rw [hspares.loc]
    exact hspares.link _ _ hlink hnode
  · rw [hspares.loc, hspares.loc]
    exact htarget

/-! ## The changes of one type -/

section

variable (h : EntitySound config cwd now fs t active last)
include h

theorem EntitySound.spares {touched : Location → Prop} (hcwd : fs.cwd = cwd)
    (hspares : fs.Spares after touched) (hlinks : ∀ loc, LinkOf config cwd t loc → ¬ touched loc)
    (hkept : ∀ path ∈ kept t active last, ¬ touched (locate cwd path)) :
    EntitySound config cwd now after t active last :=
  { h with
    points := fun pair hpair => (h.points pair hpair).spares hspares (by
      rw [loc_of_cwd hcwd]
      exact hlinks _ ((linkOf_iff active _).2 ⟨pair, hpair, rfl⟩))
    present := fun path hpath => hspares.present _ (hkept path hpath) (h.present path hpath) }

theorem EntitySound.of_final {other : GenericEntity} (hfinal : active.final = true) :
    EntitySound config cwd now fs t active other := by
  have hkept : kept t active other = kept t active last := by simp [kept, hfinal]
  refine ⟨h.eType, h.points, ?_, ?_, fun hnot => ?_, fun _ hnot => ?_⟩
  · rw [hkept]
    exact h.present
  · rw [hkept]
    exact h.safe
  all_goals
    rw [hfinal] at hnot
    cases hnot

/-- Finalizing gives up the files of the last entity. -/
theorem EntitySound.finalize (other : GenericEntity) :
    EntitySound config cwd now fs t { active with final := true } other := by
  have hpaths : entityPaths t { active with final := true } = entityPaths t active := by
    cases t <;> rfl
  have hlinked : linked config t { active with final := true } = linked config t active := by
    cases t <;> rfl
  have hkept : ∀ path ∈ kept t { active with final := true } other, path ∈ kept t active last := by
    intro path hpath
    simp only [kept, if_true, append_nil, hpaths] at hpath
    exact entityPaths_subset_kept last hpath
  refine ⟨h.eType, ?_, fun path hpath => h.present path (hkept path hpath),
    fun path hpath => h.safe path (hkept path hpath), fun hnot => ?_, fun _ hnot => ?_⟩
  · rw [hlinked]
    exact h.points
  · cases hnot
  · cases hnot

/-- Reverting gives up the files of the active entity. -/
theorem EntitySound.revert (hsetting : Setting config cwd now) (hcwd : fs.cwd = cwd)
    (hfinal : active.final = false) :
    ∃ after, setLinks config fs t last = (.ok (), after) ∧
      fs.Spares after (LinkOf config cwd t) ∧ EntitySound config cwd now after t last last := by
  obtain ⟨after, hset, hspares, hpoints⟩ := setLinks_spares hsetting hcwd last h.points
  obtain ⟨hlast, htype, -⟩ := h.last hfinal
  have hkept : ∀ path ∈ kept t last last, path ∈ kept t active last := by
    intro path hpath
    simp only [kept, hlast, if_true, append_nil] at hpath
    exact last_subset_kept hfinal hpath
  refine ⟨after, hset, hspares, htype, hpoints, fun path hpath => ?_,
    fun path hpath => h.safe path (hkept path hpath), fun hnot => ?_, fun _ hnot => ?_⟩
  · refine hspares.present _ (fun hlink => ?_) (h.present path (hkept path hpath))
    obtain ⟨pair, hpair, heq⟩ := hlink
    exact (h.safe path (hkept path hpath)).unlinked (heq ▸ isLink_of_linked hpair)
  all_goals
    rw [hlast] at hnot
    cases hnot

end

/-- A new entity, whose files are named after a time. -/
structure Fresh (config : CertzConfig) (cwd : Location) (now later : Nat) (t : CertzType)
    (entity : GenericEntity) : Prop where
  eType : entity.eType = t
  pending : entity.final = false
  safe : ∀ path ∈ entityPaths t entity, Safe config cwd later (locate cwd path)
  dated : ∀ path ∈ entityPaths t entity, ¬ Undated now (locate cwd path)
  policy : t = .authPolicy → entity.certPath = config.fedPolicyFile

theorem mem_kept_upload (hpending : entity.final = false) {path : String}
    (h : path ∈ kept t entity (if active.final then active else last)) :
    path ∈ entityPaths t entity ∨ path ∈ kept t active last := by
  rw [kept, hpending, if_neg Bool.false_ne_true] at h
  refine (mem_append.1 h).imp_right fun hlast => ?_
  rcases hfinal : active.final with _ | _
  · rw [hfinal, if_neg Bool.false_ne_true] at hlast
    exact last_subset_kept hfinal hlast
  · rw [hfinal, if_pos rfl] at hlast
    exact entityPaths_subset_kept last hlast

/-- A new entity takes over the links; what it replaces is the last one, unless
that was not final itself. -/
theorem EntitySound.upload (hsetting : Setting config cwd now) (hcwd : fs.cwd = cwd)
    (h : EntitySound config cwd now fs t active last) (hlater : now ≤ later)
    (hfresh : Fresh config cwd now later t entity)
    (hsaved : ∀ path ∈ entityPaths t entity, (fs.node (locate cwd path)).isSome = true) :
    ∃ after, setLinks config fs t entity = (.ok (), after) ∧ fs.Spares after (LinkOf config cwd t) ∧
      EntitySound config cwd later after t entity (if active.final then active else last) := by
  obtain ⟨after, hset, hspares, hpoints⟩ := setLinks_spares hsetting hcwd entity h.points
  have hsafe : ∀ path ∈ kept t entity (if active.final then active else last),
      Safe config cwd later (locate cwd path) := fun path hpath =>
    (mem_kept_upload hfresh.pending hpath).elim (hfresh.safe path) fun hold =>
      (h.safe path hold).mono hlater
  refine ⟨after, hset, hspares, hfresh.eType, hpoints, fun path hpath => ?_, hsafe,
    fun _ => ?_, fun htype _ => hfresh.policy htype⟩
  · refine hspares.present _ (fun hlink => ?_) ?_
    · obtain ⟨pair, hpair, heq⟩ := hlink
      exact (hsafe path hpath).unlinked (heq ▸ isLink_of_linked hpair)
    · exact (mem_kept_upload hfresh.pending hpath).elim (hsaved path) (h.present path)
  · have hapart : ∀ path ∈ entityPaths t entity, ∀ other ∈ kept t active last,
        locate cwd path ≠ locate cwd other := by
      intro path hpath other hother heq
      exact hfresh.dated path hpath (heq ▸ (h.safe other hother).undated)
    rcases hfinal : active.final with _ | _
    · obtain ⟨hlast, htype, -⟩ := h.last hfinal
      exact ⟨hlast, htype, fun path hpath other hother =>
        hapart path hpath other (last_subset_kept hfinal hother)⟩
    · rw [if_pos rfl]
      exact ⟨hfinal, h.eType, fun path hpath other hother =>
        hapart path hpath other (entityPaths_subset_kept last hother)⟩

/-! ## All types -/

/-- What a change of one type may touch: its links, the files it needs, and what
is swept. -/
def Owned (config : CertzConfig) (cwd : Location) (t : CertzType) (active last : GenericEntity)
    (loc : Location) : Prop :=
  LinkOf config cwd t loc ∨ (∃ path ∈ kept t active last, loc = locate cwd path) ∨
    Swept config cwd loc

variable (hsetting : Setting config cwd now) (h : ProfileSound config cwd now fs profile)
include hsetting h

/-- What one type owns is of no use to another. -/
theorem ProfileSound.not_owned (hne : t ≠ u) :
    (∀ loc, LinkOf config cwd u loc →
        ¬ Owned config cwd t (profile.active.get t) (profile.last.get t) loc) ∧
      ∀ path ∈ kept u (profile.active.get u) (profile.last.get u),
        ¬ Owned config cwd t (profile.active.get t) (profile.last.get t) (locate cwd path) := by
  constructor
  · rintro loc ⟨pair, hpair, rfl⟩ (⟨other, hother, heq⟩ | ⟨path, hpath, heq⟩ | hswept)
    · exact linked_apart hsetting.distinct hne.symm hpair hother heq
    · exact ((h.entity t).safe path hpath).unlinked (heq ▸ isLink_of_linked hpair)
    · exact hsetting.unswept _ (isLink_of_linked hpair) hswept
  · rintro path hpath (⟨other, hother, heq⟩ | ⟨other, hother, heq⟩ | hswept)
    · exact ((h.entity u).safe path hpath).unlinked (heq ▸ isLink_of_linked hother)
    · exact h.apart u t hne.symm path hpath other hother heq
    · exact ((h.entity u).safe path hpath).unswept hswept

/-- One type changes within what it owns, and needs no new files but dated
ones. -/
theorem ProfileSound.update (t : CertzType) {profile' : CertzProfile} (hlater : now ≤ later)
    (hspares : fs.Spares after (Owned config cwd t (profile.active.get t) (profile.last.get t)))
    (hrest : ∀ u, u ≠ t → profile'.active.get u = profile.active.get u ∧
      profile'.last.get u = profile.last.get u)
    (hnew : EntitySound config cwd later after t (profile'.active.get t) (profile'.last.get t))
    (hkept : ∀ path ∈ kept t (profile'.active.get t) (profile'.last.get t),
      path ∈ kept t (profile.active.get t) (profile.last.get t) ∨ ¬ Undated now (locate cwd path)) :
    ProfileSound config cwd later after profile' := by
  have hapart : ∀ u, u ≠ t → ∀ path ∈ kept t (profile'.active.get t) (profile'.last.get t),
      ∀ other ∈ kept u (profile'.active.get u) (profile'.last.get u),
        locate cwd path ≠ locate cwd other := by
    intro u hu path hpath other hother heq
    rw [(hrest u hu).1, (hrest u hu).2] at hother
    rcases hkept path hpath with hold | hdated
    · exact h.apart t u hu.symm path hold other hother heq
    · exact hdated (heq ▸ ((h.entity u).safe other hother).undated)
  refine ⟨hspares.cwd.trans h.here, fun u => ?_, fun u v huv => ?_⟩
  · by_cases hu : u = t
    · subst hu
      exact hnew
    · obtain ⟨hlinks, hfiles⟩ := h.not_owned hsetting (Ne.symm hu)
      rw [(hrest u hu).1, (hrest u hu).2]
      exact ((h.entity u).spares h.here hspares hlinks hfiles).mono hlater
  · by_cases hu : u = t
    · subst hu
      exact hapart v huv.symm
    by_cases hv : v = t
    · subst hv
      exact fun path hpath other hother heq => hapart u hu other hother path hpath heq.symm
    · rw [(hrest u hu).1, (hrest u hu).2, (hrest v hv).1, (hrest v hv).2]
      exact h.apart u v huv

/-- The rotation of policies and lists changes nothing that matters here. -/
theorem ProfileSound.swept (hspares : fs.Spares after (Swept config cwd)) :
    ProfileSound config cwd now after profile := by
  refine ⟨hspares.cwd.trans h.here, fun t => ?_, h.apart⟩
  refine (h.entity t).spares h.here hspares ?_ fun path hpath => ((h.entity t).safe path hpath).unswept
  rintro loc ⟨pair, hpair, rfl⟩
  exact hsetting.unswept _ (isLink_of_linked hpair)

end Invariant

end SonicGnmi.Gnsi
