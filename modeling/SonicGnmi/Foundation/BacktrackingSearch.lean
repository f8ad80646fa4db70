import Mathlib.Data.List.Basic

/-!
# Depth-first search with ordered alternatives

A labelled graph is searched along a query word.  Every query letter offers a
list of edge labels in order of preference; the search descends along the
first label whose subtree yields a value and falls back to the value of the
current node when none of them does.

The module relates this backtracking search to the words themselves:

* `Fits` — the label words that the search may follow for a query word;
* `Precedes` — the preference between two such words: at the first position
  where they differ the earlier alternative wins, and a proper extension wins
  over the word it extends;
* `search_eq_none_iff` and `search_best` — the search fails exactly when no
  fitting word reaches a value, and otherwise returns the value of the unique
  most preferred word.
-/

namespace SonicGnmi.Foundation
namespace BacktrackingSearch

open List

/-- A labelled graph with values at some nodes, and the labels each query
letter may follow, most preferred first. -/
structure Space (Node Label Query Value : Type*) where
  child : Node → Label → Option Node
  value : Node → Option Value
  alternatives : Query → List Label

variable {Node Label Query Value : Type*}
/-- Follow a label word from a node. -/
def walk (child : Node → Label → Option Node) : Node → List Label → Option Node
  | node, [] => some node
  | node, label :: rest =>
    match child node label with
    | none => none
    | some next => walk child next rest

variable (child : Node → Label → Option Node)

@[simp] theorem walk_nil (node : Node) :
    walk child node [] = some node := rfl

theorem walk_cons (node : Node) (label : Label) (word : List Label) :
    walk child node (label :: word) = (child node label).bind fun next => walk child next word := by
  rw [walk]
  cases child node label <;> rfl

variable (space : Space Node Label Query Value)

variable (node : Node)

/-- The value reached by a label word, if any. -/
def valueAt (word : List Label) : Option Value :=
  (walk space.child node word).bind space.value

/-- Backtracking search: alternatives first, the node's own value last. -/
def search : Node → List Query → Option Value
  | node, [] => space.value node
  | node, query :: rest =>
    ((space.alternatives query).findSome? fun label =>
      match space.child node label with
      | none => none
      | some next => search next rest).or (space.value node)

/-- A label word that the search may follow: a prefix of the query word, with
every label among the alternatives of its query letter. -/
def Fits : List Label → List Query → Prop
  | [], _ => True
  | _ :: _, [] => False
  | label :: word, query :: rest =>
    label ∈ space.alternatives query ∧ Fits word rest

/-- Preference between two fitting words. -/
def Precedes [DecidableEq Label] : List Query → List Label → List Label → Prop
  | _ :: _, _ :: _, [] => True
  | query :: rest, label :: word, label' :: word' =>
    (label = label' ∧ Precedes rest word word') ∨
      (space.alternatives query).idxOf label <
        (space.alternatives query).idxOf label'
  | _, _, _ => False

@[simp] theorem valueAt_nil : valueAt space node [] = space.value node := rfl

theorem valueAt_cons (label : Label) (word : List Label) :
    valueAt space node (label :: word) =
      (space.child node label).bind fun next => valueAt space next word := by
  unfold valueAt
  rw [walk_cons]
  cases space.child node label <;> rfl

/-- One descent of the search, as a function of the label alone. -/
def descend (rest : List Query) (label : Label) : Option Value :=
  (space.child node label).bind fun next => search space next rest

theorem search_cons (query : Query) (rest : List Query) :
    search space node (query :: rest) =
      ((space.alternatives query).findSome? (descend space node rest)).or (space.value node) := by
  rw [search]
  congr 2
  funext label
  unfold descend
  cases space.child node label <;> rfl

theorem descend_eq_none_iff {rest : List Query} (label : Label)
    (h : ∀ next, search space next rest = none ↔
      ∀ word, Fits space word rest → valueAt space next word = none) :
    descend space node rest label = none ↔
      ∀ word, Fits space word rest → valueAt space node (label :: word) = none := by
  unfold descend
  simp only [valueAt_cons]
  cases space.child node label with
  | none => simp
  | some next => exact h next

/-- The search fails exactly when no fitting word reaches a value. -/
theorem search_eq_none_iff (queries : List Query) : search space node queries = none ↔
      ∀ word, Fits space word queries → valueAt space node word = none := by
  induction queries generalizing node with
  | nil =>
    constructor
    · intro hnone word hfits
      cases word with
      | nil => exact hnone
      | cons label word => exact hfits.elim
    · intro hall
      exact hall [] trivial
  | cons query rest ih =>
    rw [search_cons, Option.or_eq_none_iff, findSome?_eq_none_iff]
    simp only [descend_eq_none_iff space node _ ih]
    constructor
    · rintro ⟨hdescend, hvalue⟩ word hfits
      cases word with
      | nil => exact hvalue
      | cons label word => exact hdescend label hfits.1 word hfits.2
    · exact fun hall =>
        ⟨fun label hlabel word hword => hall (label :: word) ⟨hlabel, hword⟩, hall [] trivial⟩

/-- In a list, the first element with a property comes before every other
element that has it. -/
private theorem idxOf_lt_of_first [DecidableEq Label] {before after : List Label}
    {first other : Label} (hfirst : first ∉ before) (hother : other ∉ before)
    (hne : other ≠ first) (hmem : other ∈ before ++ first :: after) :
    (before ++ first :: after).idxOf first < (before ++ first :: after).idxOf other := by
  have hafter : other ∈ after := by
    rcases mem_append.1 hmem with h | h
    · exact absurd h hother
    · exact (mem_cons.1 h).resolve_left hne
  rw [idxOf_append_of_notMem hfirst, idxOf_append_of_notMem hother]
  rw [idxOf_cons_self, idxOf_cons_ne _ (Ne.symm hne)]
  omega

/-- A successful search returns the value of a fitting word that is preferred
to every other fitting word with a value. -/
theorem search_best [DecidableEq Label] {node : Node} {queries : List Query}
    {result : Value} (hsearch : search space node queries = some result) :
    ∃ word, Fits space word queries ∧ valueAt space node word = some result ∧
      ∀ other, Fits space other queries → valueAt space node other ≠ none →
        other = word ∨ Precedes space queries word other := by
  induction queries generalizing node with
  | nil =>
    refine ⟨[], trivial, hsearch, ?_⟩
    intro other hfits _
    cases other with
    | nil => exact .inl rfl
    | cons label other => exact hfits.elim
  | cons query rest ih =>
    have hnone : ∀ node label, descend space node rest label = none →
        ∀ word, Fits space word rest → valueAt space node (label :: word) = none :=
      fun node label => (descend_eq_none_iff space node label (search_eq_none_iff space · rest)).1
    rw [search_cons] at hsearch
    cases hfind : (space.alternatives query).findSome? (descend space node rest) with
    | none =>
      -- No alternative yields a value, so the node's own value is the only hit.
      rw [hfind, Option.none_or] at hsearch
      rw [findSome?_eq_none_iff] at hfind
      refine ⟨[], trivial, hsearch, ?_⟩
      intro other hfits hvalue
      cases other with
      | nil => exact .inl rfl
      | cons label other =>
        exact absurd (hnone node label (hfind label hfits.1) other hfits.2) hvalue
    | some found =>
      rw [hfind, Option.some_or, Option.some.injEq] at hsearch
      subst hsearch
      obtain ⟨before, label, after, hsplit, hlabel, hbefore⟩ := findSome?_eq_some_iff.1 hfind
      have hchild : ∃ next, space.child node label = some next ∧
          search space next rest = some found := by
        exact Option.bind_eq_some_iff.1 hlabel
      obtain ⟨next, hnext, hfound⟩ := hchild
      obtain ⟨word, hfits, hvalue, hbest⟩ := ih hfound
      have hmem : label ∈ space.alternatives query := by
        rw [hsplit]
        simp
      refine ⟨label :: word, ⟨hmem, hfits⟩, ?_, ?_⟩
      · rw [valueAt_cons, hnext]
        exact hvalue
      intro other hother hothervalue
      cases other with
      | nil => exact .inr trivial
      | cons label' other =>
        obtain ⟨hmem', hother⟩ := hother
        by_cases hsame : label' = label
        · subst hsame
          rw [valueAt_cons, hnext] at hothervalue
          rcases hbest other hother hothervalue with heq | hprec
          · exact .inl (by rw [heq])
          · exact .inr (.inl ⟨rfl, hprec⟩)
        · -- A different label was not tried before `label`: its subtree has a value.
          have hnot : label' ∉ before := fun hin =>
            hothervalue (hnone node label' (hbefore label' hin) other hother)
          have hnotself : label ∉ before := by
            intro hin
            have hfailed := hbefore label hin
            rw [hlabel] at hfailed
            contradiction
          refine .inr (.inr ?_)
          rw [hsplit] at hmem' ⊢
          exact idxOf_lt_of_first hnotself hnot hsame hmem'

end BacktrackingSearch
end SonicGnmi.Foundation
