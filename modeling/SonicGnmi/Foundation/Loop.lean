import Mathlib.Data.List.Forall2
import Mathlib.Data.List.Induction

/-!
# Loops that stop at the first error

A loop over a list whose body changes a state or fails, written with `foldlM`.

* `ok_cons_iff`, `ok_append_iff`, `ok_snoc_iff` — a loop that ends is the loop
  over its parts;
* `invariant` — what every turn keeps holds at the end; a turn is told which
  items came before it;
* `mapM_eq_some_iff` — a partial function on every item of a list;
* `runChecked`, `inTurn` — loops whose effects stay when they stop;
* `accepted`, `trace`, `inTurn_eq_runChecked` — what such a loop has written.
-/

namespace SonicGnmi.Foundation

theorem ok_of_toOption {Err Value : Type} {x : Except Err Value} {value : Value}
    (h : x.toOption = some value) : x = .ok value := by
  cases x with
  | error e => cases h
  | ok found =>
    cases h
    rfl

namespace Loop

variable {State Item Err : Type} {body : State → Item → Except Err State}

variable {s s' : State} {items : List Item}

theorem ok_of_map {Value Result : Type} {f : Value → Result} {x : Except Err Value} {result : Result}
    (h : x.map f = .ok result) : ∃ value, x = .ok value ∧ result = f value := by
  cases x with
  | error e => cases h
  | ok value =>
    cases h
    exact ⟨value, rfl, rfl⟩

/-- Two steps in a row that were evaluated to a result. -/
theorem ok_of_toOption {Value Result : Type} {x : Except Err Value} {f : Value → Except Err Result}
    {result : Result} (h : (x.toOption.bind fun value => (f value).toOption) = some result) :
    ∃ value, x = .ok value ∧ f value = .ok result := by
  obtain ⟨value, hx, hf⟩ := Option.bind_eq_some_iff.1 h
  exact ⟨value, Foundation.ok_of_toOption hx, Foundation.ok_of_toOption hf⟩

theorem ok_cons_iff {item : Item} {rest : List Item} :
    (item :: rest).foldlM body s = .ok s' ↔
      ∃ s₁, body s item = .ok s₁ ∧ rest.foldlM body s₁ = .ok s' := by
  rw [List.foldlM_cons]
  cases body s item with
  | error e => simp [bind, Except.bind]
  | ok s₁ => simp [bind, Except.bind]

theorem ok_append_iff {more : List Item} :
    (items ++ more).foldlM body s = .ok s' ↔
      ∃ s₁, items.foldlM body s = .ok s₁ ∧ more.foldlM body s₁ = .ok s' := by
  induction items generalizing s with
  | nil => simp [pure, Except.pure]
  | cons item rest ih =>
    simp only [List.cons_append, ok_cons_iff, ih, ← exists_and_left, ← exists_and_right, and_assoc]
    exact exists_comm

theorem ok_snoc_iff {item : Item} :
    (items ++ [item]).foldlM body s = .ok s' ↔
      ∃ s₁, items.foldlM body s = .ok s₁ ∧ body s₁ item = .ok s' := by
  simp only [ok_append_iff, ok_cons_iff, List.foldlM_nil, pure, Except.pure, Except.ok.injEq,
    exists_eq_right]

/-- The invariant rule. -/
theorem invariant (Inv : State → Prop) (hinit : Inv s)
    (hstep : ∀ done item rest, items = done ++ item :: rest → ∀ s₁ s₂,
      done.foldlM body s = .ok s₁ → Inv s₁ → body s₁ item = .ok s₂ → Inv s₂)
    (hrun : items.foldlM body s = .ok s') : Inv s' := by
  -- The induction takes the items from the end, so that a turn sees all before it.
  induction items using List.reverseRecOn generalizing s' with
  | nil =>
    cases hrun
    exact hinit
  | append_singleton done item ih =>
    obtain ⟨s₁, hdone, hbody⟩ := ok_snoc_iff.1 hrun
    refine hstep done item [] rfl s₁ s' hdone (ih ?_ hdone) hbody
    intro done' item' rest hsplit
    exact hstep done' item' (rest ++ [item]) (by rw [hsplit, List.append_assoc, List.cons_append])

theorem mapM_eq_some_iff {Value : Type} {f : Item → Option Value} {values : List Value} :
    items.mapM f = some values ↔
      List.Forall₂ (fun item value => f item = some value) items values := by
  induction items generalizing values with
  | nil => simp [eq_comm]
  | cons item rest ih =>
    rw [List.mapM_cons]
    constructor
    · intro h
      obtain ⟨value, hvalue, hrest⟩ := Option.bind_eq_some_iff.1 h
      obtain ⟨values', hvalues', hcons⟩ := Option.bind_eq_some_iff.1 hrest
      cases hcons
      exact List.Forall₂.cons hvalue (ih.1 hvalues')
    · rintro (_ | ⟨hvalue, hrest⟩)
      rw [hvalue, ih.2 hrest]
      rfl

/-! ## Loops whose effects stay -/

section Checked

variable {Write : Type}

def runChecked (apply : State → Write → State) :
    State → List (Except Err Write) → State × Except Err Unit
  | s, [] => (s, .ok ())
  | s, .error e :: _ => (s, .error e)
  | s, .ok write :: rest => runChecked apply (apply s write) rest

/-- A loop whose body changes the state, and may then fail. -/
def inTurn (body : State → Item → State × Except Err Unit) :
    State → List Item → State × Except Err Unit
  | s, [] => (s, .ok ())
  | s, item :: rest =>
    match body s item with
    | (s, .error e) => (s, .error e)
    | (s, .ok ()) => inTurn body s rest

theorem inTurn_append (body : State → Item → State × Except Err Unit) (s : State)
    (items more : List Item) :
    inTurn body s (items ++ more) =
      match inTurn body s items with
      | (s, .error e) => (s, .error e)
      | (s, .ok ()) => inTurn body s more := by
  induction items generalizing s with
  | nil => rfl
  | cons item rest ih =>
    rw [List.cons_append, inTurn, inTurn]
    split
    · rfl
    · exact ih _

/-- The writes before the first one that is rejected. -/
def accepted : List (Except Err Write) → List Write
  | [] => []
  | .error _ :: _ => []
  | .ok write :: rest => write :: accepted rest

variable (apply : State → Write → State)

theorem runChecked_fst (s : State) (steps : List (Except Err Write)) :
    (runChecked apply s steps).1 = (accepted steps).foldl apply s := by
  induction steps generalizing s with
  | nil => rfl
  | cons step rest ih =>
    cases step with
    | error e => rfl
    | ok write => exact ih (apply s write)

theorem runChecked_map_ok (s : State) (writes : List Write) :
    runChecked apply s (writes.map (Except.ok : Write → Except Err Write)) =
      (writes.foldl apply s, .ok ()) := by
  induction writes generalizing s with
  | nil => rfl
  | cons write rest ih => exact ih (apply s write)

theorem runChecked_append (s : State) (steps more : List (Except Err Write)) :
    runChecked apply s (steps ++ more) =
      match runChecked apply s steps with
      | (s, .error e) => (s, .error e)
      | (s, .ok ()) => runChecked apply s more := by
  induction steps generalizing s with
  | nil => rfl
  | cons step rest ih =>
    cases step with
    | error e => rfl
    | ok write => exact ih (apply s write)

/-- All writes of a loop that goes through items, each of which is turned into
writes in the state that the items before it have left. -/
def trace (apply : State → Write → State) (steps : State → Item → List (Except Err Write)) :
    State → List Item → List (Except Err Write)
  | _, [] => []
  | s, item :: rest =>
    steps s item ++ trace apply steps (runChecked apply s (steps s item)).1 rest

theorem inTurn_eq_runChecked {apply : State → Write → State}
    {steps : State → Item → List (Except Err Write)} {body : State → Item → State × Except Err Unit}
    (hbody : ∀ s item, body s item = runChecked apply s (steps s item)) (s : State)
    (items : List Item) : inTurn body s items = runChecked apply s (trace apply steps s items) := by
  induction items generalizing s with
  | nil => rfl
  | cons item rest ih =>
    rw [inTurn, trace, runChecked_append, hbody]
    rcases runChecked apply s (steps s item) with ⟨s₁, e | ⟨⟩⟩
    · rfl
    · exact ih s₁

end Checked

end Loop
end SonicGnmi.Foundation
