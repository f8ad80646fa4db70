import SonicGnmi.GnmiServer.SubscribeHandlers

/-!
# The registry of the Subscribe clients

`s.clients` is to hold, for every peer address, the client of the latest session
with that address as long as it runs.  A handler that returns from `Client.Run`
removes the entry of its address whoever's it is, so the map can lose a session:

* `replaced_session_unlists` — a session that was replaced ends after the session
  that replaced it was put into the map, and removes its entry.

`registry_accurate` says that nothing else goes wrong: as long as every handler
finds its own entry or none when it removes it, the map is right whenever nobody
holds `cMu`.

`Client.Run` counts as left when its handler has taken `cMu` to remove the entry.
-/

namespace SonicGnmi.GnmiServer

open Foundation Handler List Option

namespace Handler

/-- The handler holds `cMu`. -/
def locked (h : Handler) : Bool :=
  match h.stage with
  | .entering | .closing _ | .dropping | .installing | .unlocking | .exiting | .exitUnlocking =>
    true
  | _ => false

/-- The client of the handler was put into the map, and the handler has not yet removed
the entry of its address. -/
def listed (h : Handler) : Bool :=
  match h.stage with
  | .unlocking | .run _ | .leaving | .exiting => true
  | _ => false

end Handler

/-- The handler with a number is listed. -/
def isListed (threads : List Handler) (index : Nat) : Bool :=
  (threads[index]?).any Handler.listed

/-- The latest session with an address, if it is still running. -/
def currentSession (s : Threads SubscribeServer Handler) (addr : String) : Option Nat :=
  (s.shared.registry.started.lookup addr).filter (isListed s.threads)

/-- The condition: a handler removes the entry of its address only when this is its own
entry, or there is none. -/
def OwnExit (s : Threads SubscribeServer Handler) : Move (String × String) Choice → Prop
  | .spawn _ => True
  | .act index _ =>
    ∀ h ∈ s.threads[index]?, h.stage = .exiting →
      s.shared.registry.clients.lookup h.addr = some index ∨
        s.shared.registry.clients.lookup h.addr = none

instance instDecidableOwnExit (s : Threads SubscribeServer Handler)
    (move : Move (String × String) Choice) : Decidable (OwnExit s move) := by
  unfold OwnExit
  split <;> infer_instance

/-- What holds in every state of such a run. -/
structure RegistryInv (s : Threads SubscribeServer Handler) : Prop where
  holder : ∀ (i : Nat) (h : Handler), s.threads[i]? = some h → h.locked = true →
    s.shared.registry.holder = some i
  started : ∀ addr i, s.shared.registry.started.lookup addr = some i →
    ∃ h, s.threads[i]? = some h ∧ h.addr = addr
  installing : ∀ (i : Nat) (h : Handler), s.threads[i]? = some h → h.stage = .installing →
    s.shared.registry.clients.lookup h.addr = none
  accurate : ∀ addr,
    (∀ (i : Nat) (h : Handler), s.threads[i]? = some h → h.stage = .installing → h.addr ≠ addr) →
    s.shared.registry.clients.lookup addr = currentSession s addr

section Act

variable {index : Nat} {s : Threads SubscribeServer Handler} {h next : Handler}
  {server : SubscribeServer}

variable (threads : List Handler)

theorem isListed_set_self (hthread : threads[index]? = some h) :
    isListed (threads.set index next) index = next.listed := by
  obtain ⟨hlength, -⟩ := List.getElem?_eq_some_iff.1 hthread
  rw [isListed, getElem?_set_self hlength, any_some]

theorem isListed_set_of_ne {i : Nat} (hi : i ≠ index) :
    isListed (threads.set index next) i = isListed threads i := by
  rw [isListed, isListed, getElem?_set_ne (Ne.symm hi)]

theorem isListed_set (hthread : threads[index]? = some h)
    (hlisted : next.listed = h.listed) : isListed (threads.set index next) = isListed threads := by
  funext i
  by_cases hi : i = index
  · subst hi
    rw [isListed_set_self threads hthread, hlisted, isListed, hthread, any_some]
  · exact isListed_set_of_ne threads hi

theorem RegistryInv.alone (hinv : RegistryInv s) (hthread : s.threads[index]? = some h)
    (hlocked : h.locked = true) {j : Nat} {u : Handler} (hu : s.threads[j]? = some u)
    (hother : u.locked = true) : j = index := by
  have hheld := hinv.holder index h hthread hlocked
  rw [hinv.holder j u hu hother] at hheld
  exact some.inj hheld

theorem Handler.locked_of_installing (hstage : h.stage = .installing) : h.locked = true := by
  rw [locked, hstage]

section

variable (hinv : RegistryInv s)
include hinv

theorem RegistryInv.started_set (hthread : s.threads[index]? = some h) (haddr : next.addr = h.addr)
    {addr : String} {i : Nat} (hstarted : s.shared.registry.started.lookup addr = some i) :
    ∃ u, (s.threads.set index next)[i]? = some u ∧ u.addr = addr := by
  obtain ⟨u, hu, hsame⟩ := hinv.started addr i hstarted
  by_cases hi : i = index
  · subst hi
    cases hthread.symm.trans hu
    obtain ⟨hlength, -⟩ := List.getElem?_eq_some_iff.1 hthread
    exact ⟨next, getElem?_set_self hlength, haddr.trans hsame⟩
  · exact ⟨u, (getElem?_set_ne (Ne.symm hi)).trans hu, hsame⟩

/-- A step that leaves the map as it is, by a handler that is listed before and after it
or neither, and that is not about to write its entry. -/
theorem RegistryInv.quiet (hthread : s.threads[index]? = some h)
    (hclients : server.registry.clients = s.shared.registry.clients)
    (hstarted : server.registry.started = s.shared.registry.started)
    (haddr : next.addr = h.addr) (hlisted : next.listed = h.listed)
    (hbefore : h.stage ≠ .installing) (hafter : next.stage ≠ .installing)
    (hholder : ∀ (i : Nat) (u : Handler), (s.threads.set index next)[i]? = some u →
      u.locked = true → server.registry.holder = some i) :
    RegistryInv { shared := server, threads := s.threads.set index next } where
  holder := hholder
  started := fun addr i hlookup => by
    rw [hstarted] at hlookup
    exact hinv.started_set hthread haddr hlookup
  installing := by
    simp only [hclients]
    refine forall_act (fun hstage => absurd hstage hafter) ?_
    exact fun i u _ hu => hinv.installing i u hu
  accurate := by
    intro addr hnone
    simp only [currentSession, hclients, hstarted, isListed_set s.threads hthread hlisted]
    refine hinv.accurate addr fun i u hu hstage => ?_
    by_cases hi : i = index
    · subst hi
      cases hthread.symm.trans hu
      exact absurd hstage hbefore
    · exact hnone i u ((getElem?_set_ne (Ne.symm hi)).trans hu) hstage

theorem RegistryInv.holder_set (hthread : s.threads[index]? = some h)
    (hlocked : next.locked = true → h.locked = true) :
    ∀ (i : Nat) (u : Handler), (s.threads.set index next)[i]? = some u → u.locked = true →
      s.shared.registry.holder = some i :=
  forall_act (fun hnext => hinv.holder index h hthread (hlocked hnext))
    fun i u _ hu => hinv.holder i u hu

theorem RegistryInv.acquire (hfree : s.shared.registry.holder = none) :
    ∀ (i : Nat) (u : Handler), (s.threads.set index next)[i]? = some u → u.locked = true →
      some index = some i := by
  refine forall_act (fun _ => rfl) fun i u _ hu hlocked => ?_
  rw [hinv.holder i u hu hlocked] at hfree
  cases hfree

section

variable (hthread : s.threads[index]? = some h)
include hthread

theorem RegistryInv.release (hlocked : h.locked = true) (hnext : next.locked = false) :
    ∀ (i : Nat) (u : Handler), (s.threads.set index next)[i]? = some u → u.locked = true →
      none = some i := by
  refine forall_act (fun hnow => ?_) fun i u hi hu hother => ?_
  · rw [hnext] at hnow
    cases hnow
  · exact absurd (hinv.alone hthread hlocked hu hother) hi

/-- A step of a handler does not concern the sessions with other addresses. -/
theorem RegistryInv.current_of_ne {addr : String} (hne : addr ≠ h.addr) :
    (s.shared.registry.started.lookup addr).filter (isListed (s.threads.set index next)) =
      currentSession s addr := by
  rw [currentSession]
  cases hlookup : s.shared.registry.started.lookup addr with
  | none => rfl
  | some i =>
    have hi : i ≠ index := by
      rintro rfl
      obtain ⟨u, hu, haddr⟩ := hinv.started addr i hlookup
      cases hthread.symm.trans hu
      exact hne haddr.symm
    rw [filter_some, filter_some, isListed_set_of_ne s.threads hi]

/-- The holder of `cMu` finds the map right for every address but the one for which it is
about to write its entry. -/
theorem RegistryInv.accurate_of_ne
    (hlocked : h.locked = true) {addr : String} (hne : h.stage = .installing → addr ≠ h.addr) :
    s.shared.registry.clients.lookup addr = currentSession s addr := by
  refine hinv.accurate addr fun i u hu hstage => ?_
  obtain rfl := hinv.alone hthread hlocked hu (locked_of_installing hstage)
  cases hthread.symm.trans hu
  exact Ne.symm (hne hstage)

theorem RegistryInv.makeRoom (hlocked : h.locked = true) (hstage : h.stage ≠ .installing)
    {registry : Registry} (hholder : registry.holder = s.shared.registry.holder)
    (hstarted : registry.started = s.shared.registry.started)
    (hroom : registry.clients.lookup h.addr = none) (hothers : ∀ addr, addr ≠ h.addr →
      registry.clients.lookup addr = s.shared.registry.clients.lookup addr) :
    RegistryInv
      { shared := { s.shared with registry := registry }
        threads := s.threads.set index (h.moveTo .installing) } := by
  refine
    { holder := ?_
      started := fun addr i hlookup => ?_
      installing := forall_act (fun _ => hroom) fun i u hi hu hother => ?_
      accurate := fun addr hnone => ?_ }
  · simp only [hholder]
    exact hinv.holder_set hthread fun _ => hlocked
  · simp only [hstarted] at hlookup
    exact hinv.started_set hthread (show (h.moveTo .installing).addr = h.addr from rfl) hlookup
  · exact absurd (hinv.alone hthread hlocked hu (locked_of_installing hother)) hi
  obtain ⟨hlength, -⟩ := List.getElem?_eq_some_iff.1 hthread
  have hne : addr ≠ h.addr :=
    Ne.symm (hnone index (h.moveTo .installing) (getElem?_set_self hlength) rfl)
  simp only [currentSession, hstarted]
  rw [hothers addr hne, hinv.current_of_ne hthread hne]
  exact hinv.accurate_of_ne hthread hlocked fun hinstalling => absurd hinstalling hstage

theorem RegistryInv.install (hstage : h.stage = .installing) :
    RegistryInv
      { shared := { s.shared with registry := { s.shared.registry with
          clients := s.shared.registry.clients.insert h.addr index
          started := (h.addr, index) :: s.shared.registry.started } }
        threads := s.threads.set index (h.moveTo .unlocking) } := by
  have hlocked := locked_of_installing hstage
  obtain ⟨hlength, -⟩ := List.getElem?_eq_some_iff.1 hthread
  refine
    { holder := hinv.holder_set hthread fun _ => hlocked
      started := fun addr i hlookup => ?_
      installing := forall_act nofun fun i u hi hu hother => ?_
      accurate := fun addr _ => ?_ }
  · by_cases haddr : addr = h.addr
    · subst haddr
      rw [lookup_cons_self] at hlookup
      cases hlookup
      exact ⟨h.moveTo .unlocking, getElem?_set_self hlength, rfl⟩
    · rw [lookup_cons, beq_false_of_ne haddr] at hlookup
      exact hinv.started_set hthread (show (h.moveTo .unlocking).addr = h.addr from rfl) hlookup
  · exact absurd (hinv.alone hthread hlocked hu (locked_of_installing hother)) hi
  by_cases haddr : addr = h.addr
  · subst haddr
    rw [AList.lookup_insert, currentSession, lookup_cons_self, filter_some,
      isListed_set_self s.threads hthread]
    rfl
  · rw [AList.lookup_insert_ne haddr, currentSession, lookup_cons, beq_false_of_ne haddr]
    exact (hinv.accurate_of_ne hthread hlocked fun _ => haddr).trans
      (hinv.current_of_ne hthread haddr).symm

theorem RegistryInv.exit (hstage : h.stage = .exiting)
    (hown : s.shared.registry.clients.lookup h.addr = some index ∨
      s.shared.registry.clients.lookup h.addr = none) :
    RegistryInv
      { shared := { s.shared with registry := { s.shared.registry with
          clients := s.shared.registry.clients.erase h.addr } }
        threads := s.threads.set index (h.moveTo .exitUnlocking) } := by
  have hlocked : h.locked = true := by rw [locked, hstage]
  have haccurate : ∀ addr, s.shared.registry.clients.lookup addr = currentSession s addr :=
    fun addr => hinv.accurate_of_ne hthread hlocked fun hinstalling => by
      rw [hstage] at hinstalling
      cases hinstalling
  refine
    { holder := hinv.holder_set hthread fun _ => hlocked
      started := fun addr i hlookup =>
        hinv.started_set hthread (show (h.moveTo .exitUnlocking).addr = h.addr from rfl) hlookup
      installing := forall_act nofun fun i u hi hu hother => ?_
      accurate := fun addr _ => ?_ }
  · exact absurd (hinv.alone hthread hlocked hu (locked_of_installing hother)) hi
  by_cases haddr : addr = h.addr
  · subst haddr
    rw [AList.lookup_erase, currentSession]
    -- the latest session is this one, which ends, or one that had ended before
    cases hlatest : s.shared.registry.started.lookup h.addr with
    | none => rfl
    | some i =>
      rw [filter_some]
      by_cases hi : i = index
      · subst hi
        rw [isListed_set_self s.threads hthread]
        rfl
      · rw [isListed_set_of_ne s.threads hi]
        rw [haccurate, currentSession, hlatest, filter_some] at hown
        split
        · rename_i hlisted
          rw [if_pos hlisted] at hown
          rcases hown with hown | hown
          · exact absurd (some.inj hown) hi
          · cases hown
        · rfl
  · rw [AList.lookup_erase_ne haddr]
    exact (haccurate addr).trans (hinv.current_of_ne hthread haddr).symm

theorem RegistryInv.registry
    (hown : h.stage = .exiting → s.shared.registry.clients.lookup h.addr = some index ∨
      s.shared.registry.clients.lookup h.addr = none) {registry : Registry} {stage : Stage}
    (hstep : s.shared.registry.step index h.addr h.stage = some (registry, stage)) :
    RegistryInv
      { shared := { s.shared with registry := registry }
        threads := s.threads.set index (h.moveTo stage) } := by
  cases hstage : h.stage <;> rw [hstage] at hstep <;>
    simp only [Registry.step, reduceCtorEq] at hstep
  case locking | leaving =>
    split at hstep <;> cases hstep
    rename_i hfree
    exact hinv.quiet hthread rfl rfl rfl (by rw [listed, listed, hstage])
      (by simp [hstage]) (by simp) (hinv.acquire hfree)
  case entering =>
    cases hstep
    have hlocked : h.locked = true := by rw [locked, hstage]
    cases hlookup : s.shared.registry.clients.lookup h.addr with
    | none =>
      exact hinv.makeRoom hthread hlocked (by simp [hstage]) rfl rfl hlookup fun _ _ => rfl
    | some old =>
      exact hinv.quiet hthread rfl rfl rfl (by rw [listed, listed, hstage])
        (by simp [hstage]) (by simp) (hinv.holder_set hthread fun _ => hlocked)
  case closing old =>
    cases hstep
    exact hinv.quiet hthread rfl rfl rfl (by rw [listed, listed, hstage])
      (by simp [hstage]) (by simp)
      (hinv.holder_set hthread fun _ => by rw [locked, hstage])
  case dropping =>
    cases hstep
    exact hinv.makeRoom hthread (by rw [locked, hstage]) (by simp [hstage]) rfl rfl
      (AList.lookup_erase h.addr _) fun addr hne => AList.lookup_erase_ne hne
  case installing =>
    cases hstep
    exact hinv.install hthread hstage
  case unlocking | exitUnlocking =>
    cases hstep
    exact hinv.quiet hthread rfl rfl rfl (by rw [listed, listed, hstage])
      (by simp [hstage]) (by simp)
      (hinv.release hthread (by rw [locked, hstage]) rfl)
  case exiting =>
    cases hstep
    exact hinv.exit hthread hstage (hown hstage)

end

end

end Act

theorem RegistryInv.start (table : Finset String) : RegistryInv (SubscribeServer.start table) where
  holder := nofun
  started := nofun
  installing := nofun
  accurate := fun addr _ => rfl

theorem RegistryInv.spawn {s : Threads SubscribeServer Handler} (hinv : RegistryInv s)
    (addr query : String) :
    RegistryInv { s with threads := s.threads ++ [{ addr := addr, query := query }] } := by
  have hkept : ∀ {i : Nat} {u : Handler}, s.threads[i]? = some u →
      (s.threads ++ [{ addr := addr, query := query }])[i]? = some u := fun hu =>
    (getElem?_append_left (List.getElem?_eq_some_iff.1 hu).1).trans hu
  refine
    { holder := forall_spawn hinv.holder fun h => by cases h
      started := fun other i hlookup => ?_
      installing := forall_spawn hinv.installing fun h => by cases h
      accurate := fun other hnone => ?_ }
  · obtain ⟨u, hu, haddr⟩ := hinv.started other i hlookup
    exact ⟨u, hkept hu, haddr⟩
  refine (hinv.accurate other fun i u hu hstage => hnone i u (hkept hu) hstage).trans ?_
  simp only [currentSession]
  cases hlookup : s.shared.registry.started.lookup other with
  | none => rfl
  | some i =>
    obtain ⟨u, hu, -⟩ := hinv.started other i hlookup
    rw [filter_some, filter_some, isListed, isListed, hkept hu, hu]

/-- Every step in which a handler removes at most its own entry keeps the invariant. -/
theorem RegistryInv.step {threshold : Nat} {s after : Threads SubscribeServer Handler}
    (hinv : RegistryInv s) {move : Move (String × String) Choice} (hown : OwnExit s move)
    (hstep : (handlers threshold).step s move = some after) : RegistryInv after := by
  rcases Program.step_cases hstep with ⟨call, rfl, rfl⟩ |
    ⟨index, choice, h, next, rfl, hthread, hact, rfl⟩
  · exact hinv.spawn call.1 call.2
  rcases act_cases hact with ⟨stage, c, rest, hstage, -, rfl⟩ |
    ⟨stage, c, rest, hstage, -, rfl⟩ | ⟨registry, stage, hregistry, rfl⟩
  case inr.inr => exact hinv.registry hthread (hown h hthread) hregistry
  all_goals
    cases rest <;>
      exact hinv.quiet hthread rfl rfl rfl (by rw [listed, listed, hstage]; rfl)
        (by simp [hstage]) (by simp) (hinv.holder_set hthread fun h => by cases h)

/-- As long as every handler removes its own entry or finds none, the map holds the latest
session of every address while it runs, and nothing else, whenever nobody holds
`cMu`. -/
theorem registry_accurate {threshold : Nat} {table : Finset String}
    {s : Threads SubscribeServer Handler}
    (hreach : Reach (handlers threshold).step OwnExit (SubscribeServer.start table) s)
    (hfree : s.shared.registry.holder = none) (addr : String) :
    s.shared.registry.clients.lookup addr = currentSession s addr := by
  have hinv : RegistryInv s :=
    hreach.invariant RegistryInv (RegistryInv.start table)
      fun _ _ _ hinv hown hstep => hinv.step hown hstep
  refine hinv.accurate addr fun i h hthread hstage => ?_
  rw [hinv.holder i h hthread (Handler.locked_of_installing hstage)] at hfree
  cases hfree

/-- Two sessions with one address, the second after the end of the first, whose first
message is refused. -/
def oneAfterTheOther : List (Move (String × String) Choice) :=
  [.spawn ("10.0.0.1:5000", ""), .spawn ("10.0.0.1:5000", "")] ++
    setupMoves 0 ++ enterMoves 0 false ++ [.act 0 (.result false)] ++
    List.replicate 3 (.act 0 .proceed) ++ [.act 1 .proceed] ++ enterMoves 1 false

def oneAfterTheOtherEnd : Threads SubscribeServer Handler :=
  (runActions (handlers 2).step (SubscribeServer.start ∅) oneAfterTheOther).get (by decide +kernel)

/-- The second session is in the map. -/
theorem registry_accurate_two :
    currentSession oneAfterTheOtherEnd "10.0.0.1:5000" = some 1 ∧
      oneAfterTheOtherEnd.shared.registry.clients.lookup "10.0.0.1:5000" =
        currentSession oneAfterTheOtherEnd "10.0.0.1:5000" := by
  have hreach : Reach (handlers 2).step OwnExit (SubscribeServer.start ∅) oneAfterTheOtherEnd :=
    Reach.of_runActions oneAfterTheOther .refl (by decide +kernel) (Option.some_get _).symm
  exact ⟨by decide +kernel, registry_accurate hreach (by decide +kernel) "10.0.0.1:5000"⟩

/-- A session is replaced by another one with its address, and then ends. -/
def replacedThenEnds : List (Move (String × String) Choice) :=
  [.spawn ("10.0.0.1:5000", ""), .spawn ("10.0.0.1:5000", "")] ++
    setupMoves 0 ++ enterMoves 0 false ++ [.act 1 .proceed] ++ enterMoves 1 true ++
    [.act 0 (.result false)] ++ List.replicate 3 (.act 0 .proceed)

/-- The session that replaced it is running, nobody holds `cMu`, and the map does not have
the session. -/
theorem replaced_session_unlists :
    (runActions (handlers 2).step (SubscribeServer.start ∅) replacedThenEnds).map (fun s =>
        (s.shared.registry.holder, currentSession s "10.0.0.1:5000",
          s.shared.registry.clients.lookup "10.0.0.1:5000")) =
      some (none, some 1, none) := by
  decide +kernel

end SonicGnmi.GnmiServer
