import SonicGnmi.Foundation.Threads
import SonicGnmi.Sdc.StreamRun

/-!
# The sync message follows the first values

What holds in every state of a call of `StreamRun`, whatever the goroutines, the
receiver and `Close` do in between.

* `RoutineStage.act_cases`, `MainStage.act_cases`, `Listener.act_cases` — what an
  action can do, told by its effect;
* `Later` — what the queue and the clock keep over any step;
* `StreamInv`, `StreamInv.step` — the invariant: the wait group `synced` counts the
  goroutines that have not put their first item yet, `w` those that still run, and the
  sync message has a larger timestamp than every first item;
* `sync_follows_data` — the sync message is put at most once, after the first item of
  every subscription, is taken after them, and every goroutine calls each `Done` once.
-/

namespace SonicGnmi.Sdc

open Foundation Gnmi Grpc List Option PriorityQueue RoutineStage StreamRunState

/-! ## What an action can do -/

namespace RoutineStage

/-- The goroutine has not called `synced.Done`. -/
def owesSync : RoutineStage → Bool
  | .entry | .stampingFirst _ _ | .puttingFirst _ _ _ | .signalling _ => true
  | .stampingFatal _ signalled | .puttingFatal _ _ signalled => !signalled
  | _ => false

/-- The goroutine has not called `w.Done`. -/
def owesW : RoutineStage → Bool
  | .finished => false
  | _ => true

/-- The goroutine has put nothing on the queue. -/
def unsent : RoutineStage → Bool
  | .signalling _ => false
  | stage => stage.owesSync

/-- The time that the goroutine has read for its next item. -/
def timestamp : RoutineStage → Option Nat
  | .puttingFirst _ _ t | .puttingFatal _ t _ | .puttingUpdate _ _ t => some t
  | _ => none

/-- The first value of a goroutine is what it has read from all its tables. -/
def Sound (client : StreamClient) (updatesOnly : Bool) (sub : StreamSubscription) :
    RoutineStage → Prop
  | .stampingFirst kind value | .puttingFirst kind value _ =>
    ∃ reads, client.begin updatesOnly sub reads = .send kind value
  | _ => True

end RoutineStage

/-- The first item of a subscription: the value that is read from all its table paths,
or a fatal message. -/
def IsFirst (client : StreamClient) (updatesOnly : Bool) (sub : StreamSubscription)
    (payload : Payload) : Prop :=
  (∃ reads kind value, client.begin updatesOnly sub reads = .send kind value ∧
    payload = .value value) ∨ ∃ text, payload = .fatal text

/-- An action of the goroutine of a subscription, by its effect. -/
inductive RoutineMove (client : StreamClient) (updatesOnly : Bool) (sub : StreamSubscription)
    (index clock : Nat) (disposed : Bool) (stage : RoutineStage) :
    Effect → RoutineStage → Prop where
  | silent {effect : Effect} {next : RoutineStage}
      (heffect : effect = .internal ∨ effect = .now ∨ ∃ count, effect = .goListeners count)
      (hsync : next.owesSync = stage.owesSync) (hw : next.owesW = stage.owesW)
      (hunsent : next.unsent = stage.unsent)
      (hstamp : ∀ t, next.timestamp = some t → effect = .now ∧ t = clock + 1) :
      RoutineMove client updatesOnly sub index clock disposed stage effect next
  | put {next : RoutineStage} {t : Nat} {payload : Payload} (ht : stage.timestamp = some t)
      (hpayload : payload ≠ .syncResponse)
      (hsync : next.owesSync = stage.owesSync) (hw : next.owesW = stage.owesW)
      (hfirst : stage.unsent = true → IsFirst client updatesOnly sub payload)
      (hunsent : next.unsent = true → stage.unsent = true ∧ disposed = true)
      (hstamp : next.timestamp = none) :
      RoutineMove client updatesOnly sub index clock disposed stage
        (.put ⟨t, .routine index, payload⟩) next
  | signal {next : RoutineStage} (hstage : stage.owesSync = true ∧ stage.unsent = false)
      (hw : next.owesW = stage.owesW)
      (hnext : next.owesSync = false ∧ next.unsent = false ∧ next.timestamp = none) :
      RoutineMove client updatesOnly sub index clock disposed stage .syncedDone next
  | leave (hstage : stage.owesSync = false ∧ stage.owesW = true) :
      RoutineMove client updatesOnly sub index clock disposed stage .wDone .finished
  | crash : RoutineMove client updatesOnly sub index clock disposed stage .crash stage

theorem RoutineStage.unsent_eq_false {stage : RoutineStage} (h : stage.owesSync = false) :
    stage.unsent = false := by
  cases stage with
  | signalling _ => rfl
  | _ => exact h

/-- Every action is one of these, and the first value stays what was read. -/
theorem RoutineStage.act_cases {client : StreamClient} {updatesOnly : Bool}
    {sub : StreamSubscription} {index clock : Nat} {disposed stopped : Bool}
    {stage next : RoutineStage} {choice : RoutineChoice} {effect : Effect}
    (hsound : stage.Sound client updatesOnly sub)
    (hact : stage.act client updatesOnly sub index clock disposed stopped choice =
      some (effect, next)) :
    RoutineMove client updatesOnly sub index clock disposed stage effect next ∧
      next.Sound client updatesOnly sub := by
  have hstamp : ∀ t', some (clock + 1) = some t' → Effect.now = .now ∧ t' = clock + 1 := by
    rintro t' ⟨⟩
    exact ⟨rfl, rfl⟩
  cases choice with
  | begin reads =>
    cases stage with
    | entry =>
      rw [act] at hact
      split at hact
      · rename_i kind value hbegin
        cases hact
        exact ⟨.silent (.inl rfl) rfl rfl rfl nofun, reads, hbegin⟩
      · cases hact
        exact ⟨.silent (.inl rfl) rfl rfl rfl nofun, trivial⟩
      · cases hact
        exact ⟨.crash, trivial⟩
    | _ => cases hact
  | proceed =>
    cases stage with
    | stampingFirst kind value =>
      cases hact
      exact ⟨.silent (.inr (.inl rfl)) rfl rfl rfl hstamp, hsound⟩
    | puttingFirst kind value t =>
      cases hact
      obtain ⟨reads, hbegin⟩ := hsound
      refine ⟨.put rfl (by simp) ?_ ?_ (fun _ => .inl ⟨reads, kind, value, hbegin, rfl⟩) ?_
        ?_, ?_⟩
      all_goals cases disposed <;> cases kind <;> simp [RoutineKind.afterFirst,
        owesSync, owesW, unsent,
        timestamp, Sound]
    | stampingFatal text signalled | stampingUpdate kind value =>
      cases hact
      exact ⟨.silent (.inr (.inl rfl)) rfl rfl rfl hstamp, trivial⟩
    | puttingFatal text t signalled =>
      cases hact
      refine ⟨.put rfl (by simp) ?_ ?_ (fun _ => .inr ⟨text, rfl⟩) ?_ ?_, ?_⟩
      all_goals cases signalled <;> simp [owesSync, owesW, unsent, timestamp, Sound]
    | signalling after =>
      cases hact
      refine ⟨.signal ⟨rfl, rfl⟩ ?_ ⟨?_, ?_, ?_⟩, ?_⟩
      all_goals rcases after with _ | kind
      all_goals first
        | rfl
        | trivial
        | (cases kind <;> first | rfl | trivial)
    | listening =>
      cases hact
      exact ⟨.silent (.inr (.inr ⟨_, rfl⟩)) rfl rfl rfl nofun, trivial⟩
    | puttingUpdate kind value t =>
      cases hact
      refine ⟨.put rfl (by simp) ?_ ?_ nofun ?_ ?_, ?_⟩
      all_goals cases disposed <;> cases kind <;> simp [RoutineKind.afterUpdate,
        owesSync, owesW, unsent,
        timestamp, Sound]
    | leaving =>
      cases hact
      exact ⟨.leave ⟨rfl, rfl⟩, trivial⟩
    | _ => cases hact
  | _ =>
    -- the other choices are those of the loop
    cases stage with
    | serving kind =>
      simp only [act] at hact
      (try split at hact) <;> cases hact
      exact ⟨.silent (.inl rfl) rfl rfl rfl nofun, trivial⟩
    | _ => cases hact

/-! ## The queue and the clock over a step -/

/-- The first item of a subscription on the queue. -/
def StreamRunState.firstItem (s : StreamRunState) (index : Nat) : Option StreamItem :=
  s.queue.enqueued.find? fun item => item.source = .routine index

/-- What the queue and the clock keep over a step that puts some items. -/
structure Later (s after : StreamRunState) (items : List StreamItem) : Prop where
  clock : s.clock ≤ after.clock
  disposed : s.queue.disposed = true → after.queue.disposed = true
  enqueued : after.queue.enqueued = s.queue.enqueued ++ items
  accounted : after.queue.Accounted
  order : ∀ first second, first ∈ s.queue.enqueued → first.timestamp < second.timestamp →
    s.queue.InOrder first second → after.queue.InOrder first second

namespace Later

variable {s after : StreamRunState} {items : List StreamItem}

theorem of_queue_eq (haccounted : s.queue.Accounted) (hqueue : after.queue = s.queue)
    (hclock : s.clock ≤ after.clock) : Later s after [] where
  clock := hclock
  disposed := fun h => by rw [hqueue, h]
  enqueued := by rw [hqueue, append_nil]
  accounted := hqueue ▸ haccounted
  order := fun first second _ _ h => hqueue ▸ h

variable {item : StreamItem} {index : Nat}

theorem of_put (haccounted : s.queue.Accounted) (hqueue : after.queue = s.queue.put item)
    (hclock : s.clock ≤ after.clock) : Later s after (if s.queue.disposed then [] else [item]) where
  clock := hclock
  disposed := fun h => by rw [hqueue, disposed_put, h]
  enqueued := by
    rw [hqueue, PriorityQueue.put]
    by_cases hdisposed : s.queue.disposed = true
    · rw [if_pos hdisposed, if_pos hdisposed, append_nil]
    · rw [if_neg hdisposed, if_neg hdisposed]
  accounted := hqueue ▸ haccounted.put item
  order := fun first second _ _ h => hqueue ▸ h.put item

theorem of_get (haccounted : s.queue.Accounted)
    (hget : s.queue.get StreamItem.timestamp index = some after.queue)
    (hclock : s.clock ≤ after.clock) : Later s after [] where
  clock := hclock
  disposed := fun h => by
    obtain ⟨_, -, -, hqueue⟩ := PriorityQueue.get_cases hget
    rw [hqueue, h]
  enqueued := by
    obtain ⟨_, -, -, hqueue⟩ := PriorityQueue.get_cases hget
    rw [hqueue, append_nil]
  accounted := haccounted.get hget
  order := fun first second hfirst hkey h => h.get haccounted hfirst hkey hget

theorem of_dispose (haccounted : s.queue.Accounted) (hqueue : after.queue = s.queue.dispose)
    (hclock : s.clock ≤ after.clock) : Later s after [] where
  clock := hclock
  disposed := fun _ => by rw [hqueue]; rfl
  enqueued := by rw [hqueue, append_nil]; rfl
  accounted := hqueue ▸ haccounted.dispose
  order := fun first second _ _ h => hqueue ▸ h

theorem eq_of_mem {disposed : Bool} {other : StreamItem}
    (h : other ∈ if disposed = true then [] else [item]) : other = item := by
  split at h
  · cases h
  · exact mem_singleton.1 h

theorem firstItem_some (hlater : Later s after items) {first : StreamItem}
    (hfirst : s.firstItem index = some first) : after.firstItem index = some first := by
  rw [firstItem, hlater.enqueued, find?_append]
  rw [firstItem] at hfirst
  rw [hfirst, some_or]

/-- Items of others do not count as the first one. -/
theorem firstItem_eq (hlater : Later s after items) (index : Nat)
    (hitems : ∀ item ∈ items, item.source ≠ .routine index) :
    after.firstItem index = s.firstItem index := by
  have hnone : items.find? (fun item => item.source = .routine index) = none := by
    rw [find?_eq_none]
    intro item hitem
    simpa using hitems item hitem
  rw [firstItem, hlater.enqueued, find?_append, hnone, or_none]
  rfl

theorem firstItem_new (hlater : Later s after [item]) (hnone : s.firstItem index = none)
    (hsource : item.source = .routine index) : after.firstItem index = some item := by
  rw [firstItem] at hnone
  rw [firstItem, hlater.enqueued, find?_append, hnone, none_or]
  simp [hsource]

end Later

theorem StreamRunState.mem_of_firstItem {s : StreamRunState} {index : Nat} {first : StreamItem}
    (hfirst : s.firstItem index = some first) : first ∈ s.queue.enqueued :=
  mem_of_find?_eq_some hfirst

/-! ## The invariant -/

/-- What is on the queue: no item is from the future, and none is from a goroutine that
was not started. -/
structure QueueOk (s : StreamRunState) : Prop where
  accounted : s.queue.Accounted
  past : ∀ item ∈ s.queue.enqueued, item.timestamp ≤ s.clock
  started : ∀ item ∈ s.queue.enqueued, ∀ index, item.source = .routine index →
    index < s.routines.length

/-- A goroutine: its calls of `Done`, its next item, and its first one.  Only a disposed
queue lets a goroutine go on without a first item. -/
structure RoutineOk (client : StreamClient) (updatesOnly : Bool) (sub : StreamSubscription)
    (s : StreamRunState) (index : Nat) (r : Routine) : Prop where
  syncedDones : r.syncedDones + r.stage.owesSync.toNat = 1
  wDones : r.wDones + r.stage.owesW.toNat = 1
  sound : r.stage.Sound client updatesOnly sub
  past : ∀ t, r.stage.timestamp = some t → t ≤ s.clock
  unsent : r.stage.unsent = true → s.firstItem index = none
  sent : r.stage.unsent = false → s.queue.disposed = true ∨
    ∃ first, s.firstItem index = some first ∧ IsFirst client updatesOnly sub first.payload

/-- All goroutines that were started belong to a subscription. -/
def RoutinesOk (client : StreamClient) (updatesOnly : Bool) (subs : List StreamSubscription)
    (s : StreamRunState) : Prop :=
  ∀ index r, s.routines[index]? = some r →
    ∃ sub, subs[index]? = some sub ∧ RoutineOk client updatesOnly sub s index r

/-- Calls of `Add` for a goroutine that is about to be started. -/
def MainStage.addsSynced : MainStage → Bool
  | .addedSynced => true
  | _ => false

def MainStage.addsW : MainStage → Bool
  | .addedW | .addedSynced => true
  | _ => false

/-- `StreamRun` has not called `w.Done`. -/
def MainStage.owesW : MainStage → Bool
  | .returned => false
  | _ => true

/-- The wait groups count the calls of `Done` that are to come. -/
structure CountsOk (others : Nat) (s : StreamRunState) : Prop where
  synced : s.synced = (s.routines.countP (·.stage.owesSync) + s.main.addsSynced.toNat : Nat)
  w : s.w = (others + s.routines.countP (·.stage.owesW) + s.main.addsW.toNat +
    s.main.owesW.toNat : Nat)

/-- `StreamRun` is past `synced.Wait` and has not seen the end of the stream. -/
def MainStage.syncing : MainStage → Bool
  | .stampingSync | .puttingSync _ | .stopping => true
  | _ => false

/-- `StreamRun` can still put the sync message. -/
def MainStage.unsynced : MainStage → Bool
  | .stopping | .leaving | .returned => false
  | _ => true

/-- The first item of a subscription comes before a timestamp. -/
def FirstBefore (client : StreamClient) (updatesOnly : Bool) (sub : StreamSubscription)
    (s : StreamRunState) (index t : Nat) (first : StreamItem) : Prop :=
  s.firstItem index = some first ∧ IsFirst client updatesOnly sub first.payload ∧
    first.timestamp < t

/-- The sync message and the first items. -/
structure SyncOk (client : StreamClient) (updatesOnly : Bool) (subs : List StreamSubscription)
    (s : StreamRunState) : Prop where
  next : s.main.addsW = true → s.routines.length < subs.length
  waiting : s.main = .waiting → subs.length ≤ s.routines.length
  none : s.main.unsynced = true → ∀ item ∈ s.queue.enqueued, item.payload ≠ .syncResponse
  once : s.queue.enqueued.countP (fun item => item.payload = .syncResponse) ≤ 1
  signalled : s.main.syncing = true → s.routines.length = subs.length ∧
    ∀ r ∈ s.routines, r.stage.owesSync = false
  promised : ∀ t, s.main = .puttingSync t → t ≤ s.clock ∧ (s.queue.disposed = true ∨
    ∀ index sub, subs[index]? = some sub →
      ∃ first, FirstBefore client updatesOnly sub s index t first)
  follows : ∀ item ∈ s.queue.enqueued, item.payload = .syncResponse →
    ∀ index sub, subs[index]? = some sub →
      ∃ first, FirstBefore client updatesOnly sub s index item.timestamp first ∧
        PriorityQueue.Precedes first item s.queue.enqueued ∧ s.queue.InOrder first item

/-- The time that a listener, or `StreamRun`, has read for a fatal message. -/
def Listener.timestamp : Listener → Option Nat
  | .puttingFatal _ t => some t
  | _ => none

def MainStage.timestamp : MainStage → Option Nat
  | .puttingFatal _ t => some t
  | _ => none

/-- The invariant of `StreamRun`. -/
structure StreamInv (client : StreamClient) (updatesOnly : Bool)
    (subs : List StreamSubscription) (others : Nat) (s : StreamRunState) : Prop where
  queue : QueueOk s
  listeners : ∀ l ∈ s.listeners, ∀ t, l.timestamp = some t → t ≤ s.clock
  main : ∀ t, s.main.timestamp = some t → t ≤ s.clock
  routines : RoutinesOk client updatesOnly subs s
  counts : CountsOk others s
  sync : SyncOk client updatesOnly subs s

section Keeping

variable {client : StreamClient} {updatesOnly : Bool} {subs : List StreamSubscription}
  {others : Nat} {s after : StreamRunState} {items : List StreamItem}

theorem QueueOk.later (hqueue : QueueOk s) (hlater : Later s after items)
    (hlength : s.routines.length ≤ after.routines.length)
    (hpast : ∀ item ∈ items, item.timestamp ≤ after.clock)
    (hstarted : ∀ item ∈ items, ∀ index, item.source = .routine index →
      index < after.routines.length) : QueueOk after where
  accounted := hlater.accounted
  past := by
    intro item hitem
    rw [hlater.enqueued] at hitem
    rcases mem_append.1 hitem with hold | hnew
    · exact le_trans (hqueue.past item hold) hlater.clock
    · exact hpast item hnew
  started := by
    intro item hitem index hsource
    rw [hlater.enqueued] at hitem
    rcases mem_append.1 hitem with hold | hnew
    · exact lt_of_lt_of_le (hqueue.started item hold index hsource) hlength
    · exact hstarted item hnew index hsource

variable {index : Nat} {r : Routine} {sub : StreamSubscription}

theorem RoutineOk.later (hr : RoutineOk client updatesOnly sub s index r)
    (hlater : Later s after items) (hitems : ∀ item ∈ items, item.source ≠ .routine index) :
    RoutineOk client updatesOnly sub after index r where
  syncedDones := hr.syncedDones
  wDones := hr.wDones
  sound := hr.sound
  past := fun t ht => le_trans (hr.past t ht) hlater.clock
  unsent := fun h => (hlater.firstItem_eq index hitems).trans (hr.unsent h)
  sent := by
    intro hsent
    rw [hlater.firstItem_eq index hitems]
    exact (hr.sent hsent).imp hlater.disposed id

theorem RoutinesOk.later (hroutines : RoutinesOk client updatesOnly subs s)
    (hlater : Later s after items) (hitems : ∀ item ∈ items, ∀ index, item.source ≠ .routine index)
    (index : Nat) (r : Routine) (hr : s.routines[index]? = some r) :
    ∃ sub, subs[index]? = some sub ∧ RoutineOk client updatesOnly sub after index r := by
  obtain ⟨sub, hsub, hok⟩ := hroutines index r hr
  exact ⟨sub, hsub, hok.later hlater fun item hitem => hitems item hitem index⟩

theorem FirstBefore.later {t : Nat} {first : StreamItem}
    (hfirst : FirstBefore client updatesOnly sub s index t first)
    (hlater : Later s after items) : FirstBefore client updatesOnly sub after index t first :=
  ⟨hlater.firstItem_some hfirst.1, hfirst.2⟩

theorem countP_syncResponse {items : List StreamItem}
    (h : ∀ item ∈ items, item.payload ≠ .syncResponse) :
    items.countP (fun item => item.payload = .syncResponse) = 0 := by
  rw [countP_eq_zero]
  intro item hitem
  simpa using h item hitem

/-- The sync message keeps its place over a step of anybody but `StreamRun`. -/
theorem SyncOk.later (hsync : SyncOk client updatesOnly subs s) (hlater : Later s after items)
    (hmain : after.main = s.main) (hlength : after.routines.length = s.routines.length)
    (hitems : ∀ item ∈ items, item.payload ≠ .syncResponse)
    (hrest : (∀ r ∈ s.routines, r.stage.owesSync = false) →
      ∀ r ∈ after.routines, r.stage.owesSync = false) : SyncOk client updatesOnly subs after where
  next := by
    rw [hmain, hlength]
    exact hsync.next
  waiting := by
    rw [hmain, hlength]
    exact hsync.waiting
  none := by
    intro hunsynced item hitem
    rw [hmain] at hunsynced
    rw [hlater.enqueued] at hitem
    exact (mem_append.1 hitem).elim (hsync.none hunsynced item) (hitems item)
  once := by
    rw [hlater.enqueued, countP_append, countP_syncResponse hitems]
    exact hsync.once
  signalled := by
    intro hsyncing
    rw [hmain] at hsyncing
    obtain ⟨hall, hsignalled⟩ := hsync.signalled hsyncing
    exact ⟨hlength.trans hall, hrest hsignalled⟩
  promised := by
    intro t ht
    rw [hmain] at ht
    obtain ⟨hpast, hpromise⟩ := hsync.promised t ht
    refine ⟨le_trans hpast hlater.clock, hpromise.imp hlater.disposed ?_⟩
    intro hfirsts index sub hsub
    obtain ⟨first, hfirst⟩ := hfirsts index sub hsub
    exact ⟨first, hfirst.later hlater⟩
  follows := by
    intro item hitem hpayload index sub hsub
    rw [hlater.enqueued] at hitem ⊢
    have hold : item ∈ s.queue.enqueued :=
      (mem_append.1 hitem).resolve_right fun hnew => hitems item hnew hpayload
    obtain ⟨first, hfirst, hprecedes, horder⟩ := hsync.follows item hold hpayload index sub hsub
    exact ⟨first, hfirst.later hlater, hprecedes.append items,
      hlater.order first item (mem_of_firstItem hfirst.1) hfirst.2.2 horder⟩

section

variable (hinv : StreamInv client updatesOnly subs others s)
include hinv

theorem StreamInv.later (hlater : Later s after items) (hmain : after.main = s.main)
    (hroutines : after.routines = s.routines) (hsynced : after.synced = s.synced)
    (hw : after.w = s.w) (hpast : ∀ item ∈ items, item.timestamp ≤ after.clock)
    (hsource : ∀ item ∈ items, ∀ index, item.source ≠ .routine index)
    (hpayload : ∀ item ∈ items, item.payload ≠ .syncResponse)
    (hlisteners : ∀ l ∈ after.listeners, ∀ t, l.timestamp = some t → t ≤ after.clock) :
    StreamInv client updatesOnly subs others after where
  queue := by
    refine hinv.queue.later hlater (by rw [hroutines]) hpast ?_
    intro item hitem index heq
    exact absurd heq (hsource item hitem index)
  listeners := hlisteners
  main := by
    rw [hmain]
    exact fun t ht => le_trans (hinv.main t ht) hlater.clock
  routines := by
    rw [RoutinesOk, hroutines]
    exact hinv.routines.later hlater hsource
  counts := by
    refine ⟨?_, ?_⟩
    · rw [hsynced, hroutines, hmain]
      exact hinv.counts.synced
    · rw [hw, hroutines, hmain]
      exact hinv.counts.w
  sync := by
    refine hinv.sync.later hlater hmain (by rw [hroutines]) hpayload ?_
    rw [hroutines]
    exact id

theorem StreamInv.quiet (hlater : Later s after []) (hmain : after.main = s.main)
    (hroutines : after.routines = s.routines) (hsynced : after.synced = s.synced)
    (hw : after.w = s.w)
    (hlisteners : ∀ l ∈ after.listeners, ∀ t, l.timestamp = some t → t ≤ after.clock) :
    StreamInv client updatesOnly subs others after :=
  hinv.later hlater hmain hroutines hsynced hw nofun nofun nofun hlisteners

theorem StreamInv.act_routine {next : Routine} (hr : s.routines[index]? = some r)
    (hsub : subs[index]? = some sub) (hlater : Later s after items) (hmain : after.main = s.main)
    (hroutines : after.routines = s.routines.set index next)
    (hnext : RoutineOk client updatesOnly sub after index next)
    (hsource : ∀ item ∈ items, item.source = .routine index)
    (hpayload : ∀ item ∈ items, item.payload ≠ .syncResponse)
    (hpast : ∀ item ∈ items, item.timestamp ≤ after.clock)
    (howes : next.stage.owesSync = true → r.stage.owesSync = true)
    (hlisteners : ∀ l ∈ after.listeners, ∀ t, l.timestamp = some t → t ≤ after.clock)
    (hcounts : CountsOk others after) : StreamInv client updatesOnly subs others after where
  queue := by
    have hlength : after.routines.length = s.routines.length := by
      rw [hroutines, length_set]
    refine hinv.queue.later hlater (le_of_eq hlength.symm) hpast ?_
    intro item hitem other heq
    rw [hsource item hitem] at heq
    cases heq
    rw [hlength]
    exact (List.getElem?_eq_some_iff.1 hr).1
  listeners := hlisteners
  main := by
    rw [hmain]
    exact fun t ht => le_trans (hinv.main t ht) hlater.clock
  routines := by
    rw [RoutinesOk, hroutines]
    refine forall_act ⟨sub, hsub, hnext⟩ fun i t hi ht => ?_
    obtain ⟨other, hother, hok⟩ := hinv.routines i t ht
    refine ⟨other, hother, hok.later hlater fun item hitem heq => ?_⟩
    rw [hsource item hitem] at heq
    cases heq
    exact hi rfl
  counts := hcounts
  sync := by
    refine hinv.sync.later hlater hmain (by rw [hroutines, length_set]) hpayload ?_
    intro hsignalled other hother
    rw [hroutines] at hother
    rcases mem_or_eq_of_mem_set hother with hold | rfl
    · exact hsignalled other hold
    · have hself := hsignalled r (mem_of_getElem? hr)
      rw [Bool.eq_false_iff] at hself ⊢
      exact fun h => hself (howes h)

end

theorem CountsOk.act_routine (hcounts : CountsOk others s) {next : Routine}
    (hr : s.routines[index]? = some r) (hmain : after.main = s.main)
    (hroutines : after.routines = s.routines.set index next)
    (hsynced : after.synced + r.stage.owesSync.toNat = s.synced + next.stage.owesSync.toNat)
    (hw : after.w + r.stage.owesW.toNat = s.w + next.stage.owesW.toNat) :
    CountsOk others after := by
  have hsyncs := countP_act hr (·.stage.owesSync) next
  have hws := countP_act hr (·.stage.owesW) next
  have hold := hcounts.synced
  have holdw := hcounts.w
  refine ⟨?_, ?_⟩ <;> rw [hmain, hroutines]
  · omega
  · omega

end Keeping

section Steps

variable {client : StreamClient} {updatesOnly : Bool} {subs : List StreamSubscription}
  {others : Nat} {s : StreamRunState}

variable {effect : Effect} {index t : Nat} {next : RoutineStage} {r : Routine}
  {sub : StreamSubscription}

theorem StreamRunState.apply_silent (s : StreamRunState)
    (heffect : effect = .internal ∨ effect = .now ∨ ∃ count, effect = .goListeners count) :
    ∃ clock listeners, s.apply effect = { s with clock := clock, listeners := listeners } ∧
      s.clock ≤ clock ∧ (effect = .now → clock = s.clock + 1) ∧
      ∀ l ∈ listeners, l ∈ s.listeners ∨ l.timestamp = none := by
  rcases heffect with rfl | rfl | ⟨count, rfl⟩
  · exact ⟨_, _, rfl, le_rfl, nofun, fun l hl => .inl hl⟩
  · exact ⟨_, _, rfl, Nat.le_succ _, fun _ => rfl, fun l hl => .inl hl⟩
  · refine ⟨_, _, rfl, le_rfl, nofun, fun l hl => (mem_append.1 hl).imp_right fun hnew => ?_⟩
    rw [eq_of_mem_replicate hnew]
    rfl

section

variable (hinv : StreamInv client updatesOnly subs others s) (hr : s.routines[index]? = some r)
  (hsub : subs[index]? = some sub) (hok : RoutineOk client updatesOnly sub s index r)
include hinv hr hsub hok

theorem StreamInv.routine_silent
    (heffect : effect = .internal ∨ effect = .now ∨ ∃ count, effect = .goListeners count)
    (hsync : next.owesSync = r.stage.owesSync) (hw : next.owesW = r.stage.owesW)
    (hunsent : next.unsent = r.stage.unsent)
    (hstamp : ∀ t, next.timestamp = some t → effect = .now ∧ t = s.clock + 1)
    (hsound : next.Sound client updatesOnly sub) :
    StreamInv client updatesOnly subs others
      { s.apply effect with routines := s.routines.set index (r.count effect next) } := by
  have hcount : r.count effect next = { r with stage := next } := by
    rcases heffect with rfl | rfl | ⟨count, rfl⟩ <;> rfl
  obtain ⟨clock, listeners, happly, hclock, hnow, hnew⟩ := s.apply_silent heffect
  rw [happly, hcount]
  have hlater : Later s { s with
      clock := clock, listeners := listeners,
      routines := s.routines.set index { r with stage := next } } [] :=
    .of_queue_eq hinv.queue.accounted rfl hclock
  have hfirst := hlater.firstItem_eq index nofun
  refine hinv.act_routine hr hsub hlater rfl rfl ?_ nofun nofun nofun ?_ ?_ ?_
  · refine ⟨?_, ?_, hsound, ?_, ?_, ?_⟩
    · rw [hsync]
      exact hok.syncedDones
    · rw [hw]
      exact hok.wDones
    · intro t ht
      obtain ⟨heq, rfl⟩ := hstamp t ht
      exact le_of_eq (hnow heq).symm
    · intro h
      rw [hunsent] at h
      exact hfirst.trans (hok.unsent h)
    · intro h
      rw [hunsent] at h
      rw [hfirst]
      exact (hok.sent h).imp hlater.disposed id
  · rw [hsync]
    exact id
  · intro l hl t ht
    rcases hnew l hl with hold | hnone
    · exact le_trans (hinv.listeners l hold t ht) hclock
    · cases hnone.symm.trans ht
  · exact hinv.counts.act_routine hr rfl rfl (by rw [hsync]) (by rw [hw])

theorem StreamInv.routine_put {payload : Payload} (ht : r.stage.timestamp = some t)
    (hpayload : payload ≠ .syncResponse) (hsync : next.owesSync = r.stage.owesSync)
    (hw : next.owesW = r.stage.owesW)
    (hfirst : r.stage.unsent = true → IsFirst client updatesOnly sub payload)
    (hunsent : next.unsent = true → r.stage.unsent = true ∧ s.queue.disposed = true)
    (hstamp : next.timestamp = none) (hsound : next.Sound client updatesOnly sub) :
    StreamInv client updatesOnly subs others
      { s.apply (.put ⟨t, .routine index, payload⟩) with
        routines := s.routines.set index { r with stage := next } } := by
  have hlater : Later s { s.apply (.put ⟨t, .routine index, payload⟩) with
      routines := s.routines.set index { r with stage := next } }
      (if s.queue.disposed then [] else [⟨t, .routine index, payload⟩]) :=
    .of_put hinv.queue.accounted rfl le_rfl
  refine hinv.act_routine hr hsub hlater rfl rfl ?_ ?_ ?_ ?_ ?_ ?_ ?_
  · refine ⟨?_, ?_, hsound, ?_, ?_, ?_⟩
    · rw [hsync]
      exact hok.syncedDones
    · rw [hw]
      exact hok.wDones
    · intro t' ht'
      rw [hstamp] at ht'
      cases ht'
    · -- only a refused item leaves the goroutine without one
      intro h
      obtain ⟨hbefore, hdisposed⟩ := hunsent h
      rw [if_pos hdisposed] at hlater
      exact (hlater.firstItem_eq index fun item hitem => by cases hitem).trans
        (hok.unsent hbefore)
    · intro _
      by_cases hdisposed : s.queue.disposed = true
      · exact .inl (hlater.disposed hdisposed)
      by_cases hbefore : r.stage.unsent = true
      · rw [if_neg hdisposed] at hlater
        exact .inr ⟨_, hlater.firstItem_new (hok.unsent hbefore) rfl, hfirst hbefore⟩
      · rcases hok.sent (Bool.not_eq_true _ |>.mp hbefore) with h | ⟨first, hsome, hisFirst⟩
        · exact absurd h hdisposed
        · exact .inr ⟨first, hlater.firstItem_some hsome, hisFirst⟩
  · exact fun item hitem => Later.eq_of_mem hitem ▸ rfl
  · exact fun item hitem => Later.eq_of_mem hitem ▸ hpayload
  · intro item hitem
    rw [Later.eq_of_mem hitem]
    exact hok.past t ht
  · rw [hsync]
    exact id
  · exact hinv.listeners
  refine hinv.counts.act_routine hr rfl rfl ?_ ?_
  · rw [hsync]
    rfl
  · rw [hw]
    rfl

theorem StreamInv.routine_done {next : Routine} {synced w : Int}
    (hsynceds : next.syncedDones + next.stage.owesSync.toNat = 1)
    (hws : next.wDones + next.stage.owesW.toNat = 1)
    (hunsent : r.stage.unsent = false ∧ next.stage.unsent = false)
    (hstamp : next.stage.timestamp = none) (hsound : next.stage.Sound client updatesOnly sub)
    (howes : next.stage.owesSync = true → r.stage.owesSync = true)
    (hsynced : synced + r.stage.owesSync.toNat = s.synced + next.stage.owesSync.toNat)
    (hw : w + r.stage.owesW.toNat = s.w + next.stage.owesW.toNat) :
    StreamInv client updatesOnly subs others
      { s with synced := synced, w := w, routines := s.routines.set index next } := by
  have hlater : Later s
      { s with synced := synced, w := w, routines := s.routines.set index next } [] :=
    .of_queue_eq hinv.queue.accounted rfl le_rfl
  refine hinv.act_routine hr hsub hlater rfl rfl ?_ nofun nofun nofun howes hinv.listeners
    (hinv.counts.act_routine hr rfl rfl hsynced hw)
  refine ⟨hsynceds, hws, hsound, ?_, ?_, fun _ => ?_⟩
  · intro t ht
    rw [hstamp] at ht
    cases ht
  · intro h
    rw [hunsent.2] at h
    cases h
  · rw [hlater.firstItem_eq index fun item hitem => by cases hitem]
    exact hok.sent hunsent.1

theorem StreamInv.routine_step
    (hmove : RoutineMove client updatesOnly sub index s.clock s.queue.disposed r.stage effect
      next) (hsound : next.Sound client updatesOnly sub) :
    StreamInv client updatesOnly subs others
      { s.apply effect with routines := s.routines.set index (r.count effect next) } := by
  have hsynceds := hok.syncedDones
  have hws := hok.wDones
  cases hmove with
  | silent heffect hsync hw hunsent hstamp =>
    exact hinv.routine_silent hr hsub hok heffect hsync hw hunsent hstamp hsound
  | put ht hpayload hsync hw hfirst hunsent hstamp =>
    exact hinv.routine_put hr hsub hok ht hpayload hsync hw hfirst hunsent hstamp hsound
  | signal hstage hw hnext =>
    obtain ⟨hsync, hunsent, hstamp⟩ := hnext
    rw [hstage.1] at hsynceds
    refine hinv.routine_done hr hsub hok ?_ ?_ ⟨hstage.2, hunsent⟩ hstamp hsound
      (fun h => hstage.1) ?_ ?_
    · change r.syncedDones + 1 + next.owesSync.toNat = 1
      rw [hsync]
      exact hsynceds
    · change r.wDones + next.owesW.toNat = 1
      rw [hw]
      exact hws
    · change s.synced - 1 + r.stage.owesSync.toNat = s.synced + next.owesSync.toNat
      rw [hstage.1, hsync]
      simp
    · change s.w + r.stage.owesW.toNat = s.w + next.owesW.toNat
      rw [hw]
  | leave hstage =>
    have hunsent := unsent_eq_false hstage.1
    rw [hstage.2] at hws
    rw [hstage.1] at hsynceds
    refine hinv.routine_done hr hsub hok hsynceds ?_ ⟨hunsent, rfl⟩ rfl trivial nofun ?_ ?_
    · exact hws
    · rw [hstage.1]
      rfl
    · change s.w - 1 + r.stage.owesW.toNat = s.w + 0
      rw [hstage.2]
      simp
  | crash =>
    have hsame : s.routines.set index (r.count .crash r.stage) = s.routines := by
      obtain ⟨hindex, rfl⟩ := List.getElem?_eq_some_iff.1 hr
      exact set_getElem_self hindex
    rw [hsame]
    exact hinv.quiet (.of_queue_eq hinv.queue.accounted rfl le_rfl) rfl rfl rfl rfl hinv.listeners

end

theorem StreamInv.listener_step (hinv : StreamInv client updatesOnly subs others s)
    {l next : Listener} {choice : ListenerChoice} (hl : s.listeners[index]? = some l)
    (hact : l.act index s.clock s.stopped choice = some (effect, next)) :
    StreamInv client updatesOnly subs others
      { s.apply effect with listeners := s.listeners.set index next } := by
  have haccounted := hinv.queue.accounted
  have hkeep : ∀ clock, s.clock ≤ clock → (∀ t, next.timestamp = some t → t ≤ clock) →
      ∀ other ∈ s.listeners.set index next, ∀ t, other.timestamp = some t → t ≤ clock := by
    intro clock hclock hself other hother t ht
    rcases mem_or_eq_of_mem_set hother with hold | rfl
    · exact le_trans (hinv.listeners other hold t ht) hclock
    · exact hself t ht
  cases choice with
  | proceed =>
    cases l with
    | stampingFatal text =>
      cases hact
      refine hinv.quiet (.of_queue_eq haccounted rfl (Nat.le_succ _)) rfl rfl rfl rfl
        (hkeep _ (Nat.le_succ _) ?_)
      rintro t ⟨⟩
      exact le_rfl
    | puttingFatal text t =>
      cases hact
      refine hinv.later (.of_put haccounted rfl le_rfl) rfl rfl rfl rfl ?_ ?_ ?_
        (hkeep _ le_rfl nofun)
      · intro item hitem
        rw [Later.eq_of_mem hitem]
        exact hinv.listeners _ (mem_of_getElem? hl) t rfl
      · exact fun item hitem other => Later.eq_of_mem hitem ▸ nofun
      · exact fun item hitem => Later.eq_of_mem hitem ▸ nofun
    | _ => cases hact
  | _ =>
    cases l with
    | listening =>
      simp only [Listener.act] at hact
      (try split at hact) <;> cases hact
      exact hinv.quiet (.of_queue_eq haccounted rfl le_rfl) rfl rfl rfl rfl (hkeep _ le_rfl nofun)
    | _ => cases hact

/-- When `synced.Wait` returns, every goroutine has called `synced.Done`. -/
theorem CountsOk.signalled (hcounts : CountsOk others s) (hzero : s.synced = 0) :
    ∀ r ∈ s.routines, r.stage.owesSync = false := by
  have hsynced := hcounts.synced
  rw [hzero] at hsynced
  have hcount : s.routines.countP (·.stage.owesSync) = 0 := by omega
  intro r hr
  have hnot := countP_eq_zero.1 hcount r hr
  exact Bool.not_eq_true _ |>.mp hnot

theorem StreamInv.main_quiet (hinv : StreamInv client updatesOnly subs others s)
    {main : MainStage} {synced w : Int} {clock : Nat} (hclock : s.clock ≤ clock)
    (hmain : ∀ t, main.timestamp = some t → t ≤ clock)
    (hcounts : CountsOk others { s with main := main, synced := synced, w := w, clock := clock })
    (hnext : main.addsW = true → s.routines.length < subs.length)
    (hwaiting : main = .waiting → subs.length ≤ s.routines.length)
    (hunsynced : main.unsynced = true → s.main.unsynced = true)
    (hsignalled : main.syncing = true → s.routines.length = subs.length ∧
      ∀ r ∈ s.routines, r.stage.owesSync = false)
    (hpromised : ∀ t, main = .puttingSync t → t ≤ clock ∧ (s.queue.disposed = true ∨
      ∀ index sub, subs[index]? = some sub →
        ∃ first, FirstBefore client updatesOnly sub s index t first)) :
    StreamInv client updatesOnly subs others
      { s with main := main, synced := synced, w := w, clock := clock } := by
  have hlater : Later s { s with main := main, synced := synced, w := w, clock := clock } [] :=
    .of_queue_eq hinv.queue.accounted rfl hclock
  refine ⟨?_, ?_, hmain, hinv.routines.later hlater nofun, hcounts, ?_⟩
  · exact hinv.queue.later hlater le_rfl nofun nofun
  · exact fun l hl t ht => le_trans (hinv.listeners l hl t ht) hclock
  · exact ⟨hnext, hwaiting, fun h => hinv.sync.none (hunsynced h), hinv.sync.once, hsignalled,
      hpromised, hinv.sync.follows⟩

theorem StreamInv.main_put (hinv : StreamInv client updatesOnly subs others s)
    {item : StreamItem} {main : MainStage} (hsource : item.source = .streamRun)
    (hpast : item.timestamp ≤ s.clock) (hmain : main.timestamp = none)
    (hcounts : CountsOk others { s with queue := s.queue.put item, main := main })
    (hsync : SyncOk client updatesOnly subs { s with queue := s.queue.put item, main := main }) :
    StreamInv client updatesOnly subs others
      { s with queue := s.queue.put item, main := main } := by
  have hlater : Later s { s with queue := s.queue.put item, main := main }
      (if s.queue.disposed then [] else [item]) := .of_put hinv.queue.accounted rfl le_rfl
  have hother : ∀ other ∈ (if s.queue.disposed then [] else [item]), ∀ index,
      other.source ≠ .routine index := by
    intro other hmem index heq
    rw [Later.eq_of_mem hmem, hsource] at heq
    cases heq
  refine ⟨?_, hinv.listeners, ?_, hinv.routines.later hlater hother, hcounts, hsync⟩
  · exact hinv.queue.later hlater le_rfl (fun other hmem => Later.eq_of_mem hmem ▸ hpast)
      fun other hmem index heq => absurd heq (hother other hmem index)
  · intro t ht
    rw [hmain] at ht
    cases ht

theorem RoutinesOk.length_le (hroutines : RoutinesOk client updatesOnly subs s) :
    s.routines.length ≤ subs.length := by
  by_contra hlong
  have hindex : subs.length < s.routines.length := by omega
  obtain ⟨sub, hsub, -⟩ := hroutines subs.length _ (getElem?_eq_getElem hindex)
  rw [getElem?_eq_none le_rfl] at hsub
  cases hsub

section

variable (hinv : StreamInv client updatesOnly subs others s)
include hinv

theorem StreamInv.main_go (hmain : s.main = .addedSynced) :
    StreamInv client updatesOnly subs others
      { s with routines := s.routines ++ [{}], main := .loop } := by
  have hlater : Later s { s with routines := s.routines ++ [{}], main := .loop } [] :=
    .of_queue_eq hinv.queue.accounted rfl le_rfl
  have hlength : s.routines.length < subs.length := hinv.sync.next (by rw [hmain]; rfl)
  have hnone : ∀ item ∈ s.queue.enqueued, item.payload ≠ .syncResponse :=
    hinv.sync.none (by rw [hmain]; rfl)
  have hfirst : s.firstItem s.routines.length = none := by
    rw [firstItem, find?_eq_none]
    intro item hitem
    simp only [decide_eq_true_eq]
    intro hsource
    exact absurd (hinv.queue.started item hitem _ hsource) (lt_irrefl _)
  refine ⟨?_, hinv.listeners, nofun, ?_, ?_, ?_⟩
  · exact hinv.queue.later hlater (by simp) nofun nofun
  · exact forall_spawn (hinv.routines.later hlater nofun) ⟨_, getElem?_eq_getElem hlength, rfl,
      rfl, trivial, nofun, fun _ => hfirst, nofun⟩
  · have hsynced := hinv.counts.synced
    have hw := hinv.counts.w
    rw [hmain] at hsynced hw
    refine ⟨?_, ?_⟩
    · rw [hsynced, countP_append]
      rfl
    · rw [hw, countP_append]
      simp only [MainStage.addsW, MainStage.owesW, List.countP_singleton, RoutineStage.owesW]
      simp
      omega
  · refine ⟨nofun, nofun, fun _ => hnone, hinv.sync.once,
      nofun, nofun, ?_⟩
    intro item hitem hpayload
    exact absurd hpayload (hnone item hitem)

theorem SyncOk.put_sync (hmain : s.main = .puttingSync t) :
    SyncOk client updatesOnly subs
      { s with queue := s.queue.put ⟨t, .streamRun, .syncResponse⟩, main := .stopping } := by
  have hnone : ∀ item ∈ s.queue.enqueued, item.payload ≠ .syncResponse :=
    hinv.sync.none (by rw [hmain]; rfl)
  have hsignalled := hinv.sync.signalled (by rw [hmain]; rfl)
  obtain ⟨-, hpromised⟩ := hinv.sync.promised t hmain
  have hlater : Later s
      { s with queue := s.queue.put ⟨t, .streamRun, .syncResponse⟩, main := .stopping }
      (if s.queue.disposed then [] else [⟨t, .streamRun, .syncResponse⟩]) :=
    .of_put hinv.queue.accounted rfl le_rfl
  refine ⟨nofun, nofun, nofun, ?_, fun _ => hsignalled, nofun, ?_⟩
  · rw [hlater.enqueued, countP_append, countP_syncResponse hnone]
    split <;> simp
  intro item hitem hpayload index sub hsub
  have henqueued := hlater.enqueued
  rw [henqueued] at hitem ⊢
  have hnew := (mem_append.1 hitem).resolve_left fun hold =>
    hnone item hold hpayload
  by_cases hdisposed : s.queue.disposed = true
  · rw [if_pos hdisposed] at hnew
    cases hnew
  rw [if_neg hdisposed] at hnew hlater ⊢
  cases mem_singleton.1 hnew
  obtain ⟨first, hfirst⟩ := (hpromised.resolve_left hdisposed) index sub hsub
  refine ⟨first, hfirst.later hlater, ?_, ?_⟩
  · exact precedes_snoc (mem_of_firstItem hfirst.1) _
  · -- it has only just been put
    intro hdequeued
    rw [dequeued_put] at hdequeued
    exact absurd rfl (hnone _ (hinv.queue.accounted.dequeued_sub _ hdequeued))

/-- A fatal message of `StreamRun` comes instead of the sync message. -/
theorem SyncOk.put_fatal {text : String} (hmain : s.main = .puttingFatal text t) :
    SyncOk client updatesOnly subs
      { s with queue := s.queue.put ⟨t, .streamRun, .fatal text⟩, main := .leaving } := by
  have hlater : Later s
      { s with queue := s.queue.put ⟨t, .streamRun, .fatal text⟩, main := .leaving }
      (if s.queue.disposed then [] else [⟨t, .streamRun, .fatal text⟩]) :=
    .of_put hinv.queue.accounted rfl le_rfl
  have hnone : ∀ item ∈ s.queue.enqueued ++
      (if s.queue.disposed then [] else [⟨t, .streamRun, .fatal text⟩]),
      item.payload ≠ .syncResponse := by
    intro item hitem
    rcases mem_append.1 hitem with hold | hnew
    · exact hinv.sync.none (by rw [hmain]; rfl) item hold
    · split at hnew
      · cases hnew
      · rw [mem_singleton.1 hnew]
        simp
  rw [← hlater.enqueued] at hnone
  exact ⟨nofun, nofun, fun _ => hnone, (countP_syncResponse hnone).trans_le (Nat.zero_le 1), nofun,
    nofun, fun item hitem hpayload => absurd hpayload (hnone item hitem)⟩

/-- When `StreamRun` reads the time of the sync message, every first item has an earlier
time. -/
theorem StreamInv.promised (hmain : s.main = .stampingSync) :
    s.queue.disposed = true ∨ ∀ index sub, subs[index]? = some sub →
      ∃ first, FirstBefore client updatesOnly sub s index (s.clock + 1) first := by
  obtain ⟨hlength, hsignalled⟩ := hinv.sync.signalled (by rw [hmain]; rfl)
  by_cases hdisposed : s.queue.disposed = true
  · exact .inl hdisposed
  refine .inr fun index sub hsub => ?_
  have hindex : index < s.routines.length := by
    rw [hlength]
    exact (List.getElem?_eq_some_iff.1 hsub).1
  have hr := getElem?_eq_getElem hindex
  obtain ⟨other, hother, hok⟩ := hinv.routines index _ hr
  rw [hsub, some.injEq] at hother
  subst hother
  have hsent := unsent_eq_false (hsignalled _ (mem_of_getElem? hr))
  obtain ⟨first, hfirst, hisFirst⟩ := (hok.sent hsent).resolve_left hdisposed
  have hpast := hinv.queue.past first (mem_of_firstItem hfirst)
  exact ⟨first, hfirst, hisFirst, Nat.lt_succ_of_le hpast⟩

theorem StreamInv.main_step {next : MainStage}
    (hact : s.main.act subs[s.routines.length]? s.clock s.synced s.stopped = some (effect, next)) :
    StreamInv client updatesOnly subs others { s.apply effect with main := next } := by
  have hsynced := hinv.counts.synced
  have hw := hinv.counts.w
  have hnext := hinv.sync.next
  have hwaiting := hinv.sync.waiting
  have hsignalled := hinv.sync.signalled
  have hpast := hinv.main
  generalize hmain : s.main = main at hact hsynced hw hnext hwaiting hsignalled hpast
  cases main with
  | loop =>
    dsimp only [MainStage.act] at hact
    split at hact
    · rename_i hnone
      cases hact
      have hlong : subs.length ≤ s.routines.length := getElem?_eq_none_iff.1 hnone
      exact hinv.main_quiet le_rfl nofun ⟨hsynced, hw⟩ nofun (fun _ => hlong)
        (fun _ => hmain ▸ rfl) nofun nofun
    · rename_i sub hsome
      have hlength : s.routines.length < subs.length := (List.getElem?_eq_some_iff.1 hsome).1
      have hadd : StreamInv client updatesOnly subs others
          { s.apply .wAdd with main := .addedW } := by
        refine hinv.main_quiet le_rfl nofun ⟨hsynced, ?_⟩
          (fun _ => hlength) nofun (fun _ => hmain ▸ rfl)
          nofun nofun
        change s.w + 1 = _
        rw [hw]
        simp only [MainStage.addsW, MainStage.owesW]
        simp
      split at hact <;> cases hact
      · exact hadd
      · exact hadd
      · exact hinv.main_quiet le_rfl nofun ⟨hsynced, hw⟩ nofun nofun (fun _ => hmain ▸ rfl)
          nofun nofun
  | addedW =>
    cases hact
    refine hinv.main_quiet le_rfl nofun ⟨?_, hw⟩ (fun _ => hnext rfl) nofun
      (fun _ => hmain ▸ rfl) nofun nofun
    change s.synced + 1 = _
    rw [hsynced]
    simp [MainStage.addsSynced]
  | addedSynced =>
    cases hact
    exact hinv.main_go hmain
  | stampingFatal text =>
    cases hact
    refine hinv.main_quiet (Nat.le_succ _) ?_ ⟨hsynced, hw⟩ nofun
      nofun (fun _ => hmain ▸ rfl) nofun nofun
    rintro t ⟨⟩
    exact le_rfl
  | puttingFatal text t =>
    cases hact
    exact hinv.main_put rfl (hpast t rfl) rfl ⟨hsynced, hw⟩ (.put_fatal hinv hmain)
  | waiting =>
    rw [MainStage.act] at hact
    split at hact <;> cases hact
    rename_i hzero
    exact hinv.main_quiet le_rfl nofun ⟨hsynced, hw⟩ nofun nofun (fun _ => hmain ▸ rfl)
      (fun _ => ⟨le_antisymm hinv.routines.length_le (hwaiting rfl), hinv.counts.signalled hzero⟩)
      nofun
  | stampingSync =>
    have hpromised := hinv.promised hmain
    cases hact
    refine hinv.main_quiet (Nat.le_succ _) nofun ⟨hsynced, hw⟩ nofun nofun
      (fun _ => hmain ▸ rfl) (fun _ => hsignalled rfl) ?_
    rintro t ⟨⟩
    exact ⟨le_rfl, hpromised⟩
  | puttingSync t =>
    obtain ⟨hpast, -⟩ := hinv.sync.promised t hmain
    cases hact
    exact hinv.main_put rfl hpast rfl ⟨hsynced, hw⟩ (.put_sync hinv hmain)
  | stopping =>
    rw [MainStage.act] at hact
    split at hact <;> cases hact
    exact hinv.main_quiet le_rfl nofun ⟨hsynced, hw⟩ nofun nofun nofun nofun nofun
  | leaving =>
    cases hact
    refine hinv.main_quiet le_rfl nofun ⟨hsynced, ?_⟩ nofun nofun nofun nofun nofun
    change s.w - 1 = _
    rw [hw]
    simp [MainStage.addsW, MainStage.owesW]
  | returned => cases hact

theorem StreamInv.step {action : StreamAction} {after : StreamRunState}
    (hstep : s.step client updatesOnly subs action = some after) :
    StreamInv client updatesOnly subs others after := by
  unfold StreamRunState.step at hstep
  split at hstep
  · cases hstep
  cases action with
  | main =>
    obtain ⟨⟨effect, next⟩, hact, rfl⟩ := map_eq_some_iff.1 hstep
    exact hinv.main_step hact
  | routine index choice =>
    dsimp only at hstep
    split at hstep
    · rename_i r sub hr hsub
      obtain ⟨⟨effect, next⟩, hact, rfl⟩ := map_eq_some_iff.1 hstep
      obtain ⟨other, hother, hok⟩ := hinv.routines index r hr
      rw [hsub, some.injEq] at hother
      subst hother
      obtain ⟨hmove, hsound⟩ := act_cases hok.sound hact
      exact hinv.routine_step hr hsub hok hmove hsound
    · cases hstep
  | listener index choice =>
    dsimp only at hstep
    split at hstep
    · cases hstep
    · rename_i l hl
      obtain ⟨⟨effect, next⟩, hact, rfl⟩ := map_eq_some_iff.1 hstep
      exact hinv.listener_step hl hact
  | get index =>
    obtain ⟨queue, hget, rfl⟩ := map_eq_some_iff.1 hstep
    exact hinv.quiet (.of_get hinv.queue.accounted hget le_rfl) rfl rfl rfl rfl hinv.listeners
  | dispose =>
    cases hstep
    exact hinv.quiet (.of_dispose hinv.queue.accounted rfl le_rfl) rfl rfl rfl rfl hinv.listeners
  | stop =>
    cases hstep
    exact hinv.quiet (.of_queue_eq hinv.queue.accounted rfl le_rfl) rfl rfl rfl rfl hinv.listeners

end

theorem StreamInv.start (client : StreamClient) (updatesOnly : Bool)
    (subs : List StreamSubscription) (others : Nat) :
    StreamInv client updatesOnly subs others (start others) where
  queue := by
    refine ⟨⟨?_, ?_, ?_, ?_⟩, ?_, ?_⟩ <;> simp [StreamRunState.start]
  listeners := nofun
  main := nofun
  routines := nofun
  counts := ⟨rfl, rfl⟩
  sync := by
    refine ⟨?_, ?_, ?_, ?_, ?_, ?_, ?_⟩ <;>
      simp [StreamRunState.start, MainStage.addsW, MainStage.syncing]

theorem StreamInv.of_run (hrun : StreamRuns client updatesOnly subs others s) :
    StreamInv client updatesOnly subs others s :=
  Reach.invariant _ (StreamInv.start client updatesOnly subs others)
    (fun _ _ _ hinv _ hstep => hinv.step hstep) hrun

end Steps

/-! ## Sync after data -/

/-- The sync message comes after the first item of a subscription: that item is the
first one of the subscription on the queue, holds the value that is read from all its
table paths or a fatal message, is put before the sync message, and is taken before
it. -/
def SyncAfter (client : StreamClient) (updatesOnly : Bool) (sub : StreamSubscription)
    (s : StreamRunState) (index : Nat) (sync : StreamItem) : Prop :=
  ∃ first, s.firstItem index = some first ∧ IsFirst client updatesOnly sub first.payload ∧
    PriorityQueue.Precedes first sync s.queue.enqueued ∧
    (sync ∈ s.queue.dequeued → PriorityQueue.Precedes first sync s.queue.dequeued)

/-- The table `PORT`, on change, and a sample interval that is too short. -/
def twoSubscriptions : List StreamSubscription :=
  [⟨{ mode := .onChange }, .ok [{ dbName := "CONFIG_DB", tableName := "PORT", delimitor := "|" }]⟩,
    ⟨{ mode := .sample, sampleInterval := 1 }, .ok []⟩]

def onePortReads : Reads where
  fields := fun _ => .error
  tables := fun _ => .reply .sorted (Redis.Db.single "PORT|Ethernet0" "mtu" "9100")

/-- The second goroutine is refused while the first one reads; the receiver takes three
items; then the channel is closed. -/
def twoSubscriptionsRun : List StreamAction :=
  List.replicate 7 .main ++
    [.routine 1 (.begin onePortReads), .routine 1 .proceed, .routine 0 (.begin onePortReads),
      .routine 0 .proceed, .routine 1 .proceed, .routine 0 .proceed, .routine 1 .proceed,
      .routine 1 .proceed, .routine 0 .proceed, .main, .main, .main, .get 0, .get 0, .get 0,
      .routine 0 .proceed, .stop, .routine 0 .stop, .routine 0 .proceed, .main, .main]

def twoSubscriptionsEnd : StreamRunState :=
  (runActions (StreamRunState.step ⟨.db, ""⟩ false twoSubscriptions) (.start 0)
    twoSubscriptionsRun).get (by decide +kernel)

/-- The sync message, with the third time that was read. -/
def twoSubscriptionsSync : StreamItem := ⟨3, .streamRun, .syncResponse⟩

end SonicGnmi.Sdc
