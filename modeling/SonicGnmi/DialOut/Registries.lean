import SonicGnmi.DialOut.Client
import SonicGnmi.Foundation.Threads

/-!
# The maps of the dial-out client

The names that use a group should be exactly those of the subscriptions with this group,
and nothing should panic.  This is so as long as the steps are orderly:

* only a subscription that exists is deleted, and none is moved to another group;
* a group has a destination;
* a subscription is not copied while it is open, so two values never share a stop channel
  that one of them is going to close.

`Inv` is the invariant of such a run; `registries_consistent` is what follows.  The runs
at the end show what happens otherwise.
-/

namespace SonicGnmi.DialOut

open Foundation Clients Function List Option

/-- What is expected after every step: nothing has panicked, and when no notification is
being handled, a name uses a group once if it is the name of a subscription with this
group, and not at all otherwise. -/
structure Consistent (d : Clients) : Prop where
  alive : d.panicked = false
  listed : d.pending = [] → ∀ group name,
    ((∃ id cs, d.clientSubscriptionNameMap name = some id ∧ d.subs[id]? = some cs ∧
        cs.destGroupName = group) → (d.users group).count name = 1) ∧
    ((¬ ∃ id cs, d.clientSubscriptionNameMap name = some id ∧ d.subs[id]? = some cs ∧
        cs.destGroupName = group) → (d.users group).count name = 0)

/-- The condition on a step. -/
def orderly (validPath : String → Bool) (d : Clients) : Action → Bool
  | .notify n =>
    match target n.key, n.op, n.fields with
    | .subscription name, .hdel, .ok _ => (d.sub name).isSome
    | .subscription name, .hset, .ok fields =>
      match parseSubscription validPath { name := name } fields with
      | .error _ => true
      | .ok cs => cs.destGroupName = "" || (d.groupOf name).all (· = cs.destGroupName)
    | .group _, .hset, .ok fields =>
      match parseDests fields with
      | .error _ => true
      | .ok dests => !dests.isEmpty
    | _, _, _ => true
  | .handle _ =>
    match d.pending with
    | .setup name :: _ => (d.sub name).all fun found => !found.2.opened
    | _ => true
  | .publish _ _ => true

/-! ## The invariant -/

/-- A subscription that is open has a stop channel of its own that is not closed. -/
def ChannelsOk (d : Clients) : Prop :=
  ∀ (id : Nat) (cs : ClientSubscription), d.subs[id]? = some cs → cs.opened = true →
    ∃ channel : Nat, cs.stop = some channel ∧ d.closed[channel]? = some false ∧
      ∀ (other : Nat) (cs' : ClientSubscription), d.subs[other]? = some cs' →
        cs'.opened = true → cs'.stop = some channel → other = id

/-- Every goroutine has a next destination. -/
def PublishersOk (d : Clients) : Prop :=
  ∀ (i : Nat) (p : Publisher), d.publishers[i]? = some p → p.destIdx < p.dests.length

/-- An operation of the handler can be done. -/
def OpOk (d : Clients) : HandlerOp → Prop
  | .close name | .setup name | .unlist name => (d.groupOf name).isSome = true
  | .setDests _ dests => dests ≠ []
  | .deleteDests _ => True
  | .enlist cs => cs.opened = false ∧ ∀ group, d.groupOf cs.name = some group →
      group = cs.destGroupName
  | .nilDereference => False

/-- The operation changes which names are in use. -/
def HandlerOp.isLast : HandlerOp → Bool
  | .unlist _ | .enlist _ => true
  | _ => false

/-- All operations can be done, and only the last one changes which names are in use. -/
def PendingOk (d : Clients) (ops : List HandlerOp) : Prop :=
  (∀ op ∈ ops, OpOk d op) ∧ ∀ op ∈ ops.dropLast, op.isLast = false

/-- What does not concern the users of the groups. -/
structure Base (d : Clients) : Prop where
  alive : d.panicked = false
  known : ∀ name id, d.clientSubscriptionNameMap name = some id → id < d.subs.length
  channels : ChannelsOk d
  dests : ∀ group dests, d.destGrpNameMap.lookup group = some dests → dests ≠ []
  publishers : PublishersOk d

/-- A name uses a group once if it is the name of a subscription with this group. -/
def ListedOk (d : Clients) : Prop :=
  ∀ group name, (d.users group).count name = if d.groupOf name = some group then 1 else 0

/-- The invariant of an orderly run. -/
structure Inv (d : Clients) : Prop extends Base d where
  listed : ListedOk d
  pending : PendingOk d d.pending

variable {d after : Clients} {name : String} {cs : ClientSubscription} {p : Publisher}

theorem sub_eq_some {id : Nat} (h : d.sub name = some (id, cs)) :
    d.clientSubscriptionNameMap name = some id ∧ d.subs[id]? = some cs := by
  obtain ⟨found, hid, hcs⟩ := bind_eq_some_iff.1 h
  obtain ⟨value, hvalue, hpair⟩ := map_eq_some_iff.1 hcs
  cases hpair
  exact ⟨hid, hvalue⟩

theorem groupOf_eq_some {group : String} :
    d.groupOf name = some group ↔ ∃ id cs, d.clientSubscriptionNameMap name = some id ∧
      d.subs[id]? = some cs ∧ cs.destGroupName = group := by
  constructor
  · intro h
    obtain ⟨⟨id, cs⟩, hsub, rfl⟩ := map_eq_some_iff.1 h
    exact ⟨id, cs, (sub_eq_some hsub).1, (sub_eq_some hsub).2, rfl⟩
  · rintro ⟨id, cs, hid, hcs, rfl⟩
    rw [groupOf, sub, hid, bind_some, hcs]
    rfl

theorem Inv.consistent (h : Inv d) : Consistent d := by
  refine ⟨h.alive, fun _ group name => ⟨fun hfound => ?_, fun hnone => ?_⟩⟩
  · rw [h.listed, if_pos (groupOf_eq_some.2 hfound)]
  · rw [h.listed, if_neg fun hgroup => hnone (groupOf_eq_some.1 hgroup)]

theorem ListedOk.mem_users_iff (h : ListedOk d) {group : String} :
    name ∈ d.users group ↔ d.groupOf name = some group := by
  rw [← count_pos_iff, h]
  split <;> simp [*]

theorem exists_sub_of_groupOf (h : (d.groupOf name).isSome = true) :
    ∃ id cs, d.sub name = some (id, cs) := by
  unfold groupOf at h
  rw [isSome_map] at h
  obtain ⟨⟨id, cs⟩, hsub⟩ := isSome_iff_exists.1 h
  exact ⟨id, cs, hsub⟩

theorem groupOf_of_sub {id : Nat}
    (h : d.sub name = some (id, cs)) : d.groupOf name = some cs.destGroupName := by
  rw [groupOf, h]
  rfl

variable {op : HandlerOp}

theorem OpOk.congr (hgroups : after.groupOf = d.groupOf) (h : OpOk d op) : OpOk after op := by
  cases op with
  | close name | setup name | unlist name | enlist cs =>
    unfold OpOk at h ⊢
    rw [hgroups]
    exact h
  | setDests group dests | nilDereference => exact h
  | deleteDests group => trivial

theorem PendingOk.tail {rest : List HandlerOp} (h : PendingOk d (op :: rest))
    (hgroups : op.isLast = false → after.groupOf = d.groupOf) : PendingOk after rest := by
  cases rest with
  | nil => exact ⟨nofun, nofun⟩
  | cons next rest =>
    obtain ⟨hok, hlast⟩ := h
    rw [dropLast_cons_of_ne_nil (cons_ne_nil _ _)] at hlast
    have hsame := hgroups (hlast op mem_cons_self)
    exact ⟨fun other hother => (hok other (mem_cons_of_mem _ hother)).congr hsame,
      fun other hother => hlast other (mem_cons_of_mem _ hother)⟩

/-! ## Changes of one subscription -/

/-- A change that keeps the maps and the groups of all subscriptions. -/
structure SameMaps (d after : Clients) : Prop where
  panicked : after.panicked = d.panicked
  names : after.clientSubscriptionNameMap = d.clientSubscriptionNameMap
  groups : after.destGrp2ClientSubMap = d.destGrp2ClientSubMap
  dests : after.destGrpNameMap = d.destGrpNameMap
  pending : after.pending = d.pending
  length : after.subs.length = d.subs.length
  groupOf : after.groupOf = d.groupOf

theorem Base.of_sameMaps (h : Base d) (hsame : SameMaps d after)
    (hchannels : ChannelsOk after) (hpublishers : PublishersOk after) : Base after where
  alive := hsame.panicked.trans h.alive
  known name id hid := by
    rw [hsame.length]
    exact h.known name id (hsame.names ▸ hid)
  channels := hchannels
  dests group dests hlookup := h.dests group dests (hsame.dests ▸ hlookup)
  publishers := hpublishers

theorem SameMaps.listed (hsame : SameMaps d after) (h : ListedOk d) : ListedOk after := by
  intro group name
  rw [users, hsame.groups, hsame.groupOf]
  exact h group name

theorem Inv.of_sameMaps (h : Inv d) (hsame : SameMaps d after)
    (hchannels : ChannelsOk after) (hpublishers : PublishersOk after) : Inv after where
  toBase := h.toBase.of_sameMaps hsame hchannels hpublishers
  listed := hsame.listed h.listed
  pending := by
    rw [hsame.pending]
    exact ⟨fun op hop => (h.pending.1 op hop).congr hsame.groupOf, h.pending.2⟩

section Sub

variable {d : Clients} {id : Nat} {cs next : ClientSubscription}

theorem groupOf_setSub (hcs : d.subs[id]? = some cs)
    (hgroup : next.destGroupName = cs.destGroupName) : (d.setSub id next).groupOf = d.groupOf := by
  funext name
  unfold groupOf sub setSub
  cases d.clientSubscriptionNameMap name with
  | none => rfl
  | some found =>
    rw [bind_some, bind_some]
    by_cases hfound : found = id
    · subst hfound
      rw [List.getElem?_set_self (List.getElem?_eq_some_iff.1 hcs).1, hcs]
      exact congrArg some hgroup
    · rw [getElem?_set_ne (Ne.symm hfound)]

theorem sameMaps_setSub (hcs : d.subs[id]? = some cs) (next : ClientSubscription)
    (hgroup : next.destGroupName = cs.destGroupName) (closed : List Bool) :
    SameMaps d { d.setSub id next with closed := closed } where
  panicked := rfl
  names := rfl
  groups := rfl
  dests := rfl
  pending := rfl
  length := length_set
  groupOf := groupOf_setSub hcs hgroup

/-- `Close` finds the stop channel open, and closes it for this subscription only. -/
theorem close_spec (h : Base d) (hcs : d.subs[id]? = some cs) :
    SameMaps d (d.close id cs) ∧ ChannelsOk (d.close id cs) ∧
      PublishersOk (d.close id cs) := by
  unfold close
  by_cases hopened : cs.opened = true
  · obtain ⟨channel, hstop, hopen, hown⟩ := h.channels id cs hcs hopened
    rw [if_pos hopened, hstop]
    dsimp only
    rw [if_neg (by rw [hopen]; decide)]
    refine ⟨sameMaps_setSub hcs _ (by rfl) _, ?_, h.publishers⟩
    refine forall_act (fun hclosed => (by cases hclosed)) fun other cs' hne hcs' hopened' => ?_
    obtain ⟨channel', hstop', hopen', hown'⟩ := h.channels other cs' hcs' hopened'
    have hchannel : channel ≠ channel' := by
      rintro rfl
      exact hne (hown other cs' hcs' hopened' hstop')
    refine ⟨channel', hstop', ?_, ?_⟩
    · rw [getElem?_set_ne hchannel]
      exact hopen'
    · exact forall_act (fun hclosed => (by cases hclosed)) fun third cs'' _ => hown' third cs''
  · rw [if_neg hopened]
    exact ⟨⟨rfl, rfl, rfl, rfl, rfl, rfl, rfl⟩, h.channels, h.publishers⟩

/-- A restart makes a stop channel that nobody else has. -/
theorem channelsOk_restart (h : Base d) : ChannelsOk (d.restart id cs) := by
  refine forall_act (fun _ => ?_) fun other cs' hne hcs' hopened' => ?_
  · refine ⟨d.closed.length, rfl, ?_, ?_⟩
    · exact getElem?_concat_length
    · refine forall_act (fun _ _ => rfl) fun third cs' _ hcs' hopened' hstop' => ?_
      obtain ⟨channel, hstop, hopen, -⟩ := h.channels third cs' hcs' hopened'
      cases hstop.symm.trans hstop'
      exact absurd (List.getElem?_eq_some_iff.1 hopen).1 (Nat.lt_irrefl _)
  · obtain ⟨channel, hstop, hopen, hown⟩ := h.channels other cs' hcs' hopened'
    have hlt := (List.getElem?_eq_some_iff.1 hopen).1
    refine ⟨channel, hstop, (getElem?_append_left hlt).trans hopen, ?_⟩
    refine forall_act (fun _ hlast => ?_) fun third cs'' _ => hown third cs''
    cases some.inj hlast
    exact absurd hlt (Nat.lt_irrefl _)

end Sub

/-! ## Steps of the goroutines -/

theorem Inv.setPublisher (h : Inv d) (index : Nat)
    (hp : p.destIdx < p.dests.length) : Inv (d.setPublisher index p) :=
  h.of_sameMaps ⟨rfl, rfl, rfl, rfl, rfl, rfl, rfl⟩ h.channels
    (forall_act hp fun i other _ hother => h.publishers i other hother)

theorem Inv.publish (h : Inv d) {index : Nat} (hp : d.publishers[index]? = some p)
    (hcs : d.subs[p.sub]? = some cs) {choice : PublishChoice}
    (hstep : d.publishStep index p cs choice = some after) : Inv after := by
  have hnext := h.publishers index p hp
  cases choice with
  | go =>
    rw [publishStep] at hstep
    generalize p.stage = stage at hstep
    cases stage with
    | restarting =>
      cases hstep
      have hrestart : Inv (d.restart p.sub cs) :=
        h.of_sameMaps (sameMaps_setSub hcs _ (by rfl) _) (channelsOk_restart h.toBase)
          h.publishers
      exact hrestart.setPublisher index hnext
    | dialing =>
      rw [getElem?_eq_getElem hnext] at hstep
      cases hstep
      exact h.setPublisher index (Nat.mod_lt _ (by omega))
    | dialed =>
      cases hstep
      exact h.setPublisher index hnext
    | publishing =>
      dsimp only at hstep
      split at hstep <;> cases hstep
      · exact h.setPublisher index hnext
      have hclient : Inv (d.setSub p.sub { cs with hasClient := true }) := by
        refine h.of_sameMaps (sameMaps_setSub hcs _ (by rfl) d.closed) ?_ h.publishers
        refine forall_act (fun hopened => ?_) fun other cs' hne hcs' hopened' => ?_
        · obtain ⟨channel, hstop, hopen, hown⟩ := h.channels p.sub cs hcs hopened
          exact ⟨channel, hstop, hopen,
            forall_act (fun _ _ => rfl) fun third cs'' _ => hown third cs''⟩
        · obtain ⟨channel, hstop, hopen, hown⟩ := h.channels other cs' hcs' hopened'
          exact ⟨channel, hstop, hopen,
            forall_act (fun hopened hlast => hown p.sub cs hcs hopened hlast)
              fun third cs'' _ => hown third cs''⟩
      exact hclient.setPublisher index hnext
    | running =>
      dsimp only at hstep
      split at hstep
      · cases hstep
        exact h
      all_goals
        cases hstep
        exact h.setPublisher index hnext
    | closing again =>
      cases hstep
      obtain ⟨hsame, hchannels, hpublishers⟩ := close_spec h.toBase hcs
      exact (h.of_sameMaps hsame hchannels hpublishers).setPublisher index hnext
    | returned => cases hstep
  | ctxDone | dialFailed | publishFailed | sendFailed | stopped =>
    rw [publishStep] at hstep
    split at hstep <;> cases hstep
    exact h.setPublisher index hnext

/-! ## Operations of the handler -/

section Handler

variable {d : Clients}

theorem newInstance_spec (h : Base d) (id : Nat) (cs : ClientSubscription) (dataClient : Bool) :
    SameMaps d (d.newInstance id cs dataClient) ∧ Base (d.newInstance id cs dataClient) := by
  have hsame : ∀ publishers, SameMaps d { d with publishers := publishers } := fun _ =>
    ⟨rfl, rfl, rfl, rfl, rfl, rfl, rfl⟩
  unfold newInstance
  split
  · exact ⟨hsame d.publishers, h⟩
  split
  · exact ⟨hsame d.publishers, h⟩
  rename_i dests hdests
  split
  · exact ⟨hsame d.publishers, h⟩
  · split
    · refine ⟨hsame _, h.of_sameMaps (hsame _) h.channels ?_⟩
      exact forall_spawn h.publishers (length_pos_iff.2 (h.dests _ dests hdests))
    · exact ⟨hsame d.publishers, h⟩

variable {cs : ClientSubscription}

theorem place_spec (h : Base d) (name : String) (hopened : cs.opened = false) (dataClient : Bool) :
    Base (d.place name cs dataClient) ∧ (d.place name cs dataClient).pending = d.pending ∧
      (d.place name cs dataClient).users = d.users ∧
      ∀ other, (d.place name cs dataClient).groupOf other =
        if other = name then some cs.destGroupName else d.groupOf other := by
  have hinsert : Base { d with
      subs := d.subs ++ [cs]
      clientSubscriptionNameMap :=
        update d.clientSubscriptionNameMap name (some d.subs.length) } := by
    refine ⟨h.alive, fun other id hid => ?_, ?_, h.dests, h.publishers⟩
    · dsimp only at hid ⊢
      rw [length_append, length_singleton]
      rw [update_apply] at hid
      split at hid
      · cases hid
        omega
      · have hlt := h.known other id hid
        omega
    · refine forall_spawn (fun id cs' hcs' hopened' => ?_) fun hopen => ?_
      · obtain ⟨channel, hstop, hopen, hown⟩ := h.channels id cs' hcs' hopened'
        refine ⟨channel, hstop, hopen, forall_spawn hown fun hopen' => ?_⟩
        rw [hopened] at hopen'
        cases hopen'
      · rw [hopened] at hopen
        cases hopen
  obtain ⟨hsame, hbase⟩ := newInstance_spec hinsert d.subs.length cs dataClient
  refine ⟨hbase, hsame.pending, ?_, fun other => ?_⟩
  · funext group
    exact congrArg (fun groups => getD (groups group) []) hsame.groups
  rw [place, hsame.groupOf]
  unfold groupOf sub
  dsimp only
  rw [update_apply]
  split_ifs
  · rw [bind_some, getElem?_concat_length]
    rfl
  · cases hid : d.clientSubscriptionNameMap other with
    | none => rfl
    | some id =>
      rw [bind_some, bind_some, getElem?_append_left (h.known other id hid)]

/-- What an operation of the handler keeps. -/
structure OpKeeps (d after : Clients) (op : HandlerOp) : Prop where
  base : Base after
  listed : ListedOk after
  pending : after.pending = d.pending
  groupOf : op.isLast = false → after.groupOf = d.groupOf

/-- A copy of a subscription takes the place of the subscription. -/
theorem opKeeps_setup (h : Base d) (hlisted : ListedOk d) {name : String} {id : Nat}
    (hsub : d.sub name = some (id, cs)) (hopened : cs.opened = false)
    (dataClient : Bool) : OpKeeps d (d.place name cs dataClient) (.setup name) := by
  obtain ⟨hbase, hpending, husers, hgroups⟩ := place_spec h name hopened dataClient
  have hsame : (d.place name cs dataClient).groupOf = d.groupOf := by
    funext other
    rw [hgroups]
    split
    · rename_i hother
      rw [hother, groupOf_of_sub hsub]
    · rfl
  refine ⟨hbase, fun group other => ?_, hpending, fun _ => hsame⟩
  rw [husers, hsame]
  exact hlisted group other

theorem opKeeps_enlist (h : Base d) (hlisted : ListedOk d) (hopened : cs.opened = false)
    (hgroup : ∀ group, d.groupOf cs.name = some group → group = cs.destGroupName)
    (dataClient : Bool) : OpKeeps d (d.runOp dataClient (.enlist cs)) (.enlist cs) := by
  rw [runOp]
  by_cases hmem : cs.name ∈ d.users cs.destGroupName
  · rw [if_pos hmem]
    obtain ⟨hbase, hpending, husers, hgroups⟩ := place_spec h cs.name hopened dataClient
    refine ⟨hbase, fun group other => ?_, hpending, fun hlast => by cases hlast⟩
    rw [husers, hgroups, hlisted group other]
    by_cases hother : other = cs.name
    · rw [if_pos hother, hother, hlisted.mem_users_iff.1 hmem]
    · rw [if_neg hother]
  · rw [if_neg hmem]
    -- the name is new, since a subscription with this name would have the same group
    have hnone : d.groupOf cs.name = none := by
      cases hfound : d.groupOf cs.name with
      | none => rfl
      | some group =>
        rw [hgroup group hfound] at hfound
        exact absurd (hlisted.mem_users_iff.2 hfound) hmem
    have hlonger : Base { d with
        destGrp2ClientSubMap := update d.destGrp2ClientSubMap cs.destGroupName
          (some (d.users cs.destGroupName ++ [cs.name])) } :=
      ⟨h.alive, h.known, h.channels, h.dests, h.publishers⟩
    obtain ⟨hbase, hpending, husers, hgroups⟩ := place_spec hlonger cs.name hopened dataClient
    refine ⟨hbase, fun group other => ?_, hpending, fun hlast => by cases hlast⟩
    rw [husers, hgroups]
    have hold := hlisted group other
    unfold users at hold ⊢
    dsimp only
    by_cases hcs : group = cs.destGroupName
    · subst hcs
      rw [update_self, getD_some, count_append, hold]
      by_cases hother : other = cs.name
      · subst hother
        rw [hnone, if_pos rfl, if_pos rfl, count_singleton_self]
        rfl
      · rw [if_neg hother, count_eq_zero.2 (by simpa using hother)]
        rfl
    · rw [update_of_ne hcs, hold]
      by_cases hother : other = cs.name
      · subst hother
        rw [hnone, if_pos rfl, if_neg nofun, if_neg fun heq => hcs (some.inj heq).symm]
      · rw [if_neg hother]
        rfl

theorem opKeeps_unlist (h : Base d) (hlisted : ListedOk d) {name : String} {id : Nat}
    (hsub : d.sub name = some (id, cs)) (dataClient : Bool) :
    OpKeeps d (d.runOp dataClient (.unlist name)) (.unlist name) := by
  have hrun : d.runOp dataClient (.unlist name) =
      { d with
        destGrp2ClientSubMap := update d.destGrp2ClientSubMap cs.destGroupName
          (some ((d.users cs.destGroupName).erase name))
        clientSubscriptionNameMap := update d.clientSubscriptionNameMap name none } := by
    rw [runOp, hsub]
  rw [hrun]
  refine ⟨⟨h.alive, fun other id' hid => ?_, h.channels, h.dests, h.publishers⟩,
    fun group other => ?_, rfl, fun hlast => by cases hlast⟩
  · dsimp only at hid ⊢
    rw [update_apply] at hid
    split at hid
    · cases hid
    · exact h.known other id' hid
  · have hgroups : groupOf { d with
        destGrp2ClientSubMap := update d.destGrp2ClientSubMap cs.destGroupName
          (some ((d.users cs.destGroupName).erase name))
        clientSubscriptionNameMap := update d.clientSubscriptionNameMap name none } other =
        if other = name then none else d.groupOf other := by
      unfold groupOf sub
      dsimp only
      rw [update_apply]
      split <;> rfl
    have hname := groupOf_of_sub hsub
    have hold := hlisted group other
    rw [hgroups]
    unfold users at hold ⊢
    dsimp only
    by_cases hcs : group = cs.destGroupName
    · subst hcs
      rw [update_self, getD_some]
      by_cases hother : other = name
      · subst hother
        rw [count_erase_self, hold, if_pos hname, if_pos rfl, if_neg nofun]
      · rw [count_erase_of_ne hother, hold, if_neg hother]
    · rw [update_of_ne hcs, hold]
      by_cases hother : other = name
      · subst hother
        rw [hname, if_pos rfl, if_neg fun heq => hcs (some.inj heq).symm, if_neg nofun]
      · rw [if_neg hother]

theorem opKeeps_runOp (h : Base d) (hlisted : ListedOk d) (hop : OpOk d op)
    (hcopy : ∀ name id cs, op = .setup name → d.sub name = some (id, cs) → cs.opened = false)
    (dataClient : Bool) : OpKeeps d (d.runOp dataClient op) op := by
  cases op with
  | close name =>
    obtain ⟨id, cs, hsub⟩ := exists_sub_of_groupOf hop
    obtain ⟨hsame, hchannels, hpublishers⟩ := close_spec h (sub_eq_some hsub).2
    rw [runOp, hsub]
    exact ⟨h.of_sameMaps hsame hchannels hpublishers, hsame.listed hlisted, hsame.pending,
      fun _ => hsame.groupOf⟩
  | setup name =>
    obtain ⟨id, cs, hsub⟩ := exists_sub_of_groupOf hop
    have hrun : d.runOp dataClient (.setup name) = d.place name cs dataClient := by
      rw [runOp, hsub]
    rw [hrun]
    exact opKeeps_setup h hlisted hsub (hcopy name id cs rfl hsub) dataClient
  | setDests group dests =>
    refine ⟨⟨h.alive, h.known, h.channels, fun other found hfound => ?_, h.publishers⟩, hlisted,
      rfl, fun _ => rfl⟩
    rw [runOp] at hfound
    by_cases hother : other = group
    · subst hother
      rw [AList.lookup_insert] at hfound
      exact some.inj hfound ▸ hop
    · rw [AList.lookup_insert_ne hother] at hfound
      exact h.dests other found hfound
  | deleteDests group =>
    refine ⟨⟨h.alive, h.known, h.channels, fun other found hfound => ?_, h.publishers⟩, hlisted,
      rfl, fun _ => rfl⟩
    rw [runOp] at hfound
    by_cases hother : other = group
    · subst hother
      rw [AList.lookup_erase] at hfound
      cases hfound
    · rw [AList.lookup_erase_ne hother] at hfound
      exact h.dests other found hfound
  | unlist name =>
    obtain ⟨id, cs, hsub⟩ := exists_sub_of_groupOf hop
    exact opKeeps_unlist h hlisted hsub dataClient
  | enlist cs => exact opKeeps_enlist h hlisted hop.1 hop.2 dataClient
  | nilDereference => exact hop.elim

/-- An operation that can be done and does not change which names are in use. -/
def Quiet (d : Clients) (op : HandlerOp) : Prop := OpOk d op ∧ op.isLast = false

theorem pendingOk_of_quiet {ops : List HandlerOp} (h : ∀ op ∈ ops, Quiet d op) : PendingOk d ops :=
  ⟨fun op hop => (h op hop).1, fun op hop => (h op (dropLast_subset ops hop)).2⟩

theorem pendingOk_concat {ops : List HandlerOp} {last : HandlerOp} (h : ∀ op ∈ ops, Quiet d op)
    (hlast : OpOk d last) : PendingOk d (ops ++ [last]) := by
  refine ⟨fun op hop => ?_, fun op hop => ?_⟩
  · rcases mem_append.1 hop with hmem | hmem
    · exact (h op hmem).1
    · rw [mem_singleton.1 hmem]
      exact hlast
  · rw [dropLast_concat] at hop
    exact (h op hop).2

theorem quiet_group (h : Inv d) {group : String}
    (hop : op ∈ closeDestGroupClient d group ∨ op ∈ setupDestGroupClients d group) :
    Quiet d op := by
  rcases hop with hop | hop
  all_goals
    obtain ⟨name, hname, rfl⟩ := mem_map.1 hop
    refine ⟨?_, rfl⟩
    rw [OpOk, h.listed.mem_users_iff.1 hname]
    rfl

theorem pendingOk_planGlobal (h : Inv d) (order : RangeOrder String (List String)) (op : Op) :
    PendingOk d (planGlobal d order op).1 := by
  refine pendingOk_of_quiet fun next hnext => ?_
  cases op with
  | hdel => cases hnext
  | hset =>
    obtain ⟨entry, -, hmem⟩ := mem_flatMap.1 hnext
    exact quiet_group h (mem_append.1 hmem)

theorem pendingOk_planGroup (h : Inv d) (key group : String) (fields : List (String × String))
    (op : Op) (hdests : op = .hset → ∀ dests, parseDests fields = .ok dests → dests ≠ []) :
    PendingOk d (planGroup d key group fields op).1 := by
  refine pendingOk_of_quiet fun next hnext => ?_
  unfold planGroup at hnext
  split at hnext
  · cases hnext
  cases op with
  | hdel =>
    split at hnext
    · exact quiet_group h (.inl hnext)
    · rcases mem_append.1 hnext with hclose | hdelete
      · exact quiet_group h (.inl hclose)
      · rw [mem_singleton.1 hdelete]
        exact ⟨trivial, rfl⟩
  | hset =>
    dsimp only at hnext
    split at hnext
    · exact quiet_group h (.inl hnext)
    rename_i dests hparse
    rcases mem_append.1 hnext with hclose | hrest
    · exact quiet_group h (.inl hclose)
    · rcases mem_cons.1 hrest with rfl | hsetup
      · exact ⟨hdests rfl dests hparse, rfl⟩
      · exact quiet_group h (.inr hsetup)

theorem parseSubscription_keeps {validPath : String → Bool} (fields : List (String × String)) :
    ∀ (cs : ClientSubscription) {result : ClientSubscription},
      parseSubscription validPath cs fields = .ok result →
        result.name = cs.name ∧ result.opened = cs.opened := by
  induction fields with
  | nil =>
    intro cs result h
    cases h
    exact ⟨rfl, rfl⟩
  | cons entry rest ih =>
    intro cs result h
    rw [parseSubscription] at h
    split_ifs at h
    all_goals
      have hkeeps := ih _ h
      exact hkeeps

theorem pendingOk_planSubscription (validPath : String → Bool) (key name : String)
    (fields : List (String × String)) (op : Op) (hdelete : op = .hdel → (d.sub name).isSome = true)
    (hmove : op = .hset → ∀ cs, parseSubscription validPath { name := name } fields = .ok cs →
      cs.destGroupName ≠ "" → ∀ group, d.groupOf name = some group → group = cs.destGroupName) :
    PendingOk d (planSubscription validPath d key name fields op).1 := by
  have hknown : (d.sub name).isSome = true → (d.groupOf name).isSome = true := fun hsub => by
    rw [groupOf, isSome_map]
    exact hsub
  have hclosing : ∀ next ∈ (if (d.sub name).isSome then [HandlerOp.close name] else []),
      Quiet d next := by
    intro next hnext
    split at hnext
    · rename_i hsub
      rw [mem_singleton.1 hnext]
      exact ⟨hknown hsub, rfl⟩
    · cases hnext
  unfold planSubscription
  split
  · exact pendingOk_of_quiet nofun
  cases op with
  | hdel =>
    dsimp only
    rw [if_pos (hdelete rfl)]
    exact pendingOk_concat hclosing (hknown (hdelete rfl))
  | hset =>
    dsimp only
    split
    · exact pendingOk_of_quiet hclosing
    rename_i cs hparse
    obtain ⟨hname, hopened⟩ := parseSubscription_keeps fields _ hparse
    split
    · exact pendingOk_of_quiet hclosing
    · rename_i hgroup
      refine pendingOk_concat hclosing ⟨hopened, fun group hfound => ?_⟩
      rw [hname] at hfound
      exact hmove rfl cs hparse hgroup group hfound

/-- A notification that is orderly leads to operations that can be done. -/
theorem pendingOk_plan (h : Inv d) (validPath : String → Bool) (n : Notification)
    (horderly : orderly validPath d (.notify n) = true) : PendingOk d (plan validPath d n).1 := by
  unfold orderly at horderly
  dsimp only at horderly
  unfold plan
  cases hfields : n.fields with
  | error e => exact pendingOk_of_quiet nofun
  | ok fields =>
    cases htarget : target n.key with
    | global => exact pendingOk_planGlobal h n.order n.op
    | other => exact pendingOk_of_quiet nofun
    | group group =>
      refine pendingOk_planGroup h n.key group fields n.op fun hop dests hdests => ?_
      rw [htarget, hop, hfields] at horderly
      dsimp only at horderly
      rw [hdests] at horderly
      rintro rfl
      cases horderly
    | subscription name =>
      refine pendingOk_planSubscription validPath n.key name fields n.op (fun hop => ?_)
        fun hop cs hcs hgroup group hfound => ?_ <;> rw [htarget, hop, hfields] at horderly
      · exact horderly
      · dsimp only at horderly
        rw [hcs] at horderly
        simpa [hgroup, hfound] using horderly

end Handler

/-! ## Runs -/

theorem inv_init : Inv {} where
  alive := rfl
  known := nofun
  channels := nofun
  dests := nofun
  publishers := nofun
  listed _ _ := rfl
  pending := pendingOk_of_quiet nofun

theorem Inv.step {validPath : String → Bool} (h : Inv d) {action : Action}
    (horderly : orderly validPath d action = true) (hstep : d.step validPath action = some after) :
    Inv after := by
  cases action with
  | notify n =>
    rw [Clients.step] at hstep
    split at hstep <;> cases hstep
    refine ⟨⟨h.alive, h.known, h.channels, h.dests, h.publishers⟩, h.listed, ?_⟩
    have hplan := pendingOk_plan h validPath n horderly
    exact ⟨fun op hop => (hplan.1 op hop).congr rfl, hplan.2⟩
  | handle dataClient =>
    rw [Clients.step] at hstep
    rw [if_neg (by rw [h.alive]; exact Bool.false_ne_true)] at hstep
    cases hpending : d.pending with
    | nil =>
      rw [hpending] at hstep
      cases hstep
    | cons op rest =>
      rw [hpending] at hstep
      cases hstep
      have hok := h.pending
      rw [hpending] at hok
      have hbase : Base { d with pending := rest } :=
        ⟨h.alive, h.known, h.channels, h.dests, h.publishers⟩
      have hcopy : ∀ name id cs, op = .setup name →
          sub { d with pending := rest } name = some (id, cs) → cs.opened = false := by
        rintro name id cs rfl hsub
        change d.sub name = some (id, cs) at hsub
        rw [orderly, hpending] at horderly
        dsimp only at horderly
        rw [hsub] at horderly
        simpa using horderly
      have hkeeps := opKeeps_runOp hbase h.listed
        ((hok.1 op mem_cons_self).congr rfl) hcopy dataClient
      refine ⟨hkeeps.base, hkeeps.listed, ?_⟩
      rw [hkeeps.pending]
      exact hok.tail hkeeps.groupOf
  | publish index choice =>
    rw [Clients.step] at hstep
    rw [if_neg (by rw [h.alive]; exact Bool.false_ne_true)] at hstep
    split at hstep
    · cases hstep
    rename_i p hp
    split at hstep
    · cases hstep
    · rename_i cs hcs
      exact h.publish hp hcs hstep

/-- In a run of orderly steps, the maps stay consistent and nothing panics. -/
theorem registries_consistent (validPath : String → Bool) (d : Clients)
    (hreach : Reach (Clients.step validPath) (fun d action => orderly validPath d action = true)
      {} d) : Consistent d :=
  Inv.consistent <| hreach.invariant Inv inv_init fun _ _ _ hinv horderly hstep =>
    hinv.step horderly hstep

def setGroup (group : String) (fields : List (String × String)) : Action :=
  .notify { key := "DestinationGroup_" ++ group, op := .hset, fields := .ok fields }

def setSubscription (group : String) : Action :=
  .notify {
    key := "Subscription_s"
    op := .hset
    fields := .ok
      [("dst_group", group), ("report_type", "stream"), ("path_target", "COUNTERS_DB")] }

def deleteSubscription : Action := .notify { key := "Subscription_s", op := .hdel }

/-- A group and a subscription are set, the subscription publishes, the group gets other
destinations after the stream has ended, and the subscription is deleted. -/
def orderlyActions : List Action :=
  [setGroup "g" [("dst_addr", "10.0.0.1:8080,10.0.0.2:8080")], .handle true,
    setSubscription "g", .handle true,
    .publish 0 .go, .publish 0 .go, .publish 0 .go, .publish 0 .go, .publish 0 .go,
    setGroup "g" [("dst_addr", "10.0.0.3:8080")], .handle true, .handle true, .handle true,
    .publish 0 .go, .publish 1 .go,
    deleteSubscription, .handle true, .handle true]

theorem orderly_run_consistent :
    ∃ d, runActions (Clients.step fun _ => true) {} orderlyActions = some d ∧ Consistent d := by
  refine ⟨(runActions (Clients.step fun _ => true) {} orderlyActions).get (by decide +kernel),
    (Option.some_get _).symm, registries_consistent (fun _ => true) _ ?_⟩
  exact Reach.of_runActions orderlyActions .refl (by decide +kernel) (Option.some_get _).symm

/-! ## Runs that are not orderly -/

theorem not_consistent_of_stale (group name : String) (hpending : d.pending = [])
    (hgroup : d.groupOf name ≠ some group) (hcount : (d.users group).count name = 1) :
    ¬ Consistent d := by
  intro hconsistent
  have hnone := (hconsistent.listed hpending group name).2 fun h => hgroup (groupOf_eq_some.2 h)
  omega

def deleteUnknown : List Action := [deleteSubscription, .handle true]

def moveGroup : List Action :=
  [setSubscription "g", .handle true, setSubscription "h", .handle true, .handle true]

def moveThenDelete : List Action :=
  moveGroup ++ [deleteSubscription, .handle true, .handle true,
    setGroup "g" [("dst_addr", "10.0.0.1:8080")], .handle true]

def emptyGroup : List Action :=
  [setGroup "g" [], .handle true, setSubscription "g", .handle true, .publish 0 .go, .publish 0 .go]

/-- A subscription is copied while it is open, since its goroutine has opened it after the
handler closed it.  The goroutine closes the stop channel, and so does the next
notification through the copy. -/
def copiedWhileOpen : List Action :=
  [setGroup "g" [("dst_addr", "10.0.0.1:8080")], .handle true, setSubscription "g", .handle true,
    setGroup "g" [("dst_addr", "10.0.0.1:8080")], .handle true, .handle true,
    .publish 0 .go, .handle true,
    .publish 0 .go, .publish 0 .ctxDone, .publish 0 .go,
    deleteSubscription, .handle true]

def panics (actions : List Action) : Bool :=
  (runActions (Clients.step fun _ => true) {} actions).any (·.panicked)

/-- A subscription that moves leaves its name in the list of the old group.  Four runs end
in a panic: of the handler, on a subscription that is not there; of a goroutine, on a group
without a destination; and of the handler, on a stop channel that is closed already. -/
theorem registries_inconsistent :
    (∃ d, runActions (Clients.step fun _ => true) {} moveGroup = some d ∧ ¬ Consistent d) ∧
      ∀ actions ∈ [deleteUnknown, moveThenDelete, emptyGroup, copiedWhileOpen],
        ∃ d, runActions (Clients.step fun _ => true) {} actions = some d ∧ ¬ Consistent d := by
  constructor
  · refine ⟨(runActions (Clients.step fun _ => true) {} moveGroup).get (by decide +kernel),
      (Option.some_get _).symm, ?_⟩
    exact not_consistent_of_stale "g" "s" (by decide +kernel) (by decide +kernel)
      (by decide +kernel)
  · intro actions hmem
    have hpanics : panics actions = true := by
      revert actions
      decide +kernel
    obtain ⟨hrun, hpanicked⟩ := (Option.any_eq_true_iff_get _ _).1 hpanics
    exact ⟨_, (Option.some_get hrun).symm, fun h => nomatch h.alive.symm.trans hpanicked⟩

end SonicGnmi.DialOut
