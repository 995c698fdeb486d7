import TTLock.Cli.Fleet
import TTLock.Cli.Proofs.Broker
import TTLock.Cli.Proofs.Discovery

set_option autoImplicit false

/-! # Daemons do not get in each other's way

If no two of them share a topic, each daemon of a fleet goes on as if it had the broker for itself. -/

namespace TTLock

namespace Station

theorem topic_eq (a b : Station) (kind kind' : TopicKind) (h : a.topics.topic kind = b.topics.topic kind') :
    kind = kind' ∧ a.topics.nodeId = b.topics.nodeId ∧ a.topics.root kind = b.topics.root kind :=
  topic_eq_iff.1 h

/-- Topics of kinds that differ are never the same, whoever's they are. -/
theorem topic_ne (a b : Station) (kind kind' : TopicKind) (hne : kind ≠ kind') :
    a.topics.topic kind ≠ b.topics.topic kind' :=
  fun h => hne (topic_eq a b kind kind' h).1

/-- The kind of topic that a publication goes to. -/
def kindOf : Topic → TopicKind
  | .availability => .availability
  | .state => .state
  | .battery => .battery

theorem ofTopic_eq (a : Station) (topic : Topic) :
    a.topics.ofTopic topic = a.topics.topic (kindOf topic) := by
  cases topic <;> rfl

/-- Who shares a topic that is published or subscribed to has the same base. -/
theorem base_eq_of_topic_eq {a b : Station} {topic : Topic} {kind : TopicKind}
    (h : a.topics.ofTopic topic = b.topics.topic kind) : a.topics.base = b.topics.base := by
  rw [ofTopic_eq] at h
  obtain ⟨-, hid, hroot⟩ := topic_eq _ _ _ _ h
  have hbase : a.topics.baseTopic = b.topics.baseTopic := by cases topic <;> exact hroot
  rw [Topics.base, Topics.base, hbase]
  exact congrArg _ hid

end Station

/-- No two stations have a base in common. -/
def Apart {ι : Type} (stations : ι → Station) : Prop :=
  ∀ i j, i ≠ j → (stations i).topics.base ≠ (stations j).topics.base

namespace Fleet

variable {ι : Type} {stations : ι → Station}

/-- The text that is retained at one of a station's topics. -/
def textAt (self : Fleet ι) (topics : Topics) (topic : Topic) : Option String :=
  (self.retained (topics.ofTopic topic)).bind Payload.text?

/-- The texts at all of them. -/
def retainedAt (self : Fleet ι) (topics : Topics) : Retained :=
  { availability := self.textAt topics .availability
    state := self.textAt topics .state
    battery := self.textAt topics .battery }

/-- One daemon of a fleet, and what is retained of it. -/
def bridge (self : Fleet ι) (stations : ι → Station) (i : ι) : Bridge :=
  let member := self.members i
  { worker := member.worker, retained := self.retainedAt (stations i).topics
    messages := member.messages, served := member.served, calls := member.calls }

theorem textAt_retain {self : Fleet ι} {topics : Topics} {own : Topic} {topic : String} {payload : Payload}
    (h : topics.ofTopic own ≠ topic) :
    (self.retain topic payload).textAt topics own = self.textAt topics own := by
  simp only [textAt, retain, Function.update_of_ne h]

/-- What is retained elsewhere does not matter. -/
theorem retainedAt_retain {self : Fleet ι} {topics : Topics} {topic : String} {payload : Payload}
    (h : ∀ own, topics.ofTopic own ≠ topic) :
    (self.retain topic payload).retainedAt topics = self.retainedAt topics := by
  rw [retainedAt, textAt_retain (h _), textAt_retain (h _), textAt_retain (h _), retainedAt]

theorem ofTopic_ne {station : Station} {topic topic' : Topic} (h : topic ≠ topic') :
    station.topics.ofTopic topic ≠ station.topics.ofTopic topic' := by
  rw [Station.ofTopic_eq, Station.ofTopic_eq]
  refine station.topic_ne station _ _ fun heq => h ?_
  cases topic <;> cases topic' <;> first | rfl | cases heq

/-- What a daemon publishes is retained at its own topics. -/
theorem retainedAt_publish (self : Fleet ι) (station : Station) (topic : Topic) (payload : String) :
    (self.retain (station.topics.ofTopic topic) (.text payload)).retainedAt station.topics =
      (self.retainedAt station.topics).publish ⟨topic, payload⟩ := by
  have hself : (self.retain (station.topics.ofTopic topic) (.text payload)).textAt station.topics topic =
      some payload := by
    simp only [textAt, retain, Function.update_self]
    rfl
  have hother : ∀ own, own ≠ topic → (self.retain (station.topics.ofTopic topic)
      (.text payload)).textAt station.topics own = self.textAt station.topics own :=
    fun own hne => textAt_retain (ofTopic_ne hne)
  cases topic with
  | availability =>
      rw [retainedAt, hself, hother .state (by decide), hother .battery (by decide)]
      rfl
  | state =>
      rw [retainedAt, hself, hother .availability (by decide), hother .battery (by decide)]
      rfl
  | battery =>
      rw [retainedAt, hself, hother .availability (by decide), hother .state (by decide)]
      rfl

/-- Announcing changes nothing that a daemon publishes itself. -/
theorem retainedAt_announce (self : Fleet ι) (a b : Station) :
    (self.announce a).retainedAt b.topics = self.retainedAt b.topics := by
  have hlock : ∀ own, b.topics.ofTopic own ≠ a.topics.lockDiscovery := fun own => by
    rw [Station.ofTopic_eq]
    exact b.topic_ne a _ .lockDiscovery (by cases own <;> decide)
  have hbattery : ∀ own, b.topics.ofTopic own ≠ a.topics.batteryDiscovery := fun own => by
    rw [Station.ofTopic_eq]
    exact b.topic_ne a _ .batteryDiscovery (by cases own <;> decide)
  rw [announce, retainedAt_retain hbattery, retainedAt_retain hlock]

theorem bridge_retain_of_ne {self : Fleet ι} {i : ι} {topic : String} {payload : Payload}
    (h : ∀ own, (stations i).topics.ofTopic own ≠ topic) :
    (self.retain topic payload).bridge stations i = self.bridge stations i := by
  simp only [bridge, retainedAt_retain h]
  rfl

theorem bridge_retain_own (self : Fleet ι) (i : ι) (topic : Topic) (payload : String) :
    (self.retain ((stations i).topics.ofTopic topic) (.text payload)).bridge stations i =
      { self.bridge stations i with
        retained := (self.bridge stations i).retained.publish ⟨topic, payload⟩ } := by
  simp only [bridge, retainedAt_publish]
  rfl

theorem bridge_announce (self : Fleet ι) (a : Station) (i : ι) :
    (self.announce a).bridge stations i = self.bridge stations i := by
  simp only [bridge, retainedAt_announce]
  rfl

variable [DecidableEq ι]

/-- What an action is to one of them. -/
def seen (stations : ι → Station) (i : ι) (self : Fleet ι) : FleetAction ι → List BridgeAction
  | .worker j event => if j = i then [.worker event] else []
  | .receive j => if j = i then [.receive] else []
  | .publish j => if j = i then [.publish] else []
  | .reconnect j lastWill => if j = i then [.reconnect lastWill] else []
  | .client topic payload =>
      if (self.members i).subscribed ∧ topic = (stations i).topics.command then
        (parseCommand payload).toList.map .command
      else []

theorem bridge_setMember_of_ne {self : Fleet ι} {i j : ι} (hne : j ≠ i) (member : Member) :
    (self.setMember j member).bridge stations i = self.bridge stations i := by
  simp only [bridge, setMember, Function.update_of_ne hne.symm]
  rfl

theorem bridge_setMember (self : Fleet ι) (i : ι) (member : Member) :
    (self.setMember i member).bridge stations i =
      { worker := member.worker, retained := self.retainedAt (stations i).topics
        messages := member.messages, served := member.served, calls := member.calls } := by
  simp only [bridge, setMember, Function.update_self]
  rfl

/-- **One step.** What an action is to a daemon, it does to its bridge. -/
theorem exec_seen (hapart : Apart stations) (i : ι) (self : Fleet ι) (action : FleetAction ι)
    (self' : Fleet ι) (hstep : self.step stations action = some self') :
    Runs.exec (Bridge.step (stations i).offlineAfter) (self.bridge stations i) (seen stations i self action) =
      some (self'.bridge stations i) := by
  have hforeign : ∀ {j}, j ≠ i → ∀ own topic,
      (stations i).topics.ofTopic own ≠ (stations j).topics.ofTopic topic :=
    fun {j} hne own topic heq => hapart i j (Ne.symm hne)
      (Station.base_eq_of_topic_eq (heq.trans ((stations j).ofTopic_eq topic)))
  cases action with
  | worker j event =>
      obtain ⟨worker, hworker, rfl⟩ := Option.map_eq_some_iff.1 hstep
      rw [seen]
      split_ifs with hj
      · subst hj
        rw [Runs.exec_singleton, bridge_setMember]
        exact Option.map_eq_some_iff.2 ⟨worker, hworker, rfl⟩
      · rw [bridge_setMember_of_ne hj]
        rfl
  | receive j =>
      simp only [step] at hstep
      split at hstep
      · cases hstep
      · next message messages hmessages =>
          obtain ⟨worker, hworker, rfl⟩ := Option.map_eq_some_iff.1 hstep
          rw [seen]
          split_ifs with hj
          · subst hj
            rw [Runs.exec_singleton, bridge_setMember]
            simp only [Bridge.step, bridge, hmessages, hworker]
            rfl
          · rw [bridge_setMember_of_ne hj]
            rfl
  | publish j =>
      obtain ⟨⟨p, worker⟩, hpublished, rfl⟩ := Option.map_eq_some_iff.1 hstep
      rw [seen]
      split_ifs with hj
      · subst hj
        rw [Runs.exec_singleton]
        rw [bridge_retain_own, bridge_setMember]
        simp only [Bridge.step, bridge, hpublished]
        rfl
      · rw [bridge_retain_of_ne (fun own => hforeign hj own _), bridge_setMember_of_ne hj]
        rfl
  | reconnect j lastWill =>
      by_cases hj : j = i
      · subst hj
        rw [seen, if_pos rfl, Runs.exec_singleton]
        cases lastWill with
        | false =>
            simp only [step, Bool.false_eq_true, if_false, Option.some.injEq] at hstep
            rw [← hstep, bridge_setMember, retainedAt_announce]
            rfl
        | true =>
            have hwill := self.retainedAt_publish (stations j) .availability PAYLOAD_NOT_AVAILABLE
            change retainedAt (self.retain (stations j).topics.availability _) _ = _ at hwill
            simp only [step, if_true, Option.some.injEq] at hstep
            rw [← hstep, bridge_setMember, retainedAt_announce, hwill]
            rfl
      · rw [seen, if_neg hj]
        cases lastWill with
        | false =>
            simp only [step, Bool.false_eq_true, if_false, Option.some.injEq] at hstep
            rw [← hstep, bridge_setMember_of_ne hj, bridge_announce]
            rfl
        | true =>
            simp only [step, if_true, Option.some.injEq] at hstep
            have hwill : (self.retain (stations j).topics.availability
                (.text PAYLOAD_NOT_AVAILABLE)).bridge stations i = self.bridge stations i :=
              bridge_retain_of_ne fun own => hforeign hj own .availability
            rw [← hstep, bridge_setMember_of_ne hj, bridge_announce, hwill]
            rfl
  | client topic payload =>
      cases hstep
      rw [seen]
      simp only [bridge, Member.hear]
      split_ifs with hheard
      · cases parseCommand payload <;> rfl
      · rfl

/-- **Daemons that share no topic do not get in each other's way.** In every run of a fleet, each daemon goes
    through a run of its own with the broker for itself: of its own steps, and of the commands that others
    publish on its command topic. So what is retained at its topics follows its own tracker, as far as that
    reports a state: nothing is published that takes back what was retained before. -/
theorem daemons_are_apart (hapart : Apart stations) (retained : String → Option Payload)
    (actions : List (FleetAction ι)) (fleet : Fleet ι)
    (hrun : Runs.exec (step stations) (init retained) actions = some fleet) (i : ι) :
    Runs.exec (Bridge.step (stations i).offlineAfter)
        (.init ((init retained : Fleet ι).retainedAt (stations i).topics))
        (Runs.projected (step stations) (seen stations i) (init retained) actions) =
      some (fleet.bridge stations i) ∧
    ((fleet.members i).worker.activity = .waiting →
      ∀ state, (fleet.members i).worker.tracker.reportedState = some state →
        fleet.textAt (stations i).topics .state = some state.payload) := by
  have hown := Runs.exec_projected (fun self action self' => exec_seen hapart i self action self') hrun
  refine ⟨hown, fun hwaiting state hstate => ?_⟩
  obtain ⟨htracker, hfollows, -⟩ :=
    Runs.exec_invariant (fun b action b' h => Bridge.Inv.step b action b' h) hown (Bridge.Inv.init _)
  have hretained : (fleet.bridge stations i).retainedAfter = (fleet.bridge stations i).retained :=
    Bridge.retainedAfter_eq (by rw [show Bridge.worker _ = (fleet.members i).worker from rfl, hwaiting]; rfl)
  rw [hretained] at hfollows
  exact hfollows.state state (htracker ▸ hstate)

/-- Two locks at one broker. -/
def twoStations (second : Bool) : Station :=
  ⟨"homeassistant", "ttlock", if second then "AA:BB:CC:DD:EE:02" else "AA:BB:CC:DD:EE:01", .fromSecs 60⟩

/-- The first of them is to be locked while the second reconnects. -/
def lockTheFirst : List (FleetAction Bool) :=
  [.reconnect false false, .reconnect true false, .worker false .scanStarted, .receive false, .publish false,
    .client "ttlock/ttlock_aa_bb_cc_dd_ee_01/set" " lock ", .receive false, .reconnect true true,
    .publish false, .worker false (.actuated false (.fromSecs 5) 5000)]

theorem apart_twoStations : Apart twoStations := by
  intro i j hij
  revert i j
  decide

theorem daemons_are_apart_two :
    ∃ fleet, Runs.exec (step twoStations) (init fun _ => none) lockTheFirst = some fleet ∧
      fleet.textAt (twoStations false).topics .state = some "LOCKING" ∧
      ((fleet.members false).worker.activity = .waiting →
        ∀ state, (fleet.members false).worker.tracker.reportedState = some state →
          fleet.textAt (twoStations false).topics .state = some state.payload) := by
  have hstate : (Runs.exec (step twoStations) (init fun _ => none) lockTheFirst).map
      (fun fleet => fleet.textAt (twoStations false).topics .state) = some (some "LOCKING") := by
    decide +kernel
  obtain ⟨fleet, hrun, htext⟩ := Option.map_eq_some_iff.1 hstate
  exact ⟨fleet, hrun, htext, (daemons_are_apart apart_twoStations _ _ fleet hrun false).2⟩

/-! ## Discovery documents -/

/-- No two stations have the same node id. -/
def OwnNodes (stations : ι → Station) : Prop :=
  ∀ i j, i ≠ j → (stations i).topics.nodeId ≠ (stations j).topics.nodeId

omit [DecidableEq ι] in
theorem OwnNodes.apart (h : OwnNodes stations) : Apart stations := by
  intro i j hij hbase
  refine h i j hij ?_
  rw [← String.toList_inj, Topics.base, Topics.base, String.toList_append, String.toList_append,
    String.toList_append, String.toList_append, List.append_assoc, List.append_assoc] at hbase
  exact String.toList_inj.1
    ((append_separator_inj (separator_notMem_nodeId _) (separator_notMem_nodeId _)).1 hbase).2

/-- A daemon that has announced itself has its document at the broker. -/
def Documented (stations : ι → Station) (i : ι) (fleet : Fleet ι) : Prop :=
  (fleet.members i).subscribed = true → fleet.retained (stations i).topics.lockDiscovery =
    some (.document (lockDiscoveryPayload (stations i).topics (stations i).address))

theorem Documented.setMember {i j : ι} {self : Fleet ι} (h : Documented stations i self) {member : Member}
    (hmember : j = i → member.subscribed = (self.members i).subscribed) :
    Documented stations i (self.setMember j member) := by
  intro hsubscribed
  refine h ?_
  by_cases hj : i = j
  · subst hj
    rw [← hmember rfl]
    simpa only [Fleet.setMember, Function.update_self] using hsubscribed
  · simpa only [Fleet.setMember, Function.update_of_ne hj] using hsubscribed

omit [DecidableEq ι] in
theorem Documented.retain {i : ι} {self : Fleet ι} (h : Documented stations i self) {topic : String}
    (hne : (stations i).topics.lockDiscovery ≠ topic) (payload : Payload) :
    Documented stations i (self.retain topic payload) := by
  intro hsubscribed
  simp only [Fleet.retain, Function.update_of_ne hne]
  exact h hsubscribed

omit [DecidableEq ι] in
theorem Documented.announce {i j : ι} {self : Fleet ι} (h : Documented stations i self)
    (hnode : (stations i).topics.nodeId ≠ (stations j).topics.nodeId) :
    Documented stations i (self.announce (stations j)) := by
  have hlock : (stations i).topics.lockDiscovery ≠ (stations j).topics.lockDiscovery :=
    fun heq => hnode (Station.topic_eq _ _ .lockDiscovery .lockDiscovery heq).2.1
  have hbattery : (stations i).topics.lockDiscovery ≠ (stations j).topics.batteryDiscovery :=
    (stations i).topic_ne (stations j) .lockDiscovery .batteryDiscovery (by decide)
  exact (h.retain hlock _).retain hbattery _

theorem lockDiscovery_ne_ofTopic (a b : Station) (topic : Topic) :
    a.topics.lockDiscovery ≠ b.topics.ofTopic topic := by
  rw [Station.ofTopic_eq]
  exact a.topic_ne b .lockDiscovery _ (by cases topic <;> decide)

theorem Documented.step (hnodes : OwnNodes stations) {i : ι} {self self' : Fleet ι}
    (h : Documented stations i self) {action : FleetAction ι}
    (hstep : self.step stations action = some self') : Documented stations i self' := by
  cases action with
  | worker j event =>
      obtain ⟨worker, -, rfl⟩ := Option.map_eq_some_iff.1 hstep
      exact h.setMember fun hj => hj ▸ rfl
  | receive j =>
      simp only [Fleet.step] at hstep
      split at hstep
      · cases hstep
      · obtain ⟨worker, -, rfl⟩ := Option.map_eq_some_iff.1 hstep
        exact h.setMember fun hj => hj ▸ rfl
  | publish j =>
      obtain ⟨⟨p, worker⟩, -, rfl⟩ := Option.map_eq_some_iff.1 hstep
      exact Documented.retain (h.setMember fun hj => hj ▸ rfl) (lockDiscovery_ne_ofTopic _ _ _) _
  | reconnect j lastWill =>
      have hwilled : Documented stations i (if lastWill then
          self.retain (stations j).topics.availability (.text PAYLOAD_NOT_AVAILABLE) else self) := by
        cases lastWill with
        | false => exact h
        | true => exact h.retain (lockDiscovery_ne_ofTopic _ _ .availability) _
      obtain rfl := Option.some.inj hstep
      by_cases hj : j = i
      · subst hj
        have hne : (stations j).topics.lockDiscovery ≠ (stations j).topics.batteryDiscovery :=
          (stations j).topic_ne (stations j) .lockDiscovery .batteryDiscovery (by decide)
        intro _
        simp only [Fleet.setMember, Fleet.announce, Fleet.retain, Function.update_of_ne hne,
          Function.update_self]
      · exact Documented.setMember (hwilled.announce (hnodes i j (Ne.symm hj))) fun heq => absurd heq hj
  | client topic payload =>
      obtain rfl := Option.some.inj hstep
      intro hsubscribed
      refine h ?_
      rw [← hsubscribed]
      show _ = ((self.members i).hear _ _ _).subscribed
      unfold Member.hear
      split_ifs
      · cases parseCommand payload <;> rfl
      · rfl

/-- The text that a document has under a key. -/
def textOf (payload : Option Payload) (key : String) : Option String :=
  match payload with
  | some (.document value) => match value.get? key with
      | some (.string text) => some text
      | _ => none
  | _ => none

/-- The key of the payload that asks for an actuation. -/
def payloadKey : Actuation → String
  | .lock => "payload_lock"
  | .unlock => "payload_unlock"

/-- The key of the payload that stands for a state. -/
def stateKey : ReportedState → String
  | .locked => "state_locked"
  | .unlocked => "state_unlocked"
  | .locking => "state_locking"
  | .unlocking => "state_unlocking"

omit [DecidableEq ι] in
/-- Nobody else hears what is published on a daemon's command topic. -/
theorem hear_command (hapart : Apart stations) {i j : ι} (hne : j ≠ i) (member : Member) (payload : String) :
    member.hear (stations j).topics (stations i).topics.command payload = member := by
  have htopic : (stations i).topics.command ≠ (stations j).topics.command := by
    intro heq
    obtain ⟨-, hid, hbase⟩ := Station.topic_eq _ _ .command .command heq
    refine hapart i j (Ne.symm hne) ?_
    rw [Topics.base, Topics.base]
    exact congrArg₂ (fun base nodeId => base ++ "/" ++ nodeId) hbase hid
  rw [Member.hear, if_neg fun h => htopic h.2]

/-- **The discovery document says how to talk to the daemon.** If no two daemons have the same node id: once a
    daemon has announced itself, the document that is retained for it says where to publish what for each
    actuation, and that reaches this daemon and no other. It says where which states and which availability
    are to be read, too. While the daemon has nothing left to publish, what is retained there is what the
    document says for the state that its tracker reports, if it reports one, and for the availability, once a
    `Republish` was served and unless another one is queued. -/
theorem documents_are_honest (hnodes : OwnNodes stations) (retained : String → Option Payload)
    (actions : List (FleetAction ι)) (fleet : Fleet ι)
    (hrun : Runs.exec (step stations) (init retained) actions = some fleet) (i : ι)
    (hsubscribed : (fleet.members i).subscribed = true) :
    let member := fleet.members i
    let document := textOf (fleet.retained (stations i).topics.lockDiscovery)
    (∀ action, ∃ topic payload command fleet', document "command_topic" = some topic ∧
      document (payloadKey action) = some payload ∧ command.toActuation = action ∧
      fleet.step stations (.client topic payload) = some fleet' ∧
      fleet'.members i = { member with messages := member.messages ++ [.command command] } ∧
      ∀ j, j ≠ i → fleet'.members j = fleet.members j) ∧
    (member.worker.activity = .waiting →
      (∀ state, member.worker.tracker.reportedState = some state → ∃ topic,
        document "state_topic" = some topic ∧
        (fleet.retained topic).bind Payload.text? = document (stateKey state)) ∧
      (member.served = true → .republish ∉ member.messages → ∃ topic,
        document "availability_topic" = some topic ∧
        ((fleet.retained topic).bind Payload.text? = document "payload_available" ↔
          member.worker.tracker.available = true))) := by
  intro member document
  have hdocument : document =
      textOf (some (.document (lockDiscoveryPayload (stations i).topics (stations i).address))) := by
    have hdocumented : Documented stations i fleet :=
      Runs.exec_invariant (fun _ _ _ h hstep => h.step hnodes hstep) hrun fun h => by cases h
    exact congrArg textOf (hdocumented hsubscribed)
  have hown := Runs.exec_projected (fun self action self' => exec_seen hnodes.apart i self action self') hrun
  obtain ⟨htracker, hfollows, havailable⟩ :=
    Runs.exec_invariant (fun b action b' h => Bridge.Inv.step b action b' h) hown (Bridge.Inv.init _)
  rw [hdocument]
  constructor
  · intro action
    obtain ⟨command, hcommand, hpayload⟩ : ∃ command : Command, command.toActuation = action ∧
        ∃ payload, textOf (some (.document (lockDiscoveryPayload (stations i).topics (stations i).address)))
          (payloadKey action) = some payload ∧ parseCommand payload = some command := by
      cases action with
      | lock => exact ⟨.lock, rfl, PAYLOAD_LOCK, rfl, by decide⟩
      | unlock => exact ⟨.unlock, rfl, PAYLOAD_UNLOCK, rfl, by decide⟩
    obtain ⟨payload, hpayload, hparse⟩ := hpayload
    refine
      ⟨(stations i).topics.command, payload, command, _, rfl, hpayload, hcommand, rfl, ?_, fun j hne => ?_⟩
    · show (fleet.members i).hear _ _ _ = _
      rw [Member.hear, if_pos ⟨hsubscribed, rfl⟩, hparse]
    · exact hear_command hnodes.apart hne _ payload
  · intro hwaiting
    have hretained : (fleet.bridge stations i).retainedAfter = (fleet.bridge stations i).retained :=
      Bridge.retainedAfter_eq (by rw [show Bridge.worker _ = member.worker from rfl, hwaiting]; rfl)
    rw [hretained] at hfollows havailable
    constructor
    · intro state hstate
      refine ⟨(stations i).topics.state, rfl, ?_⟩
      have hsame := hfollows.state state (htracker ▸ hstate)
      rw [show textOf _ (stateKey state) = some state.payload by cases state <;> rfl]
      exact hsame
    · intro hserved hqueue
      exact ⟨(stations i).topics.availability, rfl, havailable hserved hqueue⟩

theorem documents_are_honest_two :
    ∃ fleet, Runs.exec (step twoStations) (init fun _ => none) lockTheFirst = some fleet ∧
      ∃ topic,
        textOf (fleet.retained (twoStations true).topics.lockDiscovery) "command_topic" = some topic := by
  have hsubscribed : (Runs.exec (step twoStations) (init fun _ => none) lockTheFirst).map
      (fun fleet => (fleet.members true).subscribed) = some true := by
    decide +kernel
  obtain ⟨fleet, hrun, htrue⟩ := Option.map_eq_some_iff.1 hsubscribed
  have hnodes : OwnNodes twoStations := by
    intro i j hij
    revert i j
    decide
  obtain ⟨topic, -, -, -, htopic, -⟩ :=
    (documents_are_honest hnodes _ _ fleet hrun true htrue).1 .lock
  exact ⟨fleet, hrun, topic, htopic⟩

end Fleet

end TTLock
