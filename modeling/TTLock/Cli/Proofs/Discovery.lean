import Mathlib.Data.List.Forall2
import TTLock.Cli.Discovery
import TTLock.Core.Proofs.Text

set_option autoImplicit false

/-! # Which topics are whose -/

namespace TTLock

/-- The last level of a path tells what it is below. -/
theorem append_separator_inj {α : Type*} [DecidableEq α] {sep : α} {path path' level level' : List α}
    (hlevel : sep ∉ level) (hlevel' : sep ∉ level') :
    path ++ sep :: level = path' ++ sep :: level' ↔ path = path' ∧ level = level' := by
  refine ⟨fun h => ?_, fun ⟨hpath, hl⟩ => by rw [hpath, hl]⟩
  have htake : ∀ {l p : List α}, sep ∉ l → ((p ++ sep :: l).reverse.takeWhile (· ≠ sep)) = l.reverse := by
    intro l p hl
    rw [List.reverse_append, List.reverse_cons, List.append_assoc,
      List.takeWhile_append_of_pos fun a ha => by
        simpa using fun heq : a = sep => hl (List.mem_reverse.1 (heq ▸ ha))]
    simp
  have hl : level = level' := by
    rw [← List.reverse_inj, ← htake hlevel, ← htake hlevel', h]
  subst hl
  exact ⟨List.append_cancel_right h, rfl⟩

/-! ## Topics -/

/-- What topics there are. -/
inductive TopicKind where
  | lockDiscovery
  | batteryDiscovery
  | state
  | command
  | battery
  | availability
deriving DecidableEq, Repr

def Topics.topic (self : Topics) : TopicKind → String
  | .lockDiscovery => self.lockDiscovery
  | .batteryDiscovery => self.batteryDiscovery
  | .state => self.state
  | .command => self.command
  | .battery => self.battery
  | .availability => self.availability

/-- The last level of a topic. -/
def TopicKind.last : TopicKind → List Char
  | .lockDiscovery | .batteryDiscovery => "config".toList
  | .state => "state".toList
  | .command => "set".toList
  | .battery => "battery".toList
  | .availability => "availability".toList

/-- The level above it. -/
def TopicKind.node (nodeId : String) : TopicKind → List Char
  | .batteryDiscovery => nodeId.toList ++ "_battery".toList
  | .lockDiscovery | .state | .command | .battery | .availability => nodeId.toList

/-- What is above that. -/
def Topics.above (self : Topics) : TopicKind → List Char
  | .lockDiscovery => self.discoveryPrefix.toList ++ '/' :: "lock".toList
  | .batteryDiscovery => self.discoveryPrefix.toList ++ '/' :: "sensor".toList
  | .state | .command | .battery | .availability => self.baseTopic.toList

theorem Topics.toList_topic (self : Topics) (kind : TopicKind) :
    (self.topic kind).toList =
      (self.above kind ++ '/' :: kind.node self.nodeId) ++ '/' :: kind.last := by
  cases kind <;>
    simp only [Topics.topic, Topics.lockDiscovery, Topics.batteryDiscovery, Topics.state, Topics.command,
      Topics.battery, Topics.availability, Topics.base, Topics.above, TopicKind.node, String.toList_append,
      List.append_assoc, List.cons_append] <;>
    rfl

/-- What the first level of a topic depends on. -/
def Topics.root (self : Topics) : TopicKind → String
  | .lockDiscovery | .batteryDiscovery => self.discoveryPrefix
  | .state | .command | .battery | .availability => self.baseTopic

theorem TopicKind.separator_notMem_last (kind : TopicKind) : '/' ∉ kind.last := by
  cases kind <;> decide

/-- A node id is one level. -/
theorem separator_notMem_nodeId (address : String) : '/' ∉ (nodeId address).toList := by
  intro h
  rw [nodeId, String.toList_append, List.mem_append] at h
  rcases h with h | h
  · exact absurd h (by decide)
  · rw [String.toList_ofList] at h
    obtain ⟨c, -, hc⟩ := List.mem_map.1 h
    split at hc
    · next halnum => exact toLower_ne halnum rfl hc
    · exact absurd hc (by decide)

theorem TopicKind.separator_notMem_node (kind : TopicKind) (address : String) :
    '/' ∉ kind.node (nodeId address) := by
  have hid := separator_notMem_nodeId address
  cases kind with
  | batteryDiscovery => exact fun h => (List.mem_append.1 h).elim hid (by decide)
  | lockDiscovery | state | command | battery | availability => exact hid

theorem TopicKind.node_inj {kind : TopicKind} {nodeId nodeId' : String}
    (h : kind.node nodeId = kind.node nodeId') : nodeId = nodeId' := by
  cases kind with
  | batteryDiscovery => exact String.toList_inj.1 (List.append_cancel_right h)
  | lockDiscovery | state | command | battery | availability => exact String.toList_inj.1 h

theorem Topics.root_of_above {self other : Topics} {kind : TopicKind}
    (h : self.above kind = other.above kind) : self.root kind = other.root kind := by
  cases kind with
  | lockDiscovery | batteryDiscovery => exact String.toList_inj.1 (List.append_cancel_right h)
  | state | command | battery | availability => exact String.toList_inj.1 h

variable {discoveryPrefix discoveryPrefix' baseTopic baseTopic' address address' : String}
  {kind kind' : TopicKind}

/-- **Topics are the same only if they are for the same.** Topics of two daemons coincide exactly if they are
    of one kind, the node ids are the same, and so is what the topics of that kind begin with. -/
theorem topic_eq_iff :
    (Topics.new discoveryPrefix baseTopic address).topic kind =
        (Topics.new discoveryPrefix' baseTopic' address').topic kind' ↔
      kind = kind' ∧ nodeId address = nodeId address' ∧
        (Topics.new discoveryPrefix baseTopic address).root kind =
          (Topics.new discoveryPrefix' baseTopic' address').root kind := by
  rw [← String.toList_inj, Topics.toList_topic, Topics.toList_topic]
  constructor
  · intro h
    obtain ⟨h, hlast⟩ := (append_separator_inj kind.separator_notMem_last kind'.separator_notMem_last).1 h
    obtain ⟨habove, hnode⟩ := (append_separator_inj (kind.separator_notMem_node address)
      (kind'.separator_notMem_node address')).1 h
    obtain rfl : kind = kind' := by
      by_contra hne
      have hdiscovery : (kind = .lockDiscovery ∧ kind' = .batteryDiscovery) ∨
          (kind = .batteryDiscovery ∧ kind' = .lockDiscovery) := by
        revert hlast hne
        cases kind <;> cases kind' <;> decide
      rcases hdiscovery with ⟨rfl, rfl⟩ | ⟨rfl, rfl⟩
      · exact absurd ((append_separator_inj (by decide) (by decide)).1 habove).2 (by decide)
      · exact absurd ((append_separator_inj (by decide) (by decide)).1 habove).2 (by decide)
    exact ⟨rfl, TopicKind.node_inj hnode, Topics.root_of_above habove⟩
  · rintro ⟨rfl, hid, hroot⟩
    have hnode : kind.node (Topics.new discoveryPrefix baseTopic address).nodeId =
        kind.node (Topics.new discoveryPrefix' baseTopic' address').nodeId := congrArg kind.node hid
    rw [hnode]
    cases kind <;> simp only [Topics.root, Topics.above] at hroot ⊢ <;> rw [hroot]

/-- What an address keeps in its node id. -/
def sanitize (c : Char) : Char := if c.isAlphanum then c.toLower else '_'

theorem nodeId_eq_iff : nodeId address = nodeId address' ↔
    address.toList.map sanitize = address'.toList.map sanitize := by
  rw [nodeId, nodeId, ← String.toList_inj, String.toList_append, String.toList_append,
    List.append_cancel_left_eq, String.toList_inj]
  exact ⟨fun h => String.ofList_injective h, fun h => congrArg String.ofList h⟩

/-- Whether a node id has the same for two characters: a letter is as good in either case, and whatever is
    neither letter nor digit is as good as anything else that is neither. -/
def SameInNodeId (c c' : Char) : Prop :=
  c.isAlphanum = c'.isAlphanum ∧ (c.isAlphanum = true → c.toLower = c'.toLower)
deriving Decidable

theorem sanitize_eq_iff {c c' : Char} : sanitize c = sanitize c' ↔ SameInNodeId c c' := by
  rw [sanitize, sanitize, SameInNodeId]
  split <;> rename_i hc <;> split <;> rename_i hc'
  · exact ⟨fun h => ⟨hc.trans hc'.symm, fun _ => h⟩, fun h => h.2 hc⟩
  · exact iff_of_false (toLower_ne hc rfl) fun h => hc' (h.1 ▸ hc)
  · exact iff_of_false (toLower_ne hc' rfl).symm fun h => hc (h.1 ▸ hc')
  · rw [Bool.not_eq_true] at hc hc'
    exact iff_of_true rfl ⟨hc.trans hc'.symm, fun h => by rw [hc] at h; cases h⟩

theorem nodeId_eq_iff_forall₂ :
    nodeId address = nodeId address' ↔ List.Forall₂ SameInNodeId address.toList address'.toList := by
  rw [nodeId_eq_iff, ← List.forall₂_eq_eq_eq, List.forall₂_map_left_iff, List.forall₂_map_right_iff]
  simp only [sanitize_eq_iff]

/-- The characters of a Bluetooth address. -/
def IsAddress (address : String) : Prop := (address.toList.all fun c => c.isAlphanum || c == ':') = true
deriving Decidable

theorem IsAddress.forall (h : IsAddress address) : ∀ c ∈ address.toList, c.isAlphanum = true ∨ c = ':' := by
  simpa [IsAddress] using h

theorem sameInNodeId_iff_toLower {c c' : Char} (h : c.isAlphanum = true ∨ c = ':')
    (h' : c'.isAlphanum = true ∨ c' = ':') : SameInNodeId c c' ↔ c.toLower = c'.toLower := by
  rw [← sanitize_eq_iff]
  rcases h with h | rfl <;> rcases h' with h' | rfl
  · rw [sanitize, sanitize, if_pos h, if_pos h']
  · rw [sanitize, if_pos h]
    exact iff_of_false (toLower_ne (d := sanitize ':') h rfl) (toLower_ne (d := ':'.toLower) h rfl)
  · rw [sanitize, sanitize, if_pos h']
    exact iff_of_false (toLower_ne (d := '_') h' rfl).symm (toLower_ne (d := ':'.toLower) h' rfl).symm
  · exact iff_of_true rfl rfl

theorem forall₂_sameInNodeId_iff_toLower {cs cs' : List Char} (h : ∀ c ∈ cs, c.isAlphanum = true ∨ c = ':')
    (h' : ∀ c ∈ cs', c.isAlphanum = true ∨ c = ':') :
    List.Forall₂ SameInNodeId cs cs' ↔ cs.map Char.toLower = cs'.map Char.toLower := by
  induction cs generalizing cs' with
  | nil => cases cs' <;> simp
  | cons c cs ih =>
      cases cs' with
      | nil => simp
      | cons c' cs' =>
          obtain ⟨hc, hcs⟩ := List.forall_mem_cons.1 h
          obtain ⟨hc', hcs'⟩ := List.forall_mem_cons.1 h'
          rw [List.forall₂_cons, List.map_cons, List.map_cons, List.cons.injEq,
            sameInNodeId_iff_toLower hc hc', ih hcs hcs']

/-- Addresses have the same node id exactly if `select_lock` takes them for the same. -/
theorem nodeId_eq_iff_eqIgnoreAsciiCase (h : IsAddress address) (h' : IsAddress address') :
    nodeId address = nodeId address' ↔ eqIgnoreAsciiCase address address' = true := by
  rw [nodeId_eq_iff_forall₂, forall₂_sameInNodeId_iff_toLower h.forall h'.forall, eqIgnoreAsciiCase,
    beq_iff_eq, toAsciiLowercase, toAsciiLowercase]

/-- **Only daemons for one lock share topics.** Whatever two daemons are told to begin their topics with and
    whatever their locks are called, topics of theirs coincide exactly if they are of one kind, the node ids
    are the same, and the topics of that kind begin with the same. Names have one node id exactly if they agree
    character by character, where a letter is as good in either case and anything that is neither letter nor
    digit is as good as anything else that is neither. Names that are addresses have one exactly if they are
    one address but for the case of its letters. -/
theorem topics_coincide_iff :
    ((Topics.new discoveryPrefix baseTopic address).topic kind =
        (Topics.new discoveryPrefix' baseTopic' address').topic kind' ↔
      kind = kind' ∧ nodeId address = nodeId address' ∧
        (Topics.new discoveryPrefix baseTopic address).root kind =
          (Topics.new discoveryPrefix' baseTopic' address').root kind) ∧
      (nodeId address = nodeId address' ↔ List.Forall₂ SameInNodeId address.toList address'.toList) ∧
      (IsAddress address → IsAddress address' →
        (nodeId address = nodeId address' ↔ eqIgnoreAsciiCase address address' = true)) :=
  ⟨topic_eq_iff, nodeId_eq_iff_forall₂, nodeId_eq_iff_eqIgnoreAsciiCase⟩

theorem topics_coincide_slashes :
    (Topics.new "homeassistant" "locks/front//" "AA:BB").topic .state =
      (Topics.new "" "locks/front" "aa:bb").topic .state := by
  have h :=
    @topics_coincide_iff "homeassistant" "" "locks/front//" "locks/front" "AA:BB" "aa:bb" .state .state
  exact h.1.2 ⟨rfl, (h.2.2 (by decide) (by decide)).2 (by decide), by decide⟩

end TTLock
