import TTLock.Cli.Proofs.LockLink

set_option autoImplicit false

/-! # What an actuation may do to a lock

Whatever the link does, the lock moves its bolt only for the right version and the right sum, and an
actuation that ends well has moved it, and one that is rejected has not. What is invariant is what the
lock may have said so far (`Said`) and where the exchange is (`Talk`); `Exchanging.answer` lists what can
be made of any frame that arrives. -/

namespace TTLock

/-- A frame that is about none of these commands, as far as the key can tell. -/
def Foreign (C : Cipher) (aesKey : AesKey) (commands : List UInt8) (raw : List UInt8) : Prop :=
  ∀ plain, decryptResponse C raw aesKey = .ok plain → plain.commandType ∉ commands

namespace PairedLock

/-- When `issued` challenges are drawn, this one and this key make the sum the lock comes to: that of the
    last challenge and its own key. -/
def Opens (lock : PairedLock) (unlockKey : UnlockKey) (number issued : Nat) : Prop :=
  lock.challenge number + unlockKey.get = lock.challenge (issued - 1) + lock.unlockKey.get

/-- Of the challenges drawn from number `first` on, one does with this key. -/
def Meets (lock : PairedLock) (unlockKey : UnlockKey) (first issued : Nat) : Prop :=
  ∃ i, first ≤ i ∧ i < issued ∧ lock.Opens unlockKey i issued

/-- One of them does not. -/
def Misses (lock : PairedLock) (unlockKey : UnlockKey) (first issued : Nat) : Prop :=
  ∃ i, first ≤ i ∧ i < issued ∧ ¬lock.Opens unlockKey i issued

/-- The challenges drawn are all the same, as they are if there is only one. -/
def Steady (lock : PairedLock) (first issued : Nat) : Prop :=
  ∀ i, first ≤ i → i < issued → lock.challenge i = lock.challenge (issued - 1)

/-- Then the sum is right iff the key is. -/
theorem Steady.opens_iff {lock : PairedLock} {first issued i : Nat} (h : lock.Steady first issued)
    (hi : first ≤ i) (hlt : i < issued) (unlockKey : UnlockKey) :
    lock.Opens unlockKey i issued ↔ unlockKey = lock.unlockKey := by
  rw [Opens, h i hi hlt, UInt32.add_right_inj]
  exact ⟨fun hget => by cases unlockKey; cases hkey : lock.unlockKey; simp_all, congrArg _⟩

end PairedLock

section

variable (C : Cipher) (lock : PairedLock) (action : Actuation) (unlockKey : UnlockKey)
  (version : LockVersion) (before : LockSession)

/-- The lock has moved its bolt so many times since, each time as asked and with good reason. A handshake
    has drawn a challenge each time it was heard. -/
structure Moved (moves : Nat) (session : LockSession) : Prop where
  performed : session.performed = before.performed ++ List.replicate moves action
  bolt : session.bolt = if moves = 0 then before.bolt else action.target
  drawn : before.issued ≤ session.issued ∧ session.issued ≤ before.issued + (CRC_RETRIES + 1)
  authorized : moves ≠ 0 → version = lock.version ∧ lock.Meets unlockKey before.issued session.issued

/-- What the lock may have said by now, if `read` is the challenge that was read. It can only have rejected
    an actuation that was sent, and that was made with this challenge. -/
inductive Said (session : LockSession) : (read : Option Nat) → List UInt8 → Prop where
  | challenge (read : Option Nat) (j : Nat) (hv : version = lock.version) (hfirst : before.issued ≤ j)
      (hissued : j < session.issued) :
      Said session read (lock.reply C COMM_CHECK_USER_TIME 1 (BigEndian.toBytes32 (lock.challenge j)))
  | turnedAway (read : Option Nat) (hv : version ≠ lock.version) :
      Said session read (lock.reply C COMM_CHECK_USER_TIME lock.rejection [])
  | acted (read : Option Nat) (h : session.performed ≠ before.performed) :
      Said session read (lock.reply C action.commandType 1 [])
  | rejected (i : Nat) (h : ¬lock.Opens unlockKey i session.issued) :
      Said session (some i) (lock.reply C action.commandType lock.rejection [])

/-- Where an exchange is that sends `frame`, once it was written `n` times. From when a challenge is read no
    other is drawn, and every actuation is made with it. -/
inductive Talk (n : Nat) (frame : List UInt8) (op : ActuateOp) (session : LockSession) :
    (read : Option Nat) → Prop where
  | handshake (hs : op.state = .awaitingCheckUserTime) (hb : op.request.build C = .ok frame)
      (hdrawn : session.issued ≤ before.issued + n)
      (hm : Moved lock action unlockKey version before 0 session) : Talk n frame op session none
  | actuating (i : Nat) (now : Int) (m : Nat) (hs : op.state = .awaitingActuate)
      (hv : version = lock.version) (hfirst : before.issued ≤ i) (hissued : i < session.issued)
      (hb : (op.actuation now (lock.challenge i)).build C = .ok frame) (hmn : m ≤ n)
      (hm : Moved lock action unlockKey version before m session)
      (hopens : m ≠ 0 → lock.Opens unlockKey i session.issued) : Talk n frame op session (some i)

/-- While `frame` is sent, with `n` times that it was written so far. -/
structure Exchanging (n : Nat) (frame : List UInt8) (op : ActuateOp) (link : LockLink) : Prop where
  sent : n ≤ CRC_RETRIES + 1
  made : op = { action.op lock.aesKey unlockKey version with state := op.state }
  script : ∀ now raw, Delivery.other now raw ∈ link.script →
    Foreign C lock.aesKey [COMM_CHECK_USER_TIME, action.commandType] raw
  talk : ∃ read, Talk C lock action unlockKey version before n frame op link.session read ∧
    ∀ raw ∈ link.replies, Said C lock action unlockKey version before link.session read raw

/-- What an error comes with. A rejection names its reason by the command that was rejected. -/
structure Failed {ε : Type} (core : TtlockError → ε) (e : ε) (session : LockSession) : Prop where
  moved : ∃ m ≤ CRC_RETRIES + 1, Moved lock action unlockKey version before m session
  handshake : ∀ r, e = core (.commandFailed COMM_CHECK_USER_TIME r) →
    r = lock.rejection ∧ version ≠ lock.version
  actuation : ∀ r, e = core (.commandFailed action.commandType r) →
    r = lock.rejection ∧ version = lock.version ∧ session.performed = before.performed ∧
      lock.Misses unlockKey before.issued session.issued

end

variable {C : Cipher} {lock : PairedLock} {action : Actuation} {unlockKey : UnlockKey}
  {version : LockVersion} {before : LockSession}

theorem Moved.none : Moved lock action unlockKey version before 0 before :=
  ⟨(List.append_nil _).symm, rfl, ⟨Nat.le_refl _, Nat.le_add_right _ _⟩, fun h => absurd rfl h⟩

theorem Said.mono {session session' : LockSession} {read : Option Nat} {raw : List UInt8}
    (h : Said C lock action unlockKey version before session read raw)
    (hissued : session.issued ≤ session'.issued) (hread : read ≠ none → session'.issued = session.issued)
    (hperformed : session.performed ≠ before.performed → session'.performed ≠ before.performed) :
    Said C lock action unlockKey version before session' read raw := by
  cases h with
  | challenge _ j hv hfirst hlt => exact .challenge read j hv hfirst (Nat.lt_of_lt_of_le hlt hissued)
  | turnedAway _ hv => exact .turnedAway read hv
  | acted _ h => exact .acted read (hperformed h)
  | rejected i h => exact .rejected i (hread (Option.some_ne_none i) ▸ h)

/-- Before a challenge is read, nothing is said that depends on which. -/
theorem Said.reads {session : LockSession} {raw : List UInt8}
    (h : Said C lock action unlockKey version before session none raw) (read : Option Nat) :
    Said C lock action unlockKey version before session read raw := by
  cases h with
  | challenge _ j hv hfirst hlt => exact .challenge read j hv hfirst hlt
  | turnedAway _ hv => exact .turnedAway read hv
  | acted _ h => exact .acted read h

theorem Talk.awaited {n : Nat} {frame : List UInt8} {op : ActuateOp} {session : LockSession}
    {read : Option Nat} (h : Talk C lock action unlockKey version before n frame op session read)
    (hcommand : op.commandType = action.commandType) :
    op.awaited = some COMM_CHECK_USER_TIME ∨ op.awaited = some action.commandType := by
  unfold ActuateOp.awaited
  cases h with
  | handshake hs => exact .inl (by rw [hs])
  | actuating i now m hs => exact .inr (by rw [hs, hcommand])

theorem Talk.moved {n : Nat} {frame : List UInt8} {op : ActuateOp} {session : LockSession}
    {read : Option Nat} (h : Talk C lock action unlockKey version before n frame op session read) :
    ∃ m ≤ n, Moved lock action unlockKey version before m session := by
  cases h with
  | handshake hs hb hdrawn hm => exact ⟨0, Nat.zero_le _, hm⟩
  | actuating i now m hs hv hfirst hissued hb hmn hm hopens => exact ⟨m, hmn, hm⟩

namespace Exchanging

variable {n : Nat} {frame : List UInt8} {op : ActuateOp} {link : LockLink}

theorem keys (h : Exchanging C lock action unlockKey version before n frame op link) :
    op.aesKey = lock.aesKey ∧ op.unlockKey = unlockKey ∧ op.version = version ∧
      op.commandType = action.commandType := by
  rw [h.made]
  exact ⟨rfl, rfl, rfl, rfl⟩

theorem moved (h : Exchanging C lock action unlockKey version before n frame op link) :
    ∃ m ≤ n, Moved lock action unlockKey version before m link.session := by
  obtain ⟨_, hphase, -⟩ := h.talk
  exact hphase.moved

/-- Everything that can be made of a frame that arrives. -/
inductive Answer (C : Cipher) (lock : PairedLock) (action : Actuation) (unlockKey : UnlockKey)
    (version : LockVersion) (before : LockSession) (op : ActuateOp) (session : LockSession) :
    Except TtlockError (Step Unit) × ActuateOp → Prop where
  | refused (e : TtlockError) (h : ∀ command r, e ≠ .commandFailed command r) :
      Answer C lock action unlockKey version before op session (.error e, op)
  | turnedAway (h : version ≠ lock.version) : Answer C lock action unlockKey version before op session
      (.error (.commandFailed COMM_CHECK_USER_TIME lock.rejection), op)
  | rejected (hv : version = lock.version) (hperformed : session.performed = before.performed)
      (h : lock.Misses unlockKey before.issued session.issued) :
      Answer C lock action unlockKey version before op session
        (.error (.commandFailed action.commandType lock.rejection), op)
  | challenged (frame : List UInt8) (now : Int) (j : Nat)
      (hb : (op.actuation now (lock.challenge j)).build C = .ok frame) (hv : version = lock.version)
      (hfirst : before.issued ≤ j) (hissued : j < session.issued)
      (hs : op.state = .awaitingCheckUserTime)
      (hm : Moved lock action unlockKey version before 0 session) :
      Answer C lock action unlockKey version before op session
        (.ok (.write frame), { op with state := .awaitingActuate })
  | acted (h : session.performed ≠ before.performed) :
      Answer C lock action unlockKey version before op session
        (.ok (.done ()), { op with state := .done })

theorem answer (hC : C.Lawful) (h : Exchanging C lock action unlockKey version before n frame op link)
    (now : Int) {raw : List UInt8} (hraw : raw ∈ link.replies ∨ Delivery.other now raw ∈ link.script) :
    Answer C lock action unlockKey version before op link.session
      ((ActuateOp.handleFrame C now raw).call op) := by
  obtain ⟨hkey, -, -, hcommand⟩ := h.keys
  obtain ⟨hne, -⟩ := action.commandType_ne
  obtain ⟨read, hphase, hsaid⟩ := h.talk
  rcases hraw with hraw | hraw
  · have hread : ∀ command response (data : List UInt8), data.length ≤ 237 →
        decryptResponse C (lock.reply C command response data) op.aesKey =
          .ok ⟨command, response, data⟩ := fun command response data hdata =>
      hkey ▸ lock.decryptResponse_reply hC command response data hdata
    cases hsaid raw hraw with
    | challenge _ j hv hfirst hissued =>
        have hd := hread COMM_CHECK_USER_TIME 1 (BigEndian.toBytes32 (lock.challenge j)) (by
          rw [BigEndian.length_toBytes32]; decide)
        cases hphase with
        | handshake hs _ _ hm =>
            obtain ⟨frame', hb, hc⟩ := ActuateOp.call_challenged hC hs now hd
            rw [hc]
            exact .challenged frame' now j hb hv hfirst hissued hs hm
        | actuating _ _ _ hs =>
            have ha : op.awaited = some action.commandType := by rw [ActuateOp.awaited, hs, hcommand]
            rw [ActuateOp.call_unexpected ha now hd hne.symm]
            exact .refused _ (fun _ _ he => by cases he)
    | turnedAway _ hv =>
        have hd := hread COMM_CHECK_USER_TIME lock.rejection [] (Nat.zero_le _)
        rcases hphase.awaited hcommand with ha | ha
        · rw [ActuateOp.call_rejected ha now hd rfl lock.rejection_ne]
          exact .turnedAway hv
        · rw [ActuateOp.call_unexpected ha now hd hne.symm]
          exact .refused _ (fun _ _ he => by cases he)
    | acted _ hperformed =>
        have hd := hread action.commandType 1 [] (Nat.zero_le _)
        cases hphase with
        | handshake hs =>
            have ha : op.awaited = some COMM_CHECK_USER_TIME := by rw [ActuateOp.awaited, hs]
            rw [ActuateOp.call_unexpected ha now hd hne]
            exact .refused _ (fun _ _ he => by cases he)
        | actuating _ _ _ hs =>
            have hd' : decryptResponse C (lock.reply C action.commandType 1 []) op.aesKey =
                .ok ⟨op.commandType, 1, []⟩ := by rw [hcommand, hd]
            rw [ActuateOp.call_acknowledged hs now hd']
            exact .acted hperformed
    | rejected i hmiss =>
        have hd := hread action.commandType lock.rejection [] (Nat.zero_le _)
        cases hphase with
        | actuating _ _ m hs hv hfirst hissued _ _ hm hopens =>
            have ha : op.awaited = some action.commandType := by rw [ActuateOp.awaited, hs, hcommand]
            rw [ActuateOp.call_rejected ha now hd rfl lock.rejection_ne]
            -- the actuation is made with the same challenge every time
            have hnone : m = 0 := by
              by_contra hm0
              exact hmiss (hopens hm0)
            subst hnone
            exact .rejected hv (hm.performed.trans (List.append_nil _)) ⟨i, hfirst, hissued, hmiss⟩
  · have hforeign := h.script now raw hraw
    obtain ⟨command, ha, hmem⟩ : ∃ command, op.awaited = some command ∧
        command ∈ [COMM_CHECK_USER_TIME, action.commandType] := by
      rcases hphase.awaited hcommand with ha | ha
      · exact ⟨_, ha, by simp⟩
      · exact ⟨_, ha, by simp⟩
    rcases hd : decryptResponse C raw op.aesKey with e | plain
    · rw [ActuateOp.call_undecrypted ha now hd]
      exact .refused e (decryptResponse_error hd)
    · have hplain : plain.commandType ≠ command := by
        rintro rfl
        exact hforeign plain (hkey ▸ hd) hmem
      rw [ActuateOp.call_unexpected ha now hd hplain]
      exact .refused _ (fun _ _ he => by cases he)

variable {ε : Type} {timeout disconnected : ε} {fate : Nat → Fate} {link' : LockLink}

/-- A frame that is read changes nothing but what is still to be delivered. -/
theorem read (h : Exchanging C lock action unlockKey version before n frame op link) {now : Int}
    {raw : List UInt8} (hread : LockLink.nextFrame timeout disconnected link = (.ok (now, raw), link')) :
    Exchanging C lock action unlockKey version before n frame op link' := by
  obtain ⟨-, hlink, hscript⟩ := LockLink.nextFrame_ok hread
  rw [hlink]
  exact { h with script := fun now raw hmem => h.script now raw (hscript hmem) }

/-- One more write. The lock may answer the handshake, or what it is asked to do. -/
theorem written (hC : C.Lawful) (h : Exchanging C lock action unlockKey version before n frame op link)
    (hn : n ≤ CRC_RETRIES)
    (hwrite : LockLink.writeFrame disconnected C lock fate frame link = (.ok (), link')) :
    Exchanging C lock action unlockKey version before (n + 1) frame op link' := by
  obtain ⟨hkey, hunlock, hversion, hcommand⟩ := h.keys
  obtain ⟨read, hphase, hsaid⟩ := h.talk
  cases hphase with
  | handshake hs hb hdrawn hm =>
      rcases LockLink.writeFrame_cases hC hkey hb hwrite with rfl | rfl
      · exact { h with sent := by omega, talk := ⟨none, .handshake hs hb (by dsimp only; omega) hm, hsaid⟩ }
      · rw [lock.execute_request rfl, show op.request.version = version from hversion]
        by_cases hv : version = lock.version
        · rw [if_pos hv]
          obtain ⟨hlow, -⟩ := hm.drawn
          have hm' : Moved lock action unlockKey version before 0
              { link.session with issued := link.session.issued + 1 } :=
            ⟨hm.performed, hm.bolt, ⟨by dsimp only; omega, by dsimp only; omega⟩, fun h => absurd rfl h⟩
          refine { h with sent := by omega
                          talk := ⟨none, .handshake hs hb (by dsimp only; omega) hm', fun raw hraw => ?_⟩ }
          rcases List.mem_append.1 hraw with hraw | hraw
          · exact (hsaid raw hraw).mono (Nat.le_succ _) (fun hnone => absurd rfl hnone) id
          · obtain rfl := List.mem_singleton.1 hraw
            exact .challenge none _ hv hlow (Nat.lt_succ_self _)
        · rw [if_neg hv]
          refine { h with sent := by omega
                          talk := ⟨none, .handshake hs hb (by dsimp only; omega) hm, fun raw hraw => ?_⟩ }
          rcases List.mem_append.1 hraw with hraw | hraw
          · exact hsaid raw hraw
          · obtain rfl := List.mem_singleton.1 hraw
            exact .turnedAway none hv
  | actuating i now m hs hv hfirst hlt hb hmn hm hopens =>
      rcases LockLink.writeFrame_cases hC hkey hb hwrite with rfl | rfl
      · exact { h with
          sent := by omega
          talk := ⟨some i, .actuating i now m hs hv hfirst hlt hb (by omega) hm hopens, hsaid⟩ }
      · have hdrawn : link.session.issued ≠ 0 := Nat.ne_of_gt (Nat.zero_lt_of_lt hlt)
        rw [lock.execute_actuation hcommand (hversion.trans hv) now _ hdrawn, hunlock,
          show (op.actuation now (lock.challenge i)).commandType = action.commandType from hcommand]
        by_cases hsum : lock.challenge i + unlockKey.get =
            lock.challenge (link.session.issued - 1) + lock.unlockKey.get
        · rw [if_pos hsum]
          have hm' : Moved lock action unlockKey version before (m + 1)
              { link.session with
                bolt := action.target, performed := link.session.performed ++ [action]
                clock := PairedLock.timeOf now } :=
            { performed := by
                show link.session.performed ++ [action] = _
                rw [hm.performed, List.replicate_succ', List.append_assoc]
              bolt := rfl
              drawn := hm.drawn
              authorized := fun _ => ⟨hv, i, hfirst, hlt, hsum⟩ }
          have hmoved : link.session.performed ++ [action] ≠ before.performed := by
            intro hbad
            have hlen := congrArg List.length hbad
            rw [hm.performed] at hlen
            simp at hlen
          refine { h with
            sent := by omega
            talk := ⟨some i, .actuating i now (m + 1) hs hv hfirst hlt hb (by omega) hm' fun _ => hsum,
              fun raw hraw => ?_⟩ }
          rcases List.mem_append.1 hraw with hraw | hraw
          · exact (hsaid raw hraw).mono (Nat.le_refl _) (fun _ => rfl) fun _ => hmoved
          · obtain rfl := List.mem_singleton.1 hraw
            exact .acted (some i) hmoved
        · rw [if_neg hsum]
          refine { h with
            sent := by omega
            talk := ⟨some i, .actuating i now m hs hv hfirst hlt hb (by omega) hm hopens,
              fun raw hraw => ?_⟩ }
          rcases List.mem_append.1 hraw with hraw | hraw
          · exact hsaid raw hraw
          · obtain rfl := List.mem_singleton.1 hraw
            exact .rejected i hsum

end Exchanging

/-- An error that is none of the core's comes with nothing but what the lock has done. -/
theorem Exchanging.failed {n : Nat} {frame : List UInt8} {op : ActuateOp} {link : LockLink}
    (h : Exchanging C lock action unlockKey version before n frame op link) {ε : Type}
    {core : TtlockError → ε} {e : ε} (he : ∀ command r, e ≠ core (.commandFailed command r)) :
    Failed lock action unlockKey version before core e link.session := by
  obtain ⟨m, hmn, hm⟩ := h.moved
  exact ⟨⟨m, hmn.trans h.sent, hm⟩, fun r hr => absurd hr (he _ r), fun r hr => absurd hr (he _ r)⟩

/-- The rule that an actuation is driven by, over such a link. Errors may be given another `face`. -/
theorem exchanging_rule (hC : C.Lawful) {ε ε' : Type} {timeout disconnected : ε}
    {core : TtlockError → ε} {face : ε → ε'} (hcore : Function.Injective fun e => face (core e))
    (htimeout : ∀ e, face (core e) ≠ face timeout) (hdisconnected : ∀ e, face (core e) ≠ face disconnected)
    (fate : Nat → Fate) :
    (LockLink.transport timeout disconnected C lock fate).Rule (ActuateOp.operation C) core
      (Exchanging C lock action unlockKey version before)
      (fun _ _ link => ∃ m, m ≠ 0 ∧ m ≤ CRC_RETRIES + 1 ∧
        Moved lock action unlockKey version before m link.session)
      (fun e _ link => Failed lock action unlockKey version before (fun e => face (core e)) (face e)
        link.session) where
  written hn h hwrite := h.written hC hn hwrite
  not_written h hwrite := by
    obtain ⟨rfl, rfl⟩ := LockLink.writeFrame_error hwrite
    exact h.failed fun _ _ => (hdisconnected _).symm
  not_read h hread := by
    obtain ⟨he, hsession⟩ := LockLink.nextFrame_error hread
    rw [hsession]
    refine h.failed fun command r => ?_
    rcases he with rfl | rfl
    · exact (htimeout _).symm
    · exact (hdisconnected _).symm
  refused {_ _ _ _ now raw _ e _} h hread hc := by
    have ha := h.answer hC now (LockLink.nextFrame_ok hread).1
    have hread' := h.read hread
    have hsession : _ = LockLink.session _ := congrArg LockLink.session (LockLink.nextFrame_ok hread).2.1
    change (ActuateOp.handleFrame C now raw).call _ = _ at hc
    rw [hc] at ha
    cases ha with
    | refused _ hne => exact ⟨hread', hread'.failed fun _ _ he => hne _ _ (hcore he)⟩
    | turnedAway hv =>
        obtain ⟨m, hmn, hm⟩ := hread'.moved
        refine ⟨hread', ⟨m, hmn.trans h.sent, hm⟩, fun r hr => ?_, fun r hr => ?_⟩
        · cases hcore hr
          exact ⟨rfl, hv⟩
        · cases action <;> cases hcore hr
    | rejected hv hperformed hmiss =>
        obtain ⟨m, hmn, hm⟩ := hread'.moved
        refine ⟨hread', ⟨m, hmn.trans h.sent, hm⟩, fun r hr => ?_, fun r hr => ?_⟩
        · cases action <;> cases hcore hr
        · cases hcore hr
          rw [hsession]
          exact ⟨rfl, hv, hperformed, hmiss⟩
  next {_ _ _ _ now raw _ _ _} h hread hc := by
    have ha := h.answer hC now (LockLink.nextFrame_ok hread).1
    have hread' := h.read hread
    have hsession : _ = LockLink.session _ := congrArg LockLink.session (LockLink.nextFrame_ok hread).2.1
    change (ActuateOp.handleFrame C now raw).call _ = _ at hc
    rw [hc] at ha
    cases ha with
    | challenged _ now j hb hv hfirst hissued hs hm =>
        obtain ⟨_, hphase, hsaid⟩ := hread'.talk
        cases hphase with
        | handshake =>
            rw [← hsession] at hissued hm
            exact { hread' with
              sent := Nat.zero_le _
              made := by rw [h.made]
              talk := ⟨some j, .actuating j now 0 rfl hv hfirst hissued hb (Nat.le_refl 0) hm
                (fun hne => absurd rfl hne), fun raw hraw => (hsaid raw hraw).reads (some j)⟩ }
        | actuating _ _ _ hs' => cases hs.symm.trans hs'
  done {_ _ _ _ now raw _ _ _} h hread hc := by
    have ha := h.answer hC now (LockLink.nextFrame_ok hread).1
    obtain ⟨m, hmn, hm⟩ := (h.read hread).moved
    have hsession : _ = LockLink.session _ := congrArg LockLink.session (LockLink.nextFrame_ok hread).2.1
    change (ActuateOp.handleFrame C now raw).call _ = _ at hc
    rw [hc] at ha
    cases ha with
    | acted hperformed =>
        refine ⟨m, ?_, hmn.trans h.sent, hm⟩
        rintro rfl
        refine hperformed ?_
        rw [← hsession, hm.performed]
        exact List.append_nil _

/-! ## Whole runs -/

/-- What an actuation may come to. -/
structure Sound (lock : PairedLock) (action : Actuation) (unlockKey : UnlockKey) (version : LockVersion)
    (before : LockSession) {ε : Type} (core : TtlockError → ε) (result : Except ε Unit)
    (after : LockSession) : Prop where
  /-- The lock did nothing but what it was asked to, at most three times, and only for its own version
      and a right sum, with one of the at most three challenges that were drawn. An actuation that is
      acknowledged was performed. -/
  moved : ∃ m ≤ 3, Moved lock action unlockKey version before m after ∧ (result = .ok () → m ≠ 0)
  /-- The handshake is rejected only for the version. -/
  handshake : ∀ r, result = .error (core (.commandFailed 0x55 r)) →
    r = lock.rejection ∧ version ≠ lock.version
  /-- The actuation is rejected only for the sum, and then the lock did nothing. -/
  actuation : ∀ r, result = .error (core (.commandFailed action.commandType r)) →
    r = lock.rejection ∧ version = lock.version ∧ after.performed = before.performed ∧
      lock.Misses unlockKey before.issued after.issued
  /-- If all challenges drawn are the same, that is for the unlock key. -/
  key : lock.Steady before.issued after.issued →
    (after.performed ≠ before.performed → unlockKey = lock.unlockKey) ∧
    ∀ r, result = .error (core (.commandFailed action.commandType r)) → unlockKey ≠ lock.unlockKey

theorem Moved.key {m : Nat} {after : LockSession}
    (h : Moved lock action unlockKey version before m after)
    (hsteady : lock.Steady before.issued after.issued) (hafter : after.performed ≠ before.performed) :
    unlockKey = lock.unlockKey := by
  have hm : m ≠ 0 := by
    rintro rfl
    exact hafter (h.performed.trans (List.append_nil _))
  obtain ⟨-, i, hfirst, hlt, hopens⟩ := h.authorized hm
  exact (hsteady.opens_iff hfirst hlt unlockKey).1 hopens

/-- The ways a run may end are sound ones. -/
theorem sound_of_ends {ε ε' : Type} {core : TtlockError → ε'} {face : ε → ε'} {result : Except ε Unit}
    {op : ActuateOp} {link : LockLink} (h : Transport.Ends
      (fun _ _ link => ∃ m, m ≠ 0 ∧ m ≤ CRC_RETRIES + 1 ∧
        Moved lock action unlockKey version before m link.session)
      (fun e _ link => Failed lock action unlockKey version before core (face e) link.session)
      (result, op, link)) :
    Sound lock action unlockKey version before core (result.mapError face) link.session := by
  rcases result with e | ⟨⟩
  · obtain ⟨m, hle, hm⟩ := h.moved
    refine ⟨⟨m, hle, hm, fun hr => by cases hr⟩, ?_, ?_, fun hsteady => ⟨hm.key hsteady, fun r hr => ?_⟩⟩
    · exact fun r hr => h.handshake r (Except.error.inj hr)
    · exact fun r hr => h.actuation r (Except.error.inj hr)
    · obtain ⟨-, -, -, i, hfirst, hlt, hmiss⟩ := h.actuation r (Except.error.inj hr)
      exact mt (hsteady.opens_iff hfirst hlt unlockKey).2 hmiss
  · obtain ⟨m, hne, hle, hm⟩ := h
    refine ⟨⟨m, hle, hm, fun _ => hne⟩, ?_, ?_, fun hsteady => ⟨hm.key hsteady, ?_⟩⟩
    · exact fun r hr => by cases hr
    · exact fun r hr => by cases hr
    · exact fun r hr => by cases hr

/-- A connection that has just been made. What it may still deliver is about none of these `commands`. -/
structure Fresh (C : Cipher) (lock : PairedLock) (commands : List UInt8) (session : LockSession)
    (link : LockLink) : Prop where
  session : link.session = session
  replies : link.replies = []
  script : ∀ now raw, Delivery.other now raw ∈ link.script → Foreign C lock.aesKey commands raw

theorem Fresh.mono {commands commands' : List UInt8} {link : LockLink}
    (h : Fresh C lock commands before link) (hsub : commands' ⊆ commands) :
    Fresh C lock commands' before link :=
  ⟨h.session, h.replies,
    fun now raw hraw plain hplain hmem => h.script now raw hraw plain hplain (hsub hmem)⟩

theorem fresh_new {commands : List UInt8} {script : List Delivery}
    (hforeign : ∀ now raw, Delivery.other now raw ∈ script → Foreign C lock.aesKey commands raw) :
    Fresh C lock commands before (.new before script) :=
  ⟨rfl, rfl, hforeign⟩

/-- Before the first write the lock has done nothing. -/
theorem exchanging_start {link : LockLink}
    (hfresh : Fresh C lock [COMM_CHECK_USER_TIME, action.commandType] before link) (frame : List UInt8)
    (op : ActuateOp) (h : (ActuateOp.operation C).start.call (action.op lock.aesKey unlockKey version) =
      (.ok (.write frame), op)) :
    Exchanging C lock action unlockKey version before 0 frame op link := by
  change (ActuateOp.start C).call _ = _ at h
  rw [ActuateOp.call_start] at h
  rcases hb : (action.op lock.aesKey unlockKey version).request.build C with e | frame' <;>
    rw [hb] at h <;> cases h
  have hmoved : Moved lock action unlockKey version before 0 link.session := by
    rw [hfresh.session]
    exact .none
  exact
    { sent := Nat.zero_le _
      made := rfl
      script := hfresh.script
      talk := ⟨none, .handshake rfl hb (by rw [hfresh.session]; exact Nat.le_refl _) hmoved,
        fun raw hraw => by rw [hfresh.replies] at hraw; exact absurd hraw List.not_mem_nil⟩ }

/-- `run_op`, over a connection that has just been made. -/
theorem runOp_actuate (hC : C.Lawful) (fate : Nat → Fate) {link : LockLink}
    (hfresh : Fresh C lock [COMM_CHECK_USER_TIME, action.commandType] before link) {fuel : Nat}
    (hfuel : 2 ≤ fuel) :
    ∃ result op link',
      Transport.runOp (LockLink.transport .timeout .disconnected C lock fate) (ActuateOp.operation C) fuel
        (action.op lock.aesKey unlockKey version) link = some (result, op, link') ∧
      Sound lock action unlockKey version before CliError.core result link'.session := by
  have hrule := @exchanging_rule C lock action unlockKey version before hC CliError CliError .timeout
    .disconnected .core id (fun _ _ h => CliError.core.inj h) (fun _ h => by cases h)
    (fun _ h => by cases h) fate
  obtain ⟨⟨result, op, link'⟩, hrun, hends⟩ := hrule.runOp (ActuateOp.countsDown hC) (by decide) hfuel
    (exchanging_start hfresh)
  have hsound := sound_of_ends hends
  refine ⟨result, op, link', hrun, ?_⟩
  rcases result with e | ⟨⟩ <;> exact hsound

/-- A lock that the sample key opens. -/
def sampleLock : PairedLock := ⟨.default, sampleKey, ⟨5, by decide⟩, 80, fun _ => 9, 0, by decide⟩

end TTLock
