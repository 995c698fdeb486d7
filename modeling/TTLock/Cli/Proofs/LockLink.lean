import TTLock.Cli.LockLink
import TTLock.Cli.Proofs.Rule

set_option autoImplicit false

/-! # The two ends of an actuation

What the lock makes of the frames that are built for it, what the operation makes of the lock's replies,
and what one write or read over the link between them does. -/

namespace TTLock

variable {C : Cipher} {lock : PairedLock}

/-! ## What the two ends make of each other's frames -/

/-- A built frame is parsed with its terminator as it is without. -/
theorem WireCommand.parse_build {c : WireCommand} {wire : List UInt8} (h : c.build C = .ok wire) :
    Envelope.parse wire = .ok
      { protocolType := c.version.protocolType, protocolVersion := c.version.protocolVersion
        scene := c.version.scene, groupId := c.version.groupId, orgId := c.version.orgId
        commandType := c.commandType, encrypt := APP_COMMAND, data := c.encrypted C
        crc := crc8 (c.body C), computedCrc := crc8 (c.body C) } := by
  obtain ⟨hlen, rfl⟩ := build_eq_ok h
  have hnat : (c.encrypted C).length = (UInt8.ofNat (c.encrypted C).length).toNat := by
    rw [UInt8.toNat_ofNat', Nat.mod_eq_of_lt (by omega)]
  have hparse := fun g₁ g₀ o₁ o₀ => Envelope.parse_cons c.version.protocolType c.version.protocolVersion
    c.version.scene g₁ g₀ o₁ o₀ c.commandType APP_COMMAND _ (crc8 (c.body C)) (c.encrypted C) CRLF hnat
  have hframe : c.frame C ++ CRLF = c.body C ++ crc8 (c.body C) :: CRLF := by
    rw [frame, List.append_assoc]
    rfl
  rw [hframe]
  refine (hparse _ _ _ _).trans ?_
  rw [BigEndian.ofBytes16_toBytes16, BigEndian.ofBytes16_toBytes16]
  rfl

namespace PairedLock

/-- The lock reads what was built for it. -/
theorem read_build (hC : C.Lawful) {c : WireCommand} (hkey : c.aesKey = lock.aesKey) {wire : List UInt8}
    (h : c.build C = .ok wire) : lock.read C wire = some c := by
  have hdec : aesDecrypt C (c.encrypted C) c.aesKey = .ok c.plaintext := aesDecrypt_aesEncrypt hC _ _
  simp only [read, WireCommand.parse_build h, ← hkey, hdec, if_true]

theorem receive_build (hC : C.Lawful) {c : WireCommand} (hkey : c.aesKey = lock.aesKey)
    {wire : List UInt8} (h : c.build C = .ok wire) (session : LockSession) :
    lock.receive C wire session = some
      (lock.reply C c.commandType (lock.execute c session).1.1 (lock.execute c session).1.2,
        (lock.execute c session).2) := by
  rw [receive, lock.read_build hC hkey h]
  rfl

/-- A reply decrypts to what the lock meant. -/
theorem decryptResponse_reply (hC : C.Lawful) (command response : UInt8) (data : List UInt8)
    (hdata : data.length ≤ 237) :
    decryptResponse C (lock.reply C command response data) lock.aesKey =
      .ok { commandType := command, response, data } := by
  have hlen := (WireCommand.length_encrypted_le (C := C) hC
    { version := lock.version, commandType := COMM_RESPONSE, aesKey := lock.aesKey
      plaintext := command :: response :: data }).2 (by simp only [List.length_cons]; omega)
  rw [decryptResponse, reply, WireCommand.parse_frame _ hlen]
  show (Envelope.ensureCrc _ >>= fun _ => Envelope.decryptCommand C _ _) = _
  rw [Envelope.ensureCrc_eq_ok rfl]
  exact Envelope.decryptCommand_eq _ _ (aesDecrypt_aesEncrypt hC (command :: response :: data) lock.aesKey)

end PairedLock

/-- An error of a frame itself is no rejection. -/
theorem decryptResponse_error {raw : List UInt8} {aesKey : AesKey} {e : TtlockError}
    (h : decryptResponse C raw aesKey = .error e) (command response : UInt8) :
    e ≠ .commandFailed command response := by
  rintro rfl
  unfold decryptResponse at h
  rcases hp : Envelope.parse raw with e | env
  · rw [hp] at h
    unfold Envelope.parse at hp
    dsimp only at hp
    split_ifs at hp <;> cases hp <;> cases h
  · rw [hp] at h
    change (env.ensureCrc >>= fun _ => env.decryptCommand C aesKey) = _ at h
    rcases hcrc : env.ensureCrc with e | _
    · rw [hcrc] at h
      unfold Envelope.ensureCrc at hcrc
      split_ifs at hcrc
      cases hcrc
      cases h
    · rw [hcrc] at h
      change env.decryptCommand C aesKey = _ at h
      unfold Envelope.decryptCommand at h
      rcases hd : aesDecrypt C env.data aesKey with e | bytes
      · rw [hd] at h
        unfold aesDecrypt at hd
        split_ifs at hd
        split at hd <;> cases hd
        cases h
      · rw [hd] at h
        rcases bytes with _ | ⟨_, _ | ⟨_, _⟩⟩ <;> cases h

namespace ActuateOp

/-- The command whose reply is awaited. -/
def awaited (self : ActuateOp) : Option UInt8 :=
  match self.state with
  | .awaitingCheckUserTime => some COMM_CHECK_USER_TIME
  | .awaitingActuate => some self.commandType
  | .idle | .done => none

variable {self : ActuateOp} {command : UInt8} {raw : List UInt8} {plain : PlainCommand}

theorem call_undecrypted (h : self.awaited = some command) (now : Int) {e : TtlockError}
    (hd : decryptResponse C raw self.aesKey = .error e) :
    (handleFrame C now raw).call self = (.error e, self) := by
  rw [call_handleFrame]
  unfold awaited at h
  rcases hs : self.state <;> rw [hs] at h <;> cases h <;> simp only [hd]

/-- A frame about another command is skipped. -/
theorem call_unexpected (h : self.awaited = some command) (now : Int)
    (hd : decryptResponse C raw self.aesKey = .ok plain) (hne : plain.commandType ≠ command) :
    (handleFrame C now raw).call self = (.error (.unexpectedCommand command plain.commandType), self) := by
  rw [call_handleFrame]
  unfold awaited at h
  rcases hs : self.state <;> rw [hs] at h <;> cases h
  · simp only [hd, parseCheckUserTimeResponse, ne_eq, hne, not_false_eq_true, if_true]
  · simp only [hd, parseSuccessResponse, ne_eq, hne, not_false_eq_true, if_true]

theorem call_rejected (h : self.awaited = some command) (now : Int)
    (hd : decryptResponse C raw self.aesKey = .ok plain) (hcommand : plain.commandType = command)
    (hresponse : plain.response ≠ 1) :
    (handleFrame C now raw).call self = (.error (.commandFailed command plain.response), self) := by
  rw [call_handleFrame]
  unfold awaited at h
  rcases hs : self.state <;> rw [hs] at h <;> cases h
  · simp only [hd, parseCheckUserTimeResponse, ne_eq, hcommand, not_true_eq_false, if_false, hresponse,
      not_false_eq_true, if_true]
  · simp only [hd, parseSuccessResponse, ne_eq, hcommand, not_true_eq_false, if_false, hresponse]

theorem call_challenged (hC : C.Lawful) (hs : self.state = .awaitingCheckUserTime) (now : Int)
    {ps : UInt32} (hd : decryptResponse C raw self.aesKey =
      .ok ⟨COMM_CHECK_USER_TIME, 1, BigEndian.toBytes32 ps⟩) :
    ∃ frame, (self.actuation now ps).build C = .ok frame ∧
      (handleFrame C now raw).call self = (.ok (.write frame), { self with state := .awaitingActuate }) := by
  obtain ⟨frame, hb⟩ := (WireCommand.build_ok_iff hC (self.actuation now ps)).2
    (show (buildLockPayload now ps self.unlockKey).length ≤ 239 from by
      rw [buildLockPayload, List.length_append, BigEndian.length_toBytes32, BigEndian.length_toBytes32]
      decide)
  refine ⟨frame, hb, ?_⟩
  have hps : parseCheckUserTimeResponse ⟨COMM_CHECK_USER_TIME, 1, BigEndian.toBytes32 ps⟩ = .ok ps :=
    congrArg Except.ok (BigEndian.ofBytes32_toBytes32 ps)
  rw [call_handleFrame]
  simp only [hs, hd, hps, hb]

theorem call_acknowledged (hs : self.state = .awaitingActuate) (now : Int) {data : List UInt8}
    (hd : decryptResponse C raw self.aesKey = .ok ⟨self.commandType, 1, data⟩) :
    (handleFrame C now raw).call self = (.ok (.done ()), { self with state := .done }) := by
  rw [call_handleFrame]
  simp only [hs, hd, parseSuccessResponse, ne_eq, not_true_eq_false, if_false, if_true]

end ActuateOp

/-! ## What the lock does -/

theorem Actuation.commandType_ne (action : Actuation) :
    action.commandType ≠ COMM_CHECK_USER_TIME ∧ action.commandType ≠ COMM_SEARCH_BICYCLE_STATUS ∧
      Actuation.ofCommand action.commandType = some action := by
  cases action <;> decide

namespace PairedLock

/-- A challenge is handed out to whoever speaks the lock's version. -/
theorem execute_request {c : WireCommand} (hc : c.commandType = COMM_CHECK_USER_TIME)
    (session : LockSession) :
    lock.execute c session =
      if c.version = lock.version then
        ((1, BigEndian.toBytes32 (lock.challenge session.issued)),
          { session with issued := session.issued + 1 })
      else ((lock.rejection, []), session) := by
  by_cases hv : c.version = lock.version
  · simp only [execute, ne_eq, hv, not_true_eq_false, if_false, hc, if_true]
  · simp only [execute, ne_eq, hv, not_false_eq_true, if_true, if_false]

/-- The time an actuation carries. -/
def timeOf (now : Int) : UInt32 :=
  if 0 ≤ now ∧ now < 4294967296 then UInt32.ofNat now.toNat else 0xffffffff

theorem readPayload_buildLockPayload (now : Int) (ps : UInt32) (unlockKey : UnlockKey) :
    readPayload (buildLockPayload now ps unlockKey) = some (ps + unlockKey.get, timeOf now) := by
  show some (BigEndian.ofBytes32 _ _ _ _, BigEndian.ofBytes32 _ _ _ _) = _
  rw [BigEndian.ofBytes32_toBytes32, BigEndian.ofBytes32_toBytes32]
  rfl

/-- The bolt moves if the sum is the one the lock has come to itself. -/
theorem execute_actuation {action : Actuation} {op : ActuateOp} (hop : op.commandType = action.commandType)
    (hv : op.version = lock.version) (now : Int) (ps : UInt32) {session : LockSession}
    (hissued : session.issued ≠ 0) :
    lock.execute (op.actuation now ps) session =
      if ps + op.unlockKey.get = lock.challenge (session.issued - 1) + lock.unlockKey.get then
        ((1, []), { session with
          bolt := action.target, performed := session.performed ++ [action], clock := timeOf now })
      else ((lock.rejection, []), session) := by
  obtain ⟨hne, hne', haction⟩ := action.commandType_ne
  have hplain : readPayload (op.actuation now ps).plaintext = some (ps + op.unlockKey.get, timeOf now) :=
    readPayload_buildLockPayload now ps op.unlockKey
  have hcommand : (op.actuation now ps).commandType = action.commandType := hop
  have hversion : (op.actuation now ps).version = lock.version := hv
  simp only [execute, hversion, ne_eq, not_true_eq_false, if_false, hcommand, hne, hne', haction, hplain,
    current, hissued]

end PairedLock

namespace LockLink

variable {ε : Type} {timeout disconnected : ε} {fate : Nat → Fate} {link link' : LockLink}

/-- What a write does, if the frame is one the lock can read: nothing, or what the lock makes of it. -/
theorem writeFrame_cases (hC : C.Lawful) {c : WireCommand} (hkey : c.aesKey = lock.aesKey)
    {frame : List UInt8} (hb : c.build C = .ok frame)
    (h : writeFrame disconnected C lock fate frame link = (.ok (), link')) :
    link' = { link with writes := link.writes + 1 } ∨
    link' = { link with
      session := (lock.execute c link.session).2
      writes := link.writes + 1
      replies := link.replies ++ [lock.reply C c.commandType (lock.execute c link.session).1.1
        (lock.execute c link.session).1.2] } := by
  unfold writeFrame at h
  rw [lock.receive_build hC hkey hb] at h
  rcases hf : fate link.writes <;> rw [hf] at h <;> cases h
  · exact .inr rfl
  · exact .inl rfl

theorem writeFrame_error {frame : List UInt8} {e : ε}
    (h : writeFrame disconnected C lock fate frame link = (.error e, link')) :
    e = disconnected ∧ link' = { link with writes := link.writes + 1 } := by
  unfold writeFrame at h
  rcases hf : fate link.writes <;> rw [hf] at h
  · rcases hr : lock.receive C frame link.session with _ | ⟨reply, session⟩ <;> rw [hr] at h <;> cases h
  · cases h
  · cases h
    exact ⟨rfl, rfl⟩

/-- A frame that arrives is a reply or was put in. -/
theorem nextFrame_ok {now : Int} {raw : List UInt8}
    (h : nextFrame timeout disconnected link = (.ok (now, raw), link')) :
    (raw ∈ link.replies ∨ Delivery.other now raw ∈ link.script) ∧
      link' = { link with script := link'.script } ∧ link'.script ⊆ link.script := by
  unfold nextFrame at h
  rcases hs : link.script with _ | ⟨⟨now', number⟩ | ⟨now', raw'⟩ | _ | _, script⟩ <;> rw [hs] at h
  · cases h
  · dsimp only at h
    rcases hr : link.replies[number]? with _ | reply <;> rw [hr] at h <;> cases h
    exact ⟨.inl (List.mem_of_getElem? hr), rfl, List.subset_cons_self ..⟩
  · cases h
    exact ⟨.inr List.mem_cons_self, rfl, List.subset_cons_self ..⟩
  · cases h
  · cases h

theorem nextFrame_error {e : ε} (h : nextFrame timeout disconnected link = (.error e, link')) :
    (e = timeout ∨ e = disconnected) ∧ link'.session = link.session := by
  unfold nextFrame at h
  rcases hs : link.script with _ | ⟨⟨now', number⟩ | ⟨now', raw'⟩ | _ | _, script⟩ <;> rw [hs] at h
  · cases h
    exact ⟨.inl rfl, rfl⟩
  · dsimp only at h
    rcases hr : link.replies[number]? with _ | reply <;> rw [hr] at h <;> cases h
    exact ⟨.inl rfl, rfl⟩
  · cases h
  · cases h
    exact ⟨.inl rfl, rfl⟩
  · cases h
    exact ⟨.inr rfl, rfl⟩

end LockLink

end TTLock
