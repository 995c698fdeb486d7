import TTLock.Core.Oplog
import TTLock.Core.Proofs.Wire
import TTLock.Lib.Mealy

set_option autoImplicit false

/-! # What the operations do with the frames they are given

Each `handleFrame` gets one inversion lemma, `*_handleFrame_cases`, that lists everything it can do:
refuse the frame and keep its state, or accept one authentic reply and move on. Both results below are
read off these: a refused frame leaves no mark (`rejected_frames_leave_no_mark`), and an operation
completes only on the reply it was waiting for (`done_only_on_authentic_reply`). -/

namespace TTLock

variable {C : Cipher} {σ T α β : Type}

/-! ## Calling a method -/

namespace OpM

theorem call_bind (method : OpM σ α) (next : α → OpM σ β) (self : σ) :
    (method >>= next).call self = match method.call self with
      | (.ok a, self') => (next a).call self'
      | (.error e, self') => (.error e, self') := by
  simp only [call, ExceptT.run_bind, StateT.run_bind]
  rcases h : method.run.run self with ⟨_ | a, self'⟩ <;> rfl

@[simp] theorem call_get (self : σ) : (get : OpM σ σ).call self = (.ok self, self) := rfl

@[simp] theorem call_pure (a : α) (self : σ) : (pure a : OpM σ α).call self = (.ok a, self) := rfl

@[simp] theorem call_lift (x : Except TtlockError α) (self : σ) :
    (liftM x : OpM σ α).call self = (x, self) := by
  cases x <;> rfl

end OpM

/-! ## Replies -/

/-- The frame parses, passes its CRC and decrypts to a successful reply to `command`. -/
def Reply (C : Cipher) (aesKey : AesKey) (command : UInt8) (raw data : List UInt8) : Prop :=
  ∃ env, Envelope.parse raw = .ok env ∧ env.crc = env.computedCrc ∧
    aesDecrypt C env.data aesKey = .ok (command :: 1 :: data)

theorem Envelope.decryptCommand_ok {env : Envelope} {aesKey : AesKey} {plain : PlainCommand}
    (h : env.decryptCommand C aesKey = .ok plain) :
    aesDecrypt C env.data aesKey = .ok (plain.commandType :: plain.response :: plain.data) := by
  unfold decryptCommand at h
  rcases hd : aesDecrypt C env.data aesKey with e | bytes
  · rw [hd] at h; cases h
  · rw [hd] at h
    rcases bytes with _ | ⟨c, _ | ⟨r, data⟩⟩
    · cases h
    · cases h
    · cases h; rfl

theorem Envelope.ensureCrc_ok {env : Envelope} (h : env.ensureCrc = .ok ()) :
    env.crc = env.computedCrc := by
  unfold ensureCrc at h
  split at h
  · next hcrc => exact hcrc
  · cases h

/-- A response that decrypts came in an authentic envelope. -/
theorem decryptResponse_ok {raw : List UInt8} {aesKey : AesKey} {plain : PlainCommand}
    (h : decryptResponse C raw aesKey = .ok plain) (hone : plain.response = 1) :
    Reply C aesKey plain.commandType raw plain.data := by
  unfold decryptResponse at h
  rcases hp : Envelope.parse raw with e | env
  · rw [hp] at h; cases h
  · rw [hp] at h
    change (env.ensureCrc >>= fun _ => env.decryptCommand C aesKey) = .ok plain at h
    rcases hcrc : env.ensureCrc with e | _
    · rw [hcrc] at h; cases h
    · rw [hcrc] at h
      have hdec := Envelope.decryptCommand_ok h
      rw [hone] at hdec
      exact ⟨env, hp, Envelope.ensureCrc_ok hcrc, hdec⟩

theorem parseSuccessResponse_ok {plain : PlainCommand} {command : UInt8}
    (h : parseSuccessResponse plain command = .ok ()) :
    plain.commandType = command ∧ plain.response = 1 := by
  unfold parseSuccessResponse at h
  split at h
  · cases h
  · next hc =>
      split at h
      · next hr => exact ⟨not_not.1 hc, hr⟩
      · cases h

theorem parseStatusResponse_ok {plain : PlainCommand} {state : Int}
    (h : parseStatusResponse plain = .ok state) :
    plain.commandType = COMM_SEARCH_BICYCLE_STATUS ∧ plain.response = 1 ∧
      ∃ value, plain.data[1]? = some value ∧ state = value.toNat := by
  unfold parseStatusResponse at h
  split at h
  · cases h
  · next hc =>
      split at h
      · cases h
      · next hr =>
          rcases hv : plain.data[1]? with _ | value
          · rw [hv] at h; cases h
          · rw [hv] at h; cases h
            exact ⟨not_not.1 hc, not_not.1 hr, value, rfl, rfl⟩

theorem parseCheckUserTimeResponse_ok {plain : PlainCommand} {ps : UInt32}
    (h : parseCheckUserTimeResponse plain = .ok ps) :
    plain.commandType = COMM_CHECK_USER_TIME ∧ plain.response = 1 ∧
      ∃ a b c d rest, plain.data = a :: b :: c :: d :: rest ∧ ps = BigEndian.ofBytes32 a b c d := by
  unfold parseCheckUserTimeResponse at h
  split at h
  · cases h
  · next hc =>
      split at h
      · cases h
      · next hr =>
          refine ⟨not_not.1 hc, not_not.1 hr, ?_⟩
          rcases hdata : plain.data with _ | ⟨a, _ | ⟨b, _ | ⟨c, _ | ⟨d, rest⟩⟩⟩⟩
          iterate 4 rw [hdata] at h; cases h
          rw [hdata] at h
          exact ⟨a, b, c, d, rest, rfl, (Except.ok.inj h).symm⟩

/-! ## Everything a handler can do -/

theorem StatusOp.call_handleFrame (self : StatusOp) (raw : List UInt8) :
    (handleFrame C raw).call self =
      if self.awaitingResponse then
        match decryptResponse C raw self.aesKey with
        | .error e => (.error e, self)
        | .ok plain => match parseStatusResponse plain with
          | .error e => (.error e, self)
          | .ok state => (.ok (.done (LockState.ofByte
              (if 0 ≤ state ∧ state < 256 then UInt8.ofNat state.toNat else 255))),
            { self with awaitingResponse := false })
      else (.error unexpectedFrame, self) := by
  unfold handleFrame
  rw [OpM.call_bind, OpM.call_get]
  dsimp only
  by_cases h : self.awaitingResponse = true
  · simp only [h, Bool.not_true, Bool.false_eq_true, if_false, if_true, OpM.call_bind, OpM.call_pure,
      OpM.call_lift]
    rcases decryptResponse C raw self.aesKey with e | plain
    · rfl
    · dsimp only
      rcases parseStatusResponse plain with e | state <;> rfl
  · simp only [h, Bool.not_false, if_true, Bool.false_eq_true, if_false, OpM.call_bind]
    rfl

theorem StatusOp.handleFrame_cases (self : StatusOp) (raw : List UInt8) :
    (∃ e, (handleFrame C raw).call self = (.error e, self)) ∨
    ∃ data value, self.awaitingResponse = true ∧
      Reply C self.aesKey COMM_SEARCH_BICYCLE_STATUS raw data ∧ data[1]? = some value ∧
      (handleFrame C raw).call self
        = (.ok (.done (LockState.ofByte value)), { self with awaitingResponse := false }) := by
  rw [call_handleFrame]
  split
  · next hw =>
      rcases hd : decryptResponse C raw self.aesKey with e | plain
      · exact .inl ⟨e, rfl⟩
      · dsimp only
        rcases hp : parseStatusResponse plain with e | state
        · exact .inl ⟨e, rfl⟩
        · obtain ⟨hc, hr, value, hv, rfl⟩ := parseStatusResponse_ok hp
          have hbyte : (0 : Int) ≤ value.toNat ∧ (value.toNat : Int) < 256 := by
            have := value.toNat_lt
            omega
          refine .inr ⟨plain.data, value, hw, hc ▸ decryptResponse_ok hd hr, hv, ?_⟩
          dsimp only
          rw [if_pos hbyte, Int.toNat_natCast, UInt8.ofNat_toNat]
  · exact .inl ⟨_, rfl⟩

theorem LogPageOp.call_handleFrame (chrono : Chrono) (self : LogPageOp) (raw : List UInt8) :
    (handleFrame C chrono raw).call self =
      if self.awaitingResponse then
        match decryptResponse C raw self.aesKey with
        | .error e => (.error e, self)
        | .ok plain => match parseSuccessResponse plain COMM_GET_OPERATE_LOG with
          | .error e => (.error e, self)
          | .ok () => match parsePage chrono plain.data with
            | .error e => (.error e, self)
            | .ok page => (.ok (.done page), { self with awaitingResponse := false })
      else (.error unexpectedFrame, self) := by
  unfold handleFrame
  rw [OpM.call_bind, OpM.call_get]
  dsimp only
  by_cases h : self.awaitingResponse = true
  · simp only [h, Bool.not_true, Bool.false_eq_true, if_false, if_true, OpM.call_bind, OpM.call_pure,
      OpM.call_lift, decryptResponse]
    rcases Envelope.parse raw with e | env
    · rfl
    · dsimp only
      rcases hcrc : env.ensureCrc with e | _
      · simp only [bind, Except.bind, hcrc]
      · simp only [bind, Except.bind, hcrc]
        rcases env.decryptCommand C self.aesKey with e | plain
        · rfl
        · dsimp only
          rcases parseSuccessResponse plain COMM_GET_OPERATE_LOG with e | _
          · rfl
          · dsimp only
            rcases parsePage chrono plain.data with e | page <;> rfl
  · simp only [h, Bool.not_false, if_true, Bool.false_eq_true, if_false, OpM.call_bind]
    rfl

theorem LogPageOp.handleFrame_cases (chrono : Chrono) (self : LogPageOp) (raw : List UInt8) :
    (∃ e, (handleFrame C chrono raw).call self = (.error e, self)) ∨
    ∃ data page, self.awaitingResponse = true ∧
      Reply C self.aesKey COMM_GET_OPERATE_LOG raw data ∧
      (handleFrame C chrono raw).call self
        = (.ok (.done page), { self with awaitingResponse := false }) := by
  rw [call_handleFrame]
  split
  · next hw =>
      rcases hd : decryptResponse C raw self.aesKey with e | plain
      · exact .inl ⟨e, rfl⟩
      · dsimp only
        rcases hp : parseSuccessResponse plain COMM_GET_OPERATE_LOG with e | _
        · exact .inl ⟨e, rfl⟩
        · dsimp only
          rcases parsePage chrono plain.data with e | page
          · exact .inl ⟨e, rfl⟩
          · obtain ⟨hc, hr⟩ := parseSuccessResponse_ok hp
            exact .inr ⟨plain.data, page, hw, hc ▸ decryptResponse_ok hd hr, rfl⟩
  · exact .inl ⟨_, rfl⟩

/-- The actuation an `ActuateOp` answers the challenge `ps` with. -/
def ActuateOp.actuation (self : ActuateOp) (now : Int) (ps : UInt32) : WireCommand :=
  { version := self.version, commandType := self.commandType, aesKey := self.aesKey
    plaintext := buildLockPayload now ps self.unlockKey }

theorem ActuateOp.call_handleFrame (self : ActuateOp) (now : Int) (raw : List UInt8) :
    (handleFrame C now raw).call self =
      match self.state with
      | .awaitingCheckUserTime =>
          match decryptResponse C raw self.aesKey with
          | .error e => (.error e, self)
          | .ok plain => match parseCheckUserTimeResponse plain with
            | .error e => (.error e, self)
            | .ok ps => match (self.actuation now ps).build C with
              | .error e => (.error e, self)
              | .ok frame => (.ok (.write frame), { self with state := .awaitingActuate })
      | .awaitingActuate =>
          match decryptResponse C raw self.aesKey with
          | .error e => (.error e, self)
          | .ok plain => match parseSuccessResponse plain self.commandType with
            | .error e => (.error e, self)
            | .ok () => (.ok (.done ()), { self with state := .done })
      | .idle | .done => (.error unexpectedFrame, self) := by
  unfold handleFrame
  rw [OpM.call_bind, OpM.call_get]
  dsimp only
  cases self.state with
  | idle => rfl
  | done => rfl
  | awaitingCheckUserTime =>
      simp only [OpM.call_bind, OpM.call_lift]
      rcases decryptResponse C raw self.aesKey with e | plain
      · rfl
      · dsimp only
        rcases parseCheckUserTimeResponse plain with e | ps
        · rfl
        · dsimp only [WireCommand.build, actuation]
          rcases buildEnvelope C self.version self.commandType (buildLockPayload now ps self.unlockKey)
            self.aesKey with e | frame <;> rfl
  | awaitingActuate =>
      simp only [OpM.call_bind, OpM.call_lift]
      rcases decryptResponse C raw self.aesKey with e | plain
      · rfl
      · dsimp only
        rcases parseSuccessResponse plain self.commandType with e | _ <;> rfl

theorem ActuateOp.handleFrame_cases (self : ActuateOp) (now : Int) (raw : List UInt8) :
    (∃ e, (handleFrame C now raw).call self = (.error e, self)) ∨
    (∃ a b c d rest frame, self.state = .awaitingCheckUserTime ∧
      Reply C self.aesKey COMM_CHECK_USER_TIME raw (a :: b :: c :: d :: rest) ∧
      (self.actuation now (BigEndian.ofBytes32 a b c d)).build C = .ok frame ∧
      (handleFrame C now raw).call self
        = (.ok (.write frame), { self with state := .awaitingActuate })) ∨
    (∃ data, self.state = .awaitingActuate ∧ Reply C self.aesKey self.commandType raw data ∧
      (handleFrame C now raw).call self = (.ok (.done ()), { self with state := .done })) := by
  rw [call_handleFrame]
  cases hs : self.state with
  | idle => exact .inl ⟨_, rfl⟩
  | done => exact .inl ⟨_, rfl⟩
  | awaitingCheckUserTime =>
      rcases hd : decryptResponse C raw self.aesKey with e | plain
      · exact .inl ⟨e, rfl⟩
      · dsimp only
        rcases hp : parseCheckUserTimeResponse plain with e | ps
        · exact .inl ⟨e, rfl⟩
        · dsimp only
          rcases hb : (self.actuation now ps).build C with e | frame
          · exact .inl ⟨e, rfl⟩
          · obtain ⟨hc, hr, a, b, c, d, rest, hdata, rfl⟩ := parseCheckUserTimeResponse_ok hp
            have hreply := decryptResponse_ok hd hr
            rw [hc, hdata] at hreply
            exact .inr (.inl ⟨a, b, c, d, rest, frame, rfl, hreply, hb, rfl⟩)
  | awaitingActuate =>
      rcases hd : decryptResponse C raw self.aesKey with e | plain
      · exact .inl ⟨e, rfl⟩
      · dsimp only
        rcases hp : parseSuccessResponse plain self.commandType with e | _
        · exact .inl ⟨e, rfl⟩
        · obtain ⟨hc, hr⟩ := parseSuccessResponse_ok hp
          exact .inr (.inr ⟨plain.data, rfl, hc ▸ decryptResponse_ok hd hr, rfl⟩)

/-! ## Refused frames -/

/-- One `handleFrame` call, with the clock it reads. -/
def Operation.handle (op : Operation σ T) (self : σ) (input : Int × List UInt8) :
    Except TtlockError (Step T) × σ :=
  (op.handleFrame input.1 input.2).call self

def isError : Except TtlockError α → Bool
  | .error _ => true
  | .ok _ => false

/-- A refused frame leaves the state as it was, and so leaves no mark on what follows: feeding only
    the frames a run accepted gives the answers the run gave to these, and the same final state. -/
def Operation.RefusesCleanly (op : Operation σ T) : Prop :=
  (∀ self now raw e self', (op.handleFrame now raw).call self = (.error e, self') → self' = self) ∧
  ∀ (self : σ) (inputs : List (Int × List UInt8)),
    let kept := (Mealy.trace op.handle self inputs).filter fun p => !isError p.2
    Mealy.trace op.handle self (kept.map Prod.fst) = kept ∧
      Mealy.final op.handle self (kept.map Prod.fst) = Mealy.final op.handle self inputs

/-- The second half follows from the first. -/
theorem Operation.refusesCleanly {op : Operation σ T}
    (h : ∀ self now raw e self', (op.handleFrame now raw).call self = (.error e, self') →
      self' = self) : op.RefusesCleanly := by
  have hdrop : ∀ (self : σ) (input : Int × List UInt8),
      isError (op.handle self input).1 = true → (op.handle self input).2 = self := by
    intro self input herr
    rcases hc : op.handle self input with ⟨e | step, self'⟩
    · exact h self input.1 input.2 e self' hc
    · rw [hc] at herr; cases herr
  exact ⟨h, fun self inputs => ⟨Mealy.trace_kept op.handle (fun _ o => isError o) hdrop self inputs,
    Mealy.final_kept op.handle (fun _ o => isError o) hdrop self inputs⟩⟩

theorem StatusOp.state_of_refused {self self' : StatusOp} {now : Int} {raw : List UInt8}
    {e : TtlockError} (h : ((operation C).handleFrame now raw).call self = (.error e, self')) :
    self' = self := by
  change (handleFrame C raw).call self = _ at h
  rcases self.handleFrame_cases (C := C) raw with ⟨e', hc⟩ | ⟨_, _, -, -, -, hc⟩
  · exact (Prod.mk.inj (h.symm.trans hc)).2
  · exact absurd (h.symm.trans hc) (by simp)

theorem ActuateOp.state_of_refused {self self' : ActuateOp} {now : Int} {raw : List UInt8}
    {e : TtlockError} (h : ((operation C).handleFrame now raw).call self = (.error e, self')) :
    self' = self := by
  change (handleFrame C now raw).call self = _ at h
  rcases self.handleFrame_cases (C := C) now raw with
    ⟨e', hc⟩ | ⟨_, _, _, _, _, _, -, -, -, hc⟩ | ⟨_, -, -, hc⟩
  · exact (Prod.mk.inj (h.symm.trans hc)).2
  · exact absurd (h.symm.trans hc) (by simp)
  · exact absurd (h.symm.trans hc) (by simp)

theorem LogPageOp.state_of_refused {chrono : Chrono} {self self' : LogPageOp} {now : Int}
    {raw : List UInt8} {e : TtlockError}
    (h : ((operation C chrono).handleFrame now raw).call self = (.error e, self')) : self' = self := by
  change (handleFrame C chrono raw).call self = _ at h
  rcases self.handleFrame_cases (C := C) chrono raw with ⟨e', hc⟩ | ⟨_, _, -, -, hc⟩
  · exact (Prod.mk.inj (h.symm.trans hc)).2
  · exact absurd (h.symm.trans hc) (by simp)

/-- **Refused frames leave no mark.** For every operation, in every state, whatever the error. -/
theorem rejected_frames_leave_no_mark (C : Cipher) (chrono : Chrono) :
    (StatusOp.operation C).RefusesCleanly ∧
    (LockOp.operation C).RefusesCleanly ∧ (UnlockOp.operation C).RefusesCleanly ∧
    (LogPageOp.operation C chrono).RefusesCleanly := by
  have hactuate : (ActuateOp.operation C).RefusesCleanly :=
    Operation.refusesCleanly fun _ _ _ _ _ h => ActuateOp.state_of_refused h
  refine ⟨?_, hactuate, hactuate, ?_⟩
  · exact Operation.refusesCleanly fun _ _ _ _ _ h => StatusOp.state_of_refused h
  · exact Operation.refusesCleanly fun _ _ _ _ _ h => LogPageOp.state_of_refused h

/-! ## Starting -/

/-- The first frame of each operation. -/
def StatusOp.request (self : StatusOp) : WireCommand :=
  { version := self.version, commandType := COMM_SEARCH_BICYCLE_STATUS, aesKey := self.aesKey
    plaintext := "SCIENER".toUTF8.toList }

def LogPageOp.request (self : LogPageOp) : WireCommand :=
  { version := self.version, commandType := COMM_GET_OPERATE_LOG, aesKey := self.aesKey
    plaintext := self.cursor.toWire }

def ActuateOp.request (self : ActuateOp) : WireCommand :=
  { version := self.version, commandType := COMM_CHECK_USER_TIME, aesKey := self.aesKey
    plaintext := buildCheckUserTimePayload 0 "0001311400" "9911301400" 0 }

/-- Build one frame from the state, write it and move on: what every `start` is. -/
theorem OpM.call_request (request : σ → WireCommand) (next : σ → σ) (self : σ) :
    OpM.call (do
      let self ← get
      let frame ← (request self).build C
      set (next self)
      return (.write frame : Step T)) self = match (request self).build C with
      | .error e => (.error e, self)
      | .ok frame => (.ok (.write frame), next self) := by
  simp only [call_bind, call_get, call_lift]
  rcases (request self).build C with e | frame <;> rfl

theorem StatusOp.call_start (self : StatusOp) :
    (start C).call self = match self.request.build C with
      | .error e => (.error e, self)
      | .ok frame => (.ok (.write frame), { self with awaitingResponse := true }) :=
  OpM.call_request request (fun self => { self with awaitingResponse := true }) self

theorem LogPageOp.call_start (self : LogPageOp) :
    (start C).call self = match self.request.build C with
      | .error e => (.error e, self)
      | .ok frame => (.ok (.write frame), { self with awaitingResponse := true }) :=
  OpM.call_request request (fun self => { self with awaitingResponse := true }) self

theorem ActuateOp.call_start (self : ActuateOp) :
    (start C).call self = match self.request.build C with
      | .error e => (.error e, self)
      | .ok frame => (.ok (.write frame), { self with state := .awaitingCheckUserTime }) :=
  OpM.call_request request (fun self => { self with state := .awaitingCheckUserTime }) self

/-- The state an operation is in after `start`. -/
def Operation.started (op : Operation σ T) (self : σ) : σ := (op.start.call self).2

/-! ## Completion -/

/-- A `Done` in a run is given by some state that meets what every call keeps. -/
theorem Operation.done_at {op : Operation σ T} {I : σ → Prop}
    (hkept : ∀ s i, I s → I (op.handle s i).2) {self : σ} (hself : I self)
    {inputs : List (Int × List UInt8)} {n : Nat} {out : T}
    (hn : (Mealy.outputs op.handle self inputs)[n]? = some (.ok (.done out))) :
    ∃ s input, I s ∧ inputs[n]? = some input ∧ (op.handle s input).1 = .ok (.done out) := by
  rw [Mealy.outputs_getElem?] at hn
  obtain ⟨input, hin, hout⟩ := Option.map_eq_some_iff.1 hn
  exact ⟨_, input, Mealy.final_invariant _ hkept hself (inputs.take n), hin, hout⟩

/-- What the completion of an actuation rests on, in a run of answers `outs` to `inputs`: the
    challenge of an earlier authentic reply was answered with the only frame the run wrote, and that
    frame carries this operation's command and the sum of challenge and key. -/
def Actuated (C : Cipher) (aesKey : AesKey) (unlockKey : UnlockKey) (command : UInt8)
    (inputs : List (Int × List UInt8)) (outs : List (Except TtlockError (Step Unit))) (n : Nat) :
    Prop :=
  ∃ m < n, ∃ now raw a b c d rest frame env plain,
    inputs[m]? = some (now, raw) ∧
    Reply C aesKey COMM_CHECK_USER_TIME raw (a :: b :: c :: d :: rest) ∧
    outs[m]? = some (.ok (.write (frame ++ CRLF))) ∧
    (∀ k written, outs[k]? = some (.ok (.write written)) → k = m) ∧
    Envelope.parse frame = .ok env ∧ env.commandType = command ∧
    aesDecrypt C env.data aesKey = .ok plain ∧
    plain.take 4 = BigEndian.toBytes32 (BigEndian.ofBytes32 a b c d + unlockKey.get) ∧
    BigEndian.ofBytes32 a b c d + unlockKey.get ≠ BigEndian.ofBytes32 a b c d

namespace ActuateOp

/-- An operation that is not waiting for a challenge writes nothing. -/
theorem no_write {self : ActuateOp} (h : self.state ≠ .awaitingCheckUserTime)
    (inputs : List (Int × List UInt8)) :
    ∀ out ∈ Mealy.outputs (operation C).handle self inputs, ∀ frame, out ≠ .ok (.write frame) := by
  refine Mealy.outputs_forall (operation C).handle
    (I := fun s : ActuateOp => s.state ≠ .awaitingCheckUserTime) ?_ ?_ h inputs
  · intro s input hs
    show ((handleFrame C input.1 input.2).call s).2.state ≠ _
    rcases s.handleFrame_cases input.1 input.2 with ⟨e, hc⟩ | ⟨_, _, _, _, _, _, -, -, -, hc⟩ |
      ⟨_, -, -, hc⟩ <;> rw [hc]
    · exact hs
    · simp
    · simp
  · intro s input hs frame
    show ((handleFrame C input.1 input.2).call s).1 ≠ _
    rcases s.handleFrame_cases input.1 input.2 with ⟨e, hc⟩ | ⟨_, _, _, _, _, _, hw, -, -, -⟩ |
      ⟨_, -, -, hc⟩
    · rw [hc]; simp
    · exact absurd hw hs
    · rw [hc]; simp

/-- The frame an actuation is written in, taken apart again. -/
theorem actuation_frame (hC : C.Lawful) {self : ActuateOp} {now : Int} {ps : UInt32}
    {wire : List UInt8} (h : (self.actuation now ps).build C = .ok wire) :
    ∃ frame env plain, wire = frame ++ CRLF ∧ Envelope.parse frame = .ok env ∧
      env.commandType = self.commandType ∧ aesDecrypt C env.data self.aesKey = .ok plain ∧
      plain.take 4 = BigEndian.toBytes32 (ps + self.unlockKey.get) := by
  obtain ⟨hlen, rfl⟩ := WireCommand.build_eq_ok h
  exact ⟨_, _, _, rfl, (self.actuation now ps).parse_frame hlen, rfl,
    aesDecrypt_aesEncrypt hC (buildLockPayload now ps self.unlockKey) self.aesKey, rfl⟩

/-- A completed run that started with no challenge answered yet. The induction is on the inputs: a
    refused frame shifts everything by one, the accepted challenge is where the only write is. -/
theorem actuated_of_done (hC : C.Lawful) {self : ActuateOp}
    (hs : self.state ≠ .awaitingActuate) {inputs : List (Int × List UInt8)} {n : Nat}
    (hn : (Mealy.outputs (operation C).handle self inputs)[n]? = some (.ok (.done ()))) :
    Actuated C self.aesKey self.unlockKey self.commandType inputs
      (Mealy.outputs (operation C).handle self inputs) n := by
  induction inputs generalizing self n with
  | nil => simp at hn
  | cons input inputs ih =>
      have hhandle : (operation C).handle self input
          = (handleFrame C input.1 input.2).call self := rfl
      rw [Mealy.outputs_cons, hhandle] at hn ⊢
      rcases self.handleFrame_cases input.1 input.2 with ⟨e, hc⟩ |
        ⟨a, b, c, d, rest, wire, -, hreply, hbuild, hc⟩ | ⟨_, hw, -, -⟩
      · rw [hc] at hn ⊢
        cases n with
        | zero => simp at hn
        | succ n =>
            rw [List.getElem?_cons_succ] at hn
            obtain ⟨m, hm, now, raw, a, b, c, d, rest, frame, env, plain, hin, hreply, hout, honly,
              hrest⟩ := ih hs hn
            refine ⟨m + 1, by omega, now, raw, a, b, c, d, rest, frame, env, plain, hin, hreply, hout,
              ?_, hrest⟩
            intro k written hk
            cases k with
            | zero => simp at hk
            | succ k => rw [honly k written hk]
      · rw [hc] at hn ⊢
        cases n with
        | zero => simp at hn
        | succ n =>
            obtain ⟨frame, env, plain, rfl, hparse, hcmd, hdec, hplain⟩ := actuation_frame hC hbuild
            refine ⟨0, by omega, input.1, input.2, a, b, c, d, rest, frame, env, plain, rfl, hreply,
              rfl, ?_, hparse, hcmd, hdec, hplain, self.unlockKey.add_get_ne _⟩
            intro k written hk
            cases k with
            | zero => rfl
            | succ k =>
                rw [List.getElem?_cons_succ] at hk
                exact absurd rfl (no_write (by simp) inputs _ (List.mem_of_getElem? hk) written)
      · exact absurd hw hs

/-- `Done` answers the frame with the operation's own reply. -/
theorem reply_of_done {self : ActuateOp} {inputs : List (Int × List UInt8)} {n : Nat}
    (hn : (Mealy.outputs (operation C).handle self inputs)[n]? = some (.ok (.done ()))) :
    ∃ input data, inputs[n]? = some input ∧
      Reply C self.aesKey self.commandType input.2 data := by
  -- no call changes the key or the command
  have hkept : ∀ (s : ActuateOp) (i : Int × List UInt8),
      s.aesKey = self.aesKey ∧ s.commandType = self.commandType →
      ((operation C).handle s i).2.aesKey = self.aesKey ∧
        ((operation C).handle s i).2.commandType = self.commandType := by
    intro s i hs
    show ((handleFrame C i.1 i.2).call s).2.aesKey = _ ∧
      ((handleFrame C i.1 i.2).call s).2.commandType = _
    rcases s.handleFrame_cases i.1 i.2 with ⟨e, hc⟩ | ⟨_, _, _, _, _, _, -, -, -, hc⟩ |
      ⟨_, -, -, hc⟩ <;> rw [hc] <;> exact hs
  obtain ⟨s, input, ⟨hkey, hcmd⟩, hin, hout⟩ := Operation.done_at hkept ⟨rfl, rfl⟩ hn
  change ((handleFrame C input.1 input.2).call s).1 = _ at hout
  rcases s.handleFrame_cases input.1 input.2 with ⟨e, hc⟩ | ⟨_, _, _, _, _, _, -, -, -, hc⟩ |
    ⟨data, -, hreply, -⟩
  · rw [hc] at hout; cases hout
  · rw [hc] at hout; cases hout
  · exact ⟨input, data, hin, hkey ▸ hcmd ▸ hreply⟩

end ActuateOp

theorem LockState.ofByte_eq_locked {value : UInt8} (h : LockState.ofByte value = .locked) :
    value = 0 := by
  unfold ofByte at h
  split at h
  · next hv => exact hv
  · split at h <;> cases h

theorem LockState.ofByte_eq_unlocked {value : UInt8} (h : LockState.ofByte value = .unlocked) :
    value = 1 := by
  unfold ofByte at h
  split at h
  · cases h
  · split at h
    · next hv => exact hv
    · cases h

theorem StatusOp.reply_of_done {self : StatusOp} {inputs : List (Int × List UInt8)} {n : Nat}
    {out : LockState}
    (hn : (Mealy.outputs (operation C).handle self inputs)[n]? = some (.ok (.done out))) :
    ∃ input data, inputs[n]? = some input ∧
      Reply C self.aesKey COMM_SEARCH_BICYCLE_STATUS input.2 data ∧
      (out = .locked → data[1]? = some 0) ∧ (out = .unlocked → data[1]? = some 1) := by
  have hkept : ∀ (s : StatusOp) (i : Int × List UInt8), s.aesKey = self.aesKey →
      ((operation C).handle s i).2.aesKey = self.aesKey := by
    intro s i hs
    show ((handleFrame C i.2).call s).2.aesKey = _
    rcases s.handleFrame_cases i.2 with ⟨e, hc⟩ | ⟨_, _, -, -, -, hc⟩ <;> rw [hc] <;> exact hs
  obtain ⟨s, input, hkey, hin, hout⟩ := Operation.done_at hkept rfl hn
  change ((handleFrame C input.2).call s).1 = _ at hout
  rcases s.handleFrame_cases input.2 with ⟨e, hc⟩ | ⟨data, value, -, hreply, hvalue, hc⟩
  · rw [hc] at hout; cases hout
  · rw [hc] at hout
    cases hout
    refine ⟨input, data, hin, hkey ▸ hreply, ?_, ?_⟩
    · intro h; rw [hvalue, LockState.ofByte_eq_locked h]
    · intro h; rw [hvalue, LockState.ofByte_eq_unlocked h]

theorem LogPageOp.reply_of_done {chrono : Chrono} {self : LogPageOp}
    {inputs : List (Int × List UInt8)} {n : Nat} {page : LogPage}
    (hn : (Mealy.outputs (operation C chrono).handle self inputs)[n]? = some (.ok (.done page))) :
    ∃ input data, inputs[n]? = some input ∧
      Reply C self.aesKey COMM_GET_OPERATE_LOG input.2 data := by
  have hkept : ∀ (s : LogPageOp) (i : Int × List UInt8), s.aesKey = self.aesKey →
      ((operation C chrono).handle s i).2.aesKey = self.aesKey := by
    intro s i hs
    show ((handleFrame C chrono i.2).call s).2.aesKey = _
    rcases s.handleFrame_cases chrono i.2 with ⟨e, hc⟩ | ⟨_, _, -, -, hc⟩ <;> rw [hc] <;> exact hs
  obtain ⟨s, input, hkey, hin, hout⟩ := Operation.done_at hkept rfl hn
  change ((handleFrame C chrono input.2).call s).1 = _ at hout
  rcases s.handleFrame_cases chrono input.2 with ⟨e, hc⟩ | ⟨data, out, -, hreply, hc⟩
  · rw [hc] at hout; cases hout
  · exact ⟨input, data, hin, hkey ▸ hreply⟩

/-- Starting changes neither the credentials nor the command, and skips no step. -/
theorem ActuateOp.started_new (commandType : UInt8) (aesKey : AesKey) (unlockKey : UnlockKey)
    (version : LockVersion) :
    let s := (operation C).started (new commandType aesKey unlockKey version)
    s.aesKey = aesKey ∧ s.unlockKey = unlockKey ∧ s.commandType = commandType ∧
      s.state ≠ .awaitingActuate := by
  intro s
  have hs : s = ((start C).call (new commandType aesKey unlockKey version)).2 := rfl
  rw [call_start] at hs
  rcases hb : (new commandType aesKey unlockKey version).request.build C with e | frame <;>
    rw [hs, hb] <;> exact ⟨rfl, rfl, rfl, by simp [new]⟩

theorem StatusOp.started_new (aesKey : AesKey) (version : LockVersion) :
    ((operation C).started (new aesKey version)).aesKey = aesKey := by
  have hs : (operation C).started (new aesKey version) = ((start C).call (new aesKey version)).2 := rfl
  rw [hs, call_start]
  rcases (new aesKey version).request.build C with e | frame <;> rfl

theorem LogPageOp.started_new (chrono : Chrono) (aesKey : AesKey) (version : LockVersion)
    (cursor : LogCursor) :
    ((operation C chrono).started (new aesKey version cursor)).aesKey = aesKey := by
  have hs : (operation C chrono).started (new aesKey version cursor)
      = ((start C).call (new aesKey version cursor)).2 := rfl
  rw [hs, call_start]
  rcases (new aesKey version cursor).request.build C with e | frame <;> rfl

theorem ActuateOp.done_of_started (hC : C.Lawful) (commandType : UInt8) (aesKey : AesKey)
    (unlockKey : UnlockKey) (version : LockVersion) {inputs : List (Int × List UInt8)} {n : Nat} :
    let outs := Mealy.outputs (operation C).handle
      ((operation C).started (new commandType aesKey unlockKey version)) inputs
    outs[n]? = some (.ok (.done ())) →
      (∃ input data, inputs[n]? = some input ∧ Reply C aesKey commandType input.2 data) ∧
      Actuated C aesKey unlockKey commandType inputs outs n := by
  intro outs hn
  obtain ⟨hkey, hunlock, hcmd, hstate⟩ := started_new (C := C) commandType aesKey unlockKey version
  have hreply := reply_of_done hn
  have hactuated := actuated_of_done hC hstate hn
  rw [hkey, hcmd] at hreply
  rw [hkey, hunlock, hcmd] at hactuated
  exact ⟨hreply, hactuated⟩

/-- **Operations complete only on an authentic, matching, successful reply.** After one `start` and
    any frames whatsoever, a `Done` answers a frame that parses, passes its CRC and decrypts to the
    operation's own command and success; a status says locked or unlocked only on its own byte, and
    an actuation also rests on a challenge answered before. -/
theorem done_only_on_authentic_reply (hC : C.Lawful) (chrono : Chrono) (aesKey : AesKey)
    (unlockKey : UnlockKey) (version : LockVersion) (cursor : LogCursor)
    (inputs : List (Int × List UInt8)) (n : Nat) :
    (∀ out, (Mealy.outputs (StatusOp.operation C).handle
        ((StatusOp.operation C).started (StatusOp.new aesKey version)) inputs)[n]?
          = some (.ok (.done out)) →
      ∃ input data, inputs[n]? = some input ∧ Reply C aesKey 0x14 input.2 data ∧
        (out = .locked → data[1]? = some 0) ∧ (out = .unlocked → data[1]? = some 1)) ∧
    (∀ page, (Mealy.outputs (LogPageOp.operation C chrono).handle
        ((LogPageOp.operation C chrono).started (LogPageOp.new aesKey version cursor)) inputs)[n]?
          = some (.ok (.done page)) →
      ∃ input data, inputs[n]? = some input ∧ Reply C aesKey 0x25 input.2 data) ∧
    (let outs := Mealy.outputs (LockOp.operation C).handle
        ((LockOp.operation C).started (LockOp.new aesKey unlockKey version)) inputs
     outs[n]? = some (.ok (.done ())) →
      (∃ input data, inputs[n]? = some input ∧ Reply C aesKey 0x58 input.2 data) ∧
      Actuated C aesKey unlockKey 0x58 inputs outs n) ∧
    (let outs := Mealy.outputs (UnlockOp.operation C).handle
        ((UnlockOp.operation C).started (UnlockOp.new aesKey unlockKey version)) inputs
     outs[n]? = some (.ok (.done ())) →
      (∃ input data, inputs[n]? = some input ∧ Reply C aesKey 0x47 input.2 data) ∧
      Actuated C aesKey unlockKey 0x47 inputs outs n) := by
  refine ⟨?_, ?_, ?_, ?_⟩
  · intro out hn
    have h := StatusOp.reply_of_done hn
    rwa [StatusOp.started_new] at h
  · intro page hn
    have h := LogPageOp.reply_of_done hn
    rwa [LogPageOp.started_new] at h
  · exact ActuateOp.done_of_started hC COMM_FUNCTION_LOCK aesKey unlockKey version
  · exact ActuateOp.done_of_started hC COMM_UNLOCK aesKey unlockKey version

/-- A key, and the frames a lock that holds it answers with. -/
def sampleKey : AesKey := ⟨Vector.replicate 16 7⟩

def sampleReply (plaintext : List UInt8) : List UInt8 :=
  WireCommand.frame aes128Cbc
    { version := .default, commandType := COMM_RESPONSE, aesKey := sampleKey, plaintext }

/-- A lock exchange with a stray unlock reply in the middle. -/
theorem done_only_on_authentic_reply_locked :
    let inputs := [(0, sampleReply [0x55, 1, 0, 0, 0, 9]), (0, sampleReply [0x47, 1]),
      (0, sampleReply [0x58, 1, 0])]
    let outs := Mealy.outputs (LockOp.operation aes128Cbc).handle
      ((LockOp.operation aes128Cbc).started (LockOp.new sampleKey ⟨5, by decide⟩ .default)) inputs
    outs[2]? = some (.ok (.done ())) ∧
      (∃ input data, inputs[2]? = some input ∧ Reply aes128Cbc sampleKey 0x58 input.2 data) ∧
      Actuated aes128Cbc sampleKey ⟨5, by decide⟩ 0x58 inputs outs 2 := by
  intro inputs outs
  have hdone : outs[2]? = some (.ok (.done ())) := by decide +kernel
  exact ⟨hdone, (done_only_on_authentic_reply aes128Cbc_lawful ⟨fun _ _ _ => true, fun _ _ _ => true⟩
    sampleKey ⟨5, by decide⟩ .default .beginning inputs 2).2.2.1 hdone⟩

end TTLock
