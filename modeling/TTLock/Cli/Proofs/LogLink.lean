import TTLock.Cli.LogLink
import TTLock.Cli.Proofs.Transport
import TTLock.Core.Proofs.Crc

set_option autoImplicit false

/-! # Reading one page over a disturbed link

Whatever the link does in a step within the policy's bounds, one page is read. It is made of the reply
that comes through, which is as many replies into the queue as were spoilt in that step
(`readPage_disturbed`); a spoilt push costs a request but no reply. -/

namespace TTLock

variable {C : Cipher} {chrono : Chrono} {aesKey : AesKey}

/-! ## What a page read makes of a frame -/

/-- What an awaiting `LogPageOp` makes of a frame. -/
def pageOf (C : Cipher) (chrono : Chrono) (aesKey : AesKey) (raw : List UInt8) :
    Except TtlockError LogPage :=
  match decryptResponse C raw aesKey with
  | .error e => .error e
  | .ok plain => match parseSuccessResponse plain COMM_GET_OPERATE_LOG with
    | .error e => .error e
    | .ok () => parsePage chrono plain.data

theorem LogPageOp.call_awaiting (C : Cipher) (chrono : Chrono) {self : LogPageOp}
    (hself : self.awaitingResponse = true) (now : Int) (raw : List UInt8) :
    ((operation C chrono).handleFrame now raw).call self =
      match pageOf C chrono self.aesKey raw with
      | .error e => (.error e, self)
      | .ok page => (.ok (.done page), { self with awaitingResponse := false }) := by
  show (handleFrame C chrono raw).call self = _
  rw [call_handleFrame, if_pos hself, pageOf]
  rcases decryptResponse C raw self.aesKey with e | plain
  · rfl
  · dsimp only
    rcases parseSuccessResponse plain COMM_GET_OPERATE_LOG with e | _ <;> rfl

/-- A frame whose CRC is right. -/
def Intact (raw : List UInt8) : Prop :=
  ∃ env, Envelope.parse raw = .ok env ∧ env.ensureCrc = .ok ()

/-- A reply that refuses the cursor. -/
def Refusal (C : Cipher) (aesKey : AesKey) (raw : List UInt8) : Prop :=
  ∃ plain, decryptResponse C raw aesKey = .ok plain ∧ plain.commandType = COMM_GET_OPERATE_LOG ∧
    plain.response ≠ 1

/-- A frame that is no reply to a page read: it decrypts to another command. -/
def IsPush (C : Cipher) (aesKey : AesKey) (raw : List UInt8) : Prop :=
  ∃ plain, decryptResponse C raw aesKey = .ok plain ∧ plain.commandType ≠ COMM_GET_OPERATE_LOG

/-- A reply to a page read, with a page or with a refusal. -/
def Replies (C : Cipher) (chrono : Chrono) (aesKey : AesKey) (raw : List UInt8) : Prop :=
  (∃ page, pageOf C chrono aesKey raw = .ok page) ∨ Refusal C aesKey raw

theorem intact_of_decryptResponse {raw : List UInt8} {plain : PlainCommand}
    (h : decryptResponse C raw aesKey = .ok plain) : Intact raw := by
  unfold decryptResponse at h
  rcases hp : Envelope.parse raw with e | env
  · rw [hp] at h
    cases h
  · rw [hp] at h
    rcases hcrc : env.ensureCrc with e | ⟨⟩
    · simp only [bind, Except.bind, hcrc] at h
      cases h
    · exact ⟨env, hp, hcrc⟩

theorem IsPush.intact {raw : List UInt8} (h : IsPush C aesKey raw) : Intact raw := by
  obtain ⟨plain, hd, -⟩ := h
  exact intact_of_decryptResponse hd

theorem IsPush.pageOf_eq {raw : List UInt8} (h : IsPush C aesKey raw) (chrono : Chrono) :
    ∃ actual, pageOf C chrono aesKey raw =
      .error (.unexpectedCommand COMM_GET_OPERATE_LOG actual) := by
  obtain ⟨plain, hd, hne⟩ := h
  refine ⟨plain.commandType, ?_⟩
  rw [pageOf, hd]
  simp only [parseSuccessResponse, ne_eq, hne, not_false_eq_true, if_true]

theorem Refusal.pageOf_eq {raw : List UInt8} (h : Refusal C aesKey raw) (chrono : Chrono) :
    ∃ response, pageOf C chrono aesKey raw = .error (.commandFailed COMM_GET_OPERATE_LOG response) := by
  obtain ⟨plain, hd, hcommand, hresponse⟩ := h
  refine ⟨plain.response, ?_⟩
  rw [pageOf, hd]
  simp only [parseSuccessResponse, hcommand, ne_eq, not_true_eq_false, hresponse, if_false]

theorem Replies.intact {raw : List UInt8} (h : Replies C chrono aesKey raw) : Intact raw := by
  rcases h with ⟨page, h⟩ | ⟨plain, hd, -⟩
  · unfold pageOf at h
    rcases hd : decryptResponse C raw aesKey with e | plain
    · rw [hd] at h
      cases h
    · exact intact_of_decryptResponse hd
  · exact intact_of_decryptResponse hd

/-- A spoilt frame fails its CRC check. -/
theorem pageOf_spoil {raw : List UInt8} (h : Intact raw) {mask : UInt8} (hmask : mask ≠ 0)
    (chrono : Chrono) (aesKey : AesKey) :
    ∃ observed computed, pageOf C chrono aesKey (LogLink.spoil raw mask) =
      .error (.crcMismatch observed computed) := by
  obtain ⟨env, hparse, hcrc⟩ := h
  obtain ⟨hlen, hmagic, hend, hat, hcomputed⟩ := Envelope.parse_crc hparse
  have hspoil : LogLink.spoil raw mask = raw.modify (covered raw) (· ^^^ mask) := rfl
  have h11 : (LogLink.spoil raw mask)[11]? = raw[11]? := by
    rw [hspoil, List.getElem?_modify_ne _ _ (by unfold covered; omega)]
  have hcovered : covered (LogLink.spoil raw mask) = covered raw := by rw [covered, h11, covered]
  have htake : ∀ n ≤ covered raw, (LogLink.spoil raw mask).take n = raw.take n := by
    intro n hn
    rw [hspoil, List.take_modify, List.modify_eq_self]
    rw [List.length_take]
    omega
  obtain ⟨env', hparse'⟩ : ∃ env', Envelope.parse (LogLink.spoil raw mask) = .ok env' := by
    refine Envelope.parse_ok ?_ ?_ ?_
    · rw [hspoil, List.length_modify]
      exact hlen
    · rw [htake 2 (by unfold covered; omega), hmagic]
    · rw [hcovered, hspoil, List.length_modify]
      exact hend
  obtain ⟨-, -, -, hat', hcomputed'⟩ := Envelope.parse_crc hparse'
  rw [hcovered] at hat' hcomputed'
  have hne : env'.crc ≠ env'.computedCrc := by
    rw [hcomputed', htake _ (Nat.le_refl _), ← hcomputed, ← Envelope.ensureCrc_ok hcrc]
    rw [hspoil, List.getElem?_modify_eq, hat] at hat'
    have hcrc' : env.crc ^^^ mask = env'.crc := Option.some.inj hat'
    rw [← hcrc']
    intro heq
    exact hmask ((UInt8.xor_right_inj env.crc).1 (heq.trans UInt8.xor_zero.symm))
  exact ⟨_, _, by rw [pageOf, decryptResponse_crcMismatch hparse' hne]⟩

/-! ## What a link does in a step -/

namespace Disturbance

/-- What is pushed is no reply to a page read, and a mask does spoil. -/
def Valid (C : Cipher) (aesKey : AesKey) : Disturbance → Prop
  | push raw => IsPush C aesKey raw
  | spoiltPush raw mask => IsPush C aesKey raw ∧ mask ≠ 0
  | spoiltReply mask => mask ≠ 0

def isPush : Disturbance → Bool
  | push _ => true
  | spoiltPush _ _ | spoiltReply _ => false

def isSpoiltPush : Disturbance → Bool
  | spoiltPush _ _ => true
  | push _ | spoiltReply _ => false

def isSpoiltReply : Disturbance → Bool
  | spoiltReply _ => true
  | push _ | spoiltPush _ _ => false

end Disturbance

open Disturbance

/-- What a link does in a step is within what the policy puts up with. -/
structure Bearable (C : Cipher) (aesKey : AesKey) (coming : List Disturbance) : Prop where
  valid : ∀ d ∈ coming, d.Valid C aesKey
  pushes : coming.countP isPush ≤ MAX_STRAY_FRAMES
  spoilt : coming.countP isSpoiltPush + coming.countP isSpoiltReply ≤ CRC_RETRIES

/-- How the lock answers when it is asked for `cursor` so many more times. -/
def answers (lock : List UInt16 → List UInt8) (cursor : UInt16) :
    (times : Nat) → (cursors : List UInt16) → List (List UInt8)
  | 0, _ => []
  | times + 1, cursors => lock (cursor :: cursors) :: answers lock cursor times (cursor :: cursors)

/-! ## One read -/

/-- The value of a cursor on the wire. -/
def LogCursor.value : LogCursor → UInt16
  | .beginning => 0
  | .after sequence => sequence.get
  | .sinceLastRead => Sequence.SENTINEL

/-- A `LogPageOp` starts with a frame that asks for its cursor. -/
theorem LogPageOp.requests (hC : C.Lawful) (aesKey : AesKey) (version : LockVersion)
    (cursor : LogCursor) :
    ∃ frame, (start C).call (new aesKey version cursor) =
        (.ok (.write frame), { new aesKey version cursor with awaitingResponse := true }) ∧
      LogLink.requestedCursor C aesKey frame = .ok cursor.value := by
  have hplain : (new aesKey version cursor).request.plaintext = BigEndian.toBytes16 cursor.value := by
    cases cursor <;> rfl
  have hlen : ((new aesKey version cursor).request.encrypted C).length ≤ 255 := by
    rw [WireCommand.length_encrypted_le hC, hplain, BigEndian.length_toBytes16]
    decide
  refine ⟨(new aesKey version cursor).request.frame C ++ CRLF, ?_, ?_⟩
  · rw [call_start, WireCommand.build_def, if_pos hlen]
  · have hnat : ((new aesKey version cursor).request.encrypted C).length =
        (UInt8.ofNat ((new aesKey version cursor).request.encrypted C).length).toNat := by
      rw [UInt8.toNat_ofNat', Nat.mod_eq_of_lt (by omega)]
    have hparse := fun p v s g₁ g₀ o₁ o₀ commandType crc =>
      Envelope.parse_cons p v s g₁ g₀ o₁ o₀ commandType APP_COMMAND _ crc
        ((new aesKey version cursor).request.encrypted C) CRLF hnat
    have hframe : (new aesKey version cursor).request.frame C ++ CRLF =
        (new aesKey version cursor).request.body C ++
          crc8 ((new aesKey version cursor).request.body C) :: CRLF := by
      rw [WireCommand.frame, List.append_assoc]
      rfl
    have hdecrypt : aesDecrypt C ((new aesKey version cursor).request.encrypted C) aesKey =
        .ok (BigEndian.toBytes16 cursor.value) := by
      rw [← hplain]
      exact aesDecrypt_aesEncrypt hC _ aesKey
    obtain ⟨env, henv, hdata⟩ : ∃ env, Envelope.parse ((new aesKey version cursor).request.frame C ++
        CRLF) = .ok env ∧ env.data = (new aesKey version cursor).request.encrypted C :=
      ⟨_, (congrArg Envelope.parse hframe).trans (hparse _ _ _ _ _ _ _ _ _), rfl⟩
    rw [LogLink.requestedCursor, henv]
    show (aesDecrypt C env.data aesKey >>= _) = _
    rw [hdata, hdecrypt]
    exact congrArg Except.ok (BigEndian.ofBytes16_toBytes16 cursor.value)

/-- What the exchange of a page read comes to when this reply comes through. -/
def stepOf : Except TtlockError LogPage → Except CliError (Step LogPage)
  | .ok page => .ok (.done page)
  | .error e => .error (.core e)

namespace LogLink

open Transport

section

variable {lock : List UInt16 → List UInt8} {frame : List UInt8} {cursor : UInt16}

theorem exchange_eq (hframe : requestedCursor C aesKey frame = .ok cursor)
    (noise : Nat → List Disturbance) (crcLeft strayLeft : Nat)
    (self : LogPageOp) (link : LogLink) :
    let L := transport C aesKey lock noise
    let op := LogPageOp.operation C chrono
    exchange L op frame crcLeft strayLeft self link =
      readReply L op (resendOf op L frame crcLeft) strayLeft self
        { link with
          cursors := cursor :: link.cursors
          inFlight := link.inFlight ++ [lock (cursor :: link.cursors)] } := by
  intro L op
  have hwrite : L.writeFrame frame link = (.ok (), { link with
      cursors := cursor :: link.cursors
      inFlight := link.inFlight ++ [lock (cursor :: link.cursors)] }) := by
    show LogLink.writeFrame C aesKey lock frame link = _
    rw [LogLink.writeFrame, hframe]
  cases crcLeft with
  | zero =>
      rw [exchange, hwrite]
      rfl
  | succ left =>
      rw [exchange, hwrite]
      rfl

section

variable {noise : Nat → List Disturbance} {raw : List UInt8} {strayLeft crcLeft : Nat}
  {self : LogPageOp} (hself : self.awaitingResponse = true) (hkey : self.aesKey = aesKey)
  {link link' : LogLink}
  (hread : (transport C aesKey lock noise).nextFrame link = (.ok (0, raw), link'))

include hself hkey hread

/-- A reply ends the read. -/
theorem readReply_replied (hreplies : Replies C chrono aesKey raw)
    (resend : Option (Nat → LogPageOp → LogLink → Except CliError (Step LogPage) × LogPageOp × LogLink)) :
    ∃ self', readReply (transport C aesKey lock noise) (LogPageOp.operation C chrono) resend strayLeft
      self link = (stepOf (pageOf C chrono aesKey raw), self', link') := by
  have hc := LogPageOp.call_awaiting C chrono hself 0 raw
  rw [hkey] at hc
  rcases hreplies with ⟨page, hpage⟩ | hrefusal
  · rw [hpage] at hc
    exact ⟨_, by rw [readReply_ok hread hc, hpage]; rfl⟩
  · obtain ⟨response, hpage⟩ := hrefusal.pageOf_eq chrono
    rw [hpage] at hc
    exact ⟨_, by rw [readReply_refused hread hc, hpage]; rfl⟩

/-- A push is skipped. -/
theorem readReply_pushed (hpush : IsPush C aesKey raw)
    (resend : Option (Nat → LogPageOp → LogLink → Except CliError (Step LogPage) × LogPageOp × LogLink)) :
    let L := transport C aesKey lock noise
    let op := LogPageOp.operation C chrono
    readReply L op resend (strayLeft + 1) self link = readReply L op resend strayLeft self link' := by
  intro L op
  obtain ⟨actual, hpage⟩ := hpush.pageOf_eq chrono
  have hc := LogPageOp.call_awaiting C chrono hself 0 raw
  rw [hkey, hpage] at hc
  rw [readReply_refused hread hc]
  rfl

/-- A frame with a wrong CRC has the request sent again. -/
theorem readReply_spoilt (hframe : requestedCursor C aesKey frame = .ok cursor) {observed computed : UInt8}
    (hpage : pageOf C chrono aesKey raw = .error (.crcMismatch observed computed)) :
    let L := transport C aesKey lock noise
    let op := LogPageOp.operation C chrono
    readReply L op (resendOf op L frame (crcLeft + 1)) strayLeft self link =
      readReply L op (resendOf op L frame crcLeft) strayLeft self
        { link' with
          cursors := cursor :: link'.cursors
          inFlight := link'.inFlight ++ [lock (cursor :: link'.cursors)] } := by
  intro L op
  have hc := LogPageOp.call_awaiting C chrono hself 0 raw
  rw [hkey, hpage] at hc
  rw [readReply_refused hread hc]
  simp only [TtlockError.isStaleFrame, TtlockError.isRetryable, resendOf]
  exact exchange_eq hframe noise crcLeft strayLeft self link'

end

/-- **One read over a disturbed link.** The induction is on what is still to happen in the step: every
    spoilt frame is answered by a re-send, which adds a reply at the end of the queue, and a spoilt
    reply takes one from its front. -/
theorem readReply_disturbed (hframe : requestedCursor C aesKey frame = .ok cursor)
    (hlock : ∀ cursor cursors, Intact (lock (cursor :: cursors))) (noise : Nat → List Disturbance)
    {coming : List Disturbance}
    (hvalid : ∀ d ∈ coming, d.Valid C aesKey) {strayLeft crcLeft : Nat}
    (hstray : coming.countP isPush ≤ strayLeft)
    (hspoilt : coming.countP isSpoiltPush + coming.countP isSpoiltReply ≤ crcLeft)
    (cursors : List UInt16) (hhead : cursors.headD 0 = cursor) {inFlight : List (List UInt8)}
    (hne : inFlight ≠ []) (hintact : ∀ r ∈ inFlight, Intact r) {raw : List UInt8}
    {rest : List (List UInt8)}
    (hraw : (inFlight ++ answers lock cursor
      (coming.countP isSpoiltPush + coming.countP isSpoiltReply) cursors).drop
        (coming.countP isSpoiltReply) = raw :: rest)
    (hreplies : Replies C chrono aesKey raw) (self : LogPageOp) (hself : self.awaitingResponse = true)
    (hkey : self.aesKey = aesKey) (step : Nat) (answered : List (UInt16 × List UInt8)) :
    let L := transport C aesKey lock noise
    let op := LogPageOp.operation C chrono
    ∃ self', readReply L op (resendOf op L frame crcLeft) strayLeft self
        ⟨cursors, inFlight, step, coming, answered⟩ =
      (stepOf (pageOf C chrono aesKey raw), self',
        ⟨List.replicate (coming.countP isSpoiltPush + coming.countP isSpoiltReply) cursor ++ cursors,
          rest, step + 1, noise (step + 1), answered ++ [(cursor, raw)]⟩) := by
  intro L op
  induction coming generalizing strayLeft crcLeft cursors inFlight with
  | nil =>
      obtain ⟨reply, tail, rfl⟩ := List.exists_cons_of_ne_nil hne
      simp only [List.countP_nil, Nat.add_zero, answers, List.append_nil, List.drop_zero] at hraw
      obtain ⟨rfl, rfl⟩ := List.cons.inj hraw
      have hread : L.nextFrame ⟨cursors, reply :: tail, step, [], answered⟩ =
          (.ok (0, reply), ⟨cursors, tail, step + 1, noise (step + 1), answered ++ [(cursor, reply)]⟩) := by
        show LogLink.nextFrame noise ⟨cursors, reply :: tail, step, [], answered⟩ = _
        simp only [LogLink.nextFrame, hhead]
      exact readReply_replied hself hkey hread hreplies _
  | cons d coming ih =>
      obtain ⟨hd, hcoming⟩ := List.forall_mem_cons.1 hvalid
      have hreplicate : ∀ n, List.replicate (n + 1) cursor ++ cursors =
          List.replicate n cursor ++ cursor :: cursors := by
        intro n
        rw [List.replicate_succ', List.append_assoc]
        rfl
      have hmore : ∀ {q : List (List UInt8)}, (∀ r ∈ q, Intact r) →
          ∀ r ∈ q ++ [lock (cursor :: cursors)], Intact r := by
        intro q hq r hr
        rcases List.mem_append.1 hr with hr | hr
        · exact hq r hr
        · rw [List.mem_singleton.1 hr]
          exact hlock _ _
      cases d with
      | push push =>
          simp only [List.countP_cons, isPush, isSpoiltPush, isSpoiltReply, if_true,
            Bool.false_eq_true, if_false, Nat.add_zero] at hstray hspoilt hraw ⊢
          obtain ⟨left, rfl⟩ : ∃ left, strayLeft = left + 1 := ⟨strayLeft - 1, by omega⟩
          obtain ⟨self', h⟩ := ih hcoming (Nat.le_of_succ_le_succ hstray) hspoilt _ hhead hne hintact hraw
          exact ⟨self', (readReply_pushed hself hkey rfl hd _).trans h⟩
      | spoiltPush push mask =>
          simp only [List.countP_cons, isPush, isSpoiltPush, isSpoiltReply, if_true,
            Bool.false_eq_true, if_false, Nat.add_zero, Nat.add_right_comm _ 1] at hstray hspoilt hraw ⊢
          obtain ⟨left, rfl⟩ : ∃ left, crcLeft = left + 1 := ⟨crcLeft - 1, by omega⟩
          obtain ⟨observed, computed, hpage⟩ := pageOf_spoil (C := C) hd.1.intact hd.2 chrono aesKey
          rw [answers, List.append_cons] at hraw
          obtain ⟨self', h⟩ := ih hcoming hstray (Nat.le_of_succ_le_succ hspoilt) _ rfl
            (by simp) (hmore hintact) hraw
          rw [hreplicate]
          exact ⟨self', (readReply_spoilt hself hkey rfl hframe hpage).trans h⟩
      | spoiltReply mask =>
          simp only [List.countP_cons, isPush, isSpoiltPush, isSpoiltReply, if_true,
            Bool.false_eq_true, if_false, Nat.add_zero, ← Nat.add_assoc] at hstray hspoilt hraw ⊢
          obtain ⟨left, rfl⟩ : ∃ left, crcLeft = left + 1 := ⟨crcLeft - 1, by omega⟩
          obtain ⟨reply, tail, rfl⟩ := List.exists_cons_of_ne_nil hne
          obtain ⟨hreply, htail⟩ := List.forall_mem_cons.1 hintact
          obtain ⟨observed, computed, hpage⟩ := pageOf_spoil (C := C) hreply hd chrono aesKey
          rw [List.cons_append, List.drop_succ_cons, answers, List.append_cons] at hraw
          obtain ⟨self', h⟩ := ih hcoming hstray (Nat.le_of_succ_le_succ hspoilt) _ rfl
            (by simp) (hmore htail) hraw
          rw [hreplicate]
          exact ⟨self', (readReply_spoilt hself hkey rfl hframe hpage).trans h⟩

end

/-- **One page over a disturbed link** is what the reply that comes through says. -/
theorem readPage_disturbed (hC : C.Lawful) {lock : List UInt16 → List UInt8}
    (hlock : ∀ cursor cursors, Intact (lock (cursor :: cursors))) (noise : Nat → List Disturbance)
    (version : LockVersion) (cursor : LogCursor) {link : LogLink} (hbear : Bearable C aesKey link.coming)
    (hintact : ∀ r ∈ link.inFlight, Intact r) {raw : List UInt8} {rest : List (List UInt8)}
    (hraw : (link.inFlight ++ answers lock cursor.value
      (link.coming.countP isSpoiltPush + link.coming.countP isSpoiltReply + 1) link.cursors).drop
        (link.coming.countP isSpoiltReply) = raw :: rest)
    (hreplies : Replies C chrono aesKey raw) :
    Oplog.readPage C chrono (transport C aesKey lock noise) aesKey version cursor link =
      some ((pageOf C chrono aesKey raw).mapError .core,
        ⟨List.replicate (link.coming.countP isSpoiltPush + link.coming.countP isSpoiltReply + 1)
            cursor.value ++ link.cursors,
          rest, link.step + 1, noise (link.step + 1), link.answered ++ [(cursor.value, raw)]⟩) := by
  obtain ⟨frame, hstart, hframe⟩ := LogPageOp.requests hC aesKey version cursor
  rw [answers, List.append_cons] at hraw
  have hfirst : ∀ r ∈ link.inFlight ++ [lock (cursor.value :: link.cursors)], Intact r := by
    intro r hr
    rcases List.mem_append.1 hr with hr | hr
    · exact hintact r hr
    · rw [List.mem_singleton.1 hr]
      exact hlock _ _
  obtain ⟨self', hread⟩ := readReply_disturbed hframe hlock noise hbear.valid hbear.pushes hbear.spoilt
    (cursor.value :: link.cursors) rfl (by simp) hfirst hraw hreplies
    { LogPageOp.new aesKey version cursor with awaitingResponse := true } rfl rfl link.step link.answered
  rw [Oplog.readPage, Transport.runOp, show (LogPageOp.operation C chrono).start = LogPageOp.start C
    from rfl, hstart]
  dsimp only
  rw [drive_write, exchange_eq hframe noise, hread, List.replicate_succ', List.append_assoc]
  rcases pageOf C chrono aesKey raw with e | page <;> rfl

end LogLink

end TTLock
