import TTLock.Cli.Proofs.LockSafety

set_option autoImplicit false

/-! # What an actuation comes to

If every frame reaches the lock and each exchange is answered in the end, with no more noise before than
the policy puts up with, the run ends as the lock decides (`actuation_outcome`). What is repeated on the
way has the lock repeat itself: a request that is sent again draws another challenge, and it is the last
one drawn that the lock compares with. -/

namespace TTLock

/-- What an exchange that waits for a reply to `command` discards a frame for, or sends its own again for. -/
def frameKind (C : Cipher) (aesKey : AesKey) (command : UInt8) (raw : List UInt8) : Option Retry.Kind :=
  match decryptResponse C raw aesKey with
  | .error (.crcMismatch _ _) => some .corrupt
  | .error _ => none
  | .ok plain => if plain.commandType = command then none else some .stray

/-- What a delivery brings, if the lock has given these replies. -/
def Delivery.frame (replies : List (List UInt8)) : Delivery → Option (List UInt8)
  | .reply _ number => replies[number]?
  | .other _ raw => some raw
  | .nothing | .broken => none

def Delivery.kind (C : Cipher) (aesKey : AesKey) (command : UInt8) (replies : List (List UInt8))
    (d : Delivery) : Option Retry.Kind := (d.frame replies).bind (frameKind C aesKey command)

/-- How many of these deliveries are of a kind. -/
def countKind (C : Cipher) (aesKey : AesKey) (command : UInt8) (replies : List (List UInt8))
    (kind : Retry.Kind) (ds : List Delivery) : Nat :=
  ds.countP fun d => d.kind C aesKey command replies = some kind

/-- Deliveries that an exchange bears before its reply. -/
structure Noise (C : Cipher) (aesKey : AesKey) (command : UInt8) (replies : List (List UInt8))
    (ds : List Delivery) : Prop where
  refused : ∀ d ∈ ds, (d.kind C aesKey command replies).isSome
  stray : countKind C aesKey command replies .stray ds ≤ MAX_STRAY_FRAMES
  corrupt : countKind C aesKey command replies .corrupt ds ≤ CRC_RETRIES

namespace LockLink

/-- The lock hears a command once more. -/
def hear (C : Cipher) (lock : PairedLock) (c : WireCommand) (link : LockLink) : LockLink :=
  { link with
    session := (lock.execute c link.session).2
    writes := link.writes + 1
    replies := link.replies ++ [lock.reply C c.commandType (lock.execute c link.session).1.1
      (lock.execute c link.session).1.2] }

variable {C : Cipher} {lock : PairedLock} {ε : Type} {timeout disconnected : ε}

/-- A link that loses nothing. -/
def lossless (C : Cipher) (lock : PairedLock) (timeout disconnected : ε) : Transport ε LockLink :=
  transport timeout disconnected C lock fun _ => .heard

theorem writeFrame_heard (hC : C.Lawful) {c : WireCommand} (hkey : c.aesKey = lock.aesKey)
    {frame : List UInt8} (hb : c.build C = .ok frame) (link : LockLink) :
    (lossless C lock timeout disconnected).writeFrame frame link = (.ok (), link.hear C lock c) := by
  show writeFrame disconnected C lock (fun _ => .heard) frame link = _
  unfold writeFrame
  rw [lock.receive_build hC hkey hb]
  rfl

/-- What it has heard does not depend on what is still to be delivered. -/
theorem hear_script (c : WireCommand) (link : LockLink) (script : List Delivery) :
    hear C lock c { link with script } = { hear C lock c link with script } := rfl

theorem nextFrame_frame (C : Cipher) (lock : PairedLock) (timeout disconnected : ε) {d : Delivery}
    {raw : List UInt8} {replies : List (List UInt8)} {link : LockLink} (hahead : replies <+: link.replies)
    (h : d.frame replies = some raw) (script : List Delivery) :
    ∃ now, (lossless C lock timeout disconnected).nextFrame { link with script := d :: script } =
      (.ok (now, raw), { link with script }) := by
  cases d with
  | nothing => cases h
  | broken => cases h
  | other now raw' =>
      cases h
      exact ⟨now, rfl⟩
  | reply now number =>
      obtain ⟨more, hmore⟩ := hahead
      have hget : link.replies[number]? = some raw := by
        change replies[number]? = some raw at h
        obtain ⟨hlt, -⟩ := List.getElem?_eq_some_iff.1 h
        rw [← hmore, List.getElem?_append_left hlt, h]
      refine ⟨now, ?_⟩
      show nextFrame timeout disconnected { link with script := .reply now number :: script } = _
      simp only [nextFrame, hget]

end LockLink

namespace ActuateOp

variable {C : Cipher} {self : ActuateOp} {command : UInt8} {raw : List UInt8}

theorem call_stray (ha : self.awaited = some command)
    (h : frameKind C self.aesKey command raw = some .stray) (now : Int) :
    ∃ actual, (handleFrame C now raw).call self = (.error (.unexpectedCommand command actual), self) := by
  unfold frameKind at h
  rcases hd : decryptResponse C raw self.aesKey with e | plain <;> rw [hd] at h
  · cases e <;> cases h
  · by_cases hc : plain.commandType = command
    · simp [hc] at h
    · exact ⟨_, call_unexpected ha now hd hc⟩

theorem call_corrupt (ha : self.awaited = some command)
    (h : frameKind C self.aesKey command raw = some .corrupt) (now : Int) :
    ∃ observed computed,
      (handleFrame C now raw).call self = (.error (.crcMismatch observed computed), self) := by
  unfold frameKind at h
  rcases hd : decryptResponse C raw self.aesKey with e | plain <;> rw [hd] at h
  · cases e <;> cases h
    exact ⟨_, _, call_undecrypted ha now hd⟩
  · by_cases hc : plain.commandType = command <;> simp [hc] at h

end ActuateOp

open LockLink Transport

variable {C : Cipher} {lock : PairedLock}

theorem exchange_heard (hC : C.Lawful) {c : WireCommand} (hkey : c.aesKey = lock.aesKey)
    {frame : List UInt8} (hb : c.build C = .ok frame) (crcLeft strayLeft : Nat) (self : ActuateOp)
    (link : LockLink) :
    let L := lossless C lock CliError.timeout .disconnected
    let op := ActuateOp.operation C
    exchange L op frame crcLeft strayLeft self link =
      readReply L op (resendOf op L frame crcLeft) strayLeft self (hear C lock c link) := by
  intro L op
  have hwrite : L.writeFrame frame link = (.ok (), hear C lock c link) :=
    writeFrame_heard hC hkey hb link
  cases crcLeft <;> rw [exchange, hwrite] <;> rfl

/-- **Noise is waited out.** The induction is on the deliveries: a stray one costs one of those that may
    be skipped, a corrupt one has the lock hear the command again. -/
theorem readReply_noise (hC : C.Lawful) {self : ActuateOp} {c : WireCommand}
    (hself : self.aesKey = lock.aesKey) (hkey : c.aesKey = lock.aesKey) {frame : List UInt8}
    (hb : c.build C = .ok frame) {command : UInt8} (ha : self.awaited = some command)
    {replies : List (List UInt8)} {ds : List Delivery}
    (hds : ∀ d ∈ ds, (d.kind C lock.aesKey command replies).isSome) {strayLeft crcLeft : Nat}
    (hstray : countKind C lock.aesKey command replies .stray ds ≤ strayLeft)
    (hcorrupt : countKind C lock.aesKey command replies .corrupt ds ≤ crcLeft) {link : LockLink}
    (hahead : replies <+: link.replies) (rest : List Delivery) :
    let L := lossless C lock CliError.timeout .disconnected
    let op := ActuateOp.operation C
    readReply L op (resendOf op L frame crcLeft) strayLeft self { link with script := ds ++ rest } =
      readReply L op
        (resendOf op L frame (crcLeft - countKind C lock.aesKey command replies .corrupt ds))
        (strayLeft - countKind C lock.aesKey command replies .stray ds) self
        { (hear C lock c)^[countKind C lock.aesKey command replies .corrupt ds] link with
          script := rest } := by
  intro L op
  induction ds generalizing strayLeft crcLeft link with
  | nil => rfl
  | cons d ds ih =>
      obtain ⟨hd, hds⟩ := List.forall_mem_cons.1 hds
      obtain ⟨raw, hraw, kind, hkind⟩ : ∃ raw, d.frame replies = some raw ∧
          ∃ kind, frameKind C lock.aesKey command raw = some kind := by
        obtain ⟨kind, hkind⟩ := Option.isSome_iff_exists.1 hd
        obtain ⟨raw, hraw, hkind⟩ := Option.bind_eq_some_iff.1 hkind
        exact ⟨raw, hraw, kind, hkind⟩
      have hdkind : d.kind C lock.aesKey command replies = some kind := by
        rw [Delivery.kind, hraw]
        exact hkind
      obtain ⟨now, hread⟩ := nextFrame_frame C lock CliError.timeout .disconnected hahead hraw (ds ++ rest)
      cases kind with
      | stray =>
          obtain ⟨actual, hc⟩ := ActuateOp.call_stray (C := C) ha (hself.symm ▸ hkind) now
          simp only [countKind, List.countP_cons, hdkind, decide_true, if_true, Option.some.injEq,
            reduceCtorEq, decide_false, if_false, Nat.add_zero, Bool.false_eq_true] at hstray hcorrupt ⊢
          obtain ⟨left, rfl⟩ : ∃ left, strayLeft = left + 1 := ⟨strayLeft - 1, by omega⟩
          rw [List.cons_append, readReply_refused hread hc, Nat.add_sub_add_right]
          exact ih hds (Nat.le_of_succ_le_succ hstray) hcorrupt hahead
      | corrupt =>
          obtain ⟨observed, computed, hc⟩ := ActuateOp.call_corrupt (C := C) ha (hself.symm ▸ hkind) now
          simp only [countKind, List.countP_cons, hdkind, decide_true, if_true, Option.some.injEq,
            reduceCtorEq, decide_false, if_false, Nat.add_zero, Bool.false_eq_true] at hstray hcorrupt ⊢
          obtain ⟨left, rfl⟩ : ∃ left, crcLeft = left + 1 := ⟨crcLeft - 1, by omega⟩
          rw [List.cons_append, readReply_refused hread hc, Nat.add_sub_add_right,
            Function.iterate_succ_apply]
          refine (exchange_heard hC hkey hb left strayLeft self _).trans ?_
          rw [hear_script]
          exact ih hds hstray (Nat.le_of_succ_le_succ hcorrupt) (hahead.trans (List.prefix_append ..))

/-! ## What the lock has said by then -/

theorem iterate_hear (c : WireCommand) (n : Nat) (link : LockLink) :
    let session := fun k => (fun s => (lock.execute c s).2)^[k] link.session
    (hear C lock c)^[n] link = { link with
      session := session n
      writes := link.writes + n
      replies := link.replies ++ (List.range n).map fun k =>
        lock.reply C c.commandType (lock.execute c (session k)).1.1 (lock.execute c (session k)).1.2 } := by
  intro session
  induction n with
  | zero => simp [session]
  | succ n ih =>
      rw [Function.iterate_succ_apply', ih, hear, List.range_succ, List.map_append]
      simp only [session, Function.iterate_succ_apply', List.append_assoc, List.map_cons, List.map_nil,
        Nat.add_assoc]

namespace PairedLock

/-- Each request of the right version draws one more challenge. -/
theorem iterate_request {c : WireCommand} (hc : c.commandType = COMM_CHECK_USER_TIME)
    (hv : c.version = lock.version) (session : LockSession) (k : Nat) :
    (fun s => (lock.execute c s).2)^[k] session = { session with issued := session.issued + k } := by
  induction k with
  | zero => rfl
  | succ k ih =>
      rw [Function.iterate_succ_apply', ih]
      show (lock.execute c _).2 = _
      rw [lock.execute_request hc, if_pos hv]
      rfl

/-- A command that changes nothing may be heard as often as it likes. -/
theorem iterate_fixed {c : WireCommand} {session : LockSession} {answer : UInt8 × List UInt8}
    (h : lock.execute c session = (answer, session)) (k : Nat) :
    (fun s => (lock.execute c s).2)^[k] session = session :=
  Function.iterate_fixed (congrArg Prod.snd h) k

/-- The session after the bolt was moved so often at this time. -/
def movedAt (action : Actuation) (now : Int) (session : LockSession) (k : Nat) : LockSession :=
  if k = 0 then session
  else { session with
    bolt := action.target, performed := session.performed ++ List.replicate k action, clock := timeOf now }

theorem iterate_actuation {action : Actuation} {op : ActuateOp}
    (hop : op.commandType = action.commandType) (hv : op.version = lock.version) (now : Int) (ps : UInt32)
    {session : LockSession} (hissued : session.issued ≠ 0)
    (hsum : ps + op.unlockKey.get = lock.challenge (session.issued - 1) + lock.unlockKey.get) (k : Nat) :
    (fun s => (lock.execute (op.actuation now ps) s).2)^[k] session = movedAt action now session k := by
  induction k with
  | zero => rfl
  | succ k ih =>
      have hissued' : (movedAt action now session k).issued = session.issued := by
        unfold movedAt
        split_ifs <;> rfl
      rw [Function.iterate_succ_apply', ih]
      show (lock.execute _ _).2 = _
      rw [lock.execute_actuation hop hv now ps (by rwa [hissued']), hissued', if_pos hsum]
      cases k with
      | zero => rfl
      | succ k => simp [movedAt, List.replicate_succ' (n := k + 1)]

end PairedLock

/-! ## A whole exchange -/

/-- What an exchange makes of the answer that ends it. -/
def closing {σ T τ : Type} (answer : Except TtlockError (Step T) × σ) (link : τ) :
    Except CliError (Step T) × σ × τ :=
  (answer.1.mapError .core, answer.2, link)

/-- **An exchange with noise** comes to what is made of the reply behind it. -/
theorem drive_replied (hC : C.Lawful) {self : ActuateOp} {c : WireCommand}
    (hself : self.aesKey = lock.aesKey) (hkey : c.aesKey = lock.aesKey) {frame : List UInt8}
    (hb : c.build C = .ok frame) {command : UInt8} (ha : self.awaited = some command)
    {replies : List (List UInt8)} {ds : List Delivery} (hnoise : Noise C lock.aesKey command replies ds)
    {n : Nat} (hn : n = countKind C lock.aesKey command replies .corrupt ds + 1) {link : LockLink}
    (hahead : replies <+: link.replies) {number : Nat} {raw : List UInt8}
    (hraw : ((hear C lock c)^[n] link).replies[number]? = some raw) {now : Int}
    {answer : Except TtlockError (Step Unit) × ActuateOp}
    (hc : (ActuateOp.handleFrame C now raw).call self = answer)
    (hanswer : ∀ e, answer.1 = .error e → e.isStaleFrame = false ∧ e.isRetryable = false)
    (rest : List Delivery) (fuel : Nat) :
    let L := lossless C lock CliError.timeout .disconnected
    let op := ActuateOp.operation C
    drive L op (fuel + 1) (.write frame) self
        { link with script := ds ++ Delivery.reply now number :: rest } =
      continued op L fuel (closing answer { (hear C lock c)^[n] link with script := rest }) := by
  intro L op
  subst hn
  have hheard := exchange_heard hC hkey hb CRC_RETRIES MAX_STRAY_FRAMES self
    { link with script := ds ++ Delivery.reply now number :: rest }
  have hnoisy := readReply_noise hC hself hkey hb ha hnoise.refused hnoise.stray hnoise.corrupt
    (hahead.trans (List.prefix_append _ _) : replies <+: (hear C lock c link).replies)
    (.reply now number :: rest)
  rw [hear_script] at hheard
  rw [drive_write]
  refine congrArg (continued op L fuel) (hheard.trans (hnoisy.trans ?_))
  rw [Function.iterate_succ_apply] at hraw ⊢
  generalize (hear C lock c)^[countKind C lock.aesKey command replies .corrupt ds]
    (hear C lock c link) = link' at hraw ⊢
  have hread : L.nextFrame { link' with script := Delivery.reply now number :: rest } =
      (.ok (now, raw), { link' with script := rest }) := by
    show LockLink.nextFrame CliError.timeout .disconnected
      { link' with script := Delivery.reply now number :: rest } = _
    simp only [LockLink.nextFrame, hraw]
  rcases answer with ⟨e | next, self'⟩
  · obtain ⟨hstale, hretryable⟩ := hanswer e rfl
    rw [readReply_refused hread hc, hstale, hretryable]
    rfl
  · exact readReply_ok hread hc

/-! ## The whole run -/

/-- The lock's replies to so many requests. -/
def handshakes (C : Cipher) (lock : PairedLock) (before : LockSession) (n : Nat) : List (List UInt8) :=
  (List.range n).map fun k => lock.reply C COMM_CHECK_USER_TIME 1
    (BigEndian.toBytes32 (lock.challenge (before.issued + k)))

/-- What an actuation comes to: `sent` and `acted` are how often the handshake and the command were
    written, and `read` is the challenge that was read. -/
def outcome (lock : PairedLock) (action : Actuation) (unlockKey : UnlockKey) (version : LockVersion)
    (before : LockSession) (sent acted read : Nat) (now : Int) : Except CliError Unit × LockSession :=
  if version ≠ lock.version then
    (.error (.core (.commandFailed COMM_CHECK_USER_TIME lock.rejection)), before)
  else
    let session := { before with issued := before.issued + sent }
    if lock.challenge (before.issued + read) + unlockKey.get =
        lock.challenge (session.issued - 1) + lock.unlockKey.get then
      (.ok (), PairedLock.movedAt action now session acted)
    else (.error (.core (.commandFailed action.commandType lock.rejection)), session)

theorem getElem?_map_range {α : Type} (f : Nat → α) {n k : Nat} (h : k < n) :
    ((List.range n).map f)[k]? = some (f k) := by
  simp [List.getElem?_range h]

/-- A request that the lock turns away: nothing changes, and every reply says so. -/
theorem hear_turnedAway (C : Cipher) (lock : PairedLock) (c : WireCommand)
    (hc : c.commandType = COMM_CHECK_USER_TIME) (hv : c.version ≠ lock.version) {n k : Nat}
    (h : k < n) (link : LockLink) (hnew : link.replies = []) :
    ((hear C lock c)^[n] link).session = link.session ∧ ((hear C lock c)^[n] link).replies[k]? =
      some (lock.reply C COMM_CHECK_USER_TIME lock.rejection []) := by
  have hexecute : lock.execute c link.session = ((lock.rejection, []), link.session) := by
    rw [lock.execute_request hc, if_neg hv]
  have hfixed := lock.iterate_fixed hexecute
  simp only [iterate_hear, hfixed, hexecute, hc, hnew, List.nil_append, true_and]
  exact getElem?_map_range _ h

/-- A request that draws challenges. -/
theorem hear_challenged (C : Cipher) (lock : PairedLock) (c : WireCommand)
    (hc : c.commandType = COMM_CHECK_USER_TIME) (hv : c.version = lock.version) (n : Nat) (link : LockLink)
    (hnew : link.replies = []) :
    ((hear C lock c)^[n] link).session = { link.session with issued := link.session.issued + n } ∧
      ((hear C lock c)^[n] link).replies = handshakes C lock link.session n := by
  have hiterate := lock.iterate_request hc hv link.session
  simp only [iterate_hear, hiterate, true_and]
  simp only [lock.execute_request hc, if_pos hv, hnew, List.nil_append, hc]
  rfl

/-- The command itself, with the right sum or another. -/
theorem hear_actuation {action : Actuation} {op : ActuateOp} (hop : op.commandType = action.commandType)
    (hv : op.version = lock.version) (now : Int) (ps : UInt32) (n : Nat) {link : LockLink}
    (hissued : link.session.issued ≠ 0) {k : Nat} (hk : link.replies.length ≤ k)
    (hkn : k < link.replies.length + n) :
    let heard := (hear C lock (op.actuation now ps))^[n] link
    if ps + op.unlockKey.get = lock.challenge (link.session.issued - 1) + lock.unlockKey.get then
      heard.session = PairedLock.movedAt action now link.session n ∧
        heard.replies[k]? = some (lock.reply C action.commandType 1 [])
    else heard.session = link.session ∧
      heard.replies[k]? = some (lock.reply C action.commandType lock.rejection []) := by
  have hcommand : (op.actuation now ps).commandType = action.commandType := hop
  have hget : ∀ f : Nat → List UInt8,
      (link.replies ++ (List.range n).map f)[k]? = some (f (k - link.replies.length)) := by
    intro f
    rw [List.getElem?_append_right hk, getElem?_map_range f (by omega)]
  intro heard
  simp only [heard, iterate_hear, hcommand, hget]
  have hexecute := lock.execute_actuation hop hv now ps hissued
  split
  · next hsum =>
      have hiterate := lock.iterate_actuation hop hv now ps hissued hsum
      have hagain : ∀ k, (PairedLock.movedAt action now link.session k).issued = link.session.issued := by
        intro k
        unfold PairedLock.movedAt
        split_ifs <;> rfl
      simp only [hiterate, true_and]
      rw [lock.execute_actuation hop hv now ps (by rwa [hagain]), hagain, if_pos hsum]
  · next hsum =>
      rw [if_neg hsum] at hexecute
      have hfixed := lock.iterate_fixed hexecute
      simp only [hfixed, hexecute, and_self]

/-- The second half: the command, once its challenge was read. -/
theorem drive_actuation (hC : C.Lawful) {action : Actuation} {op : ActuateOp}
    (hs : op.state = .awaitingActuate) (hkey : op.aesKey = lock.aesKey) (hv : op.version = lock.version)
    (hop : op.commandType = action.commandType) {now : Int} {ps : UInt32} {frame : List UInt8}
    (hb : (op.actuation now ps).build C = .ok frame) {link : LockLink} (hissued : link.session.issued ≠ 0)
    {ds : List Delivery} (hnoise : Noise C lock.aesKey action.commandType link.replies ds) {acted : Nat}
    (hacted : acted = countKind C lock.aesKey action.commandType link.replies .corrupt ds + 1)
    {number : Nat} (hnumber : link.replies.length ≤ number ∧ number < link.replies.length + acted)
    (now' : Int) (rest : List Delivery) (fuel : Nat) :
    (drive (lossless C lock CliError.timeout .disconnected) (ActuateOp.operation C) (fuel + 1)
      (.write frame) op { link with script := ds ++ Delivery.reply now' number :: rest }).map
        (fun (result, _, link) => (result, link.session)) =
    some (if ps + op.unlockKey.get = lock.challenge (link.session.issued - 1) + lock.unlockKey.get then
        (.ok (), PairedLock.movedAt action now link.session acted)
      else (.error (.core (.commandFailed action.commandType lock.rejection)), link.session)) := by
  have ha : op.awaited = some action.commandType := by rw [ActuateOp.awaited, hs, hop]
  have hheard := hear_actuation (C := C) hop hv now ps acted hissued hnumber.1 hnumber.2
  dsimp only at hheard
  by_cases hsum : ps + op.unlockKey.get = lock.challenge (link.session.issued - 1) + lock.unlockKey.get
  · rw [if_pos hsum] at hheard ⊢
    have hd : decryptResponse C (lock.reply C action.commandType 1 []) op.aesKey =
        .ok ⟨op.commandType, 1, []⟩ := by
      rw [hkey, hop]
      exact lock.decryptResponse_reply hC action.commandType 1 [] (Nat.zero_le _)
    rw [drive_replied hC hkey hkey hb ha hnoise hacted (List.prefix_refl _) hheard.2
      (ActuateOp.call_acknowledged hs now' hd) (by rintro e ⟨⟩) rest fuel, ← hheard.1]
    cases fuel <;> rfl
  · rw [if_neg hsum] at hheard ⊢
    have hd : decryptResponse C (lock.reply C action.commandType lock.rejection []) op.aesKey =
        .ok ⟨action.commandType, lock.rejection, []⟩ := by
      rw [hkey]
      exact lock.decryptResponse_reply hC action.commandType lock.rejection [] (Nat.zero_le _)
    rw [drive_replied hC hkey hkey hb ha hnoise hacted (List.prefix_refl _) hheard.2
      (ActuateOp.call_rejected ha now' hd rfl lock.rejection_ne) (by rintro e ⟨⟩; exact ⟨rfl, rfl⟩) rest
      fuel, ← hheard.1]
    rfl

/-- **What an actuation comes to.** Every frame reaches the lock, and in each of its two exchanges the
    reply that ends it comes behind no more noise than the policy puts up with, replies to the other
    exchange included. Then the run ends as the lock decides: by the version, and then by whether the
    challenge that was read makes the sum the lock makes of the last one it drew. -/
theorem actuation_outcome (hC : C.Lawful) (lock : PairedLock) (action : Actuation) (unlockKey : UnlockKey)
    (version : LockVersion) (before : LockSession) {first second : List Delivery}
    (hfirst : Noise C lock.aesKey COMM_CHECK_USER_TIME [] first) {read : Nat}
    (hread : read ≤ countKind C lock.aesKey COMM_CHECK_USER_TIME [] .corrupt first) {sent : Nat}
    (hsent : sent = countKind C lock.aesKey COMM_CHECK_USER_TIME [] .corrupt first + 1)
    (hsecond : Noise C lock.aesKey action.commandType (handshakes C lock before sent) second) {acted : Nat}
    (hacted : acted = countKind C lock.aesKey action.commandType (handshakes C lock before sent) .corrupt
      second + 1)
    {number : Nat} (hnumber : sent ≤ number ∧ number < sent + acted) (now now' : Int)
    (rest : List Delivery) {fuel : Nat} (hfuel : 2 ≤ fuel) :
    (Transport.runOp (lossless C lock CliError.timeout .disconnected) (ActuateOp.operation C) fuel
      (action.op lock.aesKey unlockKey version)
      (.new before (first ++ .reply now read :: (second ++ .reply now' number :: rest)))).map
        (fun (result, _, link) => (result, link.session)) =
      some (outcome lock action unlockKey version before sent acted read now) := by
  obtain ⟨fuel, rfl⟩ : ∃ n, fuel = n + 2 := ⟨fuel - 2, by omega⟩
  -- the operation that waits for the challenge, and what it has written
  let op : ActuateOp :=
    { action.op lock.aesKey unlockKey version with state := .awaitingCheckUserTime }
  let request := op.request
  have hrequest : request.commandType = COMM_CHECK_USER_TIME := rfl
  obtain ⟨frame, hb, hstart⟩ : ∃ frame, request.build C = .ok frame ∧
      (ActuateOp.operation C).start.call (action.op lock.aesKey unlockKey version) =
        (.ok (.write frame), op) := by
    obtain ⟨frame, hb⟩ := (WireCommand.build_ok_iff hC request).2
      (show (buildCheckUserTimePayload 0 "0001311400" "9911301400" 0).length ≤ 239 from by decide +kernel)
    refine ⟨frame, hb, ?_⟩
    show (ActuateOp.start C).call _ = _
    rw [ActuateOp.call_start, show (action.op lock.aesKey unlockKey version).request.build C = .ok frame
      from hb]
  rw [Transport.runOp, hstart]
  have hlt : read < sent := by omega
  by_cases hv : version = lock.version
  · obtain ⟨hsession, hreplies⟩ := hear_challenged C lock request hrequest hv sent (.new before []) rfl
    have hreply : ((hear C lock request)^[sent] (.new before [])).replies[read]? =
        some (lock.reply C COMM_CHECK_USER_TIME 1
          (BigEndian.toBytes32 (lock.challenge (before.issued + read)))) := by
      rw [hreplies]
      exact getElem?_map_range _ hlt
    have hd := lock.decryptResponse_reply hC COMM_CHECK_USER_TIME 1
      (BigEndian.toBytes32 (lock.challenge (before.issued + read)))
      (by rw [BigEndian.length_toBytes32]; decide)
    obtain ⟨frame', hb', hc⟩ :=
      ActuateOp.call_challenged hC (rfl : op.state = .awaitingCheckUserTime) now hd
    have hdrive := drive_replied hC (rfl : op.aesKey = lock.aesKey) rfl hb rfl hfirst hsent List.nil_prefix
      hreply hc (by rintro e ⟨⟩) (second ++ .reply now' number :: rest) (fuel + 1)
    have hlength : ((hear C lock request)^[sent] (.new before [])).replies.length = sent := by
      rw [hreplies, handshakes, List.length_map, List.length_range]
    have hissued : ((hear C lock request)^[sent] (.new before [])).session.issued ≠ 0 := by
      rw [hsession]
      show before.issued + sent ≠ 0
      omega
    have hdriven := drive_actuation hC
      (rfl : ({ op with state := .awaitingActuate } : ActuateOp).state = .awaitingActuate) rfl hv rfl hb'
      hissued (hreplies.symm ▸ hsecond) (hreplies.symm ▸ hacted) (hlength.symm ▸ hnumber) now' rest fuel
    rw [outcome, if_neg (not_not.2 hv)]
    refine (congrArg (Option.map _) hdrive).trans (hdriven.trans ?_)
    rw [hsession]
    rfl
  · obtain ⟨hsession, hreply⟩ := hear_turnedAway C lock request hrequest hv hlt (.new before []) rfl
    have hd := lock.decryptResponse_reply hC COMM_CHECK_USER_TIME lock.rejection [] (Nat.zero_le _)
    have hc : (ActuateOp.handleFrame C now _).call op = _ :=
      ActuateOp.call_rejected rfl now hd rfl lock.rejection_ne
    have hdrive := drive_replied hC (rfl : op.aesKey = lock.aesKey) rfl hb rfl hfirst hsent List.nil_prefix
      hreply hc (by rintro e ⟨⟩; exact ⟨rfl, rfl⟩) (second ++ .reply now' number :: rest) (fuel + 1)
    rw [outcome, if_pos hv]
    refine (congrArg (Option.map _) hdrive).trans ?_
    exact congrArg (fun s => some (_, s)) hsession

/-- A lock that draws a new challenge for every request refuses the right key, if a damaged push has the
    request sent again and the first reply is read. -/
theorem actuation_outcome_redrawn :
    let lock : PairedLock :=
      ⟨.default, sampleKey, ⟨5, by decide⟩, 80, fun k => UInt32.ofNat (9 + k), 0, by decide⟩
    let damaged := (sampleReply [0x14, 1, 80, 0]).dropLast ++ [0]
    (Transport.runOp (lossless aes128Cbc lock CliError.timeout .disconnected)
      (ActuateOp.operation aes128Cbc) 2 (Actuation.unlock.op sampleKey ⟨5, by decide⟩ .default)
      (.new ⟨0, .locked, [], 0⟩ ([.other 0 damaged] ++ .reply 0 0 :: ([.reply 0 1] ++ [.reply 0 2])))).map
        (fun (result, _, link) => (result, link.session)) =
      some (.error (.core (.commandFailed 0x47 0)), ⟨2, .locked, [], 0⟩) := by
  intro lock damaged
  have hfirst : Noise aes128Cbc sampleKey COMM_CHECK_USER_TIME [] [.other 0 damaged] :=
    ⟨by decide +kernel, by decide +kernel, by decide +kernel⟩
  have hsecond : Noise aes128Cbc sampleKey COMM_UNLOCK (handshakes aes128Cbc lock ⟨0, .locked, [], 0⟩ 2)
      [.reply 0 1] := ⟨by decide +kernel, by decide +kernel, by decide +kernel⟩
  exact (actuation_outcome aes128Cbc_lawful lock .unlock ⟨5, by decide⟩ .default ⟨0, .locked, [], 0⟩ hfirst
    (Nat.zero_le _) (show 2 = _ by decide +kernel) hsecond (show 1 = _ by decide +kernel)
    (by decide) 0 0 [] (Nat.le_refl 2)).trans (by decide +kernel)

end TTLock
