import TTLock.Cli.Proofs.LockSafety

set_option autoImplicit false

/-! # What a status query may learn from a lock

A query leaves the lock as it is, and the state it ends with is the one the lock is in: there is only one
thing the lock can have said (`Querying`). -/

namespace TTLock

/-- What a status byte says of the bolt. -/
def Bolt.lockState : Bolt → LockState
  | .locked => .locked
  | .unlocked => .unlocked

section

variable (C : Cipher) (lock : PairedLock) (version : LockVersion) (before : LockSession)

/-- The lock's one answer to a query. -/
def PairedLock.statusReply : List UInt8 :=
  if version = lock.version then
    lock.reply C COMM_SEARCH_BICYCLE_STATUS 1 [lock.battery, before.bolt.statusByte]
  else lock.reply C COMM_SEARCH_BICYCLE_STATUS lock.rejection []

/-- While the query is sent. -/
structure Querying (frame : List UInt8) (op : StatusOp) (link : LockLink) : Prop where
  made : op = { StatusOp.new lock.aesKey version with awaitingResponse := true }
  built : op.request.build C = .ok frame
  session : link.session = before
  script : ∀ now raw, Delivery.other now raw ∈ link.script →
    Foreign C lock.aesKey [COMM_SEARCH_BICYCLE_STATUS] raw
  replies : ∀ raw ∈ link.replies, raw = lock.statusReply C version before

/-- What an error of a query comes with. -/
structure QueryFailed {ε : Type} (core : TtlockError → ε) (e : ε) (session : LockSession) : Prop where
  session : session = before
  rejected : ∀ r, e = core (.commandFailed COMM_SEARCH_BICYCLE_STATUS r) →
    r = lock.rejection ∧ version ≠ lock.version

end

variable {C : Cipher} {lock : PairedLock} {version : LockVersion} {before : LockSession}

/-- The lock answers a query whoever asks, but only in its own version with its state. -/
theorem PairedLock.execute_status {c : WireCommand} (hc : c.commandType = COMM_SEARCH_BICYCLE_STATUS)
    (session : LockSession) :
    lock.execute c session =
      if c.version = lock.version then ((1, [lock.battery, session.bolt.statusByte]), session)
      else ((lock.rejection, []), session) := by
  by_cases hv : c.version = lock.version
  · have hne : COMM_SEARCH_BICYCLE_STATUS ≠ COMM_CHECK_USER_TIME := by decide
    simp only [execute, ne_eq, hv, not_true_eq_false, if_false, hc, hne, if_true]
  · simp only [execute, ne_eq, hv, not_false_eq_true, if_true, if_false]

namespace Querying

variable {frame : List UInt8} {op : StatusOp} {link : LockLink}

/-- Everything that can be made of a frame that arrives. -/
inductive Answer (lock : PairedLock) (version : LockVersion) (before : LockSession) (op : StatusOp) :
    Except TtlockError (Step LockState) × StatusOp → Prop where
  | refused (e : TtlockError) (h : ∀ command r, e ≠ .commandFailed command r) :
      Answer lock version before op (.error e, op)
  | turnedAway (h : version ≠ lock.version) :
      Answer lock version before op
        (.error (.commandFailed COMM_SEARCH_BICYCLE_STATUS lock.rejection), op)
  | told (h : version = lock.version) :
      Answer lock version before op
        (.ok (.done before.bolt.lockState), { op with awaitingResponse := false })

theorem answer (hC : C.Lawful) (h : Querying C lock version before frame op link) (now : Int)
    {raw : List UInt8} (hraw : raw ∈ link.replies ∨ Delivery.other now raw ∈ link.script) :
    Answer lock version before op ((StatusOp.handleFrame C raw).call op) := by
  have hkey : op.aesKey = lock.aesKey := by rw [h.made]; rfl
  have hwaiting : op.awaitingResponse = true := by rw [h.made]
  rw [StatusOp.call_handleFrame, if_pos hwaiting, hkey]
  rcases hraw with hraw | hraw
  · obtain rfl := h.replies raw hraw
    by_cases hv : version = lock.version
    · have hd := lock.decryptResponse_reply hC COMM_SEARCH_BICYCLE_STATUS 1
        [lock.battery, before.bolt.statusByte] (by simp)
      have hstate : LockState.ofByte (if (0 : Int) ≤ before.bolt.statusByte.toNat ∧
          (before.bolt.statusByte.toNat : Int) < 256 then
          UInt8.ofNat (before.bolt.statusByte.toNat : Int).toNat else 255) = before.bolt.lockState := by
        cases before.bolt with
        | locked => decide
        | unlocked => decide
      simp only [PairedLock.statusReply, if_pos hv, hd, parseStatusResponse, ne_eq, not_true_eq_false,
        if_false, List.getElem?_cons_succ, List.getElem?_cons_zero, hstate]
      exact hkey ▸ .told hv
    · have hd := lock.decryptResponse_reply hC COMM_SEARCH_BICYCLE_STATUS lock.rejection [] (Nat.zero_le _)
      simp only [PairedLock.statusReply, if_neg hv, hd, parseStatusResponse, ne_eq, not_true_eq_false,
        if_false, lock.rejection_ne, not_false_eq_true, if_true]
      exact .turnedAway hv
  · have hforeign := h.script now raw hraw
    rcases hd : decryptResponse C raw lock.aesKey with e | plain
    · exact .refused e (decryptResponse_error hd)
    · have hne : plain.commandType ≠ COMM_SEARCH_BICYCLE_STATUS := by
        intro heq
        exact hforeign plain hd (heq ▸ List.mem_singleton_self _)
      simp only [parseStatusResponse, ne_eq, hne, not_false_eq_true, if_true]
      exact .refused _ (fun _ _ he => by cases he)

variable {ε : Type} {timeout disconnected : ε} {fate : Nat → Fate} {link' : LockLink}

theorem read (h : Querying C lock version before frame op link) {now : Int} {raw : List UInt8}
    (hread : LockLink.nextFrame timeout disconnected link = (.ok (now, raw), link')) :
    Querying C lock version before frame op link' := by
  obtain ⟨-, hlink, hscript⟩ := LockLink.nextFrame_ok hread
  rw [hlink]
  exact { h with script := fun now raw hmem => h.script now raw (hscript hmem) }

theorem written (hC : C.Lawful) (h : Querying C lock version before frame op link)
    (hwrite : LockLink.writeFrame disconnected C lock fate frame link = (.ok (), link')) :
    Querying C lock version before frame op link' := by
  have hkey : op.request.aesKey = lock.aesKey := by rw [h.made]; rfl
  have hversion : op.request.version = version := by rw [h.made]; rfl
  rcases LockLink.writeFrame_cases hC hkey h.built hwrite with rfl | rfl
  · exact { h with }
  · rw [lock.execute_status rfl, hversion, h.session]
    refine { h with session := by split <;> rfl, replies := fun raw hraw => ?_ }
    rcases List.mem_append.1 hraw with hraw | hraw
    · exact h.replies raw hraw
    · obtain rfl := List.mem_singleton.1 hraw
      unfold PairedLock.statusReply
      split <;> rfl

end Querying

/-- The rule that a query is driven by, over such a link. -/
theorem querying_rule (hC : C.Lawful) {ε ε' : Type} {timeout disconnected : ε}
    {core : TtlockError → ε} {face : ε → ε'} (hcore : Function.Injective fun e => face (core e))
    (htimeout : ∀ e, face (core e) ≠ face timeout) (hdisconnected : ∀ e, face (core e) ≠ face disconnected)
    (fate : Nat → Fate) :
    (LockLink.transport timeout disconnected C lock fate).Rule (StatusOp.operation C) core
      (fun _ => Querying C lock version before)
      (fun state _ link => link.session = before ∧ version = lock.version ∧ state = before.bolt.lockState)
      (fun e _ link => QueryFailed lock version before (fun e => face (core e)) (face e) link.session) where
  written _ h hwrite := h.written hC hwrite
  not_written h hwrite := by
    obtain ⟨rfl, rfl⟩ := LockLink.writeFrame_error hwrite
    exact ⟨h.session, fun _ hr => absurd hr.symm (hdisconnected _)⟩
  not_read h hread := by
    obtain ⟨he, hsession⟩ := LockLink.nextFrame_error hread
    refine ⟨hsession.trans h.session, fun _ hr => ?_⟩
    rcases he with rfl | rfl
    · exact absurd hr.symm (htimeout _)
    · exact absurd hr.symm (hdisconnected _)
  refused {_ _ _ _ now raw _ e _} h hread hc := by
    have ha := h.answer hC now (LockLink.nextFrame_ok hread).1
    have hread' := h.read hread
    change (StatusOp.handleFrame C raw).call _ = _ at hc
    rw [hc] at ha
    cases ha with
    | refused _ hne => exact ⟨hread', hread'.session, fun _ hr => absurd (hcore hr) (hne _ _)⟩
    | turnedAway hv =>
        refine ⟨hread', hread'.session, fun r hr => ?_⟩
        cases hcore hr
        exact ⟨rfl, hv⟩
  next {_ _ _ _ now raw _ _ _} h hread hc := by
    have ha := h.answer hC now (LockLink.nextFrame_ok hread).1
    change (StatusOp.handleFrame C raw).call _ = _ at hc
    rw [hc] at ha
    cases ha
  done {_ _ _ _ now raw _ _ _} h hread hc := by
    have ha := h.answer hC now (LockLink.nextFrame_ok hread).1
    have hread' := h.read hread
    change (StatusOp.handleFrame C raw).call _ = _ at hc
    rw [hc] at ha
    cases ha with
    | told hv => exact ⟨hread'.session, hv, rfl⟩

end TTLock
