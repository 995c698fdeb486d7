import TTLock.Core.Proofs.Ops

set_option autoImplicit false

/-! # How often one operation value can be used

To the calls made on it, every operation is a countdown: `start` sets it to the number of replies the
exchange takes, an accepted reply counts it down, and the reply that reaches zero is the one answered
with `Done`. Nothing keeps `start` from being called again. So an operation is single-use, as its
trait documents, exactly in those sequences of calls that start it at most once. -/

namespace TTLock

variable {C : Cipher} {σ T : Type}

/-! ## Calls -/

inductive OpCall where
  | start
  | handleFrame (now : Int) (raw : List UInt8)
deriving DecidableEq, Repr

def OpCall.isStart : OpCall → Bool
  | .start => true
  | .handleFrame _ _ => false

/-- One call on an operation, with the state before and after it. -/
structure Used (σ T : Type) where
  call : OpCall
  result : Except TtlockError (Step T)
  before : σ
  after : σ

def Used.failed (u : Used σ T) : Bool := isError u.result

def Used.isDone (u : Used σ T) : Bool :=
  match u.result with
  | .ok (.done _) => true
  | .ok (.write _) | .error _ => false

/-- A frame written in answer to another: of the operations, only an actuation does that. -/
def Used.isCommand (u : Used σ T) : Bool :=
  match u.call, u.result with
  | .handleFrame _ _, .ok (.write _) => true
  | _, _ => false

def Operation.use (op : Operation σ T) (self : σ) (call : OpCall) : Used σ T :=
  let (result, after) := match call with
    | .start => op.start.call self
    | .handleFrame now raw => (op.handleFrame now raw).call self
  { call, result, before := self, after }

/-- Every call of a sequence, in order. -/
def Operation.uses (op : Operation σ T) (self : σ) (calls : List OpCall) : List (Used σ T) :=
  Mealy.outputs (fun self call => (op.use self call, (op.use self call).after)) self calls

theorem Operation.uses_cons (op : Operation σ T) (self : σ) (call : OpCall) (calls : List OpCall) :
    op.uses self (call :: calls) = op.use self call :: op.uses (op.use self call).after calls := rfl

theorem Operation.uses_append (op : Operation σ T) (self : σ) (calls calls' : List OpCall) :
    ∃ s, op.uses self (calls ++ calls') = op.uses self calls ++ op.uses s calls' :=
  ⟨_, Mealy.outputs_append ..⟩

/-- The trait's rules: after a `start` that succeeded, starting again fails and changes nothing; after
    `Done`, everything fails. And so at most one command is emitted, and the value completes at most
    once. -/
structure SingleUse (uses : List (Used σ T)) : Prop where
  start_once : uses.Pairwise fun u u' => u.call = .start → u.failed = false → u'.call = .start →
    u'.failed = true ∧ u'.after = u'.before
  nothing_after_done : uses.Pairwise fun u u' => u.isDone = true → u'.failed = true
  one_command : uses.countP Used.isCommand ≤ 1
  one_done : uses.countP Used.isDone ≤ 1

/-! ## The countdown -/

/-- `rank` counts the replies an operation still waits for; `start` sets it to `n`. -/
structure Operation.CountsDown (op : Operation σ T) (rank : σ → Nat) (n : Nat) : Prop where
  start : ∀ self, ∃ frame self', op.start.call self = (.ok (.write frame), self') ∧ rank self' = n
  handleFrame : ∀ self now raw,
    (∃ e, (op.handleFrame now raw).call self = (.error e, self)) ∨
    (∃ frame self', (op.handleFrame now raw).call self = (.ok (.write frame), self') ∧
      1 ≤ rank self' ∧ rank self = rank self' + 1) ∨
    ∃ out self', (op.handleFrame now raw).call self = (.ok (.done out), self') ∧
      rank self = 1 ∧ rank self' = 0

section Countdown

variable {op : Operation σ T} {rank : σ → Nat} {n : Nat}

theorem Operation.CountsDown.use_start (h : op.CountsDown rank n) (self : σ) :
    ∃ frame self', op.use self .start
      = { call := .start, result := .ok (.write frame), before := self, after := self' } ∧
      rank self' = n := by
  obtain ⟨frame, self', hc, hr⟩ := h.start self
  exact ⟨frame, self', by rw [use, hc], hr⟩

theorem Operation.CountsDown.use_handleFrame (h : op.CountsDown rank n) (self : σ) (now : Int)
    (raw : List UInt8) :
    (∃ e, op.use self (.handleFrame now raw) = ⟨.handleFrame now raw, .error e, self, self⟩) ∨
    (∃ frame self', op.use self (.handleFrame now raw)
        = ⟨.handleFrame now raw, .ok (.write frame), self, self'⟩ ∧
      1 ≤ rank self' ∧ rank self = rank self' + 1) ∨
    ∃ out self', op.use self (.handleFrame now raw)
        = ⟨.handleFrame now raw, .ok (.done out), self, self'⟩ ∧
      rank self = 1 ∧ rank self' = 0 := by
  rcases h.handleFrame self now raw with ⟨e, hc⟩ | ⟨frame, self', hc, hr⟩ | ⟨out, self', hc, hr⟩
  · exact .inl ⟨e, by rw [use, hc]⟩
  · exact .inr (.inl ⟨frame, self', by rw [use, hc], hr⟩)
  · exact .inr (.inr ⟨out, self', by rw [use, hc], hr⟩)

/-- The calls of a sequence are those that were made. -/
theorem Operation.map_call_uses (op : Operation σ T) (self : σ) (calls : List OpCall) :
    (op.uses self calls).map Used.call = calls := by
  induction calls generalizing self with
  | nil => rfl
  | cons call calls ih => rw [uses_cons, List.map_cons, ih]; rfl

/-- The first of calls without a `start` hands in a frame, and the others are without one as well. -/
theorem OpCall.cons_of_no_start {call : OpCall} {calls : List OpCall}
    (h : OpCall.start ∉ call :: calls) :
    (∃ now raw, call = .handleFrame now raw) ∧ OpCall.start ∉ calls := by
  refine ⟨?_, fun hm => h (List.mem_cons_of_mem call hm)⟩
  cases call with
  | start => exact absurd List.mem_cons_self h
  | handleFrame now raw => exact ⟨now, raw, rfl⟩

/-- With the count at zero and no `start` to come, every call fails. -/
theorem Operation.CountsDown.failed_of_zero (h : op.CountsDown rank n) {self : σ}
    (hzero : rank self = 0) {calls : List OpCall} (hcalls : OpCall.start ∉ calls) :
    ∀ u ∈ op.uses self calls, u.failed = true := by
  induction calls generalizing self with
  | nil => exact fun u hu => absurd hu List.not_mem_nil
  | cons call calls ih =>
      obtain ⟨⟨now, raw, rfl⟩, htail⟩ := OpCall.cons_of_no_start hcalls
      rw [uses_cons]
      rcases h.use_handleFrame self now raw with ⟨e, hu⟩ | ⟨_, _, _, _, hr⟩ | ⟨_, _, _, hr, _⟩
      · rw [hu]
        exact List.forall_mem_cons.2 ⟨rfl, ih hzero htail⟩
      · omega
      · omega

/-- Without a `start`, each command takes one reply off the count, and one stays for `Done`. -/
theorem Operation.CountsDown.commands_le (h : op.CountsDown rank n) {self : σ} {calls : List OpCall}
    (hcalls : OpCall.start ∉ calls) :
    (op.uses self calls).countP Used.isCommand ≤ rank self - 1 := by
  induction calls generalizing self with
  | nil => exact Nat.zero_le _
  | cons call calls ih =>
      obtain ⟨⟨now, raw, rfl⟩, htail⟩ := OpCall.cons_of_no_start hcalls
      rw [uses_cons, List.countP_cons]
      rcases h.use_handleFrame self now raw with ⟨e, hu⟩ | ⟨frame, self', hu, hr⟩ |
        ⟨out, self', hu, hr⟩ <;> rw [hu]
      · exact ih htail
      · have hle : (op.uses self' calls).countP Used.isCommand ≤ rank self' - 1 := ih htail
        simp only [Used.isCommand, if_true]
        omega
      · have hle : (op.uses self' calls).countP Used.isCommand ≤ rank self' - 1 := ih htail
        simp only [Used.isCommand, Bool.false_eq_true, if_false]
        omega

theorem Operation.CountsDown.nothing_after_done (h : op.CountsDown rank n) {self : σ}
    {calls : List OpCall} (hcalls : OpCall.start ∉ calls) :
    (op.uses self calls).Pairwise fun u u' => u.isDone = true → u'.failed = true := by
  induction calls generalizing self with
  | nil => exact .nil
  | cons call calls ih =>
      obtain ⟨⟨now, raw, rfl⟩, htail⟩ := OpCall.cons_of_no_start hcalls
      rw [uses_cons, List.pairwise_cons]
      refine ⟨?_, ih htail⟩
      intro u' hu' hdone
      rcases h.use_handleFrame self now raw with ⟨e, hu⟩ | ⟨frame, self', hu, hr⟩ |
        ⟨out, self', hu, hr⟩ <;> rw [hu] at hu' hdone
      · cases hdone
      · cases hdone
      · exact h.failed_of_zero hr.2 htail u' hu'

/-- A property has at most one element iff it excludes itself later on. -/
theorem countP_le_one_iff {α : Type} {p : α → Bool} {as : List α} :
    as.countP p ≤ 1 ↔ as.Pairwise fun a b => p a = true → p b = false := by
  induction as with
  | nil => simp
  | cons a as ih =>
      rw [List.pairwise_cons, List.countP_cons, ← ih]
      by_cases hp : p a = true
      · have hzero : as.countP p = 0 ↔ ∀ b ∈ as, p b = false := by
          simp only [List.countP_eq_zero, Bool.not_eq_true]
        simp only [hp, if_true, true_implies, ← hzero]
        omega
      · simp [hp]

theorem Used.isDone_eq_false {u : Used σ T} (h : u.failed = true) : u.isDone = false := by
  rcases u with ⟨call, e | step, before, after⟩
  · rfl
  · cases h

theorem Used.isCommand_eq_false {u : Used σ T} (h : u.failed = true) : u.isCommand = false := by
  rcases u with ⟨_ | ⟨now, raw⟩, e | step, before, after⟩
  · rfl
  · cases h
  · rfl
  · cases h

/-- `Done` twice would be something after `Done`. -/
theorem one_done_of_nothing_after {us : List (Used σ T)}
    (h : us.Pairwise fun u u' => u.isDone = true → u'.failed = true) :
    us.countP Used.isDone ≤ 1 := by
  rw [countP_le_one_iff]
  exact h.imp fun hu hdone => Used.isDone_eq_false (hu hdone)

theorem countP_isCommand_eq_zero {us : List (Used σ T)} (h : ∀ u ∈ us, u.failed = true) :
    us.countP Used.isCommand = 0 := by
  refine List.countP_eq_zero.2 fun u hu => ?_
  rw [Used.isCommand_eq_false (h u hu)]
  exact Bool.false_ne_true

/-- What a sequence that starts at most once, with nothing awaited before, looks like: failures, then
    at most one `start`, then no other. -/
theorem Operation.CountsDown.uses_shape (h : op.CountsDown rank n) {self : σ}
    (hzero : rank self = 0) {calls : List OpCall} (hcalls : calls.countP OpCall.isStart ≤ 1) :
    ∃ failures rest, op.uses self calls = failures ++ rest ∧ (∀ u ∈ failures, u.failed = true) ∧
      (rest = [] ∨ ∃ s s' frame calls', OpCall.start ∉ calls' ∧ rank s' = n ∧
        rest = ⟨.start, .ok (.write frame), s, s'⟩ :: op.uses s' calls') := by
  by_cases hstart : OpCall.start ∈ calls
  · obtain ⟨before, calls', rfl, hbefore⟩ := List.eq_append_cons_of_mem hstart
    have hrest : OpCall.start ∉ calls' := by
      intro hm
      have hpos : 0 < calls'.countP OpCall.isStart := List.countP_pos_iff.2 ⟨_, hm, rfl⟩
      simp only [List.countP_append, List.countP_cons, OpCall.isStart, if_true] at hcalls hpos
      omega
    obtain ⟨s, hs⟩ := op.uses_append self before (.start :: calls')
    obtain ⟨frame, s', hu, hr⟩ := h.use_start s
    rw [op.uses_cons, hu] at hs
    exact ⟨_, _, hs, h.failed_of_zero hzero hbefore, .inr ⟨s, s', frame, calls', hrest, hr, rfl⟩⟩
  · exact ⟨op.uses self calls, [], (List.append_nil _).symm, h.failed_of_zero hzero hstart, .inl rfl⟩

/-- Started at most once, nothing awaited before: single use. -/
theorem Operation.CountsDown.singleUse (h : op.CountsDown rank n) (hn : n ≤ 2) {self : σ}
    (hzero : rank self = 0) {calls : List OpCall} (hcalls : calls.countP OpCall.isStart ≤ 1) :
    SingleUse (op.uses self calls) := by
  have honce : (op.uses self calls).Pairwise fun u u' => u.call = .start → u'.call ≠ .start := by
    rw [← op.map_call_uses self calls, List.countP_map, countP_le_one_iff] at hcalls
    refine hcalls.imp fun {u u'} hu hstart hstart' => ?_
    simp only [Function.comp_apply, hstart, hstart', OpCall.isStart, true_implies] at hu
    cases hu
  obtain ⟨failures, rest, huses, hfail, hrest⟩ := h.uses_shape hzero hcalls
  have hafter : (op.uses self calls).Pairwise fun u u' => u.isDone = true → u'.failed = true := by
    have hfalse : ∀ u ∈ failures, u.isDone ≠ true := fun u hu => by
      rw [Used.isDone_eq_false (hfail u hu)]; exact Bool.false_ne_true
    rw [huses, List.pairwise_append]
    refine ⟨?_, ?_, fun u hu _ _ hdone => absurd hdone (hfalse u hu)⟩
    · exact List.pairwise_of_forall_mem_list fun u hu _ _ hdone => absurd hdone (hfalse u hu)
    · rcases hrest with rfl | ⟨s, s', frame, calls', hno, -, rfl⟩
      · exact .nil
      · exact List.pairwise_cons.2 ⟨fun _ _ hdone => absurd hdone Bool.false_ne_true,
          h.nothing_after_done hno⟩
  refine ⟨honce.imp fun hu hstart _ hstart' => absurd hstart' (hu hstart), hafter, ?_,
    one_done_of_nothing_after hafter⟩
  rw [huses, List.countP_append, countP_isCommand_eq_zero hfail]
  rcases hrest with rfl | ⟨s, s', frame, calls', hno, hr, rfl⟩
  · exact Nat.zero_le _
  · have hle : (op.uses s' calls').countP Used.isCommand ≤ rank s' - 1 := h.commands_le hno
    rw [List.countP_cons]
    simp only [Used.isCommand, Bool.false_eq_true, if_false]
    omega

/-- Single use leaves room for one `start` only, since every `start` succeeds. -/
theorem Operation.CountsDown.starts_le (h : op.CountsDown rank n) {self : σ} {calls : List OpCall}
    (huse : SingleUse (op.uses self calls)) : calls.countP OpCall.isStart ≤ 1 := by
  have hok : ∀ u ∈ op.uses self calls, u.call = .start → u.failed = false := by
    refine Mealy.outputs_forall _ (I := fun _ => True) (fun _ _ _ => trivial) ?_ trivial calls
    intro s call _ hstart
    cases call with
    | start =>
        obtain ⟨frame, s', hu, -⟩ := h.use_start s
        dsimp only
        rw [hu]
        rfl
    | handleFrame now raw => cases hstart
  rw [← op.map_call_uses self calls, List.countP_map, countP_le_one_iff]
  refine huse.start_once.imp_of_mem fun {u u'} hu hu' honce hstart => ?_
  simp only [Function.comp_apply, OpCall.isStart] at hstart ⊢
  cases hc : u.call with
  | handleFrame now raw => rw [hc] at hstart; cases hstart
  | start =>
      cases hc' : u'.call with
      | handleFrame now raw => rfl
      | start =>
          have hfail := (honce hc (hok u hu hc) hc').1
          rw [hok u' hu' hc'] at hfail
          cases hfail

theorem Operation.CountsDown.singleUse_iff (h : op.CountsDown rank n) (hn : n ≤ 2) {self : σ}
    (hzero : rank self = 0) (calls : List OpCall) :
    SingleUse (op.uses self calls) ↔ calls.countP OpCall.isStart ≤ 1 :=
  ⟨h.starts_le, h.singleUse hn hzero⟩

end Countdown

/-! ## The operations count down -/

def StatusOp.rank (self : StatusOp) : Nat := if self.awaitingResponse then 1 else 0

def LogPageOp.rank (self : LogPageOp) : Nat := if self.awaitingResponse then 1 else 0

def ActuateOp.rank (self : ActuateOp) : Nat :=
  match self.state with
  | .awaitingCheckUserTime => 2
  | .awaitingActuate => 1
  | .idle | .done => 0

theorem StatusOp.countsDown (hC : C.Lawful) : (operation C).CountsDown StatusOp.rank 1 where
  start self := by
    obtain ⟨frame, hb⟩ := (WireCommand.build_ok_iff hC self.request).2
      (show "SCIENER".toUTF8.toList.length ≤ 239 from by decide +kernel)
    refine ⟨frame, { self with awaitingResponse := true }, ?_, rfl⟩
    show (StatusOp.start C).call self = _
    rw [call_start, hb]
  handleFrame self now raw := by
    rcases self.handleFrame_cases (C := C) raw with ⟨e, hc⟩ | ⟨data, value, hw, -, -, hc⟩
    · exact .inl ⟨e, hc⟩
    · exact .inr (.inr ⟨_, _, hc, if_pos hw, rfl⟩)

theorem LogPageOp.countsDown (hC : C.Lawful) (chrono : Chrono) :
    (operation C chrono).CountsDown LogPageOp.rank 1 where
  start self := by
    obtain ⟨frame, hb⟩ := (WireCommand.build_ok_iff hC self.request).2
      (show (BigEndian.toBytes16 _).length ≤ 239 from by
        rw [BigEndian.length_toBytes16]; decide)
    refine ⟨frame, { self with awaitingResponse := true }, ?_, rfl⟩
    show (LogPageOp.start C).call self = _
    rw [call_start, hb]
  handleFrame self now raw := by
    rcases self.handleFrame_cases (C := C) chrono raw with ⟨e, hc⟩ | ⟨data, page, hw, -, hc⟩
    · exact .inl ⟨e, hc⟩
    · exact .inr (.inr ⟨_, _, hc, if_pos hw, rfl⟩)

theorem ActuateOp.countsDown (hC : C.Lawful) : (operation C).CountsDown ActuateOp.rank 2 where
  start self := by
    obtain ⟨frame, hb⟩ := (WireCommand.build_ok_iff hC self.request).2
      (show (buildCheckUserTimePayload 0 "0001311400" "9911301400" 0).length ≤ 239 from by
        decide +kernel)
    refine ⟨frame, { self with state := .awaitingCheckUserTime }, ?_, rfl⟩
    show (ActuateOp.start C).call self = _
    rw [call_start, hb]
  handleFrame self now raw := by
    rcases self.handleFrame_cases (C := C) now raw with ⟨e, hc⟩ |
      ⟨a, b, c, d, rest, frame, hw, -, -, hc⟩ | ⟨data, hw, -, hc⟩
    · exact .inl ⟨e, hc⟩
    · exact .inr (.inl ⟨frame, _, hc, Nat.le_refl 1, by rw [rank, hw]; rfl⟩)
    · exact .inr (.inr ⟨_, _, hc, by rw [rank, hw], rfl⟩)

/-- **An operation value is single-use exactly if it is started at most once.** Nothing refuses a second
    `start`: it rearms the operation, mid-exchange or after `Done`. -/
theorem single_use_iff_started_once (hC : C.Lawful) (chrono : Chrono) (aesKey : AesKey)
    (unlockKey : UnlockKey) (version : LockVersion) (cursor : LogCursor) (calls : List OpCall) :
    (SingleUse ((StatusOp.operation C).uses (StatusOp.new aesKey version) calls) ↔
      calls.countP OpCall.isStart ≤ 1) ∧
    (SingleUse ((LockOp.operation C).uses (LockOp.new aesKey unlockKey version) calls) ↔
      calls.countP OpCall.isStart ≤ 1) ∧
    (SingleUse ((UnlockOp.operation C).uses (UnlockOp.new aesKey unlockKey version) calls) ↔
      calls.countP OpCall.isStart ≤ 1) ∧
    (SingleUse ((LogPageOp.operation C chrono).uses (LogPageOp.new aesKey version cursor) calls) ↔
      calls.countP OpCall.isStart ≤ 1) := by
  refine ⟨?_, ?_, ?_, ?_⟩
  · exact (StatusOp.countsDown hC).singleUse_iff (by decide) rfl calls
  · exact (ActuateOp.countsDown hC).singleUse_iff (Nat.le_refl 2) rfl calls
  · exact (ActuateOp.countsDown hC).singleUse_iff (Nat.le_refl 2) rfl calls
  · exact (LogPageOp.countsDown hC chrono).singleUse_iff (by decide) rfl calls

/-- A lock exchange that is started again after the challenge was answered. -/
def restartedExchange : List OpCall :=
  [.start, .handleFrame 0 (sampleReply [0x55, 1, 0, 0, 0, 9]), .start,
    .handleFrame 0 (sampleReply [0x55, 1, 0, 0, 0, 9])]

/-- Both times it emits a lock command. -/
theorem restarted_exchange_not_single_use :
    ¬SingleUse ((LockOp.operation aes128Cbc).uses
      (LockOp.new sampleKey ⟨5, by decide⟩ .default) restartedExchange) := by
  intro h
  have hcommands : ((LockOp.operation aes128Cbc).uses
      (LockOp.new sampleKey ⟨5, by decide⟩ .default) restartedExchange).countP Used.isCommand = 2 := by
    decide +kernel
  have hle := h.one_command
  omega

theorem single_use_status_once :
    SingleUse ((StatusOp.operation aes128Cbc).uses (StatusOp.new sampleKey .default)
      [.start, .handleFrame 0 (sampleReply [0x14, 1, 0, 1]), .handleFrame 0 []]) :=
  (single_use_iff_started_once aes128Cbc_lawful ⟨fun _ _ _ => true, fun _ _ _ => true⟩ sampleKey
    ⟨5, by decide⟩ .default .beginning _).1.2 (by decide)

end TTLock
