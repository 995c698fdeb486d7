import TTLock.Cli.Ble
import TTLock.Core.Proofs.Ops

set_option autoImplicit false

/-! # What a scan finds and what a link is given

A scan settles on the first peripheral listed that answers to the target, whichever poll lists it
(`findLock_toOption`). Driving an operation, whatever the link answers, writes nothing but frames the
operation made (`runOp_written`). -/

namespace TTLock

/-! ## Scanning -/

/-- The address the stack gives is the target's. -/
def Peripheral.atAddress (targetAddress : Option String) (self : Peripheral) : Bool :=
  targetAddress.any fun target => eqIgnoreAsciiCase self.address target

/-- What the peripheral's own payload says. -/
def Peripheral.payload (targetAddress : Option String) (self : Peripheral) : Advertisement :=
  match propertiesFor self with
  | .ok info => parseManufacturerMap info.manufacturerData targetAddress
  | .error _ => .unrecognized

/-- The peripheral is the target: by the address the stack gives, by the one in its payload, or by its
    name. -/
def Peripheral.answersTo (targetAddress targetName : Option String) (self : Peripheral) : Bool :=
  self.atAddress targetAddress ||
    match propertiesFor self with
    | .error _ => false
    | .ok info =>
        (targetAddress.any fun target =>
          (self.payload targetAddress).address.any fun address => eqIgnoreAsciiCase address target) ||
        (targetName.any fun target =>
          info.localName.any fun name => contains (toAsciiLowercase name) (toAsciiLowercase target))

/-- The version a scan takes from the peripheral: none from one whose address was enough. -/
def Peripheral.scannedVersion (targetAddress : Option String) (self : Peripheral) :
    Option LockVersion :=
  if self.atAddress targetAddress then none else (self.payload targetAddress).lockVersion

/-- What is listed before the deadline and before the adapter fails. -/
def listed (seconds : Nat) : List Poll → List Peripheral
  | [] => []
  | poll :: polls =>
      if poll.elapsedMs < seconds * 1000 then
        match poll.peripherals with
        | .ok peripherals => peripherals ++ listed seconds polls
        | .error _ => []
      else []

theorem propertiesFor_address {p : Peripheral} {info : PeripheralInfo}
    (h : propertiesFor p = .ok info) : info.address = p.address := by
  unfold propertiesFor at h
  rcases hp : p.properties with e | _ | props
  · rw [hp] at h; cases h
  · rw [hp] at h; cases h; rfl
  · rw [hp] at h; cases h; rfl

theorem any_or {α : Type} (o : Option α) (p q : α → Bool) :
    (o.any fun a => p a || q a) = (o.any p || o.any q) := by
  cases o <;> rfl

section

variable (targetAddress targetName : Option String)

/-- Away from the target's address, matching asks the payload and the name. -/
theorem matchesTarget_eq {p : Peripheral} (hat : p.atAddress targetAddress = false)
    {info : PeripheralInfo} (hinfo : propertiesFor p = .ok info) :
    matchesTarget ⟨p, info.localName, info.address,
        parseManufacturerMap info.manufacturerData targetAddress⟩ targetAddress targetName
      = p.answersTo targetAddress targetName := by
  have hpayload : p.payload targetAddress
      = parseManufacturerMap info.manufacturerData targetAddress := by
    rw [Peripheral.payload, hinfo]
  have hno : (targetAddress.any fun target => eqIgnoreAsciiCase info.address target) = false := by
    rw [propertiesFor_address hinfo]
    exact hat
  simp only [matchesTarget, any_or, hno, Peripheral.answersTo, hat, hinfo, hpayload, Bool.false_or]

/-- A peripheral whose properties cannot be read never matches there. -/
theorem matchesTarget_unread {p : Peripheral} (hat : p.atAddress targetAddress = false) :
    matchesTarget ⟨p, none, p.address, .unrecognized⟩ targetAddress targetName = false := by
  have hno : (targetAddress.any fun target => eqIgnoreAsciiCase p.address target) = false := hat
  have hname : (targetName.any fun target =>
      (none : Option String).any fun name => contains (toAsciiLowercase name)
        (toAsciiLowercase target)) = false := by
    cases targetName <;> rfl
  have haddress : (targetAddress.any fun target =>
      (Advertisement.address .unrecognized).any fun address => eqIgnoreAsciiCase address target)
        = false := by
    cases targetAddress <;> rfl
  simp only [matchesTarget, any_or, hno, hname, haddress, Bool.or_false]

/-- One listing is searched for the first peripheral that answers. -/
theorem findAmong_eq (peripherals : List Peripheral) :
    ((findAmong targetAddress targetName peripherals).map fun lock => lock.advertisement.lockVersion) =
      (peripherals.find? (Peripheral.answersTo targetAddress targetName)).map
        (Peripheral.scannedVersion targetAddress) := by
  induction peripherals with
  | nil => rfl
  | cons p rest ih =>
      have hfast : (targetAddress.any fun target => eqIgnoreAsciiCase p.address target)
          = p.atAddress targetAddress := rfl
      simp only [findAmong, hfast]
      cases hat : p.atAddress targetAddress with
      | true =>
          have hanswers : p.answersTo targetAddress targetName = true := by
            simp only [Peripheral.answersTo, hat, Bool.true_or]
          rw [if_pos rfl, List.find?_cons_of_pos hanswers]
          simp only [Option.map_some, Peripheral.scannedVersion, hat, if_true]
          rfl
      | false =>
          rw [if_neg Bool.false_ne_true]
          rcases hinfo : propertiesFor p with e | info
          · -- its properties are gone: the address did not match, so nothing does
            have hanswers : ¬p.answersTo targetAddress targetName = true := by
              simp only [Peripheral.answersTo, hat, hinfo, Bool.or_false, Bool.false_eq_true,
                not_false_eq_true]
            simp only [matchesTarget_unread targetAddress targetName hat, Bool.false_eq_true, if_false]
            rw [List.find?_cons_of_neg hanswers, ih]
          · simp only [matchesTarget_eq targetAddress targetName hat hinfo]
            cases hanswers : p.answersTo targetAddress targetName with
            | true =>
                rw [if_pos rfl, List.find?_cons_of_pos hanswers]
                simp only [Option.map_some, Peripheral.scannedVersion, hat, Bool.false_eq_true,
                  if_false, Peripheral.payload, hinfo]
            | false =>
                rw [if_neg Bool.false_ne_true, List.find?_cons_of_neg (by rw [hanswers]; decide), ih]

/-- A scan settles on the first peripheral listed that answers to the target. -/
theorem findLock_toOption (seconds : Nat) (polls : List Poll) :
    ((findLock targetAddress targetName seconds polls).toOption.map
        fun lock => lock.advertisement.lockVersion) =
      ((listed seconds polls).find? (Peripheral.answersTo targetAddress targetName)).map
        (Peripheral.scannedVersion targetAddress) := by
  induction polls with
  | nil => rfl
  | cons poll polls ih =>
      rw [findLock, listed]
      split
      · rcases poll.peripherals with e | peripherals
        · rfl
        · have hfound := findAmong_eq targetAddress targetName peripherals
          dsimp only [bind, Except.bind]
          rw [List.find?_append]
          rcases hf : findAmong targetAddress targetName peripherals with _ | lock
          · rw [hf, Option.map_none, eq_comm, Option.map_eq_none_iff] at hfound
            rw [hfound, Option.none_or, ih]
          · rw [hf] at hfound
            obtain ⟨p, hp, hversion⟩ := Option.map_eq_some_iff.1 hfound.symm
            rw [hp, Option.some_or, Option.map_some, hversion]
            rfl
      · rfl

end

/-! ## Driving an operation -/

section

variable {σ T : Type} {op : Operation σ T} {I : σ → Prop} {Q : List UInt8 → Prop}

theorem writeFrame_written {frame : List UInt8} (hframe : Q frame)
    {writes : List (Except CliError Unit)} {next : List (Except CliError Unit) → Driven T}
    (hnext : ∀ writes, ∀ f ∈ (next writes).written, Q f) :
    ∀ f ∈ (writeFrame frame writes next).written, Q f := by
  rcases writes with _ | ⟨_ | _, writes⟩
  · exact List.forall_mem_cons.2 ⟨hframe, fun _ h => absurd h List.not_mem_nil⟩
  · exact List.forall_mem_cons.2 ⟨hframe, fun _ h => absurd h List.not_mem_nil⟩
  · exact List.forall_mem_cons.2 ⟨hframe, hnext writes⟩

/-- In states that meet `I`, `handle_frame` asks for no frames but those that meet `Q`, and it keeps
    `I`. -/
def Operation.WritesOnly (op : Operation σ T) (I : σ → Prop) (Q : List UInt8 → Prop) : Prop :=
  ∀ self now raw, I self → I ((op.handleFrame now raw).call self).2 ∧
    ∀ frame, ((op.handleFrame now raw).call self).1 = .ok (.write frame) → Q frame

/-- The loops of `run_op` write what the operation made, re-sent or not. -/
theorem awaitReply_written (hop : op.WritesOnly I Q) {frame : List UInt8} (hframe : Q frame)
    {crcRetries strayFrames : Nat} {self : σ} (hself : I self)
    {writes : List (Except CliError Unit)} (reads : List (Except CliError (Int × List UInt8))) :
    ∀ f ∈ (awaitReply op frame crcRetries strayFrames self writes reads).written, Q f := by
  induction reads generalizing frame crcRetries strayFrames self writes with
  | nil => simp [awaitReply]
  | cons read reads ih =>
      rcases read with e | ⟨now, raw⟩
      · simp [awaitReply]
      · obtain ⟨hkept, hwrites⟩ := hop self now raw hself
        rw [awaitReply]
        rcases hcall : (op.handleFrame now raw).call self with ⟨e | step, self'⟩
        · rw [hcall] at hkept
          dsimp only
          split
          · exact ih hframe hkept
          · split
            · exact writeFrame_written hframe fun writes => ih hframe hkept
            · simp
        · rw [hcall] at hkept hwrites
          cases step with
          | done output => simp
          | write next =>
              have hnext := hwrites next rfl
              exact writeFrame_written hnext fun writes => ih hnext hkept

/-- Whatever the link answers, `run_op` writes what the operation made. -/
theorem runOp_written (hop : op.WritesOnly I Q) {self self' : σ} {frame : List UInt8}
    (hstart : op.start.call self = (.ok (.write frame), self')) (hself : I self') (hframe : Q frame)
    (link : Link) : ∀ f ∈ (runOp op self link).written, Q f := by
  rw [runOp, hstart]
  exact writeFrame_written hframe fun writes => awaitReply_written hop hframe hself link.reads

/-- The first frame is written before anything can go wrong. -/
theorem runOp_head {self self' : σ} {frame : List UInt8}
    (hstart : op.start.call self = (.ok (.write frame), self')) (link : Link) :
    frame ∈ (runOp op self link).written := by
  rw [runOp, hstart]
  exact List.mem_cons_self

end

end TTLock
