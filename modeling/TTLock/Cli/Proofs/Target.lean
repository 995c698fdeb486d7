import TTLock.Cli.Proofs.Actuate

set_option autoImplicit false

/-! # The lock that is tracked and the lock that is commanded

The daemon resolves its target once, and every command resolves it again. The two agree if no address
is given. An address that is given has to be one of the file for a command, and the daemon does not
look; and an empty one counts as none to the daemon, but not to a command. -/

namespace TTLock

/-- The same address to those who compare addresses, or none on either side. -/
def SameAddress (a b : Option String) : Prop := a.map toAsciiLowercase = b.map toAsciiLowercase

/-- Whatever the daemon tracks is what commands select from the same file and look for. -/
def CommandsTracked (connect : ConnectOpts) (locks : List LockData) : Prop :=
  ∀ target, resolveTarget connect (.ok locks) = .ok target →
    ∃ selected, selectLock locks connect.address = .ok selected ∧
      SameAddress (targetAddress connect selected) target.address

/-- A flag that is given and not empty. -/
def nonEmpty (text : Option String) : Option String := text.filter fun t => !t.isEmpty

/-- Whether the flags and the file give commands what they give the daemon: the address is one of the
    file if there is one, and where it is empty there is nothing for the daemon to track. -/
def NamesAnEntry (connect : ConnectOpts) (locks : List LockData) : Prop :=
  match connect.address with
  | none => True
  | some address =>
      if address.isEmpty then
        ∀ lock, locks.head? = some lock → lock.address.isEmpty ∧ nonEmpty connect.name = none
      else ∃ lock ∈ locks, eqIgnoreAsciiCase lock.address address

theorem nonEmpty_some (text : String) :
    nonEmpty (some text) = if text.isEmpty then none else some text := by
  rw [nonEmpty, Option.filter_some]
  cases text.isEmpty <;> rfl

/-- Resolving with an address. -/
theorem resolveTarget_of_address {connect : ConnectOpts} {address : String}
    (h : nonEmpty connect.address = some address) (file : Except TtlockError (List LockData)) :
    resolveTarget connect file =
      .ok { address := some address, name := nonEmpty connect.name } := by
  unfold nonEmpty at h
  simp [resolveTarget, h, nonEmpty]
  rfl

/-- Resolving without one. -/
theorem resolveTarget_of_no_address {connect : ConnectOpts} (h : nonEmpty connect.address = none)
    {locks : List LockData} {target : Target} :
    resolveTarget connect (.ok locks) = .ok target ↔
      ∃ lock, locks.head? = some lock ∧
        target = { address := nonEmpty (some lock.address), name := nonEmpty connect.name } ∧
        (lock.address.isEmpty = true → nonEmpty connect.name ≠ none) := by
  unfold nonEmpty at h
  cases hlocks : locks.head? with
  | none => simp [resolveTarget, h, selectLock, hlocks, Except.mapError, bind, Except.bind]
  | some lock =>
      simp only [resolveTarget, h, selectLock, hlocks, Except.mapError, bind, Except.bind, pure,
        Except.pure]
      have hneither : ((nonEmpty (some lock.address)).isNone && (nonEmpty connect.name).isNone) = true ↔
          lock.address.isEmpty = true ∧ nonEmpty connect.name = none := by
        rw [nonEmpty_some, Bool.and_eq_true, Option.isNone_iff_eq_none, Option.isNone_iff_eq_none]
        cases lock.address.isEmpty <;> simp
      unfold nonEmpty at hneither ⊢
      by_cases hnone : lock.address.isEmpty = true ∧ nonEmpty connect.name = none
      · rw [if_pos (hneither.2 hnone)]
        refine iff_of_false (by simp [throw, throwThe, MonadExceptOf.throw]) ?_
        rintro ⟨lock', heq, -, hname⟩
        obtain rfl := Option.some.inj heq
        exact hname hnone.1 hnone.2
      · rw [if_neg (mt hneither.1 hnone), Except.ok.injEq]
        constructor
        · rintro rfl
          exact ⟨lock, rfl, rfl, fun hempty hname => hnone ⟨hempty, hname⟩⟩
        · rintro ⟨lock', heq, rfl, -⟩
          obtain rfl := Option.some.inj heq
          rfl

theorem selectLock_some_iff {locks : List LockData} {address : String} :
    (∃ selected, selectLock locks (some address) = .ok selected) ↔
      ∃ lock ∈ locks, eqIgnoreAsciiCase lock.address address := by
  rw [selectLock, ← List.find?_isSome]
  cases locks.find? fun lock => eqIgnoreAsciiCase lock.address address <;> simp

/-- An empty address is nobody's. -/
theorem not_sameAddress_empty {address : String} (h : address.isEmpty = true) (text : String) :
    ¬SameAddress (some address) (nonEmpty (some text)) := by
  obtain rfl := String.isEmpty_iff.1 h
  rw [SameAddress, nonEmpty_some]
  intro hsame
  cases hempty : text.isEmpty with
  | true => simp [hempty] at hsame
  | false =>
      have hchars : [] = text.toList.map Char.toLower := by simpa [hempty, toAsciiLowercase] using hsame
      have hnil : text = "" := by simpa using hchars.symm
      simp [hnil] at hempty

/-- With no address both take the first entry. -/
theorem commandsTracked_of_no_address {connect : ConnectOpts} (haddress : connect.address = none)
    (locks : List LockData) : CommandsTracked connect locks := by
  have hnone : nonEmpty connect.address = none := by rw [haddress]; rfl
  intro target htarget
  obtain ⟨lock, hlock, rfl, -⟩ := (resolveTarget_of_no_address hnone).1 htarget
  refine ⟨lock, by rw [haddress, selectLock, hlock], ?_⟩
  rw [SameAddress, targetAddress, haddress, nonEmpty_some]
  rfl

/-- With an empty one only the daemon does. -/
theorem commandsTracked_of_empty_iff {connect : ConnectOpts} {address : String}
    (haddress : connect.address = some address) (hempty : address.isEmpty = true)
    (locks : List LockData) :
    CommandsTracked connect locks ↔
      ∀ lock, locks.head? = some lock → lock.address.isEmpty ∧ nonEmpty connect.name = none := by
  have hnone : nonEmpty connect.address = none := by rw [haddress, nonEmpty_some, if_pos hempty]
  constructor
  · intro htracked lock hlock
    by_contra hstarts
    obtain ⟨selected, -, hsame⟩ := htracked _ ((resolveTarget_of_no_address hnone).2
      ⟨lock, hlock, rfl, fun hlockEmpty hname => hstarts ⟨hlockEmpty, hname⟩⟩)
    rw [targetAddress, haddress] at hsame
    exact not_sameAddress_empty hempty lock.address hsame
  · intro hsilent target htarget
    obtain ⟨lock, hlock, -, hname⟩ := (resolveTarget_of_no_address hnone).1 htarget
    obtain ⟨hlockEmpty, hnameNone⟩ := hsilent lock hlock
    exact absurd hnameNone (hname hlockEmpty)

/-- With any other the daemon tracks that, and a command needs an entry for it. -/
theorem commandsTracked_of_address_iff {connect : ConnectOpts} {address : String}
    (haddress : connect.address = some address) (hempty : ¬address.isEmpty = true)
    (locks : List LockData) :
    CommandsTracked connect locks ↔ ∃ lock ∈ locks, eqIgnoreAsciiCase lock.address address := by
  have hsome : nonEmpty connect.address = some address := by
    rw [haddress, nonEmpty_some, if_neg hempty]
  rw [CommandsTracked, resolveTarget_of_address hsome, haddress, ← selectLock_some_iff]
  constructor
  · intro htracked
    obtain ⟨selected, hselected, -⟩ := htracked _ rfl
    exact ⟨selected, hselected⟩
  · rintro ⟨selected, hselected⟩ target htarget
    obtain rfl := Except.ok.inj htarget
    refine ⟨selected, hselected, ?_⟩
    rw [SameAddress, targetAddress, haddress]
    rfl

/-- **The daemon tracks the lock it can command** iff the address it is given is one of the file, or it
    is given none, or it is given an empty one and does not start. -/
theorem commandsTracked_iff (connect : ConnectOpts) (locks : List LockData) :
    CommandsTracked connect locks ↔ NamesAnEntry connect locks := by
  unfold NamesAnEntry
  cases haddress : connect.address with
  | none => exact iff_of_true (commandsTracked_of_no_address haddress locks) trivial
  | some address =>
      dsimp only
      split
      · next hempty => exact commandsTracked_of_empty_iff haddress hempty locks
      · next hempty => exact commandsTracked_of_address_iff haddress hempty locks

/-- With an empty address, and with one that is not in the file, the daemon starts and tracks, and no
    command finds an entry. -/
theorem tracked_but_not_commanded :
    let empty := { WorkerRun.sampleConnect with address := some "" }
    let foreign := { WorkerRun.sampleConnect with address := some "11:22:33:44:55:66" }
    let locks := [WorkerRun.sampleLockData]
    (resolveTarget empty (.ok locks) = .ok WorkerRun.sampleTarget ∧
      selectLock locks empty.address = .error (.message "no lockData entry matches address ") ∧
      ¬CommandsTracked empty locks) ∧
    resolveTarget foreign (.ok locks) = .ok { address := some "11:22:33:44:55:66", name := none } ∧
      selectLock locks foreign.address =
        .error (.message "no lockData entry matches address 11:22:33:44:55:66") ∧
      ¬CommandsTracked foreign locks := by
  intro empty foreign locks
  have hresolved : resolveTarget empty (.ok locks) = .ok WorkerRun.sampleTarget := by decide +kernel
  have hrefused : selectLock locks empty.address =
      .error (.message "no lockData entry matches address ") := by decide +kernel
  have hresolved' : resolveTarget foreign (.ok locks) =
      .ok { address := some "11:22:33:44:55:66", name := none } := by decide +kernel
  have hrefused' : selectLock locks foreign.address =
      .error (.message "no lockData entry matches address 11:22:33:44:55:66") := by decide +kernel
  refine ⟨⟨hresolved, hrefused, fun h => ?_⟩, hresolved', hrefused', fun h => ?_⟩
  · obtain ⟨selected, hselected, -⟩ := h _ hresolved
    simp [hrefused] at hselected
  · obtain ⟨selected, hselected, -⟩ := h _ hresolved'
    simp [hrefused'] at hselected

end TTLock
