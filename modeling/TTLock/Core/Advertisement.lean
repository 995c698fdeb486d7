import TTLock.Core.Packet

set_option autoImplicit false

/-! # Advertisements (`ttlock-core/src/advertisement.rs`)

Locks broadcast their state, so bolt and battery can be tracked without connecting. `Advertisement`
names the shapes a payload can have; only the `stateful` one carries a bolt position. -/

namespace TTLock

inductive Bolt where
  | locked
  | unlocked
deriving DecidableEq, Repr

def Bolt.isLocked : Bolt → Bool
  | .locked => true
  | .unlocked => false

/-- A battery charge level, 0-100. -/
structure Percent where
  get : UInt8
  le_hundred : get ≤ 100
deriving DecidableEq, Repr

def Percent.new (value : UInt8) : Option Percent :=
  if h : value ≤ 100 then some ⟨value, h⟩ else none

/-- Which lock an advertisement came from, and which dialect it speaks. -/
structure LockIdentity where
  address : Option String
  version : LockVersion
deriving DecidableEq, Repr

/-- What a lock reported about itself. -/
structure LockStatus where
  bolt : Bolt
  battery : Option Percent
  hasEvents : Bool
  isSettingMode : Bool
deriving DecidableEq, Repr

inductive Advertisement where
  /-- Not a payload of these locks, or too short to identify one. -/
  | unrecognized
  /-- A lock in firmware-update mode. -/
  | dfu
  /-- A lock whose protocol family carries no status flags. -/
  | stateless (identity : LockIdentity)
  | stateful (identity : LockIdentity) (status : LockStatus)
deriving DecidableEq, Repr

namespace Advertisement

def identity : Advertisement → Option LockIdentity
  | .stateless identity | .stateful identity _ => some identity
  | .unrecognized | .dfu => none

def status : Advertisement → Option LockStatus
  | .stateful _ status => some status
  | .unrecognized | .dfu | .stateless _ => none

def lockVersion (self : Advertisement) : Option LockVersion := self.identity.map (·.version)

def address (self : Advertisement) : Option String := self.identity.bind (·.address)

/-- Whether this payload matches an expected address, case-insensitively. -/
def matchesAddress (self : Advertisement) (expected : Option String) : Bool :=
  match self.address, expected with
  | some address, some expected => eqIgnoreAsciiCase address expected
  | _, _ => false

/-- How useful this payload is, for choosing between several on one device. Higher wins. -/
def rank (self : Advertisement) (matched : Bool) : Nat :=
  match self with
  | .stateful _ _ => if matched then 5 else 4
  | .stateless _ => if matched then 3 else 2
  | .dfu => 1
  | .unrecognized => 0

end Advertisement

/-! ## Parsing one payload -/

/-- Whether this protocol family carries a status flags byte at all. -/
def carriesStatus (protocolType protocolVersion : UInt8) : Bool :=
  protocolType ≥ 5 && !(protocolType == 5 && protocolVersion == 1)

/-- One digit of `{:02X}`. -/
def upperHexDigit (n : Nat) : Char :=
  if n < 10 then Char.ofNat ('0'.toNat + n) else Char.ofNat ('A'.toNat + (n - 10))

/-- `{byte:02X}`. -/
def upperHexByte (byte : UInt8) : List Char :=
  [upperHexDigit (byte.toNat / 16), upperHexDigit (byte.toNat % 16)]

/-- Bytes in hex, joined with colons. -/
def macString (bytes : List UInt8) : String :=
  String.ofList (List.intercalate [':'] (bytes.map upperHexByte))

/-- Parse a raw payload, company identifier included. -/
def parseManufacturerData (data : List UInt8) : Advertisement :=
  if hlen : data.length < 15 then .unrecognized
  else
    let protocolType := data[0]
    let protocolVersion := data[1]
    if (protocolType = 18 ∧ protocolVersion = 25) ∨
        (protocolType = 0xff ∧ protocolVersion = 0xff) then .dfu
    else
      -- V3 puts the scene right after the header, everything else repeats the version further in
      let (protocolType, protocolVersion, scene, offset) :=
        if protocolType = 5 ∧ protocolVersion = 3 then (protocolType, protocolVersion, data[2], 3)
        else (data[4], data[5], data[7], 8)
      let address := macString (data.drop (data.length - 6)).reverse
      let identity : LockIdentity :=
        { address := some address
          version := { protocolType, protocolVersion, scene, groupId := 1, orgId := 1 } }
      if !carriesStatus protocolType protocolVersion then .stateless identity
      else match data[offset]?, data[offset + 1]? with
        | some flags, some battery => .stateful identity
            { bolt := if flags &&& 0x01 = 0 then .locked else .unlocked
              battery := Percent.new battery
              hasEvents := flags &&& 0x02 != 0
              isSettingMode := flags &&& 0x04 != 0 }
        | _, _ => .stateless identity

/-! ## Choosing among the entries of one device -/

/-- A manufacturer-data map, as the list of its entries in iteration order. -/
structure ManufacturerData where
  entries : List (UInt16 × List UInt8)
  nodup : (entries.map Prod.fst).Nodup
deriving DecidableEq

/-- The payload of an entry, its company identifier prepended in little-endian order. -/
def fullPayload (companyId : UInt16) (bytes : List UInt8) : List UInt8 :=
  (BigEndian.toBytes16 companyId).reverse ++ bytes

/-- One round of the selection loop: keep the best entry so far, or take this one. -/
def selectEntry (expectedAddress : Option String) (best : Option (Nat × UInt16 × Advertisement))
    (entry : UInt16 × List UInt8) : Option (Nat × UInt16 × Advertisement) :=
  let (companyId, bytes) := entry
  let parsed := parseManufacturerData (fullPayload companyId bytes)
  let rank := parsed.rank (parsed.matchesAddress expectedAddress)
  let better := match best with
    | none => true
    | some (bestRank, bestId, _) => rank > bestRank || (rank == bestRank && companyId < bestId)
  if better then some (rank, companyId, parsed) else best

/-- Parse a manufacturer-data map, choosing the most informative entry. -/
def parseManufacturerMap (manufacturerData : ManufacturerData) (expectedAddress : Option String) :
    Advertisement :=
  match manufacturerData.entries.foldl (selectEntry expectedAddress) none with
  | none => .unrecognized
  | some (_, _, parsed) => parsed

end TTLock
