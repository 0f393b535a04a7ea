import CGuard.KeyValueStore
import Mathlib.Data.Stream.Init

/-!
# The HomeKit accessory

`App.c` and `VendorFunction.c`: the device behind the two channels, the cached and the saved copy of its state, and the handlers
of a HomeKit read and a HomeKit write of the light bulb.
-/

namespace CGuard

/-- (App.c) `kAppKeyValueStoreDomain_Configuration`. -/
def kAppKeyValueStoreDomainConfiguration : UInt8 := 0x00

/-- (App.c) `kAppKeyValueStoreKey_Configuration_State`. -/
def kAppKeyValueStoreKeyConfigurationState : UInt8 := 0x00

/-- A `bool` of the program, as the byte that it is. -/
def boolByte (value : Bool) : UInt8 := if value then 1 else 0

/-- The value that a byte differs from, be it the byte of a `bool` or not. -/
theorem ne_boolByte_beq_zero (b : UInt8) : b ≠ boolByte (b == 0) := by
  by_cases h : b = 0
  · rw [h]
    decide
  · rw [beq_eq_false_iff_ne.mpr h]
    exact h

/-- (App.c) `AccessoryConfiguration`: the cached state of the bulb, which `LoadAccessoryState` fills with a byte of the disk, and whether
the pointer to the key-value store is set. -/
structure AccessoryConfiguration where
  lightBulbOn : UInt8
  keyValueStore : Bool
  deriving DecidableEq

/-- The globals of the process that the two channels share, and the store on the disk. -/
structure Device where
  acl : Acl
  gLightBulbState : Bool
  gisHomeKitEnabled : Bool
  accessoryConfiguration : AccessoryConfiguration
  store : Store

/-- The process when it has called `InitSecurityEnforcement` and nothing else, on a disk that holds `store`. -/
def Device.start (store : Store) : Device where
  acl := initSecurityEnforcement Acl.start
  gLightBulbState := false
  gisHomeKitEnabled := false
  accessoryConfiguration := { lightBulbOn := 0, keyValueStore := false }
  store := store

/-! ## The vendor's functions -/

/-- (VendorFunction.c) `OperateDevice`. -/
def operateDevice (value : Bool) (d : Device) : Device := { d with gLightBulbState := value }

/-- (VendorFunction.c) `ReadDeviceStatus`. -/
def readDeviceStatus (d : Device) : Bool := d.gLightBulbState

/-! ## The saved state -/

/-- (App.c) `LoadAccessoryState`: a file that is absent or not of the size of the state leaves the default. The byte of the file is not
looked at: it may be neither 0 nor 1. -/
def loadAccessoryState (io : Bool) (d : Device) : Except Fault Device :=
  if !d.accessoryConfiguration.keyValueStore then .error .preconditionFailed
  else
    match hapPlatformKeyValueStoreGet io d.store kAppKeyValueStoreDomainConfiguration
      kAppKeyValueStoreKeyConfigurationState 1 with
    | .error _ => .error .fatalError
    | .ok (some [b]) => .ok { d with accessoryConfiguration.lightBulbOn := b }
    | .ok _ => .ok { d with accessoryConfiguration.lightBulbOn := 0 }

/-- (App.c) `SaveAccessoryState`. An error of the store ends the process, whatever the write has left. -/
def saveAccessoryState (io : Bool) (d : Device) : Except Fault Device :=
  if !d.accessoryConfiguration.keyValueStore then .error .preconditionFailed
  else
    match hapPlatformKeyValueStoreSet io (.unchanged false) d.store kAppKeyValueStoreDomainConfiguration
      kAppKeyValueStoreKeyConfigurationState [d.accessoryConfiguration.lightBulbOn] with
    | (.none, store) => .ok { d with store := store }
    | _ => .error .fatalError

/-- (App.c) `AppCreate`: the configuration is zeroed, then the saved state is loaded. -/
def appCreate (io : Bool) (d : Device) : Except Fault Device :=
  loadAccessoryState io { d with accessoryConfiguration := { lightBulbOn := 0, keyValueStore := true } }

/-! ## Requests -/

/-- The memory a pointer names: the byte there and all that follow it. -/
abbrev Memory : Type := Stream' UInt8

/-- The credential `CC_CheckAuthData` reads through a pointer: always `AuthorizationDataLength` bytes. -/
def credentialAt (m : Memory) : TypeAuthorizationData where
  bytes := m.take authorizationDataLength
  length_eq := Stream'.length_take _ _

/-- (HAP.h) The additional authorization data of a write: a pointer, which may be null, and the length of the data. -/
structure AuthorizationData where
  bytes : Option Memory
  numBytes : Nat

/-- (HAP.h) `HAPBoolCharacteristicWriteRequest`: which characteristic of which service of which accessory is written, and the
authorization data. -/
structure HAPBoolCharacteristicWriteRequest where
  characteristic : Nat
  service : Nat
  accessory : Nat
  authorizationData : AuthorizationData

/-- An event raised with `HAPAccessoryServerRaiseEvent`. -/
structure Event where
  characteristic : Nat
  service : Nat
  accessory : Nat
  deriving DecidableEq

/-- (App.c) `HandleLightBulbOnRead`: the error, the value and the device after it. -/
def handleLightBulbOnRead (d : Device) : HAPError × Bool × Device :=
  let d := { d with accessoryConfiguration.lightBulbOn := boolByte (readDeviceStatus d) }
  (.none, d.accessoryConfiguration.lightBulbOn ≠ 0, d)

/-- (App.c) `HandleLightBulbOnWrite`: the error, the events it raised and the device after it. The cached byte is compared as it is. -/
def handleLightBulbOnWrite (io : Bool) (request : HAPBoolCharacteristicWriteRequest) (value : Bool) (d : Device) :
    Except Fault (HAPError × List Event × Device) := do
  let verdict ← ccCheckAuthData (request.authorizationData.bytes.map credentialAt) rightLightBulbOnCharacteristicWRITE d.acl
  if verdict = 0 then
    if d.accessoryConfiguration.lightBulbOn ≠ boolByte value then
      let d := { d with accessoryConfiguration.lightBulbOn := boolByte value }
      let d ← saveAccessoryState io (operateDevice value d)
      .ok (.none, [⟨request.characteristic, request.service, request.accessory⟩], d)
    else .ok (.none, [], d)
  else .ok (.none, [], d)

end CGuard
