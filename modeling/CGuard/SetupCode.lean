import CGuard.KeyValueStore
import CGuard.AwsMain

/-!
# Enabling the HomeKit channel

`CS_EnableChannel` and `PrepareNewSetupCode` of `CGuard.c`, with the generator of setup codes of `HAPAccessorySetup.c`: what is done
before `HomekitMainFunction` is entered. The random source is a stream of bytes, and the loops that wait for a suitable byte or code
have a bound on their turns (`fuel`): without an answer, `HomekitMainFunction` is not entered.
-/

namespace CGuard

/-! ## Setup codes -/

/-- The loop that draws bytes until one gives a digit. -/
def randomDigit : (fuel : Nat) → Stream' UInt8 → Option (UInt8 × Stream' UInt8)
  | 0, _ => none
  | fuel + 1, random =>
    if random.head &&& 0xF > 9 then randomDigit fuel random.tail else some (48 + (random.head &&& 0xF), random.tail)

/-- The `for` of `HAPAccessorySetupGenerateRandomSetupCode` over the positions of the code: digits, and dashes at 3 and 6. -/
def randomSetupCode (fuel : Nat) : (positions : List Nat) → Stream' UInt8 → Option (List UInt8 × Stream' UInt8)
  | [], random => some ([], random)
  | i :: positions, random => do
    let (c, random) ← if i = 3 ∨ i = 6 then some ('-'.toUInt8, random) else randomDigit fuel random
    let (code, random) ← randomSetupCode fuel positions random
    some (c :: code, random)

/-- The digits of a code that are equal to `previous + step`, where `previous` is the digit before them. -/
def countSteps (step : Int) (digits : List UInt8) : Nat :=
  ((0 :: digits).zip digits).countP fun p => (p.2.toNat : Int) = p.1.toNat + step

/-- (HAPAccessorySetup.c) `HAPAccessorySetupIsValidSetupCode`. -/
def hapAccessorySetupIsValidSetupCode (code : List UInt8) : Bool :=
  let digits := (code.eraseIdx 6).eraseIdx 3
  code.length = 10 && code[3]? = some '-'.toUInt8 && code[6]? = some '-'.toUInt8 && digits.all CString.isdigit
    && countSteps 0 digits ≠ 7 && (code.head? ≠ some '1'.toUInt8 || countSteps 1 digits ≠ 7)
    && (code.head? ≠ some '8'.toUInt8 || countSteps (-1) digits ≠ 7)

/-- (HAPAccessorySetup.c) `HAPAccessorySetupGenerateRandomSetupCode`: codes are drawn until one is valid. -/
def hapAccessorySetupGenerateRandomSetupCode (fuel : Nat) : (turns : Nat) → Stream' UInt8 → Option (List UInt8 × Stream' UInt8)
  | 0, _ => none
  | turns + 1, random => do
    let (code, random) ← randomSetupCode fuel (List.range 10) random
    if hapAccessorySetupIsValidSetupCode code then some (code, random)
    else hapAccessorySetupGenerateRandomSetupCode fuel turns random

/-! ## The setup info -/

/-- (HAPCrypto.h) `SRP_SALT_BYTES`. -/
def srpSaltBytes : Nat := 16

/-- (HAPCrypto.h) `SRP_VERIFIER_BYTES`. -/
def srpVerifierBytes : Nat := 384

/-- `HAP_srp_verifier`: the verifier for a salt, a user name and a password. -/
abbrev SrpVerifier : Type := (salt user pass : List UInt8) → Vector UInt8 srpVerifierBytes

/-- The content of `HAPSetupInfo` for a code: the salt and the verifier. -/
def setupInfo (srp : SrpVerifier) (salt code : List UInt8) : List UInt8 :=
  salt ++ (srp salt (ascii "Pair-Setup") code).toList

/-- The file "40.10": `kSDKKeyValueStoreDomain_Provisioning` and `kSDKKeyValueStoreKey_Provisioning_SetupInfo`. -/
def setupInfoFile : FileName := (0x40, 0x10)

/-- `remove` of the path of the store: a directory goes only if it is empty. -/
def removeStore (s : Store) : Store := s.filter (· ≠ ∅)

/-- `fopen` with "wb", `fwrite` and `fclose` of a file of the store: `fopen` fails if the directory is absent. -/
def writeFile (s : Store) (name : FileName) (bytes : List UInt8) : Option Store :=
  s.map fun files => some (files.insert name bytes)

/-- (CGuard.c) `PrepareNewSetupCode`: its return value, the code it printed, the salt and the store after it. -/
def prepareNewSetupCode (fuel : Nat) (srp : SrpVerifier) (random : Stream' UInt8) (s : Store) :
    Option (Int × List UInt8 × List UInt8 × Store) := do
  let (code, random) ← hapAccessorySetupGenerateRandomSetupCode fuel fuel random
  let salt := random.take srpSaltBytes
  match writeFile s setupInfoFile (setupInfo srp salt code) with
  | none => some (-1, code, salt, s)
  | some s => some (0, code, salt, s)

/-- What `HomekitMainFunction` finds when it is entered: the store, the flags, and the code and the salt of this start. -/
structure HomekitEntry where
  store : Store
  setupCode : List UInt8
  salt : List UInt8
  gisHomeKitEnabled : Bool
  gHAPrequestedFactoryReset : Bool

/-- (CGuard.c) `CS_EnableChannel` of `CHANNEL_HOMEKIT`, up to the call of `HomekitMainFunction`: the return values of `remove` and
of `PrepareNewSetupCode` are not looked at. -/
def csEnableChannel (fuel : Nat) (srp : SrpVerifier) (random : Stream' UInt8) (s : Store) : Option HomekitEntry := do
  let (_, code, salt, s) ← prepareNewSetupCode fuel srp random (removeStore s)
  some { store := s, setupCode := code, salt := salt, gisHomeKitEnabled := true, gHAPrequestedFactoryReset := false }

end CGuard
