import CGuard.Lib.LinkedHeap
import CGuard.Lib.Machine
import CGuard.Acl
import CGuard.AclStore
import CGuard.AclThreads
import CGuard.Lib.ListReader
import CGuard.Lemmas.AclThreads
import CGuard.Theorems.FreedRecord
import CGuard.Theorems.AclRefinement
import CGuard.Theorems.Revocation
import CGuard.Lib.CString
import CGuard.Base64
import CGuard.App
import CGuard.AwsMain
import CGuard.Lib.OwnedTimers
import CGuard.HapServer
import CGuard.Lib.Yields
import CGuard.Lifecycle
import CGuard.Channel
import CGuard.Lib.Threads
import CGuard.HapRequest
import CGuard.SetupCode
import CGuard.Mqtt
import CGuard.MqttYield
import CGuard.Lemmas.MqttReader
import CGuard.Theorems.ReceiveLoop
import CGuard.System
import CGuard.Theorems.Mediation
import CGuard.Theorems.Monitor
import CGuard.Theorems.Undecodable
import CGuard.Theorems.OwnMessage
import CGuard.Theorems.CleanStore
import CGuard.Theorems.Credential
import CGuard.Theorems.OneServer
import CGuard.Theorems.EnabledFlag
import CGuard.Lib.Base64Text
import CGuard.Lemmas.CredentialText
import CGuard.Lemmas.RecordsRun
import CGuard.Theorems.AddRemove
import CGuard.Theorems.AllOrNothing
import CGuard.HapPut
import CGuard.Theorems.WriteStatus
import CGuard.Theorems.CredentialText
import CGuard.Theorems.Announced
import CGuard.WriteRace
import CGuard.Theorems.WriteAfterRevocation
import CGuard.Lemmas.HapServer
import CGuard.Lemmas.HapSessions
import CGuard.Lemmas.Lifecycle
import CGuard.Theorems.CycleIsolation
import CGuard.Theorems.Restart
import CGuard.Lemmas.Listing
import CGuard.Theorems.DeleteTotal
import CGuard.Theorems.StatusListing
import CGuard.Theorems.HeapShape
import CGuard.Lib.Decimal
import CGuard.Theorems.WrittenCommand
import CGuard.Theorems.ArrayBounds
import CGuard.Theorems.NamedRights
import CGuard.Lib.ByteMemory
import CGuard.Tlv
import CGuard.Lemmas.Tlv
import CGuard.Theorems.TlvReader
import CGuard.Theorems.TlvWriter
import CGuard.Lib.LittleEndian
import CGuard.Lib.Poly1305
import CGuard.Lib.Keystream
import CGuard.ChaChaPoly
import CGuard.Lemmas.ChaChaPoly
import CGuard.Theorems.Poly1305
import CGuard.IpSecurity
import CGuard.Lemmas.IpSecurity
import CGuard.Theorems.ChaChaPoly
import CGuard.Theorems.SecureStream
import CGuard.Lib.SlotTable
import CGuard.Pairings
import CGuard.Lemmas.Pairings
import CGuard.Lemmas.PairingRequests
import CGuard.Theorems.PairingRegistry
import CGuard.Lemmas.WrittenTLVs
import CGuard.Theorems.PairingSafety
import CGuard.PairVerify
import CGuard.Lemmas.PairVerify
import CGuard.Theorems.PairVerify
