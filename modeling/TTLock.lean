import TTLock.Lib.Mealy
import TTLock.Lib.Runs
import TTLock.Lib.Decoder
import TTLock.Lib.BigEndian
import TTLock.Lib.Aes
import TTLock.Lib.Cbc
import TTLock.Core.Error
import TTLock.Core.Crc
import TTLock.Core.Credential
import TTLock.Core.Crypto
import TTLock.Core.Aes
import TTLock.Core.Packet
import TTLock.Core.Advertisement
import TTLock.Core.Framing
import TTLock.Core.Ops
import TTLock.Core.Oplog
import TTLock.Core.Tracker
import TTLock.Core.Proofs.Tracker
import TTLock.Core.Proofs.Framing
import TTLock.Core.Proofs.Wire
import TTLock.Core.Proofs.Ops
import TTLock.Core.Proofs.SingleUse
import TTLock.Cli.Mqtt
import TTLock.Cli.Worker
import TTLock.Cli.Broker
import TTLock.Cli.Pump
import TTLock.Cli.Proofs.Broker
import TTLock.Cli.Proofs.Pump
import TTLock.HomeAssistant.Coordinator
import TTLock.HomeAssistant.Proofs.Coordinator
import TTLock.Cli.Actuate
import TTLock.Cli.Proofs.Ble
import TTLock.Cli.Proofs.Actuate
import TTLock.Core.Proofs.Crc
import TTLock.Lib.Watchdog
import TTLock.Core.Proofs.Expiry
import TTLock.Cli.Proofs.Acknowledged
import TTLock.Cli.RunLoop
import TTLock.Cli.Proofs.RunLoop
import TTLock.Lib.Retry
import TTLock.Lib.Retry.Restarting
import TTLock.Cli.Proofs.Transport
import TTLock.Cli.Proofs.Noise
import TTLock.HomeAssistant.Exchange
import TTLock.HomeAssistant.Proofs.Exchange
import TTLock.Cli.LockLink
import TTLock.Cli.LogLink
import TTLock.Cli.Proofs.LogLink
import TTLock.Cli.Proofs.StoredLog
import TTLock.Cli.Proofs.Walk
import TTLock.Cli.Proofs.Returns
import TTLock.Cli.Proofs.Resume
import TTLock.Cli.Proofs.Resend
import TTLock.Core.Proofs.LogPage
import TTLock.Core.Proofs.Advertisement
import TTLock.Core.Proofs.Credential
import TTLock.Cli.Proofs.Limit
import TTLock.Cli.Proofs.Bookmark
import TTLock.Cli.Logs
import TTLock.Cli.Proofs.Logs
import TTLock.Cli.Timed
import TTLock.Cli.Proofs.Timed
import TTLock.Core.Proofs.CrcSerial
import TTLock.Core.Proofs.Payload
import TTLock.Core.Proofs.Assembler
import TTLock.Core.Proofs.Changed
import TTLock.Core.Proofs.Recovery
import TTLock.Cli.Proofs.Target
import TTLock.Core.Sciener
import TTLock.Core.Proofs.Sciener
import TTLock.Core.Proofs.LockFile
import TTLock.Cli.Proofs.Sciener
import TTLock.Cli.Proofs.Import
import TTLock.Cli.Proofs.LockSafety
import TTLock.Cli.Proofs.LockLiveness
import TTLock.HomeAssistant.Proofs.LockSafety
import TTLock.HomeAssistant.Proofs.Client
import TTLock.HomeAssistant.Proofs.Effects
import TTLock.HomeAssistant.Proofs.Refinement
import TTLock.HomeAssistant.Proofs.ConfigFlow
import TTLock.Cli.Proofs.DaemonRun
import TTLock.Cli.Proofs.Fleet
