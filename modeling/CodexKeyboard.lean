import CodexKeyboard.Schemes.Table
import CodexKeyboard.Schemes.Transact
import CodexKeyboard.Schemes.Chunks
import CodexKeyboard.Schemes.Bytes
import CodexKeyboard.Schemes.Interleave
import CodexKeyboard.Store.Schema
import CodexKeyboard.Store.Jobs
import CodexKeyboard.Store.Rollout
import CodexKeyboard.Store.CacheId
import CodexKeyboard.Store.Summary
import CodexKeyboard.Store.Playback
import CodexKeyboard.Store.Ops
import CodexKeyboard.Store.Spec
import CodexKeyboard.Store.Effect
import CodexKeyboard.Store.Ledger
import CodexKeyboard.Store.Completions
import CodexKeyboard.Store.JobQueue
import CodexKeyboard.Store.Integrity
import CodexKeyboard.Store.WellFormed
import CodexKeyboard.Store.Claims
import CodexKeyboard.Store.Handover
import CodexKeyboard.Summary.Orchestrator
import CodexKeyboard.Summary.Wedge
import CodexKeyboard.Summary.Runner
import CodexKeyboard.Lan.Wire
import CodexKeyboard.Lan.Sender
import CodexKeyboard.Lan.Moves
import CodexKeyboard.Device.SlotState
import CodexKeyboard.Device.Playback
import CodexKeyboard.Device.SlotMoves
import CodexKeyboard.Lan.Transfer
import CodexKeyboard.Lan.Receiver
import CodexKeyboard.Lan.Faithful
import CodexKeyboard.Lan.Gap
import CodexKeyboard.Lan.Codec
import CodexKeyboard.Device.Codec
import CodexKeyboard.Lan.Canonical
import CodexKeyboard.Lan.SameLanguage
import CodexKeyboard.Lan.Nonces
import CodexKeyboard.Device.SlotRuns
import CodexKeyboard.Lan.Capture
import CodexKeyboard.Lan.CaptureMoves
import CodexKeyboard.Lan.CaptureRuns
import CodexKeyboard.Audio.Eiad
import CodexKeyboard.Device.SoundReader
import CodexKeyboard.Audio.Frames
import CodexKeyboard.Audio.Speaker
import CodexKeyboard.Audio.Arbiter
import CodexKeyboard.Audio.ArbiterRuns
import CodexKeyboard.Audio.ArbiterOwners
import CodexKeyboard.Audio.ArbiterSafe
import CodexKeyboard.Cache.Objects
import CodexKeyboard.Cache.Directory
import CodexKeyboard.Cache.Intact
import CodexKeyboard.Cache.Gate
import CodexKeyboard.Cache.Retained
import CodexKeyboard.Cache.Kept
import CodexKeyboard.Cache.Capacity
import CodexKeyboard.Schemes.JsonWriter
import CodexKeyboard.Schemes.Text
import CodexKeyboard.Redaction.Redact
import CodexKeyboard.Redaction.Places
import CodexKeyboard.Redaction.Scan
import CodexKeyboard.Redaction.Total
import CodexKeyboard.Keyboard.Held
import CodexKeyboard.Keyboard.Delivery
import CodexKeyboard.Keyboard.Chord
import CodexKeyboard.Keyboard.ChordRuns
import CodexKeyboard.Keyboard.ChordSafe
import CodexKeyboard.SoundSync.Frame
import CodexKeyboard.SoundSync.Bundle
import CodexKeyboard.SoundSync.Session
import CodexKeyboard.SoundSync.SessionFacts
import CodexKeyboard.SoundSync.FrameWire
import CodexKeyboard.SoundSync.WifiRecords
import CodexKeyboard.SoundSync.PlanWire
import CodexKeyboard.SoundSync.StagingHeader
import CodexKeyboard.SoundSync.SessionRuns
import CodexKeyboard.SoundSync.SessionLending
import CodexKeyboard.SoundSync.SessionFragments
import CodexKeyboard.SoundSync.SessionReplay
import CodexKeyboard.SoundSync.Mailbox
import CodexKeyboard.SoundSync.RuntimeCore
import CodexKeyboard.SoundSync.World
import CodexKeyboard.SoundSync.CoreView
import CodexKeyboard.SoundSync.MailboxFacts
import CodexKeyboard.SoundSync.ClosedRoutes
import CodexKeyboard.SoundSync.RouteDeath
import CodexKeyboard.SoundSync.Accounting
import CodexKeyboard.SoundSync.Admission
import CodexKeyboard.SoundSync.Reservation
import CodexKeyboard.SoundSync.AdmissionRuns
import CodexKeyboard.SoundSync.WifiSlot
import CodexKeyboard.SoundSync.WifiSlotRuns
import CodexKeyboard.SoundSync.WifiSlotSafe
import CodexKeyboard.Tts.Wire
import CodexKeyboard.Tts.Batch
import CodexKeyboard.Tts.Session
import CodexKeyboard.Tts.Client
import CodexKeyboard.Tts.Ambiguous
import CodexKeyboard.Tts.Billing
import CodexKeyboard.Audio.Checked
import CodexKeyboard.Observer.Leak
import CodexKeyboard.Audio.Grammar
import CodexKeyboard.Audio.Lockstep
import CodexKeyboard.Schemes.Ring
import CodexKeyboard.Schemes.Runs
import CodexKeyboard.Keyboard.HidReportQueue
import CodexKeyboard.Keyboard.BleInputScheduler
import CodexKeyboard.Keyboard.BleInputRuns
import CodexKeyboard.Keyboard.BleInputConserved
import CodexKeyboard.Keyboard.BleInputPaced
import CodexKeyboard.Device.PushToTalk
import CodexKeyboard.Provisioning.DeviceSecret
import CodexKeyboard.Provisioning.DashscopeEnv
import CodexKeyboard.Schemes.JsonText
import CodexKeyboard.Config.Reader
import CodexKeyboard.Config.ReaderSafe
import CodexKeyboard.Config.ReaderExact
import CodexKeyboard.Config.Payload
import CodexKeyboard.Config.Numbers
import CodexKeyboard.Config.Receiver
import CodexKeyboard.Config.Ingress
import CodexKeyboard.Provisioning.LanPayload
import CodexKeyboard.Provisioning.LanAccepted
import CodexKeyboard.Provisioning.WifiFields
import CodexKeyboard.Provisioning.Reports
import CodexKeyboard.Provisioning.Acknowledged
import CodexKeyboard.Keyboard.Debounce
import CodexKeyboard.Keyboard.GpioInputScanner
import CodexKeyboard.Keyboard.GpioInputRuns
import CodexKeyboard.Keyboard.GpioInputSettles
import CodexKeyboard.Audio.Recording
import CodexKeyboard.Audio.RecordingRuns
import CodexKeyboard.Keyboard.DebounceRuns
import CodexKeyboard.Schemes.Winding
import CodexKeyboard.Keyboard.Encoder
import CodexKeyboard.Keyboard.EncoderTurns
import CodexKeyboard.Tts.FrameReads
import CodexKeyboard.Tts.Delivery
import CodexKeyboard.Tts.Delivered
import CodexKeyboard.Tts.Refused
import CodexKeyboard.Tts.Delivers
import CodexKeyboard.Schemes.Encoded
import CodexKeyboard.Schemes.JsonWriting
import CodexKeyboard.Status.Writer
import CodexKeyboard.Status.Views
import CodexKeyboard.Status.Members
import CodexKeyboard.Status.Fits
import CodexKeyboard.Status.Escapes
import CodexKeyboard.Status.Published
import CodexKeyboard.Status.FullView
import CodexKeyboard.Schemes.Rotation
import CodexKeyboard.Usb.Lifetime
import CodexKeyboard.Usb.Reports
import CodexKeyboard.Usb.Transport
import CodexKeyboard.Usb.Fair
import CodexKeyboard.Usb.Typed
import CodexKeyboard.Usb.TypedRuns
