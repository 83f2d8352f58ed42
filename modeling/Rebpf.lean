import Rebpf.Lib.Run
import Rebpf.Lib.Bytes
import Rebpf.Lib.Outcome
import Rebpf.DenseDfa
import Rebpf.Match
import Rebpf.Extract
import Rebpf.ExtractTable
import Rebpf.ExtractLoop
import Rebpf.Encode
import Rebpf.ArenaLayout
import Rebpf.Walk
import Rebpf.WalkRefines
import Rebpf.Decide
import Rebpf.Matches
import Rebpf.DecideTables
import Rebpf.Lib.FirstMatch
import Rebpf.FirstReport
import Rebpf.Policy
import Rebpf.Fields
import Rebpf.Lib.Splice
import Rebpf.Edits
import Rebpf.Requests
import Rebpf.OwnEntries
import Rebpf.Isolation
import Rebpf.DecideMemory
import Rebpf.Kernel
import Rebpf.KernelHooks
import Rebpf.Reload
import Rebpf.TaskCache
import Rebpf.BpfReload
import Rebpf.EncodeTotal
import Rebpf.ArenaSize
import Rebpf.Installed
import Rebpf.MatchStore
import Rebpf.State
import Rebpf.Netlink
import Rebpf.Daemon
import Rebpf.FailClosed
import Rebpf.ReloadRules
import Rebpf.Cleanup
import Rebpf.StateFile
import Rebpf.CrashSafety
import Rebpf.Lib.SpelledMap
import Rebpf.Lib.LeastFirst
import Rebpf.Dns
import Rebpf.DnsRecords
import Rebpf.DnsMirror
import Rebpf.DnsExpiry
import Rebpf.DnsServed
import Rebpf.Lib.Watch
import Rebpf.System
import Rebpf.SystemSteps
import Rebpf.Settled
import Rebpf.DnsDisabled
import Rebpf.DefaultLink
import Rebpf.OutputDevice
import Rebpf.LanMirror
import Rebpf.WatchReload
import Rebpf.MarkCoverage
import Rebpf.RuleWindow
import Rebpf.Lib.Regex
import Rebpf.PathPatterns
import Rebpf.GuiMatches
import Rebpf.TableDirection
import Rebpf.NamedEntry
import Rebpf.Deletable
import Rebpf.InForce
import Rebpf.RuleLookup
import Rebpf.ClearedRules
import Rebpf.TtlSweep
import Rebpf.NewestTtl
import Rebpf.DnsClassify
import Rebpf.NameSpelling
import Rebpf.DnsPatterns
import Rebpf.RetireRecord
import Rebpf.AnswerOrder
import Rebpf.Lib.Tlv
import Rebpf.CloneRoute
import Rebpf.Lib.Buckets
import Rebpf.Lib.LossyText
import Rebpf.ProcNames
import Rebpf.Lib.FieldMap
import Rebpf.GuiTrip
import Rebpf.SettingsMap
import Rebpf.SettingsEdits
import Rebpf.SettingsTurns
import Rebpf.GuiState
import Rebpf.GuiPanes
import Rebpf.GuiRollback
import Rebpf.GuiRows
import Rebpf.GuiProcs
import Rebpf.Lib.Semaphore
import Rebpf.PollPermits
import Rebpf.GuiWindow
import Rebpf.StartTime
import Rebpf.Lib.Exchange
import Rebpf.RefreshProcess
import Rebpf.RefreshEnds
import Rebpf.OwnedNet
import Rebpf.Shutdown
import Rebpf.SaveLoop
import Rebpf.Lib.Mirror
import Rebpf.GuiShown
import Rebpf.GuiMirror
import Rebpf.Steering
import Rebpf.Routed
import Rebpf.SocketDump
import Rebpf.ProcDump
import Rebpf.ActiveRows
import Rebpf.Ingress
import Rebpf.Lib.Optimistic
import Rebpf.NatRules
import Rebpf.NatCalls
