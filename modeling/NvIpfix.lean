import NvIpfix.Tokens
import NvIpfix.CNumeral
import NvIpfix.IntegerSyntax
import NvIpfix.CString
import NvIpfix.EmptyToken
import NvIpfix.LinkedList
import NvIpfix.CharacterMap
import NvIpfix.StringTrim
import NvIpfix.StringList
import NvIpfix.StringSplit
import NvIpfix.Parse
import NvIpfix.IntegerText
import NvIpfix.IsoDatetime
import NvIpfix.Data
import NvIpfix.DataList
import NvIpfix.ListOrder
import NvIpfix.Import
import NvIpfix.SevenBit
import NvIpfix.BracedValue
import NvIpfix.Passes
import NvIpfix.Document
import NvIpfix.RoundTrip
import NvIpfix.Whitespace
import NvIpfix.StringContext
import NvIpfix.Forgery
import NvIpfix.RecordCount
import NvIpfix.MemberOrder
import NvIpfix.GuardedRun
import NvIpfix.Time
import NvIpfix.Config
import NvIpfix.ConfigSafety
import NvIpfix.ConfigDestinations
import NvIpfix.ConfigText
import NvIpfix.EmptyLine
import NvIpfix.ConfigFile
import NvIpfix.ConfigRoundTrip
import NvIpfix.Export
import NvIpfix.ExportContext
import NvIpfix.Daemon
import NvIpfix.DaemonProtocol
import NvIpfix.Polling
import NvIpfix.ReadLoop
import NvIpfix.ReadLoopEnd
import NvIpfix.ConfigActions
import NvIpfix.ConfigEffects
import NvIpfix.ExportInterval
import NvIpfix.FinalNewline
import NvIpfix.EmptyValue
import NvIpfix.TrailingBlanks
import NvIpfix.MainExport
import NvIpfix.AddressText
import NvIpfix.ReportedValue
import NvIpfix.Gregorian
import NvIpfix.FlowTime
import NvIpfix.AddTimespan
import NvIpfix.DaylightSaving
import NvIpfix.NvcImport
import NvIpfix.FlowDuration
import NvIpfix.ExportTotals
import NvIpfix.ExportCalls
import NvIpfix.MessageTotals
import NvIpfix.ExportOwnership
import NvIpfix.Delivery
import NvIpfix.SearchTree
import NvIpfix.HashTable
import NvIpfix.HashTree
import NvIpfix.HashBuckets
import NvIpfix.HashTableMap
import NvIpfix.HashTableOwnership
import NvIpfix.HashLinks
import NvIpfix.HashChanges
import NvIpfix.HashFailure
import NvIpfix.HashZeroKey
import NvIpfix.HashIndex
import NvIpfix.StringOwnership
import NvIpfix.DataOwnership
import NvIpfix.ParseMemory
import NvIpfix.ImportMemory
import NvIpfix.NvcSession
import NvIpfix.SwitchPoll
import NvIpfix.CollectorFeeds
import NvIpfix.ContextParts
import NvIpfix.ExportRuns
import NvIpfix.RecordFlow
import NvIpfix.ConfigContexts
import NvIpfix.ProcessExit
import NvIpfix.DaemonStop
import NvIpfix.PollWindows
import NvIpfix.StructImage
import NvIpfix.ExportTemplate
import NvIpfix.CollectorView
import NvIpfix.Scattered
import NvIpfix.ImportSegments
import NvIpfix.RecordPairs
import NvIpfix.StringInfluence
import NvIpfix.LongDocument
import NvIpfix.CommandLine
