import VibeUsage.Aggregate
import VibeUsage.Board.Epd
import VibeUsage.Board.EpdPolicy
import VibeUsage.Board.EpdRectangle
import VibeUsage.Board.Ndef
import VibeUsage.Board.NdefRecords
import VibeUsage.Board.Nfc
import VibeUsage.Bounds
import VibeUsage.Cache.BoundedMap
import VibeUsage.Cache.Canonical
import VibeUsage.Cache.Codec
import VibeUsage.Cache.Dictionary
import VibeUsage.Cache.Model
import VibeUsage.Cache.Replace
import VibeUsage.Cache.Snapshot
import VibeUsage.Cache.Valid
import VibeUsage.Cache.Window
import VibeUsage.Calendar
import VibeUsage.Candidate
import VibeUsage.Checksum
import VibeUsage.Client.Advance
import VibeUsage.Client.Context
import VibeUsage.Client.Deadline
import VibeUsage.Client.Durable
import VibeUsage.Client.Fetch
import VibeUsage.Client.Lasting
import VibeUsage.Client.Provenance
import VibeUsage.Client.Start
import VibeUsage.Client.Transaction
import VibeUsage.Controller.Backoff
import VibeUsage.Controller.Boot
import VibeUsage.Controller.Calls
import VibeUsage.Controller.Deadline
import VibeUsage.Controller.FactoryReset
import VibeUsage.Controller.Frame
import VibeUsage.Controller.LinkFrame
import VibeUsage.Controller.LinkPace
import VibeUsage.Controller.Model
import VibeUsage.Controller.Press
import VibeUsage.Controller.Provenance
import VibeUsage.Controller.Timezone
import VibeUsage.Controller.Voice
import VibeUsage.Date
import VibeUsage.Gateway.Action
import VibeUsage.Gateway.Answer
import VibeUsage.Gateway.Chat
import VibeUsage.Gateway.Collector
import VibeUsage.Gateway.Request
import VibeUsage.Gateway.Single
import VibeUsage.Gateway.Speech
import VibeUsage.Gateway.Tasks
import VibeUsage.Gregorian
import VibeUsage.HttpPolicy
import VibeUsage.Iso8601
import VibeUsage.JsonSafety
import VibeUsage.Lib.Agenda
import VibeUsage.Lib.Base64
import VibeUsage.Lib.Buffer
import VibeUsage.Lib.CString
import VibeUsage.Lib.Codec
import VibeUsage.Lib.Compaction
import VibeUsage.Lib.Crc
import VibeUsage.Lib.Decimal
import VibeUsage.Lib.Digits
import VibeUsage.Lib.InetAton
import VibeUsage.Lib.Insertion
import VibeUsage.Lib.Json
import VibeUsage.Lib.JsonReader
import VibeUsage.Lib.JsonStrings
import VibeUsage.Lib.JsonUnique
import VibeUsage.Lib.Machine
import VibeUsage.Lib.Md5
import VibeUsage.Lib.Ndef
import VibeUsage.Lib.Program
import VibeUsage.Lib.Python.Json
import VibeUsage.Lib.Python.Text
import VibeUsage.Lib.Python.Value
import VibeUsage.Lib.Slots
import VibeUsage.Lib.Tlv
import VibeUsage.Lib.Utf8
import VibeUsage.Llm.Endpoint
import VibeUsage.Llm.Portal
import VibeUsage.Llm.Saving
import VibeUsage.Llm.Settings
import VibeUsage.Parser.Attribution
import VibeUsage.Parser.Feed
import VibeUsage.Parser.Language
import VibeUsage.Parser.Lexer
import VibeUsage.Parser.Meaning
import VibeUsage.Parser.Model
import VibeUsage.Parser.Numbers
import VibeUsage.Parser.Response
import VibeUsage.Parser.Schema
import VibeUsage.Parser.Stack
import VibeUsage.Parser.Strings
import VibeUsage.State
import VibeUsage.Storage.Auth
import VibeUsage.Storage.AuthMemory
import VibeUsage.Storage.CacheSlots
import VibeUsage.Storage.DeviceConfig
import VibeUsage.Storage.Erasing
import VibeUsage.Storage.Frame
import VibeUsage.Storage.Nvs
import VibeUsage.Storage.Store
import VibeUsage.Tally
import VibeUsage.Todo.Action
import VibeUsage.Todo.Applicable
import VibeUsage.Todo.Codec
import VibeUsage.Todo.Model
import VibeUsage.Todo.Operations
import VibeUsage.Todo.Reminders
import VibeUsage.Todo.Text
import VibeUsage.Todo.Upload
import VibeUsage.Todo.Valid
import VibeUsage.Tools.Firmware
import VibeUsage.Tools.Partition
import VibeUsage.Tools.Segments
import VibeUsage.Ui.I18n
import VibeUsage.Ui.TextClip
import VibeUsage.Usage
