import HaBirdie.StepRuns
import HaBirdie.TextReplacement
import HaBirdie.PythonValues
import HaBirdie.BinaryFloats
import HaBirdie.BinaryRounding
import HaBirdie.RationalRounding
import HaBirdie.PurifierModel
import HaBirdie.PurifierDecoding
import HaBirdie.PurifierModes
import HaBirdie.PurifierReports
import HaBirdie.FilterLife
import HaBirdie.Redaction
import HaBirdie.SearchAddresses
import HaBirdie.LanDevice
import HaBirdie.JobTracking
import HaBirdie.LanDeviceRuns
import HaBirdie.LanDeviceMoves
import HaBirdie.CappedDoubling
import HaBirdie.AddressSearch
import HaBirdie.LanDeviceJobs
import HaBirdie.LanTurns
import HaBirdie.LanAvailability
import HaBirdie.LanClose
import HaBirdie.LanOpen
import HaBirdie.LanSearch
import HaBirdie.LanSearchCleanup
import HaBirdie.LanSettings
import HaBirdie.LanLog
import HaBirdie.LanReadBack
import HaBirdie.PurifierCoordinator
import HaBirdie.LoopSurvival
import HaBirdie.LanReports
import HaBirdie.OptimisticState
import HaBirdie.CommandEcho
import HaBirdie.PublishedState
import HaBirdie.Reconnects
import HaBirdie.KeyRejections
import HaBirdie.StoredAddress
import HaBirdie.SharedListener
import HaBirdie.ConfigFlow
import HaBirdie.RedactedLog
import HaBirdie.RedactedKeys
import HaBirdie.ConfigEntries
import HaBirdie.ConfigFlowSteps
import HaBirdie.AcceptedSettings
import HaBirdie.BleValues
import HaBirdie.BleConnection
import HaBirdie.BleAvailability
import HaBirdie.BleDisconnect
import HaBirdie.BleLateDisconnect
import HaBirdie.BleSubscriptions
import HaBirdie.BleProgress
import HaBirdie.BleWrites
import HaBirdie.BleDecoders
import HaBirdie.BleReadings
import HaBirdie.LanWakeUps
import HaBirdie.LanProgress
import HaBirdie.LanSearchResult
import HaBirdie.LanCommands
import HaBirdie.LanBackoff
import HaBirdie.PurifierEntity
import HaBirdie.PurifierFan
import HaBirdie.LanDiscovery
import HaBirdie.BleShown
import HaBirdie.NetworkSearches
import HaBirdie.PurifierOffers
import HaBirdie.BleConfigFlow
import HaBirdie.BleConfigChoices
import HaBirdie.FilterRounding
