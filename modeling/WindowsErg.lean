import WindowsErg.CryptoAesGcm
import WindowsErg.DesktopTray
import WindowsErg.DesktopWindow
import WindowsErg.EtwDecodeRecords
import WindowsErg.EtwSchemaMaps
import WindowsErg.EtwSchemaTexts
import WindowsErg.EtwSessionControl
import WindowsErg.EtwSessionName
import WindowsErg.EvtBuffers
import WindowsErg.EvtEventData
import WindowsErg.EvtMessage
import WindowsErg.EvtQuerySelect
import WindowsErg.EvtTimestampChecked
import WindowsErg.FilePeChecksum
import WindowsErg.FilePeImports
import WindowsErg.FileRawCopy
import WindowsErg.FileSafeCreate
import WindowsErg.Filetimes
import WindowsErg.PathCache
import WindowsErg.PathDevices
import WindowsErg.PipesErrors
import WindowsErg.PipesInterval
import WindowsErg.PipesLocalInfo
import WindowsErg.PipesServerConnect
import WindowsErg.PipesServerIo
import WindowsErg.ProcessEnvironment
import WindowsErg.ProcessHistory
import WindowsErg.ProcessModules
import WindowsErg.ProcessSpawn
import WindowsErg.RegistryEnumerate
import WindowsErg.RegistryTexts
import WindowsErg.SecurityCompose
import WindowsErg.SecurityRevoke
import WindowsErg.SecuritySddlFlags
import WindowsErg.SecuritySddlRights
import WindowsErg.SecuritySidRoundTrip
import WindowsErg.SystemFirmware
