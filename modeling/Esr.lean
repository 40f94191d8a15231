import Esr.Strings
import Esr.Ets
import Esr.Runs
import Esr.CapabilityMatch
import Esr.Grants
import Esr.GrantsReload
import Esr.SessionProjection
import Esr.InstanceRegistry
import Esr.InstanceInvariant
import Esr.PrimaryPointer
import Esr.UriStore
import Esr.UriHistory
import Esr.UriCompat
import Esr.AgentUris
import Esr.AgentMirror
import Esr.AgentAgreement
import Esr.Yaml
import Esr.Fallible
import Esr.CapabilityFile
import Esr.CapCommands
import Esr.GrantEffect
import Esr.ReadModifyWrite
import Esr.CapInterleaving
import Esr.SlashRoutes
import Esr.SlashHandler
import Esr.SlashGate
import Esr.SessionUris
import Esr.SessionClaims
import Esr.SessionScope
import Esr.WorkspaceUris
import Esr.WorkspacePut
import Esr.ChatRouting
import Esr.Dict
import Esr.ChannelClient
import Esr.ChannelDelivery
import Esr.ChannelSurvival
import Esr.AutoCreate
import Esr.ActorIndex
import Esr.SessionCreate
import Esr.AdminQueue
import Esr.EntityServer
import Esr.EntityTotality
import Esr.EntityRuns
import Esr.RecentKeys
import Esr.EntityDedup
import Esr.EntityPause
import Esr.EntityTools
import Esr.EntityFrames
import Esr.SlashTotality
import Esr.SlashReplies
import Esr.SlashOverlays
import Esr.Words
import Esr.SlashArguments
import Esr.SlashIdentity
import Esr.Utf8
import Esr.Percent
import Esr.Queries
import Esr.IntegerTexts
import Esr.UriTexts
import Esr.Uri
import Esr.PyUri
import Esr.UriParsers
import Esr.UriWritten
import Esr.UriRoundTrip
import Esr.PendingActions
import Esr.ChannelJoins
import Esr.AnsiStrip
import Esr.CleanupRendezvous
import Esr.WorkerSupervisor
import Esr.CcProcess
import Esr.FeishuChatProxy
import Esr.ReplyTool
import Esr.MediaInbound
import Esr.Marks
import Esr.FeishuAppAdapter
import Esr.MessageReacts
import Esr.PluginLoader
import Esr.YamlReader
import Esr.YamlInversion
import Esr.YamlWeight
import Esr.YamlLayout
import Esr.YamlKept
import Esr.YamlSafe
import Esr.YamlExact
import Esr.YamlRoundTrip
import Esr.Inspect
import Esr.CliCommands
import Esr.CliSubmit
import Esr.CliExact
import Esr.CapabilitiesChecker
import Esr.WorkspaceFailure
import Esr.PathExpand
import Esr.SessionBindings
import Esr.WorkspaceCommands
import Esr.WorkspaceShape
import Esr.AutoAdmin
import Esr.SessionPlaces
import Esr.SessionEnd
import Esr.SessionNew
import Esr.BootFiles
import Esr.WorkspaceLoad
import Esr.SessionLoad
import Esr.UriRegistrations
import Esr.UserUris
import Esr.UserLoad
import Esr.UserAdd
import Esr.UserAddLoad
import Esr.UserAddRollback
import Esr.AdapterRunner
import Esr.SlashEnvelopes
import Esr.ChannelNotifications
import Esr.SubmitSlash
import Esr.ToolCalls
import Esr.AttachedChats
import Esr.AgentFiles
import Esr.AgentMigration
import Esr.FeishuInbound
import Esr.MediaRuns
import Esr.Kahn
import Esr.PluginOrder
import Esr.SlashLoad
import Esr.ChannelFlush
import Esr.CapabilityMeaning
import Esr.RevokeEffect
import Esr.FeishuThread
import Esr.FeishuPolling
import Esr.BootBridge
import Esr.AgentDeath
import Esr.SessionTemplate
import Esr.BundleLoader
import Esr.BundleRuns
import Esr.FiniteMaps
import Esr.FragmentMerger
import Esr.InstanceJson
import Esr.UuidTranslator
import Esr.Spacing
import Esr.MentionParser
import Esr.TemplateRules
import Esr.MediaFiles
import Esr.SendFile
import Esr.YamlBulk
import Esr.YamlUnquoted
import Esr.PluginConfig
import Esr.PluginConfigLayers
import Esr.PluginConfigSafe
import Esr.PluginConfigExact
import Esr.Lines
import Esr.OsProcess
import Esr.CapabilityTotality
import Esr.PyObjects
import Esr.PyJson
import Esr.HandlerWorker
import Esr.BridgeClient
import Esr.RepoRegistry
import Esr.DeadLetterQueue
import Esr.JsonRoundTrips
import Esr.PluginsYaml
import Esr.Pool
import Esr.WorkspaceNames
import Esr.EmitGuard
