import UmatiDashboard.Effect.Prog
import UmatiDashboard.Effect.Keeps
import UmatiDashboard.Effect.Mapped
import UmatiDashboard.Effect.Settles
import UmatiDashboard.Effect.Skipping
import UmatiDashboard.Effect.TwoRuns
import UmatiDashboard.Effect.Approx
import UmatiDashboard.Effect.Accounts
import UmatiDashboard.Effect.Transition
import UmatiDashboard.Effect.Resources
import UmatiDashboard.ModelOpcUa.ModelDefinition
import UmatiDashboard.OpcUaClient.Namespaces
import UmatiDashboard.ModelOpcUa.StructureNode
import UmatiDashboard.ModelOpcUa.ModelInstance
import UmatiDashboard.Util.Json
import UmatiDashboard.Util.JsonMembers
import UmatiDashboard.Util.JsonNulls
import UmatiDashboard.Util.RowMajor
import UmatiDashboard.Util.RawJson
import UmatiDashboard.Util.RawMembers
import UmatiDashboard.Util.Allocated
import UmatiDashboard.Util.Destutter
import UmatiDashboard.DataClient.Exceptions
import UmatiDashboard.DataClient.IDashboardDataClient
import UmatiDashboard.DataClient.Answers
import UmatiDashboard.DataClient.SubscriptionLog
import UmatiDashboard.DataClient.SuperTypeQueries
import UmatiDashboard.TypeReader.OpcUaTypeReader
import UmatiDashboard.TypeReader.BrowseTypes
import UmatiDashboard.TypeReader.SetupTypeMap
import UmatiDashboard.TypeReader.LoadedTypes
import UmatiDashboard.TypeReader.BrowsedTree
import UmatiDashboard.TypeReader.Flattening
import UmatiDashboard.TypeReader.FlattenedLists
import UmatiDashboard.TypeReader.TypeEntries
import UmatiDashboard.TypeReader.UpdatedTypes
import UmatiDashboard.TypeReader.Conversions
import UmatiDashboard.TypeReader.RepeatedLists
import UmatiDashboard.TypeReader.Ancestry
import UmatiDashboard.TypeReader.ForestLists
import UmatiDashboard.TypeReader.StoredTrees
import UmatiDashboard.TypeReader.TypeSearch
import UmatiDashboard.TypeReader.TypeSearchTermination
import UmatiDashboard.DashboardClient.Transform
import UmatiDashboard.DashboardClient.ModelToJson
import UmatiDashboard.DashboardClient.ShownValues
import UmatiDashboard.DashboardClient.RenderedElements
import UmatiDashboard.DashboardClient.LosslessJson
import UmatiDashboard.DashboardClient.PublishedNulls
import UmatiDashboard.DashboardClient.DashboardClient
import UmatiDashboard.DashboardClient.Fuel
import UmatiDashboard.DashboardClient.DataSets
import UmatiDashboard.DashboardClient.Expansion
import UmatiDashboard.DashboardClient.FiniteExpansion
import UmatiDashboard.DashboardClient.LocalFailures
import UmatiDashboard.DashboardClient.Repetitions
import UmatiDashboard.DashboardClient.InstanceTree
import UmatiDashboard.DashboardClient.Validation
import UmatiDashboard.DashboardClient.Notifications
import UmatiDashboard.DashboardClient.RepeatedChildren
import UmatiDashboard.DashboardClient.SharedNodes
import UmatiDashboard.OpcUaClient.Subscription
import UmatiDashboard.OpcUaClient.FailedSubscribe
import UmatiDashboard.OpcUaClient.Connection
import UmatiDashboard.OpcUaClient.Services
import UmatiDashboard.OpcUaClient.ServiceFailures
import UmatiDashboard.OpcUaClient.OrderOfResults
import UmatiDashboard.OpcUaClient.Converter.ArrayValues
import UmatiDashboard.OpcUaClient.Converter.UaVariant
import UmatiDashboard.OpcUaClient.Converter.UaDataValueToJsonValue
import UmatiDashboard.OpcUaClient.Converter.StructureMembers
import UmatiDashboard.OpcUaClient.Converter.ElementwiseArrays
import UmatiDashboard.OpcUaClient.Converter.DistinctScalars
import UmatiDashboard.OpcUaClient.Converter.ConvertedStrings
import UmatiDashboard.Util.Climb
import UmatiDashboard.OpcUaClient.SuperTypes
import UmatiDashboard.OpcUaClient.Paging
import UmatiDashboard.OpcUaClient.SharedSubscription
import UmatiDashboard.OpcUaClient.Callbacks
import UmatiDashboard.OpcUaClient.Reconnect
import UmatiDashboard.Util.IdEncode
import UmatiDashboard.Util.PrefixCode
import UmatiDashboard.Util.HexDigits
import UmatiDashboard.Util.JsonReading
import UmatiDashboard.Util.NestedSearch
import UmatiDashboard.Util.Configuration
import UmatiDashboard.Util.ConfigurationJsonFile
import UmatiDashboard.Util.LoadedConfiguration
import UmatiDashboard.Util.EncodedBytes
import UmatiDashboard.MachineObserver.Topics
import UmatiDashboard.MachineObserver.NodeIdentity
import UmatiDashboard.MachineObserver.TopicBytes
import UmatiDashboard.DashboardClient.Publish
import UmatiDashboard.MachineObserver.ObserverTables
import UmatiDashboard.MachineObserver.BrowseForMachines
import UmatiDashboard.MachineObserver.DashboardMachineObserver
import UmatiDashboard.MachineObserver.UpdateMachines
import UmatiDashboard.MachineObserver.Search
import UmatiDashboard.MachineObserver.TypeLookups
import UmatiDashboard.MachineObserver.Removal
import UmatiDashboard.MachineObserver.Checks
import UmatiDashboard.MachineObserver.CycleSteps
import UmatiDashboard.MachineObserver.Additions
import UmatiDashboard.MachineObserver.Cycle
import UmatiDashboard.MachineObserver.Invariant
import UmatiDashboard.MachineObserver.Runs
import UmatiDashboard.MachineObserver.FoundMachines
import UmatiDashboard.MachineObserver.ParentsFound
import UmatiDashboard.MachineObserver.SubTypeCache
import UmatiDashboard.MachineObserver.Isolation
import UmatiDashboard.MachineObserver.UnchangedList
import UmatiDashboard.MachineObserver.Fuel
import UmatiDashboard.MachineObserver.Accounting
import UmatiDashboard.MachineObserver.Survival
import UmatiDashboard.MachineObserver.AllOrNothing
import UmatiDashboard.MachineObserver.Ownership
import UmatiDashboard.MachineObserver.CurrentParents
import UmatiDashboard.MachineObserver.Countdown
import UmatiDashboard.MachineObserver.Retries
import UmatiDashboard.MachineObserver.Readings
import UmatiDashboard.MachineObserver.OrderOfVariables
import UmatiDashboard.MachineObserver.SearchPlan
import UmatiDashboard.MachineObserver.SearchTermination
import UmatiDashboard.MachineObserver.ListElements
import UmatiDashboard.MachineObserver.PublishMachinesList
import UmatiDashboard.MachineObserver.Publishing
import UmatiDashboard.Gateway.Locks
import UmatiDashboard.Gateway.ResetProtocol
import UmatiDashboard.Gateway.Shutdown
import UmatiDashboard.Gateway.Cadence
import UmatiDashboard.OpcUaClient.AddressSpace
import UmatiDashboard.OpcUaClient.CustomDataTypes
import UmatiDashboard.DashboardClient.Channels
import UmatiDashboard.MachineObserver.PublishAll
import UmatiDashboard.MachineObserver.ErrorList
import UmatiDashboard.MachineObserver.TypedMachines
import UmatiDashboard.MachineObserver.Recovery
import UmatiDashboard.OpcUaClient.Deliveries
import UmatiDashboard.MachineObserver.ServedClient
import UmatiDashboard.TypeReader.Attempts
