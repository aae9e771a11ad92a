import OpenBridge.ControlPlane.Verification
import OpenBridge.GateConfig.Retroactivity
import OpenBridge.GateConfig.Recovery
import OpenBridge.InstrumentHealth.Clearance
import OpenBridge.GateFusion.ConditionAgreement
import OpenBridge.GateFusion.PersistenceWindows
import OpenBridge.GateFusion.LiveContext
import OpenBridge.HealthGateway.Discipline
import OpenBridge.HealthGateway.Redelivery
import OpenBridge.Samples.TupleAgreement
import OpenBridge.ShortWindow.ProfileSharing
import OpenBridge.EventFrames.Redelivered
import OpenBridge.ControlPlane.DeployedContent
import OpenBridge.Evidence.Arrival
import OpenBridge.Evidence.Readiness
import OpenBridge.Conditions.ConditionConvergence
import OpenBridge.GateConfig.CanonicalEquality
import OpenBridge.Alarms.AcknowledgedLoss
import OpenBridge.EventFrames.ShelvingSafety
import OpenBridge.ShortWindow.DataQuality
import OpenBridge.LongWindow.Draining
import OpenBridge.Response.CaptureHistory
import OpenBridge.Response.SettledClosing
import OpenBridge.Response.Holdout
import OpenBridge.Ingestion.SubscriberManager
import OpenBridge.Audit.TamperEvidence
import OpenBridge.Audit.Rechain
import OpenBridge.Alarms.AlarmStateExportJob
import OpenBridge.Alarms.AlarmIngestionService
import OpenBridge.Historian.RawLanding
import OpenBridge.Alarms.AlarmWriters
import OpenBridge.Alarms.ProjectionRebuild
import OpenBridge.GateConfig.PreparedOverlay
import OpenBridge.Audit.AuditRedelivery
import OpenBridge.Gateway.FailClosedBound
import OpenBridge.Gateway.ReadYourWrites
import OpenBridge.Analytics.SkippedRecords
import OpenBridge.Identity.EpochSupport
import OpenBridge.Calculations.PrintedExpressions
import OpenBridge.Identity.MethodRuns
import OpenBridge.Registry.LoopIsolation
import OpenBridge.FeatureTopic.FeatureRoundTrip
import OpenBridge.ControlPlane.ReadOnlyComparison
import OpenBridge.EventFrames.EpisodeEvidence
import OpenBridge.Analytics.ResultConvergence
import OpenBridge.Registry.BindingTimeline
import OpenBridge.Analytics.AnalysisRunLifeCycle
import OpenBridge.Analytics.PartitionMaintenance
import OpenBridge.Auth.SessionRevocation
import OpenBridge.Evidence.ProtectedEvidence
import OpenBridge.Registry.BulkOnboarding
import OpenBridge.HealthGateway.LinkedDedupe
import OpenBridge.GateConfig.Redelivery
import OpenBridge.Ingestion.LiveOverSeed
import OpenBridge.LivePlane.RbeFidelity
import OpenBridge.LivePlane.SnapshotRoundTrip
import OpenBridge.Bindings.PathAgreement
import OpenBridge.AlarmConsole.ReRaisedAlarm
import OpenBridge.AlarmConsole.Convergence
import OpenBridge.LivePlane.MqttStore
import OpenBridge.LivePlane.SparkplugSession
import OpenBridge.Alarms.LifecycleEngine
import OpenBridge.GateConfig.ChangeClass
import OpenBridge.Alarms.DedupFilter
import OpenBridge.Ingestion.ModeVocabulary
import OpenBridge.Evidence.CycleSampling
import OpenBridge.LongWindow.PeerAlignment
import OpenBridge.Ingestion.UnknownSourceInventory
import OpenBridge.GateConfig.EffectiveConfigResolver
import OpenBridge.Response.ErrorIntegrals
import OpenBridge.Ingestion.DataSourceEndpoints
