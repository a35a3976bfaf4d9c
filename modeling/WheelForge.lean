import WheelForge.Relational.Table
import WheelForge.Transition.System
import WheelForge.Contracts
import WheelForge.Pep440.Version
import WheelForge.Parser.Models
import WheelForge.Resolver.Models
import WheelForge.Jobs.Schema
import WheelForge.Build.Models
import WheelForge.Jobs.Repository
import WheelForge.Jobs.Operations
import WheelForge.Api.BuildTaskService
import WheelForge.Jobs.JobSystem
import WheelForge.Jobs.StepEffect
import WheelForge.Jobs.WellFormed
import WheelForge.Jobs.Fencing
import WheelForge.Jobs.BuildProtocol
import WheelForge.Jobs.BuildSimulation
import WheelForge.Jobs.Cancellation
import WheelForge.Jobs.Agreement
import WheelForge.Jobs.SubjectClaims
import WheelForge.Interaction.Program
import WheelForge.Worker.Errors
import WheelForge.Jobs.LeaseAnswers
import WheelForge.Jobs.PackageRows
import WheelForge.Jobs.RunningLease
import WheelForge.Worker.Calls
import WheelForge.Worker.Pipeline
import WheelForge.Worker.World
import WheelForge.Worker.LeaseRules
import WheelForge.Worker.Settlement
import WheelForge.Worker.NoStuckJob
import WheelForge.Maintenance.SegmentedQueue
import WheelForge.Maintenance.Reconcile
import WheelForge.Maintenance.Enqueue
import WheelForge.Maintenance.QueueSpec
import WheelForge.Maintenance.QueueRuns
import WheelForge.Maintenance.MoveCapacity
import WheelForge.Maintenance.CrashRecovery
import WheelForge.Maintenance.Fifo
import WheelForge.Maintenance.DueRecords
import WheelForge.Storage.Files
import WheelForge.Storage.Publication
import WheelForge.Storage.OwnedRecord
import WheelForge.Storage.SweepBudgets
import WheelForge.Storage.SweepSafety
import WheelForge.Storage.PublicationRuns
import WheelForge.Storage.PublicationSafety
import WheelForge.Storage.MinimumAge
import WheelForge.Python.Text
import WheelForge.Python.Datetime
import WheelForge.Python.Json
import WheelForge.Python.JsonReading
import WheelForge.Python.Uuid
import WheelForge.Pep440.Order
import WheelForge.Pep440.Packaging
import WheelForge.Pep440.Releases
import WheelForge.Pep440.Bounds
import WheelForge.Parser.Requirements
import WheelForge.Parser.Rendering
import WheelForge.Parser.Merging
import WheelForge.Parser.PipFile
import WheelForge.Parser.Inertness
import WheelForge.Parser.Reparse
import WheelForge.Worker.Workers
import WheelForge.Worker.StageOrder
import WheelForge.Worker.StatusChanges
import WheelForge.Posix.DirectoryTree
import WheelForge.Storage.ClearWorkspace
import WheelForge.Storage.ClearingRuns
import WheelForge.Target.Tags
import WheelForge.Resolver.Candidates
import WheelForge.Resolver.Compatible
import WheelForge.Resolver.SearchRules
import WheelForge.Resolver.SearchBudgets
import WheelForge.Python.Exceptions
import WheelForge.Validation.MemberPaths
import WheelForge.Validation.Archive
import WheelForge.Validation.Tracking
import WheelForge.Validation.RecordAgreement
import WheelForge.Validation.Closure
import WheelForge.Artifact.Models
import WheelForge.Artifact.TextEntries
import WheelForge.Artifact.Builder
import WheelForge.Artifact.StagedFile
import WheelForge.Artifact.ViewAgreement
import WheelForge.Python.Numbers
import WheelForge.Validation.MemberTopology
import WheelForge.Validation.MemberAcceptance
import WheelForge.Validation.ClosureReport
import WheelForge.Validation.ClosureCompleteness
import WheelForge.Api.AdminService
import WheelForge.Relational.Numbered
import WheelForge.Api.BuildResultService
import WheelForge.Jobs.LogTransactions
import WheelForge.Jobs.LogOrder
import WheelForge.Java.Platform
import WheelForge.Api.LocalFileStorage
import WheelForge.Api.RequirementFileService
import WheelForge.Api.UploadConsistency
import WheelForge.Relational.RowLocks
import WheelForge.Api.ArtifactService
import WheelForge.Api.DownloadTransactions
import WheelForge.Api.DownloadLease
import WheelForge.Resolver.CandidateOrder
import WheelForge.Parser.Conflicts
import WheelForge.Parser.Permutation
import WheelForge.Parser.ItemsRead
import WheelForge.Resolver.Rebuild
import WheelForge.Resolver.ChangeReports
import WheelForge.Relational.FirstSeen
import WheelForge.Resolver.ReportLimits
import WheelForge.Resolver.PipReport
import WheelForge.Storage.ProgressState
import WheelForge.Storage.DataSweep
import WheelForge.Storage.WorkspaceSweep
import WheelForge.Jobs.ColumnWidths
import WheelForge.Python.Substitution
import WheelForge.Jobs.Sanitizing
import WheelForge.Jobs.SanitizedSize
import WheelForge.Python.JsonSize
import WheelForge.Jobs.ResolutionAudit
import WheelForge.Python.Utf8
import WheelForge.Process.BoundedCapture
import WheelForge.Storage.QuarantineMetadata
import WheelForge.Download.WorkDirectory
import WheelForge.Download.Wheels
import WheelForge.Download.Attempts
import WheelForge.Download.Transactions
import WheelForge.Frontend.Polling
import WheelForge.Worker.Heartbeat
import WheelForge.Resolver.Discovery
import WheelForge.Resolver.SubstitutedCalls
import WheelForge.Storage.PublishedObjects
import WheelForge.Interaction.Views
import WheelForge.Storage.OwnedDelete
import WheelForge.Storage.QuarantineSafety
import WheelForge.Storage.Correspondence
