import ApiTruth.Catalog.Ingestion
import ApiTruth.Environment.Convergence
import ApiTruth.Environment.ResolutionLists
import ApiTruth.Observations.FieldPresenceRetention
import ApiTruth.Observations.PayloadText
import ApiTruth.OpenApi.PublicationPointer
import ApiTruth.OpenApi.Preservation
import ApiTruth.OpenApi.TemplateParameters
import ApiTruth.Orchestration.Confirmation
import ApiTruth.Orchestration.Convergence
import ApiTruth.Orchestration.OutboxDelivery
import ApiTruth.Orchestration.ProviderOrdering
import ApiTruth.Orchestration.Reopening
import ApiTruth.Query.CorpusNoMatch
import ApiTruth.Semantics.CorpusAcceptance
import ApiTruth.Semantics.HistoryReviewLog
import ApiTruth.Updates.CanonicalMeaning
import ApiTruth.Orchestration.LockSessions
import ApiTruth.Orchestration.Queue.Lifecycle
import ApiTruth.Orchestration.Queue.TransitionClosure
import ApiTruth.Orchestration.RetryDelay
import ApiTruth.Updates.OwnershipIndex
import ApiTruth.Updates.ClaimConservation
import ApiTruth.Updates.PathParameters
import ApiTruth.Query.ScopeAuthorization
import ApiTruth.Ir.RouteKeys
import ApiTruth.Orchestration.ConfigurationImpact
import ApiTruth.Observations.ExampleFingerprints
import ApiTruth.Observations.FieldPresenceMaintenance
import ApiTruth.OpenApi.VariantMerge
import ApiTruth.Analyzers.OpenApi3.Inspection
import ApiTruth.Analyzers.OpenApi3.StoredSchemas
import ApiTruth.Connectors.DocumentDigests
import ApiTruth.Connectors.GitSource
import ApiTruth.Analyzers.JavaSpring.HelperProtocol
import ApiTruth.Analyzers.ParsedDocumentCache
import ApiTruth.Analyzers.Security
