import ComponentDocs.Journal
import ComponentDocs.RecordData
import ComponentDocs.Requests
import ComponentDocs.Proofs.Documenter.Freshness
import ComponentDocs.Proofs.Documenter.Misses
import ComponentDocs.Proofs.Documenter.Staleness
import ComponentDocs.Proofs.Extraction.InheritanceOrder
import ComponentDocs.Proofs.Extraction.PlainExpansion
import ComponentDocs.Proofs.Extraction.CycleWarnings
import ComponentDocs.Proofs.Curated.MergedProperties
import ComponentDocs.Proofs.Time.IsoRoundTrip
import ComponentDocs.Proofs.Curated.RoundTrip
import ComponentDocs.Proofs.Documenter.RecordInvariant
import ComponentDocs.Proofs.Curated.MergeByName
import ComponentDocs.Proofs.Documenter.Retention
import ComponentDocs.Proofs.Files.Listing
import ComponentDocs.Proofs.Documenter.Batch
import ComponentDocs.Proofs.Curated.FirstOverride
import ComponentDocs.Proofs.Files.Agreement
import ComponentDocs.Proofs.Documenter.OverrideChoice
import ComponentDocs.Proofs.Curated.FieldByField
import ComponentDocs.Proofs.Documenter.Collisions
import ComponentDocs.Proofs.Extraction.Selections
import ComponentDocs.Proofs.Documenter.Invalidation
import ComponentDocs.Proofs.Extraction.Faults
import ComponentDocs.Proofs.Extraction.ComponentPattern
import ComponentDocs.Proofs.Extraction.DefaultValues
import ComponentDocs.Proofs.Extraction.Effort
import ComponentDocs.Proofs.Comments.Layout
import ComponentDocs.Proofs.Completeness.StockDescription
import ComponentDocs.Proofs.Files.Located
import ComponentDocs.Proofs.Pattern.Reading
import ComponentDocs.Proofs.Project.ParseHistory
import ComponentDocs.Proofs.Settings.Loading
import ComponentDocs.Proofs.Curated.Loading
import ComponentDocs.Proofs.Extraction.AttachedComments
import ComponentDocs.Proofs.Project.AliasOrder
import ComponentDocs.Proofs.TypeText.Prefixes
import ComponentDocs.Proofs.Journal.History
import ComponentDocs.Proofs.Override.Discovery
import ComponentDocs.Proofs.Documenter.StoreHistory
import ComponentDocs.Proofs.Curated.KeySpelling
