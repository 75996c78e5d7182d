import GuardedThings.Access.Administration
import GuardedThings.Access.Cache
import GuardedThings.Access.Enforcer
import GuardedThings.Access.Tree
import GuardedThings.Access.View
import GuardedThings.Aggregate.Command
import GuardedThings.Aggregate.Event
import GuardedThings.Aggregate.Evolution
import GuardedThings.Aggregate.Execution
import GuardedThings.Aggregate.Root
import GuardedThings.Aggregate.SizeLimit
import GuardedThings.Binary64.Basic
import GuardedThings.Binary64.Shortest
import GuardedThings.Bookkeeping
import GuardedThings.Clock
import GuardedThings.Dict
import GuardedThings.Digest.Sha256
import GuardedThings.EntityId
import GuardedThings.EntityTag
import GuardedThings.Failure
import GuardedThings.Headers
import GuardedThings.Json.Agreement
import GuardedThings.Json.Basic
import GuardedThings.Json.Draft
import GuardedThings.Json.Path
import GuardedThings.Json.Printer
import GuardedThings.Json.Reader
import GuardedThings.KeySet
import GuardedThings.Permission
import GuardedThings.Pointer
import GuardedThings.Policy.Basic
import GuardedThings.Policy.Entry
import GuardedThings.Policy.Event
import GuardedThings.Policy.Guard
import GuardedThings.Policy.Part
import GuardedThings.Policy.Request
import GuardedThings.Policy.Rules
import GuardedThings.Proofs.Access.Administrability
import GuardedThings.Proofs.Access.CacheHistory
import GuardedThings.Proofs.Access.CacheOrder
import GuardedThings.Proofs.Access.CacheRevisions
import GuardedThings.Proofs.Access.CacheTransparency
import GuardedThings.Proofs.Access.GuardVerdicts
import GuardedThings.Proofs.Access.LongestPrefix
import GuardedThings.Proofs.Access.Monotonicity
import GuardedThings.Proofs.Access.NestedParts
import GuardedThings.Proofs.Access.PartAuthority
import GuardedThings.Proofs.Access.ReadableLeaves
import GuardedThings.Proofs.Access.RepeatedLookups
import GuardedThings.Proofs.Access.Statements
import GuardedThings.Proofs.Access.Subtree
import GuardedThings.Proofs.Access.TreeContent
import GuardedThings.Proofs.Access.ViewLeaves
import GuardedThings.Proofs.Access.ViewPaths
import GuardedThings.Proofs.Access.VisibleAuthorized
import GuardedThings.Proofs.Aggregate.Addressing
import GuardedThings.Proofs.Aggregate.Applicability
import GuardedThings.Proofs.Aggregate.BookkeepingHistory
import GuardedThings.Proofs.Aggregate.CommandForm
import GuardedThings.Proofs.Aggregate.ConditionalReplacement
import GuardedThings.Proofs.Aggregate.CreatedParts
import GuardedThings.Proofs.Aggregate.EntityTags
import GuardedThings.Proofs.Aggregate.EventTypes
import GuardedThings.Proofs.Aggregate.Journal
import GuardedThings.Proofs.Aggregate.Lives
import GuardedThings.Proofs.Aggregate.OutcomeShape
import GuardedThings.Proofs.Aggregate.RecoveredIdentity
import GuardedThings.Proofs.Aggregate.Recovery
import GuardedThings.Proofs.Aggregate.Refusals
import GuardedThings.Proofs.Aggregate.ResponseForm
import GuardedThings.Proofs.Aggregate.Revisions
import GuardedThings.Proofs.Aggregate.Run
import GuardedThings.Proofs.Aggregate.SizeBound
import GuardedThings.Proofs.Aggregate.TagCoherence
import GuardedThings.Proofs.Dictionaries
import GuardedThings.Proofs.Json.PathEdits
import GuardedThings.Proofs.Json.PointerLaws
import GuardedThings.Proofs.Json.RecordEdits
import GuardedThings.Proofs.Json.Sizes
import GuardedThings.Proofs.Json.Tidy
import GuardedThings.Proofs.Policy.Adjustment
import GuardedThings.Proofs.Policy.CreatorControl
import GuardedThings.Proofs.Policy.Decisions
import GuardedThings.Proofs.Policy.DocumentEdits
import GuardedThings.Proofs.Policy.DocumentParts
import GuardedThings.Proofs.Policy.EntryLabels
import GuardedThings.Proofs.Policy.EventOrder
import GuardedThings.Proofs.Policy.ExpiryRounding
import GuardedThings.Proofs.Policy.MeasuredDocument
import GuardedThings.Proofs.Policy.PartAddresses
import GuardedThings.Proofs.Policy.PartTags
import GuardedThings.Proofs.Policy.ResponseFilter
import GuardedThings.Proofs.Policy.StandingAdministrator
import GuardedThings.Proofs.Policy.WireForm
import GuardedThings.Proofs.Policy.WrittenDocument
import GuardedThings.Proofs.Rounding
import GuardedThings.Proofs.Thing.Decisions
import GuardedThings.Proofs.Thing.DocumentEdits
import GuardedThings.Proofs.Thing.PartAddresses
import GuardedThings.Proofs.Thing.PartTags
import GuardedThings.Proofs.Thing.PointerEdits
import GuardedThings.Proofs.Thing.QueryAnswers
import GuardedThings.Proofs.Thing.WireForm
import GuardedThings.Proofs.Thing.WriteConfinement
import GuardedThings.Proofs.Wire.Decoded
import GuardedThings.Proofs.Wire.Dictionaries
import GuardedThings.Proofs.Wire.Parts
import GuardedThings.Proofs.Wire.PointerSyntax
import GuardedThings.Proofs.Wire.Records
import GuardedThings.Proofs.Wire.TagSyntax
import GuardedThings.Proofs.Wire.Tags
import GuardedThings.Proofs.Wire.Texts
import GuardedThings.ResourceKey
import GuardedThings.Status
import GuardedThings.Subject
import GuardedThings.Text.Basic
import GuardedThings.Thing.Agreement
import GuardedThings.Thing.Basic
import GuardedThings.Thing.Event
import GuardedThings.Thing.Feature
import GuardedThings.Thing.Guard
import GuardedThings.Thing.Part
import GuardedThings.Thing.Request
import GuardedThings.Thing.Rules
import GuardedThings.Wire.Basic
import GuardedThings.Wire.Fields
import GuardedThings.Wire.Source
