import OpenApi.Command.Arguments
import OpenApi.Command.Run
import OpenApi.Compilation.Types
import OpenApi.Decoding
import OpenApi.Disk.FileSet
import OpenApi.Document.Load
import OpenApi.Main
import OpenApi.Proofs.Model.Meaning
import OpenApi.Proofs.Step
import OpenApi.View
import OpenApi.Proofs.Model.Arena
import OpenApi.Proofs.Compilation.Build
import OpenApi.Proofs.Compilation.Result
import OpenApi.Proofs.UnionCycle
import OpenApi.Proofs.Decoding.Contract
import OpenApi.Proofs.Decoding.Outcome
import OpenApi.Proofs.Decoding.Consults
import OpenApi.Proofs.Decoding.Depth
import OpenApi.Proofs.DecodingContract
import OpenApi.Proofs.Model.FieldTypes
import OpenApi.Proofs.TagNarrowing
import OpenApi.Proofs.Compilation.Tracks
import OpenApi.Proofs.Compilation.Apart
import OpenApi.Proofs.AllOfCycle
import OpenApi.Proofs.AnchorVariants
import OpenApi.Proofs.Model.Members
import OpenApi.Proofs.RequiredNames
import OpenApi.Proofs.HierarchyNarrowing
import OpenApi.Proofs.Schema.Loaded
import OpenApi.Proofs.Translation
import OpenApi.Proofs.Calendar.Numbers
import OpenApi.Proofs.Calendar.Spelling
import OpenApi.Proofs.Address
import OpenApi.Proofs.ScalarSpelling
import OpenApi.Proofs.Decoding.Rereading
import OpenApi.Proofs.RoundTrip
import OpenApi.Proofs.Correspondence
import OpenApi.Proofs.MemberConjunction
import OpenApi.Proofs.Schema.DistinctNames
import OpenApi.Proofs.Compilation.Links
import OpenApi.Proofs.Decoding.Agreement
import OpenApi.Proofs.SelfContained
import OpenApi.Proofs.Model.Renaming
import OpenApi.Proofs.Model.Soundness
import OpenApi.Proofs.Compilation.Budget
import OpenApi.Proofs.Compilation.Settled
import OpenApi.Proofs.Compilation.Settling
import OpenApi.Proofs.Compilation.Passes
import OpenApi.Proofs.Model.Reordering
import OpenApi.Proofs.Compilation.Complete
import OpenApi.Proofs.DeclarationOrder
import OpenApi.Proofs.Decoding.Alike
import OpenApi.Proofs.EnumRestriction
import OpenApi.Proofs.Decoding.Reported
import OpenApi.Proofs.ViolationPlaces
import OpenApi.Proofs.Compilation.Retained
import OpenApi.Proofs.FailedCalls
import OpenApi.Proofs.Schema.Dialects
import OpenApi.Proofs.Compilation.Unrequired
import OpenApi.Proofs.DialectAgreement
import OpenApi.Proofs.Decoding.Unbounded
import OpenApi.Proofs.DecodingEnds
import OpenApi.Proofs.Decoding.Reordered
import OpenApi.Proofs.Decoding.Parallel
import OpenApi.Proofs.KeyOrder
import OpenApi.Proofs.DefaultIndependence
import OpenApi.Proofs.Compilation.Errors
import OpenApi.Proofs.Compilation.Depth
import OpenApi.Proofs.CompilationEnds
import OpenApi.Proofs.Compilation.Indices
import OpenApi.Proofs.RepeatedCalls
import OpenApi.Proofs.Schema.Edges
import OpenApi.Proofs.TagRouting
import OpenApi.Proofs.FlatMerge
import OpenApi.Proofs.Compilation.Again
import OpenApi.Proofs.Model.Untagged
import OpenApi.Proofs.RefusedUnions
import OpenApi.Proofs.RepeatedMembers
import OpenApi.Proofs.UntaggedDiscriminators
import OpenApi.Proofs.Schema.Names
import OpenApi.Proofs.AliasChains
import OpenApi.Proofs.Schema.Ownership
import OpenApi.Proofs.DocumentStructure
import OpenApi.Proofs.Json.Intact
import OpenApi.Proofs.Wire.Agreement
import OpenApi.Proofs.LoadingText
import OpenApi.Proofs.Decimal.Shortest
import OpenApi.Proofs.Decimal.Text
import OpenApi.Proofs.Json.Compact
import OpenApi.Proofs.Model.View
import OpenApi.Proofs.FaithfulView
import OpenApi.Proofs.Decimal.Rounding
import OpenApi.Proofs.NumberLiterals
import OpenApi.Proofs.Networks
import OpenApi.Proofs.PlaceLookup
import OpenApi.Proofs.CompilationFaults
import OpenApi.Proofs.FormatResolution
import OpenApi.Proofs.CheckFrame
import OpenApi.Proofs.Schema.Locations
import OpenApi.Proofs.Identities
import OpenApi.Proofs.Command.Arguments
import OpenApi.Proofs.Command.Files
import OpenApi.Proofs.Command.Samples
import OpenApi.Proofs.Command.Gathering
import OpenApi.Proofs.ValidationRun
import OpenApi.Proofs.WorkInHand
