import Covenant.Contract.Machine
import Covenant.Main
import Covenant.Proofs.ArchiveReading
import Covenant.Proofs.Arrangement
import Covenant.Proofs.Ascent
import Covenant.Proofs.ContractLiterals
import Covenant.Proofs.ContractNames
import Covenant.Proofs.ContractStructures
import Covenant.Proofs.Coverage
import Covenant.Proofs.DataCrate
import Covenant.Proofs.Decoration
import Covenant.Proofs.DocumentOrder
import Covenant.Proofs.DocumentedErrors
import Covenant.Proofs.ExactRoles
import Covenant.Proofs.Extension
import Covenant.Proofs.FirstFault
import Covenant.Proofs.FixtureTypes
import Covenant.Proofs.FullNames
import Covenant.Proofs.InheritedFields
import Covenant.Proofs.Kept
import Covenant.Proofs.LegalFields
import Covenant.Proofs.ModuleScope
import Covenant.Proofs.PauseSafety
import Covenant.Proofs.Regeneration
import Covenant.Proofs.RegistrationOrder
import Covenant.Proofs.RenderedMessages
import Covenant.Proofs.Replacement
import Covenant.Proofs.ReportedFiles
import Covenant.Proofs.Roles
import Covenant.Proofs.RoundTrip
import Covenant.Proofs.ScaffoldFields
import Covenant.Proofs.ScaffoldOutcome
import Covenant.Proofs.Scoping
import Covenant.Proofs.Sessions
import Covenant.Proofs.SourceSurvival
import Covenant.Proofs.Spacing
import Covenant.Proofs.StableOrder
import Covenant.Proofs.StructFields
import Covenant.Proofs.VersionBoundary
import Covenant.Proofs.Ways
