import FlatConfig.Inspect
import FlatConfig.Item.Display
import FlatConfig.Main
import FlatConfig.Package
import FlatConfig.Decimal.Binary64
import FlatConfig.Proofs.Absorbed
import FlatConfig.Proofs.Compatible
import FlatConfig.Proofs.Generation
import FlatConfig.Proofs.Stages
import FlatConfig.Proofs.Template
import FlatConfig.Proofs.Substitution
import FlatConfig.Proofs.Blocks
import FlatConfig.Proofs.Grouping
import FlatConfig.Proofs.PathInstructions
import FlatConfig.Proofs.Records
import FlatConfig.Proofs.Starter
import FlatConfig.Proofs.Unset
import FlatConfig.Proofs.Frame
import FlatConfig.Proofs.Checks
import FlatConfig.Proofs.Deduplication
import FlatConfig.Proofs.RuleCollections
import FlatConfig.Proofs.Accounts
import FlatConfig.Proofs.Inspection
import FlatConfig.Proofs.Documents
import FlatConfig.Proofs.Conditionals
import FlatConfig.Proofs.Sources
