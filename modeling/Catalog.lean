import Catalog.Operation
import Catalog.Main
import Catalog.Proofs.Rebuild
import Catalog.Proofs.Integrity
import Catalog.Proofs.Rejected
import Catalog.Proofs.Aliases
import Catalog.Proofs.EnumLinks
import Catalog.Proofs.EnumPolicy
import Catalog.Proofs.EnumSymmetry
import Catalog.Proofs.TagLinks
import Catalog.Proofs.RefEquality
import Catalog.Proofs.Namespace
import Catalog.Proofs.GroupLinks
import Catalog.Proofs.Resolution
import Catalog.Proofs.TableNames
import Catalog.Proofs.History
import Catalog.Proofs.Numbering
import Catalog.Proofs.IdBase
import Catalog.Proofs.Json
import Catalog.Proofs.Blame
import Catalog.Proofs.Reorder
import Catalog.Proofs.DefaultSchema
import Catalog.Proofs.DefaultEnums
import Catalog.Proofs.Qualification
import Catalog.Proofs.Snippets
import Catalog.Proofs.Totals
import Catalog.Proofs.Allocation
import Catalog.Proofs.Locating
