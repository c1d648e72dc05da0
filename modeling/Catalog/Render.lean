import Catalog.Export.Codec
import Catalog.Flat.Codec
import Catalog.Summary
import Catalog.View

/-!
The text of a view.
-/
namespace Catalog.Database

/-- The layout is that of JSON text and does not matter to the summary. -/
def render (db : Database) (view : View) (layout : Json.Layout) : String :=
  match view with
  | .tree => (Export.Tree.codec.encode db.toExport).text layout
  | .flat => (Flat.Model.codec.encode db.normalize).text layout
  | .summary => SummaryRow.tabulate db.summary

end Catalog.Database
