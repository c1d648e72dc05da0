import Catalog.Assembly.Build
import Catalog.Declaration.Codec

/-!
From the text of a bundle to a database, and how a failure on the way is told.
-/
namespace Catalog

/-- Why the text of a bundle gives no database. -/
inductive Failure where
  | undecodable (fault : Json.Fault)
  | rejected (rejection : Rejection)
  deriving DecidableEq, Repr

namespace Failure

/-- The failure in one line. -/
def summary : Failure → String
  | undecodable fault => "invalid raw bundle: " ++ fault.message
  | rejected r => r.summary

/-- The failure for readers of a source. A fault is one of the bundle and shows no place in it. -/
def report (source : String) : Failure → String
  | undecodable fault => "error: " ++ fault.message ++ "\n"
  | rejected r => r.report source

end Failure

def Assembly.ofText (text : String) (config : Config) : Except Failure Assembly :=
  match Decl.Bundle.codec.ofText text with
  | .error fault => .error (.undecodable fault)
  | .ok bundle => (Assembly.build bundle config).mapError .rejected

def Database.ofText (text : String) (config : Config) : Except Failure Database :=
  (Assembly.ofText text config).map (·.database)

end Catalog
