import MeshOperator.Data.Access

/-!
# Places and names of charts

A chart of a version is at `<resources>/<version>/charts/<chart>`, and is installed for a revision as
a release named for both. In a path an absolute part starts the path anew.
-/

namespace MeshOperator.Chart

/-- a path followed by a part -/
def join (path part : String) : String :=
  if part.toList.head? = some '/' then part
  else if path = "" || path.toList.getLast? = some '/' then path ++ part
  else path ++ "/" ++ part

/-- the directory of a chart of a version -/
def path (resources version chart : String) : String :=
  [version, "charts", chart].foldl join resources

/-- the directory of a chart of a version that must be a text -/
def pathOf (resources : String) (version : Data) (chart : String) : Except Fault String :=
  match version with
  | .text v => .ok (path resources v chart)
  | _ => .error .unsuitable

/-- the name of the release of a chart -/
def release (owner : Data) (chart : String) : String := owner.plainText ++ "-" ++ chart

end MeshOperator.Chart
