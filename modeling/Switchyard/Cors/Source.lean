import Switchyard.Cors.Policy
import Switchyard.Http.Request
import Switchyard.Pattern.Basic
/-!
# Policies by path
-/

namespace Switchyard

/-- Policies for paths, in the order in which they were registered. -/
abbrev PolicyTable := List (PathPattern × CorsPolicy)

def PolicyTable.find? (t : PolicyTable) (path : String) : Option CorsPolicy :=
  (List.find? (fun entry : PathPattern × CorsPolicy => entry.1.isMatch path) t).map (·.2)

def PolicyTable.source (t : PolicyTable) (req : Request) : Option CorsPolicy := t.find? req.path

end Switchyard
