import Switchyard.Text.Cut
/-!
# View names from paths

The view of a handler that names none: the path without slashes at its ends and without the
extension of its last segment.
-/

namespace Switchyard

/-- How a view name is made from a path: what stands around it and what replaces its slashes. -/
structure NameTranslator where
  pre : String := ""
  post : String := ""
  separator : Option String := none
  deriving DecidableEq, Repr

namespace NameTranslator

/-- The path without the extension of its last segment; a leading dot begins no extension. -/
def withoutExtension (path : List Char) : List Char :=
  let (start, segment) := match Text.cutLast '/' path with
    | some (before, after) => (before ++ ['/'], after)
    | none => ([], path)
  match Text.cutLast '.' segment with
  | some (c :: stem, _) => start ++ c :: stem
  | _ => path

def viewName? (t : NameTranslator) (path : String) : Option String :=
  let bare := withoutExtension (Text.trimWhile (· = '/') path.toList)
  if bare.isEmpty then none
  else
    let name := match t.separator with
      | none => bare
      | some s => bare.flatMap fun c => if c = '/' then s.toList else [c]
    some (t.pre ++ String.ofList name ++ t.post)

end NameTranslator

end Switchyard
