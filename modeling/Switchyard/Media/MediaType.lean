import Switchyard.Media.Quality
import Switchyard.Text.Cut
/-!
# Media types

Media types such as `application/json;q=0.8` and the ranges that stand for many of them: reading
and writing, inclusion and compatibility, and the preference order of negotiation.
-/

namespace Switchyard

/-- A media type or range. Type, subtype and parameter names are in lower case, and each parameter
name occurs once. -/
structure MediaType where
  mainType : String
  subtype : String
  parameters : List (String × String)
  deriving DecidableEq, Repr, Inhabited

/-- Why a text is no media type. -/
inductive MediaTypeFault where
  | empty
  | missingSubtype (text : String)
  | badToken (text : String)
  | wildcardType (text : String)
  | badParameter (text : String)
  | badQuality (text : String)
  deriving DecidableEq, Repr

def MediaTypeFault.kind : MediaTypeFault → String
  | empty => "Empty"
  | missingSubtype _ => "MissingSubtype"
  | badToken _ => "InvalidToken"
  | wildcardType _ => "WildcardType"
  | badParameter _ => "InvalidParameter"
  | badQuality _ => "InvalidQuality"

def MediaTypeFault.message : MediaTypeFault → String
  | empty => "media type must not be empty"
  | missingSubtype t => "media type '" ++ t ++ "' does not contain '/'"
  | badToken t => "media type '" ++ t ++ "' contains illegal characters"
  | wildcardType t => "media type '" ++ t ++ "': wildcard type is legal only in '*/*'"
  | badParameter t => "media type '" ++ t ++ "' has a malformed parameter"
  | badQuality t => "media type '" ++ t ++ "' has a quality outside [0, 1]"

namespace MediaType

def wildcard : String := "*"

def new (mainType subtype : String) : MediaType := ⟨Text.lower mainType, Text.lower subtype, []⟩

def all : MediaType := ⟨wildcard, wildcard, []⟩

def applicationJson : MediaType := ⟨"application", "json", []⟩

def applicationXml : MediaType := ⟨"application", "xml", []⟩

def textHtml : MediaType := ⟨"text", "html", []⟩

def textPlain : MediaType := ⟨"text", "plain", []⟩

/-- Sets a parameter; an earlier value of the same name goes. -/
def withParameter (m : MediaType) (name value : String) : MediaType :=
  let name := Text.lower name
  { m with parameters := m.parameters.filter (fun p => p.1 != name) ++ [(name, value)] }

/-- The text between a leading and a trailing double quote, when both are there. -/
def unquote (s : List Char) : List Char :=
  match s with
  | '"' :: rest =>
    match rest.reverse with
    | '"' :: inner => inner.reverse
    | _ => s
  | _ => s

/-- Adds the parameter that a text between semicolons writes; blank texts add none. -/
def addParameter (text : String) (m : MediaType) (part : List Char) :
    Except MediaTypeFault MediaType :=
  match Text.trim part with
  | [] => .ok m
  | part =>
    match Text.cutFirst '=' part with
    | none => .error (.badParameter text)
    | some (name, raw) =>
      let name := Text.trim name
      let value := unquote (Text.trim raw)
      let isQuality := name.map Char.toLower == ['q']
      if !Text.isToken name then .error (.badParameter text)
      else if isQuality && !((Quality.parse? value).any Quality.isUnit) then
        .error (.badQuality text)
      else .ok (m.withParameter (String.ofList name) (String.ofList value))

def essence? (text : String) (part : List Char) : Except MediaTypeFault MediaType :=
  let part := Text.trim part
  match Text.cutFirst '/' (if part = ['*'] then ['*', '/', '*'] else part) with
  | none => .error (.missingSubtype text)
  | some (mainType, subtype) =>
    let mainType := Text.trim mainType
    let subtype := Text.trim subtype
    if subtype.isEmpty then .error (.missingSubtype text)
    else if !Text.isToken mainType || !Text.isToken subtype then .error (.badToken text)
    else if mainType = ['*'] && subtype != ['*'] then .error (.wildcardType text)
    else .ok (new (String.ofList mainType) (String.ofList subtype))

/-- Reads one media type. Quoted parameter values lose their quotes, and a quality has to lie
between zero and one. -/
def parse (text : String) : Except MediaTypeFault MediaType :=
  match Text.trim text.toList with
  | [] => .error .empty
  | trimmed =>
    match Text.splitUnquoted ';' trimmed with
    | [] => .error (.missingSubtype text)
    | first :: parameters => do parameters.foldlM (addParameter text) (← essence? text first)

/-- Reads a list of media types between commas; blank entries are skipped. -/
def parseList (text : String) : Except MediaTypeFault (List MediaType) :=
  ((Text.splitUnquoted ',' text.toList).filter fun part => !Text.isBlankText part).mapM fun part =>
    parse (String.ofList part)

def parameterText (p : String × String) : String :=
  if Text.isToken p.2.toList then ";" ++ p.1 ++ "=" ++ p.2 else ";" ++ p.1 ++ "=\"" ++ p.2 ++ "\""

def render (m : MediaType) : String :=
  m.mainType ++ "/" ++ m.subtype ++ String.join (m.parameters.map parameterText)

instance : ToString MediaType := ⟨render⟩

/-- The value of a parameter, its name in any letter case. -/
def parameter? (m : MediaType) (name : String) : Option String :=
  (m.parameters.find? fun p => Text.sameFold p.1 name).map (·.2)

def quality (m : MediaType) : Quality :=
  ((m.parameter? "q").bind fun q => Quality.parse? q.toList).getD .one

def removeQuality (m : MediaType) : MediaType :=
  { m with parameters := m.parameters.filter fun p => p.1 != "q" }

/-- The media type with the quality of another one, or with none if that has none. -/
def copyQuality (m source : MediaType) : MediaType :=
  match source.parameter? "q" with
  | none => m.removeQuality
  | some q => { m with parameters := m.removeQuality.parameters ++ [("q", q)] }

@[simp] theorem mainType_copyQuality (m source : MediaType) :
    (m.copyQuality source).mainType = m.mainType := by
  rw [copyQuality]
  cases source.parameter? "q" <;> rfl

@[simp] theorem subtype_copyQuality (m source : MediaType) :
    (m.copyQuality source).subtype = m.subtype := by
  rw [copyQuality]
  cases source.parameter? "q" <;> rfl

def parameterCount (m : MediaType) : Nat := m.parameters.countP fun p => p.1 != "q"

def isWildcardType (m : MediaType) : Bool := m.mainType == wildcard

/-- True for the subtypes `*` and, as in `*+xml`, any with a suffix. -/
def isWildcardSubtype (m : MediaType) : Bool :=
  m.subtype == wildcard || Text.startsWith ['*', '+'] m.subtype.toList

def isConcrete (m : MediaType) : Bool := !m.isWildcardType && !m.isWildcardSubtype

def suffix? (m : MediaType) : Option String :=
  (Text.cutLast '+' m.subtype.toList).map fun p => String.ofList p.2

def includes (a b : MediaType) : Bool :=
  if a.isWildcardType then true
  else if a.mainType != b.mainType then false
  else if a.subtype == b.subtype then true
  else if !a.isWildcardSubtype then false
  else
    match Text.cutFirst '+' a.subtype.toList with
    | none => true
    | some (first, rest) => first == ['*'] && b.suffix? == some (String.ofList rest)

/-- Whether one of the two, as a range, meets the other. -/
def isCompatibleWith (a b : MediaType) : Bool :=
  if a.isWildcardType || b.isWildcardType then true
  else if a.mainType != b.mainType then false
  else if a.subtype == b.subtype then true
  else if !a.isWildcardSubtype && !b.isWildcardSubtype then false
  else if a.subtype == wildcard || b.subtype == wildcard then true
  else if a.isWildcardSubtype && b.suffix?.isSome then a.suffix? == b.suffix?
  else if b.isWildcardSubtype && a.suffix?.isSome then a.suffix? == b.suffix?
  else false

def sameEssence (a b : MediaType) : Bool := a.mainType == b.mainType && a.subtype == b.subtype

/-- Equality of type, subtype and the set of parameters, values in any letter case. -/
def equivalent (a b : MediaType) : Bool :=
  a.sameEssence b && a.parameters.length == b.parameters.length &&
    a.parameters.all fun p => (b.parameter? p.1).any fun v => Text.sameFold v p.2

def qualityCmp (a b : MediaType) : Ordering := b.quality.totalCmp a.quality

/-- The order by specificity, `lt` for the more specific: ranges come last, and of equal types the
better quality and then the greater number of parameters first. Two different concrete types are
`eq`, so this is no transitive order. -/
def specificityCmp (a b : MediaType) : Ordering :=
  match a.isWildcardType, b.isWildcardType with
  | true, false => .gt
  | false, true => .lt
  | _, _ =>
    if a.mainType != b.mainType then .eq
    else
      match a.isWildcardSubtype, b.isWildcardSubtype with
      | true, false => .gt
      | false, true => .lt
      | _, _ =>
        if a.subtype != b.subtype then .eq
        else (a.qualityCmp b).then (compare b.parameterCount a.parameterCount)

/-- Whether the first is to stand before the second: by specificity, then by quality. -/
def precedes (a b : MediaType) : Bool := (a.specificityCmp b).then (a.qualityCmp b) == .lt

/-- Puts a media type at the end of a row that is held last first, and moves it forward past the
neighbours that it precedes. -/
def insertLast (m : MediaType) : List MediaType → List MediaType
  | [] => [m]
  | last :: before => if m.precedes last then last :: insertLast m before else m :: last :: before

/-- Sorts by insertion. An entry moves only past neighbours that it strictly precedes, so equal and
unrelated entries keep their order. -/
def sort (ms : List MediaType) : List MediaType :=
  (ms.foldl (fun row m => insertLast m row) []).reverse

private theorem insertLast_perm (m : MediaType) (row : List MediaType) :
    (insertLast m row).Perm (m :: row) := by
  induction row with
  | nil => rfl
  | cons last before ih =>
    rw [insertLast]
    split
    · exact (ih.cons last).trans (.swap m last before)
    · rfl

theorem sort_perm (ms : List MediaType) : (sort ms).Perm ms := by
  -- for any row so far
  have step (row : List MediaType) :
      (ms.foldl (fun row m => insertLast m row) row).Perm (ms ++ row) := by
    induction ms generalizing row with
    | nil => rfl
    | cons m ms ih =>
      have hinsert := (insertLast_perm m row).append_left ms
      exact (ih (insertLast m row)).trans (hinsert.trans List.perm_middle)
  rw [sort]
  exact (List.reverse_perm _).trans (by simpa using step [])

end MediaType

end Switchyard
