import Switchyard.Media.MediaType
/-!
# Extension tables

File extensions and the media types that they stand for. Extensions have no leading dots and are
in lower case; a later entry for an extension replaces an earlier one and comes last.
-/

namespace Switchyard

/-- Extensions with their media types, in the order of their last registration. -/
structure ExtensionTable where
  entries : List (String × MediaType) := []
  deriving DecidableEq, Repr

namespace ExtensionTable

def withoutDots (extension : String) : String :=
  String.ofList (extension.toList.dropWhile (· = '.'))

def add (t : ExtensionTable) (extension : String) (mediaType : MediaType) : ExtensionTable :=
  let key := Text.lower (withoutDots extension)
  ⟨t.entries.filter (fun e => e.1 != key) ++ [(key, mediaType)]⟩

/-- The media type of an extension, in any letter case and with or without dots. -/
def lookup? (t : ExtensionTable) (extension : String) : Option MediaType :=
  (t.entries.find? fun e => Text.sameFold e.1 (withoutDots extension)).map (·.2)

def extensionsOf (t : ExtensionTable) (mediaType : MediaType) : List String :=
  (t.entries.filter fun e => e.2.sameEssence mediaType).map (·.1)

def extensions (t : ExtensionTable) : List String := t.entries.map (·.1)

def isEmpty (t : ExtensionTable) : Bool := t.entries.isEmpty

def ofList (entries : List (String × MediaType)) : ExtensionTable :=
  entries.foldl (fun t e => t.add e.1 e.2) {}

end ExtensionTable

end Switchyard
