import Corpora.Xml.Entity

/-!
Blocks of XML: what stands between an opening tag without attributes and the next closing tag of
the same name. No structure beyond this is looked at.
-/

namespace Corpora.Xml

def openTag (tag : String) : List Char := '<' :: (tag.toList ++ ['>'])

def closeTag (tag : String) : List Char := '<' :: '/' :: (tag.toList ++ ['>'])

def firstBlock? (tag : String) (xml : List Char) : Option (List Char × List Char) := do
  let (_, behind) ← Text.splitFirst? (openTag tag) xml
  Text.splitFirst? (closeTag tag) behind

theorem length_firstBlock? {tag : String} {xml block rest : List Char}
    (found : firstBlock? tag xml = some (block, rest)) : rest.length < xml.length := by
  simp only [firstBlock?, bind, Option.bind_eq_some_iff] at found
  obtain ⟨⟨before, behind⟩, opened, closed⟩ := found
  have outer := congrArg List.length (Text.splitFirst?_eq opened)
  have inner := congrArg List.length (Text.splitFirst?_eq closed)
  simp only [List.length_append, openTag, closeTag, List.length_cons] at outer inner
  omega

/-- The blocks of a tag from the left; each search goes on behind the block before. -/
def blockChars (tag : String) (xml : List Char) : List (List Char) :=
  match _found : firstBlock? tag xml with
  | some (block, rest) => block :: blockChars tag rest
  | none => []
  termination_by xml.length
  decreasing_by exact length_firstBlock? _found

def blocks (tag xml : String) : List String := (blockChars tag xml.toList).map String.ofList

def value? (tag xml : String) : Option String := (blocks tag xml).head?.map unescape

end Corpora.Xml
