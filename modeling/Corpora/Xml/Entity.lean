import Corpora.Text.Search

/-!
The named entities of XML. Writing replaces the four characters that markup gives a meaning to;
reading replaces five entities, one after the other, the ampersand last.
-/

namespace Corpora.Xml

def escapeChar (c : Char) : List Char :=
  if c = '&' then "&amp;".toList
  else if c = '<' then "&lt;".toList
  else if c = '>' then "&gt;".toList
  else if c = '"' then "&quot;".toList
  else [c]

def escapeChars (cs : List Char) : List Char := cs.flatMap escapeChar

def escape (text : String) : String := String.ofList (escapeChars text.toList)

/-- The entities in the order in which reading replaces them. -/
def entities : List (List Char × Char) :=
  [("&lt;".toList, '<'), ("&gt;".toList, '>'), ("&quot;".toList, '"'), ("&apos;".toList, '\''),
    ("&amp;".toList, '&')]

def unescapeChars (cs : List Char) : List Char :=
  entities.foldl (fun text (entity, c) => Text.replaceAll entity [c] text) cs

def unescape (text : String) : String := String.ofList (unescapeChars text.toList)

end Corpora.Xml
