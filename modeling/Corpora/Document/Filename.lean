import Corpora.Text.Ascii
import Corpora.Text.Blank

/-!
Names of documents: the reserved name, the extension, and which names an upload may use.
-/

namespace Corpora.Document

/-- The key of the object that holds the metadata of an index. It is never a document. -/
def metadataKey : String := ".metadata.json"

def supportedExtensions : List String := [".txt", ".md", ".json", ".csv", ".docx", ".pdf"]

def isReserved (filename : String) : Bool := filename == metadataKey

def behindLast (stop : Char → Bool) (cs : List Char) : List Char :=
  (cs.reverse.takeWhile fun c => !stop c).reverse

def baseName (path : String) : String :=
  String.ofList (behindLast (fun c => c == '/' || c == '\\') path.toList)

/-- The extension in small letters with its dot; empty where the last segment has no dot. -/
def extension (filename : String) : String :=
  let base := behindLast (· == '/') filename.toList
  if base.contains '.' then
    Text.lower (String.ofList ('.' :: behindLast (· == '.') base))
  else ""

def hasSupportedExtension (filename : String) : Bool :=
  supportedExtensions.contains (extension filename)

inductive Refusal where
  | blank
  | reserved
  | unsupported (extension : String)
  deriving Repr, DecidableEq

def Refusal.message : Refusal → String
  | .blank => "Filename is required"
  | .reserved => "Cannot upload file with reserved name"
  | .unsupported extension =>
      "Unsupported file type '" ++ extension ++ "'. Supported types: " ++
        ", ".intercalate supportedExtensions

def checkFilename (filename : String) : Except Refusal Unit :=
  if (Text.trim filename).isEmpty then .error .blank
  else if isReserved filename then .error .reserved
  else if !hasSupportedExtension filename then .error (.unsupported (extension filename))
  else .ok ()

end Corpora.Document
