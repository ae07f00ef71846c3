import Corpora.Objects.Store
import Corpora.Time.Reader
import Corpora.Xml.Block

/-!
The XML documents of the object-store protocol: listings that are read, and bodies of requests
that are written.
-/

namespace Corpora.S3

structure Page where
  objects : List ObjectInfo
  truncated : Bool
  nextToken : Option String
  deriving Repr, DecidableEq

def bucketNames (xml : String) : List String :=
  (Xml.blocks "Bucket" xml).filterMap (Xml.value? "Name")

/-- An object of a listing. One without a key is left out; a time or size that cannot be read
counts as the earliest time or as zero. -/
def objectOf? (block : String) : Option ObjectInfo := do
  let key ← Xml.value? "Key" block
  if key.isEmpty then none
  else
    let lastModified := (Xml.value? "LastModified" block).bind Time.Instant.strict?
    let size := (Xml.value? "Size" block).bind Number.signed64?
    return ⟨key, size.getD 0, none, lastModified.getD Time.Instant.epoch⟩

def Page.ofXml (xml : String) : Page where
  objects := (Xml.blocks "Contents" xml).filterMap objectOf?
  truncated := Xml.value? "IsTruncated" xml == some "true"
  nextToken := Xml.value? "NextContinuationToken" xml

def element (tag text : String) : String := "<" ++ tag ++ ">" ++ text ++ "</" ++ tag ++ ">"

def notificationXml (notification : Notification) : String :=
  "<NotificationConfiguration xmlns=\"http://s3.amazonaws.com/doc/2006-03-01/\">" ++
    element "QueueConfiguration"
      (element "Id" (Xml.escape notification.id) ++
        element "Queue" (Xml.escape notification.target) ++
        String.join (notification.events.map fun event => element "Event" (Xml.escape event))) ++
    "</NotificationConfiguration>"

def defaultRegion : String := "us-east-1"

/-- The document that creates a bucket; there is none for the default region. -/
def createBucketXml (region : String) : String :=
  if region.isEmpty || region == defaultRegion then ""
  else element "CreateBucketConfiguration" (element "LocationConstraint" region)

end Corpora.S3
