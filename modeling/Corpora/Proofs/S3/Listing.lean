import Corpora.Proofs.Time.Stamp
import Corpora.Proofs.Xml.Block
import Corpora.S3.Listing

/-!
Listings are read as they were written. A document has the elements of a listing in any order and
with any gaps and foreign tags around them; its texts are escaped, so that no key or token can
pass for a tag.
-/

namespace Corpora.S3

open Xml (Leaf Part Tags documentChars elementChars items)

section Objects

def listingTags : Tags where
  names := ["IsTruncated", "NextContinuationToken", "Contents", "Key", "LastModified", "Size"]
  plain := by decide

structure ListedObject where
  key : String
  named : key ≠ ""
  size : Int
  fits : Number.fitsSigned64 size = true
  time : Time.Stamp

def ListedObject.info (object : ListedObject) : ObjectInfo :=
  ⟨object.key, object.size, none, object.time.instant⟩

/-- The parts of the element of an object, with one leaf for each of its properties. -/
structure ObjectEntry where
  object : ListedObject
  parts : List (Part listingTags (Leaf ["Key", "LastModified", "Size"]))
  key : (items parts).filterMap (Leaf.textOf? "Key") = [object.key]
  time : (items parts).filterMap (Leaf.textOf? "LastModified") = [object.time.text]
  size : (items parts).filterMap (Leaf.textOf? "Size") = [Number.ofInt object.size]

def ObjectEntry.chars (entry : ObjectEntry) : List Char := documentChars Leaf.chars entry.parts

inductive ListingItem where
  | leaf (field : Leaf ["IsTruncated", "NextContinuationToken"])
  | contents (entry : ObjectEntry)

namespace ListingItem

def chars : ListingItem → List Char
  | .leaf field => field.chars
  | .contents entry => elementChars "Contents" entry.chars

def leaf? : ListingItem → Option (Leaf ["IsTruncated", "NextContinuationToken"])
  | .leaf field => some field
  | .contents _ => none

def entry? : ListingItem → Option ObjectEntry
  | .leaf _ => none
  | .contents entry => some entry

end ListingItem

/-- A document that lists objects, with one flag and at most one token. -/
structure Listing (objects : List ListedObject) (truncated : Bool) (token : Option String) where
  parts : List (Part listingTags ListingItem)
  flags : ((items parts).filterMap ListingItem.leaf?).filterMap (Leaf.textOf? "IsTruncated") =
    [if truncated then "true" else "false"]
  tokens : ((items parts).filterMap ListingItem.leaf?).filterMap
    (Leaf.textOf? "NextContinuationToken") = token.toList
  entries : ((items parts).filterMap ListingItem.entry?).map ObjectEntry.object = objects

variable {objects : List ListedObject} {truncated : Bool} {token : Option String}

def Listing.text (listing : Listing objects truncated token) : String :=
  String.ofList (documentChars ListingItem.chars listing.parts)

theorem leaf_tag_ne {tags : List String} {tag : String} (leaf : Leaf tags) (foreign : tag ∉ tags) :
    leaf.tag ≠ tag := fun same => foreign (same ▸ leaf.known)

theorem objectOf?_entry (entry : ObjectEntry) :
    objectOf? (String.ofList entry.chars) = some entry.object.info := by
  have value (tag : String) (known : tag ∈ listingTags.names) :
      Xml.value? tag (String.ofList entry.chars) =
        ((items entry.parts).filterMap (Leaf.textOf? tag)).head? := by
    have among : ∀ other ∈ ["Key", "LastModified", "Size"], other ∈ listingTags.names := by decide
    have read := @Xml.value?_document listingTags _ _ tag known among Leaf.chars some entry.parts
      fun leaf member => rfl
    rwa [List.filterMap_some] at read
  have key := value "Key" (by decide)
  have time := value "LastModified" (by decide)
  have size := value "Size" (by decide)
  rw [entry.key] at key
  rw [entry.time] at time
  rw [entry.size] at size
  have named : entry.object.key.isEmpty = false := by
    rw [Bool.eq_false_iff, Ne, String.isEmpty_iff]
    exact entry.object.named
  rw [objectOf?, key, time, size]
  simp only [List.head?_cons, Option.bind_eq_bind, Option.bind_some, named, Bool.false_eq_true,
    ↓reduceIte, Time.Stamp.strict?_text, Number.signed64?_ofInt entry.object.fits,
    Option.getD_some]
  rfl

theorem blocks_contents (listing : Listing objects truncated token) :
    Xml.blocks "Contents" listing.text =
      ((items listing.parts).filterMap ListingItem.entry?).map fun entry =>
        String.ofList entry.chars := by
  have known : "Contents" ∈ listingTags.names := by decide
  have blocks : Xml.blockChars "Contents" (documentChars ListingItem.chars listing.parts) =
      (items listing.parts).filterMap fun item => item.entry?.map ObjectEntry.chars := by
    refine Xml.blockChars_document known fun item member => ?_
    cases item with
    | leaf field =>
        exact field.passes_open known (by decide) (leaf_tag_ne field (by decide))
    | contents entry =>
        refine ⟨rfl, Xml.document_passes_close known fun field member => ?_⟩
        exact field.passes_close known (by decide) (leaf_tag_ne field (by decide))
  rw [Xml.blocks, Listing.text, String.toList_ofList, blocks, List.map_filterMap,
    List.map_filterMap]
  congr 1
  funext item
  cases item <;> rfl

theorem value?_listing (listing : Listing objects truncated token) (tag : String)
    (known : tag ∈ listingTags.names) (outside : tag ≠ "Contents")
    (foreign : tag ∉ ["Key", "LastModified", "Size"]) :
    Xml.value? tag listing.text = (((items listing.parts).filterMap ListingItem.leaf?).filterMap
      (Leaf.textOf? tag)).head? := by
  refine Xml.value?_document known (by decide) fun item member => ?_
  cases item with
  | leaf field => rfl
  | contents entry =>
      refine Xml.element_passes_open known (by decide) outside.symm ?_
      refine Xml.document_passes_open known fun field member => ?_
      exact field.passes_open known (by decide) (leaf_tag_ne field foreign)

/-- A listing is read as the objects, the flag and the token that it was written from. -/
theorem ofXml_listing (listing : Listing objects truncated token) :
    Page.ofXml listing.text = ⟨objects.map ListedObject.info, truncated, token⟩ := by
  have flag := value?_listing listing "IsTruncated" (by decide) (by decide) (by decide)
  have next := value?_listing listing "NextContinuationToken" (by decide) (by decide) (by decide)
  have shown : (Xml.blocks "Contents" listing.text).filterMap objectOf? =
      objects.map ListedObject.info := by
    have each : (objectOf? ∘ fun entry => String.ofList entry.chars) =
        some ∘ fun entry : ObjectEntry => entry.object.info := funext objectOf?_entry
    calc (Xml.blocks "Contents" listing.text).filterMap objectOf?
        = ((items listing.parts).filterMap ListingItem.entry?).map
            fun entry => entry.object.info := by
          rw [blocks_contents, List.filterMap_map, each, List.filterMap_eq_map]
      _ = (((items listing.parts).filterMap ListingItem.entry?).map ObjectEntry.object).map
            ListedObject.info := by
          rw [List.map_map]
          rfl
      _ = objects.map ListedObject.info := congrArg _ listing.entries
  have last : (token.toList).head? = token := by cases token <;> rfl
  have told : (some (if truncated then "true" else "false") == some "true") = truncated := by
    cases truncated <;> decide
  rw [listing.flags] at flag
  rw [listing.tokens, last] at next
  rw [Page.ofXml, shown, flag, next, List.head?_cons, told]

def ListedObject.entry (object : ListedObject) : ObjectEntry where
  object := object
  parts :=
    [.item ⟨"Key", by decide, object.key⟩, .item ⟨"LastModified", by decide, object.time.text⟩,
      .item ⟨"Size", by decide, Number.ofInt object.size⟩]
  key := rfl
  time := rfl
  size := rfl

def plainLeaves (truncated : Bool) (token : Option String) :
    List (Leaf ["IsTruncated", "NextContinuationToken"]) :=
  ⟨"IsTruncated", by decide, if truncated then "true" else "false"⟩ ::
    token.toList.map fun token => ⟨"NextContinuationToken", by decide, token⟩

def plainItems (objects : List ListedObject) (truncated : Bool) (token : Option String) :
    List ListingItem :=
  (plainLeaves truncated token).map .leaf ++ objects.map fun object => .contents object.entry

theorem plainItems_leaves : (plainItems objects truncated token).filterMap ListingItem.leaf? =
    plainLeaves truncated token := by
  have leaves : (plainLeaves truncated token).filterMap (ListingItem.leaf? ∘ ListingItem.leaf) =
      plainLeaves truncated token := List.filterMap_some
  have others : objects.filterMap (ListingItem.leaf? ∘ fun object => .contents object.entry) = [] :=
    List.filterMap_eq_nil_iff.mpr fun _ _ => rfl
  rw [plainItems, List.filterMap_append, List.filterMap_map, List.filterMap_map, leaves, others,
    List.append_nil]

theorem plainItems_entries : (plainItems objects truncated token).filterMap ListingItem.entry? =
    objects.map ListedObject.entry := by
  have leaves : (plainLeaves truncated token).filterMap (ListingItem.entry? ∘ ListingItem.leaf) =
      [] := List.filterMap_eq_nil_iff.mpr fun _ _ => rfl
  rw [plainItems, List.filterMap_append, List.filterMap_map, List.filterMap_map, leaves,
    List.nil_append, ← List.filterMap_eq_map]
  rfl

/-- Every page can be written. -/
def Listing.plain (objects : List ListedObject) (truncated : Bool) (token : Option String) :
    Listing objects truncated token where
  parts := (plainItems objects truncated token).map .item
  flags := by
    rw [Xml.items_map_item, plainItems_leaves]
    cases token <;> rfl
  tokens := by
    rw [Xml.items_map_item, plainItems_leaves]
    cases token <;> rfl
  entries := by
    rw [Xml.items_map_item, plainItems_entries, List.map_map]
    exact List.map_id objects

end Objects

section Buckets

def bucketTags : Tags where
  names := ["Bucket", "Name"]
  plain := by decide

structure BucketEntry where
  name : String
  parts : List (Part bucketTags (Leaf ["Name"]))
  named : (items parts).filterMap (Leaf.textOf? "Name") = [name]

def BucketEntry.chars (entry : BucketEntry) : List Char := documentChars Leaf.chars entry.parts

structure BucketListing (names : List String) where
  parts : List (Part bucketTags BucketEntry)
  entries : (items parts).map BucketEntry.name = names

def BucketListing.text {names : List String} (listing : BucketListing names) : String :=
  String.ofList (documentChars (fun entry => elementChars "Bucket" entry.chars) listing.parts)

theorem value?_bucket (entry : BucketEntry) :
    Xml.value? "Name" (String.ofList entry.chars) = some entry.name := by
  have read := @Xml.value?_document bucketTags _ _ "Name" (by decide) (by decide) Leaf.chars some
    entry.parts fun leaf member => rfl
  rwa [List.filterMap_some, entry.named] at read

theorem bucketNames_listing {names : List String} (listing : BucketListing names) :
    bucketNames listing.text = names := by
  have known : "Bucket" ∈ bucketTags.names := by decide
  have blocks : Xml.blockChars "Bucket" (documentChars (fun entry : BucketEntry =>
      elementChars "Bucket" entry.chars) listing.parts) =
        (items listing.parts).map BucketEntry.chars := by
    rw [← List.filterMap_eq_map]
    refine Xml.blockChars_document known fun entry member => ?_
    refine ⟨rfl, Xml.document_passes_close known fun field member => ?_⟩
    exact field.passes_close known (by decide) (leaf_tag_ne field (by decide))
  have each : Xml.value? "Name" ∘ String.ofList ∘ BucketEntry.chars = some ∘ BucketEntry.name :=
    funext value?_bucket
  rw [bucketNames, Xml.blocks, BucketListing.text, String.toList_ofList, blocks, List.map_map,
    List.filterMap_map, each, List.filterMap_eq_map]
  exact listing.entries

def BucketEntry.ofName (name : String) : BucketEntry where
  name := name
  parts := [.item ⟨"Name", by decide, name⟩]
  named := rfl

def BucketListing.plain (names : List String) : BucketListing names where
  parts := (names.map BucketEntry.ofName).map .item
  entries := by
    rw [Xml.items_map_item, List.map_map]
    exact List.map_id names

end Buckets

/-- Every listing can be written, and however it is written, it is read as what it was written
from: a page as its objects, flag and token, and a list of buckets as their names. -/
theorem listings_read_back :
    (∀ objects truncated token, Nonempty (Listing objects truncated token) ∧
      ∀ listing : Listing objects truncated token,
        Page.ofXml listing.text = ⟨objects.map ListedObject.info, truncated, token⟩) ∧
    ∀ names, Nonempty (BucketListing names) ∧
      ∀ listing : BucketListing names, bucketNames listing.text = names :=
  ⟨fun objects truncated token => ⟨⟨.plain objects truncated token⟩, ofXml_listing⟩,
    fun names => ⟨⟨.plain names⟩, bucketNames_listing⟩⟩

example : Page.ofXml "<Contents> <Key>&lt;Key&gt;&amp;lt;</Key>\n<Size>-3</Size></Contents>" =
    ⟨[⟨"<Key>&lt;", -3, none, Time.Instant.epoch⟩], false, none⟩ := by decide +kernel

end Corpora.S3
