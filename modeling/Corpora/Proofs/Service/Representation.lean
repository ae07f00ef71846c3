import Corpora.Proofs.Document.Filename
import Corpora.Proofs.Index.Metadata
import Corpora.Proofs.Service.Catalog
import Corpora.Proofs.Service.Listing
import Mathlib.Data.List.Basic
import Mathlib.Data.List.Find

/-!
How the stores keep a catalogue. The bucket of a name holds the documents of its shelf and, under a
key that no document has, the metadata; the status records are kept as they are.
-/

namespace Corpora.Service

open Document (Entry Status)

structure Shelf.KeptIn (name : String) (shelf : Shelf) (bucket : Bucket) : Prop where
  valid : Index.isValidName name
  dated : shelf.createdAt.Regular
  proper : ∀ filename held, shelf.documents.get? filename = some held →
    Document.isReserved filename = false ∧ filename.toList.getLast? ≠ some '/'
  objects : ∃ stored, bucket.objects = shelf.documents.insert Document.metadataKey
    ⟨⟨(shelf.index name).metadata, metadataContentType⟩, stored⟩

/-- The stores keep the catalogue. -/
structure Represents (catalog : Catalog) (stores : Stores) : Prop where
  kept : ∀ name shelf, catalog.shelves.get? name = some shelf →
    ∃ bucket, stores.objects.buckets.get? name = some bucket ∧ shelf.KeptIn name bucket
  absent : ∀ name, catalog.shelves.get? name = none → stores.objects.buckets.get? name = none
  statuses : stores.statuses = .memory ⟨catalog.statuses⟩
  keyed : ∀ key status, catalog.statuses.get? key = some status → status.key = key

theorem represents_empty : Represents .empty ⟨.empty, .memory .empty⟩ where
  kept name shelf found := by cases found
  absent name _ := rfl
  statuses := rfl
  keyed key status found := by cases found

namespace Shelf.KeptIn

variable {name filename : String} {shelf : Shelf} {bucket : Bucket}

theorem index (kept : shelf.KeptIn name bucket) : bucket.index? = some (shelf.index name) := by
  rcases kept.objects with ⟨stored, objects⟩
  rw [Bucket.index?, objects, SortedMap.get?_insert_self, Option.bind_some,
    Index.ofMetadata?_metadata _ kept.dated]

theorem document (kept : shelf.KeptIn name bucket) (free : Document.isReserved filename = false) :
    bucket.objects.get? filename = shelf.documents.get? filename := by
  rcases kept.objects with ⟨stored, objects⟩
  rw [objects]
  exact SortedMap.get?_insert_of_ne _ _ (Document.ne_metadataKey free)

-- The check of the filename keeps the metadata and the markers of folders apart from documents.
theorem upload (kept : shelf.KeptIn name bucket) (held : StoredObject)
    (admitted : Document.checkFilename filename = .ok ()) :
    Shelf.KeptIn name { shelf with documents := shelf.documents.insert filename held }
      { bucket with objects := bucket.objects.insert filename held } where
  valid := kept.valid
  dated := kept.dated
  proper other found here := by
    by_cases same : other = filename
    · subst same
      exact ⟨Document.free_of_admitted admitted, Document.not_folder_of_admitted admitted⟩
    · rw [SortedMap.get?_insert_of_ne _ _ same] at here
      exact kept.proper other found here
  objects := by
    rcases kept.objects with ⟨stored, objects⟩
    refine ⟨stored, ?_⟩
    have different := Document.ne_metadataKey (Document.free_of_admitted admitted)
    simp only [objects]
    exact SortedMap.insert_comm _ _ _ different.symm

theorem remove (kept : shelf.KeptIn name bucket) (free : Document.isReserved filename = false) :
    Shelf.KeptIn name { shelf with documents := shelf.documents.erase filename }
      { bucket with objects := bucket.objects.erase filename } where
  valid := kept.valid
  dated := kept.dated
  proper other found here := by
    rw [SortedMap.get?_erase] at here
    split at here
    · cases here
    · exact kept.proper other found here
  objects := by
    rcases kept.objects with ⟨stored, objects⟩
    refine ⟨stored, ?_⟩
    simp only [objects]
    exact SortedMap.erase_insert_comm _ _ (Document.ne_metadataKey free)

theorem describe (kept : shelf.KeptIn name bucket) (description : String) (now : Time.Instant) :
    Shelf.KeptIn name { shelf with description := description }
      { bucket with
        objects := bucket.objects.insert Document.metadataKey
          ⟨⟨Index.metadata { shelf.index name with description := description },
            metadataContentType⟩, now⟩ } where
  valid := kept.valid
  dated := kept.dated
  proper := kept.proper
  objects := by
    rcases kept.objects with ⟨stored, objects⟩
    refine ⟨now, ?_⟩
    simp only [objects, SortedMap.insert_insert]
    rfl

theorem new {description : String} {created : Time.Instant} (valid : Index.isValidName name)
    (regular : created.Regular) (notification : Option Notification) (stored : Time.Instant) :
    Shelf.KeptIn name ⟨description, created, ∅⟩
      ⟨(∅ : SortedMap String StoredObject).insert Document.metadataKey
        ⟨⟨Index.metadata ⟨name, description, created⟩, metadataContentType⟩, stored⟩,
        notification⟩ where
  valid := valid
  dated := regular
  proper other found here := by cases here
  objects := ⟨stored, rfl⟩

/-- Without the metadata a bucket lists exactly the documents. -/
theorem listed (kept : shelf.KeptIn name bucket) :
    (ObjectStore.listing bucket).filter isDocument =
      shelf.documents.entries.map fun document => ⟨document.1,
        document.2.content.data.length, some document.2.content.contentType,
        document.2.lastModified⟩ := by
  rcases kept.objects with ⟨stored, objects⟩
  let proper : String → Bool := fun filename =>
    !Document.isReserved filename && filename.toList.getLast? != some '/'
  have documents : bucket.objects.filterKeys proper = shelf.documents := by
    apply SortedMap.ext_get?
    intro filename
    rw [SortedMap.get?_filterKeys]
    cases found : shelf.documents.get? filename with
    | some held =>
        rcases kept.proper filename held found with ⟨free, solid⟩
        have passes : proper filename = true := by simp [proper, free, solid]
        rw [if_pos passes, kept.document free, found]
    | none =>
        split
        · next passes =>
          have free : Document.isReserved filename = false := by
            simp only [proper, Bool.and_eq_true, Bool.not_eq_true'] at passes
            exact passes.1
          rw [kept.document free, found]
        · rfl
  have entries := congrArg SortedMap.entries documents
  rw [ObjectStore.listing, List.filter_map, ← entries]
  rfl

end Shelf.KeptIn

namespace Represents

variable {catalog : Catalog} {stores : Stores} {name : String} {shelf : Shelf} {bucket : Bucket}

theorem index_found (represents : Represents catalog stores)
    (found : catalog.shelves.get? name = some shelf) :
    stores.objects.index? name = some (shelf.index name) := by
  rcases represents.kept name shelf found with ⟨bucket, held, kept⟩
  rw [ObjectStore.index?, held]
  exact kept.index

theorem index_missing (represents : Represents catalog stores)
    (missing : catalog.shelves.get? name = none) : stores.objects.index? name = none := by
  rw [ObjectStore.index?, represents.absent name missing]
  rfl

theorem named (represents : Represents catalog stores) : stores.objects.Named := by
  intro name index read
  cases found : catalog.shelves.get? name with
  | none =>
      rw [represents.index_missing found] at read
      cases read
  | some shelf =>
      rw [represents.index_found found] at read
      cases read
      rfl

theorem contains_same (represents : Represents catalog stores) (name : String) :
    stores.objects.bucketExists name = catalog.shelves.contains name := by
  unfold ObjectStore.bucketExists SortedMap.contains
  cases found : catalog.shelves.get? name with
  | none => rw [represents.absent name found]; rfl
  | some shelf =>
      rcases represents.kept name shelf found with ⟨bucket, held, _⟩
      rw [held]
      rfl

theorem indices_same (represents : Represents catalog stores) :
    stores.objects.indices = catalog.indices := by
  have keys : stores.objects.buckets.keys = catalog.shelves.keys :=
    SortedMap.keys_ext represents.contains_same
  rw [ObjectStore.indices, keys, SortedMap.keys, List.filterMap_map, Catalog.indices,
    ← List.filterMap_eq_map]
  apply List.filterMap_congr
  rintro ⟨name, shelf⟩ member
  exact represents.index_found ((SortedMap.get?_iff _ _ _).mpr member)

theorem put (represents : Represents catalog stores) (kept : shelf.KeptIn name bucket) :
    Represents (catalog.put name shelf)
      { stores with objects := stores.objects.replace name bucket } where
  kept other found here := by
    by_cases same : other = name
    · subst same
      rw [Catalog.put, SortedMap.get?_insert_self] at here
      cases here
      exact ⟨bucket, SortedMap.get?_insert_self _ _ _, kept⟩
    · rw [Catalog.put, SortedMap.get?_insert_of_ne _ _ same] at here
      rcases represents.kept other found here with ⟨held, there, old⟩
      exact ⟨held, (SortedMap.get?_insert_of_ne _ _ same).trans there, old⟩
  absent other missing := by
    by_cases same : other = name
    · subst same
      rw [Catalog.put, SortedMap.get?_insert_self] at missing
      cases missing
    · rw [Catalog.put, SortedMap.get?_insert_of_ne _ _ same] at missing
      exact (SortedMap.get?_insert_of_ne _ _ same).trans (represents.absent other missing)
  statuses := represents.statuses
  keyed := represents.keyed

theorem with_statuses (represents : Represents catalog stores)
    {statuses : SortedMap StatusKey Status}
    (keyed : ∀ key status, statuses.get? key = some status → status.key = key) :
    Represents { catalog with statuses := statuses }
      { stores with statuses := .memory ⟨statuses⟩ } where
  kept := represents.kept
  absent := represents.absent
  statuses := rfl
  keyed := keyed

theorem drop (represents : Represents catalog stores) (name : String) :
    Represents ⟨catalog.shelves.erase name,
        catalog.statuses.filterKeys fun key => key.index != name⟩
      ⟨⟨stores.objects.buckets.erase name⟩,
        .memory ⟨catalog.statuses.filterKeys fun key => key.index != name⟩⟩ where
  kept other found here := by
    rw [SortedMap.get?_erase] at here
    split at here
    · cases here
    · next different =>
      rcases represents.kept other found here with ⟨held, there, old⟩
      refine ⟨held, ?_, old⟩
      rw [SortedMap.get?_erase, if_neg different, there]
  absent other missing := by
    rw [SortedMap.get?_erase] at missing ⊢
    split
    · rfl
    · next different =>
      rw [if_neg different] at missing
      exact represents.absent other missing
  statuses := rfl
  keyed key status found := by
    rw [SortedMap.get?_filterKeys] at found
    split at found
    · exact represents.keyed key status found
    · cases found

-- The store revises the row that it holds; the catalogue writes one for the names of the report.
theorem record_statuses (represents : Represents catalog stores) (report : Status) :
    StatusStore.upsert ⟨catalog.statuses⟩ report = ⟨(catalog.record report).statuses⟩ := by
  rw [StatusStore.upsert, Catalog.record, ← Status.key]
  cases found : catalog.statuses.get? report.key with
  | none => rfl
  | some held =>
      obtain ⟨index, filename⟩ : held.index = report.index ∧ held.filename = report.filename := by
        simpa [Status.key] using represents.keyed _ held found
      simp only [Catalog.row, Status.revise, index, filename]

theorem record (represents : Represents catalog stores) (report : Status) :
    Represents (catalog.record report)
      { stores with statuses := .memory (StatusStore.upsert ⟨catalog.statuses⟩ report) } := by
  rw [represents.record_statuses report]
  apply represents.with_statuses
  intro key status found
  change (catalog.statuses.insert report.key _).get? key = some status at found
  by_cases here : key = report.key
  · rw [here, SortedMap.get?_insert_self, Option.some_inj] at found
    rw [here, ← found]
    cases catalog.statuses.get? ⟨report.index, report.filename⟩ <;> rfl
  · rw [SortedMap.get?_insert_of_ne _ _ here] at found
    exact represents.keyed key status found

theorem forget (represents : Represents catalog stores) (name filename : String) :
    Represents (catalog.forget name filename)
      { stores with
        statuses := .memory (StatusStore.delete ⟨catalog.statuses⟩ ⟨name, filename⟩).2 } := by
  apply represents.with_statuses
  intro key status found
  rw [SortedMap.get?_erase] at found
  split at found
  · cases found
  · exact represents.keyed key status found

theorem find_status (represents : Represents catalog stores) (name filename : String) :
    (StatusStore.list ⟨catalog.statuses⟩ name).find? (fun status => status.filename == filename) =
      catalog.statuses.get? ⟨name, filename⟩ := by
  rw [StatusStore.list, SortedMap.values, List.find?_filter, List.find?_map,
    SortedMap.get?_eq_find?]
  congr 1
  apply List.find?_congr
  rintro ⟨key, status⟩ member
  have named := represents.keyed key status ((SortedMap.get?_iff _ _ _).mpr member)
  subst named
  simp [Document.Status.key]

end Represents
end Corpora.Service
