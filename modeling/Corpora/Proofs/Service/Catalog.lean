import Corpora.Proofs.Service.Operation

/-!
What the service is to those who use it: a catalogue of indices by name, each with its documents by
filename, and beside them the status records. There are no buckets in it and no metadata; a request
is answered in one step. The instants and ids that a step needs are given to it.
-/

namespace Corpora.Service

open Time (Instant)
open Document (Entry Progress Status)

structure Shelf where
  description : String
  createdAt : Instant
  documents : SortedMap String StoredObject

def Shelf.index (shelf : Shelf) (name : String) : Index :=
  ⟨name, shelf.description, shelf.createdAt⟩

/-- What the world decides while a request is answered: when an index is created, when a document
is stored, when its status is recorded and when the upload is told, and the id of a new record. -/
structure Moments where
  created : Instant
  stored : Instant
  recorded : Instant
  told : Instant
  id : String

def Moments.status (moments : Moments) (name filename : String) (progress : Progress)
    (errorMessage : Option String) : Status :=
  ⟨moments.id, name, filename, progress, errorMessage, moments.recorded.seconds,
    moments.recorded.seconds⟩

structure Catalog where
  shelves : SortedMap String Shelf
  statuses : SortedMap StatusKey Status

namespace Catalog

def empty : Catalog := ⟨∅, ∅⟩

def put (catalog : Catalog) (name : String) (shelf : Shelf) : Catalog :=
  { catalog with shelves := catalog.shelves.insert name shelf }

/-- The row of a file behind a report. A row that was there keeps its id and its time of creation;
how far the file has come, the message and the time of the change are those of the report. -/
def row (report : Status) : Option Status → Status
  | none => report
  | some held =>
      { id := held.id
        index := report.index
        filename := report.filename
        progress := report.progress
        errorMessage := report.errorMessage
        createdAt := held.createdAt
        updatedAt := report.updatedAt }

def record (catalog : Catalog) (report : Status) : Catalog :=
  let key : StatusKey := ⟨report.index, report.filename⟩
  { catalog with statuses := catalog.statuses.insert key (row report (catalog.statuses.get? key)) }

def forget (catalog : Catalog) (name filename : String) : Catalog :=
  { catalog with statuses := catalog.statuses.erase ⟨name, filename⟩ }

def entry (catalog : Catalog) (name : String) (document : String × StoredObject) : Entry :=
  let status := catalog.statuses.get? ⟨name, document.1⟩
  ⟨document.1, document.2.content.data.length, some document.2.content.contentType,
    document.2.lastModified, status.map Status.progress, status.bind Status.errorMessage⟩

def indices (catalog : Catalog) : List Index :=
  catalog.shelves.entries.map fun (name, shelf) => shelf.index name

def onShelf (catalog : Catalog) (name : String) (answer : Shelf → Answered Reply × Catalog) :
    Answered Reply × Catalog :=
  match catalog.shelves.get? name with
  | some shelf => answer shelf
  | none => (.error indexMissing, catalog)

/-- The answer to a request, with the catalogue after it. -/
def step (moments : Moments) (catalog : Catalog) : Operation → Answered Reply × Catalog
  | .create name description =>
      if name.isEmpty then (.error nameMissing, catalog)
      else if !Index.isValidName name then (.error nameInvalid, catalog)
      else if catalog.shelves.contains name then (.error (indexPresent name), catalog)
      else
        let shelf : Shelf := ⟨description, moments.created, ∅⟩
        (.ok (.index (shelf.index name)), catalog.put name shelf)
  | .get name => catalog.onShelf name fun shelf => (.ok (.index (shelf.index name)), catalog)
  | .list => (.ok (.indices catalog.indices), catalog)
  | .summarize => (.ok (.summaries (catalog.indices.map Index.summary)), catalog)
  | .update name description => catalog.onShelf name fun shelf =>
      let shelf := { shelf with description := description }
      (.ok (.index (shelf.index name)), catalog.put name shelf)
  | .delete name => catalog.onShelf name fun _ =>
      (.ok .done, ⟨catalog.shelves.erase name,
        catalog.statuses.filterKeys fun key => key.index != name⟩)
  | .upload name filename data contentType =>
      match Document.checkFilename filename with
      | .error refusal => (.error (.badRequest refusal.message), catalog)
      | .ok () => catalog.onShelf name fun shelf =>
          let kind := (contentType.filter fun given => !given.isEmpty).getD "application/octet-stream"
          let stored : StoredObject := ⟨⟨data, kind⟩, moments.stored⟩
          let shelf := { shelf with documents := shelf.documents.insert filename stored }
          (.ok (.entry ⟨filename, data.length, some kind, moments.told, some .pending, none⟩),
            (catalog.put name shelf).record (moments.status name filename .pending none))
  | .download name filename =>
      if Document.isReserved filename then
        (.error (.badRequest "Cannot download reserved file"), catalog)
      else catalog.onShelf name fun shelf =>
        match shelf.documents.get? filename with
        | some held => (.ok (.content held.content), catalog)
        | none => (.error documentMissing, catalog)
  | .documents name => catalog.onShelf name fun shelf =>
      (.ok (.entries (shelf.documents.entries.map (catalog.entry name))), catalog)
  | .remove name filename =>
      if Document.isReserved filename then
        (.error (.badRequest "Cannot delete reserved file"), catalog)
      else
        match catalog.shelves.get? name with
        | none => (.error (.internal "Failed to delete document" (ObjectStore.bucketMissing name)),
            catalog)
        | some shelf =>
            let shelf := { shelf with documents := shelf.documents.erase filename }
            (.ok .done, (catalog.put name shelf).forget name filename)
  | .report name filename progress errorMessage =>
      if (Text.trim progress).isEmpty then (.error (.badRequest "Status is required"), catalog)
      else
        match Progress.parse progress with
        | .error why => (.error (.badRequest why.message), catalog)
        | .ok progress =>
            let report := moments.status name filename progress
              (errorMessage.filter fun text => !text.isEmpty)
            (.ok (.status report), catalog.record report)
  | .forget name filename => (.ok .done, catalog.forget name filename)

def play : List (Operation × Moments) → Catalog → List (Answered Reply) × Catalog
  | [], catalog => ([], catalog)
  | (operation, moments) :: rest, catalog =>
      let (answer, catalog) := catalog.step moments operation
      let (answers, catalog) := play rest catalog
      (answer :: answers, catalog)

end Catalog
end Corpora.Service
