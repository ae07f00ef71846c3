import Corpora.Proofs.Document.Filename
import Corpora.Proofs.S3.Sending
import Corpora.Proofs.Server.Handling
import Corpora.Proofs.Service.Lookup
import Corpora.Proofs.Service.Outcome

/-!
What becomes of a document that was uploaded when it is asked for. Its bytes come back under every
name that an upload admits, but for names with a control character: an upload admits them, and the
answer to a download, which has the name in a header, cannot carry them.
-/

namespace Corpora

open Server (IndexApi)
open Server.Resource (At documentTarget at_documentTarget)
open Service (Circumstances Session uploadDocument downloadDocument uploadContentType)
/-- A character that no header can carry: a control character other than the tab, or the delete
character. -/
def Text.isControl (c : Char) : Bool := (c.toNat < 0x20 && c != '\t') || c.toNat == 0x7F

open Text (isControl)

section Header

theorem isHeaderChar_eq (c : Char) : S3.isHeaderChar c = !isControl c := by
  rcases Nat.lt_or_ge c.toNat 0x80 with low | high
  · have ascii : ∀ n < 0x80, S3.isHeaderChar (Char.ofNat n) = !isControl (Char.ofNat n) := by
      decide
    rw [← Char.ofNat_toNat c]
    exact ascii c.toNat low
  · -- No byte of a character beyond ASCII lies in it.
    have carried : S3.isHeaderChar c = true := by
      refine List.all_eq_true.mpr fun b member => ?_
      have large := Text.Utf8.encodeChar_high c high b member
      have notDelete : b ≠ 0x7F := by
        rintro rfl
        exact absurd large (by decide)
      have printable : b ≥ 0x20 := UInt8.le_iff_toNat_le.mpr (Nat.le_trans (by decide) large)
      simp [printable, notDelete]
    have plain : isControl c = false := by
      have above : ¬ c.toNat < 0x20 := by omega
      have notDelete : c.toNat ≠ 0x7F := by omega
      simp [isControl, above, notDelete]
    rw [carried, plain]
    rfl

theorem isHeaderChar_replaced (c : Char) :
    S3.isHeaderChar (if c == '"' || c == '\\' then '_' else c) = !isControl c := by
  by_cases quote : c = '"'
  · subst quote
    decide
  by_cases backslash : c = '\\'
  · subst backslash
    decide
  rw [beq_eq_false_iff_ne.mpr quote, beq_eq_false_iff_ne.mpr backslash]
  exact isHeaderChar_eq c

theorem disposition_toList (filename : String) :
    (IndexApi.disposition filename).toList = "attachment; filename=\"".toList ++
      filename.toList.map (fun c => if c == '"' || c == '\\' then '_' else c) ++ "\"".toList := by
  change ("attachment; filename=\"" ++ String.ofList (filename.toList.map fun c =>
    if c == '"' || c == '\\' then '_' else c) ++ "\"").toList = _
  simp only [String.toList_append, String.toList_ofList]

theorem isHeaderValue_disposition (filename : String) :
    Http.isHeaderValue (IndexApi.disposition filename) = !filename.toList.any isControl := by
  have front : "attachment; filename=\"".toList.all S3.isHeaderChar = true := by decide
  have behind : "\"".toList.all S3.isHeaderChar = true := by decide
  rw [S3.isHeaderValue_eq, disposition_toList, List.all_append, List.all_append, front, behind,
    Bool.true_and, Bool.and_true, List.all_map, List.not_any_eq_all_not]
  congr 1
  funext c
  exact isHeaderChar_replaced c

theorem download_eq (filename : String) (content : Content) :
    IndexApi.download filename content =
      if filename.toList.any isControl then
        .ofError (.internal "Failed to build response headers" .foreign)
      else
        ⟨200, [Http.Response.contentType (if Http.isHeaderValue content.contentType then
            content.contentType else IndexApi.defaultDownloadType),
          ⟨"content-disposition", IndexApi.disposition filename⟩], content.data⟩ := by
  rw [IndexApi.download, isHeaderValue_disposition]
  cases filename.toList.any isControl <;> rfl

end Header

section Round

variable {circumstances : Circumstances} {session : Session} {name filename : String}
  {index : Index} {bucket : Bucket} {store : StatusStore}

-- The metadata stand under a key that no document has.
theorem Bucket.index?_insert (bucket : Bucket) (other : filename ≠ Document.metadataKey)
    (object : StoredObject) :
    ({ bucket with objects := bucket.objects.insert filename object } : Bucket).index? =
      bucket.index? := by
  rw [Bucket.index?, SortedMap.get?_insert_of_ne _ _ other.symm, Bucket.index?]

section Faultless

variable (faultless : circumstances.Faultless) (valid : Index.isValidName name)
  (holds : session.stores.objects.index? name = some index)
  (memory : session.stores.statuses = .memory store)
  (admitted : Document.checkFilename filename = .ok ()) (data : Bytes)
  (contentType : Option String)

include faultless valid holds memory admitted

theorem uploadDocument_stores
    (held : session.stores.objects.buckets.get? name = some bucket) :
    ∃ entry after time,
      (uploadDocument name filename data contentType).outcome circumstances session =
        (.ok entry, after) ∧
      after.stores.objects = session.stores.objects.replace name
        { bucket with
          objects := bucket.objects.insert filename
            ⟨⟨data, uploadContentType contentType⟩, time⟩ } :=
  ⟨_, _, _, Service.uploadDocument_outcome faultless data contentType admitted valid holds held
    memory, rfl⟩

theorem download_uploaded :
    ∃ entry after,
      (uploadDocument name filename data contentType).outcome circumstances session =
        (.ok entry, after) ∧
      ((downloadDocument name filename).outcome circumstances after).1 =
        .ok ⟨data, uploadContentType contentType⟩ := by
  obtain ⟨bucket, held, described⟩ := Option.bind_eq_some_iff.mp holds
  obtain ⟨entry, after, time, uploaded, stored⟩ :=
    uploadDocument_stores faultless valid holds memory admitted data contentType held
  have free := Document.free_of_admitted admitted
  have heldAfter : after.stores.objects.buckets.get? name = some
      { bucket with
        objects := bucket.objects.insert filename
          ⟨⟨data, uploadContentType contentType⟩, time⟩ } := by
    rw [stored]
    exact SortedMap.get?_insert_self _ _ _
  have holdsAfter : after.stores.objects.index? name = some index := by
    rw [ObjectStore.index?, heldAfter, Option.bind_some,
      Bucket.index?_insert bucket (Document.ne_metadataKey free), described]
  refine ⟨entry, after, uploaded, ?_⟩
  rw [Service.downloadDocument_outcome faultless free valid holdsAfter heldAfter,
    SortedMap.get?_insert_self]
  rfl

theorem handle_uploaded (api : IndexApi) :
    ∃ entry after,
      (uploadDocument name filename data contentType).outcome circumstances session =
        (.ok entry, after) ∧
      ∀ request : Http.Request, request.method = .get →
        At request.target (.document name filename) →
        ((api.handle request).run circumstances after).1 =
          Http.allowOrigin (IndexApi.download filename ⟨data, uploadContentType contentType⟩) := by
  obtain ⟨entry, after, uploaded, read⟩ :=
    download_uploaded faultless valid holds memory admitted data contentType
  refine ⟨entry, after, uploaded, fun request asks asked => ?_⟩
  have offered : request.method ∈ (Server.Resource.document name filename).methods := by
    rw [asks]
    exact List.mem_cons_self
  rw [handle_run api asked offered, asks, IndexApi.respond, answer_run, read]
  rfl

end Faultless

/-- A document that was uploaded without a fault can be downloaded over the API, by the encoded
names of its index and its file or any other way to ask for it, if and only if its name has no
control character. If it has one, the answer is an error of the server. -/
theorem uploaded_downloads_iff (api : IndexApi) (faultless : circumstances.Faultless)
    (valid : Index.isValidName name)
    (holds : session.stores.objects.index? name = some index)
    (memory : session.stores.statuses = .memory store)
    (admitted : Document.checkFilename filename = .ok ()) (data : Bytes)
    (contentType : Option String) :
    At (documentTarget name filename) (.document name filename) ∧
    ∃ entry after,
      (uploadDocument name filename data contentType).outcome circumstances session =
        (.ok entry, after) ∧
      ∀ request : Http.Request, request.method = .get →
        At request.target (.document name filename) →
        let response := ((api.handle request).run circumstances after).1
        (response.status = 200 ∧ response.body = data ↔ filename.toList.any isControl = false) ∧
          (filename.toList.any isControl = true → response = Http.allowOrigin
            (.ofError (.internal "Failed to build response headers" .foreign))) := by
  have some : filename ≠ "" := by
    rintro rfl
    exact absurd (Document.admitted_iff.mp admitted).1 (by decide)
  obtain ⟨entry, after, uploaded, handled⟩ :=
    handle_uploaded faultless valid holds memory admitted data contentType api
  refine ⟨at_documentTarget name some, entry, after, uploaded, fun request asks asked => ?_⟩
  rw [handled request asks asked, download_eq]
  cases filename.toList.any isControl with
  | false => exact ⟨iff_of_true ⟨rfl, rfl⟩ rfl, nofun⟩
  | true =>
      refine ⟨iff_of_false (fun answered => ?_) nofun, fun _ => rfl⟩
      have status : 500 = 200 := answered.1
      exact absurd status (by decide)

def shelf : Index := ⟨"a", "", Time.Instant.epoch⟩

def shelved : Session :=
  .start ⟨ObjectStore.empty.replace "a" (Service.newBucket ⟨"q", "webhook", "", []⟩ shelf
    Time.Instant.epoch), .memory .empty⟩

theorem shelved_holds : shelved.stores.objects.index? "a" = some shelf :=
  ObjectStore.index?_newBucket _ _ _ _ Time.Instant.regular_epoch

def shelfApi : IndexApi := ⟨⟨"q", "webhook", "", []⟩, 1⟩

def askFor (filename : String) : Http.Request := ⟨.get, documentTarget "a" filename, [], []⟩

theorem plain_name_downloads :
    ∃ entry after,
      (uploadDocument "a" "b c.txt" [104, 105] none).outcome Service.calm shelved =
        (.ok entry, after) ∧
      let response := ((shelfApi.handle (askFor "b c.txt")).run Service.calm after).1
      response.status = 200 ∧ response.body = [104, 105] := by
  have valid : Index.isValidName "a" := by decide
  have admitted : Document.checkFilename "b c.txt" = .ok () := by
    rw [Document.admitted_iff]
    decide
  have plain : "b c.txt".toList.any isControl = false := by decide
  obtain ⟨asked, entry, after, uploaded, answered⟩ := uploaded_downloads_iff shelfApi
    Service.calm_faultless valid shelved_holds rfl admitted [104, 105] none
  exact ⟨entry, after, uploaded, (answered (askFor "b c.txt") rfl asked).1.mpr plain⟩

/-- An upload admits a name with a control character, under which nothing can be downloaded. -/
theorem control_name_is_stuck :
    Document.checkFilename "b\x01.txt" = .ok () ∧
      ∃ entry after,
        (uploadDocument "a" "b\x01.txt" [104, 105] none).outcome Service.calm shelved =
          (.ok entry, after) ∧
        ((shelfApi.handle (askFor "b\x01.txt")).run Service.calm after).1.status = 500 := by
  have valid : Index.isValidName "a" := by decide
  have admitted : Document.checkFilename "b\x01.txt" = .ok () := by
    rw [Document.admitted_iff]
    decide
  have stuck : "b\x01.txt".toList.any isControl = true := by decide
  obtain ⟨entry, after, uploaded, handled⟩ := handle_uploaded Service.calm_faultless valid
    shelved_holds rfl admitted [104, 105] none shelfApi
  refine ⟨admitted, entry, after, uploaded, ?_⟩
  rw [handled (askFor "b\x01.txt") rfl (at_documentTarget "a" (by decide)), download_eq, stuck]
  rfl

end Round
end Corpora
