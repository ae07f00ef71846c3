import Corpora.Proofs.Index.Metadata
import Corpora.Proofs.Server.Handling
import Corpora.Proofs.Service.Lookup
import Corpora.Reconcile.Source

/-!
The two ways to observe the indices of a service. A reconciler lists them by a call of the service or
by a request to its API; the listing in an envelope of the API reads back as the summaries that the
call gives, whatever the indices are named and described, and an error of the one is an error of the
other.
-/

namespace Corpora

open Json (ascii closing written itemBytes objectMembers written_object written_string
  written_false objectMembers_first objectMembers_later objectMembers_end written_array)
open Json.Decoder (RecordField field nullable list recordMember recordMember_read
  recordMember_passed record_object nullable_list list_objects)
open Server (IndexApi envelope)
open Service (Circumstances Session)

def Http.Response.reply (response : Http.Response) : Wire.Reply :=
  ⟨response.status, Http.header? response.headers "content-type", response.body⟩

def Wire.Sent.arrived (sent : Wire.Sent) : Http.Request :=
  ⟨sent.method, sent.url.path ++ (sent.url.query.elim "" fun query => "?" ++ query), sent.headers,
    sent.body⟩

namespace RemoteIndices

def envelopeBytes (message : String) (indices : List Index) : Bytes :=
  ascii '"' :: (closing "data" ++ ascii ':' :: ascii '[' ::
    (itemBytes Index.memberBytes indices ++ ascii ']' ::
      ascii ',' :: ascii '"' :: (closing "message" ++ ascii ':' :: ascii '"' ::
        (closing message ++ ascii ',' :: ascii '"' :: (closing "error" ++ ascii ':' ::
          (Text.Utf8.encode "false" ++ [ascii '}']))))))

theorem envelope_body (status : Nat) (message : String) (indices : List Index) :
    (envelope status message (.array (indices.map Index.json))).body =
      ascii '{' :: envelopeBytes message indices := by
  have listed := written_array Index.written_json indices
  rw [envelope, Http.Response.json, Json.encode_compactText]
  simp [written_object, written_string, written_false, Json.memberBytes, listed, envelopeBytes]

theorem decode_envelope (status : Nat) (message : String) (indices : List Index) :
    Json.decode decoder (envelope status message (.array (indices.map Index.json))).body =
      .ok (indices.map Index.summary) := by
  let listed := nullable (list IndexSummary.decoder)
  let data : RecordField (Option (Option (List IndexSummary))) :=
    field "data" id (fun value _ => some value) listed false
  have read (rest : Bytes) : listed 126 (ascii '[' :: (itemBytes Index.memberBytes indices ++
      ascii ']' :: rest)) = .ok (some (indices.map Index.summary), rest) :=
    nullable_list (list_objects (Index.summary_read 124) indices rest)
  have taken (rest : Bytes) : recordMember [data] 126 none "data" (ascii ':' :: ascii '[' ::
      (itemBytes Index.memberBytes indices ++ ascii ']' :: rest)) =
        .ok (some (some (indices.map Index.summary)), rest) := by
    apply recordMember_read data rfl rfl
    simp [data, field, read, Except.map]
  have members : objectMembers (recordMember [data] 126)
      ((envelopeBytes message indices).length + 1) true none (envelopeBytes message indices) =
        .ok (some (some (indices.map Index.summary)), []) := by
    obtain ⟨fuel, enough⟩ : ∃ fuel, (envelopeBytes message indices).length + 1 = fuel + 4 := by
      refine ⟨(envelopeBytes message indices).length - 3, ?_⟩
      simp only [envelopeBytes, List.length_cons, List.length_append]
      omega
    rw [enough, envelopeBytes, objectMembers_first, taken, Except.bind,
      objectMembers_later, recordMember_passed rfl (Json.skipValue_quoted _ _), Except.bind,
      objectMembers_later, recordMember_passed rfl (Json.skipValue_false _), Except.bind,
      objectMembers_end]
  have whole := record_object [data] none (fun held => some ((held.getD none).getD [])) 126
    (envelopeBytes message indices) [] _ _ members rfl
  rw [envelope_body, Json.decode, decoder, Json.deepest, whole]
  rfl

def refusal (source : RemoteIndices) (status : Nat) : Failure :=
  .because ("GET " ++ source.url ++ " failed (HTTP " ++ Wire.statusText status ++ ")")

theorem isSuccess_ofError (error : ServiceError) :
    (Http.allowOrigin (.ofError error)).reply.isSuccess = false := by
  cases error <;> rfl

theorem ofOutcome_listing (source : RemoteIndices) (message : String)
    (answer : Answered (List Index)) :
    source.ofOutcome (.answered (Http.allowOrigin (.ofAnswered (fun indices =>
      envelope 200 message (.array (indices.map Index.json))) answer)).reply) =
        (answer.map (List.map Index.summary)).mapError fun error =>
          source.refusal error.status := by
  cases answer with
  | ok indices =>
      let response := Http.allowOrigin (envelope 200 message (.array (indices.map Index.json)))
      have success : response.reply.isSuccess = true := rfl
      have read : Json.decode decoder response.reply.body = .ok (indices.map Index.summary) :=
        decode_envelope 200 message indices
      change source.ofOutcome (.answered response.reply) = .ok (indices.map Index.summary)
      simp only [ofOutcome, success, read, Bool.not_true, Bool.false_eq_true, ↓reduceIte]
  | error error =>
      have failure := isSuccess_ofError error
      change source.ofOutcome (.answered (Http.allowOrigin (.ofError error)).reply) =
        .error (source.refusal error.status)
      simp only [ofOutcome, failure, Bool.not_false, ↓reduceIte]
      rfl

end RemoteIndices

section Listing

variable {circumstances : Circumstances}

theorem handle_listing (api : IndexApi) {request : Http.Request} (asks : request.method = .get)
    (listing : Http.segments request.target = ["api", "indices"]) (session : Session) :
    let outcome := Service.listIndices.outcome circumstances session
    (api.handle request).run circumstances session =
      (Http.allowOrigin (.ofAnswered (fun indices =>
        envelope 200 "RAG indices listed successfully" (.array (indices.map Index.json)))
          outcome.1), outcome.2) := by
  intro outcome
  have asked : Server.Resource.indices.At request.target :=
    ⟨.indices, by rw [listing]; rfl, rfl⟩
  have offered : request.method ∈ Server.Resource.indices.methods := by
    rw [asks]
    decide
  rw [handle_run api asked offered, asks, IndexApi.respond, answer_run]

theorem listSummaries_outcome (session : Session) :
    let outcome := Service.listIndices.outcome circumstances session
    Service.listSummaries.outcome circumstances session =
      (outcome.1.map (List.map Index.summary), outcome.2) :=
  Service.Action.outcome_map rfl

end Listing

theorem RemoteIndices.at_asks_listing {scheme : String} (known : scheme = "http" ∨ scheme = "https")
    (authority : Wire.Authority scheme) (slashes : Nat) :
    let source := RemoteIndices.at_ (scheme ++ "://" ++ String.ofList authority.text ++
      String.ofList (List.replicate slashes '/'))
    ∃ sent, Wire.request? .get source.url [] [] = some sent ∧ sent.arrived.method = .get ∧
      Http.segments sent.arrived.target = ["api", "indices"] := by
  intro source
  let url : Wire.Url :=
    ⟨scheme, String.ofList authority.host.text, authority.port, "/api/indices", none⟩
  have api : Wire.Plain "api".toList := ⟨⟨rfl, rfl⟩, List.all_eq_true.mp rfl⟩
  have indices : Wire.Plain "indices".toList := ⟨⟨rfl, rfl⟩, List.all_eq_true.mp rfl⟩
  have segments : ∀ segment ∈ ["api".toList, "indices".toList], Wire.Plain segment :=
    List.forall_mem_cons.mpr ⟨api, List.forall_mem_singleton.mpr indices⟩
  have address : source.url = String.ofList
      (Wire.addressText authority ["api".toList, "indices".toList] []) := by
    apply String.toList_inj.mp
    simp only [source, RemoteIndices.at_, Wire.withoutEndSlashes_authority]
    simp [Wire.addressText, Wire.pathText, Wire.queryPart]
  have parsed : Wire.Url.parse? source.url = some url := by
    rw [address]
    have noQuery : ∀ c ∈ ([] : List Char), Wire.isQueryChar c = true := List.forall_mem_nil _
    exact Wire.parse?_addressText known authority (List.cons_ne_nil _ _) segments noQuery
  have path : Http.segments ("/api/indices" ++ "") = ["api", "indices"] := by decide
  refine ⟨⟨.get, url, [⟨"host", url.authority⟩], []⟩, ?_, rfl, path⟩
  rw [Wire.request?, parsed]
  rfl

/-- A listing over the API of a service is the listing by a call of the service, in whatever state
and circumstances: the same summaries in the same order, or an error where the call ends in one. The
stores are left alike. -/
theorem sources_agree (api : IndexApi) (circumstances : Circumstances) (session : Session)
    (source : RemoteIndices) (earlier : List Wire.Sent) (later : List Wire.Outcome)
    (sendable : (Wire.request? .get source.url [] []).isSome) {request : Http.Request}
    (asks : request.method = .get) (listing : Http.segments request.target = ["api", "indices"]) :
    let served := (api.handle request).run circumstances session
    let called := Service.listSummaries.outcome circumstances session
    (source.fetch ⟨.answered served.1.reply :: later, earlier⟩).1 =
        called.1.mapError (fun error => source.refusal error.status) ∧
      served.2 = called.2 := by
  intro served called
  obtain ⟨sent, request?⟩ := Option.isSome_iff_exists.mp sendable
  have response : served = _ := handle_listing api asks listing session
  have summaries : called = _ := listSummaries_outcome session
  constructor
  · rw [RemoteIndices.fetch, request?]
    change source.ofOutcome (.answered served.1.reply) = _
    rw [response, summaries]
    exact source.ofOutcome_listing _ _
  · rw [response, summaries]

def inscribed : Service.Stores :=
  ⟨ObjectStore.empty.replace "a" (Service.newBucket ⟨"q", "webhook", "", []⟩
    ⟨"a", "\"\\\x01", Time.Instant.epoch⟩ Time.Instant.epoch), .memory .empty⟩

theorem inscribed_sources_agree :
    let source := RemoteIndices.at_ "http://localhost/"
    let request : Http.Request := ⟨.get, "/api/indices", [], []⟩
    let api : IndexApi := ⟨⟨"q", "webhook", "", []⟩, 1⟩
    let served := (api.handle request).run Service.calm (.start inscribed)
    (Wire.request? .get source.url [] []).isSome ∧ request.method = .get ∧
      Http.segments request.target = ["api", "indices"] ∧
      (source.fetch (.start [.answered served.1.reply])).1 = .ok [⟨"a", "\"\\\x01"⟩] := by
  intro source request api served
  have sendable : (Wire.request? .get source.url [] []).isSome := by decide
  have listing : Http.segments request.target = ["api", "indices"] := by decide
  have agree := sources_agree api Service.calm (.start inscribed) source [] [] sendable rfl listing
  have described : inscribed.objects.index? "a" = some ⟨"a", "\"\\\x01", Time.Instant.epoch⟩ :=
    ObjectStore.index?_newBucket _ _ _ _ Time.Instant.regular_epoch
  have single : inscribed.objects.indices = [⟨"a", "\"\\\x01", Time.Instant.epoch⟩] := by
    have keys : inscribed.objects.buckets.keys = ["a"] := rfl
    rw [ObjectStore.indices, keys, List.filterMap_cons, described, List.filterMap_nil]
  obtain ⟨after, listed, _⟩ :=
    Service.listIndices_outcome Service.calm_faultless (.start inscribed)
  refine ⟨sendable, rfl, listing, agree.1.trans ?_⟩
  rw [listSummaries_outcome, listed]
  simp only [Session.start, single]
  rfl

end Corpora
