import Corpora.Proofs.Json.Invariant
import Corpora.Proofs.Service.Faultless
import Corpora.Proofs.Wire.Url
import Corpora.Server.IndexApi

/-!
How the API handles a request: one that asks for a resource by a method of it is answered by what
the resource does, and every origin may read the answer. A document is asked for by the encoded
names of its index and its file.
-/

namespace Corpora

open Server (IndexApi)
open Service (Circumstances Session)

namespace Server.Resource

open Text.Percent (encode)

/-- A target asks for a resource: its parameters, decoded, are those of the resource. -/
def At (target : String) (resource : Resource) : Prop :=
  ∃ raw, ofSegments? (Http.segments target) = some raw ∧ raw.decode = .ok resource

theorem methods_decode {raw resource : Resource} (decoded : raw.decode = .ok resource) :
    resource.methods = raw.methods := by
  cases raw with
  | health | indices =>
      cases decoded
      rfl
  | index name | documents name | uploads name =>
      obtain ⟨_, -, told⟩ := Json.bind_ok decoded
      cases told
      rfl
  | document name filename | documentStatus name filename =>
      obtain ⟨_, -, rest⟩ := Json.bind_ok decoded
      obtain ⟨_, -, told⟩ := Json.bind_ok rest
      cases told
      rfl

theorem method_usual {resource : Resource} {method : Http.Method}
    (offered : method ∈ resource.methods) : method ≠ .head ∧ method ≠ .options := by
  constructor <;> rintro rfl <;> cases resource <;> simp [methods] at offered

def documentTarget (name filename : String) : String :=
  "/api/indices/" ++ encode name ++ "/documents/" ++ encode filename

theorem decodeParameter_encode (parameter text : String) :
    Http.decodeParameter parameter (encode text) = .ok text := by
  rw [Http.decodeParameter, Text.Percent.decode?, Text.Percent.decodeBytes_encode,
    Text.Utf8.decode?_encode]

theorem encode_ne_empty {text : String} (some : text ≠ "") : encode text ≠ "" := by
  intro blank
  have read := decodeParameter_encode "" text
  rw [blank] at read
  exact some (Except.ok.inj read).symm

theorem segments_documentTarget (name filename : String) :
    Http.segments (documentTarget name filename) =
      ["api", "indices", encode name, "documents", encode filename] := by
  let shown := ["api".toList, "indices".toList, (encode name).toList, "documents".toList,
    (encode filename).toList]
  have text : (documentTarget name filename).toList = Wire.pathText shown := by
    simp [documentTarget, Wire.pathText, shown]
  have encoded : ∀ segment ∈ shown, Wire.Encoded segment := by
    simp only [shown, List.forall_mem_cons]
    exact ⟨List.all_eq_true.mp rfl, List.all_eq_true.mp rfl, Text.Percent.encode_chars name,
      List.all_eq_true.mp rfl, Text.Percent.encode_chars filename, List.forall_mem_nil _⟩
  have path : Http.pathOf (documentTarget name filename) = Wire.pathText shown := by
    rw [Http.pathOf, text]
    refine Wire.takeWhile_all fun c member => ?_
    rcases Wire.pathText_chars encoded c member with rfl | char
    · rfl
    · have mark := Wire.ne_of_encoded char (show Text.Percent.isEncodedChar '?' = false from rfl)
      have hash := Wire.ne_of_encoded char (show Text.Percent.isEncodedChar '#' = false from rfl)
      simp [mark, hash]
  rw [Http.segments, path, Wire.splitAt_pathText (List.cons_ne_nil _ _) fun segment member =>
    (encoded segment member).no_slash]
  simp

theorem at_documentTarget (name : String) {filename : String} (some : filename ≠ "") :
    At (documentTarget name filename) (.document name filename) := by
  have named : (encode filename).isEmpty = false :=
    Bool.eq_false_iff.mpr fun blank => encode_ne_empty some (String.isEmpty_iff.mp blank)
  refine ⟨.document (encode name) (encode filename), ?_, ?_⟩
  · rw [segments_documentTarget, ofSegments?, named]
    rfl
  · rw [decode, decode.nameOf, decode.filenameOf, decodeParameter_encode, decodeParameter_encode]
    rfl

end Server.Resource

variable {circumstances : Circumstances}

theorem answer_run {α : Type} (action : Service.Action α) (render : α → Http.Response)
    (session : Session) :
    (IndexApi.answer action render).run circumstances session =
      (.ofAnswered render (action.outcome circumstances session).1,
        (action.outcome circumstances session).2) := by
  have ran : action.run.run circumstances session =
      ((action.outcome circumstances session).1, (action.outcome circumstances session).2) := rfl
  exact Service.Program.run_bind_of_eq ran

theorem handle_run (api : IndexApi) {request : Http.Request} {resource : Server.Resource}
    (asked : resource.At request.target) (offered : request.method ∈ resource.methods)
    (session : Session) :
    let served := (api.respond request resource request.method).run circumstances session
    (api.handle request).run circumstances session = (Http.allowOrigin served.1, served.2) := by
  intro served
  obtain ⟨raw, found, decoded⟩ := asked
  obtain ⟨noHead, noOptions⟩ := Server.Resource.method_usual offered
  rw [Server.Resource.methods_decode decoded] at offered
  simp only [IndexApi.handle, found, Option.map_some, decoded, Http.dispatch, noOptions, noHead,
    offered, false_and, ↓reduceIte]
  exact Service.Program.run_bind_of_eq rfl

end Corpora
