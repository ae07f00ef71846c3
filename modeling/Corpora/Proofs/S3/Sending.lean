import Corpora.Proofs.S3.Signing

/-!
Which calls are sent. A client whose access key and region can stand in a header sends every call
whose content type can, and the request arrives as it was put together.
-/

namespace Corpora.S3

open Http (isHeaderValue)
open Wire (Authority)

section Values

def isHeaderChar (c : Char) : Bool :=
  (String.utf8EncodeChar c).all fun b => (b ≥ 0x20 || b == 0x09) && b != 0x7F

theorem isHeaderValue_eq (text : String) : isHeaderValue text = text.toList.all isHeaderChar := by
  rw [isHeaderValue, Text.Utf8.encode_eq_flatMap, List.all_flatMap]
  rfl

theorem isHeaderChar_ascii {c : Char} (above : 0x20 ≤ c.toNat) (below : c.toNat < 0x7F) :
    isHeaderChar c = true := by
  have byte : (UInt8.ofNat c.toNat).toNat = c.toNat := by
    rw [UInt8.toNat_ofNat']
    omega
  rw [isHeaderChar, Text.Utf8.encodeChar_ascii c (by omega)]
  simp only [List.all_cons, List.all_nil, Bool.and_true, Bool.and_eq_true, Bool.or_eq_true,
    decide_eq_true_eq, ge_iff_le, UInt8.le_iff_toNat_le, bne_iff_ne, ne_eq, byte]
  refine ⟨Or.inl above, fun same => ?_⟩
  rw [same] at byte
  have delete : (0x7F : UInt8).toNat = 127 := rfl
  omega

theorem all_isHeaderChar {cs : List Char} (chars : ∀ c ∈ cs, 0x20 ≤ c.toNat ∧ c.toNat < 0x7F) :
    cs.all isHeaderChar = true :=
  List.all_eq_true.mpr fun c member => isHeaderChar_ascii (chars c member).1 (chars c member).2

theorem isHeaderValue_visible {text : String}
    (visible : ∀ c ∈ text.toList, 0x20 < c.toNat ∧ c.toNat < 0x7F) : isHeaderValue text = true := by
  rw [isHeaderValue_eq]
  exact all_isHeaderChar fun c member => ⟨Nat.le_of_lt (visible c member).1, (visible c member).2⟩

end Values

section Fitting

variable {client : Client} (now : Time.Instant) (call : Call)

/-- Whether the texts that a client was given can stand in headers, with a content type. -/
def Client.sends (client : Client) (contentType : Option String) : Bool :=
  isHeaderValue client.credentials.accessKey && isHeaderValue client.region &&
    contentType.all isHeaderValue

theorem isHeaderChar_hex (bytes : Bytes) : (Text.hex bytes).toList.all isHeaderChar = true := by
  refine all_isHeaderChar fun c member => ?_
  have char := (hex_chars bytes c member).1
  simp only [Wire.isAuthorityChar, Bool.and_eq_true, decide_eq_true_eq] at char
  omega

theorem isHeaderChar_digit {c : Char} (digit : Text.isDigit c = true) : isHeaderChar c = true := by
  obtain ⟨n, small, rfl⟩ := Wire.digit_cases digit
  revert n
  decide

theorem isHeaderChar_date : now.compactDate.toList.all isHeaderChar = true := by
  refine List.all_eq_true.mpr fun c member => ?_
  rcases compactDate_chars now c member with digit | rfl | rfl
  · exact isHeaderChar_digit digit
  · decide
  · decide

theorem isHeaderChar_padded (width n : Nat) :
    (Number.padded width n).all isHeaderChar = true :=
  List.all_eq_true.mpr fun c member => isHeaderChar_digit (Number.padded_all width n c member)

theorem isHeaderValue_stamp : isHeaderValue now.compactText = true := by
  have marks : isHeaderChar 'T' = true ∧ isHeaderChar 'Z' = true := by decide
  rw [isHeaderValue_eq, Time.Instant.compactText, String.toList_ofList]
  simp only [List.all_append, List.all_cons, List.all_nil, isHeaderChar_date, isHeaderChar_padded,
    marks, Bool.and_true]

theorem isHeaderChar_names : (client.signed now call).headerNames.toList.all isHeaderChar = true := by
  rw [Signature.Signed.headerNames, signed_names]
  rcases signedNames_cases client with names | names <;> rw [names] <;> decide

theorem isHeaderValue_authorization :
    isHeaderValue (Signature.authorization client.credentials now client.region
      (client.signed now call)) =
        (isHeaderValue client.credentials.accessKey && isHeaderValue client.region) := by
  have front : "AWS4-HMAC-SHA256 Credential=".toList.all isHeaderChar = true := by decide
  have slash : "/".toList.all isHeaderChar = true := by decide
  have place : "/s3/aws4_request".toList.all isHeaderChar = true := by decide
  have names : ", SignedHeaders=".toList.all isHeaderChar = true := by decide
  have code : ", Signature=".toList.all isHeaderChar = true := by decide
  rw [isHeaderValue_eq, authorization_toList, scopeText, placeText, Signature.signature]
  simp only [String.toList_append, List.all_append, front, slash, place, names, code,
    isHeaderChar_date, isHeaderChar_names, isHeaderChar_hex, isHeaderValue_eq, Bool.true_and,
    Bool.and_true]

def Client.able (client : Client) : Bool :=
  client.sends none && client.credentials.sessionToken.all isHeaderValue

theorem headers_able :
    ((client.headers now call).all fun header => isHeaderValue header.value) =
      (client.able && call.contentType.all isHeaderValue) := by
  have hash : isHeaderValue (Sha256.hexDigest call.body) = true := by
    rw [isHeaderValue_eq]
    exact isHeaderChar_hex _
  have token : (client.tokenHeader.all fun header => isHeaderValue header.value) =
      client.credentials.sessionToken.all isHeaderValue := by
    rw [Client.tokenHeader]
    cases client.credentials.sessionToken with
    | none => rfl
    | some token => rw [List.all_cons, List.all_nil, Bool.and_true, Option.all_some]
  rw [Client.headers, Client.able, Client.sends]
  simp only [List.all_append, List.all_cons, List.all_nil, isHeaderValue_authorization, hash, token,
    isHeaderValue_stamp, Option.all_none, Bool.and_true]
  cases call.contentType with
  | none => rfl
  | some kind => rw [List.all_cons, List.all_nil, Bool.and_true, Option.all_some]

theorem headers_fit (visible : client.credentials.VisibleToken) :
    ((client.headers now call).all fun header => isHeaderValue header.value) =
      client.sends call.contentType := by
  have token : client.credentials.sessionToken.all isHeaderValue = true := by
    cases kept : client.credentials.sessionToken with
    | none => rfl
    | some token => exact isHeaderValue_visible (visible token kept)
  rw [headers_able, Client.able, token, Client.sends, Client.sends]
  simp only [Option.all_none, Bool.and_true]

/-- A call is sent if its texts can stand in headers, and it arrives as it was put together. -/
theorem request?_of_sound {scheme : String} {authority : Authority scheme}
    (here : client.At scheme authority) (visible : client.credentials.VisibleToken)
    {call : Call} (sound : call.Sound) : client.request? now call =
      if client.sends call.contentType then some (client.arrived now call authority) else none := by
  rw [request?_eq here sound now, headers_fit now call visible]

end Fitting

end Corpora.S3
