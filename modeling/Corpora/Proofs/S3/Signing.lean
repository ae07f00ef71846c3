import Corpora.Proofs.S3.Request

/-!
A signed request verifies. The headers that were signed arrive as they were signed, the
authorization is read as what went into it, and from both the same signature is made again.
-/

namespace Corpora.S3

open Wire (Authority isGap)
open Http (Header)

section Headers

theorem isGap_of_solid {c : Char} (solid : 0x20 < c.toNat) : isGap c = false := by
  simp only [isGap, Bool.or_eq_false_iff, beq_eq_false_iff_ne]
  constructor <;> rintro rfl <;> exact absurd solid (by decide)

theorem received_eq {name value : String}
    (front : ∀ c, value.toList.head? = some c → isGap c = false)
    (back : ∀ c, value.toList.getLast? = some c → isGap c = false) :
    Wire.received name value = ⟨name, value⟩ := by
  have kept : ∀ cs : List Char, (∀ c, cs.head? = some c → isGap c = false) →
      cs.dropWhile isGap = cs := by
    intro cs first
    cases cs with
    | nil => rfl
    | cons c cs => rw [List.dropWhile_cons, if_neg (by simp [first c rfl])]
  have left := kept value.toList front
  have right := kept value.toList.reverse fun c last => back c (by rwa [List.head?_reverse] at last)
  rw [Wire.received, left, right, List.reverse_reverse, String.ofList_toList]

theorem received_solid {name value : String} (solid : ∀ c ∈ value.toList, 0x20 < c.toNat) :
    Wire.received name value = ⟨name, value⟩ :=
  received_eq (fun c first => isGap_of_solid (solid c (List.mem_of_mem_head? first)))
    (fun c last => isGap_of_solid (solid c (List.mem_of_mem_getLast? last)))

end Headers

section Stamp

open Text (isDigit)

theorem yearText_chars (year : Int) :
    ∀ c ∈ Time.yearText year, isDigit c = true ∨ c = '-' ∨ c = '+' := by
  intro c member
  rw [Time.yearText] at member
  split at member
  · exact Or.inl (Number.padded_all _ _ c member)
  · rcases List.mem_cons.mp member with sign | digits
    · split at sign
      · exact Or.inr (Or.inl sign)
      · exact Or.inr (Or.inr sign)
    · rcases List.mem_append.mp digits with zeros | number
      · obtain rfl := List.eq_of_mem_replicate zeros
        exact Or.inl (by decide)
      · exact Or.inl (Number.digits_all _ c number)

theorem compactDate_chars (now : Time.Instant) :
    ∀ c ∈ now.compactDate.toList, isDigit c = true ∨ c = '-' ∨ c = '+' := by
  intro c member
  rw [Time.Instant.compactDate, String.toList_ofList, List.mem_append, List.mem_append] at member
  rcases member with (year | month) | day
  · exact yearText_chars _ c year
  · exact Or.inl (Number.padded_all _ _ c month)
  · exact Or.inl (Number.padded_all _ _ c day)

theorem not_mem_compactDate (now : Time.Instant) {c : Char} (noDigit : isDigit c = false)
    (noSign : c ≠ '-' ∧ c ≠ '+') : c ∉ now.compactDate.toList := by
  intro member
  rcases compactDate_chars now c member with digit | minus | plus
  · exact absurd digit (noDigit ▸ Bool.false_ne_true)
  · exact noSign.1 minus
  · exact noSign.2 plus

theorem dayOf_compactText (now : Time.Instant) :
    Verifier.dayOf now.compactText = now.compactDate := by
  have run : now.compactText.toList.takeWhile (· != 'T') = now.compactDate.toList := by
    rw [Time.Instant.compactText, String.toList_ofList]
    simp only [List.cons_append, List.append_assoc]
    refine Wire.takeWhile_run (fun c member => bne_iff_ne.mpr ?_) ?_
    · rintro rfl
      exact not_mem_compactDate now (by decide) (by decide) member
    · rintro c ⟨⟩
      rfl
  rw [Verifier.dayOf, run, String.ofList_toList]

theorem digit_solid {c : Char} (digit : isDigit c = true) : 0x20 < c.toNat := by
  have host := Wire.isHostChar_of_isDigit digit
  exact (Wire.isAuthorityChar_parts (Wire.isAuthorityChar_of_host host.1 host.2)).1

theorem compactText_solid (now : Time.Instant) : ∀ c ∈ now.compactText.toList, 0x20 < c.toNat := by
  intro c member
  rw [Time.Instant.compactText, String.toList_ofList] at member
  simp only [List.cons_append, List.append_assoc, List.mem_append, List.mem_cons,
    List.not_mem_nil, or_false] at member
  rcases member with date | rfl | hour | minute | second | rfl
  · rcases compactDate_chars now c date with digit | rfl | rfl
    · exact digit_solid digit
    · decide
    · decide
  · decide
  · exact digit_solid (Number.padded_all _ _ c hour)
  · exact digit_solid (Number.padded_all _ _ c minute)
  · exact digit_solid (Number.padded_all _ _ c second)
  · decide

end Stamp

section Hexadecimal

theorem hex_chars (bytes : Bytes) :
    ∀ c ∈ (Text.hex bytes).toList, Wire.isAuthorityChar c = true ∧ c ≠ '=' := by
  have digit : ∀ n < 16, Wire.isAuthorityChar (Text.hexDigit n) = true ∧ Text.hexDigit n ≠ '=' := by
    decide
  intro c member
  rw [Text.hex, String.toList_ofList, List.mem_flatMap] at member
  obtain ⟨b, _, inside⟩ := member
  have small := b.toNat_lt
  simp only [Text.hexByte, List.mem_cons, List.not_mem_nil, or_false] at inside
  rcases inside with rfl | rfl
  · exact digit _ (by omega)
  · exact digit _ (by omega)

theorem hex_solid (bytes : Bytes) : ∀ c ∈ (Text.hex bytes).toList, 0x20 < c.toNat :=
  fun c member => (Wire.isAuthorityChar_parts (hex_chars bytes c member).1).1

end Hexadecimal

section Authorization

open Signature (authorization signature scope)

variable (credentials : Credentials) (now : Time.Instant) (region : String)
  (signed : Signature.Signed)

def placeText (region : String) : List Char := region.toList ++ "/s3/aws4_request".toList

def scopeText (now : Time.Instant) (region : String) : List Char :=
  now.compactDate.toList ++ ("/".toList ++ placeText region)

theorem authorization_toList : (authorization credentials now region signed).toList =
    ("AWS4-HMAC-SHA256 Credential=" ++ credentials.accessKey ++ "/").toList ++
      (scopeText now region ++ ", SignedHeaders=".toList ++ signed.headerNames.toList ++
        ", Signature=".toList ++ (signature credentials.secretKey now region signed).toList) := by
  simp [authorization, Signature.algorithm, scope, Signature.service, Signature.scopeEnd,
    scopeText, placeText]

theorem scope_parts : Text.splitFirst? "/".toList (scopeText now region) =
      some (now.compactDate.toList, placeText region) ∧
    Text.stripStart? "/s3/aws4_request".toList.reverse (placeText region).reverse =
      some region.toList.reverse := by
  constructor
  · exact Text.splitFirst?_here (not_mem_compactDate now (by decide) (by decide))
  · rw [Text.stripStart?_eq_some, placeText, List.reverse_append]

-- Region and access key may hold any character, marks and slashes too. What follows them cannot,
-- so an authorization is cut at its last marks.
theorem splitLast?_mark (mark : String) (ends : mark.toList.getLast? = some '=') (front : List Char)
    {behind : List Char} (absent : '=' ∉ behind) :
    Text.splitLast? mark.toList (front ++ mark.toList ++ behind) = some (front, behind) := by
  obtain ⟨opening, shape⟩ := List.getLast?_eq_some_iff.mp ends
  rw [shape]
  exact Text.splitLast?_here absent

section Names

variable {signed : Signature.Signed} (some : signed.headers ≠ [])
  (names : ∀ header ∈ signed.headers, ∀ c ∈ header.name.toList, c ≠ ';' ∧ c ≠ '=')

theorem headerNames_toList : signed.headerNames.toList =
    [';'].intercalate (signed.headers.map fun header => header.name.toList) := by
  rw [Signature.Signed.headerNames, String.toList_intercalate, List.map_map]
  rfl

include names

theorem headerNames_noEquals : '=' ∉ signed.headerNames.toList := by
  intro member
  rw [headerNames_toList] at member
  rcases Wire.mem_intercalate member with same | ⟨piece, among, inside⟩
  · exact absurd same (by decide)
  · obtain ⟨header, known, rfl⟩ := List.mem_map.mp among
    exact (names header known '=' inside).2 rfl

include some

theorem headerNames_pieces : (Text.splitAt ';' signed.headerNames.toList).map String.ofList =
    signed.headers.map Header.name := by
  have filled : signed.headers.map (fun header => header.name.toList) ≠ [] := by
    rwa [Ne, List.map_eq_nil_iff]
  have free : ∀ piece ∈ signed.headers.map (fun header => header.name.toList), ';' ∉ piece := by
    intro piece among semicolon
    obtain ⟨header, known, rfl⟩ := List.mem_map.mp among
    exact (names header known ';' semicolon).1 rfl
  rw [headerNames_toList, Text.splitAt_intercalate filled free, List.map_map]
  exact List.map_congr_left fun header _ => String.ofList_toList

theorem claims?_authorization :
    Verifier.claims? credentials.accessKey (authorization credentials now region signed) =
      Option.some ⟨now.compactDate, region, signed.headers.map Header.name,
        signature credentials.secretKey now region signed⟩ := by
  have credential := Text.stripStart?_eq_some.mpr
    (authorization_toList credentials now region signed)
  have noEquals : '=' ∉ (signature credentials.secretKey now region signed).toList :=
    fun member => (hex_chars _ '=' member).2 rfl
  have last := splitLast?_mark ", Signature=" (by decide)
    (scopeText now region ++ ", SignedHeaders=".toList ++ signed.headerNames.toList) noEquals
  have before := splitLast?_mark ", SignedHeaders=" (by decide) (scopeText now region)
    (headerNames_noEquals names)
  obtain ⟨date, place⟩ := scope_parts now region
  rw [Verifier.claims?, credential]
  simp only [Option.bind_eq_bind, Option.bind_some, last, before, date, place,
    List.reverse_reverse, String.ofList_toList, headerNames_pieces some names]
  rfl

end Names

end Authorization

section Signed

variable (client : Client) (now : Time.Instant) (call : Call)

theorem insertHeader_last {header : Header} {sorted : List Header}
    (above : ∀ earlier ∈ sorted, ¬ header.name < earlier.name) :
    Signature.insertHeader header sorted = sorted ++ [header] := by
  induction sorted with
  | nil => rfl
  | cons first rest ih =>
      rw [Signature.insertHeader, if_neg (above first List.mem_cons_self),
        ih fun earlier member => above earlier (List.mem_cons_of_mem _ member), List.cons_append]

theorem foldl_insertHeader {headers sorted : List Header}
    (ordered : (sorted ++ headers).Pairwise fun earlier later => ¬ later.name < earlier.name) :
    headers.foldl (fun sorted header => Signature.insertHeader header sorted) sorted =
      sorted ++ headers := by
  induction headers generalizing sorted with
  | nil => rw [List.foldl_nil, List.append_nil]
  | cons header headers ih =>
      have above : ∀ earlier ∈ sorted, ¬ header.name < earlier.name := fun earlier member =>
        (List.pairwise_append.mp ordered).2.2 earlier member header List.mem_cons_self
      have shape : sorted ++ header :: headers = sorted ++ [header] ++ headers := by simp
      rw [List.foldl_cons, insertHeader_last above, shape, ih (shape ▸ ordered)]

def signedNames (client : Client) : List String :=
  ["host", "x-amz-content-sha256", "x-amz-date"] ++ client.tokenHeader.map Header.name

theorem signedNames_cases (client : Client) :
    signedNames client = ["host", "x-amz-content-sha256", "x-amz-date"] ∨
      signedNames client =
        ["host", "x-amz-content-sha256", "x-amz-date", "x-amz-security-token"] := by
  rw [signedNames, Client.tokenHeader]
  cases client.credentials.sessionToken with
  | none => exact Or.inl rfl
  | some token => exact Or.inr rfl

theorem signedNames_ordered (client : Client) : (signedNames client).Pairwise (· < ·) := by
  rcases signedNames_cases client with names | names <;> rw [names] <;> decide

theorem signed_headers :
    (client.signed now call).headers =
      [⟨"host", client.endpoint.host⟩, ⟨"x-amz-content-sha256", Sha256.hexDigest call.body⟩,
        ⟨"x-amz-date", now.compactText⟩] ++ client.tokenHeader := by
  -- No name comes before an earlier one, so inserting them leaves each where it stood.
  have ordered : (([⟨"host", client.endpoint.host⟩,
      ⟨"x-amz-content-sha256", Sha256.hexDigest call.body⟩, ⟨"x-amz-date", now.compactText⟩] :
        List Header) ++ client.tokenHeader).Pairwise
          fun earlier later => ¬ later.name < earlier.name := by
    refine List.pairwise_map.mp (?_ : List.Pairwise (fun earlier later => ¬ later < earlier) _)
    rw [List.map_append]
    exact (signedNames_ordered client).imp fun less => String.lt_asymm less
  exact @foldl_insertHeader _ [] ordered

theorem signed_names : (client.signed now call).headers.map Header.name = signedNames client := by
  rw [signed_headers, List.map_append]
  rfl

theorem received_authorization (credentials : Credentials) (region : String)
    (signed : Signature.Signed) :
    Wire.received "authorization" (Signature.authorization credentials now region signed) =
      ⟨"authorization", Signature.authorization credentials now region signed⟩ := by
  have shape := authorization_toList credentials now region signed
  apply received_eq
  · intro c first
    rw [shape] at first
    simp at first
    subst first
    rfl
  · intro c last
    have mark : ", Signature=".toList = ", Signature".toList ++ ['='] := by simp
    rw [shape, mark, List.append_assoc _ (", Signature".toList ++ ['=']),
      List.append_assoc ", Signature".toList, List.singleton_append, List.getLast?_append,
      List.getLast?_append, List.getLast?_append, List.getLast?_cons, Option.some_or,
      Option.some_or, Option.some_or, ← List.getLast?_cons] at last
    rcases List.mem_cons.mp (List.mem_of_mem_getLast? last) with rfl | inside
    · rfl
    · exact isGap_of_solid (hex_solid _ c inside)

end Signed

/-- A token of visible characters of ASCII, or none. -/
def Credentials.VisibleToken (credentials : Credentials) : Prop :=
  ∀ token, credentials.sessionToken = some token →
    ∀ c ∈ token.toList, 0x20 < c.toNat ∧ c.toNat < 0x7F

section Acceptance

variable {scheme : String} {authority : Authority scheme} {client : Client}
  (visible : client.credentials.VisibleToken) (now : Time.Instant) (call : Call)

def kindHeader (contentType : Option String) : List Header :=
  match contentType with
  | some kind => [Wire.received "content-type" kind]
  | none => []

include visible

theorem arrived_headers (authority : Authority scheme) :
    (client.arrived now call authority).headers =
      [⟨"host", String.ofList authority.text⟩,
        ⟨"authorization", Signature.authorization client.credentials now client.region
          (client.signed now call)⟩,
        ⟨"x-amz-content-sha256", Sha256.hexDigest call.body⟩, ⟨"x-amz-date", now.compactText⟩] ++
        client.tokenHeader ++ kindHeader call.contentType := by
  have token : client.tokenHeader.map (fun header => Wire.received header.name header.value) =
      client.tokenHeader := by
    rw [Client.tokenHeader]
    cases kept : client.credentials.sessionToken with
    | none => rfl
    | some token =>
        exact congrArg (· :: []) (received_solid fun c member => (visible token kept c member).1)
  rw [Client.arrived, Client.headers]
  simp only [List.map_append, List.map_cons, List.map_nil, token, received_authorization,
    received_solid (hex_solid _), received_solid (compactText_solid now), Sha256.hexDigest]
  cases call.contentType with
  | none => rfl
  | some kind => rfl

theorem received?_arrived (authority : Authority scheme) :
    let sent := client.arrived now call authority
    Verifier.received? sent "host" = some (String.ofList authority.text) ∧
      Verifier.received? sent "authorization" = some (Signature.authorization client.credentials now
        client.region (client.signed now call)) ∧
      Verifier.received? sent "x-amz-content-sha256" = some (Sha256.hexDigest call.body) ∧
      Verifier.received? sent "x-amz-date" = some now.compactText ∧
      Verifier.received? sent "x-amz-security-token" = client.credentials.sessionToken := by
  have arrived := arrived_headers visible now call authority
  simp only [Verifier.received?, arrived]
  rw [Client.tokenHeader]
  cases client.credentials.sessionToken <;> cases call.contentType <;>
    simp +decide [kindHeader, Wire.received]

omit visible

theorem signed_names_free : ∀ header ∈ (client.signed now call).headers,
    ∀ c ∈ header.name.toList, c ≠ ';' ∧ c ≠ '=' := by
  have all : (signedNames client).all (fun name =>
      name.toList.all fun c => c != ';' && c != '=') = true := by
    rcases signedNames_cases client with names | names <;> rw [names] <;> decide
  intro header member c inside
  have named : header.name ∈ signedNames client := by
    rw [← signed_names client now call]
    exact List.mem_map_of_mem member
  have apart := List.all_eq_true.mp (List.all_eq_true.mp all _ named) c inside
  simpa using apart

theorem scope_eq (now : Time.Instant) (region : String) :
    Signature.scope now region = now.compactDate ++ "/" ++ region ++ "/s3/aws4_request" := by
  apply String.toList_inj.mp
  simp [Signature.scope, Signature.service, Signature.scopeEnd]

theorem sign_eq_signature (secret region : String) (signed : Signature.Signed) :
    Verifier.sign secret now.compactDate region now.compactText signed.canonicalRequest =
      Signature.signature secret now region signed := by
  rw [Signature.signature, Signature.stringToSign, scope_eq]
  rfl

include visible

theorem lines_arrived (here : client.At scheme authority) :
    (signedNames client).mapM (fun name =>
      (Verifier.received? (client.arrived now call authority) name).map fun value =>
        name ++ ":" ++ value ++ "\n") =
      some ((client.signed now call).headers.map fun header =>
        header.name ++ ":" ++ header.value ++ "\n") := by
  obtain ⟨host, _, hash, date, token⟩ := received?_arrived visible now call authority
  rw [signed_headers, signedNames, here.endpoint, Client.tokenHeader]
  cases kept : client.credentials.sessionToken with
  | none => simp [List.mapM_cons, host, hash, date]
  | some held =>
      rw [kept] at token
      simp [List.mapM_cons, host, hash, date, token]

/-- What should have been signed is what was signed. -/
theorem canonicalRequest?_arrived (here : client.At scheme authority) (sound : call.Sound) :
    Verifier.canonicalRequest? (client.arrived now call authority) (signedNames client) =
      some (client.signed now call).canonicalRequest := by
  have query : Verifier.canonicalQuery (client.arrived now call authority).url.query =
      Signature.queryText call.query := canonicalQuery_queryText sound.ordered
  rw [Verifier.canonicalRequest?, lines_arrived visible now call here, query,
    Signature.Signed.canonicalRequest, Signature.Signed.headerNames, signed_names]
  rfl

/-- A request that arrives as it was put together verifies. -/
theorem arrived_accepted (here : client.At scheme authority) (sound : call.Sound) :
    Verifier.accepts client.credentials.accessKey client.credentials.secretKey
      (client.arrived now call authority) = true := by
  obtain ⟨host, authorization, hash, date, token⟩ := received?_arrived visible now call authority
  have some : (client.signed now call).headers ≠ [] := by
    rw [signed_headers]
    exact List.cons_ne_nil _ _
  have claims := claims?_authorization client.credentials now client.region some
    (signed_names_free now call)
  have ordered := decide_eq_true (signedNames_ordered client)
  have covered : (Verifier.required (client.arrived now call authority)).all
      (signedNames client).contains = true := by
    rw [Verifier.required, token, signedNames, Client.tokenHeader]
    cases client.credentials.sessionToken with
    | none => decide
    | some token => simp
  rw [Verifier.accepts, authorization, date, Option.bind_some, claims, signed_names]
  simp only [ordered, covered, hash, dayOf_compactText,
    canonicalRequest?_arrived visible now call here sound, Option.map_some, sign_eq_signature,
    Bool.true_and, Bool.and_true, beq_self_eq_true]
  exact beq_self_eq_true _

end Acceptance

end Corpora.S3
