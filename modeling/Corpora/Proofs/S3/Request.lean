import Corpora.Proofs.Order.StableSort
import Corpora.Proofs.S3.Verifier
import Corpora.Proofs.Wire.Url
import Corpora.S3.Client

/-!
Requests as they arrive. The address of a call is read as it was put together, so the path and
the query arrive as they were signed, and the host arrives as the endpoint names it.
-/

namespace Corpora.S3

open Wire (Authority Plain pathText addressText queryPart isQueryChar)
open Text (splitAt)

def Address.segments : Address → List (List Char)
  | service => [[]]
  | bucket name => [name.toList]
  | object container key => container.toList :: splitAt '/' key.toList

/-- No segment of the path to an address is a dot or two. -/
def Address.Undotted (address : Address) : Prop :=
  ∀ segment ∈ address.segments, segment ≠ ['.'] ∧ segment ≠ ['.', '.']

section Endpoint

variable {scheme : String}

theorem ofUrl_authority (known : scheme = "http" ∨ scheme = "https")
    (authority : Authority scheme) (slashes : Nat) :
    Endpoint.ofUrl (scheme ++ "://" ++ String.ofList authority.text ++
      String.ofList (List.replicate slashes '/')) =
        .ok ⟨scheme, String.ofList authority.text⟩ := by
  have noColon : ':' ∉ scheme.toList := fun member =>
    absurd (Wire.scheme_chars known ':' member).2 (by decide)
  have parts : Text.splitFirst? "://".toList
      (scheme ++ "://" ++ String.ofList authority.text).toList =
        some (scheme.toList, authority.text) := by
    simp only [String.toList_append, String.toList_ofList, List.append_assoc]
    exact Text.splitFirst?_here noColon
  have filled : (String.ofList authority.text).isEmpty = false := by
    rw [Bool.eq_false_iff, Ne, String.isEmpty_iff]
    intro empty
    have none := congrArg String.toList empty
    rw [String.toList_ofList] at none
    exact authority.text_ne_nil none
  rw [Endpoint.ofUrl, Wire.withoutEndSlashes_authority]
  simp only [parts, String.ofList_toList, filled, Bool.false_eq_true, ↓reduceIte]

end Endpoint

section Path

theorem encodeChars_eq (cs : List Char) :
    encodeChars cs = (Text.Percent.encode (String.ofList cs)).toList := rfl

theorem Address.path_eq (address : Address) :
    address.path = String.ofList (pathText (address.segments.map encodeChars)) := by
  apply String.toList_inj.mp
  cases address with
  | service => rfl
  | bucket name => simp [Address.path, Address.segments, pathText, encodeChars]
  | object container key =>
      obtain ⟨piece, pieces, split⟩ := @Text.splitAt_cons '/' key.toList
      simp [Address.path, Address.segments, pathText, encodeChars_eq, split,
        List.intercalate_cons_cons]

theorem eq_dots_of_shown {segment : List Char} {shown : String} (count : Nat)
    (dots : Text.Percent.decodeBytes (Text.Percent.asciiBytes shown.toList) =
      List.replicate count 0x2E)
    (looks : Text.lower (String.ofList (encodeChars segment)) = shown) :
    segment = List.replicate count '.' := by
  have letters := congrArg String.toList looks
  rw [Text.lower, String.toList_ofList, String.toList_ofList] at letters
  exact String.ofList_inj.mp (Text.Percent.eq_dots_of_lower letters dots)

theorem plain_encodeChars {segment : List Char} (undotted : segment ≠ ['.'] ∧ segment ≠ ['.', '.']) :
    Plain (encodeChars segment) where
  encoded := Text.Percent.encode_chars _
  noDot := by
    rw [Wire.Url.isSingleDot, List.contains_eq_mem, decide_eq_false_iff_not]
    intro looks
    simp only [Wire.Url.dots, List.mem_cons, List.not_mem_nil, or_false] at looks
    rcases looks with looks | looks <;> exact undotted.1 (eq_dots_of_shown 1 (by decide) looks)
  noDots := by
    rw [Wire.Url.isDoubleDot, List.contains_eq_mem, decide_eq_false_iff_not]
    intro looks
    simp only [Wire.Url.dots, List.flatMap_cons, List.map_cons, List.map_nil, List.flatMap_nil,
      List.append_nil, List.cons_append, List.nil_append, List.mem_cons, List.not_mem_nil,
      or_false] at looks
    rcases looks with looks | looks | looks | looks <;>
      exact undotted.2 (eq_dots_of_shown 2 (by decide) looks)

theorem dotless_encodeChars_iff {segment : List Char} :
    Wire.Dotless (encodeChars segment) ↔ segment ≠ ['.'] ∧ segment ≠ ['.', '.'] := by
  constructor
  · intro dotless
    constructor <;> rintro rfl
    · exact absurd dotless.noDot (by decide)
    · exact absurd dotless.noDots (by decide)
  · exact fun undotted => (plain_encodeChars undotted).toDotless

theorem Address.segments_ne_nil (address : Address) : address.segments.map encodeChars ≠ [] := by
  cases address <;> simp [Address.segments]

theorem Address.encoded (address : Address) :
    ∀ segment ∈ address.segments.map encodeChars, Wire.Encoded segment := by
  intro segment member
  obtain ⟨original, _, rfl⟩ := List.mem_map.mp member
  exact Text.Percent.encode_chars _

/-- The path under which an address is asked for, once the dots are taken out. -/
def Address.sentPath (address : Address) : String :=
  String.ofList (pathText (Wire.Url.resolve [] (address.segments.map encodeChars)))

theorem Address.undotted_iff {address : Address} :
    address.Undotted ↔ ∀ segment ∈ address.segments.map encodeChars, Wire.Dotless segment := by
  rw [Address.Undotted, List.forall_mem_map]
  exact forall₂_congr fun _ _ => dotless_encodeChars_iff.symm

/-- A path is sent as it was signed if no dots are taken out of it. -/
theorem Address.sentPath_eq_iff {address : Address} :
    address.sentPath = address.path ↔ address.Undotted := by
  have some := address.segments_ne_nil
  have free := fun {segments : List (List Char)}
      (encoded : ∀ segment ∈ segments, Wire.Encoded segment) segment member =>
    (encoded segment member).no_slash
  rw [Address.undotted_iff, ← Wire.resolve_eq_self_iff, Address.sentPath, Address.path_eq,
    String.ofList_inj]
  constructor
  · intro same
    have pieces := congrArg (splitAt '/') same
    rw [Wire.splitAt_pathText (Wire.resolve_ne_nil [] some) (free (Wire.resolve_encoded
      address.encoded)), Wire.splitAt_pathText some (free address.encoded)] at pieces
    exact (List.cons.inj pieces).2
  · exact congrArg pathText

end Path

section Query

open Signature (sortPairs queryText)

def pairChars (pair : QueryPair) : List Char :=
  (Text.Percent.encode pair.name).toList ++ '=' :: (Text.Percent.encode pair.value).toList

theorem queryText_toList (pairs : List QueryPair) :
    (queryText pairs).toList = ['&'].intercalate ((sortPairs pairs).map pairChars) := by
  rw [queryText, String.toList_intercalate, List.map_map]
  congr 1
  refine List.map_congr_left fun pair _ => ?_
  simp [pairChars]

theorem pairChars_chars (pair : QueryPair) :
    ∀ c ∈ pairChars pair, c = '=' ∨ Text.Percent.isEncodedChar c = true := by
  intro c member
  simp only [pairChars, List.mem_append, List.mem_cons] at member
  rcases member with name | same | value
  · exact Or.inr (Text.Percent.encode_chars _ c name)
  · exact Or.inl same
  · exact Or.inr (Text.Percent.encode_chars _ c value)

theorem queryText_chars (pairs : List QueryPair) :
    ∀ c ∈ (queryText pairs).toList, isQueryChar c = true := by
  intro c member
  rw [queryText_toList] at member
  rcases Wire.mem_intercalate member with rfl | ⟨piece, among, inside⟩
  · decide
  · obtain ⟨pair, _, rfl⟩ := List.mem_map.mp among
    rcases pairChars_chars pair c inside with rfl | encoded
    · decide
    · rw [isQueryChar, encoded]
      rfl

theorem reencode_encode (text : String) :
    Verifier.reencode (Text.Percent.encode text).toList = Text.Percent.encode text := by
  rw [Verifier.reencode, String.ofList_toList, Text.Percent.decodeBytes_encode, Text.Percent.encode]

theorem pairChars_parts (pair : QueryPair) :
    (pairChars pair).takeWhile (· != '=') = (Text.Percent.encode pair.name).toList ∧
    ((pairChars pair).dropWhile (· != '=')).drop 1 = (Text.Percent.encode pair.value).toList := by
  have all : ∀ c ∈ (Text.Percent.encode pair.name).toList, (c != '=') = true := fun c member =>
    bne_iff_ne.mpr (Wire.ne_of_encoded (Text.Percent.encode_chars _ c member) (by decide))
  constructor
  · refine Wire.takeWhile_run all ?_
    rintro c ⟨⟩
    rfl
  · rw [pairChars, List.dropWhile_append_of_pos all]
    rfl

theorem parameter_pairChars (pair : QueryPair) : Verifier.parameter (pairChars pair) =
    (Text.Percent.encode pair.name, Text.Percent.encode pair.value) := by
  obtain ⟨name, value⟩ := pairChars_parts pair
  rw [Verifier.parameter, name, value, reencode_encode, reencode_encode]

theorem splitAt_queryText {pairs : List QueryPair} (some : sortPairs pairs ≠ []) :
    splitAt '&' (queryText pairs).toList = (sortPairs pairs).map pairChars := by
  have pieces : (sortPairs pairs).map pairChars ≠ [] := by rwa [Ne, List.map_eq_nil_iff]
  have free : ∀ piece ∈ (sortPairs pairs).map pairChars, '&' ∉ piece := by
    intro piece among ampersand
    obtain ⟨pair, _, rfl⟩ := List.mem_map.mp among
    rcases pairChars_chars pair '&' ampersand with equals | encoded
    · exact absurd equals (by decide)
    · exact absurd encoded (by decide)
  rw [queryText_toList, Text.splitAt_intercalate pieces free]

theorem queryText_ne_nil {pairs : List QueryPair} (some : sortPairs pairs ≠ []) :
    (queryText pairs).toList ≠ [] := by
  intro blank
  have whole := splitAt_queryText some
  rw [blank] at whole
  have among : [] ∈ (sortPairs pairs).map pairChars := whole ▸ List.mem_singleton_self []
  obtain ⟨pair, _, nothing⟩ := List.mem_map.mp among
  simp [pairChars] at nothing

/-- A query whose encoded names are in order is canonical as it arrives. -/
theorem canonicalQuery_queryText {pairs : List QueryPair}
    (ordered : (sortPairs pairs).Pairwise fun earlier later =>
      ¬ Text.Percent.encode later.name < Text.Percent.encode earlier.name) :
    Verifier.canonicalQuery (if (queryText pairs).toList.isEmpty then none
      else some (String.ofList (queryText pairs).toList)) = queryText pairs := by
  by_cases empty : sortPairs pairs = []
  · have text : queryText pairs = "" := by
      rw [queryText, empty]
      rfl
    rw [text]
    rfl
  -- Decoding and encoding again gives each parameter back, and in this order no sort moves any.
  · have filled := List.isEmpty_eq_false_iff.mpr (queryText_ne_nil empty)
    have parameters : (splitAt '&' (queryText pairs).toList).map Verifier.parameter =
        (sortPairs pairs).map fun pair =>
          (Text.Percent.encode pair.name, Text.Percent.encode pair.value) := by
      rw [splitAt_queryText empty, List.map_map]
      exact List.map_congr_left fun pair _ => parameter_pairChars pair
    have kept : stableSort (fun a b : String × String => decide (a.1 < b.1))
        ((sortPairs pairs).map fun pair =>
          (Text.Percent.encode pair.name, Text.Percent.encode pair.value)) =
        (sortPairs pairs).map fun pair =>
          (Text.Percent.encode pair.name, Text.Percent.encode pair.value) := by
      apply stableSort_of_ascending
      rw [List.pairwise_map]
      exact ordered.imp fun apart => decide_eq_false apart
    rw [filled, if_neg Bool.false_ne_true, Verifier.canonicalQuery]
    simp only [String.toList_ofList, parameters, kept, List.map_map]
    rfl

end Query

section Sorting

open Signature (insertPair sortPairs)

def NamesAscend (pairs : List QueryPair) : Prop :=
  pairs.Pairwise fun earlier later => ¬ later.name < earlier.name

theorem mem_insertPair {pair other : QueryPair} {sorted : List QueryPair}
    (member : other ∈ insertPair pair sorted) : other = pair ∨ other ∈ sorted := by
  induction sorted with
  | nil => exact Or.inl (List.mem_singleton.mp member)
  | cons first rest ih =>
      rw [insertPair] at member
      split at member
      · exact List.mem_cons.mp member
      · rcases List.mem_cons.mp member with rfl | later
        · exact Or.inr List.mem_cons_self
        · exact (ih later).imp_right (List.mem_cons_of_mem _)

theorem insertPair_ascend {pair : QueryPair} {sorted : List QueryPair}
    (ascend : NamesAscend sorted) : NamesAscend (insertPair pair sorted) := by
  induction sorted with
  | nil => exact List.pairwise_singleton _ _
  | cons first rest ih =>
      obtain ⟨above, others⟩ := List.pairwise_cons.mp ascend
      by_cases less : (decide (pair.name < first.name) ||
          (pair.name == first.name && decide (pair.value < first.value))) = true
      · have below : ¬ first.name < pair.name := by
          rw [Bool.or_eq_true, Bool.and_eq_true, decide_eq_true_eq, beq_iff_eq] at less
          rcases less with before | ⟨same, _⟩
          · exact String.lt_asymm before
          · exact same ▸ String.lt_irrefl _
        rw [insertPair, if_pos less]
        refine List.pairwise_cons.mpr ⟨fun later member => ?_, ascend⟩
        rcases List.mem_cons.mp member with rfl | behind
        · exact below
        · exact String.le_trans below (above later behind)
      · have notBelow : ¬ pair.name < first.name := by
          rw [Bool.or_eq_true, not_or, decide_eq_true_eq] at less
          exact less.1
        rw [insertPair, if_neg less]
        refine List.pairwise_cons.mpr ⟨fun later member => ?_, ih others⟩
        rcases mem_insertPair member with rfl | old
        · exact notBelow
        · exact above later old

theorem foldl_insertPair {pairs sorted : List QueryPair} (ascend : NamesAscend sorted) :
    NamesAscend (pairs.foldl (fun sorted pair => insertPair pair sorted) sorted) ∧
      ∀ pair ∈ pairs.foldl (fun sorted pair => insertPair pair sorted) sorted,
        pair ∈ pairs ∨ pair ∈ sorted := by
  induction pairs generalizing sorted with
  | nil => exact ⟨ascend, fun pair member => Or.inr member⟩
  | cons first pairs ih =>
      obtain ⟨ordered, known⟩ := ih (@insertPair_ascend first _ ascend)
      refine ⟨ordered, fun pair member => ?_⟩
      rcases known pair member with later | placed
      · exact Or.inl (List.mem_cons_of_mem _ later)
      · rcases mem_insertPair placed with rfl | old
        · exact Or.inl List.mem_cons_self
        · exact Or.inr old

end Sorting

section Arrival

open Signature (sortPairs queryText)

/-- A call that arrives as it was meant: its path keeps all its segments, and the encoded names of
its query are in the order in which they are signed. -/
structure Call.Sound (call : Call) : Prop where
  undotted : call.address.Undotted
  ordered : (sortPairs call.query).Pairwise fun earlier later =>
    ¬ Text.Percent.encode later.name < Text.Percent.encode earlier.name

theorem Call.sound_of_plain {call : Call} (undotted : call.address.Undotted)
    (plain : ∀ pair ∈ call.query, Text.Percent.encode pair.name = pair.name) : call.Sound where
  undotted := undotted
  ordered := by
    obtain ⟨ascend, known⟩ := @foldl_insertPair call.query [] List.Pairwise.nil
    have same : ∀ pair ∈ sortPairs call.query, Text.Percent.encode pair.name = pair.name :=
      fun pair member => plain pair ((known pair member).resolve_right List.not_mem_nil)
    refine List.Pairwise.imp_of_mem (fun {earlier later} first second above => ?_) ascend
    rwa [same earlier first, same later second]

structure Client.At (client : Client) (scheme : String) (authority : Authority scheme) : Prop where
  known : scheme = "http" ∨ scheme = "https"
  endpoint : client.endpoint = ⟨scheme, String.ofList authority.text⟩

variable {scheme : String} {authority : Authority scheme} {client : Client} {call : Call}

theorem urlText_eq (here : client.At scheme authority) : client.urlText call =
    String.ofList (addressText authority (call.address.segments.map encodeChars)
      (queryText call.query).toList) := by
  apply String.toList_inj.mp
  rw [Client.urlText, here.endpoint, Address.path_eq]
  have blank : (queryText call.query).isEmpty = (queryText call.query).toList.isEmpty := by
    rw [Bool.eq_iff_iff, String.isEmpty_iff, List.isEmpty_iff, String.toList_eq_nil_iff]
  simp only [addressText, queryPart, blank, String.toList_append, String.toList_ofList]
  split <;> simp

theorem authority_arrives (authority : Authority scheme) (path : String) (query : Option String) :
    (⟨scheme, String.ofList authority.host.text, authority.port, path, query⟩ :
      Wire.Url).authority = String.ofList authority.text := by
  rw [Wire.Url.authority, Authority.text]
  cases authority.port with
  | none => simp [Wire.portText]
  | some number =>
      apply String.toList_inj.mp
      simp [Wire.portText, Number.ofNat]

def Client.arrived (client : Client) (now : Time.Instant) (call : Call)
    (authority : Authority scheme) : Wire.Sent where
  method := call.method
  url := ⟨scheme, String.ofList authority.host.text, authority.port, call.address.path,
    if (queryText call.query).toList.isEmpty then none
    else some (String.ofList (queryText call.query).toList)⟩
  headers := ⟨"host", String.ofList authority.text⟩ ::
    (client.headers now call).map fun header => Wire.received header.name header.value
  body := call.body

/-- What is sent of a call: the path has lost its dots since it was signed. -/
def Client.departed (client : Client) (now : Time.Instant) (call : Call)
    (authority : Authority scheme) : Wire.Sent :=
  { client.arrived now call authority with
    url := { (client.arrived now call authority).url with path := call.address.sentPath } }

theorem request?_departed (here : client.At scheme authority) (now : Time.Instant) :
    client.request? now call =
      if (client.headers now call).all fun header => Http.isHeaderValue header.value then
        some (client.departed now call authority)
      else none := by
  have read := Wire.parse?_resolved here.known authority call.address.segments_ne_nil
    call.address.encoded (queryText_chars call.query)
  rw [← urlText_eq here] at read
  rw [Client.request?, Wire.request?, read]
  simp only [Option.bind_eq_bind, Option.bind_some, authority_arrives]
  rfl

/-- A request is sent if its headers can be, and it arrives as it was put together. -/
theorem request?_eq (here : client.At scheme authority) (sound : call.Sound) (now : Time.Instant) :
    client.request? now call =
      if (client.headers now call).all fun header => Http.isHeaderValue header.value then
        some (client.arrived now call authority)
      else none := by
  have same : client.departed now call authority = client.arrived now call authority := by
    rw [Client.departed, Address.sentPath_eq_iff.mpr sound.undotted]
    rfl
  rw [request?_departed here now, same]

end Arrival

end Corpora.S3
