import Corpora.Proofs.Embedding.Response
import Corpora.Proofs.Embedding.Retry
import Corpora.Proofs.Json.Invariant

/-!
How many vectors come back. The answer that decides is read for itself, and the texts are not
counted against it: there is a vector for each item that the provider lists, and so one for each
text exactly if the provider lists as many items as it was given texts.
-/

namespace Corpora.Embedding

open Wire (Conversation Outcome Reply)

def Gives (outcome : Outcome) (value : Json) : Prop :=
  ∃ reply, outcome = .answered reply ∧ reply.isSuccess = true ∧
    Json.parse? reply.body = some value

theorem conclusive_of_success {reply : Reply} (success : reply.isSuccess = true) :
    Conclusive (.answered reply) := by
  simp only [Reply.isSuccess, Bool.and_eq_true, decide_eq_true_eq] at success
  exact ⟨by omega, by omega⟩

namespace Target

theorem outcomeAt_of_made {target : Target} {body : Json}
    (made : (target.request? body).isSome = true) (script : List Outcome) (i : Nat) :
    target.outcomeAt body script i = script[i]?.getD .dropped := by
  obtain ⟨request, made⟩ := Option.isSome_iff_exists.mp made
  rw [outcomeAt, made]

variable {target : Target} {body value : Json} {retries : Nat}

theorem conclude_ok_iff {outcome : Outcome} :
    target.conclude outcome = .ok value ↔ Gives outcome value := by
  cases outcome with
  | dropped => simp [conclude, judge, Gives]
  | answered reply =>
      by_cases conclusive : Conclusive (.answered reply)
      · obtain ⟨_, same, told⟩ := @conclude_conclusive target _ conclusive
        cases same
        simp [told, Gives]
      · have failed : reply.isSuccess ≠ true := mt conclusive_of_success conclusive
        simp [conclude_passing conclusive, Gives, failed]

/-- The outcome at a place ends the attempts with a value. -/
structure Decides (target : Target) (body : Json) (retries : Nat) (before : Conversation)
    (place : Nat) (value : Json) : Prop where
  within : place ≤ retries
  earlier : ∀ i < place, ¬ Conclusive (target.outcomeAt body before.script i)
  there : Gives (target.outcomeAt body before.script place) value

theorem Decides.at_once {before : Conversation}
    (gives : Gives (target.outcomeAt body before.script 0) value) :
    target.Decides body retries before 0 value :=
  ⟨Nat.zero_le _, fun i early => absurd early (Nat.not_lt_zero i), gives⟩

theorem Decides.later {before : Conversation} {place : Nat}
    (passing : ¬ Conclusive (target.outcomeAt body before.script 0))
    (decides : target.Decides body retries (target.attempted body 1 before) place value) :
    target.Decides body (retries + 1) before (place + 1) value where
  within := Nat.succ_le_succ decides.within
  earlier := by
    intro i early
    cases i with
    | zero => exact passing
    | succ i =>
        rw [← outcomeAt_attempted]
        exact decides.earlier i (Nat.lt_of_succ_lt_succ early)
  there := by
    rw [← outcomeAt_attempted]
    exact decides.there

theorem exists_decides {before : Conversation}
    (posted : (target.post body retries before).1 = .ok value) :
    ∃ place, target.Decides body retries before place value := by
  induction retries generalizing before with
  | zero =>
      rw [post_last] at posted
      exact ⟨0, .at_once (conclude_ok_iff.mp posted)⟩
  | succ retries ih =>
      by_cases conclusive : Conclusive (target.outcomeAt body before.script 0)
      · rw [post_conclusive conclusive] at posted
        exact ⟨0, .at_once (conclude_ok_iff.mp posted)⟩
      · rw [post_passing conclusive] at posted
        obtain ⟨place, decides⟩ := ih posted
        exact ⟨place + 1, decides.later conclusive⟩

theorem post_ok_iff {before : Conversation} :
    (target.post body retries before).1 = .ok value ↔
      ∃ place, target.Decides body retries before place value := by
  constructor
  · exact exists_decides
  · rintro ⟨place, decides⟩
    obtain ⟨reply, came, success, -⟩ := decides.there
    have conclusive : Conclusive (target.outcomeAt body before.script place) := by
      rw [came]
      exact conclusive_of_success success
    rw [post_eq (fun _ _ => rfl) decides.within decides.earlier (Or.inl conclusive)]
    exact conclude_ok_iff.mpr decides.there

end Target

/-- The answer that decides lists items, each of which holds a vector. -/
inductive Provider.Lists (retries : Nat) (texts : List String) (before : Conversation) :
    Provider → List Json → Prop
  | openai {model : Model} {apiKey : String} {place : Nat} {answer : Json} {items : List Json}
      (decides : (openaiTarget apiKey).Decides (question model texts) retries before place answer)
      (listed : answer.get? "data" = some (.array items))
      (numeric : ∀ item ∈ items, ∃ numbers, Embeds item numbers) :
      Lists retries texts before (.openai model apiKey) items
  | ollama {model : Model} {url : String} {place : Nat} {answer : Json} {items : List Json}
      (decides : (ollamaTarget url).Decides (question model texts) retries before place answer)
      (listed : answer.get? "embeddings" = some (.array items))
      (numeric : ∀ item ∈ items, ∃ numbers : List Numeral, item = .array (numbers.map .number)) :
      Lists retries texts before (.ollama model url) items

section Answers

variable {answer : Json} {items : List Json} {vectors : List Vector32} {count : Nat}

theorem bind_array?_eq_some_iff {member : Option Json} :
    member.bind Json.array? = some items ↔ member = some (.array items) := by
  cases member with
  | none => simp
  | some value => cases value <;> simp [Json.array?]

theorem ofOpenai_ok_iff :
    ofOpenai answer = .ok vectors ↔
      ∃ items, answer.get? "data" = some (.array items) ∧ placedVectors? items = some vectors := by
  simp only [← bind_array?_eq_some_iff, ofOpenai]
  cases (answer.get? "data").bind Json.array? with
  | none => simp [Attempt.fail]
  | some items =>
      simp only [Option.some.injEq, exists_eq_left']
      cases placedVectors? items <;> simp [Attempt.fail]

theorem ofOllama_ok_iff :
    ofOllama answer = .ok vectors ↔
      ∃ items, answer.get? "embeddings" = some (.array items) ∧
        items.mapM vector? = some vectors := by
  simp only [← bind_array?_eq_some_iff, ofOllama]
  cases (answer.get? "embeddings").bind Json.array? with
  | none => simp [Attempt.fail]
  | some items =>
      simp only [Option.some.injEq, exists_eq_left']
      cases items.mapM vector? <;> simp [Attempt.fail]

theorem listed_count {attempt : Attempt (List Vector32)} {member : Option Json}
    {read : List Json → Option (List Vector32)} {Holds : Json → List Numeral → Prop}
    (ok : ∀ vectors, attempt = .ok vectors ↔
      ∃ items, member = some (.array items) ∧ read items = some vectors)
    (refused : ∀ items, read items = none ↔ ∃ item ∈ items, ∀ numbers, ¬ Holds item numbers)
    (each : ∀ items vectors, read items = some vectors → vectors.length = items.length) :
    (∃ vectors, attempt = .ok vectors ∧ vectors.length = count) ↔
      ∃ items, member = some (.array items) ∧ (∀ item ∈ items, ∃ numbers, Holds item numbers) ∧
        items.length = count := by
  have all : ∀ items, (∀ item ∈ items, ∃ numbers, Holds item numbers) ↔ read items ≠ none := by
    intro items
    rw [ne_eq, refused]
    push Not
    rfl
  constructor
  · rintro ⟨vectors, told, rfl⟩
    obtain ⟨items, listed, found⟩ := (ok vectors).mp told
    refine ⟨items, listed, (all items).mpr ?_, (each items vectors found).symm⟩
    rw [found]
    exact Option.some_ne_none _
  · rintro ⟨items, listed, numeric, rfl⟩
    obtain ⟨vectors, found⟩ := Option.ne_none_iff_exists'.mp ((all items).mp numeric)
    exact ⟨vectors, (ok vectors).mpr ⟨items, listed, found⟩, each items vectors found⟩

theorem length_placedVectors? (read : placedVectors? items = some vectors) :
    vectors.length = items.length := by
  rw [placedVectors?_eq, Option.map_eq_some_iff] at read
  obtain ⟨placed, each, rfl⟩ := read
  rw [List.length_map, (stableSort_perm _ placed).length_eq, length_of_mapM each,
    List.length_zipIdx]

theorem openai_count :
    (∃ vectors, ofOpenai answer = .ok vectors ∧ vectors.length = count) ↔
      ∃ items, answer.get? "data" = some (.array items) ∧
        (∀ item ∈ items, ∃ numbers, Embeds item numbers) ∧ items.length = count :=
  listed_count (fun _ => ofOpenai_ok_iff) (fun _ => placedVectors?_eq_none_iff)
    (fun _ _ => length_placedVectors?)

theorem vectors_refused_iff :
    items.mapM vector? = none ↔
      ∃ item ∈ items, ∀ numbers : List Numeral, ¬ item = .array (numbers.map .number) := by
  rw [mapM_eq_none_iff]
  refine exists_congr fun item => and_congr_right fun _ => ?_
  rw [Option.eq_none_iff_forall_ne_some]
  constructor
  · rintro none numbers rfl
    exact none _ (vector?_numbers numbers)
  · intro never vector read
    obtain ⟨numbers, listed, -⟩ := vector?_eq_some_iff.mp read
    exact never numbers listed

theorem ollama_count :
    (∃ vectors, ofOllama answer = .ok vectors ∧ vectors.length = count) ↔
      ∃ items, answer.get? "embeddings" = some (.array items) ∧
        (∀ item ∈ items, ∃ numbers : List Numeral, item = .array (numbers.map .number)) ∧
        items.length = count :=
  listed_count (fun _ => ofOllama_ok_iff) (fun _ => vectors_refused_iff)
    (fun _ _ => length_of_mapM)

end Answers

theorem Target.post_bind_ok_iff {target : Target} {body : Json} {retries : Nat}
    {before : Conversation} {read : Json → Attempt (List Vector32)} {vectors : List Vector32} :
    (target.post body retries before).1.bind read = .ok vectors ↔
      ∃ place answer, target.Decides body retries before place answer ∧
        read answer = .ok vectors := by
  constructor
  · intro ended
    obtain ⟨answer, posted, told⟩ := Json.bind_ok ended
    obtain ⟨place, decides⟩ := post_ok_iff.mp posted
    exact ⟨place, answer, decides, told⟩
  · rintro ⟨place, answer, decides, told⟩
    rw [post_ok_iff.mpr ⟨place, decides⟩]
    exact told

theorem Provider.embed_count {provider : Provider} {retries : Nat} {texts : List String}
    {before : Conversation} {count : Nat} :
    (∃ vectors, (provider.embed retries texts before).1 = .ok vectors ∧ vectors.length = count) ↔
      ∃ items, Lists retries texts before provider items ∧ items.length = count := by
  cases provider with
  | disabled =>
      constructor
      · rintro ⟨_, embedded, -⟩
        cases embedded
      · rintro ⟨_, lists, -⟩
        cases lists
  | openai model apiKey =>
      constructor
      · rintro ⟨vectors, embedded, same⟩
        obtain ⟨place, answer, decides, read⟩ := Target.post_bind_ok_iff.mp embedded
        obtain ⟨items, listed, numeric, long⟩ := openai_count.mp ⟨vectors, read, same⟩
        exact ⟨items, .openai decides listed numeric, long⟩
      · rintro ⟨items, lists, long⟩
        cases lists with
        | openai decides listed numeric =>
            obtain ⟨vectors, read, same⟩ := openai_count.mpr ⟨items, listed, numeric, long⟩
            exact ⟨vectors, Target.post_bind_ok_iff.mpr ⟨_, _, decides, read⟩, same⟩
  | ollama model url =>
      constructor
      · rintro ⟨vectors, embedded, same⟩
        obtain ⟨place, answer, decides, read⟩ := Target.post_bind_ok_iff.mp embedded
        obtain ⟨items, listed, numeric, long⟩ := ollama_count.mp ⟨vectors, read, same⟩
        exact ⟨items, .ollama decides listed numeric, long⟩
      · rintro ⟨items, lists, long⟩
        cases lists with
        | ollama decides listed numeric =>
            obtain ⟨vectors, read, same⟩ := ollama_count.mpr ⟨items, listed, numeric, long⟩
            exact ⟨vectors, Target.post_bind_ok_iff.mpr ⟨_, _, decides, read⟩, same⟩

/-- As many vectors come back as the answer that decides lists items, for any texts at all. There is
one for each text exactly if every such answer lists as many items as there are texts. -/
theorem Provider.one_vector_each_iff (provider : Provider) (retries : Nat) (texts : List String)
    (before : Conversation) :
    (∀ count, (∃ vectors, (provider.embed retries texts before).1 = .ok vectors ∧
        vectors.length = count) ↔
      ∃ items, Lists retries texts before provider items ∧ items.length = count) ∧
    ((∀ vectors, (provider.embed retries texts before).1 = .ok vectors →
        vectors.length = texts.length) ↔
      ∀ items, Lists retries texts before provider items → items.length = texts.length) := by
  refine ⟨fun count => embed_count, ?_⟩
  constructor
  · intro each items lists
    obtain ⟨vectors, embedded, same⟩ := embed_count.mpr ⟨items, lists, rfl⟩
    rw [← same, each vectors embedded]
  · intro each vectors embedded
    obtain ⟨items, lists, same⟩ := embed_count.mp ⟨vectors, embedded, rfl⟩
    rw [← same, each items lists]

def localProvider : Provider := .ollama ⟨"m", 2⟩ "http://ollama:11434"

def remoteProvider : Provider := .openai ⟨"m", 2⟩ "key"

def answering (text : String) : Outcome := .answered ⟨200, none, Text.Utf8.encode text⟩

def ollamaPair : Outcome := answering "\x7b\"embeddings\":[[1,0],[0,1]]\x7d"

def ollamaSingle : Outcome := answering "\x7b\"embeddings\":[[1,0]]\x7d"

def openaiPair : Outcome :=
  answering "\x7b\"data\":[\x7b\"embedding\":[1,0]\x7d,\x7b\"embedding\":[0,1]\x7d]\x7d"

theorem two_vectors_for_two_texts :
    let before := Conversation.start [.dropped, ollamaPair]
    (∃ vectors, (localProvider.embed 1 ["a", "b"] before).1 = .ok vectors ∧ vectors.length = 2) ∧
    ∀ items, Provider.Lists 1 ["a", "b"] before localProvider items → items.length = 2 := by
  intro before
  obtain ⟨counts, each⟩ := localProvider.one_vector_each_iff 1 ["a", "b"] before
  have met : ∀ i, (Provider.ollamaTarget "http://ollama:11434").outcomeAt
      (question ⟨"m", 2⟩ ["a", "b"]) before.script i = before.script[i]?.getD .dropped :=
    Target.outcomeAt_of_made (by decide +kernel) _
  have lists : Provider.Lists 1 ["a", "b"] before localProvider
      [.array [.nat 1, .nat 0], .array [.nat 0, .nat 1]] := by
    refine .ollama ⟨Nat.le_refl _, ?_, _, met 1, rfl, rfl⟩ rfl ?_
    · intro i early
      rw [Nat.lt_one_iff.mp early, met]
      exact id
    · rw [List.forall_mem_cons, List.forall_mem_singleton]
      exact ⟨⟨[.whole 1, .whole 0], rfl⟩, ⟨[.whole 0, .whole 1], rfl⟩⟩
  have two := (counts 2).mpr ⟨_, lists, rfl⟩
  refine ⟨two, each.mp ?_⟩
  obtain ⟨vectors, embedded, long⟩ := two
  intro others same
  rw [embedded] at same
  cases same
  exact long

/-- A provider that answers two texts with one vector is taken at its word, and so is one that
answers one text with two. -/
theorem miscounted_texts :
    (∃ vectors, (localProvider.embed 0 ["a", "b"] (.start [ollamaSingle])).1 = .ok vectors ∧
      vectors.length ≠ ["a", "b"].length) ∧
    ∃ vectors, (remoteProvider.embed 0 ["a"] (.start [openaiPair])).1 = .ok vectors ∧
      vectors.length ≠ ["a"].length := by
  have met : ∀ script, (Provider.ollamaTarget "http://ollama:11434").outcomeAt
      (question ⟨"m", 2⟩ ["a", "b"]) script 0 = script[0]?.getD .dropped :=
    fun script => Target.outcomeAt_of_made (by decide +kernel) script 0
  have metRemote : ∀ script, (Provider.openaiTarget "key").outcomeAt
      (question ⟨"m", 2⟩ ["a"]) script 0 = script[0]?.getD .dropped :=
    fun script => Target.outcomeAt_of_made (by decide +kernel) script 0
  have single : Provider.Lists 0 ["a", "b"] (.start [ollamaSingle]) localProvider
      [.array [.nat 1, .nat 0]] := by
    refine .ollama (.at_once ⟨_, met _, rfl, rfl⟩) rfl ?_
    rw [List.forall_mem_singleton]
    exact ⟨[.whole 1, .whole 0], rfl⟩
  have pair : Provider.Lists 0 ["a"] (.start [openaiPair]) remoteProvider
      [unindexedItem [.whole 1, .whole 0], unindexedItem [.whole 0, .whole 1]] := by
    refine .openai (.at_once ⟨_, metRemote _, rfl, rfl⟩) rfl ?_
    rw [List.forall_mem_cons, List.forall_mem_singleton]
    exact ⟨⟨_, rfl⟩, ⟨_, rfl⟩⟩
  obtain ⟨one, embedded, long⟩ := Provider.embed_count.mpr ⟨_, single, rfl⟩
  obtain ⟨two, embeddedRemote, longRemote⟩ := Provider.embed_count.mpr ⟨_, pair, rfl⟩
  refine ⟨⟨one, embedded, ?_⟩, two, embeddedRemote, ?_⟩
  · rw [long]
    decide
  · rw [longRemote]
    decide

end Corpora.Embedding
