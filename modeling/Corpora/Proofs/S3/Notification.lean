import Corpora.Proofs.Xml.Block
import Corpora.S3.Listing

/-!
The document of a notification. Each of its texts stands escaped in an element of its own, so a
reader of blocks finds every text again and nothing inside one that would pass for a tag.
-/

namespace Corpora.S3

open Xml (Leaf Part Tags documentChars elementChars isPlainTag)

def notificationTags : List String := ["Id", "Queue", "Event"]

def notificationFrame : List String := ["NotificationConfiguration", "QueueConfiguration"]

def notificationLeaves (notification : Notification) : List (Leaf notificationTags) :=
  ⟨"Id", by decide, notification.id⟩ :: ⟨"Queue", by decide, notification.target⟩ ::
    notification.events.map fun event => ⟨"Event", by decide, event⟩

def notificationHead : String :=
  "NotificationConfiguration xmlns=\"http://s3.amazonaws.com/doc/2006-03-01/\""

theorem toList_head :
    "<NotificationConfiguration xmlns=\"http://s3.amazonaws.com/doc/2006-03-01/\">".toList =
      Text.delimited '<' '>' notificationHead.toList := by decide +kernel

theorem toList_last :
    "</NotificationConfiguration>".toList = Xml.closeTag "NotificationConfiguration" := by
  decide +kernel

theorem toList_element (tag text : String) :
    (element tag text).toList = elementChars tag text.toList := by
  simp [element, String.toList_append, elementChars, Xml.openTag, Xml.closeTag]

theorem toList_framed (first tag text last : String) :
    (first ++ element tag text ++ last).toList =
      first.toList ++ (elementChars tag text.toList ++ last.toList) := by
  simp only [String.toList_append, toList_element, List.append_assoc]

theorem toList_texts (notification : Notification) :
    (element "Id" (Xml.escape notification.id) ++
      element "Queue" (Xml.escape notification.target) ++
      String.join (notification.events.map fun event => element "Event" (Xml.escape event))).toList =
        (notificationLeaves notification).flatMap Leaf.chars := by
  simp only [String.toList_append, String.toList_join, toList_element, Xml.escape,
    String.toList_ofList, notificationLeaves, List.flatMap_cons, List.flatMap_map,
    List.append_assoc]
  rfl

theorem head_foreign (own : Tags) : ∀ tag ∈ own.names,
    notificationHead.toList ≠ tag.toList ∧ notificationHead.toList ≠ '/' :: tag.toList := by
  intro tag known
  have slash : '/' ∈ notificationHead.toList := by decide
  have first : notificationHead.toList.head? = some 'N' := by decide
  constructor
  · intro same
    exact (own.plain_name known).2.2 (same ▸ slash)
  · intro same
    rw [same, List.head?_cons] at first
    exact absurd first (by decide)

section Parts

variable {own : Tags} (framed : ∀ frame ∈ notificationFrame, frame ∉ own.names)

def notificationParts (notification : Notification) : List (Part own (Leaf notificationTags)) :=
  .mark notificationHead.toList (by decide) (head_foreign own) ::
    .opening "QueueConfiguration" (by decide) (framed _ (by decide)) ::
      ((notificationLeaves notification).map .item ++
        [.closing "QueueConfiguration" (by decide) (framed _ (by decide)),
          .closing "NotificationConfiguration" (by decide) (framed _ (by decide))])

theorem items_notificationParts (notification : Notification) :
    Xml.items (notificationParts framed notification) = notificationLeaves notification := by
  have leaves := @Xml.items_map_item own _ (notificationLeaves notification)
  rw [Xml.items] at leaves
  rw [Xml.items, notificationParts, List.filterMap_cons_none rfl, List.filterMap_cons_none rfl,
    List.filterMap_append, leaves]
  exact List.append_nil _

theorem documentChars_notificationParts (notification : Notification) :
    documentChars Leaf.chars (notificationParts framed notification) =
      Text.delimited '<' '>' notificationHead.toList ++
        (elementChars "QueueConfiguration" ((notificationLeaves notification).flatMap Leaf.chars) ++
          Xml.closeTag "NotificationConfiguration") := by
  have leaves : ((notificationLeaves notification).map (@Part.item own _)).flatMap
      (Part.chars Leaf.chars) = (notificationLeaves notification).flatMap Leaf.chars :=
    List.flatMap_map ..
  rw [documentChars, notificationParts, List.flatMap_cons, List.flatMap_cons, List.flatMap_append,
    leaves, elementChars, List.append_assoc, List.append_assoc]
  rfl

theorem notificationXml_toList (notification : Notification) :
    (notificationXml notification).toList =
      documentChars Leaf.chars (notificationParts framed notification) := by
  rw [documentChars_notificationParts]
  refine (toList_framed _ _ _ _).trans ?_
  simp only [toList_texts, toList_head, toList_last]

end Parts

/-- The blocks of any tag but those of the frame, read back, are the texts that have the tag. -/
theorem texts_notificationXml {tag : String} (plain : isPlainTag tag = true)
    (apart : tag ∉ notificationFrame) (notification : Notification) :
    (Xml.blocks tag (notificationXml notification)).map Xml.unescape =
      (notificationLeaves notification).filterMap (Leaf.textOf? tag) := by
  let own : Tags := ⟨tag :: notificationTags, by rw [List.all_cons, plain]; decide⟩
  have framed : ∀ frame ∈ notificationFrame, frame ∉ own.names := by
    intro frame around known
    rcases List.mem_cons.mp known with rfl | inside
    · exact apart around
    · exact (by decide : ∀ frame ∈ notificationFrame, frame ∉ notificationTags) frame around inside
  have read := @Xml.texts_document own _ _ tag List.mem_cons_self
    (fun other member => List.mem_cons_of_mem _ member) Leaf.chars some
    (notificationParts framed notification) fun leaf member => rfl
  rw [← notificationXml_toList, String.ofList_toList] at read
  rw [read, List.filterMap_some, items_notificationParts]

theorem events_textOf? (tag : String) (events : List String) :
    (events.map fun event => (⟨"Event", by decide, event⟩ : Leaf notificationTags)).filterMap
      (Leaf.textOf? tag) = if "Event" = tag then events else [] := by
  induction events with
  | nil => exact (ite_self []).symm
  | cons event rest ih =>
      rw [List.map_cons, List.filterMap_cons, ih]
      by_cases same : "Event" = tag <;> simp [Leaf.textOf?, same]

theorem texts_eq {tag : String} (plain : isPlainTag tag = true) (apart : tag ∉ notificationFrame)
    (notification : Notification) :
    (Xml.blocks tag (notificationXml notification)).map Xml.unescape =
      (if "Id" = tag then [notification.id] else []) ++
        ((if "Queue" = tag then [notification.target] else []) ++
          if "Event" = tag then notification.events else []) := by
  rw [texts_notificationXml plain apart, notificationLeaves, List.filterMap_cons,
    List.filterMap_cons, events_textOf?]
  by_cases first : "Id" = tag <;> by_cases second : "Queue" = tag <;>
    simp [Leaf.textOf?, first, second]

theorem own_texts (notification : Notification) :
    (Xml.blocks "Id" (notificationXml notification)).map Xml.unescape = [notification.id] ∧
    (Xml.blocks "Queue" (notificationXml notification)).map Xml.unescape = [notification.target] ∧
    (Xml.blocks "Event" (notificationXml notification)).map Xml.unescape = notification.events := by
  refine ⟨?_, ?_, ?_⟩
  · simpa using @texts_eq "Id" (by decide) (by decide) notification
  · simpa using @texts_eq "Queue" (by decide) (by decide) notification
  · simpa using @texts_eq "Event" (by decide) (by decide) notification

theorem notificationXml_injective : Function.Injective notificationXml := by
  intro one other same
  obtain ⟨id, target, events⟩ := own_texts one
  obtain ⟨otherId, otherTarget, otherEvents⟩ := own_texts other
  rw [same] at id target events
  cases one
  cases other
  cases (id.symm.trans otherId)
  cases (target.symm.trans otherTarget)
  cases (events.symm.trans otherEvents)
  rfl

/-- Whatever its texts hold, a notification is read back from its document: each text from an
element of its own, and nothing in a text counts as an element. So no two notifications share a
document. -/
theorem notification_read_back :
    (∀ notification,
      Xml.value? "Id" (notificationXml notification) = some notification.id ∧
      Xml.value? "Queue" (notificationXml notification) = some notification.target ∧
      (Xml.blocks "Id" (notificationXml notification)).length = 1 ∧
      (Xml.blocks "Queue" (notificationXml notification)).length = 1 ∧
      (Xml.blocks "Event" (notificationXml notification)).map Xml.unescape = notification.events ∧
      ∀ tag, isPlainTag tag = true → tag ∉ notificationFrame → tag ∉ notificationTags →
        Xml.blocks tag (notificationXml notification) = []) ∧
    ∀ one other, one ≠ other → notificationXml one ≠ notificationXml other := by
  refine ⟨fun notification => ?_, fun one other differ same =>
    differ (notificationXml_injective same)⟩
  obtain ⟨id, target, events⟩ := own_texts notification
  refine ⟨?_, ?_, ?_, ?_, events, fun tag plain apart foreign => ?_⟩
  · rw [Xml.value?, ← List.head?_map, id, List.head?_singleton]
  · rw [Xml.value?, ← List.head?_map, target, List.head?_singleton]
  · simpa using congrArg List.length id
  · simpa using congrArg List.length target
  · have none := texts_eq plain apart notification
    simp only [notificationTags, List.mem_cons, List.not_mem_nil, or_false, not_or] at foreign
    rw [if_neg (Ne.symm foreign.1), if_neg (Ne.symm foreign.2.1),
      if_neg (Ne.symm foreign.2.2)] at none
    exact List.map_eq_nil_iff.mp none

def hostileNotification : Notification :=
  ⟨"</Id><Topic>&lt;</Topic>", "&amp;</Queue>", ["</Event><Event>", "&", ""]⟩

theorem hostile_read_back :
    Xml.value? "Id" (notificationXml hostileNotification) = some "</Id><Topic>&lt;</Topic>" ∧
    Xml.blocks "Topic" (notificationXml hostileNotification) = [] := by
  obtain ⟨id, _, _, _, _, others⟩ := notification_read_back.1 hostileNotification
  exact ⟨id, others "Topic" (by decide) (by decide) (by decide)⟩

end Corpora.S3
