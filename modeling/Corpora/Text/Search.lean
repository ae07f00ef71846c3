/-!
Finding and replacing a piece, over lists of characters or bytes. The leftmost occurrence counts,
and a search goes on behind the occurrence that it found.
-/

namespace Corpora.Text

variable {α : Type} [DecidableEq α]

def stripStart? (piece text : List α) : Option (List α) :=
  match piece, text with
  | [], text => some text
  | _ :: _, [] => none
  | p :: piece, c :: text => if p = c then stripStart? piece text else none

def splitFrom (piece : List α) : (passed : List α) → List α → Option (List α × List α)
  | passed, [] => if piece = [] then some (passed.reverse, []) else none
  | passed, c :: text =>
      match stripStart? piece (c :: text) with
      | some behind => some (passed.reverse, behind)
      | none => splitFrom piece (c :: passed) text

def splitFirst? (piece text : List α) : Option (List α × List α) := splitFrom piece [] text

theorem stripStart?_eq_some {piece text behind : List α} :
    stripStart? piece text = some behind ↔ text = piece ++ behind := by
  induction piece generalizing text with
  | nil => simp [stripStart?, eq_comm]
  | cons p piece ih =>
      cases text with
      | nil => simp [stripStart?]
      | cons c text =>
          by_cases same : p = c
          · simp [stripStart?, same, ih]
          · simp [stripStart?, same, Ne.symm same]

theorem splitFrom_eq {piece passed text before behind : List α}
    (found : splitFrom piece passed text = some (before, behind)) :
    passed.reverse ++ text = before ++ piece ++ behind := by
  induction text generalizing passed with
  | nil =>
      simp only [splitFrom] at found
      split at found
      · next empty => simp_all
      · simp at found
  | cons c text ih =>
      simp only [splitFrom] at found
      split at found
      · next rest here =>
          simp only [Option.some.injEq, Prod.mk.injEq] at found
          obtain ⟨rfl, rfl⟩ := found
          simp [stripStart?_eq_some.mp here]
      · have later := ih found
        simpa using later

theorem splitFirst?_eq {piece text before behind : List α}
    (found : splitFirst? piece text = some (before, behind)) :
    text = before ++ piece ++ behind := by
  simpa using splitFrom_eq found

def replaceAll (piece substitute text : List α) : List α :=
  if _nonempty : piece = [] then text
  else match _found : splitFirst? piece text with
    | some (before, behind) => before ++ substitute ++ replaceAll piece substitute behind
    | none => text
  termination_by text.length
  decreasing_by
    have whole := congrArg List.length (splitFirst?_eq _found)
    have long := List.length_pos_iff.mpr _nonempty
    simp only [List.length_append] at whole
    omega

def replace (piece substitute text : String) : String :=
  String.ofList (replaceAll piece.toList substitute.toList text.toList)

def splitAt (stop : Char) : List Char → List (List Char)
  | [] => [[]]
  | c :: rest =>
      if c = stop then [] :: splitAt stop rest
      else match splitAt stop rest with
        | piece :: pieces => (c :: piece) :: pieces
        | [] => [[c]]

def withoutEndSlashes (text : String) : String :=
  String.ofList (text.toList.reverse.dropWhile (· == '/')).reverse

end Corpora.Text
