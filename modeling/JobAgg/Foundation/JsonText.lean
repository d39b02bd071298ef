import JobAgg.Foundation.Json
import Std.Data.String.ToNat

/-! # A text for every JSON value

Different values have different texts, and no text begins another. It stands for the
text of a value where only that matters, in a hash or a key.
-/

namespace JobAgg.Json

/-- The characters of a string, marked, up to an end mark. -/
def quotedChars : List Char → List Char
  | [] => ['.']
  | char :: chars => 'c' :: char :: quotedChars chars

theorem quotedChars_append_inj : ∀ {left right after later : List Char},
    quotedChars left ++ after = quotedChars right ++ later → left = right ∧ after = later
  | [], [], _, _ => by simp [quotedChars]
  | [], _ :: _, _, _ => by simp [quotedChars]
  | _ :: _, [], _, _ => by simp [quotedChars]
  | char :: left, other :: right, after, later => by
    intro same
    simp only [quotedChars, List.cons_append, List.cons.injEq, true_and] at same
    rcases quotedChars_append_inj same.2 with ⟨rfl, rest⟩
    exact ⟨by rw [same.1], rest⟩

def quoted (text : String) : List Char := quotedChars text.toList

theorem quoted_append_inj {left right : String} {after later : List Char}
    (same : quoted left ++ after = quoted right ++ later) : left = right ∧ after = later := by
  rcases quotedChars_append_inj same with ⟨chars, rest⟩
  exact ⟨String.toList_inj.mp chars, rest⟩

mutual

def textChars : Json → List Char
  | null => ['n']
  | bool true => ['t']
  | bool false => ['f']
  | number numeral => 'd' :: quoted numeral
  | string text => 's' :: quoted text
  | array items => 'l' :: textItems items
  | object fields => 'm' :: textFields fields

def textItems : List Json → List Char
  | [] => ['.']
  | item :: items => ',' :: (textChars item ++ textItems items)

def textFields : List (String × Json) → List Char
  | [] => ['.']
  | (name, value) :: fields => ',' :: (quoted name ++ (textChars value ++ textFields fields))

end

mutual

theorem textChars_append_inj : ∀ {left right : Json} {after later : List Char},
    textChars left ++ after = textChars right ++ later → left = right ∧ after = later
  | null, right, _, _ => by
    cases right with
    | bool flag => cases flag <;> simp [textChars]
    | _ => simp [textChars]
  | bool flag, right, _, _ => by
    cases right with
    | bool other => cases flag <;> cases other <;> simp [textChars]
    | _ => cases flag <;> simp [textChars]
  | number numeral, right, _, _ => by
    cases right with
    | number other =>
      intro same
      simp only [textChars, List.cons_append, List.cons.injEq, true_and] at same
      simpa using quoted_append_inj same
    | bool flag => cases flag <;> simp [textChars]
    | _ => simp [textChars]
  | string text, right, _, _ => by
    cases right with
    | string other =>
      intro same
      simp only [textChars, List.cons_append, List.cons.injEq, true_and] at same
      simpa using quoted_append_inj same
    | bool flag => cases flag <;> simp [textChars]
    | _ => simp [textChars]
  | array items, right, _, _ => by
    cases right with
    | array others =>
      intro same
      simp only [textChars, List.cons_append, List.cons.injEq, true_and] at same
      simpa using textItems_append_inj same
    | bool flag => cases flag <;> simp [textChars]
    | _ => simp [textChars]
  | object fields, right, _, _ => by
    cases right with
    | object others =>
      intro same
      simp only [textChars, List.cons_append, List.cons.injEq, true_and] at same
      simpa using textFields_append_inj same
    | bool flag => cases flag <;> simp [textChars]
    | _ => simp [textChars]

theorem textItems_append_inj : ∀ {left right : List Json} {after later : List Char},
    textItems left ++ after = textItems right ++ later → left = right ∧ after = later
  | [], right, _, _ => by cases right <;> simp [textItems]
  | item :: items, right, _, _ => by
    cases right with
    | nil => simp [textItems]
    | cons other others =>
      intro same
      simp only [textItems, List.cons_append, List.append_assoc, List.cons.injEq,
        true_and] at same
      rcases textChars_append_inj same with ⟨rfl, rest⟩
      simpa using textItems_append_inj rest

theorem textFields_append_inj : ∀ {left right : List (String × Json)} {after later : List Char},
    textFields left ++ after = textFields right ++ later → left = right ∧ after = later
  | [], right, _, _ => by
    cases right with
    | nil => simp [textFields]
    | cons field fields => simp [textFields]
  | (name, value) :: fields, right, _, _ => by
    cases right with
    | nil => simp [textFields]
    | cons field others =>
      rcases field with ⟨other, result⟩
      intro same
      simp only [textFields, List.cons_append, List.append_assoc, List.cons.injEq,
        true_and] at same
      rcases quoted_append_inj same with ⟨rfl, sameRest⟩
      rcases textChars_append_inj sameRest with ⟨rfl, sameFields⟩
      simpa using textFields_append_inj sameFields

end

def text (value : Json) : String := .ofList (textChars value)

theorem text_inj {left right : Json} : text left = text right ↔ left = right := by
  constructor
  · intro same
    have chars : textChars left ++ [] = textChars right ++ [] := by
      simpa using String.ofList_inj.mp same
    exact (textChars_append_inj chars).1
  · exact fun same => same ▸ rfl

end JobAgg.Json
