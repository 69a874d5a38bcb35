/-
Module: WebhookProcessor.Proofs.Query
Layer: Proofs
Purpose: What `bind` does to the text of a statement, however PostgreSQL reads it.  Every
  placeholder becomes the reference with its own number, and as long as a statement has no dollar
  sign of its own, its text can be told from the result: no two statements are sent as the same
  text.
Trusted boundary: none
Main exports: bind_injective
-/
import WebhookProcessor.Json.Text
import WebhookProcessor.Model.EventStore

namespace WebhookProcessor

open EventStore

theorem not_mem_toDigits (character : Char) (n : Nat) (noDigit : character.isDigit = false) :
    character ∉ Nat.toDigits 10 n := by
  intro member
  have digit := Json.isDigit_of_mem_toDigits character member
  rw [noDigit] at digit
  cases digit

/-- The number of a placeholder is told by those in front of it. -/
theorem bindLoop_append (placeholder : Nat) (before after : List Char) :
    bindLoop placeholder (before ++ after) =
      bindLoop placeholder before ++ bindLoop (placeholder + before.count '?') after := by
  induction before generalizing placeholder with
  | nil => rfl
  | cons character rest inductionHypothesis =>
      rw [List.cons_append, bindLoop, bindLoop]
      split
      · rename_i mark
        rw [inductionHypothesis, mark, List.count_cons_self, List.cons_append, List.append_assoc,
          Nat.add_assoc, Nat.add_comm 1]
      · rename_i other
        rw [inductionHypothesis, List.count_cons_of_ne other, List.cons_append]

theorem toList_bind (query : String) : (bind query).toList = bindLoop 1 query.toList :=
  String.toList_ofList

/-- Each placeholder is replaced by one reference. -/
theorem count_bindLoop {query : List Char} (noDollar : '$' ∉ query) (placeholder : Nat) :
    (bindLoop placeholder query).count '$' = query.count '?' ∧
      '?' ∉ bindLoop placeholder query := by
  induction query generalizing placeholder with
  | nil => exact ⟨rfl, List.not_mem_nil⟩
  | cons character rest inductionHypothesis =>
      obtain ⟨plain, restPlain⟩ := not_or.mp (mt List.mem_cons.mpr noDollar)
      unfold bindLoop
      split
      · rename_i mark
        obtain ⟨counted, none⟩ := inductionHypothesis restPlain (placeholder + 1)
        have noDollarDigit := not_mem_toDigits '$' placeholder (by decide)
        have noMarkDigit := not_mem_toDigits '?' placeholder (by decide)
        constructor
        · rw [List.count_cons_self, List.count_append, List.count_eq_zero.mpr noDollarDigit,
            counted, mark, List.count_cons_self, Nat.zero_add]
        · simp [noMarkDigit, none]
      · rename_i other
        obtain ⟨counted, none⟩ := inductionHypothesis restPlain placeholder
        constructor
        · rw [List.count_cons_of_ne (Ne.symm plain), List.count_cons_of_ne other, counted]
        · simp [Ne.symm other, none]

/-- The number of the next placeholder tells where its digits end. -/
theorem bindLoop_injective {query other : List Char} (noDollar : '$' ∉ query)
    (otherNoDollar : '$' ∉ other) {placeholder : Nat}
    (same : bindLoop placeholder query = bindLoop placeholder other) : query = other := by
  induction query generalizing other placeholder with
  | nil =>
      cases other with
      | nil => rfl
      | cons character rest =>
          unfold bindLoop at same
          split at same <;> cases same
  | cons character rest inductionHypothesis =>
      obtain ⟨plain, restPlain⟩ := not_or.mp (mt List.mem_cons.mpr noDollar)
      cases other with
      | nil =>
          unfold bindLoop at same
          split at same <;> cases same
      | cons next tail =>
          obtain ⟨nextPlain, tailPlain⟩ := not_or.mp (mt List.mem_cons.mpr otherNoDollar)
          unfold bindLoop at same
          split at same
          · rename_i mark
            split at same
            · rename_i nextMark
              have texts := List.append_cancel_left (List.cons.inj same).2
              rw [mark, nextMark, inductionHypothesis restPlain tailPlain texts]
            · exact absurd (List.cons.inj same).1 nextPlain
          · split at same
            · exact absurd (List.cons.inj same).1.symm plain
            · obtain ⟨first, texts⟩ := List.cons.inj same
              rw [first, inductionHypothesis restPlain tailPlain texts]

/-- In the text that `bind` returns for a statement without a dollar sign, every placeholder is the
reference with its number, there is no other dollar sign and no placeholder any more, and no other
such statement has the same text. -/
theorem bind_injective {query : String} (noDollar : '$' ∉ query.toList) :
    (∀ before after : String, query = before ++ "?" ++ after → ∃ rest,
      EventStore.bind query =
        EventStore.bind before ++ "$" ++ toString (before.toList.count '?' + 1) ++ rest) ∧
      (EventStore.bind query).toList.count '$' = query.toList.count '?' ∧
      '?' ∉ (EventStore.bind query).toList ∧
      ∀ other : String, '$' ∉ other.toList → EventStore.bind query = EventStore.bind other →
        query = other := by
  obtain ⟨counted, none⟩ := count_bindLoop noDollar 1
  refine ⟨?_, by rwa [toList_bind], by rwa [toList_bind], ?_⟩
  · rintro before after rfl
    refine ⟨String.ofList (bindLoop (before.toList.count '?' + 2) after.toList), ?_⟩
    apply String.toList_injective
    have mark : "?".toList = ['?'] := by decide
    have dollar : "$".toList = ['$'] := by decide
    have number : (toString (before.toList.count '?' + 1)).toList =
        Nat.toDigits 10 (before.toList.count '?' + 1) := Nat.toList_repr
    simp only [String.toList_append, toList_bind, String.toList_ofList, mark, dollar, number,
      List.append_assoc, List.singleton_append, bindLoop_append]
    rw [bindLoop, if_pos rfl, Nat.add_comm 1, List.cons_append]
  · intro other otherNoDollar same
    exact String.toList_injective (bindLoop_injective noDollar otherNoDollar
      (String.ofList_injective same))

theorem bind_injective_of_update :
    (∃ rest, EventStore.bind "SET error = ? WHERE id = ?" =
        EventStore.bind "SET error = ? WHERE id = " ++ "$" ++ toString 2 ++ rest) ∧
      EventStore.bind "SET error = ? WHERE id = ?" ≠ EventStore.bind "SET error = ?" := by
  have noDollar : '$' ∉ "SET error = ? WHERE id = ?".toList := by decide
  obtain ⟨numbered, _, _, determined⟩ := bind_injective noDollar
  constructor
  · exact numbered "SET error = ? WHERE id = " "" (by decide)
  · exact fun same => absurd (determined _ (by decide) same) (by decide)

end WebhookProcessor
