import Bulletin.Card
import Mathlib.Data.List.Basic

/-! The texts of a card where its own are missing. A card with a fallback that has a fallback itself
takes the first text that is not empty. -/

namespace Bulletin

namespace Text

theorem orElse_ne_nil (t : Text) {fallback : Text} (h : fallback ≠ []) : t.orElse fallback ≠ [] := by
  cases t with
  | nil => exact h
  | cons c r => exact List.cons_ne_nil c r

theorem orElse_eq_self {t : Text} (h : t ≠ []) (fallback : Text) : t.orElse fallback = t := if_neg h

def firstGiven (ts : List Text) : Text := (ts.find? fun t => t ≠ []).getD []

theorem firstGiven_cons_nil (ts : List Text) : firstGiven ([] :: ts) = firstGiven ts := rfl

theorem firstGiven_cons {t : Text} (ts : List Text) (h : t ≠ []) : firstGiven (t :: ts) = t := by
  simp [firstGiven, h]

theorem firstGiven_cons_eq_orElse (t : Text) (ts : List Text) :
    firstGiven (t :: ts) = t.orElse (firstGiven ts) := by
  cases t with
  | nil => rfl
  | cons c r => exact firstGiven_cons ts (List.cons_ne_nil c r)

end Text

namespace CardText

structure Complete (t : CardText) : Prop where
  title : t.title ≠ []
  description : t.description ≠ []

theorem complete_standard : standard.Complete := ⟨by decide, by decide⟩

theorem Complete.orElse {fallback : CardText} (h : fallback.Complete) (t : CardText) :
    (t.orElse fallback).Complete :=
  ⟨t.title.orElse_ne_nil h.title, t.description.orElse_ne_nil h.description⟩

theorem Complete.orElse_eq {t : CardText} (h : t.Complete) (fallback : CardText) :
    t.orElse fallback = t := by
  rw [CardText.orElse, Text.orElse_eq_self h.title, Text.orElse_eq_self h.description]

/-- The texts of a card with the first choice `t` and the second choice `d`. -/
def chosen (t d : CardText) : CardText :=
  ⟨Text.firstGiven [t.title, d.title, Card.defaultTitle],
    Text.firstGiven [t.description, d.description, Card.defaultDescription]⟩

theorem orElse_orElse_standard (t d : CardText) : t.orElse (d.orElse .standard) = chosen t d := by
  simp only [chosen, Text.firstGiven_cons_eq_orElse]
  rfl

theorem complete_chosen (t d : CardText) : (chosen t d).Complete := by
  rw [← orElse_orElse_standard]
  exact (complete_standard.orElse d).orElse t

theorem card_orElse_standard (t d : CardText) : t.card (d.orElse .standard) = (chosen t d).card := by
  rw [card, card, orElse_orElse_standard, (complete_chosen t d).orElse_eq]

end CardText

end Bulletin
