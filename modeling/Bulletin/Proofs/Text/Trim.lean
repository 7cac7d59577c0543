import Bulletin.Text.Basic
import Mathlib.Data.List.DropRight

/-! Trimming. A text is blank characters, its trimmed part, and blank characters again; the trimmed
part neither begins nor ends with a blank character, and padding a text with blank characters does
not change it. -/

namespace Bulletin.Text

def AllBlank (t : Text) : Prop := ∀ c ∈ t, isBlank c = true

instance (t : Text) : Decidable (AllBlank t) :=
  inferInstanceAs (Decidable (∀ c ∈ t, isBlank c = true))

@[simp] theorem allBlank_nil : AllBlank [] := by simp [AllBlank]
@[simp] theorem allBlank_cons {c : Char} {t : Text} :
    AllBlank (c :: t) ↔ isBlank c = true ∧ AllBlank t := by simp [AllBlank]
@[simp] theorem allBlank_append {a b : Text} : AllBlank (a ++ b) ↔ AllBlank a ∧ AllBlank b := by
  simp [AllBlank, or_imp, forall_and]

def Trimmed (t : Text) : Prop :=
  (∀ c ∈ t.head?, isBlank c = false) ∧ ∀ c ∈ t.getLast?, isBlank c = false

instance (t : Text) : Decidable (Trimmed t) :=
  @instDecidableAnd _ _ (Option.decidableForallMem t.head?) (Option.decidableForallMem t.getLast?)

@[simp] theorem trimmed_nil : Trimmed [] := by simp [Trimmed]

theorem Trimmed.not_blank_head {c : Char} {t : Text} (h : Trimmed (c :: t)) :
    isBlank c = false := h.1 c rfl

theorem Trimmed.not_blank_last {c : Char} {t : Text} (h : Trimmed (t ++ [c])) :
    isBlank c = false := h.2 c (by simp)

theorem Trimmed.concat {c : Char} {t : Text} (h : Trimmed t) (hc : isBlank c = false) :
    Trimmed (t ++ [c]) := by
  refine ⟨?_, by simp [hc]⟩
  cases t with
  | nil => simp [hc]
  | cons d r => simp [h.not_blank_head]

theorem Trimmed.eq_nil_of_allBlank {t : Text} (h : Trimmed t) (hb : AllBlank t) : t = [] := by
  cases t with
  | nil => rfl
  | cons c r => simp [h.not_blank_head] at hb

theorem exists_trimStart (t : Text) : ∃ a, AllBlank a ∧ t = a ++ trimStart t := by
  refine ⟨t.takeWhile isBlank, fun c hc => List.mem_takeWhile_imp hc, ?_⟩
  simp [trimStart, List.takeWhile_append_dropWhile]

theorem exists_trimEnd (t : Text) : ∃ b, AllBlank b ∧ t = trimEnd t ++ b := by
  obtain ⟨b, hb, h⟩ := exists_trimStart t.reverse
  refine ⟨b.reverse, fun c hc => hb c (by simpa using hc), ?_⟩
  calc t = t.reverse.reverse := by simp
    _ = (b ++ trimStart t.reverse).reverse := by rw [← h]
    _ = trimEnd t ++ b.reverse := by simp [trimEnd, trimStart]

theorem exists_trim (t : Text) : ∃ a b, AllBlank a ∧ AllBlank b ∧ t = a ++ trim t ++ b := by
  obtain ⟨a, ha, h⟩ := exists_trimStart t
  obtain ⟨b, hb, h'⟩ := exists_trimEnd (trimStart t)
  exact ⟨a, b, ha, hb, by rw [trim, List.append_assoc, ← h', ← h]⟩

theorem infix_trim (t : Text) : trim t <:+: t := by
  obtain ⟨a, b, -, -, h⟩ := exists_trim t
  exact ⟨a, b, h.symm⟩

theorem mem_of_mem_trim {c : Char} {t : Text} (h : c ∈ trim t) : c ∈ t :=
  (infix_trim t).subset h

theorem not_blank_of_head?_trimStart {t : Text} {c : Char} (h : c ∈ (trimStart t).head?) :
    isBlank c = false := by
  have hfirst := List.head?_dropWhile_not isBlank t
  rw [trimStart] at h
  simpa [Option.mem_def.mp h] using hfirst

theorem not_blank_of_getLast?_trimEnd {t : Text} {c : Char} (h : c ∈ (trimEnd t).getLast?) :
    isBlank c = false := by
  have hlast := List.head?_dropWhile_not isBlank t.reverse
  rw [trimEnd, List.getLast?_reverse] at h
  simpa [Option.mem_def.mp h] using hlast

theorem trimmed_trim (t : Text) : Trimmed (trim t) := by
  refine ⟨fun c hc => ?_, fun c hc => not_blank_of_getLast?_trimEnd hc⟩
  -- the trimmed text is a prefix of what is left after trimming the start
  obtain ⟨b, -, hb⟩ := exists_trimEnd (trimStart t)
  refine not_blank_of_head?_trimStart (t := t) ?_
  rw [hb, ← trim, List.head?_append, Option.mem_def.mp hc]
  rfl

theorem trim_blank_append {a t : Text} (ha : AllBlank a) : trim (a ++ t) = trim t := by
  rw [trim, trimStart, List.dropWhile_append_of_pos ha, ← trimStart, ← trim]

theorem trimStart_append {t b : Text} (ht : ¬ AllBlank t) :
    trimStart (t ++ b) = trimStart t ++ b := by
  have h : t.dropWhile isBlank ≠ [] := by simpa [AllBlank] using ht
  simp [trimStart, List.dropWhile_append, h]

theorem trimEnd_append_blank {t b : Text} (hb : AllBlank b) : trimEnd (t ++ b) = trimEnd t := by
  have hb' : ∀ c ∈ b.reverse, isBlank c = true := fun c hc => hb c (List.mem_reverse.mp hc)
  rw [trimEnd, trimEnd, List.reverse_append, List.dropWhile_append_of_pos hb']

theorem trimEnd_append_cons {a b : Text} {c : Char} (hc : isBlank c = false) :
    trimEnd (a ++ c :: b) = a ++ c :: trimEnd b := by
  have hrev : (a ++ c :: b).reverse = b.reverse ++ c :: a.reverse := by simp
  rw [trimEnd, hrev, List.dropWhile_append]
  by_cases hb : (b.reverse.dropWhile isBlank).isEmpty
  · simp [trimEnd, hc, List.isEmpty_iff.mp hb]
  · simp [trimEnd, hb]

theorem trim_append_cons {a b : Text} {c : Char} (h : Trimmed (a ++ [c])) :
    trim (a ++ c :: b) = a ++ c :: trimEnd b := by
  have hs : trimStart (a ++ c :: b) = a ++ c :: b := by
    cases a with
    | nil => simp [trimStart, h.not_blank_last (t := [])]
    | cons d a => simp [trimStart, h.not_blank_head]
  rw [trim, hs, trimEnd_append_cons h.not_blank_last]

theorem trim_eq_nil_iff {t : Text} : trim t = [] ↔ AllBlank t := by
  constructor
  · intro h
    obtain ⟨a, b, ha, hb, ht⟩ := exists_trim t
    rw [ht, h]
    simp [ha, hb]
  · intro h
    exact (trimmed_trim t).eq_nil_of_allBlank fun c hc => h c (mem_of_mem_trim hc)

theorem trim_append_blank {t b : Text} (hb : AllBlank b) : trim (t ++ b) = trim t := by
  by_cases ht : AllBlank t
  · rw [trim_eq_nil_iff.mpr ht, trim_eq_nil_iff.mpr (by simp [ht, hb])]
  · rw [trim, trim, trimStart_append ht, trimEnd_append_blank hb]

theorem trim_trimEnd (t : Text) : trim (trimEnd t) = trim t := by
  obtain ⟨b, hb, h⟩ := exists_trimEnd t
  calc trim (trimEnd t) = trim (trimEnd t ++ b) := (trim_append_blank hb).symm
    _ = trim t := by rw [← h]

theorem trim_eq_self_iff {t : Text} : trim t = t ↔ Trimmed t := by
  constructor
  · intro h
    rw [← h]
    exact trimmed_trim t
  · intro h
    have hs : trimStart t = t := by
      cases t with
      | nil => rfl
      | cons c r => simp [trimStart, h.not_blank_head]
    rw [trim, hs]
    refine List.rdropWhile_eq_self_iff.mpr fun hne => ?_
    simpa using h.2 _ (List.getLast?_eq_some_getLast hne)

theorem Trimmed.trim_eq {t : Text} (h : Trimmed t) : trim t = t := trim_eq_self_iff.mpr h

theorem Trimmed.trim_pad {a t b : Text} (h : Trimmed t) (ha : AllBlank a) (hb : AllBlank b) :
    trim (a ++ t ++ b) = t := by
  rw [trim_append_blank hb, trim_blank_append ha, h.trim_eq]

end Bulletin.Text
