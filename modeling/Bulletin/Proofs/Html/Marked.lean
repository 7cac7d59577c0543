import Bulletin.Html.Fragment
import Bulletin.Proofs.Emphasis

/-! Author text with inline tags. Emphasis and line breaks write tags in the place of markers and
newlines, and since author text without a `<` cannot hold a tag, it can be read back from what is
written, up to the closing tag of the element it stands in. -/

namespace Bulletin.Html

/-- Text in which no tag begins. -/
def Plain (t : Text) : Prop := '<' ∉ t

instance (t : Text) : Decidable (Plain t) := inferInstanceAs (Decidable ('<' ∉ t))

theorem plain_cons_iff {c : Char} {t : Text} : Plain (c :: t) ↔ c ≠ '<' ∧ Plain t := by
  simp [Plain, eq_comm]

theorem plain_append_iff {a b : Text} : Plain (a ++ b) ↔ Plain a ∧ Plain b := by
  simp [Plain]

/-- The inline tags, each with the text it stands for. -/
def inlineTags : List (Text × Text) :=
  [("**", "<b>"), ("**", "</b>"), ("*", "<i>"), ("*", "</i>"), ("\n", "<br>")]

theorem inlineTags_head : ∀ e ∈ inlineTags, e.2.head? = some '<' := by decide

theorem eq_of_inlineTags : ∀ e ∈ inlineTags, ∀ f ∈ inlineTags, e.2 <+: f.2 → e = f := by decide

/-- `Marked t m`: the markup `m` is the text `t`, some of it written as inline tags. -/
inductive Marked : Text → Text → Prop where
  | nil : Marked [] []
  | char {c : Char} {t m : Text} (hc : c ≠ '<') (h : Marked t m) : Marked (c :: t) (c :: m)
  | tag {e : Text × Text} {t m : Text} (he : e ∈ inlineTags) (h : Marked t m) :
    Marked (e.1 ++ t) (e.2 ++ m)

theorem Plain.marked {t : Text} (h : Plain t) : Marked t t := by
  induction t with
  | nil => exact .nil
  | cons c t ih =>
    obtain ⟨hc, ht⟩ := plain_cons_iff.mp h
    exact .char hc (ih ht)

theorem ne_lt_of_append {e : Text × Text} (he : e ∈ inlineTags) {c : Char} {a b : Text}
    (h : c :: a = e.2 ++ b) : c = '<' := by
  obtain ⟨x, r, hr⟩ := List.exists_cons_of_ne_nil (l := e.2) (by
    rintro hnil
    simpa [hnil] using inlineTags_head e he)
  have hx := inlineTags_head e he
  simp only [hr, List.head?_cons, Option.some.injEq] at hx
  rw [hr, hx] at h
  exact (List.cons.inj h).1

theorem Marked.of_plain_append {a t r : Text} (ha : Plain a) (h : Marked t (a ++ r)) :
    ∃ t', t = a ++ t' ∧ Marked t' r := by
  induction a generalizing t with
  | nil => exact ⟨t, rfl, h⟩
  | cons c a ih =>
    obtain ⟨hc, ha'⟩ := plain_cons_iff.mp ha
    generalize hm : c :: a ++ r = m at h
    cases h with
    | nil => simp at hm
    | char _ h =>
      obtain ⟨rfl, rfl⟩ := List.cons.inj hm
      obtain ⟨t', rfl, ht'⟩ := ih ha' h
      exact ⟨t', rfl, ht'⟩
    | tag he h => exact absurd (ne_lt_of_append he hm) hc

/-- A marker whose two tags stand for it, and which is no part of a tag. -/
structure Inline (mk : Marker) : Prop where
  token_ne_nil : mk.token ≠ []
  token_plain : Plain mk.token
  token_apart : ∀ c ∈ mk.token, ∀ e ∈ inlineTags, c ∉ e.2
  opening_mem : (mk.token, mk.opening) ∈ inlineTags
  closing_mem : (mk.token, mk.closing) ∈ inlineTags

theorem inline_bold : Inline .bold := ⟨by decide, by decide, by decide, by decide, by decide⟩
theorem inline_italic : Inline .italic := ⟨by decide, by decide, by decide, by decide, by decide⟩

theorem length_lt_of_inlineTags {e : Text × Text} (he : e ∈ inlineTags) (m : Text) :
    m.length < (e.2 ++ m).length := by
  have hpos : ∀ e ∈ inlineTags, 0 < e.2.length := by decide
  have he' := hpos e he
  simp only [List.length_append]
  omega

/-- Tags written in a marked text give a marked text. -/
theorem Marked.tagged {mk : Marker} (hmk : Inline mk) {t m m' : Text} (h : Marked t m)
    (hm : mk.Tagged m m') : Marked t m' := by
  induction hn : m.length using Nat.strongRecOn generalizing t m m' with
  | ind n ih =>
    have hplain : ∀ {r}, m = mk.token ++ r → ∃ t', t = mk.token ++ t' ∧ Marked t' r :=
      fun hr => (hr ▸ h).of_plain_append hmk.token_plain
    cases h with
    | nil =>
      generalize hx : [] = x at hm
      cases hm with
      | nil => exact .nil
      | char c hr => simp at hx
      | tag _ hr => exact absurd (List.append_eq_nil_iff.mp hx.symm).1 hmk.token_ne_nil
    | @char c t m hc h =>
      generalize hx : c :: m = x at hm hplain hn
      cases hm with
      | nil => simp at hx
      | char d hr =>
        obtain ⟨rfl, rfl⟩ := List.cons.inj hx
        exact .char hc (ih _ (by simp [← hn]) h hr rfl)
      | @tag tag r m' htag hr =>
        obtain ⟨t', ht, h'⟩ := hplain rfl
        have hpos := List.length_pos_iff.mpr hmk.token_ne_nil
        have hlen : r.length < n := by
          rw [← hn, List.length_append]
          omega
        rw [ht]
        rcases htag with rfl | rfl
        · exact .tag hmk.opening_mem (ih _ hlen h' hr rfl)
        · exact .tag hmk.closing_mem (ih _ hlen h' hr rfl)
    | tag he h =>
      have hapart := fun c hc => hmk.token_apart c hc _ he
      obtain ⟨m', rfl, hr⟩ := hm.through hmk.token_ne_nil hapart
      exact .tag he (ih _ (hn ▸ length_lt_of_inlineTags he _) h hr rfl)

theorem lineBreaks_of_line {t : Text} (h : '\n' ∉ t) : lineBreaks t = t := by
  induction t with
  | nil => rfl
  | cons c r ih =>
    obtain ⟨hc, hr⟩ := not_or.mp fun hm => h (List.mem_cons.mpr hm)
    simp [lineBreaks, ih hr, Ne.symm hc]

theorem Marked.lineBreaks {t m : Text} (h : Marked t m) : Marked t (lineBreaks m) := by
  have hnl : ∀ e ∈ inlineTags, '\n' ∉ e.2 := by decide
  induction h with
  | nil => exact .nil
  | @char c t m hc _ ih =>
    by_cases hn : c = '\n'
    · subst hn
      exact Marked.tag (e := ("\n", "<br>")) (by decide) ih
    · simpa [Html.lineBreaks, hn] using Marked.char hc ih
  | @tag e t m he _ ih =>
    rw [lineBreaks_append, lineBreaks_of_line (hnl e he)]
    exact .tag he ih

theorem Plain.marked_bold {t : Text} (h : Plain t) : Marked t (Emphasis.bold t) :=
  h.marked.tagged inline_bold (Marker.tagged_apply inline_bold.token_ne_nil t)

theorem Plain.marked_inline {t : Text} (h : Plain t) : Marked t (Emphasis.inline t) :=
  h.marked_bold.tagged inline_italic (Marker.tagged_apply inline_italic.token_ne_nil _)

/-- A text that ends a marked text: it begins with `<`, and no inline tag begins like it. -/
structure Stop (stop : Text) : Prop where
  head : stop.head? = some '<'
  apart : ∀ e ∈ inlineTags, ¬ e.2 <+: stop ∧ ¬ stop <+: e.2

theorem Stop.not_tag {stop u r : Text} (hs : Stop stop) {e : Text × Text} (he : e ∈ inlineTags) :
    stop ++ u ≠ e.2 ++ r := by
  intro h
  obtain ⟨hle, hge⟩ := hs.apart e he
  have htag : e.2 <+: stop ++ u := h ▸ List.prefix_append _ _
  rcases List.prefix_or_prefix_of_prefix htag (List.prefix_append stop u) with hp | hp
  · exact hle hp
  · exact hge hp

theorem Stop.not_char {stop u r : Text} (hs : Stop stop) {c : Char} (hc : c ≠ '<') :
    stop ++ u ≠ c :: r := by
  intro h
  obtain ⟨x, s, hx⟩ := List.exists_cons_of_ne_nil (l := stop) (by
    rintro rfl
    simpa using hs.head)
  have hhead := hs.head
  simp only [hx, List.head?_cons, Option.some.injEq] at hhead
  rw [hx] at h
  exact hc (hhead ▸ (List.cons.inj h).1.symm)

/-- The text and what comes after its markup can be told from the two together. -/
theorem Marked.unique {stop t t' m m' u u' : Text} (hs : Stop stop) (h : Marked t m)
    (h' : Marked t' m') (hu : m ++ (stop ++ u) = m' ++ (stop ++ u')) : t = t' ∧ u = u' := by
  induction h generalizing t' m' with
  | nil =>
    cases h' with
    | nil => exact ⟨rfl, List.append_cancel_left hu⟩
    | char hc _ => exact absurd hu (hs.not_char hc)
    | tag he _ => exact absurd (by simpa using hu) (hs.not_tag he)
  | @char c t m hc _ ih =>
    cases h' with
    | nil => exact absurd hu.symm (hs.not_char hc)
    | char _ h' =>
      obtain ⟨rfl, hr⟩ := List.cons.inj hu
      obtain ⟨rfl, rfl⟩ := ih h' hr
      exact ⟨rfl, rfl⟩
    | tag he _ =>
      rw [List.append_assoc] at hu
      exact absurd (ne_lt_of_append he hu) hc
  | @tag e t m he _ ih =>
    rw [List.append_assoc] at hu
    cases h' with
    | nil => exact absurd hu.symm (hs.not_tag he)
    | char hc _ => exact absurd (ne_lt_of_append he hu.symm) hc
    | @tag f t' m' hf h' =>
      rw [List.append_assoc] at hu
      obtain rfl : e = f := by
        have hp : e.2 <+: f.2 ++ (m' ++ (stop ++ u')) := hu ▸ List.prefix_append _ _
        rcases List.prefix_or_prefix_of_prefix hp (List.prefix_append _ _) with hp | hp
        · exact eq_of_inlineTags e he f hf hp
        · exact (eq_of_inlineTags f hf e he hp).symm
      obtain ⟨rfl, rfl⟩ := ih h' (List.append_cancel_left hu)
      exact ⟨rfl, rfl⟩

end Bulletin.Html
