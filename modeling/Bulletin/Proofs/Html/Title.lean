import Bulletin.Proofs.Html.Frame
import Bulletin.Proofs.Html.PlainText

/-! The title element of a document. It holds the plain text of the title of the message. Removing
tags leaves none in a title without comments: an opening bracket that is never closed stays, but
then no closing one follows. Decoding comes last and keeps the brackets of a text whose references
have nothing to do with brackets; but a tag that is written as references stands in the title as a
tag.

Removing tags is done differently on comments by different releases of the filter, so the results
about documents speak of titles without `<!--`. -/

namespace Bulletin.Html
open Text

/-- A `<` with a `>` somewhere after it. -/
def HasTag (t : Text) : Prop := ['<', '>'].Sublist t

instance (t : Text) : Decidable (HasTag t) := inferInstanceAs (Decidable (['<', '>'].Sublist t))

theorem hasTag_lt_cons_iff {t : Text} : HasTag ('<' :: t) ↔ '>' ∈ t := by
  simp [HasTag]

theorem hasTag_plain_append_iff {a t : Text} (ha : Plain a) : HasTag (a ++ t) ↔ HasTag t := by
  induction a with
  | nil => rfl
  | cons c a ih =>
    obtain ⟨hc, ha⟩ := plain_cons_iff.mp ha
    rw [List.cons_append, ← ih ha, HasTag, List.sublist_cons_iff]
    simp [HasTag, Ne.symm hc]

theorem hasTag_filter_iff {t : Text} {keep : Char → Bool} (hl : keep '<' = true)
    (hr : keep '>' = true) : HasTag (t.filter keep) ↔ HasTag t := by
  refine ⟨fun h => h.trans List.filter_sublist, fun h => ?_⟩
  have htag : ['<', '>'].filter keep = ['<', '>'] := by simp [hl, hr]
  rw [HasTag, ← htag]
  exact h.filter keep

/-- A comment is never closed though there is a `>` in it. -/
def OpenComment (t : Text) : Prop :=
  ∃ a p x, Whole a p ∧ t = a ++ ("<!--".toList ++ x) ∧ ¬ "-->".toList <:+: x ∧ '>' ∈ x

/-- Removing tags leaves a tag only where a comment is never closed. -/
theorem hasTag_stripTags_iff {t : Text} : HasTag (stripTags t) ↔ OpenComment t := by
  constructor
  · intro h
    obtain ⟨a, p, b, ha, rfl, hb⟩ := exists_whole t
    rw [ha.stripTags_append, hasTag_plain_append_iff ha.plain] at h
    rcases hb with rfl | hb
    · exact absurd h (by decide)
    · rw [hb.stripTags_eq] at h
      cases hb with
      | tag hend _ => exact absurd (hasTag_lt_cons_iff.mp h) hend
      | @comment x hx =>
        have hm : '>' ∈ "!--".toList ++ x := hasTag_lt_cons_iff.mp h
        exact ⟨a, p, x, ha, rfl, hx, by simpa using hm⟩
  · rintro ⟨a, p, x, ha, rfl, hx, hm⟩
    rw [ha.stripTags_append, (Unclosed.comment hx).stripTags_eq, hasTag_plain_append_iff ha.plain]
    exact hasTag_lt_cons_iff.mpr (by simp [hm])

theorem not_hasTag_stripTags {t : Text} (h : ¬ "<!--".toList <:+: t) : ¬ HasTag (stripTags t) := by
  rw [hasTag_stripTags_iff]
  rintro ⟨a, p, x, -, rfl, -⟩
  exact h ⟨a, x, by rw [List.append_assoc]⟩

theorem hasTag_collapse_iff {t : Text} : HasTag (collapse t) ↔ HasTag t := by
  have hkeep : ∀ {u : Text}, HasTag (u.filter fun c => !isBlank c) ↔ HasTag u :=
    hasTag_filter_iff (by decide) (by decide)
  rw [← hkeep, filter_collapse, hkeep]

/-! ### References -/

def isBracket (c : Char) : Bool := c = '<' || c = '>'

/-- No reference is read as a text with a bracket, and none is written with one. -/
def Harmless : Text → Prop
  | [] => True
  | c :: r => (c = '&' → ∀ q ∈ Entity.reference? r, ∀ d ∈ r.take q.2 ++ q.1, isBracket d = false) ∧
      Harmless r

instance : (t : Text) → Decidable (Harmless t)
  | [] => isTrue trivial
  | _ :: r =>
    have : Decidable (Harmless r) := instDecidableHarmless r
    have : Decidable (∀ q ∈ Entity.reference? r, ∀ d ∈ r.take q.2 ++ q.1, isBracket d = false) :=
      Option.decidableForallMem (Entity.reference? r)
    instDecidableAnd

theorem Harmless.drop {t : Text} (h : Harmless t) (n : Nat) : Harmless (t.drop n) := by
  induction t generalizing n with
  | nil => simpa using h
  | cons c r ih => cases n with
    | zero => exact h
    | succ n => exact ih h.2 n

/-- Decoding keeps the brackets of a text with harmless references, in order. -/
theorem Harmless.filter_decode {t : Text} (h : Harmless t) :
    (Entity.decode t).filter isBracket = t.filter isBracket := by
  induction hn : t.length using Nat.strongRecOn generalizing t with
  | ind n ih =>
    cases t with
    | nil => rfl
    | cons c r =>
      simp only [List.length_cons] at hn
      obtain ⟨hc, hr⟩ := h
      by_cases hamp : c = '&' → Entity.reference? r = none
      · rw [decode_cons hamp, List.filter_cons, List.filter_cons, ih r.length (by omega) hr rfl]
      · simp only [Classical.not_imp, ← Option.isSome_iff_ne_none, Option.isSome_iff_exists,
          Prod.exists] at hamp
        obtain ⟨rfl, x, k, href⟩ := hamp
        have hbare : (r.take k ++ x).filter isBracket = [] :=
          List.filter_eq_nil_iff.mpr fun d hd => by simp [hc rfl (x, k) href d hd]
        rw [List.filter_append, List.append_eq_nil_iff] at hbare
        have hrest := ih (r.drop k).length (by simp only [List.length_drop]; omega) (hr.drop k) rfl
        calc (Entity.decode ('&' :: r)).filter isBracket
            = (Entity.decode (r.drop k)).filter isBracket := by
              rw [decode_reference href, List.filter_append, hbare.2, List.nil_append]
          _ = (r.take k ++ r.drop k).filter isBracket := by
              rw [hrest, List.filter_append, hbare.1, List.nil_append]
          _ = ('&' :: r).filter isBracket := by
              rw [List.take_append_drop]
              rfl

theorem Harmless.hasTag_decode_iff {t : Text} (h : Harmless t) :
    HasTag (Entity.decode t) ↔ HasTag t := by
  have hkeep : ∀ {u : Text}, HasTag (u.filter isBracket) ↔ HasTag u :=
    hasTag_filter_iff (by decide) (by decide)
  rw [← hkeep, h.filter_decode, hkeep]

def titleAddress : Address := [1, 5]

theorem page_at_title (m : Message) (content : List Node) :
    (page m content).at? titleAddress = some (leaf "title" [] (plainText m.title)) := rfl

theorem before_title (m : Message) (content : List Node) :
    (page m content).before titleAddress = (page { body := [] } []).before titleAddress := rfl

end Bulletin.Html

namespace Bulletin.Message
open Html

def upToTitle : Text := firstLine ++ (page { body := [] } []).before titleAddress

theorem not_infix_upToTitle : ¬ "<title>".toList <:+: upToTitle :=
  Text.cut?_eq_none_iff.mp (by decide +kernel)

theorem render_title (m : Message) : ∃ rest, m.render =
    upToTitle ++ ("<title>".toList ++ plainText m.title ++ "</title>".toList) ++ rest := by
  have hleaf : (leaf "title" [] (plainText m.title)).render =
      "<title>".toList ++ plainText m.title ++ "</title>".toList := by
    rw [leaf, Node.render_element]
    simp [Node.render_text, openTag, closeTag, renderAttributes]
  have hpage := Node.render_at (page_at_title m m.content)
  rw [hleaf, before_title] at hpage
  have hrender : m.render = firstLine ++ (page m m.content).render ++ ['\n'] := rfl
  refine ⟨(page m m.content).after titleAddress ++ ['\n'], ?_⟩
  rw [hrender, hpage, upToTitle]
  simp only [List.append_assoc]

/-- Every document begins alike up to its title element, which holds the plain text of the title. In
a title without comments no tag is left before its references are decoded, and none is after that if
these references are harmless. Where tags and references are written as references, the title
element holds the text with these tags. -/
theorem hasTag_title (m : Message) :
    ¬ "<title>".toList <:+: upToTitle ∧
    (∀ document, m.document? = some document → ∃ rest, document =
      upToTitle ++ ("<title>".toList ++ plainText m.title ++ "</title>".toList) ++ rest) ∧
    (¬ "<!--".toList <:+: m.title →
      ¬ HasTag (collapse (stripTags m.title)) ∧
      (Harmless (collapse (stripTags m.title)) → ¬ HasTag (plainText m.title))) ∧
    ∀ t : Text, m.title = numbered t →
      plainText m.title = collapse t ∧ (HasTag (plainText m.title) ↔ HasTag t) := by
  refine ⟨not_infix_upToTitle, fun document h => ?_, fun hcomment => ?_, fun t ht => ?_⟩
  · rw [eq_render_of_document? h]
    exact render_title m
  · have hstrip : ¬ HasTag (collapse (stripTags m.title)) := fun h =>
      not_hasTag_stripTags hcomment (hasTag_collapse_iff.mp h)
    refine ⟨hstrip, fun h => ?_⟩
    rwa [plainText, h.hasTag_decode_iff]
  · rw [ht, plainText_numbered]
    exact ⟨rfl, hasTag_collapse_iff⟩

/-- A title with a tag, a harmless reference, and an opening bracket that is never closed; and one
whose tag is written as references. -/
theorem hasTag_title_open :
    let t : Text := "a <b>x</b> &#38; <y"
    let u : Text := "&#60;b&#62;"
    plainText t = "a x & <y" ∧ ¬ "<!--".toList <:+: t ∧ Harmless (collapse (stripTags t)) ∧
      ¬ HasTag (plainText t) ∧ plainText u = "<b>" ∧ HasTag (plainText u) := by
  intro t u
  obtain ⟨-, -, ht, -⟩ := hasTag_title { body := [], title := t }
  obtain ⟨-, -, -, hu⟩ := hasTag_title { body := [], title := u }
  have hcomment : ¬ "<!--".toList <:+: t := by decide
  have hharmless : Harmless (collapse (stripTags t)) := by decide
  obtain ⟨hplain, htag⟩ := hu "<b>" (by decide)
  exact ⟨by decide, hcomment, hharmless, (ht hcomment).2 hharmless, hplain,
    htag.mpr (by decide)⟩

/-- The end of the title element and a tag after it, written as references: both stand in the head
of the document as tags. -/
theorem title_ends_early :
    let m : Message := { body := [], title := "&#60;/title&#62;&#60;b&#62;" }
    ¬ "<title>".toList <:+: upToTitle ∧
      (∃ rest, m.document? = some
        (upToTitle ++ ("<title>".toList ++ "</title><b>".toList ++ "</title>".toList) ++ rest)) ∧
      HasTag "</title><b>" ∧ ¬ ∀ m : Message, ¬ HasTag (plainText m.title) := by
  intro m
  have hplain : plainText m.title = "</title><b>" := by decide
  have htag : HasTag "</title><b>" := by decide
  obtain ⟨rest, hrender⟩ := render_title m
  rw [hplain] at hrender
  have hdocument : m.document? = some m.render := if_pos (by decide)
  exact ⟨not_infix_upToTitle, ⟨rest, hdocument.trans (congrArg some hrender)⟩, htag,
    fun h => h m (hplain ▸ htag)⟩

end Bulletin.Message
