import Bulletin.Proofs.Html.Card
import Bulletin.Proofs.Html.Tag

/-! Nesting of rendered markup. A piece of markup either closes what it opens, wherever it stands,
or spoils the nesting wherever it stands; which of the two is decided by the author texts in it.
Bold emphasis comes in pairs of tags with plain text between, so a card of plain texts is always
well nested. -/

namespace Bulletin.Html

/-- Wherever it stands, the markup `t` closes what it opens if `P` holds, and spoils the nesting if
it does not. -/
def NestsIff (P : Prop) (t : Text) : Prop :=
  ∃ ts, Reads t ts ∧ ∀ opened,
    (P → openAfter opened ts = some opened) ∧ (¬ P → openAfter opened ts = none)

abbrev Nests (t : Text) : Prop := NestsIff True t

theorem NestsIff.congr {P Q : Prop} {t : Text} (h : NestsIff P t) (hPQ : P ↔ Q) : NestsIff Q t :=
  propext hPQ ▸ h

theorem NestsIff.wellNested_iff {P : Prop} {t : Text} (h : NestsIff P t) : WellNested t ↔ P := by
  obtain ⟨ts, hreads, hopen⟩ := h
  obtain ⟨hyes, hno⟩ := hopen []
  rw [WellNested, hreads.tags_eq]
  by_cases hP : P
  · simp [hP, hyes hP]
  · simp [hP, hno hP]

theorem Nests.wellNested {t : Text} (h : Nests t) : WellNested t := h.wellNested_iff.mpr trivial

theorem nests_of_reads {t : Text} (h : Reads t []) : Nests t := ⟨[], h, by simp⟩

theorem Plain.nests {t : Text} (h : Plain t) : Nests t := nests_of_reads h.reads

theorem NestsIff.append {P Q : Prop} {a b : Text} (ha : NestsIff P a) (hb : NestsIff Q b) :
    NestsIff (P ∧ Q) (a ++ b) := by
  obtain ⟨ts, hts, hP⟩ := ha
  obtain ⟨us, hus, hQ⟩ := hb
  refine ⟨ts ++ us, hts.append hus, fun opened => ⟨fun h => ?_, fun h => ?_⟩⟩
  · simp [(hP opened).1 h.1, (hQ opened).1 h.2]
  · by_cases hp : P
    · simp [(hP opened).1 hp, (hQ opened).2 fun hq => h ⟨hp, hq⟩]
    · simp [(hP opened).2 hp]

theorem Nests.append {a b : Text} (ha : Nests a) (hb : Nests b) : Nests (a ++ b) :=
  (NestsIff.append ha hb).congr (by simp)

theorem nestsIff_renderAll {α : Type} {f : α → Node} {P : α → Prop} {xs : List α}
    (h : ∀ x ∈ xs, NestsIff (P x) (f x).render) :
    NestsIff (∀ x ∈ xs, P x) (renderAll (xs.map f)) := by
  induction xs with
  | nil => exact (nests_of_reads reads_nil).congr (by simp)
  | cons x xs ih =>
    rw [List.map_cons, renderAll_cons]
    have hxs := ih fun y hy => h y (List.mem_cons_of_mem x hy)
    exact ((h x List.mem_cons_self).append hxs).congr (by simp)

theorem nests_renderAll {xs : List Node} (h : ∀ x ∈ xs, Nests x.render) :
    Nests (renderAll xs) := by
  have hall := nestsIff_renderAll (f := id) (P := fun _ => True) h
  rw [List.map_id] at hall
  exact hall.congr (by simp)

theorem nests_newline (depth : Nat) : Nests (newline depth).render := by
  have h : Plain (newline depth).render := by simp [Plain, newline, Node.render_text]
  exact h.nests

theorem nests_comment {content : Text} (h : '-' ∉ content) : Nests (Node.comment content).render :=
  nests_of_reads (reads_comment h)

theorem nests_void {name : String} {as : Attributes} (h : IsName name)
    (hvoid : name.toList ∈ voidNames) (ha : IsAttributes as) : Nests (Node.void name as).render := by
  rw [Node.render_void]
  refine nests_of_reads ?_
  simpa [hvoid] using reads_openTag h ha

structure IsElement (name : String) : Prop where
  isName : IsName name
  notVoid : name.toList ∉ voidNames

def elementNames : List String :=
  ["html", "head", "title", "body", "table", "tr", "td", "div", "h1", "h2", "p", "a", "ul", "li", "b"]

theorem isElement {name : String} (h : elementNames.contains name = true) : IsElement name := by
  have hall : ∀ name ∈ elementNames, IsName name ∧ name.toList ∉ voidNames := by decide
  have hname := hall name (List.contains_iff_mem.mp h)
  exact ⟨hname.1, hname.2⟩

theorem IsElement.reads_openTag {name : String} {as : Attributes} (h : IsElement name)
    (ha : IsAttributes as) : Reads (openTag name as) [.opening name] := by
  simpa [h.notVoid] using Html.reads_openTag h.isName ha

theorem reads_element {name : String} {as : Attributes} {xs : List Node} {ts : List Tag}
    (h : IsElement name) (ha : IsAttributes as) (hts : Reads (renderAll xs) ts) :
    Reads (Node.element name as xs).render (.opening name :: ts ++ [.closing name]) := by
  rw [Node.render_element]
  exact ((h.reads_openTag ha).append hts).append (reads_closeTag h.isName)

theorem nestsIff_element {P : Prop} {name : String} {as : Attributes} {xs : List Node}
    (h : IsElement name) (ha : IsAttributes as) (hxs : NestsIff P (renderAll xs)) :
    NestsIff P (Node.element name as xs).render := by
  obtain ⟨ts, hts, hP⟩ := hxs
  refine ⟨_, reads_element h ha hts, fun opened => ⟨fun hp => ?_, fun hp => ?_⟩⟩
  · simp [Tag.after?, (hP (name.toList :: opened)).1 hp]
  · simp [Tag.after?, (hP (name.toList :: opened)).2 hp]

theorem nests_leaf {name : String} {as : Attributes} {content : Text} (h : IsElement name)
    (ha : IsAttributes as) (hc : Nests content) : Nests (leaf name as content).render := by
  refine nestsIff_element h ha ?_
  simpa [Node.render_text] using hc

theorem mem_stack {depth outer : Nat} {xs : List Node} {x : Node} (h : x ∈ stack depth outer xs) :
    x = newline depth ∨ x = newline outer ∨ x ∈ xs := by
  simp only [stack, List.mem_append, List.mem_flatMap, List.mem_cons, List.not_mem_nil,
    or_false] at h
  rcases h with ⟨y, hy, rfl | rfl⟩ | rfl
  · exact Or.inl rfl
  · exact Or.inr (Or.inr hy)
  · exact Or.inr (Or.inl rfl)

theorem nests_stack {depth outer : Nat} {xs : List Node} (h : ∀ x ∈ xs, Nests x.render) :
    Nests (renderAll (stack depth outer xs)) := by
  refine nests_renderAll fun x hx => ?_
  rcases mem_stack hx with rfl | rfl | hx
  · exact nests_newline depth
  · exact nests_newline outer
  · exact h x hx

theorem nests_block {depth : Nat} {name : String} {as : Attributes} {xs : List Node}
    (h : IsElement name) (ha : IsAttributes as) (hxs : ∀ x ∈ xs, Nests x.render) :
    Nests (block depth name as xs).render :=
  nestsIff_element h ha (nests_stack hxs)

/-- Among nodes that nest, one node decides. -/
theorem nestsIff_stack {P : Prop} {depth outer : Nat} {before after : List Node} {x : Node}
    (hbefore : ∀ y ∈ before, Nests y.render) (hx : NestsIff P x.render)
    (hafter : ∀ y ∈ after, Nests y.render) :
    NestsIff P (renderAll (stack depth outer (before ++ x :: after))) := by
  have hsplit : renderAll (stack depth outer (before ++ x :: after)) =
      renderAll (stack depth depth before) ++ x.render ++ renderAll (stack depth outer after) := by
    simp [stack]
  rw [hsplit]
  have hstart : Nests (renderAll (stack depth depth before)) := nests_stack hbefore
  exact ((NestsIff.append hstart hx).append (nests_stack hafter)).congr (by simp)

theorem nestsIff_block {P : Prop} {depth : Nat} {name : String} {as : Attributes}
    {before after : List Node} {x : Node} (h : IsElement name) (ha : IsAttributes as)
    (hbefore : ∀ y ∈ before, Nests y.render) (hx : NestsIff P x.render)
    (hafter : ∀ y ∈ after, Nests y.render) :
    NestsIff P (block depth name as (before ++ x :: after)).render :=
  nestsIff_element h ha (nestsIff_stack hbefore hx hafter)

theorem nestsIff_block_singleton {P : Prop} {depth : Nat} {name : String} {as : Attributes}
    {x : Node} (h : IsElement name) (ha : IsAttributes as) (hx : NestsIff P x.render) :
    NestsIff P (block depth name as [x]).render :=
  @nestsIff_block P depth name as [] [] x h ha (by simp) hx (by simp)

/-! ### Attributes -/

theorem isAttributes_nil : IsAttributes [] := by simp [IsAttributes]

theorem isAttributes_style (rules : Text) : IsAttributes (style rules) := by
  simp [IsAttributes, style]

theorem isAttributes_layout (width : Text) : IsAttributes (layout width) := by
  simp [IsAttributes, layout, spacing]

theorem isAttributes_cons {name : String} {value : Text} {as : Attributes}
    (hname : '>' ∉ name.toList) (ha : IsAttributes as) : IsAttributes ((name, value) :: as) :=
  List.forall_mem_cons.mpr ⟨hname, ha⟩

theorem IsAttributes.append {as bs : Attributes} (ha : IsAttributes as) (hb : IsAttributes bs) :
    IsAttributes (as ++ bs) := fun a hm => (List.mem_append.mp hm).elim (ha a) (hb a)

/-! ### Emphasis -/

theorem nests_char {c : Char} (h : c ≠ '<') : Nests [c] := nests_of_reads (reads_char h)

theorem Plain.lineBreaks_nests {t : Text} (h : Plain t) : Nests (lineBreaks t) := by
  induction t with
  | nil => exact nests_of_reads reads_nil
  | cons c t ih =>
    obtain ⟨hc, ht⟩ := plain_cons_iff.mp h
    refine Nests.append ?_ (ih ht)
    split
    · exact @nests_void "br" [] (by decide) (by decide) isAttributes_nil
    · exact nests_char hc

/-- Bold text nests, and so does what is made of it by a function that keeps tags and makes markup
that nests of plain text. -/
theorem Plain.nests_bold {f : Text → Text} (happend : ∀ a b, f (a ++ b) = f a ++ f b)
    (hplain : ∀ t, Plain t → Nests (f t)) (hopening : f Marker.bold.opening = openTag "b" [])
    (hclosing : f Marker.bold.closing = closeTag "b") {t : Text} (h : Plain t) :
    Nests (f (Emphasis.bold t)) := by
  have hpaired : Marker.bold.Paired t (Emphasis.bold t) :=
    Marker.paired_apply inline_bold.token_ne_nil t
  generalize Emphasis.bold t = m at hpaired
  induction hpaired with
  | nil => exact hplain [] (by simp [Plain])
  | @char c t m _ ih =>
    obtain ⟨hc, ht⟩ := plain_cons_iff.mp h
    rw [← List.singleton_append, happend]
    exact (hplain [c] (plain_cons_iff.mpr ⟨hc, by simp [Plain]⟩)).append (ih ht)
  | @span inner t m _ ih =>
    simp only [plain_append_iff] at h
    obtain ⟨-, hinner, -, ht⟩ := h
    -- the two tags and the text between them are an element
    have hspan : Nests (leaf "b" [] (f inner)).render :=
      nests_leaf (isElement rfl) isAttributes_nil (hplain inner hinner)
    rw [happend, happend, happend, hopening, hclosing]
    have hrest := hspan.append (ih ht)
    rwa [render_leaf_append] at hrest

theorem Plain.bold_nests {t : Text} (h : Plain t) : Nests (Emphasis.bold t) :=
  h.nests_bold (f := id) (fun _ _ => rfl) (fun _ ht => ht.nests) rfl rfl

theorem Plain.lineBreaks_bold_nests {t : Text} (h : Plain t) :
    Nests (lineBreaks (Emphasis.bold t)) :=
  h.nests_bold lineBreaks_append (fun _ ht => ht.lineBreaks_nests) rfl rfl

/-! ### Cards -/

theorem nests_bullets {listStyle itemStyle : Text} {items : List Text}
    (h : ∀ x ∈ items, Plain x) : Nests (bullets listStyle itemStyle items).render := by
  refine nestsIff_element (isElement rfl) (isAttributes_style _) (nests_renderAll fun x hx => ?_)
  obtain ⟨item, hitem, rfl⟩ := List.mem_map.mp hx
  exact nests_leaf (isElement rfl) (isAttributes_style _) (h item hitem).bold_nests

theorem nests_cardSection {s : Section} (h : ∀ x ∈ s.texts, Plain x) :
    Nests (cardSection s).render := by
  cases s with
  | list items => exact nests_bullets h
  | paragraph text =>
    have ht : Plain text := h text (by simp [Section.texts])
    exact nests_leaf (isElement rfl) (isAttributes_style _) ht.lineBreaks_bold_nests

theorem nests_codeRow {code : Option Text} (h : ∀ x ∈ code, Plain x) :
    Nests (codeRow code).render := by
  cases code with
  | none =>
    refine nestsIff_element (isElement rfl) isAttributes_nil (nests_renderAll fun x hx => ?_)
    obtain rfl := List.mem_singleton.mp hx
    exact nestsIff_element (isElement rfl) (isAttributes_style _) (nests_renderAll (by simp))
  | some code =>
    have hc : Plain code := h code rfl
    refine nestsIff_block_singleton (isElement rfl) isAttributes_nil ?_
    refine nestsIff_block_singleton (isElement rfl) (isAttributes_style _) ?_
    exact nests_leaf (isElement rfl) (isAttributes_style _) hc.lineBreaks_nests

theorem nests_closingRows {closing : Option ClosingList}
    (h : ∀ l ∈ closing, Plain l.title ∧ ∀ x ∈ l.items, Plain x) :
    ∀ x ∈ closingRows closing, Nests x.render := by
  intro x hx
  cases closing with
  | none => simp [closingRows] at hx
  | some l =>
    obtain ⟨htitle, hitems⟩ := h l rfl
    rcases List.mem_cons.mp hx with rfl | hx
    · exact nests_comment (by decide)
    obtain rfl := List.mem_singleton.mp hx
    refine nestsIff_block_singleton (isElement rfl)
      ((isAttributes_layout _).append (isAttributes_style _)) ?_
    refine nestsIff_block_singleton (isElement rfl) isAttributes_nil ?_
    refine nests_block (isElement rfl) (isAttributes_style _) fun x hx => ?_
    rcases List.mem_cons.mp hx with rfl | hx
    · exact nests_leaf (isElement rfl) (isAttributes_style _) htitle.nests
    · obtain rfl := List.mem_singleton.mp hx
      exact nests_bullets hitems

theorem nests_card {c : Card} (h : PlainCard c) : Nests (card c).render := by
  refine nestsIff_block_singleton (isElement rfl)
    ((isAttributes_layout _).append (isAttributes_style _)) ?_
  refine nestsIff_block_singleton (isElement rfl) isAttributes_nil ?_
  refine nests_block (isElement rfl) (isAttributes_style _) fun x hx => ?_
  simp only [List.mem_append, List.mem_cons, List.not_mem_nil, or_false, List.mem_map] at hx
  rcases hx with (((rfl | rfl) | ⟨s, hs, rfl⟩) | rfl | rfl) | hx
  · exact nests_leaf (isElement rfl) (isAttributes_style _) h.title.nests
  · exact nests_comment (by decide)
  · exact nests_cardSection (h.sections s hs)
  · exact nests_comment (by decide)
  · exact nestsIff_block_singleton (isElement rfl) (isAttributes_layout _) (nests_codeRow h.code)
  · exact nests_closingRows h.closing x hx

/-! ### Paragraphs -/

/-- Markup of author text holds tags of bold and italic elements only. -/
theorem Marked.exists_reads {t m : Text} (h : Marked t m) :
    ∃ ts, Reads m ts ∧ ∀ tag ∈ ts, tag ∈ [Tag.opening "b", .closing "b", .opening "i",
      .closing "i"] := by
  induction h with
  | nil => exact ⟨[], reads_nil, by simp⟩
  | char hc _ ih =>
    obtain ⟨ts, hts, hall⟩ := ih
    exact ⟨ts, (reads_char hc).append hts, hall⟩
  | @tag e t m he _ ih =>
    obtain ⟨ts, hts, hall⟩ := ih
    have hform : ∀ e ∈ inlineTags, e.2 = '<' :: (e.2.tail.dropLast ++ ['>']) ∧
        '>' ∉ e.2.tail.dropLast ∧ "!--".toList.isPrefixOf e.2.tail.dropLast = false ∧
        ∀ tag ∈ (Tag.ofText? e.2).toList, tag ∈ [Tag.opening "b", .closing "b", .opening "i",
          .closing "i"] := by decide
    obtain ⟨htext, hend, hcomment, htag⟩ := hform e he
    have hreads := reads_tag hend (by
      rw [← List.isPrefixOf_iff_prefix, hcomment]
      simp)
    rw [← htext] at hreads
    refine ⟨_, hreads.append hts, fun tag hm => ?_⟩
    rcases List.mem_append.mp hm with hm | hm
    · exact htag tag hm
    · exact hall tag hm

/-- Tags that have another name neither close an element nor reach below it. -/
theorem openAfter_within {name : Text} {ts : List Tag} (h : Tag.closing name ∉ ts)
    (inner outer : List Text) : openAfter (inner ++ name :: outer) ts =
      (openAfter inner ts).map fun o => o ++ name :: outer := by
  induction ts generalizing inner with
  | nil => simp
  | cons tag ts ih =>
    simp only [List.mem_cons, not_or] at h
    cases tag with
    | opening n => simpa [Tag.after?] using ih h.2 (n :: inner)
    | broken => simp [Tag.after?]
    | closing n =>
      cases inner with
      | nil =>
        have hn : name ≠ n := by
          rintro rfl
          exact h.1 rfl
        simp [Tag.after?, hn]
      | cons top inner =>
        by_cases htop : top = n
        · simpa [Tag.after?, htop] using ih h.2 inner
        · simp [Tag.after?, htop]

theorem mem_of_openAfter {ts : List Tag} {opened opened' : List Text} {name : Text}
    (h : openAfter opened ts = some opened') (hname : name ∈ opened') :
    name ∈ opened ∨ Tag.opening name ∈ ts := by
  induction ts generalizing opened with
  | nil =>
    simp only [openAfter_nil, Option.some.injEq] at h
    exact Or.inl (h ▸ hname)
  | cons tag ts ih =>
    rw [openAfter_cons, Option.bind_eq_some_iff] at h
    obtain ⟨o, ho, hts⟩ := h
    rcases ih hts with hm | hm
    · cases tag with
      | opening n =>
        simp only [Tag.after?, Option.some.injEq] at ho
        rcases List.mem_cons.mp (ho ▸ hm) with rfl | hm
        · exact Or.inr List.mem_cons_self
        · exact Or.inl hm
      | broken => simp [Tag.after?] at ho
      | closing n =>
        cases opened with
        | nil => simp [Tag.after?] at ho
        | cons top outer =>
          simp only [Tag.after?, Option.ite_none_right_eq_some, Option.some.injEq] at ho
          exact Or.inl (List.mem_cons_of_mem top (ho.2 ▸ hm))
    · exact Or.inr (List.mem_cons_of_mem tag hm)

/-- An element around marked text nests exactly where the text by itself is well nested, if the
text cannot hold tags of the element. -/
theorem nestsIff_leaf {name : String} {as : Attributes} {t m : Text} (h : IsElement name)
    (ha : IsAttributes as) (hname : name.toList ∉ ["b".toList, "i".toList]) (hm : Marked t m) :
    NestsIff (WellNested m) (leaf name as m).render := by
  obtain ⟨ts, hts, hall⟩ := hm.exists_reads
  have hclosing : Tag.closing name.toList ∉ ts := fun hmem => by
    simpa using hname (by simpa using hall _ hmem)
  have hopening : Tag.opening name.toList ∉ ts := fun hmem => by
    simpa using hname (by simpa using hall _ hmem)
  refine ⟨_, reads_element h ha (by simpa [Node.render_text] using hts), fun opened => ?_⟩
  have hwithin := openAfter_within hclosing [] opened
  rw [List.nil_append] at hwithin
  rw [WellNested, hts.tags_eq]
  cases ho : openAfter [] ts with
  | none => simp [Tag.after?, hwithin, ho]
  | some o =>
    cases o with
    | nil => simp [Tag.after?, hwithin, ho]
    | cons top o =>
      have htop : top ≠ name.toList := by
        rintro rfl
        rcases mem_of_openAfter ho List.mem_cons_self with hmem | hmem
        · simp at hmem
        · exact hopening hmem
      simp [Tag.after?, hwithin, ho, htop]

end Bulletin.Html
