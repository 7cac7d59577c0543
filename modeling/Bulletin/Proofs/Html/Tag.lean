import Bulletin.Html.PlainText
import Bulletin.Proofs.Html.Marked
import Bulletin.Proofs.Text.Split

/-! The tags of markup, read from left to right. Comments, declarations and void elements are passed
over. Markup is well nested if every closing tag closes the element that was opened last, and no
element is left open. A piece of markup whose tags are read the same whatever follows can be read
apart from it. -/

namespace Bulletin.Html

/-- A tag of an element that has content, or one that does not end. -/
inductive Tag where
  | opening (name : Text)
  | closing (name : Text)
  | broken
deriving DecidableEq, Repr

/-- The elements that have neither content nor a closing tag. -/
def voidNames : List Text := ["br", "img", "meta"]

def tagName (t : Text) : Text := t.takeWhile fun c => !Text.isBlank c && c ≠ '>' && c ≠ '/'

namespace Tag

/-- The tag that a text in angle brackets is; a comment, a declaration and a void element are
none. -/
def ofText? : Text → Option Tag
  | '<' :: '!' :: _ => none
  | '<' :: '/' :: r => some (.closing (tagName r))
  | '<' :: r => if tagName r ∈ voidNames then none else some (.opening (tagName r))
  | _ => none

/-- The elements that are open after a tag, the innermost first; none where the tag does not fit. -/
def after? (opened : List Text) : Tag → Option (List Text)
  | .opening name => some (name :: opened)
  | .closing name => match opened with
    | [] => none
    | top :: outer => if top = name then some outer else none
  | .broken => none

end Tag

/-- One pass from left to right. The count says how many characters belong to a tag that is already
read. -/
def tagsFrom : Nat → Text → List Tag
  | _, [] => []
  | read + 1, _ :: r => tagsFrom read r
  | 0, c :: r =>
    if c = '<' then match tagLength? (c :: r) with
      | some n => (Tag.ofText? ((c :: r).take n)).toList ++ tagsFrom (n - 1) r
      | none => [.broken]
    else tagsFrom 0 r

def tags (t : Text) : List Tag := tagsFrom 0 t

def openAfter (opened : List Text) (ts : List Tag) : Option (List Text) :=
  ts.foldlM Tag.after? opened

/-- Every closing tag closes the element that was opened last, and no element is left open. -/
def WellNested (t : Text) : Prop := openAfter [] (tags t) = some []

instance (t : Text) : Decidable (WellNested t) :=
  inferInstanceAs (Decidable (openAfter [] (tags t) = some []))

@[simp] theorem tags_nil : tags [] = [] := rfl
@[simp] theorem openAfter_nil (opened : List Text) : openAfter opened [] = some opened := rfl

@[simp] theorem openAfter_cons (opened : List Text) (tag : Tag) (ts : List Tag) :
    openAfter opened (tag :: ts) = (tag.after? opened).bind fun o => openAfter o ts :=
  List.foldlM_cons

@[simp] theorem openAfter_append (opened : List Text) (ts us : List Tag) :
    openAfter opened (ts ++ us) = (openAfter opened ts).bind fun o => openAfter o us :=
  List.foldlM_append

theorem tagsFrom_skip (n : Nat) (t : Text) : tagsFrom n t = tags (t.drop n) := by
  induction t generalizing n with
  | nil => cases n <;> rfl
  | cons c r ih => cases n with
    | zero => rfl
    | succ n => simp [tagsFrom, ih]

/-- The tags of `t` are `ts`, whatever follows. -/
def Reads (t : Text) (ts : List Tag) : Prop := ∀ r, tags (t ++ r) = ts ++ tags r

theorem reads_nil : Reads [] [] := fun _ => rfl

theorem Reads.append {a b : Text} {as bs : List Tag} (ha : Reads a as) (hb : Reads b bs) :
    Reads (a ++ b) (as ++ bs) := by
  intro r
  rw [List.append_assoc, ha, hb, List.append_assoc]

theorem Reads.tags_eq {t : Text} {ts : List Tag} (h : Reads t ts) : tags t = ts := by
  simpa using h []

theorem reads_char {c : Char} (h : c ≠ '<') : Reads [c] [] := fun r => by
  simp [tags, tagsFrom, h]

theorem Plain.reads {t : Text} (h : Plain t) : Reads t [] := by
  induction t with
  | nil => exact reads_nil
  | cons c t ih =>
    obtain ⟨hc, ht⟩ := plain_cons_iff.mp h
    exact (reads_char hc).append (ih ht)

theorem tags_of_tagLength {a r : Text} (h : tagLength? ('<' :: (a ++ r)) = some (a.length + 1)) :
    tags ('<' :: (a ++ r)) = (Tag.ofText? ('<' :: a)).toList ++ tags r := by
  have htake : ('<' :: (a ++ r)).take (a.length + 1) = '<' :: a := by simp
  rw [tags, tagsFrom, if_pos rfl, h]
  simp only [htake, Nat.add_sub_cancel, tagsFrom_skip, List.drop_left]

theorem tagLength?_of_comment (r : Text) :
    tagLength? ("<!--".toList ++ r) = (r.cut? "-->").map fun p => p.1.length + 7 := by
  have hopen : "<!--".toList <+: "<!--".toList ++ r := List.prefix_append _ _
  simp only [tagLength?, List.isPrefixOf_iff_prefix, if_pos hopen]
  rfl

theorem tagLength?_of_tag {r : Text} (h : ¬ "!--".toList <+: r) :
    tagLength? ('<' :: r) = (r.cut? ['>']).map fun p => p.1.length + 2 := by
  have hopen : ¬ "<!--".toList <+: '<' :: r := fun hp => h (List.cons_prefix_cons.mp hp).2
  have hskip : ¬ ['>'] <+: '<' :: r := by simp
  simp only [tagLength?, List.isPrefixOf_iff_prefix, if_neg hopen, Text.cut?_cons_skip hskip,
    Option.map_map]
  rfl

theorem tagLength?_tag {a : Text} (r : Text) (hend : '>' ∉ a) (hcomment : ¬ "!--".toList <+: a) :
    tagLength? ('<' :: (a ++ '>' :: r)) = some (a.length + 2) := by
  have hopen : ¬ "!--".toList <+: a ++ '>' :: r := fun hp =>
    hcomment (Text.prefix_of_prefix_append_cons (by decide) hp)
  rw [tagLength?_of_tag hopen, Text.cut?_mark hend]
  rfl

theorem tagLength?_comment {content : Text} (r : Text) (h : ¬ "-->".toList <:+: content) :
    tagLength? ("<!--".toList ++ (content ++ ("-->".toList ++ r))) = some (content.length + 7) := by
  have hcut : Text.cut? (content ++ ("-->".toList ++ r)) "-->" = some (content, r) := by
    refine Text.cut?_append (by simp) fun s hs hsuffix hp => ?_
    -- a mark that begins in the comment ends with the first bracket after it, so it lies in it
    match s, hs with
    | [_], _ => simp [List.cons_prefix_cons] at hp
    | [_, _], _ => simp [List.cons_prefix_cons] at hp
    | c :: d :: e :: s, _ =>
      have hmark : "-->".toList <+: c :: d :: e :: s := by
        simpa [List.cons_prefix_cons] using hp
      exact h (hmark.isInfix.trans hsuffix.isInfix)
  rw [tagLength?_of_comment, hcut]
  rfl

theorem reads_tag {a : Text} (hend : '>' ∉ a) (hcomment : ¬ "!--".toList <+: a) :
    Reads ('<' :: (a ++ ['>'])) (Tag.ofText? ('<' :: (a ++ ['>']))).toList := by
  intro r
  refine tags_of_tagLength ?_
  simpa using tagLength?_tag r hend hcomment

@[simp] theorem Tag.ofText?_declaration (r : Text) : Tag.ofText? ('<' :: '!' :: r) = none := rfl

theorem reads_comment {content : Text} (h : '-' ∉ content) :
    Reads (Node.comment content).render [] := by
  intro r
  have hclosed : ¬ "-->".toList <:+: ' ' :: content ++ [' '] := by
    intro hi
    have hm : '-' ∈ ' ' :: content ++ [' '] := hi.subset (by simp)
    simp [h] at hm
  have hlength : tagLength? ('<' :: ("!-- ".toList ++ content ++ " -->".toList ++ r)) =
      some (("!-- ".toList ++ content ++ " -->".toList).length + 1) := by
    simpa using tagLength?_comment r hclosed
  have htext : (Node.comment content).render ++ r =
      '<' :: ("!-- ".toList ++ content ++ " -->".toList ++ r) := by
    simp [Node.render_comment]
  rw [htext, tags_of_tagLength hlength]
  rfl

def IsName (name : Text) : Prop :=
  name ≠ [] ∧ ∀ c ∈ name, Text.isBlank c = false ∧ c ≠ '>' ∧ c ≠ '/' ∧ c ≠ '!'

instance (name : Text) : Decidable (IsName name) :=
  inferInstanceAs (Decidable (name ≠ [] ∧
    ∀ c ∈ name, Text.isBlank c = false ∧ c ≠ '>' ∧ c ≠ '/' ∧ c ≠ '!'))

def IsAttributes (as : Attributes) : Prop := ∀ a ∈ as, '>' ∉ a.1.toList

theorem end_notMem_renderAttributes {as : Attributes} (h : IsAttributes as) :
    '>' ∉ renderAttributes as := by
  intro hm
  obtain ⟨a, ha, hm⟩ := List.mem_flatMap.mp hm
  have hvalue : '>' ∈ escape a.2 := by simpa [renderAttribute, h a ha] using hm
  exact (escape_safe a.2 '>' hvalue).2.2.2 rfl

theorem tagName_append {name : Text} (h : IsName name) (as : Attributes) :
    tagName (name ++ (renderAttributes as ++ ['>'])) = name := by
  have hname : ∀ c ∈ name, (!Text.isBlank c && c ≠ '>' && c ≠ '/') = true := by
    intro c hc
    obtain ⟨hb, he, hs, -⟩ := h.2 c hc
    simp [hb, he, hs]
  rw [tagName, List.takeWhile_append_of_pos hname]
  cases as with
  | nil => simp [renderAttributes]
  | cons a as => simp [renderAttributes, renderAttribute]

theorem not_comment_of_isName {name r : Text} (h : IsName name) : ¬ "!--".toList <+: name ++ r := by
  obtain ⟨c, cs, rfl⟩ := List.exists_cons_of_ne_nil h.1
  intro hp
  exact (h.2 c (by simp)).2.2.2 (List.cons_prefix_cons.mp hp).1.symm

theorem ofText?_of_isName {name : Text} (h : IsName name) (as : Attributes) :
    Tag.ofText? ('<' :: (name ++ (renderAttributes as ++ ['>']))) =
      if name ∈ voidNames then none else some (.opening name) := by
  have htag := tagName_append h as
  obtain ⟨c, cs, rfl⟩ := List.exists_cons_of_ne_nil h.1
  obtain ⟨-, -, hs, hd⟩ := h.2 c (by simp)
  rw [List.cons_append] at htag ⊢
  simp [Tag.ofText?, hs, hd, htag]

theorem reads_openTag {name : String} {as : Attributes} (h : IsName name) (ha : IsAttributes as) :
    Reads (openTag name as) (if name.toList ∈ voidNames then [] else [.opening name]) := by
  have hend : '>' ∉ name.toList ++ renderAttributes as := by
    simp only [List.mem_append, not_or]
    exact ⟨fun hm => (h.2 _ hm).2.1 rfl, end_notMem_renderAttributes ha⟩
  have htag := reads_tag hend (not_comment_of_isName h)
  rw [List.append_assoc, ofText?_of_isName h] at htag
  rw [openTag]
  split at htag <;> simp_all

theorem reads_closeTag {name : String} (h : IsName name) :
    Reads (closeTag name) [.closing name] := by
  have hend : '>' ∉ '/' :: name.toList := by
    simp only [List.mem_cons, not_or]
    exact ⟨by simp, fun hm => (h.2 _ hm).2.1 rfl⟩
  have htag := reads_tag hend (by simp)
  have hname : tagName (name.toList ++ ['>']) = name.toList := tagName_append h []
  simpa [Tag.ofText?, hname, closeTag] using htag

end Bulletin.Html
