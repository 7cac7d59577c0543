import Bulletin.Proofs.Card.Chunk
import Bulletin.Proofs.Card.Reader

/-! Writing a card as a description, and reading it back. A card is written as its code segment, its
sections with an empty line after each, and its closing list. How the items of a list are set apart
is left open, as long as a list mark shows that there is a list. A written list has the items it was
written from and holds no break, so the groups of a written card are its written sections; the code
segment and the closing list are found because nothing before them could be taken for them. -/

namespace Bulletin.Card
open Text

/-- List marks, and blank characters that do not end the line. -/
def Gap (g : Text) : Prop := ∀ c ∈ g, c = listMark ∨ (isBlank c = true ∧ c ≠ '\n')

/-- What is written before, between and after the items of a list. -/
structure ListStyle (items : List Text) where
  before : Text
  between : Text
  after : Text
  gap_before : Gap before
  gap_between : Gap between
  gap_after : Gap after
  mark_between : listMark ∈ between
  marked : listMark ∈ before ∨ listMark ∈ after ∨ 1 < items.length

def ListStyle.write {items : List Text} (s : ListStyle items) : Text :=
  s.before ++ s.between.intercalate items ++ s.after

/-- The styles of bullet lists and of the closing list, whose items begin after its title. -/
structure Layout where
  bullets : ∀ items, ListStyle items
  closing : ∀ items, ListStyle items
  closing_before : ∀ items, listMark ∉ (closing items).before

def ListStyle.spaced (before : Text) (h : Gap before) (items : List Text) : ListStyle items where
  before := before
  between := " | "
  after := " |"
  gap_before := h
  gap_between := by unfold Gap; decide
  gap_after := by unfold Gap; decide
  mark_between := by decide
  marked := Or.inr (Or.inl (by decide))

def Layout.spaced : Layout where
  bullets := .spaced [] (by simp [Gap])
  closing := .spaced [' '] (by unfold Gap; decide)
  closing_before := fun _ => by simp [ListStyle.spaced]; decide

def writeSection (layout : Layout) : Section → Text
  | .list items => (layout.bullets items).write
  | .paragraph t => t

def writeClosing (layout : Layout) (l : ClosingList) : Text :=
  l.title ++ (layout.closing l.items).write

def writeCode (code : Text) : Text := codeStart ++ ' ' :: code ++ ' ' :: codeEnd

def writeRest (layout : Layout) (c : Card) : Text :=
  chunks (c.sections.map (writeSection layout)) ++ c.closing.elim [] (writeClosing layout)

def write (layout : Layout) (c : Card) : Text :=
  chunks (c.code.toList.map writeCode) ++ writeRest layout c

/-- What can be read back of a closing list: a title of one line and items that do not repeat it. -/
structure Titled (l : ClosingList) (t : Text) : Prop where
  title_eq : l.title = t ++ [':']
  trimmed : Trimmed t
  colon : ':' ∉ t
  unmarked : listMark ∉ t
  line : '\n' ∉ t
  items_ne_nil : l.items ≠ []
  items_clean : ∀ x ∈ l.items, x ≠ [] ∧ Clean x
  once : ∀ x ∈ l.items.tail, ¬ t ++ [':'] <+: x

/-- A card that can be told from its description. -/
structure Printable (c : Card) : Prop where
  title_ne_nil : c.title ≠ []
  not_empty : c.sections ≠ [] ∨ c.code ≠ none ∨ c.closing ≠ none
  sections_clean : ∀ s ∈ c.sections, s.Clean
  code_trimmed : ∀ x ∈ c.code, Trimmed x ∧ ¬ codeEnd <:+: x
  closing_titled : ∀ l ∈ c.closing, ∃ t, Titled l t
  codeless : c.code = none → (∀ s ∈ c.sections, ∀ x ∈ s.texts, ¬ codeStart <:+: x) ∧
    ∀ l ∈ c.closing, ∀ x ∈ l.title :: l.items, ¬ codeStart <:+: x
  paragraph_last : c.code ≠ none → c.closing = none →
    ∀ s ∈ c.sections.getLast?, ∃ t, s = .paragraph t

/-! ### Written lists -/

theorem Gap.line {g : Text} (h : Gap g) : '\n' ∉ g := by
  intro hm
  rcases h _ hm with he | ⟨-, he⟩
  · exact absurd he (by decide)
  · exact he rfl

theorem Gap.allBlank {g : Text} (h : Gap g) (hm : listMark ∉ g) : AllBlank g := by
  intro c hc
  rcases h c hc with rfl | ⟨hb, -⟩
  · exact absurd hc hm
  · exact hb

theorem Gap.tail {c : Char} {g : Text} (h : Gap (c :: g)) : Gap g :=
  fun d hd => h d (List.mem_cons_of_mem c hd)

theorem Gap.cut {g : Text} (h : Gap g) (hm : listMark ∈ g) :
    ∃ w r, g = w ++ listMark :: r ∧ AllBlank w ∧ '\n' ∉ w ∧ Gap r := by
  obtain ⟨w, r, rfl, hw⟩ := List.eq_append_cons_of_mem hm
  have hgw : Gap w := fun c hc => h c (by simp [hc])
  exact ⟨w, r, rfl, hgw.allBlank hw, hgw.line, fun c hc => h c (by simp [hc])⟩

theorem items_gap_append {g t : Text} (h : Gap g) : items (g ++ t) = items t := by
  induction g with
  | nil => rfl
  | cons c g ih =>
    rcases h c (by simp) with rfl | ⟨hb, -⟩
    · calc items (listMark :: g ++ t) = items [] ++ items (g ++ t) := items_append_mark [] (g ++ t)
        _ = items t := by simp [items_of_allBlank, ih h.tail]
    · calc items (c :: g ++ t) = items ([c] ++ (g ++ t)) := rfl
        _ = items t := by rw [items_blank_append (by simp [hb]), ih h.tail]

theorem items_append_gap {t g : Text} (h : Gap g) : items (t ++ g) = items t := by
  induction g generalizing t with
  | nil => simp
  | cons c g ih =>
    calc items (t ++ c :: g) = items ((t ++ [c]) ++ g) := by simp
      _ = items (t ++ [c]) := ih h.tail
      _ = items t := by
        rcases h c (by simp) with rfl | ⟨hb, -⟩
        · simp [items_append_mark, items_of_allBlank]
        · exact items_append_blank (by simp [hb])

theorem items_of_clean {x : Text} (hne : x ≠ []) (hx : Clean x) : items x = [x] := by
  rw [items_of_unmarked hx.unmarked, hx.trimmed.trim_eq, if_neg hne]

theorem items_intercalate {between : Text} {xs : List Text} (hg : Gap between)
    (hm : listMark ∈ between) (hxs : ∀ x ∈ xs, x ≠ [] ∧ Clean x) :
    items (between.intercalate xs) = xs := by
  obtain ⟨w, r, rfl, hw, -, hr⟩ := hg.cut hm
  induction xs with
  | nil => simp [items_of_allBlank]
  | cons x xs ih =>
    obtain ⟨hne, hx⟩ := hxs x (by simp)
    cases xs with
    | nil => rw [List.intercalate_singleton, items_of_clean hne hx]
    | cons y ys =>
      have htail := ih fun z hz => hxs z (List.mem_cons_of_mem x hz)
      have hcut : (w ++ listMark :: r).intercalate (x :: y :: ys) =
          (x ++ w) ++ listMark :: (r ++ (w ++ listMark :: r).intercalate (y :: ys)) := by
        simp [List.intercalate_cons_cons]
      rw [hcut, items_append_mark, items_append_blank hw, items_gap_append hr, htail,
        items_of_clean hne hx]
      rfl

theorem items_write {xs : List Text} (s : ListStyle xs) (hxs : ∀ x ∈ xs, x ≠ [] ∧ Clean x) :
    items s.write = xs := by
  rw [ListStyle.write, items_append_gap s.gap_after, items_gap_append s.gap_before,
    items_intercalate s.gap_between s.mark_between hxs]

theorem solid_intercalate {between : Text} {xs : List Text} (hg : Gap between)
    (hm : listMark ∈ between) (hxs : ∀ x ∈ xs, Solid x) : Solid (between.intercalate xs) := by
  obtain ⟨w, r, rfl, -, hw, hr⟩ := hg.cut hm
  induction xs with
  | nil => exact solid_of_line (by simp)
  | cons x xs ih =>
    have hx := hxs x (by simp)
    cases xs with
    | nil => simpa [List.intercalate_singleton] using hx
    | cons y ys =>
      have htail := ih fun z hz => hxs z (List.mem_cons_of_mem x hz)
      have hs := (hx.append_line hw).append_cons isBlank_listMark (htail.line_append hr.line)
      simpa [List.intercalate_cons_cons] using hs

theorem solid_write {xs : List Text} (s : ListStyle xs) (hxs : ∀ x ∈ xs, x ≠ [] ∧ Clean x) :
    Solid s.write := by
  have hx : ∀ x ∈ xs, Solid x := fun x hx => (hxs x hx).2.solid
  exact ((solid_intercalate s.gap_between s.mark_between hx).line_append
    s.gap_before.line).append_line s.gap_after.line

theorem mark_mem_write {xs : List Text} (s : ListStyle xs) : listMark ∈ s.write := by
  rcases s.marked with h | h | h
  · simp [ListStyle.write, h]
  · simp [ListStyle.write, h]
  · match xs, s, h with
    | x :: y :: ys, s, _ => simp [ListStyle.write, List.intercalate_cons_cons, s.mark_between]

theorem not_allBlank_of_mem {t : Text} {c : Char} (h : c ∈ t) (hc : isBlank c = false) :
    ¬ AllBlank t := by
  intro hb
  simp [hb c h] at hc

theorem solid_writeSection {layout : Layout} {s : Section} (hs : s.Clean) :
    Solid (writeSection layout s) ∧ ¬ AllBlank (writeSection layout s) := by
  cases s with
  | list xs =>
    have hm := mark_mem_write (layout.bullets xs)
    exact ⟨solid_write (layout.bullets xs) hs, not_allBlank_of_mem hm isBlank_listMark⟩
  | paragraph t =>
    obtain ⟨hne, ht⟩ := hs t (by simp [Section.texts])
    exact ⟨ht.solid, fun hb => hne (ht.trimmed.eq_nil_of_allBlank hb)⟩

theorem section?_write (layout : Layout) {s : Section} (hs : s.Clean) : section?
    (trim (writeSection layout s)) = some s := by
  cases s with
  | list xs =>
    have hm := mark_mem_write (layout.bullets xs)
    rw [writeSection, section?_list (mark_mem_trim.mpr hm), items_trim,
      items_write (layout.bullets xs) hs]
  | paragraph t =>
    obtain ⟨hne, ht⟩ := hs t (by simp [Section.texts])
    rw [writeSection, ht.trimmed.trim_eq, section?_paragraph hne ht.unmarked]

theorem sectionsOf_write (layout : Layout) {ss : List Section} (hss : ∀ s ∈ ss, s.Clean) :
    sectionsOf ((ss.map (writeSection layout)).map trim) = ss := by
  induction ss with
  | nil => rfl
  | cons s ss ih =>
    rw [List.map_cons, List.map_cons, sectionsOf_cons, section?_write layout (hss s (by simp)),
      ih fun x hx => hss x (List.mem_cons_of_mem s hx)]
    rfl

theorem solid_writeSections (layout : Layout) {ss : List Section} (hss : ∀ s ∈ ss, s.Clean) :
    ∀ c ∈ ss.map (writeSection layout), Solid c ∧ ¬ AllBlank c := by
  intro c hc
  obtain ⟨s, hs, rfl⟩ := List.mem_map.mp hc
  exact solid_writeSection (hss s hs)

/-- The first item of a list that begins with no mark stands between blank characters, in front of
a list mark. -/
theorem exists_first_item {x : Text} {xs : List Text} (s : ListStyle (x :: xs))
    (hm : listMark ∉ s.before) :
    ∃ w r, s.write = s.before ++ x ++ w ++ listMark :: r ∧ AllBlank w := by
  cases xs with
  | nil =>
    have hafter : listMark ∈ s.after := by simpa [hm] using s.marked
    obtain ⟨w, r, h, hw, -, -⟩ := s.gap_after.cut hafter
    exact ⟨w, r, by simp [ListStyle.write, List.intercalate_singleton, h], hw⟩
  | cons y ys =>
    obtain ⟨w, r, h, hw, -, -⟩ := s.gap_between.cut s.mark_between
    refine ⟨w, r ++ s.between.intercalate (y :: ys) ++ s.after, ?_, hw⟩
    simp [ListStyle.write, List.intercalate_cons_cons, h]

theorem closingList_write {layout : Layout} {l : ClosingList} {t : Text} (h : Titled l t) :
    closingList (trim (writeClosing layout l)) = l := by
  obtain ⟨title, xs⟩ := l
  obtain rfl : title = t ++ [':'] := h.title_eq
  obtain ⟨x, xs, rfl⟩ := List.exists_cons_of_ne_nil h.items_ne_nil
  have hitems : items (layout.closing (x :: xs)).write = x :: xs := items_write _ h.items_clean
  obtain ⟨hne, hx⟩ := h.items_clean x (by simp)
  -- the first piece of the group is the title and the first item
  obtain ⟨w, r, hwrite, hw⟩ := exists_first_item _ (layout.closing_before (x :: xs))
  have hbefore := (layout.closing (x :: xs)).gap_before.allBlank (layout.closing_before (x :: xs))
  set before := (layout.closing (x :: xs)).before
  have hpiece : items (before ++ x ++ w) = [x] := by
    rw [items_append_blank hw, items_blank_append hbefore, items_of_clean hne hx]
  have hrest : items (trimEnd r) = xs := by
    rw [hwrite, items_append_mark, hpiece] at hitems
    rw [items_trimEnd]
    exact (List.cons.inj hitems).2
  have hcolon : Trimmed (t ++ [':']) := h.trimmed.concat (by decide)
  have htrim : trim (writeClosing layout ⟨t ++ [':'], x :: xs⟩) =
      t ++ ':' :: (before ++ x ++ w ++ listMark :: trimEnd r) := by
    simp only [writeClosing, hwrite]
    rw [← trimEnd_append_cons isBlank_listMark, ← trim_append_cons hcolon]
    simp
  have hsplit : splitOn listMark (before ++ x ++ w ++ listMark :: trimEnd r) =
      (before ++ x ++ w) :: splitOn listMark (trimEnd r) := by
    have hm : listMark ∉ before ++ x ++ w := by
      simp [not_mark_of_allBlank hbefore, hx.unmarked, not_mark_of_allBlank hw]
    rw [splitOn_append_mark, splitOn_of_notMem hm]
    rfl
  have hgroup : Trimmed (t ++ ':' :: (before ++ x ++ w ++ listMark :: trimEnd r)) :=
    htrim ▸ trimmed_trim _
  obtain ⟨-, htitled⟩ := items_titled hgroup h.unmarked hsplit
  have hdrop : ∀ y ∈ xs, dropEcho (t ++ [':']) y = y := fun y hy =>
    dropEcho_of_not_repeated (h.once y hy)
  rw [htrim, closingList_titled h.colon h.line, htitled, ← items, hrest, List.map_cons,
    dropEcho_append, trim_trimEnd, hx.trimmed.trim_pad hbefore hw, List.map_congr_left hdrop,
    h.trimmed.trim_eq]
  simp

theorem solid_writeClosing {layout : Layout} {l : ClosingList} {t : Text} (h : Titled l t) :
    Solid (writeClosing layout l) := by
  have hs : Solid (layout.closing l.items).write := solid_write _ h.items_clean
  have hc := (solid_of_line h.line).append_cons (x := ':') (by decide) hs
  simpa [writeClosing, h.title_eq] using hc

theorem mark_mem_writeClosing (layout : Layout) (l : ClosingList) :
    listMark ∈ writeClosing layout l := by
  simp [writeClosing, mark_mem_write]

theorem takeCode_write {x after : Text} (hx : Trimmed x) (hend : ¬ codeEnd <:+: x) :
    takeCode (writeCode x ++ after) = (some x, trim after) := by
  have hstart : cut? (writeCode x ++ after) codeStart =
      some ([], ' ' :: x ++ ' ' :: (codeEnd ++ after)) := by
    have hcut : cut? ([] ++ (codeStart ++ (' ' :: x ++ ' ' :: (codeEnd ++ after)))) codeStart =
        some ([], ' ' :: x ++ ' ' :: (codeEnd ++ after)) :=
      cut?_append (by decide) fun s hs hsuf => absurd (List.suffix_nil.mp hsuf) hs
    simpa [writeCode] using hcut
  have hinner : cut? (' ' :: x ++ ' ' :: (codeEnd ++ after)) codeEnd =
      some (' ' :: x ++ [' '], after) := by
    refine cut?_fence (by decide) (by decide) fun hi => ?_
    rcases (infix_append_cons_iff (a := []) (by decide)).mp hi with h | h
    · exact absurd (List.infix_nil.mp h) (by decide)
    · exact hend h
  have htrim : trim ([' '] ++ x ++ [' ']) = x := hx.trim_pad (by simp) (by simp)
  rw [takeCode, hstart]
  simp only [hinner]
  simpa using htrim

theorem Gap.notMem_codeStart {g : Text} (h : Gap g) : ∀ c ∈ g, c ∉ codeStart := by
  intro c hc hm
  have hblank : ∀ d ∈ codeStart, isBlank d = false ∧ d ≠ listMark := by decide
  rcases h c hc with he | ⟨hb, -⟩
  · exact (hblank c hm).2 he
  · simp [(hblank c hm).1] at hb

theorem codeless_intercalate {between : Text} {xs : List Text} (hg : Gap between)
    (hm : listMark ∈ between) (hxs : ∀ x ∈ xs, ¬ codeStart <:+: x) :
    ¬ codeStart <:+: between.intercalate xs := by
  obtain ⟨w, r, rfl, -, -, hr⟩ := hg.cut hm
  have hw : ∀ c ∈ w, c ∉ codeStart := fun c hc => hg.notMem_codeStart c (by simp [hc])
  induction xs with
  | nil => exact codeless_nil
  | cons x xs ih =>
    have hx := hxs x (by simp)
    cases xs with
    | nil => simpa [List.intercalate_singleton] using hx
    | cons y ys =>
      have htail := ih fun z hz => hxs z (List.mem_cons_of_mem x hz)
      intro hi
      have hcut : codeStart <:+: (x ++ w) ++
          listMark :: (r ++ (w ++ listMark :: r).intercalate (y :: ys)) := by
        simpa [List.intercalate_cons_cons] using hi
      rcases (infix_append_cons_iff (by decide)).mp hcut with h | h
      · exact hx (infix_of_infix_append_right (by decide) hw h)
      · exact htail (infix_of_infix_append_left (by decide) hr.notMem_codeStart h)

theorem codeless_write {xs : List Text} (s : ListStyle xs) (hxs : ∀ x ∈ xs, ¬ codeStart <:+: x) :
    ¬ codeStart <:+: s.write := by
  intro hi
  have hleft := infix_of_infix_append_right (by decide) s.gap_after.notMem_codeStart hi
  have hmid := infix_of_infix_append_left (by decide) s.gap_before.notMem_codeStart hleft
  exact codeless_intercalate s.gap_between s.mark_between hxs hmid

theorem codeless_writeSection {layout : Layout} {s : Section}
    (hs : ∀ x ∈ s.texts, ¬ codeStart <:+: x) : ¬ codeStart <:+: writeSection layout s := by
  cases s with
  | list xs => exact codeless_write (layout.bullets xs) hs
  | paragraph t => exact hs t (by simp [Section.texts])

theorem codeless_writeClosing {layout : Layout} {l : ClosingList} {t : Text} (h : Titled l t)
    (hl : ∀ x ∈ l.title :: l.items, ¬ codeStart <:+: x) :
    ¬ codeStart <:+: writeClosing layout l := by
  intro hi
  have hcut : codeStart <:+: t ++ ':' :: (layout.closing l.items).write := by
    simpa [writeClosing, h.title_eq] using hi
  rcases (infix_append_cons_iff (by decide)).mp hcut with ht | hw
  · refine hl l.title (by simp) (ht.trans ?_)
    exact h.title_eq ▸ (List.prefix_append t [':']).isInfix
  · exact codeless_write _ (fun x hx => hl x (List.mem_cons_of_mem _ hx)) hw

theorem codeless_chunks {cs : List Text} {last : Text} (hcs : ∀ c ∈ cs, ¬ codeStart <:+: c)
    (hlast : ¬ codeStart <:+: last) : ¬ codeStart <:+: chunks cs ++ last := by
  induction cs with
  | nil => simpa [chunks] using hlast
  | cons c cs ih =>
    have htail := ih fun d hd => hcs d (List.mem_cons_of_mem c hd)
    rw [chunks_cons, List.append_assoc, List.cons_append, infix_append_cons_iff (by decide)]
    rintro (h | h)
    · exact hcs c (by simp) h
    · exact htail (infix_of_infix_append_left (g := ['\n']) (by decide) (by decide) h)

theorem ofDescription_sections (title : Text) {d rest : Text} {code : Option Text} {gs : List Text}
    {g : Text} (h : takeCode d = (code, rest)) (hg : groups rest = gs ++ [g]) (hm : listMark ∉ g) :
    ofDescription title d = ⟨title, sectionsOf (gs ++ [g]), code, none⟩ := by
  simp [ofDescription, h, takeClosing, hg, hm]

theorem ofDescription_closing (title : Text) {d rest : Text} {code : Option Text} {gs : List Text}
    {g : Text} (h : takeCode d = (code, rest)) (hg : groups rest = gs ++ [g]) (hm : listMark ∈ g) :
    ofDescription title d = ⟨title, sectionsOf gs, code, some (closingList g)⟩ := by
  simp [ofDescription, h, takeClosing, hg, hm]

theorem groups_writeSections {layout : Layout} {ss : List Section} {last : Text}
    (hss : ∀ s ∈ ss, s.Clean) (hlast : Solid last) (hblank : ¬ AllBlank last) :
    groups (trim (chunks (ss.map (writeSection layout)) ++ last)) =
      (ss.map (writeSection layout)).map trim ++ [trim last] := by
  have hcs := solid_writeSections layout hss
  rw [groups_trim (not_opens_chunks hcs hlast.not_opens), groups_chunks hcs hlast]
  rw [closes_append_iff]
  rintro (h | ⟨h, -⟩)
  · exact hlast.not_closes h
  · exact hblank h

theorem takeCode_write_card (layout : Layout) {c : Card} (h : c.Printable) :
    (c.code = none ∧ takeCode (c.write layout) = (none, c.writeRest layout)) ∨
      ∃ x, c.code = some x ∧ takeCode (c.write layout) = (some x, trim (c.writeRest layout)) := by
  cases hcode : c.code with
  | none =>
    obtain ⟨hsections, hclosing⟩ := h.codeless hcode
    have hrest : ¬ codeStart <:+: c.writeRest layout := by
      refine codeless_chunks ?_ ?_
      · intro t ht
        obtain ⟨s, hs, rfl⟩ := List.mem_map.mp ht
        exact codeless_writeSection (hsections s hs)
      · cases hl : c.closing with
        | none => exact codeless_nil
        | some l =>
          obtain ⟨t, ht⟩ := h.closing_titled l hl
          exact codeless_writeClosing ht (hclosing l hl)
    refine Or.inl ⟨rfl, ?_⟩
    simpa [write, hcode, chunks] using takeCode_of_codeless hrest
  | some x =>
    obtain ⟨hx, hend⟩ := h.code_trimmed x hcode
    refine Or.inr ⟨x, rfl, ?_⟩
    have hwrite : c.write layout = writeCode x ++ (['\n', '\n'] ++ c.writeRest layout) := by
      simp [write, hcode, chunks]
    rw [hwrite, takeCode_write hx hend, trim_blank_append (by simp)]

/-- A paragraph written last keeps its group when the empty line after it is trimmed away. -/
theorem groups_writeSections_paragraph (layout : Layout) {ss : List Section} {p : Text}
    (hss : ∀ s ∈ ss, s.Clean) (hne : p ≠ []) (hp : Clean p) :
    groups (trim (chunks ((ss ++ [Section.paragraph p]).map (writeSection layout)))) =
      (ss.map (writeSection layout)).map trim ++ [p] := by
  have hblank : ¬ AllBlank p := fun hb => hne (hp.trimmed.eq_nil_of_allBlank hb)
  have hlast : chunks ((ss ++ [Section.paragraph p]).map (writeSection layout)) =
      (chunks (ss.map (writeSection layout)) ++ p) ++ ['\n', '\n'] := by
    simp [chunks, writeSection]
  rw [hlast, trim_append_blank (by simp), groups_writeSections hss hp.solid hblank,
    hp.trimmed.trim_eq]

theorem ofDescription_write_closing (layout : Layout) {c : Card} (h : c.Printable)
    {l : ClosingList} (hl : c.closing = some l) :
    ofDescription c.title (c.write layout) = c := by
  obtain ⟨t, ht⟩ := h.closing_titled l hl
  have hsolid : Solid (writeClosing layout l) := solid_writeClosing ht
  have hm : listMark ∈ writeClosing layout l := mark_mem_writeClosing layout l
  have hsections := sectionsOf_write layout h.sections_clean
  have hrest : c.writeRest layout =
      chunks (c.sections.map (writeSection layout)) ++ writeClosing layout l := by
    simp [writeRest, hl]
  have hread {rest : Text} {code : Option Text} (hcode : c.code = code)
      (htake : takeCode (c.write layout) = (code, rest))
      (hgroups : groups rest =
        (c.sections.map (writeSection layout)).map trim ++ [trim (writeClosing layout l)]) :
      ofDescription c.title (c.write layout) = c := by
    rw [ofDescription_closing c.title htake hgroups (mark_mem_trim.mpr hm), hsections,
      closingList_write ht, ← hcode, ← hl]
  rcases takeCode_write_card layout h with ⟨hcode, htake⟩ | ⟨x, hcode, htake⟩
  · refine hread hcode htake ?_
    rw [hrest, groups_chunks (solid_writeSections layout h.sections_clean) hsolid]
  · refine hread hcode htake ?_
    have hblank := not_allBlank_of_mem hm isBlank_listMark
    rw [hrest, groups_writeSections h.sections_clean hsolid hblank]

/-- With no closing list, the empty line after the last section keeps a list from becoming one;
after a code segment that line is trimmed away, and the last section is a paragraph. -/
theorem ofDescription_write_sections (layout : Layout) {c : Card} (h : c.Printable)
    (hl : c.closing = none) : ofDescription c.title (c.write layout) = c := by
  have hrest : c.writeRest layout = chunks (c.sections.map (writeSection layout)) := by
    simp [writeRest, hl]
  rcases takeCode_write_card layout h with ⟨hcode, htake⟩ | ⟨x, hcode, htake⟩
  · have hgroups : groups (c.writeRest layout) =
        (c.sections.map (writeSection layout)).map trim ++ [[]] := by
      have hsolid := solid_writeSections layout h.sections_clean
      rw [hrest, ← List.append_nil (chunks _), groups_chunks hsolid (solid_of_line (by simp))]
      rfl
    rw [ofDescription_sections c.title htake hgroups (by simp), sectionsOf_append,
      sectionsOf_write layout h.sections_clean, sectionsOf_cons, section?_nil, ← hcode, ← hl]
    simp [sectionsOf]
  · rcases List.eq_nil_or_concat c.sections with hnil | ⟨ss, s, hss⟩
    · have hempty : trim (c.writeRest layout) = [] := by simp [hrest, hnil, chunks]
      rw [hempty] at htake
      have hgroups : groups [] = [] ++ [[]] := groups_nil
      rw [ofDescription_sections c.title htake hgroups (by simp), ← hcode, ← hl]
      simp [sectionsOf, section?_nil, ← hnil]
    · rw [List.concat_eq_append] at hss
      obtain ⟨p, rfl⟩ := h.paragraph_last (by simp [hcode]) hl s (by simp [hss])
      have hclean : ∀ s ∈ ss, s.Clean := fun s hs => h.sections_clean s (by simp [hss, hs])
      have hparagraph := h.sections_clean (.paragraph p) (by simp [hss])
      obtain ⟨hne, hp⟩ := hparagraph p (by simp [Section.texts])
      have hgroups := groups_writeSections_paragraph layout hclean hne hp
      rw [← hss, ← hrest] at hgroups
      rw [ofDescription_sections c.title htake hgroups hp.unmarked, sectionsOf_append,
        sectionsOf_write layout hclean, sectionsOf_cons, section?_paragraph hne hp.unmarked,
        ← hcode, ← hl]
      simp [sectionsOf, ← hss]

theorem write_ne_nil (layout : Layout) {c : Card} (h : c.Printable) : c.write layout ≠ [] := by
  intro hnil
  simp only [write, writeRest, List.append_eq_nil_iff] at hnil
  obtain ⟨hcode, hsections, hclosing⟩ := hnil
  rcases h.not_empty with hne | hne | hne
  · obtain ⟨s, ss, hss⟩ := List.exists_cons_of_ne_nil hne
    simp [hss, chunks] at hsections
  · obtain ⟨x, hx⟩ := Option.ne_none_iff_exists'.mp hne
    simp [hx, chunks] at hcode
  · obtain ⟨l, hl⟩ := Option.ne_none_iff_exists'.mp hne
    have hm := mark_mem_writeClosing layout l
    rw [hl] at hclosing
    simp only [Option.elim] at hclosing
    simp [hclosing] at hm

end Bulletin.Card

namespace Bulletin.CardText
open Card

/-- Writing a card and reading its description gives the card back, in whatever style the lists are
written. -/
theorem card_write (layout : Layout) {c : Card} (h : c.Printable) (fallback : CardText) :
    (CardText.mk c.title (c.write layout)).card fallback = c := by
  have hdescription := write_ne_nil layout h
  have hcard : (CardText.mk c.title (c.write layout)).card fallback =
      ofDescription c.title (c.write layout) := by
    simp [CardText.card, CardText.orElse, Text.orElse, h.title_ne_nil, hdescription]
  rw [hcard]
  cases hl : c.closing with
  | none => exact ofDescription_write_sections layout h hl
  | some l => exact ofDescription_write_closing layout h hl

/-- A card with every part, its lists in the spaced style. -/
theorem card_write_spaced :
    let c : Card := ⟨"Reach", [.list [], .paragraph "Two\nlines", .list ["a", "[CODE]"]],
      some "x | y", some ⟨"Codes:", ["Codes: A", "B"]⟩⟩
    c.Printable ∧ (CardText.mk c.title (c.write .spaced)).card = c := by
  intro c
  have hc : c.Printable := by
    refine ⟨by decide, by decide, by decide, ?_, ?_, by decide, ?_⟩
    · rintro x ⟨⟩
      decide
    · rintro l ⟨⟩
      exact ⟨"Codes", by decide, by decide, by decide, by decide, by decide, by decide,
        by decide, by decide⟩
    · rintro - ⟨⟩
  exact ⟨hc, card_write .spaced hc .standard⟩

end Bulletin.CardText
