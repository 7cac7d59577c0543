import Bulletin.Html.Fragment
import Bulletin.Proofs.Block
import Bulletin.Proofs.Html.Card

/-! Rendering loses nothing. The markup of a body is a list of parts that begin differently, so it
tells the blocks of the body, and the card wherever a block shows it. -/

namespace Bulletin.Html

theorem renderBody_eq (body : Text) (t fallback : CardText) : renderBody body t fallback =
    (Block.ofText body).flatMap fun x => (ofBlock (card (t.card fallback)) x).render := by
  simp [renderBody, blocks, renderAll_eq, List.flatMap_map]

/-- The second character of the markup of a block. -/
def blockMark : Block → Char
  | .paragraph _ => 'p'
  | .separator => 'd'
  | .card => 't'

theorem begins_ofBlock (c : Card) (x : Block) :
    Begins (blockMark x) (ofBlock (card c) x).render := by
  cases x with
  | paragraph t => exact begins_element (c := 'p') (by decide)
  | separator => exact begins_element (c := 'd') (by decide)
  | card => exact begins_element (c := 't') (by decide)

/-- A block can be told from its markup, and a card block tells the card it shows. -/
theorem ofBlock_unique {c d : Card} {x y : Block} {u v : Text} (hc : PlainCard c)
    (hd : PlainCard d) (hx : ∀ t, x = .paragraph t → Plain t) (hy : ∀ t, y = .paragraph t → Plain t)
    (h : (ofBlock (card c) x).render ++ u = (ofBlock (card d) y).render ++ v) :
    (x = y ∧ (x = .card → c = d)) ∧ u = v := by
  have hmark : blockMark x = blockMark y := by
    by_contra hne
    exact ((begins_ofBlock c x).append u).apart ((begins_ofBlock d y).append v) hne h
  cases x with
  | paragraph t =>
    cases y with
    | paragraph t' =>
      obtain ⟨rfl, hu⟩ := leaf_unique (stop_closeTag "p" (by simp)) (hx t rfl).marked_inline
        (hy t' rfl).marked_inline h
      exact ⟨⟨rfl, by simp⟩, hu⟩
    | separator => exact absurd hmark (by simp [blockMark])
    | card => exact absurd hmark (by simp [blockMark])
  | separator =>
    cases y with
    | paragraph t' => exact absurd hmark (by simp [blockMark])
    | separator => exact ⟨⟨rfl, by simp⟩, List.append_cancel_left h⟩
    | card => exact absurd hmark (by simp [blockMark])
  | card =>
    cases y with
    | paragraph t' => exact absurd hmark (by simp [blockMark])
    | separator => exact absurd hmark (by simp [blockMark])
    | card =>
      obtain ⟨rfl, hu⟩ := card_unique hc hd h
      exact ⟨⟨rfl, by simp⟩, hu⟩

theorem ofBlock_ne_nil (c : Card) (x : Block) (w : Text) :
    (ofBlock (card c) x).render ++ w ≠ [] := by
  obtain ⟨r, hr⟩ := begins_ofBlock c x
  simp [← hr]

/-- Two bodies of plain text with the same markup have the same blocks, and show the same card if
they show one. -/
theorem renderBody_lossless {body body' : Text} {t t' fallback fallback' : CardText}
    (hb : Plain body) (hb' : Plain body')
    (ht : Plain t.title ∧ Plain t.description) (ht' : Plain t'.title ∧ Plain t'.description)
    (hf : Plain fallback.title ∧ Plain fallback.description)
    (hf' : Plain fallback'.title ∧ Plain fallback'.description)
    (h : renderBody body t fallback = renderBody body' t' fallback') :
    Block.ofText body = Block.ofText body' ∧
      (.card ∈ Block.ofText body → t.card fallback = t'.card fallback') := by
  have hc : PlainCard (t.card fallback) := plainCard_card ht.1 ht.2 hf.1 hf.2
  have hc' : PlainCard (t'.card fallback') := plainCard_card ht'.1 ht'.2 hf'.1 hf'.2
  have hx : ∀ x ∈ Block.ofText body, ∀ p, x = .paragraph p → Plain p := by
    rintro x hx p rfl hm
    exact hb (Block.mem_of_mem_paragraph hx hm)
  have hy : ∀ y ∈ Block.ofText body', ∀ p, y = .paragraph p → Plain p := by
    rintro y hy p rfl hm
    exact hb' (Block.mem_of_mem_paragraph hy hm)
  rw [renderBody_eq, renderBody_eq, ← List.append_nil (List.flatMap _ _),
    ← List.append_nil (List.flatMap _ (Block.ofText body'))] at h
  obtain ⟨hblocks, -⟩ := flatMap_unique
    (fun x hx' y hy' _ _ he => ofBlock_unique hc hc' (hx x hx') (hy y hy') he)
    (fun x _ w => ofBlock_ne_nil _ x w) (fun y _ w => ofBlock_ne_nil _ y w) h
  have heq : Block.ofText body = Block.ofText body' := by
    have h := hblocks.imp fun _ _ hxy => hxy.1
    rwa [List.forall₂_eq_eq_eq] at h
  rw [← heq, List.forall₂_same] at hblocks
  exact ⟨heq, fun hm => (hblocks .card hm).2 rfl⟩

/-- Bodies that differ in blank characters, and cards that differ in how their texts are set. -/
theorem renderBody_lossless_blank :
    let body : Text := "a **b** c\n[METRIC_ATTACH_CARD]"
    let body' : Text := "a **b** c\n\n [METRIC_ATTACH_CARD] "
    let t : CardText := ⟨"T", "x | y\n\n[CODE]*[/CODE]"⟩
    let t' : CardText := ⟨[], "x|y\n\n[CODE] * [/CODE]"⟩
    let fallback : CardText := ⟨"T", []⟩
    renderBody body t = renderBody body' t' fallback ∧
      Block.ofText body = Block.ofText body' ∧ t.card = t'.card fallback := by
  intro body body' t t' fallback
  have hrender : renderBody body t = renderBody body' t' fallback := by
    have hbody : Block.ofText body = Block.ofText body' := by decide
    have ht : t.card = t'.card fallback := by decide
    simp only [renderBody, hbody, ht]
  obtain ⟨hbody, hcard⟩ := renderBody_lossless (by decide) (by decide) (by decide)
    (by decide) (by decide) (by decide) hrender
  exact ⟨hrender, hbody, hcard (by decide)⟩

end Bulletin.Html
