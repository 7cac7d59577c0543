import Bulletin.Proofs.Card.Fallback
import Bulletin.Proofs.Html.Frame
import Bulletin.Proofs.Message.Load
import Bulletin.Proofs.Text.Trim
import Mathlib.Data.List.Forall2

/-! The card of a message from a file. Both of its texts are chosen twice: loading fills the empty
defaults of the file from the standard texts, and reading the card fills its empty texts from the
defaults. So they are the first of three that are not empty, and any value with a text counts,
whatever it is. -/

namespace Bulletin.Message

/-- What a value says that may be missing: nothing where it is missing or null, else its text. -/
inductive TextOf (s : Yaml.Store) (how : Yaml.Writer) : Option Yaml.Value → Text → Prop
  | absent : TextOf s how none []
  | null : TextOf s how (some (.scalar .null)) []
  | given {v t} (hv : v ≠ .scalar .null) (ht : s.text how v = .ok t) : TextOf s how (some v) t

/-- The value at a key of a block. There is none where the block is missing or null. -/
def inBlock? (s : Yaml.Store) (fields : Fields) (block key : Text) : Option Yaml.Value := do
  let v ← Yaml.Store.get? fields block
  let entries ← s.entries? v
  Yaml.Store.get? entries key

structure BlockSays (s : Yaml.Store) (how : Yaml.Writer) (fields : Fields)
    (block titleKey descriptionKey : Text) (t : CardText) : Prop where
  title : TextOf s how (inBlock? s fields block titleKey) t.title
  description : TextOf s how (inBlock? s fields block descriptionKey) t.description

variable {s : Yaml.Store} {how : Yaml.Writer} {fields block : Fields} {key name t : Text}

theorem textOf_of_textAt (h : textAt s how fields key = .ok t) :
    TextOf s how (Yaml.Store.get? fields key) t := by
  unfold textAt at h
  rcases given?_cases fields key with ⟨hv, hgiven⟩ | ⟨hv, hgiven⟩ | ⟨v, hnull, hv, hgiven⟩ <;>
    rw [hgiven] at h <;> rw [hv]
  · obtain rfl := Except.ok.inj h
    exact .absent
  · obtain rfl := Except.ok.inj h
    exact .null
  · exact .given hnull (mapError_eq_ok.mp h)

theorem inBlock?_of_blockAt (h : blockAt s fields name = .ok block) (key : Text) :
    inBlock? s fields name key = Yaml.Store.get? block key := by
  unfold blockAt at h
  unfold inBlock?
  rcases given?_cases fields name with ⟨hv, hgiven⟩ | ⟨hv, hgiven⟩ | ⟨v, -, hv, hgiven⟩ <;>
    rw [hgiven] at h <;> rw [hv]
  · obtain rfl := Except.ok.inj h
    rfl
  · obtain rfl := Except.ok.inj h
    rfl
  · dsimp only at h
    cases hentries : s.entries? v with
    | none =>
      rw [hentries] at h
      cases h
    | some entries =>
      rw [hentries] at h
      obtain rfl := Except.ok.inj h
      simp [hentries]

theorem BlockSays.of_blockAt {titleKey descriptionKey title description : Text}
    (h : blockAt s fields name = .ok block) (htitle : textAt s how block titleKey = .ok title)
    (hdescription : textAt s how block descriptionKey = .ok description) :
    BlockSays s how fields name titleKey descriptionKey ⟨title, description⟩ where
  title := inBlock?_of_blockAt h titleKey ▸ textOf_of_textAt htitle
  description := inBlock?_of_blockAt h descriptionKey ▸ textOf_of_textAt hdescription

theorem TextOf.unique {o : Option Yaml.Value} {u : Text} (h : TextOf s how o t)
    (h' : TextOf s how o u) : t = u := by
  cases h with
  | absent => cases h'; rfl
  | null =>
    cases h' with
    | null => rfl
    | given hv ht => exact absurd rfl hv
  | given hv ht =>
    cases h' with
    | null => exact absurd rfl hv
    | given hv' ht' => exact Except.ok.inj (ht.symm.trans ht')

theorem nested_emptyList (standIn : Nat → Char) {around : List Nat} {id : Nat} (hid : id ∉ around)
    (room : Nat) (h : s[id]? = some (.list [])) :
    Yaml.nested s standIn around 0 (.ref id) (room + 1) = .ok "[]".toList := by
  rw [Yaml.nested]
  simp only [h, if_neg hid]
  rfl

/-- Values that say little and still count as given, with what they say: blank texts, false, zero
and the empty list. -/
inductive Slight (s : Yaml.Store) : Yaml.Value → Text → Prop
  | blank {w : Text} (hblank : Text.AllBlank w) (hw : w ≠ []) : Slight s (.scalar (.text w)) w
  | false : Slight s (.scalar (.bool false)) "False"
  | zero : Slight s (.scalar (.int 0)) "0"
  | emptyList {id : Nat} (hlist : s[id]? = some (.list [])) : Slight s (.ref id) "[]"

theorem Slight.textOf {v : Yaml.Value} (h : Slight s v t) : TextOf s how (some v) t := by
  cases h with
  | blank | false | zero => exact .given nofun rfl
  | emptyList hlist =>
    exact .given nofun (nested_emptyList _ List.not_mem_nil _ hlist)

theorem Slight.ne_nil {v : Yaml.Value} (h : Slight s v t) : t ≠ [] := by
  cases h with
  | blank hblank hw => exact hw
  | false | zero | emptyList => decide

theorem Slight.firstGiven_eq {v : Yaml.Value} {o : Option Yaml.Value} {w : Text} (h : Slight s v w)
    (ht : TextOf s how o t) (ho : o = some v) (ts : List Text) : Text.firstGiven (t :: ts) = w := by
  subst ho
  obtain rfl := ht.unique h.textOf
  exact Text.firstGiven_cons ts h.ne_nil

/-- The cards of a message whose value has the given fields. Their texts are the first ones that are
not empty among those of the metric, the given ones of the defaults, and the standard ones, and
every card line of the document shows the card of these texts. -/
structure ShowsCards (s : Yaml.Store) (how : Yaml.Writer) (fields : Fields) (defaults : CardText)
    (m : Message) : Prop where
  metric : BlockSays s how fields "metric" "title" "description" m.metric
  given : BlockSays s how fields "defaults" "metric_title" "metric_description" defaults
  filled : m.defaults = defaults.orElse .standard
  complete : m.defaults.Complete
  document : m.render = upToBody m.headerLogo m.title m.headline ++ Html.renderAll m.content ++
    fromBody m.cta m.footer
  cards : List.Forall₂
    (fun x node => x = .card → node.render = Html.renderCard (CardText.chosen m.metric defaults))
    (Block.ofText m.body) m.content
  heading : (m.metric.card m.defaults).title = (CardText.chosen m.metric defaults).title ∧
    (CardText.chosen m.metric defaults).title ≠ []
  /-- A slight value is not passed over. -/
  slight : ∀ v w, Slight s v w →
    (inBlock? s fields "metric" "title" = some v → (CardText.chosen m.metric defaults).title = w) ∧
    (inBlock? s fields "metric" "description" = some v →
      (CardText.chosen m.metric defaults).description = w) ∧
    (m.metric.title = [] → inBlock? s fields "defaults" "metric_title" = some v →
      (CardText.chosen m.metric defaults).title = w) ∧
    (m.metric.description = [] → inBlock? s fields "defaults" "metric_description" = some v →
      (CardText.chosen m.metric defaults).description = w)

theorem showsCards_of_says {m : Message} (h : Says s how fields m) :
    ∃ defaults, ShowsCards s how fields defaults m := by
  obtain ⟨metric, hmetric, hmt, hmd⟩ := h.metric
  obtain ⟨block, title, description, hblock, hdt, hdd, hm⟩ := h.defaults
  have hgiven : BlockSays s how fields "metric" "title" "description" m.metric :=
    .of_blockAt hmetric hmt hmd
  have hdefaults : BlockSays s how fields "defaults" "metric_title" "metric_description"
      ⟨title, description⟩ := .of_blockAt hblock hdt hdd
  have hcard : m.metric.card m.defaults = (CardText.chosen m.metric ⟨title, description⟩).card := by
    rw [hm, CardText.card_orElse_standard]
  have hheading : (m.metric.card m.defaults).title =
      (CardText.chosen m.metric ⟨title, description⟩).title := by
    rw [← CardText.orElse_orElse_standard, ← hm]
    rfl
  refine ⟨⟨title, description⟩,
    { metric := hgiven
      given := hdefaults
      filled := hm
      complete := hm ▸ CardText.complete_standard.orElse _
      document := m.render_frame
      cards := List.forall₂_map_right_iff.mpr (List.forall₂_same.mpr ?_)
      heading := ⟨hheading, (CardText.complete_chosen _ _).title⟩
      slight := fun v w hw => ?_ }⟩
  · rintro x - rfl
    rw [hcard]
    rfl
  · refine ⟨fun hv => hw.firstGiven_eq hgiven.title hv _,
      fun hv => hw.firstGiven_eq hgiven.description hv _, fun hnil hv => ?_, fun hnil hv => ?_⟩
    · simp only [CardText.chosen, hnil, Text.firstGiven_cons_nil]
      exact hw.firstGiven_eq hdefaults.title hv _
    · simp only [CardText.chosen, hnil, Text.firstGiven_cons_nil]
      exact hw.firstGiven_eq hdefaults.description hv _

theorem showsCards_of_ofValue {path : Path} {v : Yaml.Value} {m : Message}
    (h : ofValue how path s v = .ok m) :
    ∃ fields defaults, s.entries? v = some fields ∧ ShowsCards s how fields defaults m := by
  obtain ⟨fields, htop, hsays⟩ := ofValue_eq_ok.mp h
  obtain ⟨defaults, hshows⟩ := showsCards_of_says hsays
  exact ⟨fields, defaults, hsays.entries?_of_topLevel htop, hshows⟩

/-- The cards of a message show the first texts that are given, whatever value the message is of. So
they have a heading, and a slight value is not passed over. A message from a file is that of the
value that the file holds. -/
theorem cards_of_load (how : Yaml.Writer) (path : Path) (m : Message) :
    (∀ s v, ofValue how path s v = .ok m →
      ∃ fields defaults, s.entries? v = some fields ∧ ShowsCards s how fields defaults m) ∧
    ∀ fs here, load fs here path how = .ok m → ∃ loaded fields defaults,
      Holds fs here path loaded ∧ loaded.store.entries? loaded.root = some fields ∧
      ShowsCards loaded.store how fields defaults m := by
  refine ⟨fun s v h => showsCards_of_ofValue h, fun fs here h => ?_⟩
  obtain ⟨loaded, hholds, h⟩ := holds_of_load h
  obtain ⟨fields, defaults, hfields, hshows⟩ := showsCards_of_ofValue h
  exact ⟨loaded, fields, defaults, hholds, hfields, hshows⟩

/-- A title that is false, and a blank default of a description that is null. -/
theorem cards_of_load_slight :
    let text : Text := "body: '[METRIC_ATTACH_CARD]'\nmetric:\n  title: false\n  description:\n" ++
      "defaults:\n  metric_title: T\n  metric_description: ' '\n".toList
    let files : Files := { entries := [(["w"], .directory),
      (["b", "w"], .file (Encoding.encode text))] }
    ∃ m, load files ["w"] (.ofText "b") = .ok m ∧
      m.content.map Html.Node.render = [Html.renderCard ⟨"False", " "⟩] := by
  intro text files
  let m : Message :=
    { body := "[METRIC_ATTACH_CARD]"
      metric := ⟨"False", []⟩
      defaults := ⟨"T", " "⟩ }
  have hload : load files ["w"] (.ofText "b") = .ok m := by
    have hread : files.read ["w"] (.ofText "b") = .ok (Encoding.encode text) := rfl
    rw [load_of_encoded hread]
    exact toOption_eq_some.mp (by decide +kernel)
  have hblocks : Block.ofText m.body = [.card] := by decide
  obtain ⟨loaded, fields, defaults, -, -, hshows⟩ :=
    (cards_of_load {} (.ofText "b") m).2 files ["w"] hload
  have hdescription : defaults.description = [' '] := by
    have h : [' '] = defaults.description.orElse Card.defaultDescription :=
      congrArg CardText.description hshows.filled
    cases hd : defaults.description with
    | nil =>
      rw [hd, Text.orElse_nil] at h
      exact absurd h (by decide)
    | cons c r => rw [h, hd, Text.orElse_cons]
  have hchosen : CardText.chosen m.metric defaults = ⟨"False", " "⟩ := by
    rw [CardText.chosen, hdescription]
    rfl
  have hcards := hshows.cards
  rw [hchosen, hblocks] at hcards
  obtain ⟨node, rest, hnode, hrest, hcontent⟩ := List.forall₂_cons_left_iff.mp hcards
  obtain rfl := List.forall₂_nil_left_iff.mp hrest
  refine ⟨m, hload, ?_⟩
  rw [hcontent, List.map_singleton, hnode rfl]

end Bulletin.Message
