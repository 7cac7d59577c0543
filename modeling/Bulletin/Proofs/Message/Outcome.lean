import Bulletin.Proofs.Message.Fallback
import Bulletin.Proofs.Yaml.Text

/-! How loading ends. A load makes its checks in a fixed order and ends with the error of the first
one that finds a defect, whatever else is wrong with the value; a message is the result exactly
where no check finds one. The checks are on the shape of the value, and, where a text is copied, on
the value that the text is taken from, which may have none. -/

namespace Bulletin.Message

/-- What a load checks: the whole value, its body, a block, the value of a text, the output. -/
inductive Check where
  | whole
  | body
  | block (name : Text)
  | bodyText
  | text (key : Text)
  | textIn (block key : Text)
  | output

def Check.isText : Check → Bool
  | .bodyText => true
  | .text _ => true
  | .textIn _ _ => true
  | _ => false

def shapeChecks : List Check :=
  [.whole, .body, .block "defaults", .block "metric", .block "cta", .block "footer", .output]

/-- All checks in their order. The defaults are copied before the other blocks are looked up, the
body before the output is, and every other text after it. -/
def checks : List Check :=
  [.whole, .body, .block "defaults", .textIn "defaults" "metric_title",
    .textIn "defaults" "metric_description", .block "metric", .block "cta", .block "footer",
    .bodyText, .output, .text "header_logo", .text "title", .text "headline",
    .textIn "metric" "title", .textIn "metric" "description", .textIn "cta" "text",
    .textIn "cta" "link", .textIn "cta" "description", .textIn "footer" "logo",
    .textIn "footer" "name", .textIn "footer" "title", .textIn "footer" "market"]

/-- The entries of the whole value, which has none where it is no mapping. -/
def fieldsOf (s : Yaml.Store) (v : Yaml.Value) : Fields := (s.entries? v).getD []

/-- The value is a text, perhaps one with lone surrogates. -/
inductive IsStr : Yaml.Value → Prop
  | text (t : Text) : IsStr (.scalar (.text t))
  | unpaired (points : List Nat) : IsStr (.scalar (.unpaired points))

/-- A check finds a defect in a value, with the error that reports it. -/
inductive Defect (how : Yaml.Writer) (path : Path) (s : Yaml.Store) (v : Yaml.Value) :
    Check → LoadError → Prop
  | notMapping (hgiven : s.isTruthy v) (hv : s.entries? v = none) :
    Defect how path s v .whole .notMapping
  | noBody (hbody : Yaml.Store.get? (fieldsOf s v) "body" = none ∨
      Yaml.Store.get? (fieldsOf s v) "body" = some (.scalar .null)) :
    Defect how path s v .body (.noBody path)
  | notBlock {name b} (hb : Yaml.Store.get? (fieldsOf s v) name = some b)
    (hnull : b ≠ .scalar .null) (hentries : s.entries? b = none) :
    Defect how path s v (.block name) (.blockNotMapping name (s.kind b))
  | bodyText {w f} (hw : Yaml.Store.get? (fieldsOf s v) "body" = some w)
    (hf : s.text how.outer w = .error f) : Defect how path s v .bodyText (.noText f)
  | text {key w f} (hw : Yaml.Store.get? (fieldsOf s v) key = some w)
    (hf : s.text how w = .error f) : Defect how path s v (.text key) (.noText f)
  | textIn {name key w f} (hw : inBlock? s (fieldsOf s v) name key = some w)
    (hf : s.text how w = .error f) : Defect how path s v (.textIn name key) (.noText f)
  | output {w} (hw : Yaml.Store.get? (fieldsOf s v) "output" = some w) (hgiven : s.isTruthy w)
    (hstr : ¬IsStr w) : Defect how path s v .output .outputNotText

variable {how : Yaml.Writer} {path : Path} {s : Yaml.Store} {v : Yaml.Value}
  {fields block : Fields} {key name : Text} {D : Check → LoadError → Prop} {c : Check}
  {cs : List Check} {e : LoadError}

/-- The first of the checks that finds a defect reports the error. -/
def FirstDefect (D : Check → LoadError → Prop) (cs : List Check) (e : LoadError) : Prop :=
  ∃ before c after, cs = before ++ c :: after ∧ D c e ∧ ∀ c' ∈ before, ∀ e', ¬D c' e'

theorem not_firstDefect_nil : ¬FirstDefect D [] e := by
  rintro ⟨before, c, after, h, -⟩
  simp at h

theorem firstDefect_cons_iff :
    FirstDefect D (c :: cs) e ↔ D c e ∨ (∀ e', ¬D c e') ∧ FirstDefect D cs e := by
  constructor
  · rintro ⟨before, c', after, h, hc, hbefore⟩
    cases before with
    | nil =>
      obtain ⟨rfl, rfl⟩ := List.cons.inj h
      exact .inl hc
    | cons b before =>
      obtain ⟨rfl, rfl⟩ := List.cons.inj h
      exact .inr ⟨hbefore c (by simp), before, c', after, rfl, hc,
        fun d hd => hbefore d (by simp [hd])⟩
  · rintro (hc | ⟨hnone, before, c', after, rfl, hc, hbefore⟩)
    · exact ⟨[], c, cs, rfl, hc, by simp⟩
    · refine ⟨c :: before, c', after, rfl, hc, fun d hd => ?_⟩
      rcases List.mem_cons.mp hd with rfl | hd
      · exact hnone
      · exact hbefore d hd

theorem exists_firstDefect_iff : (∃ e, FirstDefect D cs e) ↔ ∃ c ∈ cs, ∃ e, D c e := by
  induction cs with
  | nil => simp [not_firstDefect_nil]
  | cons c cs ih =>
    simp only [firstDefect_cons_iff, exists_or, exists_and_left, ih, List.mem_cons,
      exists_eq_or_imp]
    by_cases hc : ∃ e, D c e
    · simp [hc]
    · simp only [hc, false_or, and_iff_right_iff_imp]
      exact fun _ e he => hc ⟨e, he⟩

theorem firstDefect_filter_iff {p : Check → Bool} (h : ∀ c ∈ cs, ¬p c → ∀ e, ¬D c e) :
    FirstDefect D (cs.filter p) e ↔ FirstDefect D cs e := by
  induction cs with
  | nil => rfl
  | cons c cs ih =>
    have hcs := ih fun d hd => h d (List.mem_cons_of_mem c hd)
    by_cases hc : p c
    · rw [List.filter_cons_of_pos hc, firstDefect_cons_iff, firstDefect_cons_iff, hcs]
    · have hnone := h c List.mem_cons_self hc
      rw [List.filter_cons_of_neg hc, firstDefect_cons_iff, hcs]
      simp [hnone]

/-- A part of a load ends with the first defect that its checks find. -/
def Ends {α : Type} (D : Check → LoadError → Prop) (cs : List Check) (x : Except LoadError α) :
    Prop :=
  ∀ e, x = .error e ↔ FirstDefect D cs e

namespace Ends

variable {α β : Type}

theorem pure (a : α) : Ends D [] (Pure.pure a) :=
  fun e => iff_of_false (by simp [Pure.pure, Except.pure]) not_firstDefect_nil

theorem exists_ok_iff {x : Except LoadError α} (h : Ends D cs x) :
    (∃ a, x = .ok a) ↔ ∀ c ∈ cs, ∀ e, ¬D c e := by
  have herror : (∃ e, x = .error e) ↔ ∃ c ∈ cs, ∃ e, D c e := by
    rw [← exists_firstDefect_iff]
    exact exists_congr h
  have hnone : (∀ c ∈ cs, ∀ e, ¬D c e) ↔ ¬∃ c ∈ cs, ∃ e, D c e := by
    push Not
    rfl
  rw [hnone, ← herror]
  cases x <;> simp

/-- One check, and after it the checks of the rest, which may use what the check let through. -/
theorem bind {x : Except LoadError α} {f : α → Except LoadError β}
    (hx : ∀ e, x = .error e ↔ D c e) (hf : ∀ a, x = .ok a → Ends D cs (f a)) :
    Ends D (c :: cs) (x >>= f) := by
  intro e
  rw [firstDefect_cons_iff]
  cases x with
  | error e' =>
    have hc : D c e' := (hx e').mp rfl
    have hnone : ¬∀ e, ¬D c e := fun h => h e' hc
    rw [← hx e]
    simp [Bind.bind, Except.bind, hnone]
  | ok a =>
    have hc : ∀ e', ¬D c e' := fun e' h => by simpa using (hx e').mpr h
    exact (hf a rfl e).trans (by simp [hc])

end Ends

theorem textOf_eq_error_iff {w : Yaml.Value} :
    textOf s how w = .error e ↔ ∃ f, e = .noText f ∧ s.text how w = .error f := by
  unfold textOf
  cases s.text how w <;> simp [Except.mapError, eq_comm]

theorem textAt_eq_error_iff :
    textAt s how fields key = .error e ↔
      ∃ w f, Yaml.Store.get? fields key = some w ∧ e = .noText f ∧ s.text how w = .error f := by
  unfold textAt
  rcases given?_cases fields key with ⟨hw, hgiven⟩ | ⟨hw, hgiven⟩ | ⟨w, -, hw, hgiven⟩ <;>
    rw [hgiven, hw]
  · simp
  · simp [Yaml.Store.text, Yaml.plainScalar, pure, Except.pure]
  · simp [textOf_eq_error_iff]

theorem given?_eq_some_iff {w : Yaml.Value} :
    given? fields key = some w ↔ Yaml.Store.get? fields key = some w ∧ w ≠ .scalar .null := by
  simp [given?, Option.filter_eq_some_iff, ← isNull_iff]

theorem given?_eq_none_iff :
    given? fields key = none ↔
      Yaml.Store.get? fields key = none ∨ Yaml.Store.get? fields key = some (.scalar .null) := by
  rcases given?_cases fields key with ⟨hw, hgiven⟩ | ⟨hw, hgiven⟩ | ⟨w, hnull, hw, hgiven⟩ <;>
    simp_all

/-! ### What each check finds -/

theorem whole_iff : topLevel s v = .error e ↔ Defect how path s v .whole e := by
  unfold topLevel
  constructor
  · intro h
    split at h
    case isFalse => cases h
    case isTrue hgiven =>
      split at h
      · cases h
      · cases h
        exact .notMapping hgiven ‹_›
  · rintro ⟨hgiven, hv⟩
    simp [hgiven, hv]

theorem eq_fieldsOf_of_topLevel (h : topLevel s v = .ok fields) : fields = fieldsOf s v := by
  unfold topLevel at h
  unfold fieldsOf
  cases hentries : s.entries? v with
  | none =>
    rw [hentries] at h
    split at h <;> cases h
    rfl
  | some entries =>
    rw [hentries, isTruthy_of_entries? hentries] at h
    cases entries with
    | nil => cases h; rfl
    | cons entry rest => cases h; rfl

theorem body_iff :
    (match given? (fieldsOf s v) "body" with
      | some b => Except.ok b
      | none => Except.error (LoadError.noBody path)) = .error e ↔ Defect how path s v .body e := by
  constructor
  · intro h
    cases hgiven : given? (fieldsOf s v) "body" with
    | none =>
      rw [hgiven] at h
      cases h
      exact .noBody (given?_eq_none_iff.mp hgiven)
    | some b =>
      rw [hgiven] at h
      cases h
  · intro h
    cases h with
    | noBody hbody => rw [given?_eq_none_iff.mpr hbody]

theorem block_iff :
    blockAt s (fieldsOf s v) name = .error e ↔ Defect how path s v (.block name) e := by
  unfold blockAt
  constructor
  · intro h
    cases hgiven : given? (fieldsOf s v) name with
    | none =>
      rw [hgiven] at h
      cases h
    | some b =>
      obtain ⟨hb, hnull⟩ := given?_eq_some_iff.mp hgiven
      cases hentries : s.entries? b with
      | none =>
        simp only [hgiven, hentries] at h
        cases h
        exact .notBlock hb hnull hentries
      | some entries => simp [hgiven, hentries] at h
  · intro h
    cases h with
    | notBlock hb hnull hentries =>
      rw [given?_eq_some_iff.mpr ⟨hb, hnull⟩]
      simp only [hentries]

theorem text_iff :
    textAt s how (fieldsOf s v) key = .error e ↔ Defect how path s v (.text key) e := by
  rw [textAt_eq_error_iff]
  constructor
  · rintro ⟨w, f, hw, rfl, hf⟩
    exact .text hw hf
  · intro h
    cases h with
    | text hw hf => exact ⟨_, _, hw, rfl, hf⟩

theorem bodyText_iff {b : Yaml.Value} (h : given? (fieldsOf s v) "body" = some b) :
    textOf s how.outer b = .error e ↔ Defect how path s v .bodyText e := by
  have hb := (given?_eq_some_iff.mp h).1
  rw [textOf_eq_error_iff]
  constructor
  · rintro ⟨f, rfl, hf⟩
    exact .bodyText hb hf
  · intro h
    cases h with
    | bodyText hw hf =>
      obtain rfl := Option.some.inj (hb.symm.trans hw)
      exact ⟨_, rfl, hf⟩

theorem textIn_iff (h : blockAt s (fieldsOf s v) name = .ok block) :
    textAt s how block key = .error e ↔ Defect how path s v (.textIn name key) e := by
  rw [textAt_eq_error_iff, ← inBlock?_of_blockAt h]
  constructor
  · rintro ⟨w, f, hw, rfl, hf⟩
    exact .textIn hw hf
  · intro h
    cases h with
    | textIn hw hf => exact ⟨_, _, hw, rfl, hf⟩

theorem output_iff :
    outputAt s how (fieldsOf s v) = .error e ↔ Defect how path s v .output e := by
  unfold outputAt
  constructor
  · intro h
    split at h
    case h_4 w htext hpoints hw =>
      obtain ⟨hw, hgiven⟩ := Option.filter_eq_some_iff.mp hw
      cases h
      refine .output hw hgiven fun hstr => ?_
      cases hstr with
      | text t => exact htext t rfl
      | unpaired points => exact hpoints points rfl
    all_goals cases h
  · intro h
    cases h with
    | @output w hw hgiven hstr =>
      rw [hw, Option.filter_some_pos hgiven]
      split
      case h_1 hnone => cases hnone
      case h_2 t ht =>
        obtain rfl := Option.some.inj ht
        exact absurd (.text t) hstr
      case h_3 points hpoints =>
        obtain rfl := Option.some.inj hpoints
        exact absurd (.unpaired points) hstr
      case h_4 => rfl

theorem ends_ofValue : Ends (Defect how path s v) checks (ofValue how path s v) := by
  refine .bind (fun e => whole_iff) fun fields hfields => ?_
  obtain rfl := eq_fieldsOf_of_topLevel hfields
  cases hbody : given? (fieldsOf s v) "body" with
  | none => exact .bind (fun e => by rw [← body_iff, hbody]) nofun
  | some b =>
    refine .bind (fun e => by rw [← body_iff, hbody]) fun body hok => ?_
    obtain rfl := Except.ok.inj hok
    refine .bind (fun e => block_iff) fun defaults hdefaults => ?_
    refine .bind (fun e => textIn_iff hdefaults) fun _ _ => ?_
    refine .bind (fun e => textIn_iff hdefaults) fun _ _ => ?_
    refine .bind (fun e => block_iff) fun metric hmetric => ?_
    refine .bind (fun e => block_iff) fun cta hcta => ?_
    refine .bind (fun e => block_iff) fun footer hfooter => ?_
    refine .bind (fun e => bodyText_iff hbody) fun _ _ => ?_
    refine .bind (fun e => output_iff) fun _ _ => ?_
    refine .bind (fun e => text_iff) fun _ _ => ?_
    refine .bind (fun e => text_iff) fun _ _ => ?_
    refine .bind (fun e => text_iff) fun _ _ => ?_
    refine .bind (fun e => textIn_iff hmetric) fun _ _ => ?_
    refine .bind (fun e => textIn_iff hmetric) fun _ _ => ?_
    refine .bind (fun e => textIn_iff hcta) fun _ _ => ?_
    refine .bind (fun e => textIn_iff hcta) fun _ _ => ?_
    refine .bind (fun e => textIn_iff hcta) fun _ _ => ?_
    refine .bind (fun e => textIn_iff hfooter) fun _ _ => ?_
    refine .bind (fun e => textIn_iff hfooter) fun _ _ => ?_
    refine .bind (fun e => textIn_iff hfooter) fun _ _ => ?_
    refine .bind (fun e => textIn_iff hfooter) fun _ _ => ?_
    exact .pure _

/-- How loading a file with a value ends. It fails with the error of the first check that finds a
defect, and gives a message where none does. Where every value that is copied has a text, the checks
on the shape of the value decide alone. A value has no text where an integer that is too long to be
written stands in it, or where it nests more calls than there is room for; for nothing else. -/
theorem load_ends (how : Yaml.Writer) (path : Path) (s : Yaml.Store) (v : Yaml.Value) :
    (∀ fs here, Holds fs here path ⟨s, v⟩ → load fs here path how = ofValue how path s v) ∧
    (∀ e, ofValue how path s v = .error e ↔ FirstDefect (Defect how path s v) checks e) ∧
    ((∃ m, ofValue how path s v = .ok m) ↔ ∀ c ∈ checks, ∀ e, ¬Defect how path s v c e) ∧
    ((∀ c ∈ checks, c.isText → ∀ e, ¬Defect how path s v c e) →
      ∀ e, ofValue how path s v = .error e ↔ FirstDefect (Defect how path s v) shapeChecks e) ∧
    (∀ w, Yaml.Fails (s.text how w) (Yaml.NoText s how.room w)) ∧
    (∀ w, ∃ k, ∀ how' : Yaml.Writer, k ≤ how'.room →
      ∀ f, s.text how' w = .error f ↔ f = .tooLong ∧ Yaml.HasLong s w) ∧
    LoadError.notMapping.message? = some "Top-level YAML structure must be a mapping." ∧
    (LoadError.noBody path).message? =
      some ("Message file '".toList ++ path.text ++ "' does not define 'body'.".toList) ∧
    (∀ name kind, (LoadError.blockNotMapping name kind).message? =
      some ("'".toList ++ name ++ "' must be a mapping, got ".toList ++ kind ++ ".".toList)) ∧
    ∀ f, (LoadError.noText f).message? = some f.message := by
  refine ⟨fun fs here h => load_of_holds h how, ends_ofValue, ends_ofValue.exists_ok_iff,
    fun htexts e => ?_, Yaml.fails_text s how, Yaml.exists_room s, rfl, rfl, fun _ _ => rfl,
    fun _ => rfl⟩
  have hshape : shapeChecks = checks.filter fun c => !c.isText := rfl
  rw [ends_ofValue e, hshape, firstDefect_filter_iff]
  exact fun c hc htext => htexts c hc (by simpa using htext)

/-- A default title that is too long an integer hides a metric that is a list: it is copied before
the metric is looked up, so that the first defect of the shape is not the one reported. -/
theorem long_default_hides_metric :
    let text := fun t : Text => Yaml.Value.scalar (.text t)
    let path := Path.ofText "message.yaml"
    let s : Yaml.Store :=
      #[.map false [(text "body", text "Hi"), (text "defaults", .ref 1), (text "metric", .ref 2)],
        .map false [(text "metric_title", .scalar (.int (10 ^ Number.digitLimit : Nat)))], .list []]
    FirstDefect (Defect {} path s (.ref 0)) shapeChecks (.blockNotMapping "metric" "list") ∧
      ofValue {} path s (.ref 0) = .error (.noText .tooLong) := by
  intro text path s
  have hbody : Yaml.Store.get? (fieldsOf s (.ref 0)) "body" = some (text "Hi") := by rfl
  have hdefaults : Yaml.Store.get? (fieldsOf s (.ref 0)) "defaults" = some (.ref 1) := by rfl
  have hmetric : Yaml.Store.get? (fieldsOf s (.ref 0)) "metric" = some (.ref 2) := by rfl
  have htitle : inBlock? s (fieldsOf s (.ref 0)) "defaults" "metric_title" =
      some (.scalar (.int (10 ^ Number.digitLimit : Nat))) := by rfl
  have hlong : s.text {} (.scalar (.int (10 ^ Number.digitLimit : Nat))) = .error .tooLong :=
    Yaml.text_eq_tooLong (by rw [Yaml.Scalar.IsLong, Int.natAbs_natCast])
  have hnull : Yaml.Value.ref 2 ≠ .scalar .null := by simp
  have hbefore : ∀ c ∈ [Check.whole, .body, .block "defaults"],
      ∀ e, ¬Defect {} path s (.ref 0) c e := by
    intro c hc e h
    cases h with
    | notMapping hgiven hv => cases hv
    | noBody hnone => rcases hnone with h | h <;> cases hbody.symm.trans h
    | notBlock hb hnull hentries =>
      obtain rfl : _ = "defaults".toList := by simpa using hc
      obtain rfl := Option.some.inj (hdefaults.symm.trans hb)
      cases hentries
    | bodyText | text | textIn | output => simp at hc
  exact ⟨⟨_, .block "metric", _, rfl, .notBlock hmetric hnull rfl, hbefore⟩,
    (ends_ofValue _).mpr ⟨_, .textIn "defaults" "metric_title", _, rfl, .textIn htitle hlong, hbefore⟩⟩

end Bulletin.Message
