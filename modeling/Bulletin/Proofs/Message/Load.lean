import Bulletin.Message.Load
import Bulletin.Proofs.Files
import Bulletin.Proofs.Path

/-! Loading a message. A value gives a message exactly where it is a mapping whose entries say what
the fields of the message are. -/

namespace Bulletin.Message

theorem isTruthy_of_entries? {s : Yaml.Store} {v : Yaml.Value} {entries : Fields}
    (h : s.entries? v = some entries) : s.isTruthy v = !entries.isEmpty := by
  cases v with
  | scalar | tuple => cases h
  | ref id =>
    rw [Yaml.Store.entries?] at h
    rw [Yaml.Store.isTruthy]
    split at h
    case h_1 hid =>
      obtain rfl := Option.some.inj h
      rw [hid]
    case h_2 => cases h

theorem isNull_iff {v : Yaml.Value} : isNull v ↔ v = .scalar .null := by
  cases v with
  | scalar a => cases a <;> simp [isNull]
  | ref | tuple => simp [isNull]

theorem given?_cases (fields : Fields) (key : Text) :
    (Yaml.Store.get? fields key = none ∧ given? fields key = none) ∨
    (Yaml.Store.get? fields key = some (.scalar .null) ∧ given? fields key = none) ∨
    ∃ v, v ≠ .scalar .null ∧ Yaml.Store.get? fields key = some v ∧ given? fields key = some v := by
  unfold given?
  cases Yaml.Store.get? fields key with
  | none => exact .inl ⟨rfl, rfl⟩
  | some v =>
    by_cases hnull : isNull v
    · obtain rfl := isNull_iff.mp hnull
      exact .inr (.inl ⟨rfl, rfl⟩)
    · exact .inr (.inr ⟨v, fun hv => hnull (isNull_iff.mpr hv), rfl,
        Option.filter_some_pos (by simp [hnull])⟩)

/-- The fields of the message are, one by one, what the entries say. The blocks are looked up first,
and each of their fields in the block it belongs to. -/
structure Says (s : Yaml.Store) (how : Yaml.Writer) (fields : Fields) (m : Message) : Prop where
  body : ∃ v, given? fields "body" = some v ∧ textOf s how.outer v = .ok m.body
  output : outputAt s how fields = .ok m.output
  headerLogo : textAt s how fields "header_logo" = .ok m.headerLogo
  title : textAt s how fields "title" = .ok m.title
  headline : textAt s how fields "headline" = .ok m.headline
  metric : ∃ block, blockAt s fields "metric" = .ok block ∧
    textAt s how block "title" = .ok m.metric.title ∧
    textAt s how block "description" = .ok m.metric.description
  defaults : ∃ block title description, blockAt s fields "defaults" = .ok block ∧
    textAt s how block "metric_title" = .ok title ∧
    textAt s how block "metric_description" = .ok description ∧
    m.defaults = (CardText.mk title description).orElse .standard
  cta : ∃ block, blockAt s fields "cta" = .ok block ∧ textAt s how block "text" = .ok m.cta.text ∧
    textAt s how block "link" = .ok m.cta.link ∧
    textAt s how block "description" = .ok m.cta.description
  footer : ∃ block, blockAt s fields "footer" = .ok block ∧
    textAt s how block "logo" = .ok m.footer.logo ∧ textAt s how block "name" = .ok m.footer.name ∧
    textAt s how block "title" = .ok m.footer.title ∧ textAt s how block "market" = .ok m.footer.market

theorem ofValue_eq_ok {how : Yaml.Writer} {path : Path} {s : Yaml.Store} {v : Yaml.Value}
    {m : Message} :
    ofValue how path s v = .ok m ↔ ∃ fields, topLevel s v = .ok fields ∧ Says s how fields m := by
  rw [ofValue, bind_eq_ok]
  refine exists_congr fun fields => and_congr_right fun _ => ?_
  cases hbody : given? fields "body" with
  | none =>
    refine iff_of_false (by simp [bind_eq_ok]) fun h => ?_
    obtain ⟨_, hgiven, -⟩ := h.body
    rw [hbody] at hgiven
    cases hgiven
  | some b =>
    simp only [bind_eq_ok, pure_eq_ok, Except.ok.injEq, exists_eq_left']
    constructor
    · rintro ⟨defaults, hdefaults, defaultTitle, hdt, defaultDescription, hdd,
        metric, hmetric, cta, hcta, footer, hfooter, body, hb, output, houtput, logo, hlogo,
        title, htitle, headline, hheadline, mt, hmt, md, hmd, ct, hct, cl, hcl, cd, hcd,
        fl, hfl, fn, hfn, ft, hft, fm, hfm, rfl⟩
      exact
        { body := ⟨b, hbody, hb⟩
          output := houtput
          headerLogo := hlogo
          title := htitle
          headline := hheadline
          metric := ⟨metric, hmetric, hmt, hmd⟩
          defaults := ⟨defaults, defaultTitle, defaultDescription, hdefaults, hdt, hdd, rfl⟩
          cta := ⟨cta, hcta, hct, hcl, hcd⟩
          footer := ⟨footer, hfooter, hfl, hfn, hft, hfm⟩ }
    · intro h
      obtain ⟨_, hgiven, hb⟩ := h.body
      obtain rfl := Option.some.inj (hbody.symm.trans hgiven)
      obtain ⟨metric, hmetric, hmt, hmd⟩ := h.metric
      obtain ⟨defaults, defaultTitle, defaultDescription, hdefaults, hdt, hdd, hm⟩ := h.defaults
      obtain ⟨cta, hcta, hct, hcl, hcd⟩ := h.cta
      obtain ⟨footer, hfooter, hfl, hfn, hft, hfm⟩ := h.footer
      refine ⟨defaults, hdefaults, defaultTitle, hdt, defaultDescription, hdd, metric, hmetric,
        cta, hcta, footer, hfooter, m.body, hb, m.output, h.output, m.headerLogo, h.headerLogo,
        m.title, h.title, m.headline, h.headline, _, hmt, _, hmd, _, hct, _, hcl, _, hcd, _, hfl,
        _, hfn, _, hft, _, hfm, ?_⟩
      rw [← hm]

/-- A value that gives a message is a mapping: one that is not has no body. -/
theorem Says.entries?_of_topLevel {s : Yaml.Store} {how : Yaml.Writer} {fields : Fields}
    {v : Yaml.Value} {m : Message} (hread : Says s how fields m) (h : topLevel s v = .ok fields) :
    s.entries? v = some fields := by
  unfold topLevel at h
  split at h
  · split at h
    · obtain rfl := Except.ok.inj h
      assumption
    · cases h
  · obtain rfl := Except.ok.inj h
    obtain ⟨b, hbody, -⟩ := hread.body
    cases hbody

def Holds (fs : Files) (here : Place) (path : Path) (loaded : Yaml.Loaded) : Prop :=
  ∃ bytes text, fs.read here path = .ok bytes ∧ Encoding.readText? bytes = some text ∧
    Yaml.load text = .ok loaded

theorem holds_of_load {fs : Files} {here : Place} {path : Path} {how : Yaml.Writer} {m : Message}
    (h : load fs here path how = .ok m) :
    ∃ loaded, Holds fs here path loaded ∧ ofValue how path loaded.store loaded.root = .ok m := by
  obtain ⟨there, -, h⟩ := bind_eq_ok.mp h
  cases there with
  | false => cases h
  | true =>
    obtain ⟨bytes, hbytes, h⟩ := bind_eq_ok.mp h
    cases htext : Encoding.readText? bytes with
    | none =>
      rw [htext] at h
      cases h
    | some text =>
      rw [htext] at h
      obtain ⟨_, ⟨⟩, h⟩ := bind_eq_ok.mp h
      obtain ⟨loaded, hloaded, h⟩ := bind_eq_ok.mp h
      exact ⟨loaded, ⟨bytes, text, mapError_eq_ok.mp hbytes, htext, mapError_eq_ok.mp hloaded⟩, h⟩

theorem exists?_of_read {fs : Files} {here : Place} {p : Path} {bytes : ByteArray}
    (h : fs.read here p = .ok bytes) : fs.exists? here p = .ok true := by
  obtain ⟨place, hplace, h⟩ := bind_eq_ok.mp h
  rw [Files.exists?, hplace]
  cases hat : fs.at? place with
  | none =>
    rw [hat] at h
    cases h
  | some entry => simp [hat]

theorem load_of_holds {fs : Files} {here : Place} {path : Path} {loaded : Yaml.Loaded}
    (h : Holds fs here path loaded) (how : Yaml.Writer) :
    load fs here path how = ofValue how path loaded.store loaded.root := by
  obtain ⟨bytes, text, hbytes, htext, hloaded⟩ := h
  simp [load, exists?_of_read hbytes, hbytes, htext, hloaded, bind, Except.bind, Except.mapError]

theorem load_of_encoded {fs : Files} {here : Place} {path : Path} {text : Text}
    (h : fs.read here path = .ok (Encoding.encode text)) (how : Yaml.Writer) :
    load fs here path how = (do
      let loaded ← (Yaml.load text.uniformLines).mapError .yaml
      ofValue how path loaded.store loaded.root) := by
  simp [load, exists?_of_read h, h, Encoding.readText?_encode, bind, Except.bind, Except.mapError]

theorem normal_of_outputAt {s : Yaml.Store} {how : Yaml.Writer} {fields : Fields} {p : Path}
    (h : outputAt s how fields = .ok p) : p.Normal := by
  unfold outputAt at h
  split at h
  case h_4 => simp at h
  all_goals
    obtain rfl := Except.ok.inj h
    exact Path.normal_ofText _

/-- The output of a message that was loaded is a path that was read from a text: the one its file
names, or the standard one. -/
theorem normal_output_of_load {fs : Files} {here : Place} {path : Path} {how : Yaml.Writer}
    {m : Message} (h : load fs here path how = .ok m) : m.output.Normal := by
  obtain ⟨loaded, -, h⟩ := holds_of_load h
  obtain ⟨fields, -, h⟩ := ofValue_eq_ok.mp h
  exact normal_of_outputAt h.output

end Bulletin.Message
