import Bulletin.Proofs.Message.Fallback

/-! Messages written as mappings. A message is written by every mapping that holds its texts under
their keys, in any order and among any other keys; what is as it would be without the key may be
null or left out. Loading such a mapping gives the message back. -/

namespace Bulletin.Message

/-- A text stands at its key, or null or nothing does where it is the standard one. -/
inductive WritesText (value standard : Text) : Option Yaml.Value → Prop
  | text : WritesText value standard (some (.scalar (.text value)))
  | null (h : value = standard) : WritesText value standard (some (.scalar .null))
  | omitted (h : value = standard) : WritesText value standard none

/-- A block stands at its key, or null or nothing does where an empty block would do. -/
inductive WritesBlock (s : Yaml.Store) (content : Fields → Prop) : Option Yaml.Value → Prop
  | block {v es} (hv : s.entries? v = some es) (hes : content es) : WritesBlock s content (some v)
  | null (h : content []) : WritesBlock s content (some (.scalar .null))
  | omitted (h : content []) : WritesBlock s content none

def entryAt (key : Text) (o : Option Yaml.Value) : Fields :=
  o.toList.map fun v => (.scalar (.text key), v)

/-- The entries of the given keys in their order, for each with what may stand there. -/
inductive EntriesOf : List (Text × (Option Yaml.Value → Prop)) → Fields → Prop
  | nil : EntriesOf [] []
  | cons {key P keys o es} (ho : P o) (h : EntriesOf keys es) :
    EntriesOf ((key, P) :: keys) (entryAt key o ++ es)

/-- The entries of a mapping are, in any order, those of the given keys and others of other keys. -/
def Lists (keys : List (Text × (Option Yaml.Value → Prop))) (es : Fields) : Prop :=
  ∃ own others, EntriesOf keys own ∧ es.Perm (own ++ others) ∧
    ∀ e ∈ others, ∀ k ∈ keys, e.1.sameKey (.scalar (.text k.1)) = false

def WritesCard (titleKey descriptionKey : Text) (t standard : CardText) : Fields → Prop :=
  Lists [(titleKey, WritesText t.title standard.title),
    (descriptionKey, WritesText t.description standard.description)]

def WritesAction (cta : CallToAction) : Fields → Prop :=
  Lists [("text", WritesText cta.text []), ("link", WritesText cta.link []),
    ("description", WritesText cta.description [])]

def WritesFooter (footer : Footer) : Fields → Prop :=
  Lists [("logo", WritesText footer.logo []), ("name", WritesText footer.name []),
    ("title", WritesText footer.title []), ("market", WritesText footer.market [])]

def WritesMessage (s : Yaml.Store) (m : Message) : Fields → Prop :=
  Lists [("body", fun o => o = some (.scalar (.text m.body))),
    ("output", WritesText m.output.text "public/notification.html"),
    ("header_logo", WritesText m.headerLogo []), ("title", WritesText m.title []),
    ("headline", WritesText m.headline []),
    ("metric", WritesBlock s (WritesCard "title" "description" m.metric {})),
    ("defaults",
      WritesBlock s (WritesCard "metric_title" "metric_description" m.defaults .standard)),
    ("cta", WritesBlock s (WritesAction m.cta)), ("footer", WritesBlock s (WritesFooter m.footer))]

variable {s : Yaml.Store} {how : Yaml.Writer} {es : Fields} {key name value standard : Text}
  {keys : List (Text × (Option Yaml.Value → Prop))} {P : Option Yaml.Value → Prop}

def withKey (key : Text) (es : Fields) : Fields :=
  es.filter fun e => e.1.sameKey (.scalar (.text key))

theorem get?_eq_withKey (es : Fields) (key : Text) :
    Yaml.Store.get? es key = (withKey key es).head?.map (·.2) := by
  rw [Yaml.Store.get?, withKey, List.head?_filter]

theorem withKey_append (es es' : Fields) :
    withKey key (es ++ es') = withKey key es ++ withKey key es' := by
  simp [withKey]

theorem withKey_entryAt_self (o : Option Yaml.Value) :
    withKey key (entryAt key o) = entryAt key o := by
  cases o <;> simp [withKey, entryAt, Yaml.Value.sameKey, Yaml.Scalar.sameKey]

theorem withKey_entryAt_of_ne {other : Text} (h : other ≠ key) (o : Option Yaml.Value) :
    withKey key (entryAt other o) = [] := by
  cases o <;> simp [withKey, entryAt, Yaml.Value.sameKey, Yaml.Scalar.sameKey, h]

theorem EntriesOf.withKey_of_notMem (h : EntriesOf keys es) (hkey : key ∉ keys.map (·.1)) :
    withKey key es = [] := by
  induction h with
  | nil => rfl
  | cons ho _ ih =>
    simp only [List.map_cons, List.mem_cons, not_or] at hkey
    rw [withKey_append, withKey_entryAt_of_ne (Ne.symm hkey.1), ih hkey.2, List.append_nil]

theorem EntriesOf.exists_withKey (h : EntriesOf keys es) (hkeys : (keys.map (·.1)).Nodup) :
    ∀ k ∈ keys, ∃ o, k.2 o ∧ withKey k.1 es = entryAt k.1 o := by
  induction h with
  | nil => simp
  | @cons key P keys o es ho h ih =>
    obtain ⟨hkey, hkeys⟩ := List.nodup_cons.mp hkeys
    intro k hk
    rw [withKey_append]
    rcases List.mem_cons.mp hk with rfl | hk
    · exact ⟨o, ho, by rw [withKey_entryAt_self, h.withKey_of_notMem hkey, List.append_nil]⟩
    · have hmem : k.1 ∈ keys.map (·.1) := List.mem_map_of_mem hk
      have hne : key ≠ k.1 := fun heq => hkey (heq ▸ hmem)
      obtain ⟨o', ho', hown⟩ := ih hkeys k hk
      exact ⟨o', ho', by rw [withKey_entryAt_of_ne hne, hown, List.nil_append]⟩

theorem Lists.get? (h : Lists keys es) (hkeys : (keys.map (·.1)).Nodup) :
    ∀ k ∈ keys, k.2 (Yaml.Store.get? es k.1) := by
  obtain ⟨own, others, hown, hperm, hothers⟩ := h
  intro k hk
  obtain ⟨o, ho, hentry⟩ := hown.exists_withKey hkeys k hk
  have hnone : withKey k.1 others = [] :=
    List.filter_eq_nil_iff.mpr fun e he => by simp [hothers e he k hk]
  have hsame : (withKey k.1 es).Perm (entryAt k.1 o) := by
    rw [← hentry, ← List.append_nil (withKey k.1 own), ← hnone, ← withKey_append]
    exact hperm.filter _
  have hgiven : withKey k.1 es = entryAt k.1 o := by
    cases o with
    | none => exact List.perm_nil.mp hsame
    | some v => exact List.perm_singleton.mp hsame
  rw [get?_eq_withKey, hgiven]
  cases o with
  | none => exact ho
  | some v => exact ho

/-! ### What stands at a key is loaded -/

/-- The text at a key is the written one, or it is empty and the written one is standard. -/
theorem WritesText.exists_textAt (h : WritesText value standard (Yaml.Store.get? es key))
    (s : Yaml.Store) (how : Yaml.Writer) :
    ∃ t, textAt s how es key = .ok t ∧ (t = value ∨ t = [] ∧ value = standard) := by
  generalize hw : Yaml.Store.get? es key = o at h
  rw [textAt, given?, hw]
  cases h with
  | text => exact ⟨value, rfl, .inl rfl⟩
  | null h => exact ⟨[], rfl, .inr ⟨rfl, h⟩⟩
  | omitted h => exact ⟨[], rfl, .inr ⟨rfl, h⟩⟩

theorem WritesText.textAt_eq (h : WritesText value [] (Yaml.Store.get? es key)) :
    textAt s how es key = .ok value := by
  obtain ⟨t, ht, rfl | ⟨rfl, rfl⟩⟩ := h.exists_textAt s how
  · exact ht
  · exact ht

/-- A default that is not empty is found again, also where it is left to be the standard one. -/
theorem WritesText.exists_orElse (h : WritesText value standard (Yaml.Store.get? es key))
    (hvalue : value ≠ []) : ∃ t, textAt s how es key = .ok t ∧ t.orElse standard = value := by
  obtain ⟨t, ht, rfl | ⟨rfl, rfl⟩⟩ := h.exists_textAt s how
  · exact ⟨t, ht, Text.orElse_eq_self hvalue standard⟩
  · exact ⟨[], ht, rfl⟩

theorem WritesText.outputAt_eq {p : Path} (hp : p.Normal)
    (h : WritesText p.text "public/notification.html" (Yaml.Store.get? es "output")) :
    outputAt s how es = .ok p := by
  generalize hw : Yaml.Store.get? es "output" = o at h
  have hstandard (h : p.text = "public/notification.html".toList) :
      Path.ofText "public/notification.html" = p := by rw [← h, Path.ofText_text hp]
  rw [outputAt, hw]
  cases h with
  | text =>
    have hgiven : s.isTruthy (.scalar (.text p.text)) = true := by
      simpa [Yaml.Store.isTruthy, Yaml.Scalar.isTruthy] using Path.text_ne_nil hp
    rw [Option.filter_some_pos hgiven]
    simp [Path.ofText_text hp]
  | null h => exact congrArg Except.ok (hstandard h)
  | omitted h => exact congrArg Except.ok (hstandard h)

theorem WritesBlock.exists_blockAt {content : Fields → Prop}
    (h : WritesBlock s content (Yaml.Store.get? es name)) :
    ∃ block, blockAt s es name = .ok block ∧ content block := by
  generalize hw : Yaml.Store.get? es name = o at h
  rw [blockAt, given?, hw]
  cases h with
  | @block v block hv hes =>
    have hnull : isNull v = false := by
      cases v with
      | scalar => cases hv
      | ref | tuple => rfl
    refine ⟨block, ?_, hes⟩
    rw [Option.filter_some_pos (by simp [hnull])]
    simp [hv]
  | null h => exact ⟨[], rfl, h⟩
  | omitted h => exact ⟨[], rfl, h⟩

theorem WritesCard.texts {titleKey descriptionKey : Text} {t standard : CardText}
    (h : WritesCard titleKey descriptionKey t standard es) (hkeys : titleKey ≠ descriptionKey) :
    WritesText t.title standard.title (Yaml.Store.get? es titleKey) ∧
      WritesText t.description standard.description (Yaml.Store.get? es descriptionKey) := by
  have hat := h.get? (by simp [hkeys])
  simp only [List.forall_mem_cons] at hat
  exact ⟨hat.1, hat.2.1⟩

theorem WritesMessage.says {m : Message} (h : WritesMessage s m es) (hdefaults : m.defaults.Complete)
    (hnormal : m.output.Normal) (how : Yaml.Writer) : Says s how es m := by
  have hat := h.get? (by simp only [List.map_cons, List.map_nil]; decide)
  simp only [List.forall_mem_cons] at hat
  obtain ⟨hbody, houtput, hlogo, htitle, hheadline, hmetric, hblock, hcta, hfooter, -⟩ := hat
  obtain ⟨metric, hmetric, hcard⟩ := hmetric.exists_blockAt
  obtain ⟨hmt, hmd⟩ := hcard.texts (by decide)
  obtain ⟨defaults, hblock, hcard⟩ := hblock.exists_blockAt
  obtain ⟨hdt, hdd⟩ := hcard.texts (by decide)
  obtain ⟨cta, hcta, haction⟩ := hcta.exists_blockAt
  have haction := haction.get? (by simp only [List.map_cons, List.map_nil]; decide)
  simp only [List.forall_mem_cons] at haction
  obtain ⟨hct, hcl, hcd, -⟩ := haction
  obtain ⟨footer, hfooter, hsignature⟩ := hfooter.exists_blockAt
  have hsignature := hsignature.get? (by simp only [List.map_cons, List.map_nil]; decide)
  simp only [List.forall_mem_cons] at hsignature
  obtain ⟨hfl, hfn, hft, hfm, -⟩ := hsignature
  obtain ⟨dt, hdt, hdt'⟩ := hdt.exists_orElse hdefaults.title
  obtain ⟨dd, hdd, hdd'⟩ := hdd.exists_orElse hdefaults.description
  exact
    { body := ⟨_, by rw [given?, hbody]; rfl, rfl⟩
      output := houtput.outputAt_eq hnormal
      headerLogo := hlogo.textAt_eq
      title := htitle.textAt_eq
      headline := hheadline.textAt_eq
      metric := ⟨metric, hmetric, hmt.textAt_eq, hmd.textAt_eq⟩
      defaults := ⟨defaults, dt, dd, hblock, hdt, hdd, by rw [CardText.orElse, hdt', hdd']⟩
      cta := ⟨cta, hcta, hct.textAt_eq, hcl.textAt_eq, hcd.textAt_eq⟩
      footer := ⟨footer, hfooter, hfl.textAt_eq, hfn.textAt_eq, hft.textAt_eq, hfm.textAt_eq⟩ }

/-- A message that is written as a mapping is loaded again, from the value and from every file that
holds it. -/
theorem load_written (how : Yaml.Writer) (path : Path) (s : Yaml.Store) (v : Yaml.Value)
    (es : Fields) (m : Message) (hdefaults : m.defaults.Complete) (houtput : m.output.Normal)
    (hv : s.entries? v = some es) (hes : WritesMessage s m es) :
    ofValue how path s v = .ok m ∧
      ∀ fs here, Holds fs here path ⟨s, v⟩ → load fs here path how = .ok m := by
  have hsays := hes.says hdefaults houtput how
  have htop : topLevel s v = .ok es := by
    obtain ⟨b, hbody, -⟩ := hsays.body
    have hgiven : s.isTruthy v = true := by
      rw [isTruthy_of_entries? hv]
      cases es with
      | nil => cases hbody
      | cons => rfl
    rw [topLevel, if_pos hgiven, hv]
  have hm : ofValue how path s v = .ok m := ofValue_eq_ok.mpr ⟨es, htop, hsays⟩
  exact ⟨hm, fun fs here h => (load_of_holds h how).trans hm⟩

/-- Keys in reverse, one that is unknown and refers back to the whole mapping, one that is no text;
nulls, a missing headline, a null block, and a block with a key that belongs to another. -/
theorem load_written_reversed :
    let text := fun t : Text => Yaml.Value.scalar (.text t)
    let whole : Fields :=
      [(text "zeta", .ref 0), (.scalar (.int 1), text "body"), (text "footer", .ref 3),
        (text "cta", .scalar .null), (text "defaults", .ref 2), (text "metric", .ref 1),
        (text "title", text "T"), (text "header_logo", .scalar .null),
        (text "output", text "../out/x.html"), (text "body", text "")]
    let s : Yaml.Store :=
      #[.map false whole,
        .map true [(text "description", .scalar .null), (text "title", text "M")],
        .map false [(text "title", text "M"), (text "metric_title", text "D")],
        .map false [(text "market", text "N")]]
    let m : Message :=
      { body := []
        output := .ofText "../out//x.html"
        title := "T"
        metric := ⟨"M", []⟩
        defaults := ⟨"D", Card.defaultDescription⟩
        footer := { market := "N" } }
    m.defaults.Complete ∧ m.output.Normal ∧ s.entries? (.ref 0) = some whole ∧
      WritesMessage s m whole ∧ ofValue {} (.ofText "m.yaml") s (.ref 0) = .ok m := by
  intro text whole s m
  have hdefaults : m.defaults.Complete := ⟨by decide, by decide⟩
  have houtput : m.output.Normal := Path.normal_ofText _
  have hmetric : WritesCard "title" "description" m.metric {}
      [(text "description", .scalar .null), (text "title", text "M")] :=
    ⟨_, [], .cons .text (.cons (.null rfl) .nil), (List.reverse_perm _).symm.trans (.of_eq rfl),
      by simp⟩
  have hblock : WritesCard "metric_title" "metric_description" m.defaults .standard
      [(text "title", text "M"), (text "metric_title", text "D")] :=
    ⟨_, [(text "title", text "M")], .cons .text (.cons (.omitted rfl) .nil),
      (List.reverse_perm _).symm.trans (.of_eq rfl), by decide⟩
  have hcta : WritesAction m.cta [] :=
    ⟨_, [], .cons (.omitted rfl) (.cons (.omitted rfl) (.cons (.omitted rfl) .nil)), .refl _,
      by simp⟩
  have hfooter : WritesFooter m.footer [(text "market", text "N")] :=
    ⟨_, [], .cons (.omitted rfl) (.cons (.omitted rfl) (.cons (.omitted rfl) (.cons .text .nil))),
      .refl _, by simp⟩
  have hes : WritesMessage s m whole := by
    refine ⟨_, [(.scalar (.int 1), text "body"), (text "zeta", .ref 0)],
      .cons rfl (.cons .text (.cons (.null rfl) (.cons .text (.cons (.omitted rfl)
        (.cons (.block (v := .ref 1) rfl hmetric) (.cons (.block (v := .ref 2) rfl hblock)
          (.cons (.null hcta) (.cons (.block (v := .ref 3) rfl hfooter) .nil)))))))), ?_, ?_⟩
    · exact (List.reverse_perm _).symm.trans (.of_eq rfl)
    · simp [text, Yaml.Value.sameKey, Yaml.Scalar.sameKey]
  exact ⟨hdefaults, houtput, rfl, hes,
    (load_written {} (.ofText "m.yaml") s (.ref 0) whole m hdefaults houtput rfl hes).1⟩

end Bulletin.Message
