import Bulletin.Proofs.Command.Arguments
import Bulletin.Proofs.Html.Frame
import Bulletin.Proofs.Html.Line

/-! The previews of a body and of a card, and the document they are previews of. A body preview
prints the very markup that stands between the two frame parts of a document with this body and this
card; a card preview prints what a body preview prints for a card line that stands alone. -/

namespace Bulletin.Text

theorem uniformLines_append_cons (a r : Text) {c : Char} (hc : c ≠ '\n') :
    uniformLines (a ++ c :: r) = uniformLines a ++ uniformLines (c :: r) := by
  fun_induction uniformLines a with
  | case1 => rfl
  | case2 a ih => simpa [uniformLines] using ih
  | case3 d a hd ih =>
    cases a with
    | nil => simp [uniformLines, hc]
    | cons e a =>
      rw [List.cons_append, List.cons_append, uniformLines]
      · simpa using ih
      · rintro s rfl he
        exact hd a rfl (by rw [(List.cons.inj he).1])

theorem uniformLines_append_of_line {a : Text} (r : Text) (ha : '\r' ∉ a) :
    uniformLines (a ++ r) = a ++ uniformLines r := by
  induction a with
  | nil => rfl
  | cons c a ih =>
    simp only [List.mem_cons, not_or] at ha
    rw [List.cons_append, uniformLines, ih ha.2]
    · simp [Ne.symm ha.1]
    · rintro s rfl
      simp at ha

theorem allBlank_uniformLines {t : Text} (h : AllBlank t) : AllBlank (uniformLines t) := by
  fun_induction uniformLines t with
  | case1 => simp
  | case2 r ih => simp_all
  | case3 c r _ ih =>
    rw [allBlank_cons] at h ⊢
    refine ⟨?_, ih h.2⟩
    split
    · exact isBlank_newline
    · exact h.1

end Bulletin.Text

namespace Bulletin.Html
open Text

/-- A file that holds nothing but a card line shows the card alone, whatever its line endings. -/
theorem renderBody_cardLine {u v : Text} (t fallback : CardText) (hu : AllBlank u)
    (hv : AllBlank v) :
    renderBody (u ++ Block.cardToken ++ v).uniformLines t fallback = renderCard t fallback := by
  have htoken : Block.cardToken = '[' :: "METRIC_ATTACH_CARD]".toList := by decide
  have huniform : (u ++ Block.cardToken ++ v).uniformLines =
      u.uniformLines ++ Block.cardToken ++ v.uniformLines := by
    have hv' : (Block.cardToken ++ v).uniformLines = Block.cardToken ++ v.uniformLines :=
      uniformLines_append_of_line v (by decide)
    rw [List.append_assoc, List.append_assoc, ← hv', htoken, List.cons_append]
    exact uniformLines_append_cons u _ (by decide)
  rw [huniform, renderBody_pad _ t fallback (allBlank_uniformLines hu) (allBlank_uniformLines hv)]
  exact (renderBody_eq_renderCard_iff t fallback (by decide)).mpr (by decide)

end Bulletin.Html

namespace Bulletin.Command

variable {fs : Files} {here : Place} {environment : Text → Option Text} {path b : Text}

theorem readText_encode {p : Path} (h : fs.read here p = .ok (Encoding.encode b)) :
    readText fs here p = .ok b.uniformLines := by
  simp [readText, h, Except.mapError, Encoding.readText?_encode, bind, Except.bind]

theorem runArguments_of_ofArguments? {args : List Text} {c : Command}
    (h : ofArguments? args environment = some c) :
    runArguments fs here args environment = run fs here c := by
  rw [runArguments, h]

theorem runArguments_body (t : CardText) (hpath : path.head? ≠ some '-')
    (hread : fs.read here (.ofText path) = .ok (Encoding.encode b))
    (hfile : environment "INPUT_METRIC_DESCRIPTION_FILE" = none) :
    runArguments fs here (bodyArguments path t) environment =
      (fs, .ok (Html.renderBody b.uniformLines t ++ ['\n'])) := by
  have hargs := ofArguments?_body t environment hpath
  rw [hfile, Option.map_none] at hargs
  have hpreview : previewBody fs here (.ofText path) t.title t.description none =
      readText fs here (.ofText path) >>= fun body => .ok (Html.renderBody body t ++ ['\n']) := rfl
  rw [runArguments_of_ofArguments? hargs, run, hpreview, readText_encode hread]
  rfl

theorem runArguments_card (t : CardText) (hfile : environment "INPUT_DESCRIPTION_FILE" = none) :
    runArguments fs here (cardArguments t) environment =
      (fs, .ok (Html.renderCard t ++ ['\n'])) := by
  have hargs := ofArguments?_card t environment
  rw [hfile, Option.map_none] at hargs
  rw [runArguments_of_ofArguments? hargs]
  rfl

/-- The previews agree with the document. A body preview prints the fragment that stands in the
document of every message with this body, this card and the standard fallbacks, between a part that
knows the header only and a part that knows the call to action and the footer only. A card preview
prints what a body preview prints for a file with nothing but a card line. -/
theorem previews_agree (fs : Files) (here : Place) (environment : Text → Option Text)
    (path b : Text) (t : CardText) (hpath : path.head? ≠ some '-')
    (hread : fs.read here (.ofText path) = .ok (Encoding.encode b))
    (hbody : environment "INPUT_METRIC_DESCRIPTION_FILE" = none)
    (hcard : environment "INPUT_DESCRIPTION_FILE" = none) :
    (∃ fragment shown : Text,
      runArguments fs here (bodyArguments path t) environment = (fs, .ok (fragment ++ ['\n'])) ∧
      runArguments fs here (cardArguments t) environment = (fs, .ok (shown ++ ['\n'])) ∧
      (∀ (fs' : Files) (path' u v : Text), path'.head? ≠ some '-' → Text.AllBlank u →
        Text.AllBlank v →
        fs'.read here (.ofText path') = .ok (Encoding.encode (u ++ Block.cardToken ++ v)) →
        runArguments fs' here (bodyArguments path' t) environment =
          (fs', .ok (shown ++ ['\n']))) ∧
      ∀ m : Message, m.body = b.uniformLines → m.metric = t → m.defaults = .standard →
        m.render = Message.upToBody m.headerLogo m.title m.headline ++ fragment ++
          Message.fromBody m.cta m.footer) ∧
    (∀ headerLogo title headline : Text, ∃ start rules,
      Message.upToBody headerLogo title headline =
        start ++ Html.openTag "td" (("id", "body") :: Html.style rules)) ∧
    ∀ (cta : CallToAction) (footer : Footer), ∃ rest,
      Message.fromBody cta footer = "</td>".toList ++ rest ++ "</html>\n".toList := by
  refine ⟨⟨Html.renderBody b.uniformLines t, Html.renderCard t, runArguments_body t hpath hread hbody,
    runArguments_card t hcard, ?_, ?_⟩, ?_, Message.fromBody_ends⟩
  · intro fs' path' u v hpath' hu hv hread'
    rw [runArguments_body t hpath' hread' hbody, Html.renderBody_cardLine t .standard hu hv]
  · rintro m hmbody rfl hdefaults
    rw [m.render_frame, hmbody, hdefaults]
  · exact fun headerLogo title headline => ⟨_, _, rfl⟩

/-- A body with line endings of three kinds, a title with an equals sign, an empty description, and
a file with a padded card line. -/
theorem previews_agree_endings :
    let body : Text := "Hi\r\n[METRIC_ATTACH_CARD]\r*x*\n"
    let line : Text := " [METRIC_ATTACH_CARD]\r\n"
    let files : Files := { entries := [(["w"], .directory),
      (["b", "w"], .file (Encoding.encode body)), (["c", "w"], .file (Encoding.encode line))] }
    let m : Message :=
      { body := "Hi\n[METRIC_ATTACH_CARD]\n*x*\n"
        title := "N"
        metric := ⟨"a=b", []⟩
        cta := ⟨"Go", "x", []⟩ }
    let unset : Text → Option Text := fun _ => none
    files.read ["w"] (.ofText "b") = .ok (Encoding.encode body) ∧
      files.read ["w"] (.ofText "./c") = .ok (Encoding.encode line) ∧
      ∃ fragment shown : Text,
        runArguments files ["w"] ["body", "b", "--metric-title=a=b", "--metric-description="] unset =
          (files, .ok (fragment ++ ['\n'])) ∧
        runArguments files ["w"] ["card", "--title=a=b", "--description="] unset =
          (files, .ok (shown ++ ['\n'])) ∧
        runArguments files ["w"] ["body", "./c", "--metric-title=a=b", "--metric-description="]
          unset = (files, .ok (shown ++ ['\n'])) ∧
        m.render = Message.upToBody [] "N" [] ++ fragment ++ Message.fromBody m.cta m.footer := by
  intro body line files m unset
  have hb : files.locate ["w"] (.ofText "b") = .ok ["b", "w"] := by decide
  have hc : files.locate ["w"] (.ofText "./c") = .ok ["c", "w"] := by decide
  have hread : files.read ["w"] (.ofText "b") = .ok (Encoding.encode body) := by
    rw [Files.read, hb]
    rfl
  have hread' : files.read ["w"] (.ofText "./c") =
      .ok (Encoding.encode ([' '] ++ Block.cardToken ++ ['\r', '\n'])) := by
    rw [Files.read, hc]
    rfl
  have hargs (p : Text) : bodyArguments p m.metric =
      ([("body" : Text), p, "--metric-title=a=b", "--metric-description="] : List Text) := rfl
  have hargs' : cardArguments m.metric =
      (["card", "--title=a=b", "--description="] : List Text) := by decide
  have huniform : m.body = body.uniformLines := by decide
  obtain ⟨⟨fragment, shown, hbody, hcard, hline, hrender⟩, -⟩ :=
    previews_agree files ["w"] unset "b" body m.metric (by decide) hread rfl rfl
  rw [hargs] at hbody
  rw [hargs'] at hcard
  refine ⟨hread, hread', fragment, shown, hbody, hcard, ?_, hrender m huniform rfl rfl⟩
  rw [← hargs]
  exact hline files "./c" [' '] ['\r', '\n'] (by decide) (by decide) (by decide) hread'

end Bulletin.Command
