import Bulletin.Files
import Mathlib.Data.List.Basic

/-! What operations do to a tree of files. A path that leads somewhere still leads there as long as
every directory stays. Making directories adds them where nothing stood and touches nothing else,
also if it fails half-way; writing changes the one place its path leads to. -/

namespace Bulletin

section Except

variable {ε ε' α β : Type}

theorem bind_eq_ok {x : Except ε α} {f : α → Except ε β} {b : β} :
    x >>= f = .ok b ↔ ∃ a, x = .ok a ∧ f a = .ok b := by
  cases x <;> simp [bind, Except.bind]

theorem pure_eq_ok {a b : α} : (pure a : Except ε α) = .ok b ↔ a = b := by
  simp [pure, Except.pure]

theorem mapError_eq_ok {x : Except ε α} {f : ε → ε'} {a : α} :
    x.mapError f = .ok a ↔ x = .ok a := by
  cases x <;> simp [Except.mapError]

theorem toOption_eq_some {x : Except ε α} {a : α} : x.toOption = some a ↔ x = .ok a := by
  cases x <;> simp [Except.toOption]

end Except

namespace Files

variable {fs fs' fs'' : Files} {here place next : Place} {p : Path}

def follow (fs : Files) (start : Place) (names : List Text) : Except FileError Place :=
  names.foldlM fs.step start

theorem follow_cons (start : Place) (name : Text) (names : List Text) :
    fs.follow start (name :: names) = fs.step start name >>= fun q => fs.follow q names :=
  List.foldlM_cons

theorem follow_append (start : Place) (names names' : List Text) :
    fs.follow start (names ++ names') =
      fs.follow start names >>= fun q => fs.follow q names' :=
  List.foldlM_append

theorem follow_of_locate (h : fs.locate here p = .ok place) :
    fs.follow (if p.isAbsolute then [] else here) p.parts = .ok place := by
  unfold locate at h
  split at h
  · simp at h
  · split at h
    · simp at h
    · exact h

theorem directory_of_step {name : Text} (h : fs.step place name = .ok next) :
    fs.at? place = some .directory := by
  unfold step at h
  split at h
  · simp at h
  · simp at h
  · assumption

theorem step_congr {name : Text} (h : fs.at? place = fs'.at? place) :
    fs.step place name = fs'.step place name := by
  unfold step
  rw [h]

def KeepsDirectories (fs fs' : Files) : Prop :=
  ∀ place, fs.at? place = some .directory → fs'.at? place = some .directory

theorem KeepsDirectories.trans (h : KeepsDirectories fs fs') (h' : KeepsDirectories fs' fs'') :
    KeepsDirectories fs fs'' := fun place hp => h' place (h place hp)

theorem KeepsDirectories.step {name : Text} (h : KeepsDirectories fs fs')
    (hs : fs.step place name = .ok next) : fs'.step place name = .ok next := by
  have hd := directory_of_step hs
  rw [← step_congr (hd.trans (h place hd).symm), hs]

theorem KeepsDirectories.follow {names : List Text} (h : KeepsDirectories fs fs')
    (hf : fs.follow here names = .ok place) : fs'.follow here names = .ok place := by
  induction names generalizing here with
  | nil => exact hf
  | cons name names ih =>
    rw [follow_cons] at hf ⊢
    obtain ⟨q, hs, hf⟩ := bind_eq_ok.mp hf
    rw [h.step hs]
    exact ih hf

theorem KeepsDirectories.locate (h : KeepsDirectories fs fs')
    (hl : fs.locate here p = .ok place) : fs'.locate here p = .ok place := by
  have hf := h.follow (follow_of_locate hl)
  unfold Files.locate at hl ⊢
  split at hl
  · simp at hl
  · split at hl
    · simp at hl
    · simp_all [Files.follow]

theorem content?_congr (h : fs.at? place = fs'.at? place) :
    fs.content? place = fs'.content? place := by
  unfold content?
  rw [h]

/-- Directories have been made where nothing stood, and all else is as it was. -/
def AddsDirectories (fs fs' : Files) : Prop :=
  ∀ place, fs'.at? place = fs.at? place ∨
    (fs.at? place = none ∧ fs'.at? place = some .directory)

theorem AddsDirectories.refl (fs : Files) : AddsDirectories fs fs := fun _ => Or.inl rfl

theorem AddsDirectories.trans (h : AddsDirectories fs fs') (h' : AddsDirectories fs' fs'') :
    AddsDirectories fs fs'' := by
  intro place
  rcases h' place with h' | ⟨hnone, hdir⟩
  · rw [h']
    exact h place
  · rcases h place with h | ⟨-, hd⟩
    · exact Or.inr ⟨h ▸ hnone, hdir⟩
    · simp [hd] at hnone

theorem AddsDirectories.keepsDirectories (h : AddsDirectories fs fs') :
    KeepsDirectories fs fs' := by
  intro place hp
  rcases h place with h | ⟨-, hd⟩
  · rw [h, hp]
  · exact hd

theorem AddsDirectories.content? (h : AddsDirectories fs fs') (place : Place) :
    fs'.content? place = fs.content? place := by
  rcases h place with h | ⟨hnone, hdir⟩
  · exact content?_congr h
  · simp [Files.content?, hnone, hdir]

theorem at?_put_same (e : Entry) (h : fs.at? place ≠ some .directory) :
    (fs.put place e).at? place = some e := by
  cases place with
  | nil => simp at h
  | cons name place => simp

theorem addsDirectories_put (h : fs.at? place = none) :
    AddsDirectories fs (fs.put place .directory) := by
  intro q
  by_cases hq : q = place
  · subst hq
    exact Or.inr ⟨h, at?_put_same .directory (by simp [h])⟩
  · exact Or.inl (at?_put_of_ne fs .directory hq)

theorem addsDirectories_makeDirectory (h : fs.makeDirectory here p = .ok fs') :
    AddsDirectories fs fs' := by
  obtain ⟨place, -, h⟩ := bind_eq_ok.mp h
  split at h
  case h_1 => simp at h
  case h_2 hnone =>
    obtain rfl := Except.ok.inj h
    exact addsDirectories_put hnone

theorem addsDirectories_orKeep (h : fs.orKeep here p (fs.makeDirectory here p) = .ok fs') :
    AddsDirectories fs fs' := by
  cases hm : fs.makeDirectory here p with
  | ok made =>
    rw [hm] at h
    obtain rfl := Except.ok.inj h
    exact addsDirectories_makeDirectory hm
  | error e =>
    rw [hm] at h
    unfold orKeep at h
    split at h
    · simp_all
    · simp at h
    · split at h
      · obtain rfl := Except.ok.inj h
        exact .refl fs
      · simp at h

theorem addsDirectories_makeDirectoriesFrom (here : Place) (root : PathRoot) (fs : Files)
    (names : List Text) :
    AddsDirectories fs (makeDirectoriesFrom here root fs names).1 := by
  induction names generalizing fs with
  | nil =>
    unfold makeDirectoriesFrom
    split
    case h_1 made h => exact addsDirectories_orKeep h
    case h_2 => exact .refl fs
  | cons name around ih =>
    unfold makeDirectoriesFrom
    simp only
    split
    case h_1 made h => exact addsDirectories_orKeep h
    case h_2 h =>
      have haround := ih fs
      split
      case h_1 made e hm =>
        rw [hm] at haround
        exact haround
      case h_2 made hm =>
        rw [hm] at haround
        split
        case h_1 made' h' => exact haround.trans (addsDirectories_orKeep h')
        case h_2 => exact haround
    case h_3 => exact .refl fs

theorem addsDirectories_makeDirectories (fs : Files) (here : Place) (p : Path) :
    AddsDirectories fs (fs.makeDirectories here p).1 :=
  addsDirectories_makeDirectoriesFrom here p.root fs p.parts.reverse

/-- The regular file at `place` holds `bytes`, and every other regular file and every directory is
as it was. -/
structure Writes (fs fs' : Files) (place : Place) (bytes : ByteArray) : Prop where
  written : fs'.content? place = some bytes
  other : ∀ q, q ≠ place → fs'.content? q = fs.content? q
  keepsDirectories : KeepsDirectories fs fs'

theorem AddsDirectories.writes {bytes : ByteArray} (h : AddsDirectories fs fs')
    (hw : Writes fs' fs'' place bytes) : Writes fs fs'' place bytes where
  written := hw.written
  other q hq := (hw.other q hq).trans (h.content? q)
  keepsDirectories := h.keepsDirectories.trans hw.keepsDirectories

/-- Writing changes the place that its path leads to, before and after. -/
theorem writes_of_write {bytes : ByteArray} (h : fs.write here p bytes = .ok fs') :
    ∃ place, fs'.locate here p = .ok place ∧ Writes fs fs' place bytes := by
  obtain ⟨place, hl, h⟩ := bind_eq_ok.mp h
  split at h
  case h_1 => simp at h
  case h_2 hfile =>
    obtain rfl := Except.ok.inj h
    have hkeeps : KeepsDirectories fs (fs.put place (.file bytes)) := by
      intro q hq
      have hne : q ≠ place := by
        rintro rfl
        exact hfile hq
      rw [at?_put_of_ne fs _ hne, hq]
    refine ⟨place, hkeeps.locate hl, ?_, fun q hq => ?_, hkeeps⟩
    · simp [content?, at?_put_same (.file bytes) hfile]
    · exact content?_congr (at?_put_of_ne fs _ hq)

/-- The absolute path of a place leads to it. -/
def Stands (fs : Files) (place : Place) : Prop := fs.follow [] place.reverse = .ok place

instance (fs : Files) (place : Place) : Decidable (fs.Stands place) :=
  inferInstanceAs (Decidable (fs.follow [] place.reverse = .ok place))

theorem KeepsDirectories.stands (h : KeepsDirectories fs fs') (hs : fs.Stands place) :
    fs'.Stands place := h.follow hs

end Files
end Bulletin
