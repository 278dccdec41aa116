import MusicImport.Proofs.Files.Spelling

/-! Directories that are made for a path. What is new then is where the path itself or one of the directories that
it goes through leads, so nothing gets to the end of a direct path. -/
namespace MusicImport

namespace FilePath

/-- A path, its parent, the parent of that, and so on. -/
inductive Within : FilePath → FilePath → Prop
  | self (p : FilePath) : Within p p
  | parent {p q r : FilePath} (parent : p.parent? = some q) (within : Within r q) : Within r p

variable {p q parent : FilePath}

/-- A path goes on from every directory above it, with something that counts. -/
theorem Within.pieces (h : Within q parent) (hp : p.parent? = some parent) :
    q = ⟨""⟩ ∨ q = ⟨"/"⟩ ∨ ∃ rest, p.pieces = q.pieces ++ rest ∧
      rest.filterMap (Component.ofPiece? false) ≠ [] ∧ q.pieces.getLast? ≠ some "" ∧
      q.isAbsolute = p.isAbsolute := by
  induction h generalizing p with
  | self parent => exact parent_pieces hp
  | @parent parent next q hnext hwithin ih =>
    rcases ih hnext with hempty | hroot | ⟨rest, hpieces, hrest, hlast, habsolute⟩
    · exact .inl hempty
    · exact .inr (.inl hroot)
    · rcases parent_pieces hp with hempty | hroot | ⟨more, hmore, -, -, hsame⟩
      · subst hempty
        have hnone : (FilePath.mk "").parent? = none := by decide
        simp [hnone] at hnext
      · subst hroot
        have hnone : (FilePath.mk "/").parent? = none := by decide
        simp [hnone] at hnext
      · refine .inr (.inr ⟨rest ++ more, ?_, ?_, hlast, habsolute.trans hsame⟩)
        · rw [hmore, hpieces, List.append_assoc]
        · rw [List.filterMap_append]
          exact List.append_ne_nil_of_left_ne_nil hrest _

end FilePath

namespace FileTree

open FilePath

variable {t u : FileTree} {path dir : FilePath} {a p q : Place} {n : Node} {steps : List Step}

/-- What is new after directories were made is where one of them was asked for. -/
theorem made_within (hl : t.NoLinks) {fuel : Nat} (h : t.createDirectories fuel path = .ok u)
    (ht : t.nodeAt? p = none) (hu : u.nodeAt? p = some n) :
    ∃ within, Within within path ∧ u.locate within = .ok p := by
  have made {t u : FileTree} {path : FilePath} {n : Node} (hl : t.NoLinks)
      (h : t.createDirectory path = .ok u) (ht : t.nodeAt? p = none) (hu : u.nodeAt? p = some n) :
      u.locate path = .ok p := by
    obtain ⟨q, hq, hn, rfl⟩ := createDirectory_ok h
    have hpq : p = q := by
      apply Classical.byContradiction
      intro hne
      rw [nodeAt?_put_of_ne t _ hne, ht] at hu
      cases hu
    rw [locate_followLast hl] at hq
    exact hpq ▸ locate_of_extends (extends_put_directory hn) hq
  induction fuel generalizing t path u n with
  | zero => simp [createDirectories] at h
  | succ fuel ih =>
    unfold createDirectories at h
    split at h
    · cases h
      simp [ht] at hu
    · split at h
      next v hv =>
        cases h
        exact ⟨path, .self path, made hl hv ht hu⟩
      · split at h
        · cases h
        next parent hparent =>
          cases hv : t.createDirectories fuel parent with
          | error e => simp [hv, Bind.bind, Except.bind] at h
          | ok v =>
            simp only [hv, Bind.bind, Except.bind] at h
            have hadds := createDirectories_induct .refl .trans createDirectory_adds hv
            split at h
            next w hw =>
              cases h
              cases hp : v.nodeAt? p with
              | none => exact ⟨path, .self path, made (hadds.toExtends.noLinks hl) hw hp hu⟩
              | some m =>
                obtain ⟨within, hwithin, hlocate⟩ := ih hl hv ht hp
                have hext := (createDirectory_adds hw).toExtends
                exact ⟨within, .parent hparent hwithin, locate_of_extends hext hlocate⟩
            · split at h
              · cases h
                obtain ⟨within, hwithin, hlocate⟩ := ih hl hv ht hu
                exact ⟨within, .parent hparent hwithin, hlocate⟩
              · cases h
      · split at h
        · cases h
          simp [ht] at hu
        · cases h

namespace Descends

theorem behind {more : List Step} (h : t.Descends a steps p) (h' : t.Descends a (steps ++ more) q) :
    t.Descends p more q := by
  induction h with
  | here => exact h'
  | stay _ ih =>
    cases h' with
    | stay h' => exact ih h'
  | up _ ih =>
    cases h' with
    | up h' => exact ih h'
  | last a name =>
    cases h' with
    | last => exact .here _
    | down _ h' => exact h'
  | @down a p name rest _ hrest ih =>
    by_cases hnil : rest ++ more = []
    · obtain ⟨rfl, rfl⟩ := List.append_eq_nil_iff.mp hnil
      obtain rfl := hrest.unique (.here _)
      obtain rfl := h'.unique (.last a name)
      exact .here _
    · exact ih ((down_iff hnil).mp h').2

/-- Without double dots every step elsewhere leads one level down. -/
theorem length_eq (h : t.Descends a steps p) (hup : Step.up ∉ steps) :
    p.length = a.length + (steps.filter Step.moves).length := by
  induction h with
  | here => rfl
  | stay _ ih => exact ih (by simpa using hup)
  | up => simp at hup
  | last a name =>
    rw [List.length_append]
    rfl
  | down _ _ ih =>
    have hrest := ih (by simpa using hup)
    rw [List.filter_cons_of_pos rfl, List.length_cons, hrest, List.length_append, List.length_singleton]
    omega

end Descends

/-- Without double dots a path goes down from where it starts. -/
theorem direct_of_not_climbs (hw : t.WellFormed) (h : ¬ path.Climbs) : t.Direct path := by
  refine ⟨[], FileTree.steps path, _, rfl, fun hup => h ?_, walk_nil _ _ _ _,
    directory_origin path hw.workingDirectory⟩
  obtain ⟨⟨piece, i⟩, hmem, hp⟩ := List.mem_filterMap.mp hup
  have hpiece : piece ∈ path.pieces := by
    obtain ⟨-, -, hi⟩ := List.mem_zipIdx hmem
    simp [hi]
  dsimp only at hp
  split at hp
  · split at hp <;> cases hp
  · split at hp
    · cases hp
    · split at hp
      next hdots =>
        rw [hdots] at hpiece
        exact hpiece
      · cases hp

/-- A part of the steps of a direct path leads to a directory that is there, or goes straight on from one. -/
theorem Direct.split (hd : t.Direct path) (hw : t.WellFormed) {front back : List Step}
    (h : FileTree.steps path = front ++ back) :
    (∃ d, t.walk true walkFuel (origin path t.workingDirectory) front = .ok d ∧
      t.nodeAt? d = some .directory) ∨
    Step.up ∉ back ∧ ∃ before mid d, front = before ++ mid ∧ Step.up ∉ mid ∧
      t.walk true walkFuel (origin path t.workingDirectory) before = .ok d ∧
      t.nodeAt? d = some .directory := by
  obtain ⟨before, after, d, hsteps, hup, hbefore, hdir⟩ := hd
  rw [h] at hsteps
  rcases List.append_eq_append_iff.mp hsteps with ⟨mid, rfl, rfl⟩ | ⟨mid, rfl, rfl⟩
  · left
    by_cases hmid : mid = []
    · subst hmid
      rw [List.append_nil] at hbefore
      exact ⟨d, hbefore, hdir⟩
    · exact hw.walk_split hmid (directory_origin path hw.workingDirectory) hbefore
  · right
    rw [List.mem_append, not_or] at hup
    exact ⟨hup.2, before, mid, d, rfl, hup.1, hbefore, hdir⟩

/-- What lies above a direct path is direct. -/
theorem Direct.parent (hd : t.Direct path) (hw : t.WellFormed) (hparent : path.parent? = some dir) :
    t.Direct dir := by
  rcases parent_pieces hparent with rfl | rfl | ⟨rest, hpieces, -, hlast, habsolute⟩
  · exact direct_of_not_climbs hw (by decide)
  · exact direct_of_not_climbs hw (by decide)
  · obtain ⟨tail, hsteps⟩ := steps_of_pieces hpieces hlast
    have horigin : origin dir t.workingDirectory = origin path t.workingDirectory := by
      rw [origin, origin, habsolute]
    unfold Direct
    rw [horigin]
    rcases hd.split hw hsteps with ⟨d, hwalk, hdir⟩ | ⟨-, before, mid, d, hfront, hup, hwalk, hdir⟩
    · exact ⟨_, [], d, (List.append_nil _).symm, List.not_mem_nil, hwalk, hdir⟩
    · exact ⟨before, mid, d, hfront, hup, hwalk, hdir⟩

/-- An entry of a direct path is direct. -/
theorem Direct.join_name (hd : t.Direct path) (hw : t.WellFormed) {name : String} (hname : IsName name) :
    t.Direct (path.join ⟨name⟩) := by
  have hcomponents := components_join_name hname path
  have horigin : origin (path.join ⟨name⟩) t.workingDirectory = origin path t.workingDirectory :=
    origin_congr (by simp [hcomponents]) _
  have hsteps := steps_join_name hname path
  unfold Direct
  rw [hsteps, horigin]
  rcases hd.split hw (steps_eq path) with ⟨d, hwalk, hdir⟩ | ⟨-, before, mid, d, hfront, hup, hwalk, hdir⟩
  · exact ⟨_, [.down name], d, rfl, by simp, hwalk, hdir⟩
  · exact ⟨before, mid ++ [.down name], d, by rw [hfront, List.append_assoc], by simp [hup], hwalk, hdir⟩

/-- Beside a direct path every entry is direct. -/
theorem Direct.withFileName (hd : t.Direct path) (hw : t.WellFormed) {before : List Component}
    {name other : String} (h : path.components = before ++ [.name name]) (hother : IsName other) :
    t.Direct (path.withFileName other) := by
  rw [withFileName_eq h]
  exact (hd.parent hw (parent?_eq h)).join_name hw hother

/-- Nothing is made at the end of a direct path: where its double dots lead was there before, and behind them
every directory is above the one before. -/
theorem Direct.not_made (hd : t.Direct path) (hw : t.WellFormed) (hl : t.NoLinks)
    (hparent : path.parent? = some dir) (h : t.ensureDirectory dir = .ok u)
    (hq : u.locate path = .ok q) (ht : t.nodeAt? q = none) : u.nodeAt? q = none := by
  cases hu : u.nodeAt? q with
  | none => rfl
  | some n =>
    exfalso
    have hadds := ensureDirectory_adds h
    have hlu := hadds.toExtends.noLinks hl
    obtain ⟨within, hwithin, hlocate⟩ := made_within hl h ht hu
    rcases hwithin.pieces hparent with rfl | rfl | ⟨rest, hpieces, hrest, hlast, habsolute⟩
    · simp [FileTree.locate] at hlocate
    · obtain rfl : [] = q := Except.ok.inj hlocate
      simp at ht
    obtain ⟨tail, hafter⟩ := steps_of_pieces hpieces hlast
    have horigin (a : Place) : origin within a = origin path a := by rw [origin, origin, habsolute]
    have hcwd : u.workingDirectory = t.workingDirectory := hadds.workingDirectory
    obtain ⟨hne, hfirst, hlength⟩ := (locate_iff hlu).mp hlocate
    obtain ⟨-, hwhole, -⟩ := (locate_iff hlu).mp hq
    rcases hd.split hw hafter with ⟨e, hwalk, hdirectory⟩ | ⟨hup, -⟩
    · -- the directory is one of those that the double dots go through
      have he : t.locate within = .ok e := by
        unfold FileTree.locate
        rw [if_neg hne, horigin]
        exact hwalk
      obtain rfl : e = q := Except.ok.inj ((locate_of_extends hadds.toExtends he).symm.trans hlocate)
      simp [hdirectory] at ht
    · rw [horigin, hcwd] at hfirst
      rw [hafter, hcwd] at hwhole
      have hlevel := (hfirst.behind hwhole).length_eq hup
      have hpos := List.length_pos_iff.mpr (moves_of_counts hrest)
      rw [List.filter_append, List.length_append] at hlevel
      omega

end FileTree
end MusicImport
