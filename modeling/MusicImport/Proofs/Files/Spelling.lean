import MusicImport.Proofs.Files.Entries
import MusicImport.Proofs.Files.WellFormed

/-! How a path is spelled. Without links a walk takes the steps that it is given, and those that stay where they
are count only at the end. So two paths to an entry with the same components lead to the same place, and a path
with another file name leads to a place beside. -/
namespace MusicImport
namespace FileTree

variable {t u : FileTree} {followLast : Bool} {fuel : Nat} {a p q : Place} {steps : List Step}
  {path other dir : FilePath} {name : String} {before : List FilePath.Component}

/-- Where steps lead without links, however many there are. All but the last lead to directories. -/
inductive Descends (t : FileTree) : Place → List Step → Place → Prop
  | here (a : Place) : Descends t a [] a
  | stay {a p : Place} {rest : List Step} (then' : Descends t a rest p) : Descends t a (.stay :: rest) p
  | up {a p : Place} {rest : List Step} (then' : Descends t a.dropLast rest p) :
      Descends t a (.up :: rest) p
  | last (a : Place) (name : String) : Descends t a [.down name] (a ++ [name])
  | down {a p : Place} {name : String} {rest : List Step}
      (directory : t.nodeAt? (a ++ [name]) = some .directory) (then' : Descends t (a ++ [name]) rest p) :
      Descends t a (.down name :: rest) p

theorem descends_of_walk (hl : t.NoLinks) (h : t.walk followLast fuel a steps = .ok p) :
    t.Descends a steps p ∧ steps.length ≤ fuel := by
  induction fuel generalizing a steps with
  | zero =>
    cases steps with
    | nil =>
      obtain rfl : a = p := by simpa using h
      exact ⟨.here a, Nat.le_refl _⟩
    | cons step rest => simp [walk] at h
  | succ fuel ih =>
    cases steps with
    | nil =>
      obtain rfl : a = p := by simpa using h
      exact ⟨.here a, Nat.zero_le _⟩
    | cons step rest =>
      rw [List.length_cons]
      cases step with
      | stay =>
        obtain ⟨hrest, hlength⟩ := ih h
        exact ⟨.stay hrest, by omega⟩
      | up =>
        obtain ⟨hrest, hlength⟩ := ih h
        exact ⟨.up hrest, by omega⟩
      | down name =>
        rcases walk_down h with ⟨hn, hw⟩ | ⟨target, hn, -, -⟩ | ⟨rfl, rfl, -⟩
        · obtain ⟨hrest, hlength⟩ := ih hw
          exact ⟨.down hn hrest, by omega⟩
        · exact absurd hn (hl _ target)
        · exact ⟨.last a name, by simp⟩

theorem Descends.walk (h : t.Descends a steps p) (hl : t.NoLinks) (hfuel : steps.length ≤ fuel) :
    t.walk followLast fuel a steps = .ok p := by
  induction h generalizing fuel with
  | here a => exact walk_nil t followLast fuel a
  | stay _ ih =>
    obtain ⟨fuel, rfl⟩ := Nat.exists_eq_add_one_of_ne_zero (Nat.ne_zero_of_lt hfuel)
    exact ih (Nat.le_of_succ_le_succ hfuel)
  | up _ ih =>
    obtain ⟨fuel, rfl⟩ := Nat.exists_eq_add_one_of_ne_zero (Nat.ne_zero_of_lt hfuel)
    exact ih (Nat.le_of_succ_le_succ hfuel)
  | last a name =>
    obtain ⟨fuel, rfl⟩ := Nat.exists_eq_add_one_of_ne_zero (Nat.ne_zero_of_lt hfuel)
    exact walk_last (hl _)
  | down hn _ ih =>
    obtain ⟨fuel, rfl⟩ := Nat.exists_eq_add_one_of_ne_zero (Nat.ne_zero_of_lt hfuel)
    simpa only [FileTree.walk, hn] using ih (Nat.le_of_succ_le_succ hfuel)

namespace Descends

theorem unique (h : t.Descends a steps p) (h' : t.Descends a steps q) : p = q := by
  induction h with
  | here a =>
    cases h'
    rfl
  | stay _ ih =>
    cases h' with
    | stay h' => exact ih h'
  | up _ ih =>
    cases h' with
    | up h' => exact ih h'
  | last a name =>
    cases h' with
    | last => rfl
    | down _ h' =>
      cases h'
      rfl
  | down _ hrest ih =>
    cases h' with
    | last =>
      cases hrest
      rfl
    | down _ h' => exact ih h'

theorem down_iff {rest : List Step} (hrest : rest ≠ []) : t.Descends a (.down name :: rest) p ↔
    t.nodeAt? (a ++ [name]) = some .directory ∧ t.Descends (a ++ [name]) rest p := by
  constructor
  · intro h
    cases h with
    | last => exact absurd rfl hrest
    | down hn h => exact ⟨hn, h⟩
  · intro h
    exact .down h.1 h.2

end Descends

/-- A step that goes elsewhere. -/
def Step.moves : Step → Bool
  | .stay => false
  | _ => true

/-- Steps that stay may be left out. -/
theorem Descends.moves (h : t.Descends a steps p) : t.Descends a (steps.filter Step.moves) p := by
  induction h with
  | here a => exact .here a
  | stay _ ih => exact ih
  | up _ ih => exact .up ih
  | last a name => exact .last a name
  | down hn _ ih => exact .down hn ih

/-- In front of a name they make no difference. -/
theorem descends_moves_iff : t.Descends a (steps.filter Step.moves ++ [.down name]) p ↔
    t.Descends a (steps ++ [.down name]) p := by
  induction steps generalizing a with
  | nil => rfl
  | cons step rest ih =>
    cases step with
    | stay =>
      rw [List.filter_cons_of_neg (by simp [Step.moves]), ih, List.cons_append]
      constructor
      · exact .stay
      · intro h
        cases h with
        | stay h => exact h
    | up =>
      rw [List.filter_cons_of_pos rfl, List.cons_append, List.cons_append]
      constructor
      · intro h
        cases h with
        | up h => exact .up (ih.mp h)
      · intro h
        cases h with
        | up h => exact .up (ih.mpr h)
    | down n =>
      rw [List.filter_cons_of_pos rfl, List.cons_append, List.cons_append, Descends.down_iff (by simp),
        Descends.down_iff (by simp), ih]

/-- Where a walk goes down to a name, it can go down to any other name. -/
theorem Descends.beside (h : t.Descends a (steps ++ [.down name]) p) (other : String) :
    t.Descends a (steps ++ [.down other]) (p.dropLast ++ [other]) := by
  induction steps generalizing a with
  | nil =>
    obtain rfl : p = a ++ [name] := h.unique (.last a name)
    rw [List.dropLast_concat]
    exact .last a other
  | cons step rest ih =>
    rw [List.cons_append] at h ⊢
    cases step with
    | stay =>
      cases h with
      | stay h => exact .stay (ih h)
    | up =>
      cases h with
      | up h => exact .up (ih h)
    | down n =>
      rw [Descends.down_iff (by simp)] at h ⊢
      exact ⟨h.1, ih h.2⟩

/-- The step that a component stands for, if it leads elsewhere. -/
def Step.ofComponent? : FilePath.Component → Option Step
  | .root => none
  | .here => none
  | .up => some .up
  | .name s => some (.down s)

/-- A piece leads where its component does. -/
theorem filter_ofPiece? {absolute first : Bool} {piece : String} (h : first && absolute → piece = "") :
    (Step.ofPiece? piece).toList.filter Step.moves =
      (FilePath.componentOf absolute first piece).filterMap Step.ofComponent? := by
  unfold FilePath.componentOf
  split
  next habsolute =>
    rw [h habsolute]
    rfl
  · unfold Step.ofPiece? FilePath.Component.ofPiece?
    split
    · rfl
    · split
      · cases first <;> rfl
      · split <;> rfl

theorem filter_pieces {absolute first : Bool} {pieces : List String}
    (h : first && absolute → pieces.head? = some "") :
    (pieces.filterMap Step.ofPiece?).filter Step.moves =
      (FilePath.componentsOf absolute first pieces).filterMap Step.ofComponent? := by
  induction pieces generalizing first with
  | nil => rfl
  | cons piece rest ih =>
    have hpiece : first && absolute → piece = "" := fun habsolute => by simpa using h habsolute
    have hfirst : (piece :: rest).filterMap Step.ofPiece? =
        (Step.ofPiece? piece).toList ++ rest.filterMap Step.ofPiece? := by
      rw [List.filterMap_cons]
      cases Step.ofPiece? piece <;> rfl
    have hrest : (rest.filterMap Step.ofPiece?).filter Step.moves =
        (FilePath.componentsOf absolute false rest).filterMap Step.ofComponent? := ih (by simp)
    rw [hfirst, List.filter_append, filter_ofPiece? hpiece, hrest, FilePath.componentsOf, List.filterMap_append]

/-- Where a path leads elsewhere is told by its components. -/
theorem moves_steps (path : FilePath) :
    (FileTree.steps path).filter Step.moves = path.components.filterMap Step.ofComponent? := by
  have hend : (if path.pieces.getLast? = some "" ∧ 1 < path.pieces.length then [Step.stay] else []).filter
      Step.moves = [] := by
    split <;> rfl
  rw [steps_eq, List.filter_append, hend, List.append_nil, FilePath.components_eq]
  apply filter_pieces
  intro habsolute
  exact (FilePath.isAbsolute_iff.mp (by simpa using habsolute)).1

/-- An entry is reached by the steps of its directory and one down. -/
theorem steps_join_name (h : IsName name) (dir : FilePath) :
    FileTree.steps (dir.join ⟨name⟩) = dir.pieces.filterMap Step.ofPiece? ++ [.down name] := by
  have hdown : [name].filterMap Step.ofPiece? = [.down name] := by
    simp [Step.ofPiece?, h.nonempty, h.not_here, h.not_up]
  have hlast (kept : List String) : (kept ++ [name]).getLast? ≠ some "" := by simp [h.nonempty]
  by_cases hne : dir.text = ""
  · have hdir : dir = ⟨""⟩ := congrArg FilePath.mk hne
    have hpieces := (FilePath.madeOf_name h).pieces
    rw [hdir, FilePath.join_empty (FilePath.madeOf_name h).not_absolute, steps_eq, hpieces,
      if_neg (fun hstay => hlast [] hstay.1), List.append_nil, hdown]
    rfl
  · obtain ⟨first, rest, hdir, hjoin⟩ := FilePath.pieces_join hne
    have hpieces := (hjoin (FilePath.madeOf_name h)).1
    rw [← List.cons_append] at hpieces
    rw [steps_eq, hpieces, if_neg (fun hstay => hlast _ hstay.1), List.append_nil, List.filterMap_append,
      hdown]
    rcases hdir with hdir | hdir
    · rw [hdir]
    · rw [hdir, ← List.cons_append, List.filterMap_append, List.append_assoc]
      rfl

/-- A path whose last step goes down to a name. -/
def IsEntry (path : FilePath) : Prop := ∃ before name, FileTree.steps path = before ++ [.down name]

theorem isEntry_join_name (h : IsName name) (dir : FilePath) : IsEntry (dir.join ⟨name⟩) :=
  ⟨_, name, steps_join_name h dir⟩

theorem IsEntry.text_ne (h : IsEntry path) : path.text ≠ "" := by
  obtain ⟨before, name, hsteps⟩ := h
  intro htext
  rw [show path = ⟨""⟩ from congrArg FilePath.mk htext, show FileTree.steps ⟨""⟩ = [] by decide] at hsteps
  simp at hsteps

theorem locate_iff (hl : t.NoLinks) : t.locate path followLast = .ok p ↔
    path.text ≠ "" ∧ t.Descends (origin path t.workingDirectory) (FileTree.steps path) p ∧
      (FileTree.steps path).length ≤ walkFuel := by
  unfold locate
  constructor
  · intro h
    split at h
    · cases h
    next htext => exact ⟨htext, descends_of_walk hl h⟩
  · rintro ⟨htext, hdescends, hlength⟩
    rw [if_neg htext]
    exact hdescends.walk hl hlength

/-- Where a path starts is told by its components. -/
theorem origin_congr (h : .root ∈ path.components ↔ .root ∈ other.components) (a : Place) :
    origin path a = origin other a := by
  have habsolute (p : FilePath) : p.isAbsolute ↔ .root ∈ p.components :=
    ⟨fun habs => List.mem_of_head? (FilePath.head?_components habs), FilePath.isAbsolute_of_root⟩
  have hiff : path.isAbsolute = other.isAbsolute := by
    rw [Bool.eq_iff_iff, habsolute, habsolute, h]
  rw [origin, origin, hiff]

/-- Entries with the same components are reached alike. -/
theorem descends_of_same (hsame : path.same other) (hpath : IsEntry path) (hother : IsEntry other) :
    t.Descends a (FileTree.steps path) p ↔ t.Descends a (FileTree.steps other) p := by
  obtain ⟨before, name, hsteps⟩ := hpath
  obtain ⟨before', name', hsteps'⟩ := hother
  have hmoves : before.filter Step.moves ++ [.down name] = before'.filter Step.moves ++ [.down name'] := by
    have hpath := moves_steps path
    have hother := moves_steps other
    rw [hsteps, List.filter_append] at hpath
    rw [hsteps', List.filter_append] at hother
    rw [FilePath.same_iff.mp hsame, ← hother] at hpath
    exact hpath
  rw [hsteps, hsteps', ← descends_moves_iff, hmoves, descends_moves_iff]

/-- A path that is no longer than walks may be leads where another one with its components does. -/
theorem locate_of_same (hl : t.NoLinks) (hsame : path.same other) (hpath : IsEntry path)
    (hother : IsEntry other) (hlength : (FileTree.steps path).length ≤ walkFuel)
    (h : t.locate other = .ok p) : t.locate path = .ok p := by
  obtain ⟨-, hdescends, -⟩ := (locate_iff hl).mp h
  have horigin : origin path t.workingDirectory = origin other t.workingDirectory :=
    origin_congr (by rw [FilePath.same_iff.mp hsame]) _
  rw [locate_iff hl, horigin, descends_of_same hsame hpath hother]
  exact ⟨hpath.text_ne, hdescends, hlength⟩

/-- What is there is there for every path with the same components that leads anywhere later. -/
theorem exists?_of_same (hl : t.NoLinks) (hlu : u.NoLinks) (hsame : path.same other) (hpath : IsEntry path)
    (hother : IsEntry other) (hlocate : u.locate path = .ok q) (h : t.exists? other) : t.exists? path := by
  obtain ⟨-, -, hlength⟩ := (locate_iff hlu).mp hlocate
  unfold exists? find? at *
  cases hp : t.locate other with
  | error e => simp [hp] at h
  | ok p =>
    rw [hp] at h
    rw [locate_of_same hl hsame hpath hother hlength hp]
    exact h

theorem moves_steps_entry (h : path.components = before ++ [.name name]) :
    (FileTree.steps path).filter Step.moves = before.filterMap Step.ofComponent? ++ [.down name] := by
  rw [moves_steps, h, List.filterMap_append]
  rfl

/-- A path takes the steps of a path above it first. -/
theorem steps_of_pieces {above : FilePath} {rest : List String} (hpieces : path.pieces = above.pieces ++ rest)
    (hlast : above.pieces.getLast? ≠ some "") : ∃ tail, FileTree.steps path =
      FileTree.steps above ++ (rest.filterMap Step.ofPiece? ++ tail) := by
  have habove : FileTree.steps above = above.pieces.filterMap Step.ofPiece? := by
    simp [steps_eq above, hlast]
  have hall := steps_eq path
  rw [hpieces, List.filterMap_append, List.append_assoc, ← habove] at hall
  exact ⟨_, hall⟩

/-- What counts as a component behind the first piece leads elsewhere. -/
theorem moves_of_counts {rest : List String} (h : rest.filterMap (FilePath.Component.ofPiece? false) ≠ []) :
    (rest.filterMap Step.ofPiece?).filter Step.moves ≠ [] := by
  obtain ⟨component, hmem⟩ := List.exists_mem_of_ne_nil _ h
  obtain ⟨piece, hpiece, hcomponent⟩ := List.mem_filterMap.mp hmem
  have hstep : ∃ step, Step.ofPiece? piece = some step ∧ step.moves := by
    unfold FilePath.Component.ofPiece? at hcomponent
    unfold Step.ofPiece?
    split at hcomponent
    · cases hcomponent
    next hne =>
      rw [if_neg hne]
      split at hcomponent
      · simp at hcomponent
      next hdot =>
        rw [if_neg hdot]
        split
        · exact ⟨_, rfl, rfl⟩
        · exact ⟨_, rfl, rfl⟩
  obtain ⟨step, hstep, hmoves⟩ := hstep
  exact List.ne_nil_of_mem (List.mem_filter.mpr ⟨List.mem_filterMap.mpr ⟨piece, hpiece, hstep⟩, hmoves⟩)

/-- A path with another file name takes no more steps. -/
theorem length_steps_withFileName (h : path.components = before ++ [.name name]) {new : String}
    (hnew : IsName new) : (FileTree.steps (path.withFileName new)).length ≤ (FileTree.steps path).length := by
  rw [FilePath.withFileName_eq h, steps_join_name hnew, List.length_append]
  have hpos : 0 < (FileTree.steps path).length := by
    have hmoves := congrArg List.length (moves_steps_entry h)
    have hle := List.length_filter_le Step.moves (FileTree.steps path)
    rw [List.length_append] at hmoves
    simp only [List.length_singleton] at hmoves
    omega
  rcases FilePath.parent_pieces (FilePath.parent?_eq h) with hempty | hroot | ⟨rest, hpieces, hrest, hlast, -⟩
  · rw [hempty]
    exact hpos
  · rw [hroot]
    exact hpos
  · obtain ⟨tail, hsteps⟩ := steps_of_pieces hpieces hlast
    have hparent : FileTree.steps (path.leading before) =
        (path.leading before).pieces.filterMap Step.ofPiece? := by simp [steps_eq (path.leading before), hlast]
    have hafter := List.length_pos_iff.mpr (moves_of_counts hrest)
    have hle := List.length_filter_le Step.moves (rest.filterMap Step.ofPiece?)
    rw [hsteps, hparent, List.length_append, List.length_append]
    simp only [List.length_singleton]
    omega

/-- A path with another file name leads to a place beside. -/
theorem locate_withFileName (hl : t.NoLinks) (h : path.components = before ++ [.name name]) {new : String}
    (hnew : IsName new) (hp : t.locate path = .ok p) :
    t.locate (path.withFileName new) = .ok (p.dropLast ++ [new]) := by
  obtain ⟨-, hdescends, hlength⟩ := (locate_iff hl).mp hp
  have hcomponents := FilePath.components_withFileName h hnew
  have horigin : origin (path.withFileName new) t.workingDirectory = origin path t.workingDirectory :=
    origin_congr (by simp [h, hcomponents]) _
  have hentry : IsEntry (path.withFileName new) := by
    rw [FilePath.withFileName_eq h]
    exact isEntry_join_name hnew _
  have hbeside := hdescends.moves
  rw [moves_steps_entry h] at hbeside
  rw [locate_iff hl, horigin]
  refine ⟨hentry.text_ne, ?_, Nat.le_trans (length_steps_withFileName h hnew) hlength⟩
  obtain ⟨kept, last, hsteps⟩ := hentry
  have hmoves : kept.filter Step.moves ++ [.down last] =
      before.filterMap Step.ofComponent? ++ [.down new] := by
    rw [← moves_steps_entry hcomponents, hsteps, List.filter_append]
    rfl
  rw [hsteps, ← descends_moves_iff, hmoves]
  exact hbeside.beside new

end FileTree
end MusicImport
